import BlockNames.Proofs.Fields
import BlockNames.Proofs.Rewriting
import BlockNames.Resolution

/-!
Annotations mean nothing: what a script is, what it declares and what it refers to is read off the
script without them, and they may be removed before or after a rewriting.
-/
namespace BlockNames

namespace Json

@[simp] theorem str?_eraseAnnotations (value : Json) :
    value.eraseAnnotations.str? = value.str? := by
  cases value <;> rfl

@[simp] theorem count?_eraseAnnotations (value : Json) :
    value.eraseAnnotations.count? = value.count? := by
  cases value <;> rfl

theorem eraseItemAnnotations_eq_map (items : List Json) :
    eraseItemAnnotations items = items.map eraseAnnotations := by
  induction items with
  | nil => rfl
  | cons item rest induction => simp only [eraseItemAnnotations, List.map_cons, induction]

@[simp] theorem items?_eraseAnnotations (value : Json) :
    value.eraseAnnotations.items? = value.items?.map (List.map eraseAnnotations) := by
  cases value with
  | arr items => simp only [eraseAnnotations, items?, Option.map_some, eraseItemAnnotations_eq_map]
  | null | bool | num | str | obj => rfl

@[simp] theorem fields?_eraseAnnotations (value : Json) :
    value.eraseAnnotations.fields? = value.fields?.map eraseFieldAnnotations := by
  cases value <;> rfl

theorem lookup_eraseFieldAnnotations (fields : Fields) {key : String}
    (different : key ≠ Key.annotation) :
    (eraseFieldAnnotations fields).lookup key = (fields.lookup key).map eraseAnnotations := by
  induction fields with
  | nil => rfl
  | cons field rest induction =>
      obtain ⟨stored, value⟩ := field
      simp only [eraseFieldAnnotations]
      split
      next erased =>
        have skipped : (key == stored) = false :=
          beq_eq_false_iff_ne.mpr (erased ▸ different)
        rw [induction, List.lookup_cons, skipped]
      next =>
        simp only [List.lookup_cons]
        cases key == stored with
        | true => rfl
        | false => exact induction

theorem string?_eraseFieldAnnotations (fields : Fields) {key : String}
    (different : key ≠ Key.annotation) :
    Fields.string? (eraseFieldAnnotations fields) key = fields.string? key := by
  unfold Fields.string?
  rw [lookup_eraseFieldAnnotations fields different]
  cases fields.lookup key with
  | none => rfl
  | some value => exact str?_eraseAnnotations value

theorem eraseFieldAnnotations_replace (fields : Fields) (key : String) (value : Json) :
    eraseFieldAnnotations (fields.replace key value) =
      Fields.replace (eraseFieldAnnotations fields) key value.eraseAnnotations := by
  induction fields with
  | nil => rfl
  | cons field rest induction =>
      obtain ⟨stored, old⟩ := field
      simp only [Fields.replace_cons, eraseFieldAnnotations]
      split
      · exact induction
      · rw [Fields.replace_cons, induction, apply_ite eraseAnnotations]

end Json

@[simp] theorem NameKind.key_ne_annotation (kind : NameKind) : kind.key ≠ Key.annotation := by
  cases kind <;> decide

@[simp] theorem ScriptKind.ofFields_eraseFieldAnnotations (fields : Json.Fields) :
    ScriptKind.ofFields (Json.eraseFieldAnnotations fields) = ScriptKind.ofFields fields := by
  unfold ScriptKind.ofFields
  rw [Json.string?_eraseFieldAnnotations fields (by decide)]

@[simp] theorem Scope.ofFields?_eraseFieldAnnotations (fields : Json.Fields) :
    Scope.ofFields? (Json.eraseFieldAnnotations fields) = Scope.ofFields? fields := by
  unfold Scope.ofFields?
  rw [ScriptKind.ofFields_eraseFieldAnnotations,
    Json.string?_eraseFieldAnnotations fields (NameKind.key_ne_annotation _)]

theorem Json.declaredNames_eraseFieldAnnotations (fields : Json.Fields) {key : String}
    (different : key ≠ Key.annotation) :
    Json.Fields.declaredNames (Json.eraseFieldAnnotations fields) key =
      fields.declaredNames key := by
  unfold Json.Fields.declaredNames
  rw [Json.lookup_eraseFieldAnnotations fields different]
  cases fields.lookup key with
  | none => rfl
  | some value =>
      simp only [Option.map_some, Option.bind_some, Json.items?_eraseAnnotations]
      cases value.items? with
      | none => rfl
      | some items =>
          simp only [Option.map_some, Option.getD_some, List.filterMap_map]
          refine List.filterMap_congr fun entry _ => ?_
          simp only [Function.comp_apply, Json.fields?_eraseAnnotations]
          cases entry.fields? with
          | none => rfl
          | some inner =>
              exact Json.string?_eraseFieldAnnotations inner (NameKind.key_ne_annotation _)

theorem Json.countArguments_eraseFieldAnnotations (fields : Json.Fields) :
    Json.Fields.countArguments (Json.eraseFieldAnnotations fields) =
      Json.eraseFieldAnnotations fields.countArguments := by
  unfold Json.Fields.countArguments
  rw [Json.lookup_eraseFieldAnnotations fields (by decide)]
  cases fields.lookup Key.arguments with
  | none => rfl
  | some value =>
      simp only [Option.map_some, Option.bind_some, Json.items?_eraseAnnotations]
      cases value.items? with
      | none => rfl
      | some declarations =>
          simp only [Option.map_some, List.length_map]
          rw [Json.eraseFieldAnnotations_replace]
          rfl

namespace Json

private theorem shape_eraseFieldAnnotations (role : Role) (fields : Fields) :
    (role.mapTarget eraseAnnotations).shape (eraseFieldAnnotations fields) =
      (role.shape fields).mapTarget eraseAnnotations := by
  have unbound : Shape.ofFields (eraseFieldAnnotations fields) =
      (Shape.ofFields fields).mapTarget eraseAnnotations := by
    unfold Shape.ofFields
    rw [string?_eraseFieldAnnotations fields (by decide),
      lookup_eraseFieldAnnotations fields (NameKind.key_ne_annotation _)]
    split <;> rfl
  cases role with
  | value | arguments => exact unbound
  | argument target => rfl

private theorem eraseAnnotations_changed {change : Site → Json → Json}
    (respects : ∀ site value, (change site value).eraseAnnotations =
      change (site.mapTarget eraseAnnotations) value.eraseAnnotations)
    (site? : Option Site) (value : Json) :
    (Site.changed change site? value).eraseAnnotations =
      Site.changed change (site?.map (Site.mapTarget eraseAnnotations)) value.eraseAnnotations := by
  cases site? with
  | none => rfl
  | some site => exact respects site value

mutual
theorem eraseAnnotations_rewrite {change : Site → Json → Json}
    (respects : ∀ site value, (change site value).eraseAnnotations =
      change (site.mapTarget eraseAnnotations) value.eraseAnnotations)
    (role : Role) (tree : Json) :
    (tree.rewrite change role).eraseAnnotations =
      tree.eraseAnnotations.rewrite change (role.mapTarget eraseAnnotations) := by
  cases tree with
  | null | bool | num | str => rfl
  | arr items =>
      simp only [rewrite, eraseAnnotations, Role.item_mapTarget]
      rw [eraseItemAnnotations_rewriteItems respects role.item items]
  | obj fields =>
      simp only [rewrite, eraseAnnotations, shape_eraseFieldAnnotations]
      rw [eraseFieldAnnotations_rewriteFields respects (role.shape fields) fields]

private theorem eraseItemAnnotations_rewriteItems {change : Site → Json → Json}
    (respects : ∀ site value, (change site value).eraseAnnotations =
      change (site.mapTarget eraseAnnotations) value.eraseAnnotations)
    (role : Role) (items : List Json) :
    eraseItemAnnotations (rewriteItems change role items) =
      rewriteItems change (role.mapTarget eraseAnnotations) (eraseItemAnnotations items) := by
  cases items with
  | nil => rfl
  | cons item rest =>
      simp only [rewriteItems, eraseItemAnnotations]
      rw [eraseAnnotations_rewrite respects role item,
        eraseItemAnnotations_rewriteItems respects role rest]

theorem eraseFieldAnnotations_rewriteFields {change : Site → Json → Json}
    (respects : ∀ site value, (change site value).eraseAnnotations =
      change (site.mapTarget eraseAnnotations) value.eraseAnnotations)
    (shape : Shape) (fields : List (String × Json)) :
    eraseFieldAnnotations (rewriteFields change shape fields) =
      rewriteFields change (shape.mapTarget eraseAnnotations) (eraseFieldAnnotations fields) := by
  match fields with
  | [] => rfl
  | (key, value) :: rest =>
      simp only [rewriteFields, eraseFieldAnnotations]
      split
      next => exact eraseFieldAnnotations_rewriteFields respects shape rest
      next =>
        simp only [rewriteFields, Shape.site?_mapTarget, Shape.role_mapTarget]
        rw [eraseAnnotations_changed respects, eraseAnnotations_rewrite respects,
          eraseFieldAnnotations_rewriteFields respects shape rest]
end

theorem keys_eraseFieldAnnotations (fields : Fields) :
    (eraseFieldAnnotations fields).map Prod.fst =
      (fields.map Prod.fst).filter (· ≠ Key.annotation) := by
  induction fields with
  | nil => rfl
  | cons field rest induction =>
      obtain ⟨key, value⟩ := field
      simp only [eraseFieldAnnotations, List.map_cons]
      split
      next erased => rw [induction, List.filter_cons_of_neg (by simp [erased])]
      next kept => rw [List.map_cons, induction, List.filter_cons_of_pos (by simp [kept])]

mutual
theorem eraseAnnotations_eraseAnnotations (tree : Json) :
    tree.eraseAnnotations.eraseAnnotations = tree.eraseAnnotations := by
  cases tree with
  | null | bool | num | str => rfl
  | arr items =>
      simp only [eraseAnnotations]
      rw [eraseItemAnnotations_eraseItemAnnotations items]
  | obj fields =>
      simp only [eraseAnnotations]
      rw [eraseFieldAnnotations_eraseFieldAnnotations fields]

private theorem eraseItemAnnotations_eraseItemAnnotations (items : List Json) :
    eraseItemAnnotations (eraseItemAnnotations items) = eraseItemAnnotations items := by
  cases items with
  | nil => rfl
  | cons item rest =>
      simp only [eraseItemAnnotations]
      rw [eraseAnnotations_eraseAnnotations item, eraseItemAnnotations_eraseItemAnnotations rest]

theorem eraseFieldAnnotations_eraseFieldAnnotations (fields : List (String × Json)) :
    eraseFieldAnnotations (eraseFieldAnnotations fields) = eraseFieldAnnotations fields := by
  match fields with
  | [] => rfl
  | (key, value) :: rest =>
      simp only [eraseFieldAnnotations]
      split
      next => exact eraseFieldAnnotations_eraseFieldAnnotations rest
      next kept =>
        simp only [eraseFieldAnnotations, if_neg kept]
        rw [eraseAnnotations_eraseAnnotations value,
          eraseFieldAnnotations_eraseFieldAnnotations rest]
end

theorem eraseFieldAnnotations_eq_self_iff (fields : Fields) :
    eraseFieldAnnotations fields = fields ↔
      ∀ field ∈ fields, field.1 ≠ Key.annotation ∧ field.2.eraseAnnotations = field.2 := by
  induction fields with
  | nil => simp [eraseFieldAnnotations]
  | cons field rest induction =>
      obtain ⟨key, value⟩ := field
      rw [List.forall_mem_cons, ← induction]
      simp only [eraseFieldAnnotations]
      split
      next erased =>
        -- Without this field the list would be shorter.
        have shorter : eraseFieldAnnotations rest ≠ (key, value) :: rest := by
          intro same
          have keys := congrArg (List.length ∘ List.map Prod.fst) same
          have bound := List.length_filter_le (· ≠ Key.annotation) (rest.map Prod.fst)
          simp only [Function.comp_apply, keys_eraseFieldAnnotations, List.map_cons,
            List.length_cons] at keys
          omega
        exact iff_of_false shorter fun plain => plain.1.1 erased
      next kept => simp [kept]

mutual
theorem DistinctKeys.eraseAnnotations (tree : Json) (distinct : tree.DistinctKeys) :
    tree.eraseAnnotations.DistinctKeys := by
  cases tree with
  | null | bool | num | str => trivial
  | arr items => exact DistinctItemKeys.eraseAnnotations items distinct
  | obj fields =>
      refine ⟨?_, DistinctFieldKeys.eraseAnnotations fields distinct.2⟩
      rw [keys_eraseFieldAnnotations]
      exact List.Nodup.filter _ distinct.1

theorem DistinctItemKeys.eraseAnnotations (items : List Json) (distinct : DistinctItemKeys items) :
    DistinctItemKeys (eraseItemAnnotations items) := by
  cases items with
  | nil => trivial
  | cons item rest =>
      exact ⟨DistinctKeys.eraseAnnotations item distinct.1,
        DistinctItemKeys.eraseAnnotations rest distinct.2⟩

theorem DistinctFieldKeys.eraseAnnotations (fields : List (String × Json))
    (distinct : DistinctFieldKeys fields) : DistinctFieldKeys (eraseFieldAnnotations fields) := by
  match fields with
  | [] => trivial
  | (key, value) :: rest =>
      simp only [eraseFieldAnnotations]
      split
      · exact DistinctFieldKeys.eraseAnnotations rest distinct.2
      · exact ⟨DistinctKeys.eraseAnnotations value distinct.1,
          DistinctFieldKeys.eraseAnnotations rest distinct.2⟩
end

end Json

/-- A document without its annotations. -/
def Document.eraseAnnotations (document : Document) : Document :=
  ⟨document.tree.eraseAnnotations, Json.DistinctKeys.eraseAnnotations _ document.distinctKeys⟩

theorem ScriptList.distinctKeys_eraseAnnotations (scripts : ScriptList) {script : Json}
    (member : script ∈ scripts.items) : script.eraseAnnotations.DistinctKeys := by
  have listed := (Json.distinctItemKeys_iff scripts.items).mp scripts.distinctKeys script member
  exact Json.DistinctKeys.eraseAnnotations script listed

end BlockNames
