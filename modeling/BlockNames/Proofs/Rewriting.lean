import Mathlib.Data.List.Basic
import BlockNames.Proofs.Fields
import BlockNames.Script.Annotation
import BlockNames.Script.Reference

/-!
Laws of rewriting. Changes that keep lists and objects as they are compose: two rewritings in a row
are one, and rewriting commutes with the removal of annotations. The references of a rewritten tree
are the changed references of the tree.
-/
namespace BlockNames

/-! A change may read the target of a binding, so every law says what becomes of targets. -/

def Site.mapTarget (change : Json → Json) : Site → Site
  | .name kind => .name kind
  | .binding target => .binding (target.map change)

def Shape.mapTarget (change : Json → Json) : Shape → Shape
  | .block => .block
  | .call target => .call (target.map change)
  | .binding target => .binding (target.map change)

def Role.mapTarget (change : Json → Json) : Role → Role
  | .value => .value
  | .arguments target => .arguments (target.map change)
  | .argument target => .argument (target.map change)

@[simp] theorem Role.item_mapTarget (change : Json → Json) (role : Role) :
    (role.mapTarget change).item = role.item.mapTarget change := by
  cases role <;> rfl

@[simp] theorem Shape.role_mapTarget (change : Json → Json) (shape : Shape) (key : String) :
    (shape.mapTarget change).role key = (shape.role key).mapTarget change := by
  cases shape with
  | block | binding => rfl
  | call target =>
      simp only [Shape.mapTarget, Shape.role]
      split <;> rfl

@[simp] theorem Shape.site?_mapTarget (change : Json → Json) (shape : Shape) (key : String) :
    (shape.mapTarget change).site? key = (shape.site? key).map (Site.mapTarget change) := by
  cases shape with
  | block =>
      simp only [Shape.mapTarget, Shape.site?, Option.map_map]
      rfl
  | call target | binding target =>
      simp only [Shape.mapTarget, Shape.site?]
      split <;> rfl

@[simp] theorem Shape.site?_kind (shape : Shape) : shape.site? Key.kind = none := by
  cases shape <;> rfl

@[simp] theorem Shape.site?_arguments (shape : Shape) : shape.site? Key.arguments = none := by
  cases shape <;> rfl

namespace Json

def IsLeaf : Json → Prop
  | .arr _ | .obj _ => False
  | .null | .bool _ | .num _ | .str _ => True

end Json

/-- A change that keeps lists and objects, and makes none out of anything else. -/
structure Leafwise (change : Site → Json → Json) : Prop where
  leaf : ∀ site value, value.IsLeaf → (change site value).IsLeaf
  inner : ∀ site value, ¬value.IsLeaf → change site value = value

namespace Json

theorem isLeaf_of_count? {value : Json} {count : Nat} (counted : value.count? = some count) :
    value.IsLeaf := by
  cases value with
  | null | bool | num | str => trivial
  | arr | obj => cases counted

theorem rewrite_of_isLeaf (change : Site → Json → Json) (role : Role) {value : Json}
    (leaf : value.IsLeaf) : value.rewrite change role = value := by
  cases value with
  | null | bool | num | str => rfl
  | arr | obj => exact leaf.elim

theorem isLeaf_rewrite_iff (change : Site → Json → Json) (role : Role) (value : Json) :
    (value.rewrite change role).IsLeaf ↔ value.IsLeaf := by
  cases value <;> rfl

@[simp] theorem str?_rewrite (change : Site → Json → Json) (role : Role) (value : Json) :
    (value.rewrite change role).str? = value.str? := by
  cases value <;> rfl

@[simp] theorem index?_rewrite (change : Site → Json → Json) (role : Role) (value : Json) :
    (value.rewrite change role).index? = value.index? := by
  cases value <;> rfl

@[simp] theorem count?_rewrite (change : Site → Json → Json) (role : Role) (value : Json) :
    (value.rewrite change role).count? = value.count? := by
  cases value <;> rfl

theorem rewriteItems_eq_map (change : Site → Json → Json) (role : Role) (items : List Json) :
    rewriteItems change role items = items.map (rewrite change role) := by
  induction items with
  | nil => rfl
  | cons item rest induction => simp only [rewriteItems, List.map_cons, induction]

theorem lookup_rewriteFields (change : Site → Json → Json) (shape : Shape) (fields : Fields)
    (key : String) :
    (rewriteFields change shape fields).lookup key =
      (fields.lookup key).map fun value =>
        Site.changed change (shape.site? key) (value.rewrite change (shape.role key)) := by
  induction fields with
  | nil => rfl
  | cons field rest induction =>
      obtain ⟨stored, value⟩ := field
      simp only [rewriteFields, List.lookup_cons]
      by_cases same : key = stored
      · subst same
        simp
      · simp only [beq_eq_false_iff_ne.mpr same, induction]

theorem keys_rewriteFields (change : Site → Json → Json) (shape : Shape) (fields : Fields) :
    (rewriteFields change shape fields).map Prod.fst = fields.map Prod.fst := by
  induction fields with
  | nil => rfl
  | cons field rest induction => simp only [rewriteFields, List.map_cons, induction]

theorem rewriteFields_replace (change : Site → Json → Json) {shape : Shape} (fields : Fields)
    {key : String} (free : shape.site? key = none) (value : Json) :
    rewriteFields change shape (fields.replace key value) =
      Fields.replace (rewriteFields change shape fields) key
        (value.rewrite change (shape.role key)) := by
  induction fields with
  | nil => rfl
  | cons field rest induction =>
      obtain ⟨stored, old⟩ := field
      simp only [Fields.replace_cons, rewriteFields, induction]
      by_cases same : stored = key
      · subst same
        simp only [if_true, free, Site.changed]
      · simp only [if_neg same]

private theorem string?_rewriteFields_of_site?_eq_none (change : Site → Json → Json) {shape : Shape}
    (fields : Fields) {key : String} (free : shape.site? key = none) :
    Fields.string? (rewriteFields change shape fields) key = fields.string? key := by
  unfold Fields.string?
  rw [lookup_rewriteFields, free]
  cases fields.lookup key with
  | none => rfl
  | some value => exact str?_rewrite change _ value

@[simp] theorem string?_kind_rewriteFields (change : Site → Json → Json) (shape : Shape)
    (fields : Fields) :
    Fields.string? (rewriteFields change shape fields) Key.kind = fields.string? Key.kind :=
  string?_rewriteFields_of_site?_eq_none change fields shape.site?_kind

@[simp] theorem ofFields_rewriteFields (change : Site → Json → Json) (shape : Shape)
    (fields : Fields) :
    ScriptKind.ofFields (rewriteFields change shape fields) = ScriptKind.ofFields fields := by
  simp only [ScriptKind.ofFields, string?_kind_rewriteFields]

/-- What a rewriting makes of the value that a call holds for its target. -/
def targetAfter (change : Site → Json → Json) (target : Json) : Json :=
  change (.name .function) (target.rewrite change .value)

theorem shape_rewriteFields (change : Site → Json → Json) (role : Role) (fields : Fields) :
    (role.mapTarget (targetAfter change)).shape (rewriteFields change (role.shape fields) fields) =
      (role.shape fields).mapTarget (targetAfter change) := by
  have unbound : Shape.ofFields (rewriteFields change (Shape.ofFields fields) fields) =
      (Shape.ofFields fields).mapTarget (targetAfter change) := by
    by_cases call : fields.string? Key.kind = some callKind
    · simp only [Shape.ofFields, string?_kind_rewriteFields, if_pos call, lookup_rewriteFields,
        Shape.mapTarget]
      rfl
    · simp only [Shape.ofFields, string?_kind_rewriteFields, if_neg call, Shape.mapTarget]
  cases role with
  | value | arguments => exact unbound
  | argument target => rfl

def changeThen (first second : Site → Json → Json) (site : Site) (value : Json) : Json :=
  second (site.mapTarget (targetAfter first)) (first site value)

private theorem changed_changed {first : Site → Json → Json} (leafwise : Leafwise first)
    (second : Site → Json → Json) (role : Role) (site? : Option Site) (value : Json)
    (rewritten : (value.rewrite first role).rewrite second (role.mapTarget (targetAfter first)) =
      value.rewrite (changeThen first second) role) :
    Site.changed second (site?.map (Site.mapTarget (targetAfter first)))
        ((Site.changed first site? (value.rewrite first role)).rewrite second
          (role.mapTarget (targetAfter first))) =
      Site.changed (changeThen first second) site?
        (value.rewrite (changeThen first second) role) := by
  cases site? with
  | none => exact rewritten
  | some site =>
      simp only [Option.map_some, Site.changed, changeThen]
      -- A leaf is changed in place; a list or an object is searched and then not changed.
      by_cases leaf : value.IsLeaf
      · rw [rewrite_of_isLeaf first role leaf, rewrite_of_isLeaf _ role leaf,
          rewrite_of_isLeaf second _ (leafwise.leaf site value leaf)]
      · have firstInner := mt (isLeaf_rewrite_iff first role value).mp leaf
        have bothInner := mt (isLeaf_rewrite_iff (changeThen first second) role value).mp leaf
        rw [leafwise.inner site _ firstInner, rewritten, leafwise.inner site _ bothInner]

mutual
theorem rewrite_rewrite {first : Site → Json → Json} (leafwise : Leafwise first)
    (second : Site → Json → Json) (role : Role) (tree : Json) :
    (tree.rewrite first role).rewrite second (role.mapTarget (targetAfter first)) =
      tree.rewrite (changeThen first second) role := by
  cases tree with
  | null | bool | num | str => rfl
  | arr items =>
      simp only [rewrite, Role.item_mapTarget]
      rw [rewriteItems_rewriteItems leafwise second role.item items]
  | obj fields =>
      simp only [rewrite, shape_rewriteFields]
      rw [rewriteFields_rewriteFields leafwise second (role.shape fields) fields]

private theorem rewriteItems_rewriteItems {first : Site → Json → Json} (leafwise : Leafwise first)
    (second : Site → Json → Json) (role : Role) (items : List Json) :
    rewriteItems second (role.mapTarget (targetAfter first)) (rewriteItems first role items) =
      rewriteItems (changeThen first second) role items := by
  cases items with
  | nil => rfl
  | cons item rest =>
      simp only [rewriteItems]
      rw [rewrite_rewrite leafwise second role item,
        rewriteItems_rewriteItems leafwise second role rest]

theorem rewriteFields_rewriteFields {first : Site → Json → Json} (leafwise : Leafwise first)
    (second : Site → Json → Json) (shape : Shape) (fields : List (String × Json)) :
    rewriteFields second (shape.mapTarget (targetAfter first))
        (rewriteFields first shape fields) =
      rewriteFields (changeThen first second) shape fields := by
  match fields with
  | [] => rfl
  | (key, value) :: rest =>
      simp only [rewriteFields, Shape.site?_mapTarget, Shape.role_mapTarget]
      rw [changed_changed leafwise second _ _ _
          (rewrite_rewrite leafwise second (shape.role key) value),
        rewriteFields_rewriteFields leafwise second shape rest]
end

mutual
/-- The condition holds of the value at every reference. -/
def EveryReference (condition : Json → Prop) (role : Role) : Json → Prop
  | .arr items => EveryItemReference condition role.item items
  | .obj fields => EveryFieldReference condition (role.shape fields) fields
  | .null | .bool _ | .num _ | .str _ => True

def EveryItemReference (condition : Json → Prop) (role : Role) : List Json → Prop
  | [] => True
  | item :: rest => EveryReference condition role item ∧ EveryItemReference condition role rest

def EveryFieldReference (condition : Json → Prop) (shape : Shape) :
    List (String × Json) → Prop
  | [] => True
  | (key, value) :: rest =>
      (shape.site? key ≠ none → condition value) ∧
        EveryReference condition (shape.role key) value ∧ EveryFieldReference condition shape rest
end

section Decide

variable (condition : Json → Prop) [DecidablePred condition]

mutual
private def decideEveryReference (role : Role) :
    (tree : Json) → Decidable (tree.EveryReference condition role)
  | .arr items => decideEveryItemReference role.item items
  | .obj fields => decideEveryFieldReference (role.shape fields) fields
  | .null | .bool _ | .num _ | .str _ => isTrue trivial

private def decideEveryItemReference (role : Role) :
    (items : List Json) → Decidable (EveryItemReference condition role items)
  | [] => isTrue trivial
  | item :: rest =>
      have := decideEveryReference role item
      have := decideEveryItemReference role rest
      inferInstanceAs (Decidable (_ ∧ _))

private def decideEveryFieldReference (shape : Shape) :
    (fields : List (String × Json)) → Decidable (EveryFieldReference condition shape fields)
  | [] => isTrue trivial
  | (key, value) :: rest =>
      have := decideEveryReference (shape.role key) value
      have := decideEveryFieldReference shape rest
      inferInstanceAs (Decidable ((shape.site? key ≠ none → condition value) ∧ _ ∧ _))
end

instance (role : Role) (tree : Json) : Decidable (tree.EveryReference condition role) :=
  decideEveryReference condition role tree

end Decide

mutual
theorem rewrite_eq_self {change : Site → Json → Json} {condition : Json → Prop}
    (fixed : ∀ site value, condition value → change site value = value) (role : Role) (tree : Json)
    (every : tree.EveryReference condition role) : tree.rewrite change role = tree := by
  cases tree with
  | null | bool | num | str => rfl
  | arr items =>
      simp only [rewrite]
      rw [rewriteItems_eq_self fixed role.item items every]
  | obj fields =>
      simp only [rewrite]
      rw [rewriteFields_eq_self fixed (role.shape fields) fields every]

private theorem rewriteItems_eq_self {change : Site → Json → Json} {condition : Json → Prop}
    (fixed : ∀ site value, condition value → change site value = value) (role : Role)
    (items : List Json) (every : EveryItemReference condition role items) :
    rewriteItems change role items = items := by
  cases items with
  | nil => rfl
  | cons item rest =>
      obtain ⟨here, later⟩ := every
      simp only [rewriteItems]
      rw [rewrite_eq_self fixed role item here, rewriteItems_eq_self fixed role rest later]

theorem rewriteFields_eq_self {change : Site → Json → Json} {condition : Json → Prop}
    (fixed : ∀ site value, condition value → change site value = value) (shape : Shape)
    (fields : List (String × Json)) (every : EveryFieldReference condition shape fields) :
    rewriteFields change shape fields = fields := by
  match fields with
  | [] => rfl
  | (key, value) :: rest =>
      obtain ⟨here, inside, later⟩ := every
      simp only [rewriteFields]
      rw [rewrite_eq_self fixed (shape.role key) value inside,
        rewriteFields_eq_self fixed shape rest later]
      cases found : shape.site? key with
      | none => rfl
      | some site =>
          have kept : change site value = value := fixed site value (here (by simp [found]))
          simp only [Site.changed, kept]
end

mutual
theorem everyReference_of_forall {condition : Json → Prop} (holds : ∀ value, condition value)
    (role : Role) (tree : Json) : tree.EveryReference condition role := by
  cases tree with
  | null | bool | num | str => trivial
  | arr items => exact everyItemReference_of_forall holds role.item items
  | obj fields => exact everyFieldReference_of_forall holds (role.shape fields) fields

private theorem everyItemReference_of_forall {condition : Json → Prop}
    (holds : ∀ value, condition value) (role : Role) (items : List Json) :
    EveryItemReference condition role items := by
  cases items with
  | nil => trivial
  | cons item rest =>
      exact ⟨everyReference_of_forall holds role item, everyItemReference_of_forall holds role rest⟩

private theorem everyFieldReference_of_forall {condition : Json → Prop}
    (holds : ∀ value, condition value) (shape : Shape) (fields : List (String × Json)) :
    EveryFieldReference condition shape fields := by
  match fields with
  | [] => trivial
  | (key, value) :: rest =>
      exact ⟨fun _ => holds value, everyReference_of_forall holds (shape.role key) value,
        everyFieldReference_of_forall holds shape rest⟩
end

theorem everyItemReference_iff (condition : Json → Prop) (role : Role) (items : List Json) :
    EveryItemReference condition role items ↔
      ∀ item ∈ items, item.EveryReference condition role := by
  induction items with
  | nil => simp [EveryItemReference]
  | cons item rest induction => simp [EveryItemReference, induction]

theorem everyFieldReference_iff (condition : Json → Prop) (shape : Shape) (fields : Fields) :
    EveryFieldReference condition shape fields ↔
      ∀ field ∈ fields, (shape.site? field.1 ≠ none → condition field.2) ∧
        field.2.EveryReference condition (shape.role field.1) := by
  induction fields with
  | nil => simp [EveryFieldReference]
  | cons field rest induction => simp [EveryFieldReference, induction, and_assoc]

theorem everyFieldReference_replace {condition : Json → Prop} {shape : Shape} {fields : Fields}
    {key : String} (free : shape.site? key = none) {value : Json}
    (inside : value.EveryReference condition (shape.role key))
    (every : EveryFieldReference condition shape fields) :
    EveryFieldReference condition shape (fields.replace key value) := by
  rw [everyFieldReference_iff] at every ⊢
  intro field member
  obtain ⟨old, oldMember, rfl⟩ := List.mem_map.mp member
  split
  · exact ⟨fun reference => absurd free reference, inside⟩
  · exact every old oldMember

end Json

def Reference.after (change : Site → Json → Json) (reference : Reference) : Reference :=
  ⟨reference.site.mapTarget (Json.targetAfter change),
    change reference.site (reference.value.rewrite change .value)⟩

namespace Json

private theorem bindings_rewrite (change : Site → Json → Json) (target arguments : Option Json) :
    bindings (target.map (targetAfter change))
        (arguments.map (rewrite change (.arguments target))) =
      (bindings target arguments).map (Reference.after change) := by
  cases arguments with
  | none => rfl
  | some arguments =>
      cases arguments with
      | null | bool | num | str | obj => rfl
      | arr items =>
          simp only [bindings, Option.map_some, rewrite, Option.bind_some, items?,
            Option.getD_some, rewriteItems_eq_map, List.filterMap_map, List.map_filterMap]
          refine List.filterMap_congr fun argument _ => ?_
          cases argument with
          | null | bool | num | str | arr => rfl
          | obj fields =>
              simp only [Function.comp_apply, rewrite, fields?, Option.bind_some,
                lookup_rewriteFields, Option.map_map]
              rfl

private theorem ownReferences_rewrite (change : Site → Json → Json) (shape : Shape)
    (fields : Fields) :
    (shape.mapTarget (targetAfter change)).references (rewriteFields change shape fields) =
      (shape.references fields).map (Reference.after change) := by
  cases shape with
  | binding target => rfl
  | block =>
      simp only [Shape.mapTarget, Shape.references, List.map_filterMap]
      refine List.filterMap_congr fun kind _ => ?_
      rw [lookup_rewriteFields, Option.map_map, Option.map_map]
      cases kind <;> rfl
  | call target =>
      simp only [Shape.mapTarget, Shape.references, List.map_append, lookup_rewriteFields]
      congr 1
      · exact bindings_rewrite change target _
      · cases fields.lookup NameKind.function.key <;> rfl

private theorem references_of_isLeaf (role : Role) {value : Json} (leaf : value.IsLeaf) :
    value.references role = [] := by
  cases value with
  | null | bool | num | str => rfl
  | arr | obj => exact leaf.elim

private theorem references_changed {change : Site → Json → Json} (leafwise : Leafwise change)
    (shape : Shape) (key : String) (role : Role) (value : Json) :
    (Site.changed change (shape.site? key)
        (value.rewrite change (shape.role key))).references role =
      (value.rewrite change (shape.role key)).references role := by
  cases shape.site? key with
  | none => rfl
  | some site =>
      simp only [Site.changed]
      by_cases leaf : (value.rewrite change (shape.role key)).IsLeaf
      · rw [references_of_isLeaf role leaf,
          references_of_isLeaf role (leafwise.leaf site _ leaf)]
      · rw [leafwise.inner site _ leaf]

mutual
theorem references_rewrite {change : Site → Json → Json} (leafwise : Leafwise change)
    (role : Role) (tree : Json) :
    (tree.rewrite change role).references (role.mapTarget (targetAfter change)) =
      (tree.references role).map (Reference.after change) := by
  cases tree with
  | null | bool | num | str => rfl
  | arr items =>
      simp only [rewrite, references, Role.item_mapTarget]
      rw [itemReferences_rewriteItems leafwise role.item items]
  | obj fields =>
      simp only [rewrite, references, shape_rewriteFields, List.map_append]
      rw [ownReferences_rewrite, fieldReferences_rewriteFields leafwise (role.shape fields) fields]

private theorem itemReferences_rewriteItems {change : Site → Json → Json}
    (leafwise : Leafwise change) (role : Role) (items : List Json) :
    itemReferences (role.mapTarget (targetAfter change)) (rewriteItems change role items) =
      (itemReferences role items).map (Reference.after change) := by
  cases items with
  | nil => rfl
  | cons item rest =>
      simp only [rewriteItems, itemReferences, List.map_append]
      rw [references_rewrite leafwise role item, itemReferences_rewriteItems leafwise role rest]

private theorem fieldReferences_rewriteFields {change : Site → Json → Json}
    (leafwise : Leafwise change) (shape : Shape) (fields : List (String × Json)) :
    fieldReferences (shape.mapTarget (targetAfter change)) (rewriteFields change shape fields) =
      (fieldReferences shape fields).map (Reference.after change) := by
  match fields with
  | [] => rfl
  | (key, value) :: rest =>
      simp only [rewriteFields, fieldReferences, Shape.role_mapTarget, List.map_append]
      rw [references_changed leafwise, references_rewrite leafwise (shape.role key) value,
        fieldReferences_rewriteFields leafwise shape rest]
end

end Json

end BlockNames
