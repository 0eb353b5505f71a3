import Mathlib.Logic.Equiv.Basic
import BlockNames.Proofs.ArgumentCount
import BlockNames.Proofs.Renaming

/-!
Names are opaque. Which names they are decides nothing: a tree resolved in a renamed table after
renaming is the renamed resolved tree, and the same references are reported in the same order. Main
statement: compaction commutes with any renaming that keeps different names of a kind different.
-/
namespace BlockNames

/-- What becomes of the value that a call holds for its target. -/
def Json.renameTarget (new : Renaming) (target : Json) : Json :=
  (target.rename new).renameAt (new .function)

def Reference.rename (new : Renaming) (reference : Reference) : Reference :=
  ⟨reference.site.mapTarget (Json.renameTarget new),
    (reference.value.rename new).renameAt (new reference.site.field)⟩

private theorem Shape.ofKey?_of_site?_eq_some {shape : Shape} {key : String} {site : Site}
    (found : shape.site? key = some site) : NameKind.ofKey? key = some site.field := by
  cases shape with
  | block =>
      obtain ⟨kind, known, rfl⟩ := Option.map_eq_some_iff.mp found
      exact known
  | call target | binding target =>
      simp only [Shape.site?] at found
      split at found
      next same =>
        obtain rfl := Option.some.inj found
        rw [same]
        rfl
      next => cases found

namespace Json

private theorem renameUnder_of_site?_eq_some (new : Renaming) {shape : Shape} {key : String}
    {site : Site} (found : shape.site? key = some site) (value : Json) :
    renameUnder new key value = value.renameAt (new site.field) := by
  unfold renameUnder
  rw [Shape.ofKey?_of_site?_eq_some found]

private theorem rewrite_renameAt (change : Site → Json → Json) (role : Role) (new : String → String)
    (value : Json) :
    (value.renameAt new).rewrite change role = (value.rewrite change role).renameAt new := by
  cases value <;> rfl

private theorem rewrite_renameUnder (change : Site → Json → Json) (role : Role) (new : Renaming)
    (key : String) (value : Json) :
    (renameUnder new key value).rewrite change role =
      renameUnder new key (value.rewrite change role) := by
  unfold renameUnder
  cases NameKind.ofKey? key with
  | none => rfl
  | some kind => exact rewrite_renameAt change role (new kind) value

private theorem references_renameUnder (role : Role) (new : Renaming) (key : String)
    (value : Json) :
    (renameUnder new key value).references role = value.references role := by
  unfold renameUnder
  cases NameKind.ofKey? key with
  | none => rfl
  | some kind => cases value <;> rfl

private theorem shape_renameFields (new : Renaming) (role : Role) (fields : Fields) :
    (role.mapTarget (renameTarget new)).shape (renameFields new fields) =
      (role.shape fields).mapTarget (renameTarget new) := by
  have unbound : Shape.ofFields (renameFields new fields) =
      (Shape.ofFields fields).mapTarget (renameTarget new) := by
    unfold Shape.ofFields
    rw [string?_kind_renameFields, lookup_renameFields]
    simp only [renameUnder_key]
    split <;> rfl
  cases role with
  | value | arguments => exact unbound
  | argument target => rfl

end Json

/-- The second change makes of renamed names what the first makes of the names, renamed. -/
def ChangesAlike (new : Renaming) (change renamed : Site → Json → Json) : Prop :=
  ∀ site value, renamed (site.mapTarget (Json.renameTarget new))
      ((Json.rename new value).renameAt (new site.field)) =
    ((change site value).rename new).renameAt (new site.field)

namespace Json

variable {new : Renaming} {change renamed : Site → Json → Json}

private theorem changed_renameUnder (alike : ChangesAlike new change renamed) (shape : Shape)
    (key : String) (value : Json) :
    Site.changed renamed ((shape.site? key).map (Site.mapTarget (renameTarget new)))
        (renameUnder new key (value.rename new)) =
      renameUnder new key ((Site.changed change (shape.site? key) value).rename new) := by
  cases found : shape.site? key with
  | none => rfl
  | some site =>
      simp only [Option.map_some, Site.changed, renameUnder_of_site?_eq_some new found]
      exact alike site value

mutual
theorem rewrite_rename (alike : ChangesAlike new change renamed) (role : Role) (tree : Json) :
    (tree.rename new).rewrite renamed (role.mapTarget (renameTarget new)) =
      (tree.rewrite change role).rename new := by
  cases tree with
  | null | bool | num | str => rfl
  | arr items =>
      simp only [rename, rewrite, Role.item_mapTarget]
      rw [rewriteItems_renameItems alike role.item items]
  | obj fields =>
      simp only [rename, rewrite, shape_renameFields]
      rw [rewriteFields_renameFields alike (role.shape fields) fields]

private theorem rewriteItems_renameItems (alike : ChangesAlike new change renamed) (role : Role)
    (items : List Json) :
    rewriteItems renamed (role.mapTarget (renameTarget new)) (renameItems new items) =
      renameItems new (rewriteItems change role items) := by
  cases items with
  | nil => rfl
  | cons item rest =>
      simp only [renameItems, rewriteItems]
      rw [rewrite_rename alike role item, rewriteItems_renameItems alike role rest]

private theorem rewriteFields_renameFields (alike : ChangesAlike new change renamed) (shape : Shape)
    (fields : List (String × Json)) :
    rewriteFields renamed (shape.mapTarget (renameTarget new)) (renameFields new fields) =
      renameFields new (rewriteFields change shape fields) := by
  match fields with
  | [] => rfl
  | (key, value) :: rest =>
      simp only [renameFields, rewriteFields, Shape.site?_mapTarget, Shape.role_mapTarget]
      rw [rewrite_renameUnder, rewrite_rename alike (shape.role key) value,
        changed_renameUnder alike, rewriteFields_renameFields alike shape rest]
end

private theorem bindings_rename (new : Renaming) (target arguments : Option Json) :
    bindings (target.map (renameTarget new)) (arguments.map (rename new)) =
      (bindings target arguments).map (Reference.rename new) := by
  cases arguments with
  | none => rfl
  | some arguments =>
      cases arguments with
      | null | bool | num | str | obj => rfl
      | arr items =>
          simp only [bindings, Option.map_some, rename, Option.bind_some, items?,
            Option.getD_some, renameItems_eq_map, List.filterMap_map, List.map_filterMap]
          refine List.filterMap_congr fun argument _ => ?_
          cases argument with
          | null | bool | num | str | arr => rfl
          | obj fields =>
              simp only [Function.comp_apply, rename, fields?, Option.bind_some,
                lookup_renameFields, Option.map_map]
              rfl

private theorem ownReferences_rename (new : Renaming) (shape : Shape) (fields : Fields) :
    (shape.mapTarget (renameTarget new)).references (renameFields new fields) =
      (shape.references fields).map (Reference.rename new) := by
  cases shape with
  | binding target => rfl
  | block =>
      simp only [Shape.mapTarget, Shape.references, List.map_filterMap]
      refine List.filterMap_congr fun kind _ => ?_
      rw [lookup_renameFields, Option.map_map, Option.map_map]
      cases kind <;> rfl
  | call target =>
      simp only [Shape.mapTarget, Shape.references, List.map_append]
      rw [lookup_renameFields_of_ofKey?_eq_none new fields rfl, lookup_renameFields,
        bindings_rename]
      cases fields.lookup NameKind.function.key <;> rfl

mutual
theorem references_rename (new : Renaming) (role : Role) (tree : Json) :
    (tree.rename new).references (role.mapTarget (renameTarget new)) =
      (tree.references role).map (Reference.rename new) := by
  cases tree with
  | null | bool | num | str => rfl
  | arr items =>
      simp only [rename, references, Role.item_mapTarget]
      rw [itemReferences_renameItems new role.item items]
  | obj fields =>
      simp only [rename, references, shape_renameFields, List.map_append]
      rw [ownReferences_rename, fieldReferences_renameFields new (role.shape fields) fields]

private theorem itemReferences_renameItems (new : Renaming) (role : Role) (items : List Json) :
    itemReferences (role.mapTarget (renameTarget new)) (renameItems new items) =
      (itemReferences role items).map (Reference.rename new) := by
  cases items with
  | nil => rfl
  | cons item rest =>
      simp only [renameItems, itemReferences, List.map_append]
      rw [references_rename new role item, itemReferences_renameItems new role rest]

private theorem fieldReferences_renameFields (new : Renaming) (shape : Shape)
    (fields : List (String × Json)) :
    fieldReferences (shape.mapTarget (renameTarget new)) (renameFields new fields) =
      (fieldReferences shape fields).map (Reference.rename new) := by
  match fields with
  | [] => rfl
  | (key, value) :: rest =>
      simp only [renameFields, fieldReferences, Shape.role_mapTarget, List.map_append]
      rw [references_renameUnder, references_rename new (shape.role key) value,
        fieldReferences_renameFields new shape rest]
end

end Json

def ReferenceKind.field : ReferenceKind → NameKind
  | .name kind => kind
  | .binding => .variable

namespace UnresolvedName

/-- The name that a report is about, with the kind of reference that holds it. -/
def subject (unresolved : UnresolvedName) : ReferenceKind × String :=
  (unresolved.kind, unresolved.name)

def renamedSubject (new : Renaming) (unresolved : UnresolvedName) : ReferenceKind × String :=
  (unresolved.kind, new unresolved.kind.field unresolved.name)

end UnresolvedName

/-- The second resolution is the first under new names. -/
structure Resolution.RenamedAs (new : Renaming) (resolution renamed : Resolution) : Prop where
  value : renamed.value = resolution.value.rename new
  unresolved : renamed.unresolved.map UnresolvedName.subject =
    resolution.unresolved.map (UnresolvedName.renamedSubject new)

namespace ScopeView

/-- The second view sees under new names what the first sees. -/
structure RenamedAs (new : Renaming) (view renamed : ScopeView) : Prop where
  table : renamed.table = view.table.rename new
  locals : renamed.locals = view.locals.rename (new .variable)

private theorem settle_rename (new : Renaming) (kind : ReferenceKind)
    (scope renamedScope : Option String) (name : String) (found : Option Int) :
    (settle kind renamedScope (new kind.field name) found).value =
        ((settle kind scope name found).value.rename new).renameAt (new kind.field) ∧
      (settle kind renamedScope (new kind.field name) found).unresolved.map
          UnresolvedName.subject =
        (settle kind scope name found).unresolved.map (UnresolvedName.renamedSubject new) := by
  cases found with
  | none => exact ⟨rfl, rfl⟩
  | some index => exact ⟨rfl, rfl⟩

section Views

variable {new : Renaming} (injective : ∀ kind, Function.Injective (new kind))
  {view renamed : ScopeView} (views : RenamedAs new view renamed)

include injective views

private theorem index_blockName_rename (kind : NameKind) (name : String) :
    ((renamed.locals.atSite (.name kind)).bind (·.get? (new kind name))).or
        ((renamed.table.globalNames kind).get? (new kind name)) =
      ((view.locals.atSite (.name kind)).bind (·.get? name)).or
        ((view.table.globalNames kind).get? name) := by
  have globalIndex : (renamed.table.globalNames kind).get? (new kind name) =
      (view.table.globalNames kind).get? name := by
    rw [views.table, SymbolTable.globalNames_rename, Namespace.get?_rename (injective kind)]
  rw [globalIndex, views.locals]
  cases kind with
  | list | image | function => rfl
  | _ => simp only [Namespace.atSite, Option.bind_some, Namespace.get?_rename (injective .variable)]

private theorem index_bindingName_rename (target name : String) :
    (renamed.table.localNames (.function (new .function target))).get? (new .variable name) =
      (view.table.localNames (.function target)).get? name := by
  have known := view.table.localNames?_rename injective (.function target)
  rw [← views.table] at known
  change renamed.table.localNames? (.function (new .function target)) = _ at known
  unfold SymbolTable.localNames
  rw [known]
  cases view.table.localNames? (.function target) with
  | none => rfl
  | some names => exact Namespace.get?_rename (injective .variable) names name

private theorem settled_rename (site : Site) (name : String) :
    (renamed.settled (site.mapTarget (Json.renameTarget new)) (new site.field name)).value =
        ((view.settled site name).value.rename new).renameAt (new site.field) ∧
      (renamed.settled (site.mapTarget (Json.renameTarget new))
          (new site.field name)).unresolved.map UnresolvedName.subject =
        (view.settled site name).unresolved.map (UnresolvedName.renamedSubject new) := by
  cases site with
  | name kind =>
      simp only [Site.mapTarget, settled, blockName_eq, Site.field]
      rw [index_blockName_rename injective views]
      exact settle_rename new (.name kind) _ _ name _
  | binding target =>
      -- Only a target that is given by name has local names.
      rcases target with _ | (_ | _ | _ | target | _ | _)
      case some.str =>
        change (renamed.bindingName (new .function target) (new .variable name)).value =
            ((view.bindingName target name).value.rename new).renameAt (new .variable) ∧
          (renamed.bindingName (new .function target) (new .variable name)).unresolved.map _ =
            (view.bindingName target name).unresolved.map _
        rw [bindingName_eq, bindingName_eq, index_bindingName_rename injective views]
        exact settle_rename new .binding _ _ name _
      all_goals exact ⟨rfl, rfl⟩

private theorem changesAlike : ChangesAlike new view.change renamed.change := by
  intro site value
  cases value with
  | null | bool | num | arr | obj => rfl
  | str name => exact (settled_rename injective views site name).1

private theorem reports_rename (reference : Reference) :
    (renamed.reports (reference.rename new)).map UnresolvedName.subject =
      (view.reports reference).map (UnresolvedName.renamedSubject new) := by
  obtain ⟨site, value⟩ := reference
  cases value with
  | null | bool | num | arr | obj => rfl
  | str name => exact (settled_rename injective views site name).2

theorem resolve_rename (tree : Json) :
    (view.resolve tree).RenamedAs new (renamed.resolve (tree.rename new)) where
  value := by
    rw [resolve_eq, resolve_eq]
    exact Json.rewrite_rename (changesAlike injective views) .value tree
  unresolved := by
    have references := Json.references_rename new .value tree
    change (tree.rename new).references .value = _ at references
    simp only [resolve_eq, references, List.map_flatMap, List.flatMap_map]
    exact List.flatMap_congr fun reference _ => reports_rename injective views reference

end Views

end ScopeView

private theorem Json.Fields.countArguments_renameFields (new : Renaming) (script : Json.Fields) :
    Json.Fields.countArguments (Json.renameFields new script) =
      Json.renameFields new script.countArguments := by
  unfold countArguments
  rw [Json.lookup_renameFields_of_ofKey?_eq_none new script rfl]
  cases script.lookup Key.arguments with
  | none => rfl
  | some value =>
      simp only [Option.map_some, Option.bind_some, Json.items?_rename]
      cases value.items? with
      | none => rfl
      | some declarations =>
          simp only [Option.map_some, List.length_map]
          rw [Json.renameFields_replace new script rfl]
          rfl

private theorem Json.Fields.counted_renameFields (new : Renaming) (script : Json.Fields) :
    Json.Fields.counted (Json.renameFields new script) = Json.renameFields new script.counted := by
  unfold counted
  rw [Json.ofFields_renameFields, countArguments_renameFields]
  split <;> rfl

namespace SymbolTable

variable {new : Renaming} (injective : ∀ kind, Function.Injective (new kind))

include injective

private theorem renamedAs_viewOf (table : SymbolTable) (script : Json.Fields) :
    (table.viewOf script).RenamedAs new
      ((table.rename new).viewOf (Json.renameFields new script)) where
  table := rfl
  locals := by
    rw [localsOfView_eq, localsOfView_eq, Scope.ofFields?_renameFields]
    cases Scope.ofFields? script with
    | none => rfl
    | some scope =>
        simp only [Option.map_some, Option.getD_some, localNames, localNames?_rename injective]
        cases table.localNames? scope <;> rfl

theorem resolveScoped_rename (table : SymbolTable) (item : Json) :
    (table.resolveScoped item).RenamedAs new
      ((table.rename new).resolveScoped (item.rename new)) := by
  cases item with
  | null | bool | num | str | arr =>
      have unscoped : ScopeView.RenamedAs new ⟨table, ∅, none⟩ ⟨table.rename new, ∅, none⟩ :=
        ⟨rfl, rfl⟩
      exact ScopeView.resolve_rename injective unscoped _
  | obj script =>
      simp only [Json.rename, resolveScoped_obj, Json.Fields.counted_renameFields]
      exact ScopeView.resolve_rename injective (table.renamedAs_viewOf injective script)
        (.obj (Json.Fields.counted script))

theorem resolve_rename (table : SymbolTable) (scripts : List Json) :
    (table.resolve (.arr scripts)).RenamedAs new
      ((table.rename new).resolve (.arr (scripts.map (Json.rename new)))) := by
  have each : ∀ item : Json, (table.resolveScoped item.eraseAnnotations).RenamedAs new
      ((table.rename new).resolveScoped (item.rename new).eraseAnnotations) := by
    intro item
    rw [Json.eraseAnnotations_rename]
    exact table.resolveScoped_rename injective item.eraseAnnotations
  rw [resolve_arr, resolve_arr]
  constructor
  · simp only [Json.rename, Json.renameItems_eq_map, List.map_map]
    exact congrArg Json.arr (List.map_congr_left fun item _ => (each item).value)
  · simp only [List.flatMap_map, List.map_flatMap]
    exact List.flatMap_congr fun item _ => (each item).unresolved

end SymbolTable

/-- Compaction commutes with renaming. The table of renamed scripts has the same indices under the
new names, the compacted value is the renamed one, and the same names are reported in the same order
by their new names. -/
theorem Json.compact_rename (new : Renaming) (injective : ∀ kind, Function.Injective (new kind))
    (scripts : List Json) :
    SymbolTable.ofScripts (scripts.map (Json.rename new)) =
        (SymbolTable.ofScripts scripts).rename new ∧
      ∃ before after, (Json.arr scripts).compact default = .ok before ∧
        ((Json.arr scripts).rename new).compact default = .ok after ∧
        after.value = before.value.rename new ∧
        after.table = before.table.rename new ∧
        after.unresolved.map UnresolvedName.subject =
          before.unresolved.map (UnresolvedName.renamedSubject new) := by
  have table := SymbolTable.ofScripts_rename injective scripts
  have resolved := (SymbolTable.ofScripts scripts).resolve_rename injective scripts
  have renamed : (Json.arr scripts).rename new = .arr (scripts.map (Json.rename new)) := by
    rw [Json.rename, Json.renameItems_eq_map]
  refine ⟨table, _, _, Json.compact_default _, Json.compact_default _, ?_⟩
  rw [renamed]
  simp only [Compaction.ofValue_arr, Compaction.ofScripts, table]
  exact ⟨resolved.value, trivial, resolved.unresolved⟩

/-- The variables `angle` and `speed` trade their names. -/
def tradedNames : Renaming
  | .variable => Equiv.swap "angle" "speed"
  | .list | .image | .function => id

/-- A function that uses its argument `angle` and an undeclared variable `speed`. -/
def undeclaredSpeed : List Json :=
  let use (name : String) := Json.obj [(NameKind.variable.key, .str name)]
  [.obj [
    (Key.arguments, .arr [use "angle"]), ("body", .arr [use "speed", use "angle"]),
    (NameKind.function.key, .str "turn"), (Key.kind, .str NameKind.function.key)]]

theorem Json.compact_rename_tradedNames :
    (∀ kind, Function.Injective (tradedNames kind)) ∧
      ∃ before after, (Json.arr undeclaredSpeed).compact default = .ok before ∧
        ((Json.arr undeclaredSpeed).rename tradedNames).compact default = .ok after ∧
        after.value = before.value.rename tradedNames ∧
        before.unresolved = [⟨.name .variable, "speed", some "turn"⟩] ∧
        after.unresolved = [⟨.name .variable, "angle", some "turn"⟩] := by
  have injective : ∀ kind, Function.Injective (tradedNames kind) := by
    intro kind
    cases kind with
    | list | image | function => exact Function.injective_id
    | _ => exact (Equiv.swap "angle" "speed").injective
  obtain ⟨-, before, after, compacted, compactedAfter, value, -⟩ :=
    Json.compact_rename tradedNames injective undeclaredSpeed
  refine ⟨injective, before, after, compacted, compactedAfter, value, ?_, ?_⟩
  · rw [← Except.ok.inj compacted]
    decide
  · rw [← Except.ok.inj compactedAfter]
    decide

end BlockNames
