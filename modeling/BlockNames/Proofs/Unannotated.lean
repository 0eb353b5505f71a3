import BlockNames.Proofs.ArgumentCount
import BlockNames.Proofs.Compaction
import BlockNames.Proofs.Position

/-!
Annotations are never observed. Resolution of a tree without annotations brings none in. Main
statement: a value compacts to the same result, with the same reports and the same log, with and
without its annotations, and the result has no annotation at any depth.
-/
namespace BlockNames

def Json.Unannotated (tree : Json) : Prop :=
  ∀ path fields, tree.at? path = some (.obj fields) → Key.annotation ∉ fields.map Prod.fst

namespace Json

private theorem child?_eraseAnnotations {tree inner : Json} {step : Step}
    (child : tree.eraseAnnotations.child? step = some inner) :
    ∃ original : Json, inner = original.eraseAnnotations := by
  cases tree with
  | null | bool | num | str => cases child
  | arr items =>
      cases step with
      | field key => cases child
      | item index =>
          simp only [eraseAnnotations, child?, eraseItemAnnotations_eq_map,
            List.getElem?_map] at child
          obtain ⟨original, -, erased⟩ := Option.map_eq_some_iff.mp child
          exact ⟨original, erased.symm⟩
  | obj fields =>
      cases step with
      | item index => cases child
      | field key =>
          simp only [eraseAnnotations, child?] at child
          have member := Fields.mem_of_lookup_eq_some child
          have plain := eraseFieldAnnotations_eraseFieldAnnotations fields
          rw [eraseFieldAnnotations_eq_self_iff] at plain
          exact ⟨inner, (plain _ member).2.symm⟩

theorem unannotated_eraseAnnotations (tree : Json) : tree.eraseAnnotations.Unannotated := by
  intro path
  induction path generalizing tree with
  | nil =>
      intro fields found
      cases tree with
      | null | bool | num | str | arr => cases found
      | obj original =>
          obtain rfl := Json.obj.inj (Option.some.inj found)
          rw [keys_eraseFieldAnnotations]
          intro member
          exact of_decide_eq_true (List.mem_filter.mp member).2 rfl
  | cons step path induction =>
      intro fields found
      obtain ⟨inner, child, found⟩ := Option.bind_eq_some_iff.mp found
      obtain ⟨original, rfl⟩ := child?_eraseAnnotations child
      exact induction original fields found

private theorem Unannotated.of_eraseAnnotations_eq_self {tree : Json}
    (plain : tree.eraseAnnotations = tree) : tree.Unannotated :=
  plain ▸ tree.unannotated_eraseAnnotations

theorem Fields.counted_eraseFieldAnnotations (script : Fields) :
    Fields.counted (eraseFieldAnnotations script) = eraseFieldAnnotations script.counted := by
  simp only [Fields.counted, ScriptKind.ofFields_eraseFieldAnnotations,
    countArguments_eraseFieldAnnotations]
  split <;> rfl

end Json

namespace ScopeView

private theorem eraseAnnotations_change (view : ScopeView) (site : Site) (value : Json) :
    (view.change site value).eraseAnnotations =
      view.change (site.mapTarget Json.eraseAnnotations) value.eraseAnnotations := by
  cases value with
  | null | bool | num | arr | obj => rfl
  | str name =>
      have settledLeaf : ∀ kind scope found,
          (settle kind scope name found).value.eraseAnnotations =
            (settle kind scope name found).value := by
        intro kind scope found
        cases found <;> rfl
      cases site with
      | name kind => exact settledLeaf _ _ _
      | binding target =>
          rcases target with _ | (_ | _ | _ | _ | _ | _)
          case some.str => exact settledLeaf _ _ _
          all_goals rfl

theorem eraseAnnotations_resolve (view : ScopeView) {tree : Json}
    (plain : tree.eraseAnnotations = tree) :
    (view.resolve tree).value.eraseAnnotations = (view.resolve tree).value := by
  rw [resolve_eq]
  have erased := Json.eraseAnnotations_rewrite view.eraseAnnotations_change .value tree
  rw [plain] at erased
  exact erased

end ScopeView

namespace SymbolTable

theorem eraseAnnotations_resolveScoped (table : SymbolTable) {item : Json}
    (plain : item.eraseAnnotations = item) :
    (table.resolveScoped item).value.eraseAnnotations = (table.resolveScoped item).value := by
  cases item with
  | null | bool | num | str | arr => exact ScopeView.eraseAnnotations_resolve _ plain
  | obj script =>
      apply ScopeView.eraseAnnotations_resolve
      have counted := Json.Fields.counted_eraseFieldAnnotations script
      rw [Json.obj.inj plain] at counted
      exact congrArg Json.obj counted.symm

theorem eraseAnnotations_resolve (table : SymbolTable) (scripts : Json) :
    (table.resolve scripts).value.eraseAnnotations = (table.resolve scripts).value := by
  cases scripts with
  | null | bool | num | str | obj =>
      rw [resolve_of_items?_eq_none table rfl]
      exact ScopeView.eraseAnnotations_resolve _ (Json.eraseAnnotations_eraseAnnotations _)
  | arr items =>
      simp only [resolve_arr, Json.eraseAnnotations, Json.eraseItemAnnotations_eq_map,
        List.map_map]
      apply congrArg Json.arr
      apply List.map_congr_left
      intro item _
      exact table.eraseAnnotations_resolveScoped item.eraseAnnotations_eraseAnnotations

theorem eraseFieldAnnotations_compactFields (table : SymbolTable) (program : Json.Fields) :
    Json.eraseFieldAnnotations (table.compactFields program) = table.compactFields program := by
  rw [Json.eraseFieldAnnotations_eq_self_iff]
  intro field member
  obtain ⟨⟨key, value⟩, listed, rfl⟩ := List.mem_map.mp member
  refine ⟨of_decide_eq_true (List.mem_filter.mp listed).2, ?_⟩
  dsimp only
  split
  · exact table.eraseAnnotations_resolve value
  · exact value.eraseAnnotations_eraseAnnotations

end SymbolTable

namespace Compaction

theorem eraseAnnotations_ofValue (value : Json) :
    (ofValue value).value.eraseAnnotations = (ofValue value).value := by
  cases value with
  | null | bool | num | str => rfl
  | arr items =>
      rw [ofValue_arr]
      exact SymbolTable.eraseAnnotations_resolve _ _
  | obj program =>
      simp only [ofValue, ofProgram_value, Json.eraseAnnotations]
      exact congrArg Json.obj (Json.Fields.eraseFieldAnnotations_withPortTables
        (SymbolTable.eraseFieldAnnotations_compactFields _ program))

theorem compactionEvents_eraseAnnotations (value : Json) :
    value.eraseAnnotations.compactionEvents = value.compactionEvents := by
  have same := ofValue_eraseAnnotations value
  cases value with
  | null | bool | num | str => rfl
  | obj program => exact congrArg Compaction.events same
  | arr items =>
      cases items with
      | nil => rfl
      | cons first rest => exact congrArg Compaction.events same

end Compaction

/-- Compaction does not depend on annotations, and leaves none. -/
theorem Json.compact_eraseAnnotations (value : Json) :
    (∀ options, value.eraseAnnotations.compact options = value.compact options) ∧
      value.eraseAnnotations.compactionEvents = value.compactionEvents ∧
      (∃ compaction, value.compact default = .ok compaction ∧ compaction.value.Unannotated) ∧
      ∀ table : SymbolTable,
        table.resolve value.eraseAnnotations = table.resolve value ∧
          (table.resolve value).value.Unannotated := by
  refine ⟨?_, Compaction.compactionEvents_eraseAnnotations value, ?_, ?_⟩
  · intro options
    simp only [Json.compact, Compaction.ofValue_eraseAnnotations]
  · exact ⟨_, value.compact_default,
      .of_eraseAnnotations_eq_self (Compaction.eraseAnnotations_ofValue value)⟩
  · intro table
    exact ⟨table.resolve_eraseAnnotations value,
      .of_eraseAnnotations_eq_self (table.eraseAnnotations_resolve value)⟩

end BlockNames
