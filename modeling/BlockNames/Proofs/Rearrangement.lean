import BlockNames.Proofs.Compaction
import Mathlib.Data.List.Perm.Basic

/-!
Scripts in another order. Every kind of name is numbered apart from the others, and a script is
resolved without regard to those around it. Main statement: if scripts are put in another order that
respects the order within each kind, then the table stays, and the items of the compaction and the
reports on them follow the new order.
-/
namespace BlockNames

/-- The kind of an item of a list of scripts. What is no object declares nothing. -/
def Json.scriptKind (item : Json) : ScriptKind :=
  (item.fields?.map ScriptKind.ofFields).getD .other

/-- The items at the given places of a list. -/
def Json.rearrange (places : List Nat) (items : List Json) : List Json :=
  places.filterMap (items[·]?)

/-- The places are all those of the list, each once, and no two items of a kind that declares names
change their order. -/
structure Json.KeepsKindOrder (places : List Nat) (items : List Json) : Prop where
  perm : places.Perm (List.range items.length)
  ordered : places.Pairwise fun first second =>
    items[first]?.map scriptKind = items[second]?.map scriptKind →
      items[first]?.map scriptKind ≠ some .other → first < second

namespace Json

private theorem rearrange_range (items : List Json) :
    rearrange (List.range items.length) items = items := by
  induction items with
  | nil => rfl
  | cons item rest induction =>
      unfold rearrange at induction ⊢
      rw [List.length_cons, List.range_succ_eq_map, List.filterMap_cons, List.filterMap_map]
      exact congrArg (List.cons item) induction

theorem rearrange_map (change : Json → Json) (places : List Nat) (items : List Json) :
    rearrange places (items.map change) = (rearrange places items).map change := by
  unfold rearrange
  rw [List.map_filterMap]
  apply List.filterMap_congr
  intro place _
  exact List.getElem?_map

theorem filter_rearrange (kind : ScriptKind) (places : List Nat) (items : List Json) :
    (rearrange places items).filter (·.scriptKind = kind) =
      rearrange (places.filter fun place => items[place]?.map scriptKind = some kind) items := by
  unfold rearrange
  rw [List.filter_filterMap, List.filterMap_filter]
  apply List.filterMap_congr
  intro place _
  cases items[place]? with
  | none => simp
  | some item => by_cases same : item.scriptKind = kind <;> simp [same]

namespace KeepsKindOrder

variable {places : List Nat} {items : List Json} (keeps : KeepsKindOrder places items)

include keeps

/-- Both lists of places are ascending, so they are the same list. -/
private theorem filter_places {kind : ScriptKind} (declaring : kind ≠ .other) :
    (places.filter fun place => items[place]?.map scriptKind = some kind) =
      (List.range items.length).filter fun place => items[place]?.map scriptKind = some kind := by
  have ascending : (places.filter fun place =>
      items[place]?.map scriptKind = some kind).Pairwise (· < ·) := by
    rw [List.pairwise_filter]
    apply keeps.ordered.imp
    intro first second ordered firstHas secondHas
    have firstKind := of_decide_eq_true firstHas
    have secondKind := of_decide_eq_true secondHas
    apply ordered (firstKind.trans secondKind.symm)
    rw [firstKind]
    exact fun other => declaring (Option.some.inj other)
  apply List.Perm.eq_of_pairwise _ ascending (List.pairwise_lt_range.filter _)
    (keeps.perm.filter _)
  intro first second _ _ before after
  omega

private theorem filter_kind {kind : ScriptKind} (declaring : kind ≠ .other) :
    (rearrange places items).filter (·.scriptKind = kind) =
      items.filter (·.scriptKind = kind) := by
  rw [filter_rearrange, keeps.filter_places declaring, ← filter_rearrange, rearrange_range]

end KeepsKindOrder

end Json

/-- What only scripts of one kind have can be read from the items of this kind. -/
private theorem Json.filterMap_fields?_of_kind {α : Type} {read : Fields → Option α}
    {kind : ScriptKind} (only : ∀ script, ScriptKind.ofFields script ≠ kind → read script = none)
    (items : List Json) :
    (items.filterMap fields?).filterMap read =
      ((items.filter (·.scriptKind = kind)).filterMap fields?).filterMap read := by
  rw [List.filterMap_filterMap, List.filterMap_filterMap, List.filterMap_filter]
  apply List.filterMap_congr
  intro item _
  cases item with
  | null | bool | num | str | arr => simp [fields?]
  | obj script =>
      by_cases same : ScriptKind.ofFields script = kind
      · simp [scriptKind, fields?, same]
      · simp [scriptKind, fields?, same, only script same]

def Scope.scriptKind : Scope → ScriptKind
  | .event => .eventHandler
  | .function _ => .declaration .function

private theorem Scope.ofFields_of_defines {scope : Scope} {script : Json.Fields}
    (defines : Scope.ofFields? script = some scope) :
    ScriptKind.ofFields script = scope.scriptKind := by
  cases scope with
  | event => exact (Scope.ofFields?_eq_event_iff script).mp defines
  | function name => exact (Scope.ofFields?_eq_function defines).1

private theorem Scope.definitions_of_kind (scope : Scope) (items : List Json) :
    scope.definitions (items.filterMap Json.fields?) =
      scope.definitions
        ((items.filter (·.scriptKind = scope.scriptKind)).filterMap Json.fields?) := by
  unfold definitions
  rw [← List.filterMap_eq_filter]
  apply Json.filterMap_fields?_of_kind
  intro script other
  have undefined : ¬Scope.ofFields? script = some scope := mt ofFields_of_defines other
  simp [Option.guard, undefined]

namespace SymbolTable

theorem ofScripts_eq_of_filter_eq {first second : List Json}
    (same : ∀ kind ≠ ScriptKind.other,
      first.filter (·.scriptKind = kind) = second.filter (·.scriptKind = kind)) :
    ofScripts first = ofScripts second := by
  apply ext_names
  · intro kind
    have only : ∀ script, ScriptKind.ofFields script ≠ .declaration kind →
        Json.Fields.declaredName? kind script = none := fun script other => if_neg other
    rw [globalNames_ofScripts, globalNames_ofScripts, Json.filterMap_fields?_of_kind only first,
      Json.filterMap_fields?_of_kind only second, same (.declaration kind) nofun]
  · intro scope
    have declaring : scope.scriptKind ≠ .other := by cases scope <;> nofun
    rw [localNames?_ofScripts, localNames?_ofScripts, Scope.definitions_of_kind scope first,
      Scope.definitions_of_kind scope second, same _ declaring]

/-- The reports on an item of a list of scripts: those on a list of this item alone. -/
def itemReports (table : SymbolTable) (item : Json) : List UnresolvedName :=
  (table.resolve (.arr [item])).unresolved

private theorem unresolved_resolve_arr (table : SymbolTable) (items : List Json) :
    (table.resolve (.arr items)).unresolved = items.flatMap table.itemReports := by
  rw [resolve_arr]
  apply List.flatMap_congr
  intro item _
  rw [itemReports, resolve_arr, List.flatMap_singleton]

end SymbolTable

/-- Scripts in another order make the same table if the order within each kind is respected. Their
compaction is the same in the other order, and so are the reports on each item. -/
theorem Json.compact_rearrange {places : List Nat} {scripts : List Json}
    (keeps : KeepsKindOrder places scripts) :
    SymbolTable.ofScripts (rearrange places scripts) = SymbolTable.ofScripts scripts ∧
      ∃ compaction rearranged items,
        (Json.arr scripts).compact default = .ok compaction ∧
        (Json.arr (rearrange places scripts)).compact default = .ok rearranged ∧
        rearranged.table = compaction.table ∧
        compaction.value = .arr items ∧ items.length = scripts.length ∧
        rearranged.value = .arr (rearrange places items) ∧
        compaction.unresolved = scripts.flatMap compaction.table.itemReports ∧
        rearranged.unresolved =
          (rearrange places scripts).flatMap compaction.table.itemReports := by
  have table : SymbolTable.ofScripts (rearrange places scripts) = SymbolTable.ofScripts scripts :=
    SymbolTable.ofScripts_eq_of_filter_eq fun _ => keeps.filter_kind
  refine ⟨table, _, _, scripts.map fun item =>
      ((SymbolTable.ofScripts scripts).resolveScoped item.eraseAnnotations).value,
    compact_default _, compact_default _, ?_⟩
  simp only [Compaction.ofValue_arr, Compaction.ofScripts, table]
  refine ⟨trivial, ?_, List.length_map _, ?_, ?_, ?_⟩
  · rw [SymbolTable.resolve_arr]
  · rw [SymbolTable.resolve_arr, rearrange_map]
  · exact SymbolTable.unresolved_resolve_arr _ _
  · exact SymbolTable.unresolved_resolve_arr _ _

/-- The event handler reads `speed` before it is declared, and `drift`, which nothing declares. A
call binds a parameter that its target has not got. -/
def earlyReaders : List Json :=
  [.obj [("blocks", .arr [.obj [(NameKind.variable.key, .str "speed")],
        .obj [(NameKind.variable.key, .str "drift")]]),
      (Key.kind, .str eventHandlerKind)],
    .obj [(Key.arguments, .arr [.obj [(NameKind.variable.key, .str "radius")]]),
      (NameKind.function.key, .str "turn"), (Key.kind, .str callKind)],
    .obj [(Key.kind, .str NameKind.variable.key), (NameKind.variable.key, .str "speed")],
    .obj [(Key.arguments, .arr [.obj [(NameKind.variable.key, .str "angle")]]),
      (NameKind.function.key, .str "turn"), (Key.kind, .str NameKind.function.key)],
    .obj [(Key.kind, .str NameKind.variable.key), (NameKind.variable.key, .str "limit")]]

theorem Json.compact_rearrange_earlyReaders :
    KeepsKindOrder [3, 2, 4, 1, 0] earlyReaders ∧
      SymbolTable.ofScripts (rearrange [3, 2, 4, 1, 0] earlyReaders) =
        SymbolTable.ofScripts earlyReaders ∧
      ∃ compaction rearranged,
        (Json.arr earlyReaders).compact default = .ok compaction ∧
        (Json.arr (rearrange [3, 2, 4, 1, 0] earlyReaders)).compact default = .ok rearranged ∧
        rearranged.table = compaction.table ∧
        compaction.unresolved = [⟨.name .variable, "drift", some eventHandlerKind⟩,
          ⟨.binding, "radius", some "turn"⟩] ∧
        rearranged.unresolved = [⟨.binding, "radius", some "turn"⟩,
          ⟨.name .variable, "drift", some eventHandlerKind⟩] := by
  have keeps : KeepsKindOrder [3, 2, 4, 1, 0] earlyReaders := ⟨by decide, by decide⟩
  obtain ⟨table, compaction, rearranged, items, compacted, reordered, sameTable, -, -, -,
    reports, reorderedReports⟩ := compact_rearrange keeps
  refine ⟨keeps, table, compaction, rearranged, compacted, reordered, sameTable, ?_⟩
  obtain rfl : Compaction.ofValue (.arr earlyReaders) = compaction := Except.ok.inj compacted
  rw [reports, reorderedReports]
  decide

end BlockNames
