import BlockNames.Proofs.DeclaredTable
import BlockNames.Proofs.Noninterference

/-!
Tables that grow. A table that is extended by further names keeps the indices of those it has. Main
statement: scripts that are appended to a list and define none of its scopes renumber nothing, and
if all names of the list were found, its compaction stays what it was.
-/
namespace BlockNames

namespace Namespace

private theorem get?_declareAll_of_eq_some {numbering : Numbering} {names : Namespace}
    {name : String} {index : Int} (found : names.get? name = some index) (declared : List String) :
    (names.declareAll numbering declared).get? name = some index := by
  induction declared generalizing names with
  | nil => exact found
  | cons first rest induction => exact induction (get?_declare_of_eq_some found first)

end Namespace

/-- The later table has all names of this one under the same indices. The scopes that this one knows
have no further names. -/
structure SymbolTable.ExtendsTo (table later : SymbolTable) : Prop where
  globalNames : ∀ {kind name index}, (table.globalNames kind).get? name = some index →
    (later.globalNames kind).get? name = some index
  localNames? : ∀ {scope names}, table.localNames? scope = some names →
    later.localNames? scope = some names

namespace ScopeView

private theorem exists_found_of_settle {kind : ReferenceKind} {scope : Option String}
    {name : String} {found : Option Int} (silent : (settle kind scope name found).unresolved = []) :
    ∃ index, found = some index := by
  cases found with
  | none => cases silent
  | some index => exact ⟨index, rfl⟩

private theorem settled_of_extendsTo {view later : ScopeView}
    (tables : view.table.ExtendsTo later.table)
    (locals : view.locals = later.locals) {site : Site} {name : String}
    (silent : (view.settled site name).unresolved = []) :
    later.settled site name = view.settled site name := by
  cases site with
  | name kind =>
      simp only [settled, blockName_eq] at silent ⊢
      obtain ⟨index, found⟩ := exists_found_of_settle silent
      have foundLater : ((later.locals.atSite (.name kind)).bind (·.get? name)).or
          ((later.table.globalNames kind).get? name) = some index := by
        rw [← locals]
        rcases Option.or_eq_some_iff.mp found with isLocal | ⟨notLocal, isGlobal⟩
        · rw [isLocal, Option.some_or]
        · rw [notLocal, Option.none_or, tables.globalNames isGlobal]
      rw [found, foundLater]
      rfl
  | binding target =>
      rcases target with _ | (_ | _ | _ | target | _ | _)
      case some.str =>
        simp only [settled, bindingName_eq, SymbolTable.localNames] at silent ⊢
        obtain ⟨index, found⟩ := exists_found_of_settle silent
        cases known : view.table.localNames? (.function target) with
        | none =>
            rw [known] at found
            cases found
        | some names => rw [tables.localNames? known]
      all_goals rfl

end ScopeView

namespace SymbolTable

private theorem unresolved_resolveScoped_eq_flatMap (table : SymbolTable) (item : Json) :
    (table.resolveScoped item).unresolved =
      (item.countedItem.references .value).flatMap (table.viewOfItem item).reports := by
  rw [resolveScoped_eq_resolve, ScopeView.resolve_eq]

namespace ExtendsTo

variable {table later : SymbolTable} (tables : table.ExtendsTo later)

include tables

theorem locals_viewOfItem {item : Json}
    (owned : ∀ scope, item.scope? = some scope → (table.localNames? scope).isSome) :
    (table.viewOfItem item).locals = (later.viewOfItem item).locals := by
  rw [SymbolTable.locals_viewOfItem, SymbolTable.locals_viewOfItem]
  cases defined : item.scope? with
  | none => rfl
  | some scope =>
      obtain ⟨names, known⟩ := Option.isSome_iff_exists.mp (owned scope defined)
      simp only [Option.map_some, Option.getD_some, localNames, known, tables.localNames? known]

theorem resolveScoped_eq {item : Json} (distinct : item.DistinctKeys)
    (owned : ∀ scope, item.scope? = some scope → (table.localNames? scope).isSome)
    (silent : (table.resolveScoped item).unresolved = []) :
    later.resolveScoped item = table.resolveScoped item := by
  have value : (later.resolveScoped item).value = (table.resolveScoped item).value := by
    rw [value_resolveScoped, value_resolveScoped]
    apply Json.rewrite_congr (later.viewOfItem item).leafwise_change
      (table.viewOfItem item).leafwise_change distinct.countedItem
    intro path site value reference held
    cases value with
    | null | bool | num | arr | obj => rfl
    | str name =>
        rw [unresolved_resolveScoped_eq_flatMap] at silent
        have unreported := List.flatMap_eq_nil_iff.mp silent _
          (Json.mem_references_of_siteAt? reference held)
        have grown : (table.viewOfItem item).table.ExtendsTo (later.viewOfItem item).table := by
          rwa [table_viewOfItem, table_viewOfItem]
        exact congrArg Resolution.value
          (ScopeView.settled_of_extendsTo grown (tables.locals_viewOfItem owned) unreported)
  have unresolved :
      (later.resolveScoped item).unresolved = (table.resolveScoped item).unresolved := by
    rw [later.unresolved_resolveScoped distinct, table.unresolved_resolveScoped distinct, value]
  exact congrArg₂ Resolution.mk value unresolved

end ExtendsTo

end SymbolTable

/-- The added scripts define no scope that the list defines. -/
def Json.DefinesApart (scripts added : List Json) : Prop :=
  ∀ script ∈ scripts, script.scope? ≠ none → ∀ other ∈ added, other.scope? ≠ script.scope?

instance (scripts added : List Json) : Decidable (Json.DefinesApart scripts added) :=
  inferInstanceAs (Decidable (∀ script ∈ scripts, script.scope? ≠ none →
    ∀ other ∈ added, other.scope? ≠ script.scope?))

private theorem Json.DefinesApart.scope?_ne {scripts added : List Json}
    (apart : DefinesApart scripts added) {script : Json} (member : script ∈ scripts) {scope : Scope}
    (defined : script.scope? = some scope) : ∀ other ∈ added, other.scope? ≠ some scope := by
  have others := apart script member
  rw [defined] at others
  exact others nofun

theorem Scope.definitions_append (scope : Scope) (first second : List Json.Fields) :
    scope.definitions (first ++ second) =
      scope.definitions first ++ scope.definitions second :=
  List.filter_append first second

private theorem Scope.definitions_eq_nil_of_scope?_ne {scope : Scope} {items : List Json}
    (undefined : ∀ item ∈ items, item.scope? ≠ some scope) :
    scope.definitions (items.filterMap Json.fields?) = [] := by
  apply List.filter_eq_nil_iff.mpr
  intro script member defines
  exact undefined (.obj script) (Json.mem_filterMap_fields?.mp member) (of_decide_eq_true defines)

namespace SymbolTable

private theorem isSome_localNames?_ofScripts_of_scope? {items : List Json} {item : Json}
    {scope : Scope} (member : item ∈ items) (defined : item.scope? = some scope) :
    ((ofScripts items).localNames? scope).isSome := by
  rw [isSome_localNames?_ofScripts_iff]
  obtain ⟨script, fields, defines⟩ := Option.bind_eq_some_iff.mp defined
  exact ⟨script, List.mem_filterMap.mpr ⟨item, member, fields⟩, defines⟩

theorem ofScripts_extendsTo_append {scripts added : List Json}
    (apart : Json.DefinesApart scripts added) :
    (ofScripts scripts).ExtendsTo (ofScripts (scripts ++ added)) where
  globalNames := by
    intro kind name index found
    rw [globalNames_ofScripts] at found ⊢
    rw [List.filterMap_append, List.filterMap_append, Namespace.declareAll_append]
    exact Namespace.get?_declareAll_of_eq_some found _
  localNames? := by
    intro scope names known
    have defined := (isSome_localNames?_ofScripts_iff scripts scope).mp
      (Option.isSome_of_eq_some known)
    obtain ⟨script, member, defines⟩ := defined
    have undefined : scope.definitions (added.filterMap Json.fields?) = [] :=
      Scope.definitions_eq_nil_of_scope?_ne
        (apart.scope?_ne (Json.mem_filterMap_fields?.mp member) defines)
    rw [localNames?_ofScripts] at known ⊢
    rw [List.filterMap_append, Scope.definitions_append, undefined, List.append_nil]
    exact known

private theorem map_resolveScoped_of_silent {scripts : ScriptList} {later : SymbolTable}
    (grown : (ofScripts scripts.items).ExtendsTo later)
    (silent : ((ofScripts scripts.items).resolve (.arr scripts.items)).unresolved = []) :
    (scripts.items.map fun item => (later.resolveScoped item.eraseAnnotations).value) =
      scripts.items.map fun item =>
        ((ofScripts scripts.items).resolveScoped item.eraseAnnotations).value := by
  rw [resolve_arr] at silent
  apply List.map_congr_left
  intro item member
  have plainDistinct := scripts.distinctKeys_eraseAnnotations member
  have itemSilent := List.flatMap_eq_nil_iff.mp silent item member
  rw [grown.resolveScoped_eq plainDistinct _ itemSilent]
  intro scope defined
  rw [Json.scope?_eraseAnnotations] at defined
  exact isSome_localNames?_ofScripts_of_scope? member defined

end SymbolTable

/-- Scripts that are appended to a list and define none of its scopes leave its indices alone. If
all names of the list were found, they leave its compaction alone too. -/
theorem ScriptList.compact_append (scripts : ScriptList) {added : List Json}
    (apart : Json.DefinesApart scripts.items added) :
    ∃ compaction appended,
      (Json.arr scripts.items).compact default = .ok compaction ∧
      (Json.arr (scripts.items ++ added)).compact default = .ok appended ∧
      compaction.table = SymbolTable.ofScripts scripts.items ∧
      appended.table = SymbolTable.ofScripts (scripts.items ++ added) ∧
      compaction.table.ExtendsTo appended.table ∧
      (compaction.unresolved = [] → ∃ items addedItems,
        compaction.value = .arr items ∧ items.length = scripts.items.length ∧
        appended.value = .arr (items ++ addedItems)) := by
  have grown := SymbolTable.ofScripts_extendsTo_append apart
  refine ⟨_, _, Json.compact_default _, Json.compact_default _, ?_⟩
  simp only [Compaction.ofValue_arr, Compaction.ofScripts]
  refine ⟨trivial, trivial, grown, fun silent => ?_⟩
  have kept := SymbolTable.map_resolveScoped_of_silent grown silent
  simp only [SymbolTable.resolve_arr, List.map_append, kept]
  exact ⟨_, _, rfl, List.length_map _, rfl⟩

/-- The function `turn` reads its parameter, and the event handler calls it with a variable. -/
def turnCaller : List Json :=
  [.obj [(Key.arguments, .arr [.obj [(NameKind.variable.key, .str "angle")]]),
      ("body", .obj [(NameKind.variable.key, .str "angle")]),
      (NameKind.function.key, .str "turn"), (Key.kind, .str NameKind.function.key)],
    .obj [("body", .obj [
        (Key.arguments, .arr [.obj [("value", .obj [(NameKind.variable.key, .str "speed")]),
          (NameKind.variable.key, .str "angle")]]),
        (NameKind.function.key, .str "turn"), (Key.kind, .str callKind)]),
      (Key.kind, .str eventHandlerKind)],
    .obj [(Key.kind, .str NameKind.variable.key), (NameKind.variable.key, .str "speed")]]

def angleDeclarations : List Json :=
  [.obj [(Key.kind, .str NameKind.variable.key), (NameKind.variable.key, .str "angle")],
    .obj [(Key.arguments, .arr [.obj [(NameKind.variable.key, .str "angle")]]),
      (NameKind.function.key, .str "draw"), (Key.kind, .str NameKind.function.key)]]

theorem ScriptList.compact_append_turnCaller :
    (Json.arr turnCaller).DistinctKeys ∧ Json.DefinesApart turnCaller angleDeclarations ∧
      ∃ compaction appended,
        (Json.arr turnCaller).compact default = .ok compaction ∧
        (Json.arr (turnCaller ++ angleDeclarations)).compact default = .ok appended ∧
        compaction.table.ExtendsTo appended.table ∧ compaction.unresolved = [] ∧
        ∃ items addedItems, compaction.value = .arr items ∧ items.length = 3 ∧
          appended.value = .arr (items ++ addedItems) := by
  have distinct : (Json.arr turnCaller).DistinctKeys := by decide
  have apart : Json.DefinesApart turnCaller angleDeclarations := by decide
  obtain ⟨compaction, appended, compacted, appendedCompacted, -, -, grown, kept⟩ :=
    ScriptList.compact_append ⟨turnCaller, distinct⟩ apart
  have silent : compaction.unresolved = [] := by
    obtain rfl : Compaction.ofValue (.arr turnCaller) = compaction := Except.ok.inj compacted
    decide
  exact ⟨distinct, apart, compaction, appended, compacted, appendedCompacted, grown, silent,
    kept silent⟩

end BlockNames
