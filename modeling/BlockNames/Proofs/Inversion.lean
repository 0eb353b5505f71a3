import Mathlib.Data.List.Forall2
import BlockNames.Proofs.Numbering
import BlockNames.Proofs.ScopedResolution
import BlockNames.Restoration

/-!
Restoration undoes resolution. What a name has become is read backwards in the namespace that it was
found in: the sign of an index tells local variables from global ones, and a call means the same
function before and after. Main statement: with any table that can be read backwards, the scripts
come back as they were, without their annotations.
-/
namespace BlockNames

theorem Except.mapM_eq_ok_iff {α β ε : Type} {step : α → Except ε β} {items : List α}
    {results : List β} :
    items.mapM step = .ok results ↔
      List.Forall₂ (fun item result => step item = .ok result) items results := by
  induction items generalizing results with
  | nil => simp [pure, Except.pure, eq_comm]
  | cons item rest induction =>
      rw [List.mapM_cons, List.forall₂_cons_left_iff]
      constructor
      · intro mapped
        cases stepped : step item with
        | error error =>
            rw [stepped] at mapped
            cases mapped
        | ok result =>
            cases later : rest.mapM step with
            | error error =>
                rw [stepped, later] at mapped
                cases mapped
            | ok others =>
                rw [stepped, later] at mapped
                exact ⟨result, others, rfl, induction.mp later, (Except.ok.inj mapped).symm⟩
      · rintro ⟨result, others, stepped, later, rfl⟩
        rw [stepped, induction.mpr later]
        rfl

theorem Except.mapM_eq_ok {α β ε : Type} {step : α → Except ε β} {result : α → β}
    {items : List α} (each : ∀ item ∈ items, step item = .ok (result item)) :
    items.mapM step = .ok (items.map result) :=
  mapM_eq_ok_iff.mpr (List.forall₂_map_right_iff.mpr (List.forall₂_same.mpr each))

namespace SymbolTable

theorem invertible_eq_ok_iff (table : SymbolTable) (inverse : InvertibleTable) :
    table.invertible = .ok inverse ↔ inverse.toSymbolTable = table := by
  unfold invertible
  split
  next faultless =>
    constructor
    · intro same
      rw [← Except.ok.inj same]
    · rintro rfl
      rfl
  next label fault found =>
    constructor
    · intro same
      cases same
    · rintro rfl
      rw [inverse.faultless] at found
      cases found

theorem restore_eq {table : SymbolTable} {inverse : InvertibleTable}
    (accepted : table.invertible = .ok inverse) (value : Json) :
    value.restore table = inverse.restore value := by
  unfold Json.restore
  rw [accepted]
  rfl

end SymbolTable

/-- The indices of the local names are local ones, and `scope` gives the names back. -/
def Namespace.ReadBack (locals : Namespace) (scope : Option Namespace) : Prop :=
  ∀ {name index}, locals.get? name = some index →
    index < 0 ∧ scope.bind (·.nameOf? index) = some name

theorem Namespace.readBack_empty (scope : Option Namespace) : (∅ : Namespace).ReadBack scope := by
  intro name index found
  cases found

theorem Namespace.Faultless.readBack {names : Namespace} (faultless : names.Faultless .descending) :
    names.ReadBack (some names) := by
  intro name index found
  exact ⟨of_decide_eq_true (faultless.admits found), faultless.nameOf?_eq_some_iff.mpr found⟩

namespace InvertibleTable

theorem namesFaultless (table : InvertibleTable) : table.toSymbolTable.Faultless :=
  (SymbolTable.fault?_eq_none_iff _).mp table.faultless

private theorem nameOf?_globalNames (table : InvertibleTable) {kind : NameKind} {name : String}
    {index : Int} (found : (table.globalNames kind).get? name = some index) :
    (table.globalNames kind).nameOf? index = some name :=
  (table.namesFaultless.globalNames kind).nameOf?_eq_some_iff.mpr found

theorem restored_of_index?_eq_none (table : InvertibleTable) (scope : Option Namespace)
    (site : Site) {value : Json} (noIndex : value.index? = none) :
    table.restored scope site value = value := by
  unfold restored
  rw [noIndex]

theorem restored_index (table : InvertibleTable) {scope : Option Namespace} {site : Site}
    {name : String} {index : Int} (named : table.nameAt? scope site index = some name) :
    table.restored scope site (Json.index index) = .str name := by
  simp only [restored, Json.index, Json.index?, Number.index?, named]

private theorem restored_settle (table : InvertibleTable) (scope : Option Namespace) (site : Site)
    (kind : ReferenceKind) (owner : Option String) (name : String) {found : Option Int}
    (named : ∀ index, found = some index → table.nameAt? scope site index = some name) :
    table.restored scope site (ScopeView.settle kind owner name found).value = .str name := by
  cases found with
  | none => exact table.restored_of_index?_eq_none scope site rfl
  | some index => exact table.restored_index (named index rfl)

variable {view : ScopeView} {table : InvertibleTable} (tableOf : view.table = table.toSymbolTable)

include tableOf

theorem functionOf?_change (name : String) :
    table.functionOf? (view.change (.name .function) (.str name)) = some name := by
  simp only [ScopeView.change, ScopeView.settled, ScopeView.blockName_eq, ScopeView.settle_value,
    Namespace.atSite, Option.bind_none, Option.none_or]
  cases found : (view.table.globalNames .function).get? name with
  | none => rfl
  | some index =>
      rw [tableOf] at found
      exact table.nameOf?_globalNames found

private theorem localsOf?_targetAfter (target : String) :
    table.localsOf? (some (Json.targetAfter view.change (.str target))) =
      table.localNames? (.function target) := by
  unfold localsOf?
  rw [Option.bind_some]
  change (table.functionOf? (view.change (.name .function) (.str target))).bind _ = _
  rw [functionOf?_change tableOf target, Option.bind_some]

private theorem nameAt?_blockName {scope : Option Namespace} (readBack : view.locals.ReadBack scope)
    {kind : NameKind} {name : String} {index : Int}
    (found : ((view.locals.atSite (.name kind)).bind (·.get? name)).or
      ((view.table.globalNames kind).get? name) = some index) :
    table.nameAt? scope (.name kind) index = some name := by
  rw [tableOf] at found
  have global : (table.globalNames kind).get? name = some index →
      (table.globalNames kind).nameOf? index = some name := table.nameOf?_globalNames
  cases kind with
  | list | image | function => exact global found
  | _ =>
      -- The sign of the index tells in which of the two namespaces the name was found.
      obtain isLocal | ⟨-, isGlobal⟩ := Option.or_eq_some_iff.mp found
      · obtain ⟨negative, named⟩ := readBack isLocal
        simp only [nameAt?, namesAt, if_pos negative, named]
      · have admitted : 0 ≤ index :=
          of_decide_eq_true ((table.namesFaultless.globalNames .variable).admits isGlobal)
        simp only [nameAt?, namesAt, if_neg (Int.not_lt.mpr admitted), Option.bind_some]
        exact global isGlobal

private theorem nameAt?_bindingName (scope : Option Namespace) {target name : String} {index : Int}
    (found : (view.table.localNames (.function target)).get? name = some index) :
    table.nameAt? scope (.binding (some (Json.targetAfter view.change (.str target)))) index =
      some name := by
  rw [tableOf] at found
  simp only [nameAt?, namesAt]
  rw [localsOf?_targetAfter tableOf target]
  unfold SymbolTable.localNames at found
  cases known : table.localNames? (.function target) with
  | none =>
      rw [known] at found
      cases found
  | some names =>
      rw [known] at found
      exact (table.namesFaultless.localNames known).nameOf?_eq_some_iff.mpr found

/-- Restoring undoes what the pass makes of a value that is no index. -/
theorem restored_change {scope : Option Namespace} (readBack : view.locals.ReadBack scope)
    (site : Site) {value : Json} (noIndex : value.index? = none) :
    table.restored scope (site.mapTarget (Json.targetAfter view.change)) (view.change site value) =
      value := by
  cases value with
  | null | bool | num | arr | obj => exact table.restored_of_index?_eq_none scope _ noIndex
  | str name =>
      cases site with
      | name kind =>
          simp only [ScopeView.change, ScopeView.settled, ScopeView.blockName_eq]
          exact table.restored_settle scope _ _ _ _ fun index found =>
            nameAt?_blockName tableOf readBack found
      | binding target =>
          rcases target with _ | (_ | _ | _ | target | _ | _)
          case some.str =>
            simp only [ScopeView.change, ScopeView.settled, ScopeView.bindingName_eq]
            exact table.restored_settle scope _ _ _ _ fun index found =>
              nameAt?_bindingName tableOf scope found
          all_goals exact table.restored_of_index?_eq_none scope _ rfl

theorem rewrite_restored_change {scope : Option Namespace} (readBack : view.locals.ReadBack scope)
    (role : Role) (tree : Json) (noIndex : tree.EveryReference (·.index? = none) role) :
    (tree.rewrite view.change role).rewrite (table.restored scope)
        (role.mapTarget (Json.targetAfter view.change)) = tree := by
  rw [Json.rewrite_rewrite view.leafwise_change]
  exact Json.rewrite_eq_self (fun site value => restored_change tableOf readBack site) role tree
    noIndex

theorem rewriteFields_restored_change {scope : Option Namespace}
    (readBack : view.locals.ReadBack scope) (shape : Shape) (fields : Json.Fields)
    (noIndex : Json.EveryFieldReference (·.index? = none) shape fields) :
    Json.rewriteFields (table.restored scope) (shape.mapTarget (Json.targetAfter view.change))
        (Json.rewriteFields view.change shape fields) = fields := by
  rw [Json.rewriteFields_rewriteFields view.leafwise_change]
  exact Json.rewriteFields_eq_self (fun site value => restored_change tableOf readBack site) shape
    fields noIndex

private theorem restoreScript_change {script : Json.Fields}
    (readBack : view.locals.ReadBack (table.scriptLocals?
      (Json.rewriteFields view.change (Shape.ofFields script) script)))
    (noIndex : (Json.obj script).EveryReference (·.index? = none) .value)
    (untouched : table.restoreScriptArguments
        (Json.rewriteFields view.change (Shape.ofFields script) script) =
      .ok (Json.rewriteFields view.change (Shape.ofFields script) script)) :
    table.restoreScript ((Json.obj script).rewrite view.change .value) = .ok (.obj script) := by
  have undone := rewrite_restored_change tableOf readBack .value (.obj script) noIndex
  simp only [Json.rewrite, Role.shape, restoreScript] at undone ⊢
  rw [untouched]
  exact congrArg Except.ok undone

theorem restoreScript_change_of_fields?_eq_none (readBack : view.locals.ReadBack none)
    {item : Json} (noScript : item.fields? = none)
    (noIndex : item.EveryReference (·.index? = none) .value) :
    table.restoreScript (item.rewrite view.change .value) = .ok item := by
  have undone := rewrite_restored_change tableOf readBack .value item noIndex
  cases item with
  | obj script => cases noScript
  | null | bool | num | str => rfl
  | arr items => exact congrArg Except.ok undone

omit tableOf

private theorem restoreScriptArguments_of_uncounted (table : InvertibleTable) {script : Json.Fields}
    (uncounted : ScriptKind.ofFields script = .declaration .function →
      (script.lookup Key.arguments).bind Json.count? = none) :
    table.restoreScriptArguments script = .ok script := by
  unfold restoreScriptArguments
  cases defined : table.definedFunction? script with
  | none => rfl
  | some function =>
      have kind : ScriptKind.ofFields script = .declaration .function := by
        unfold definedFunction? at defined
        split at defined
        next equation => exact equation
        all_goals cases defined
      cases known : table.localNames? (.function function) with
      | none => simp only [known]
      | some locals => simp only [known, Namespace.restoreArguments, uncounted kind]

theorem restoreScripts_arr (table : InvertibleTable) {items : List Json}
    {compacted plain : Json → Json}
    (each : ∀ item ∈ items, table.restoreScript (compacted item) = .ok (plain item)) :
    table.restoreScripts (.arr (items.map compacted)) = .ok (.arr (items.map plain)) := by
  unfold restoreScripts
  simp only [List.mapM_map]
  rw [Function.comp_def, Except.mapM_eq_ok each]
  rfl

end InvertibleTable

theorem Json.count?_arguments_rewriteFields (change : Site → Json → Json) (shape : Shape)
    (script : Json.Fields) :
    ((Json.rewriteFields change shape script).lookup Key.arguments).bind Json.count? =
      (script.lookup Key.arguments).bind Json.count? := by
  rw [Json.lookup_rewriteFields, Shape.site?_arguments]
  cases script.lookup Key.arguments with
  | none => rfl
  | some value => exact Json.count?_rewrite change _ value

private theorem Json.count?_arguments_eraseFieldAnnotations (script : Json.Fields) :
    ((Json.eraseFieldAnnotations script).lookup Key.arguments).bind Json.count? =
      (script.lookup Key.arguments).bind Json.count? := by
  rw [Json.lookup_eraseFieldAnnotations script (by decide)]
  cases script.lookup Key.arguments with
  | none => rfl
  | some value => exact Json.count?_eraseAnnotations value

private theorem Json.rewrite_change_empty (table : SymbolTable) (owner : Option String)
    (tree : Json) :
    tree.rewrite (ScopeView.change ⟨table, ∅, owner⟩) .value =
      tree.rewrite (Json.resolved table.namesAt) .value := by
  have phases := ScopeView.resolve_eq_phases ⟨table, ∅, owner⟩ tree
  rw [ScopeView.resolve_eq, Json.rewrite_resolved_empty] at phases
  exact congrArg Resolution.value phases

theorem InvertibleTable.restoreScript_resolveGlobals (table : InvertibleTable) {item : Json}
    (noIndex : item.EveryReference (·.index? = none) .value)
    (uncounted : ∀ script, item = .obj script →
      ScriptKind.ofFields script = .declaration .function →
        (script.lookup Key.arguments).bind Json.count? = none) :
    table.restoreScript (item.rewrite (Json.resolved table.toSymbolTable.namesAt) .value) =
      .ok item := by
  rw [← Json.rewrite_change_empty table.toSymbolTable none]
  cases item with
  | null | bool | num | str | arr =>
      exact restoreScript_change_of_fields?_eq_none rfl (Namespace.readBack_empty none) rfl noIndex
  | obj script =>
      apply restoreScript_change rfl (Namespace.readBack_empty _) noIndex
      apply table.restoreScriptArguments_of_uncounted
      rw [Json.ofFields_rewriteFields, Json.count?_arguments_rewriteFields]
      exact uncounted script rfl

/-- Scripts resolved among global names are restored with the same table. It need not be the table
of these scripts. Annotations are not searched for references and do not come back. -/
theorem SymbolTable.restore_resolveGlobals (table : SymbolTable) (inverse : InvertibleTable)
    (accepted : table.invertible = .ok inverse) (scripts : List Json)
    (noIndex : (Json.arr scripts).eraseAnnotations.EveryReference (·.index? = none) .value)
    (uncounted : ∀ script, .obj script ∈ scripts →
      ScriptKind.ofFields script = .declaration .function →
        (script.lookup Key.arguments).bind Json.count? = none) :
    (table.resolveGlobals (.arr scripts)).value.restore table =
      .ok (Json.arr scripts).eraseAnnotations := by
  obtain rfl := (table.invertible_eq_ok_iff inverse).mp accepted
  have each : ∀ item ∈ scripts,
      inverse.restoreScript (item.eraseAnnotations.rewrite
        (Json.resolved inverse.toSymbolTable.namesAt) .value) = .ok item.eraseAnnotations := by
    intro item member
    apply inverse.restoreScript_resolveGlobals
    · simp only [Json.eraseAnnotations, Json.EveryReference, Role.item,
        Json.everyItemReference_iff, Json.eraseItemAnnotations_eq_map] at noIndex
      exact noIndex _ (List.mem_map_of_mem member)
    · intro plain same kind
      cases item with
      | null | bool | num | str | arr => cases same
      | obj script =>
          obtain rfl := Json.obj.inj same
          rw [ScriptKind.ofFields_eraseFieldAnnotations] at kind
          rw [Json.count?_arguments_eraseFieldAnnotations]
          exact uncounted script member kind
  rw [SymbolTable.restore_eq accepted]
  simp only [SymbolTable.resolveGlobals, Json.eraseAnnotations, Json.rewrite, Role.item,
    Json.rewriteItems_eq_map, Json.eraseItemAnnotations_eq_map, List.map_map]
  exact inverse.restoreScripts_arr each

/-- Of the function `draw` only the index is known, of the function `wait` only the locals. -/
def sparseTable : InvertibleTable where
  functionNames := ⟨[("draw", 7)], List.pairwise_singleton _ _⟩
  variableNames := ⟨[("speed", 4)], List.pairwise_singleton _ _⟩
  locals := ⟨[("wait", ⟨[("seconds", -3)], List.pairwise_singleton _ _⟩)],
    List.pairwise_singleton _ _⟩
  faultless := rfl

def nestedCalls : List Json :=
  let wait := .obj [
    (Key.arguments, .arr [.obj [
      ("value", .obj [(NameKind.variable.key, .str "speed"), (Key.annotation, .str "line 3")]),
      (NameKind.variable.key, .str "seconds")]]),
    (NameKind.function.key, .str "wait"), (Key.kind, .str callKind)]
  let draw := .obj [
    (Key.arguments, .arr [.obj [("value", wait), (NameKind.variable.key, .str "size")]]),
    (NameKind.function.key, .str "draw"), (Key.kind, .str callKind)]
  [.obj [("body", draw)],
    .obj [(Key.arguments, .arr []), (NameKind.function.key, .str "turn"),
      (Key.kind, .str NameKind.function.key)]]

theorem SymbolTable.restore_resolveGlobals_nestedCalls :
    (sparseTable.toSymbolTable.resolveGlobals (.arr nestedCalls)).value ≠
        (Json.arr nestedCalls).eraseAnnotations ∧
      (sparseTable.toSymbolTable.resolveGlobals (.arr nestedCalls)).value.restore
          sparseTable.toSymbolTable = .ok (Json.arr nestedCalls).eraseAnnotations := by
  refine ⟨by decide, restore_resolveGlobals _ sparseTable
    ((invertible_eq_ok_iff _ _).mpr rfl) nestedCalls (by decide) ?_⟩
  intro script member kind
  rcases List.mem_cons.mp member with same | later
  · obtain rfl := Json.obj.inj same
    cases kind
  · obtain rfl := Json.obj.inj (List.mem_singleton.mp later)
    rfl

end BlockNames
