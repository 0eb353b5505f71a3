import BlockNames.Proofs.Compaction
import BlockNames.Proofs.Position
import BlockNames.Proofs.ScopedResolution

/-!
Reports on names that stay. Compaction is compared with its input at every position of a reference.
Main statement: the reports are, in the order of the positions, one for each that holds a name
before and after; the log repeats them, and a strict compaction fails with them.
-/
namespace BlockNames

/-- The report on a position that holds a name in the input and still in the output. A binding is a
reference only in a call whose target is given by name. -/
def Position.unresolved? (owner : Option String) (input output : Json) (position : Position) :
    Option UnresolvedName :=
  match (input.at? position.path).bind Json.str?, (output.at? position.path).bind Json.str? with
  | some name, some _ =>
      match position.site with
      | .name kind => some ⟨.name kind, name, owner⟩
      | .binding (some (.str target)) => some ⟨.binding, name, some target⟩
      | .binding _ => none
  | _, _ => none

structure OwnedPosition where
  owner : Option String
  position : Position

namespace OwnedPosition

def under (step : Json.Step) (owned : OwnedPosition) : OwnedPosition :=
  ⟨owned.owner, owned.position.under step⟩

def unresolved? (input output : Json) (owned : OwnedPosition) : Option UnresolvedName :=
  owned.position.unresolved? owned.owner input output

end OwnedPosition

/-- Whether a script has an argument list that is counted instead of searched. -/
def Json.listsArguments : Json → Bool
  | .obj script =>
      (ScriptKind.ofFields script).hasLocals &&
        ((script.lookup Key.arguments).bind Json.items?).isSome
  | .null | .bool _ | .num _ | .str _ | .arr _ => false

def Json.scriptPositions (script : Json) : List OwnedPosition :=
  ((script.positions .value).filter fun position =>
    !(script.listsArguments && position.path.head? = some (.field Key.arguments))).map
      (OwnedPosition.mk script.reportScope)

/-- The positions of what should be a list of scripts. Anything else lies in no scope. -/
def Json.listPositions : Json → List OwnedPosition
  | .arr scripts => scripts.zipIdx.flatMap fun (script, index) =>
      script.scriptPositions.map (·.under (.item index))
  | other => (other.positions .value).map (OwnedPosition.mk none)

def Json.namePositions : Json → List OwnedPosition
  | .obj program =>
      ((program.lookup Key.scripts).map fun scripts =>
        scripts.listPositions.map (·.under (.field Key.scripts))).getD []
  | .arr scripts => (Json.arr scripts).listPositions
  | .null | .bool _ | .num _ | .str _ => []

private theorem OwnedPosition.unresolved?_under {input output innerInput innerOutput : Json}
    {step : Json.Step} (inputChild : input.child? step = some innerInput)
    (outputChild : output.child? step = some innerOutput) (owned : OwnedPosition) :
    (owned.under step).unresolved? input output = owned.unresolved? innerInput innerOutput := by
  simp only [OwnedPosition.unresolved?, OwnedPosition.under, Position.unresolved?,
    Json.at?_under inputChild, Json.at?_under outputChild]
  rfl

private theorem ScopeView.reports_eq (view : ScopeView) {tree : Json} {position : Position}
    (distinct : tree.DistinctKeys) (member : position ∈ tree.positions .value) :
    (position.reference? tree).toList.flatMap view.reports =
      (position.unresolved? view.owner tree (tree.rewrite view.change .value)).toList := by
  unfold Position.unresolved?
  rw [Json.at?_rewrite view.leafwise_change .value tree distinct position member]
  unfold Position.reference?
  cases tree.at? position.path with
  | none => rfl
  | some value =>
      cases value with
      | null | bool | num | arr | obj => rfl
      | str name =>
          obtain ⟨path, site⟩ := position
          simp only [Option.map_some, Option.toList_some, List.flatMap_singleton, Option.bind_some,
            Json.str?, Reference.after, Json.rewrite]
          cases site with
          | name kind =>
              simp only [ScopeView.reports, ScopeView.change, ScopeView.settled,
                ScopeView.blockName_eq]
              cases ((view.locals.atSite (.name kind)).bind (·.get? name)).or
                ((view.table.globalNames kind).get? name) <;> rfl
          | binding target =>
              rcases target with _ | (_ | _ | _ | target | _ | _)
              case some.str =>
                simp only [ScopeView.reports, ScopeView.change, ScopeView.settled,
                  ScopeView.bindingName_eq]
                cases (view.table.localNames (.function target)).get? name <;> rfl
              all_goals rfl

/-- The reports of the pass are those on the positions that keep their names. -/
theorem ScopeView.unresolved_eq (view : ScopeView) {tree : Json} (distinct : tree.DistinctKeys) :
    (view.resolve tree).unresolved =
      (tree.positions .value).filterMap
        (·.unresolved? view.owner tree (view.resolve tree).value) := by
  rw [ScopeView.resolve_eq]
  dsimp only
  rw [Json.references_eq .value tree distinct, List.filterMap_eq_flatMap_toList,
    List.filterMap_eq_flatMap_toList, List.flatMap_assoc]
  apply List.flatMap_congr
  intro position member
  exact view.reports_eq distinct member

namespace ScopeView

private theorem unresolved_countArguments (view : ScopeView) {script : Json.Fields}
    {declarations : List Json} (distinct : (Json.obj script).DistinctKeys)
    (owner : (ScriptKind.ofFields script).hasLocals = true)
    (held : script.lookup Key.arguments = some (.arr declarations)) :
    (view.resolve (.obj script.countArguments)).unresolved =
      (((Json.obj script).positions .value).filter fun position =>
        !(position.path.head? = some (.field Key.arguments))).filterMap
          (·.unresolved? view.owner (.obj script)
            (view.resolve (.obj script.countArguments)).value) := by
  have counted := Json.Fields.countArguments_of_declarations held
  have leaf : (Json.index declarations.length).IsLeaf := trivial
  have distinctCounted : (Json.obj script.countArguments).DistinctKeys := by
    rw [counted]
    exact distinct.replace Key.arguments trivial
  have block := Shape.ofFields_of_hasLocals owner
  have blockCounted : Shape.ofFields script.countArguments = .block := by
    apply Shape.ofFields_of_hasLocals
    rw [Json.Fields.ofFields_countArguments, owner]
  -- The count has no positions, so those below the argument list are the ones that go.
  have positions : (Json.obj script.countArguments).positions .value =
      ((Json.obj script).positions .value).filter fun position =>
        !(position.path.head? = some (.field Key.arguments)) := by
    simp only [Json.positions, Role.shape, block, blockCounted, List.filter_append]
    rw [counted, Json.fieldPositions_replace .block script Key.arguments leaf]
    rfl
  rw [view.unresolved_eq distinctCounted, positions]
  apply List.filterMap_congr
  intro position member
  obtain ⟨listed, elsewhere⟩ := List.mem_filter.mp member
  have elsewhere : position.path.head? ≠ some (.field Key.arguments) := by simpa using elsewhere
  unfold Position.unresolved?
  rw [counted, Json.at?_replace_of_head?_ne _ (Json.path_ne_nil listed) elsewhere]

private theorem unresolved_of_not_listsArguments (view : ScopeView) {item : Json}
    (distinct : item.DistinctKeys) (owner : view.owner = item.reportScope)
    (searched : item.listsArguments = false) :
    (view.resolve item).unresolved =
      item.scriptPositions.filterMap (·.unresolved? item (view.resolve item).value) := by
  rw [view.unresolved_eq distinct, owner]
  simp only [Json.scriptPositions, searched, Bool.false_and, Bool.not_false, List.filter_true,
    List.filterMap_map]
  rfl

end ScopeView

namespace SymbolTable

private theorem owner_viewOf (table : SymbolTable) (script : Json.Fields) :
    (table.viewOf script).owner = (Json.obj script).reportScope := rfl

theorem unresolved_resolveScoped (table : SymbolTable) {item : Json}
    (distinct : item.DistinctKeys) :
    (table.resolveScoped item).unresolved =
      item.scriptPositions.filterMap (·.unresolved? item (table.resolveScoped item).value) := by
  cases item with
  | null | bool | num | str | arr =>
      exact ScopeView.unresolved_of_not_listsArguments _ distinct rfl rfl
  | obj script =>
      simp only [resolveScoped]
      cases owner : (ScriptKind.ofFields script).hasLocals with
      | false =>
          rw [if_neg Bool.false_ne_true]
          apply ScopeView.unresolved_of_not_listsArguments _ distinct rfl
          simp only [Json.listsArguments, owner, Bool.false_and]
      | true =>
          rw [if_pos rfl]
          cases listed : (script.lookup Key.arguments).bind Json.items? with
          | none =>
              rw [Json.Fields.countArguments_of_unlisted listed]
              apply ScopeView.unresolved_of_not_listsArguments _ distinct rfl
              simp only [Json.listsArguments, listed, Option.isSome_none, Bool.and_false]
          | some declarations =>
              have held := Json.Fields.lookup_eq_some_arr listed
              have lists : (Json.obj script).listsArguments = true := by
                simp only [Json.listsArguments, owner, listed, Option.isSome_some, Bool.and_true]
              rw [ScopeView.unresolved_countArguments _ distinct owner held, owner_viewOf]
              simp only [Json.scriptPositions, lists, Bool.true_and, List.filterMap_map]
              rfl

private theorem flatMap_zipIdx {α : Type} (items : List Json) (reports : Json → List α) :
    (items.zipIdx.flatMap fun (item, _) => reports item) = items.flatMap reports := by
  have unnumbered := List.flatMap_map Prod.fst reports (l := items.zipIdx)
  rw [List.zipIdx_map_fst] at unnumbered
  exact unnumbered.symm

private theorem unresolved_resolveItems (table : SymbolTable) {items : List Json}
    (distinct : Json.DistinctItemKeys items) :
    (items.flatMap fun item => (table.resolveScoped item).unresolved) =
      (Json.arr items).listPositions.filterMap
        (·.unresolved? (.arr items)
          (.arr (items.map fun item => (table.resolveScoped item).value))) := by
  rw [← flatMap_zipIdx, Json.listPositions, List.filterMap_flatMap]
  apply List.flatMap_congr
  intro (item, index) member
  have found : (Json.arr items).child? (.item index) = some item :=
    List.mk_mem_zipIdx_iff_getElem?.mp member
  have resolved : (Json.arr (items.map fun item => (table.resolveScoped item).value)).child?
      (.item index) = some (table.resolveScoped item).value := by
    rw [Json.child?, List.getElem?_map]
    exact congrArg (Option.map _) found
  have itemDistinct := (Json.distinctItemKeys_iff items).mp distinct item
    (List.mem_of_getElem? found)
  dsimp only
  rw [table.unresolved_resolveScoped itemDistinct, List.filterMap_map]
  apply List.filterMap_congr
  intro owned _
  exact (owned.unresolved?_under found resolved).symm

theorem unresolved_resolve (table : SymbolTable) {scripts : Json}
    (distinct : scripts.eraseAnnotations.DistinctKeys) :
    (table.resolve scripts).unresolved =
      scripts.eraseAnnotations.listPositions.filterMap
        (·.unresolved? scripts.eraseAnnotations (table.resolve scripts).value) := by
  cases listed : scripts.items? with
  | none =>
      rw [resolve_of_items?_eq_none table listed, ScopeView.unresolved_eq _ distinct]
      cases scripts with
      | arr items => cases listed
      | null | bool | num | str => rfl
      | obj fields =>
          simp only [Json.eraseAnnotations, Json.listPositions, List.filterMap_map]
          rfl
  | some items =>
      cases scripts with
      | null | bool | num | str | obj => cases listed
      | arr scriptList =>
          simp only [Json.eraseAnnotations, Json.eraseItemAnnotations_eq_map] at distinct ⊢
          have reports := table.unresolved_resolveItems distinct
          rw [List.flatMap_map, List.map_map] at reports
          rw [resolve_arr]
          exact reports

end SymbolTable

private theorem Compaction.unresolved_ofValue (document : Document) :
    (ofValue document.tree).unresolved =
      document.tree.eraseAnnotations.namePositions.filterMap
        (·.unresolved? document.tree.eraseAnnotations (ofValue document.tree).value) := by
  have distinctPlain : document.tree.eraseAnnotations.DistinctKeys :=
    document.eraseAnnotations.distinctKeys
  generalize document.tree = value at distinctPlain ⊢
  rw [ofValue_unresolved]
  cases value with
  | null | bool | num | str => rfl
  | arr items =>
      have resolved : ((ofValue (.arr items)).table.resolve (.arr items)).value =
          (ofValue (.arr items)).value := by
        cases items <;> rfl
      rw [← resolved]
      exact SymbolTable.unresolved_resolve _ distinctPlain
  | obj program =>
      cases held : program.lookup Key.scripts with
      | none =>
          have heldPlain : (Json.eraseFieldAnnotations program).lookup Key.scripts = none := by
            rw [Json.lookup_eraseFieldAnnotations program (by decide), held, Option.map_none]
          simp only [Json.scripts?, held, Json.eraseAnnotations, Json.namePositions, heldPlain,
            Option.map_none, Option.getD_none, List.filterMap_nil]
      | some scripts =>
          have heldPlain : (Json.obj (Json.eraseFieldAnnotations program)).child?
              (.field Key.scripts) = some scripts.eraseAnnotations := by
            rw [Json.child?, Json.lookup_eraseFieldAnnotations program (by decide), held,
              Option.map_some]
          have heldOutput : (ofValue (.obj program)).value.child? (.field Key.scripts) =
              some ((ofValue (.obj program)).table.resolve scripts).value := by
            have output := scripts?_ofValue (.obj program)
            rw [Json.scripts?, held, Option.map_some] at output
            exact output
          have distinctScripts : scripts.eraseAnnotations.DistinctKeys :=
            Json.DistinctKeys.scripts distinctPlain heldPlain
          have reports := SymbolTable.unresolved_resolve (ofValue (.obj program)).table
            distinctScripts
          have lookupPlain := heldPlain
          rw [Json.child?] at lookupPlain
          simp only [Json.scripts?, held, Option.map_some, Option.getD_some, Json.eraseAnnotations,
            Json.namePositions, lookupPlain, List.filterMap_map]
          rw [reports]
          apply List.filterMap_congr
          intro owned _
          exact (owned.unresolved?_under heldPlain heldOutput).symm

private theorem OwnedPosition.paths_map_under (positions : List OwnedPosition) (step : Json.Step) :
    (positions.map (·.under step)).map (·.position.path) =
      (positions.map (·.position.path)).map (List.cons step) := by
  rw [List.map_map, List.map_map]
  rfl

theorem OwnedPosition.nodup_map_under {positions : List OwnedPosition}
    (distinct : (positions.map (·.position.path)).Nodup) (step : Json.Step) :
    ((positions.map (·.under step)).map (·.position.path)).Nodup := by
  rw [OwnedPosition.paths_map_under]
  exact List.Nodup.map List.cons_injective distinct

namespace Json

private theorem nodup_scriptPaths (script : Json) (distinct : script.DistinctKeys) :
    (script.scriptPositions.map (·.position.path)).Nodup := by
  unfold scriptPositions
  rw [List.map_map]
  apply List.Nodup.sublist _ (nodup_paths .value script distinct)
  exact List.Sublist.map _ List.filter_sublist

private theorem nodup_listPaths (scripts : Json) (distinct : scripts.DistinctKeys) :
    (scripts.listPositions.map (·.position.path)).Nodup := by
  cases scripts with
  | null | bool | num | str => exact List.nodup_nil
  | obj fields =>
      simp only [listPositions, List.map_map]
      exact nodup_paths .value (.obj fields) distinct
  | arr items =>
      rw [listPositions, List.map_flatMap, List.nodup_flatMap]
      constructor
      · intro (item, index) member
        have itemDistinct := (distinctItemKeys_iff items).mp distinct item
          (List.fst_mem_of_mem_zipIdx member)
        exact OwnedPosition.nodup_map_under (nodup_scriptPaths item itemDistinct) _
      · have indices : (items.zipIdx.map Prod.snd).Nodup := by
          rw [List.zipIdx_map_snd]
          exact List.nodup_range'
        apply (List.pairwise_map.mp indices).imp
        intro (first, firstIndex) (second, secondIndex) different path firstPath secondPath
        dsimp only at firstPath secondPath
        rw [OwnedPosition.paths_map_under] at firstPath secondPath
        obtain ⟨firstInner, -, rfl⟩ := List.mem_map.mp firstPath
        obtain ⟨secondInner, -, same⟩ := List.mem_map.mp secondPath
        exact different (Step.item.inj (List.cons.inj same).1).symm

end Json

theorem Document.nodup_namePaths (document : Document) :
    (document.tree.namePositions.map (·.position.path)).Nodup := by
  obtain ⟨value, distinct⟩ := document
  cases value with
  | null | bool | num | str => exact List.nodup_nil
  | arr items => exact Json.nodup_listPaths (.arr items) distinct
  | obj program =>
      cases held : program.lookup Key.scripts with
      | none =>
          rw [Json.namePositions, held]
          exact List.nodup_nil
      | some scripts =>
          rw [Json.namePositions, held]
          have scriptsDistinct := distinct.scripts held
          exact OwnedPosition.nodup_map_under (Json.nodup_listPaths scripts scriptsDistinct) _

private theorem Event.line_unresolved (name : UnresolvedName) :
    (Event.unresolved name).line = "WARN unresolved " ++ name.text := by
  have start : "WARN" ++ " " ++ "unresolved " = "WARN unresolved " := by simp
  change "WARN" ++ " " ++ ("unresolved " ++ name.text) = _
  rw [← String.append_assoc, start]

private theorem Compaction.warnings_events (compaction : Compaction) :
    (compaction.events.filter (·.level = "WARN")).map Event.line =
      compaction.unresolved.map fun name => "WARN unresolved " ++ name.text := by
  have built : ¬decide (compaction.table.builtEvent.level = "WARN") = true := by
    change ¬decide ("DEBUG" = "WARN") = true
    decide
  have reports : (compaction.unresolved.map Event.unresolved).filter (·.level = "WARN") =
      compaction.unresolved.map Event.unresolved := by
    rw [List.filter_eq_self]
    intro event member
    obtain ⟨name, -, rfl⟩ := List.mem_map.mp member
    rfl
  rw [Compaction.events, List.filter_cons, if_neg built, reports, List.map_map]
  apply List.map_congr_left
  intro name _
  exact Event.line_unresolved name

theorem Json.warnings_compactionEvents (value : Json) :
    (value.compactionEvents.filter (·.level = "WARN")).map Event.line =
      (Compaction.ofValue value).unresolved.map fun name => "WARN unresolved " ++ name.text := by
  cases value with
  | null | bool | num | str => rfl
  | obj program => exact Compaction.warnings_events _
  | arr items =>
      cases items with
      | nil => rfl
      | cons first rest => exact Compaction.warnings_events _

theorem Json.compact_reject (value : Json) :
    value.compact ⟨.reject⟩ =
      if (Compaction.ofValue value).unresolved = [] then .ok (Compaction.ofValue value)
      else .error (.unresolvedNames (Compaction.ofValue value).unresolved) := by
  unfold Json.compact Compaction.enforce
  cases (Compaction.ofValue value).unresolved <;> rfl

/-- Compaction reports each position that holds a name before and after, once and in order, and
nothing else. -/
theorem Document.unresolved_compact (document : Document) :
    ∃ compaction, document.tree.compact default = .ok compaction ∧
      compaction.unresolved =
        document.tree.eraseAnnotations.namePositions.filterMap
          (·.unresolved? document.tree.eraseAnnotations compaction.value) ∧
      (document.tree.eraseAnnotations.namePositions.map (·.position.path)).Nodup ∧
      ((document.tree.compactionEvents.filter (·.level = "WARN")).map Event.line =
        compaction.unresolved.map fun name => "WARN unresolved " ++ name.text) ∧
      document.tree.compact ⟨.reject⟩ =
        if compaction.unresolved = [] then .ok compaction
        else .error (.unresolvedNames compaction.unresolved) := by
  exact ⟨_, document.tree.compact_default, Compaction.unresolved_ofValue document,
    document.eraseAnnotations.nodup_namePaths, document.tree.warnings_compactionEvents,
    document.tree.compact_reject⟩

/-- Scripts with an undeclared variable, an undeclared list and a binding that the called function
does not know. The second call has no name for its target, so its binding is no reference. -/
def strayNames : Json :=
  let binding (name : String) (value : Json) := Json.obj [
    ("value", value), (NameKind.variable.key, .str name)]
  let call (target : Json) (argument : Json) := Json.obj [
    (Key.arguments, .arr [argument, .str "loose"]), (NameKind.function.key, target),
    (Key.kind, .str callKind)]
  let start := .obj [
    ("body", .arr [
      call (.str "turn") (binding "speed" (.obj [(NameKind.variable.key, .str "angle")])),
      call (Json.index 7) (binding "speed" .null)]),
    (Key.kind, .str eventHandlerKind)]
  let turn := .obj [
    (Key.arguments, .arr [.obj [(NameKind.variable.key, .str "angle")]]),
    ("body", .obj [(NameKind.list.key, .str "turns"), (NameKind.variable.key, .str "angle")]),
    (NameKind.function.key, .str "turn"), (Key.kind, .str NameKind.function.key)]
  .arr [start, turn]

theorem Document.unresolved_compact_strayNames :
    strayNames.DistinctKeys ∧ ∃ compaction, strayNames.compact default = .ok compaction ∧
      compaction.unresolved =
        strayNames.eraseAnnotations.namePositions.filterMap
          (·.unresolved? strayNames.eraseAnnotations compaction.value) ∧
      compaction.unresolved = [
        ⟨.binding, "speed", some "turn"⟩,
        ⟨.name .variable, "angle", some eventHandlerKind⟩,
        ⟨.name .list, "turns", some "turn"⟩] := by
  have distinct : strayNames.DistinctKeys := by decide
  obtain ⟨compaction, compacted, reports, -⟩ :=
    Document.unresolved_compact ⟨strayNames, distinct⟩
  refine ⟨distinct, compaction, compacted, reports, ?_⟩
  have same : Compaction.ofValue strayNames = compaction := Except.ok.inj compacted
  rw [← same]
  decide

end BlockNames
