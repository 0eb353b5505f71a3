import BlockNames.Proofs.Leftover
import BlockNames.Proofs.RepeatedRestoration

/-!
The log of a restoration, read off the restored value. Main statement: the log has one line for each
number that is left over, in the order in which scripts are searched, and no other line.
-/
namespace BlockNames

def Reference.leftEvent? (reference : Reference) : Option Event :=
  reference.value.index?.map (.unknownIndex reference.site.field)

private theorem Json.map_event_leftIndices {tree : Json} (distinct : tree.DistinctKeys) :
    tree.leftIndices.map Leftover.event =
      (tree.references .value).filterMap Reference.leftEvent? := by
  rw [leftIndices, references_eq .value tree distinct, List.map_filterMap,
    List.filterMap_filterMap]
  refine List.filterMap_congr fun position _ => ?_
  unfold Position.leftover? Position.reference?
  cases tree.at? position.path with
  | none => rfl
  | some value =>
      simp only [Option.bind_some, Option.map_some, Option.map_map]
      rfl

private theorem Json.map_event_listLeftovers_arr (items : List Json) :
    (Json.arr items).listLeftovers.map Leftover.event =
      items.flatMap fun item => item.itemLeftovers.map Leftover.event := by
  have withoutPositions := List.flatMap_map Prod.fst
    (fun item : Json => item.itemLeftovers.map Leftover.event) (l := items.zipIdx)
  rw [List.zipIdx_map_fst] at withoutPositions
  rw [withoutPositions, listLeftovers, List.map_flatMap]
  refine List.flatMap_congr fun numbered _ => ?_
  rw [List.map_map]
  exact List.map_congr_left fun leftover _ => leftover.event_under _

@[simp] theorem Site.field_mapTarget (change : Json → Json) (site : Site) :
    (site.mapTarget change).field = site.field := by
  cases site <;> rfl

namespace InvertibleTable

variable {table : InvertibleTable}

/-- An index is reported exactly if restoration puts no name in its place. -/
theorem unknownIndex?_eq (scope : Option Namespace) (reference : Reference) :
    table.unknownIndex? scope reference =
      (reference.after (table.restored scope)).leftEvent? := by
  obtain ⟨site, value⟩ := reference
  simp only [unknownIndex?, Reference.leftEvent?, Reference.after, Site.field_mapTarget]
  cases read : value.index? with
  | none =>
      have unread : (value.rewrite (table.restored scope) .value).index? = none := by
        rw [Json.index?_rewrite, read]
      rw [table.restored_of_index?_eq_none scope site unread, unread]
      rfl
  | some index =>
      obtain rfl := Json.index?_eq_some_iff.mp read
      have unchanged : (Json.index index).rewrite (table.restored scope) .value =
          Json.index index := rfl
      rw [unchanged]
      cases named : table.nameAt? scope site index with
      | none =>
          rw [restored_index_of_nameless named]
          simp only [named]
          rfl
      | some name =>
          rw [table.restored_index named]
          simp only [named]
          rfl

private theorem unknownIndices_eq (scope : Option Namespace) {tree : Json}
    (distinct : (tree.rewrite (table.restored scope) .value).DistinctKeys) :
    table.unknownIndices scope tree =
      (tree.rewrite (table.restored scope) .value).leftIndices.map Leftover.event := by
  have references := Json.references_rewrite (table.leafwise_restored scope) .value tree
  rw [Role.mapTarget] at references
  rw [Json.map_event_leftIndices distinct, references, List.filterMap_map]
  exact List.filterMap_congr fun reference _ => unknownIndex?_eq scope reference

private theorem exists_claims_iff {script : Json.Fields} :
    (∃ claim, table.Claims (.obj script) claim) ↔
      ScriptKind.ofFields script = .declaration .function ∧ script.heldCount?.isSome ∧
        (table.scriptLocals? script).isSome := by
  have asItem : table.scriptLocals? script = table.itemLocals? (.obj script) := rfl
  rw [asItem]
  constructor
  · rintro ⟨claim, ⟨defines, known, held⟩⟩
    have named := itemLocals?_eq_some_iff.mpr ⟨_, .function defines, known⟩
    exact ⟨defines.kind, Option.isSome_of_eq_some held, Option.isSome_of_eq_some named⟩
  · rintro ⟨kind, holds, named⟩
    obtain ⟨count, held⟩ := Option.isSome_iff_exists.mp holds
    obtain ⟨names, named⟩ := Option.isSome_iff_exists.mp named
    obtain ⟨scope, owns, known⟩ := itemLocals?_eq_some_iff.mp named
    cases owns with
    | event handler => cases kind.symm.trans handler
    | function defines => exact ⟨⟨_, names, count⟩, .script defines known held⟩

private theorem unknownFunction?_eq (script : Json.Fields) :
    table.unknownFunction? script =
      if ScriptKind.ofFields script = .declaration .function ∧ script.heldCount?.isSome ∧
          table.scriptLocals? script = none then
        some .unknownFunction
      else
        none := by
  unfold unknownFunction? Json.Fields.heldCount?
  split
  next kind => simp only [kind, true_and]
  all_goals simp_all

private theorem map_event_leftCount {script : Json.Fields} {result : Json}
    (restores : table.restoreScript (.obj script) = .ok result) :
    result.leftCount.map Leftover.event = (table.unknownFunction? script).toList := by
  rw [unknownFunction?_eq]
  by_cases claimed : ∃ claim, table.Claims (.obj script) claim
  -- Declarations have taken the place of the number, and nothing is reported.
  · obtain ⟨claim, claims⟩ := claimed
    obtain ⟨-, -, named⟩ := exists_claims_iff.mp ⟨claim, claims⟩
    obtain ⟨restored, rfl, declared⟩ := lookup_arguments_of_claims claims restores
    have uncounted : Json.Fields.heldCount? restored = none := by
      rw [Json.Fields.heldCount?, declared]
      rfl
    have known : table.scriptLocals? script ≠ none := Option.isSome_iff_ne_none.mp named
    simp [Json.leftCount, uncounted, known]
  -- The script still holds what it held, and it has no local names if that is a number.
  · obtain ⟨-, rfl⟩ := restoreScript_eq_ok_iff.mp restores
    rw [expandedItem_of_unclaimed fun claim claims => claimed ⟨claim, claims⟩]
    rw [exists_claims_iff] at claimed
    simp only [Json.rewrite, Json.leftCount, Json.ofFields_rewriteFields,
      Json.heldCount?_rewriteFields]
    by_cases holds : ScriptKind.ofFields script = .declaration .function ∧ script.heldCount?.isSome
    · have unknown : table.scriptLocals? script = none := by
        rw [← Option.not_isSome_iff_eq_none]
        exact fun named => claimed ⟨holds.1, holds.2, named⟩
      rw [if_pos holds, if_pos ⟨holds.1, holds.2, unknown⟩]
      rfl
    · rw [if_neg holds, if_neg fun more => holds ⟨more.1, more.2.1⟩]
      rfl

theorem scriptEvents_eq {item result : Json} (distinct : result.DistinctKeys)
    (restores : table.restoreScript item = .ok result) :
    table.scriptEvents item = result.itemLeftovers.map Leftover.event := by
  rw [Json.itemLeftovers, List.map_append]
  cases item with
  | null | bool | num | str | arr =>
      obtain rfl := Except.ok.inj restores
      exact unknownIndices_eq none distinct
  | obj script =>
      rw [map_event_leftCount restores]
      rw [restoreScript] at restores
      cases expanded : table.restoreScriptArguments script with
      | error fault =>
          rw [expanded] at restores
          cases restores
      | ok declared =>
          rw [expanded] at restores
          obtain rfl := Except.ok.inj restores
          simp only [scriptEvents, expanded]
          rw [unknownIndices_eq _ distinct]

private theorem flatMap_scriptEvents {items results : List Json}
    (pointwise : List.Forall₂ (fun item result => table.restoreScript item = .ok result) items
      results) (distinct : Json.DistinctItemKeys results) :
    (items.takeWhile fun item => (table.restoreScript item).isOk).flatMap table.scriptEvents =
      results.flatMap fun result => result.itemLeftovers.map Leftover.event := by
  induction pointwise with
  | nil => rfl
  | @cons item result items results here _ induction =>
      have restorable : (table.restoreScript item).isOk = true := by
        rw [here]
        rfl
      rw [List.takeWhile_cons, if_pos restorable, List.flatMap_cons, List.flatMap_cons,
        scriptEvents_eq distinct.1 here, induction distinct.2]

private theorem scriptsEvents_eq {scripts results : Json} (distinct : results.DistinctKeys)
    (decoded : table.restoreScripts scripts = .ok results) :
    table.scriptsEvents scripts = results.listLeftovers.map Leftover.event := by
  cases scripts with
  | null | bool | num | str | obj =>
      obtain rfl := Except.ok.inj decoded
      exact unknownIndices_eq none distinct
  | arr items =>
      obtain ⟨results, pointwise, rfl⟩ := restoreScripts_arr_eq_ok_iff.mp decoded
      rw [scriptsEvents, flatMap_scriptEvents pointwise distinct,
        Json.map_event_listLeftovers_arr]

private theorem events_eq (value : Json) :
    table.events value = (value.scripts?.map table.scriptsEvents).getD [] := by
  cases value <;> rfl

end InvertibleTable

namespace Json

private theorem distinctKeys_of_isLeaf {value : Json} (leaf : value.IsLeaf) :
    value.DistinctKeys := by
  cases value with
  | null | bool | num | str => trivial
  | arr | obj => exact leaf.elim

theorem DistinctKeys.changed {change : Site → Json → Json} (leafwise : Leafwise change)
    {value : Json} (distinct : value.DistinctKeys) (site? : Option Site) :
    (Site.changed change site? value).DistinctKeys := by
  cases site? with
  | none => exact distinct
  | some site =>
      rw [Site.changed]
      by_cases leaf : value.IsLeaf
      · exact distinctKeys_of_isLeaf (leafwise.leaf site value leaf)
      · rwa [leafwise.inner site value leaf]

theorem DistinctKeys.rewrite {change : Site → Json → Json} (leafwise : Leafwise change)
    {tree : Json} (distinct : tree.DistinctKeys) (role : Role) :
    (tree.rewrite change role).DistinctKeys := by
  induction tree using Json.induction generalizing role with
  | leaf value leaf =>
      rw [rewrite_of_isLeaf change role leaf]
      exact distinct
  | list items induction =>
      rw [Json.rewrite, rewriteItems_eq_map]
      refine (distinctItemKeys_iff _).mpr fun item member => ?_
      obtain ⟨old, oldMember, rfl⟩ := List.mem_map.mp member
      exact induction old oldMember ((distinctItemKeys_iff items).mp distinct old oldMember) _
  | object fields induction =>
      have keys : ((rewriteFields change (role.shape fields) fields).map Prod.fst).Nodup := by
        rw [keys_rewriteFields]
        exact distinct.1
      refine ⟨keys, (distinctFieldKeys_iff _).mpr fun (key, value) member => ?_⟩
      have held := Fields.lookup_eq_some_of_mem keys member
      rw [lookup_rewriteFields] at held
      obtain ⟨old, oldHeld, rfl⟩ := Option.map_eq_some_iff.mp held
      have oldMember := Fields.mem_of_lookup_eq_some oldHeld
      have oldDistinct := (distinctFieldKeys_iff fields).mp distinct.2 _ oldMember
      exact (induction _ oldMember oldDistinct _).changed leafwise _

end Json

namespace InvertibleTable

variable {table : InvertibleTable}

private theorem distinctKeys_expandedItem {item : Json} (distinct : item.DistinctKeys) :
    (table.expandedItem item).DistinctKeys := by
  by_cases claimed : ∃ claim, table.Claims item claim
  · obtain ⟨claim, claims⟩ := claimed
    cases item with
    | null | bool | num | str | arr => cases claims
    | obj script =>
        have declared : (Json.arr claim.declarations).DistinctKeys := by
          refine (Json.distinctItemKeys_iff _).mpr fun declaration member => ?_
          obtain ⟨position, -, rfl⟩ := List.mem_map.mp member
          exact ⟨List.nodup_singleton _, trivial, trivial⟩
        rw [expandedItem_of_claimed claims]
        exact distinct.replace Key.arguments declared
  · rw [expandedItem_of_unclaimed fun claim claims => claimed ⟨claim, claims⟩]
    exact distinct

private theorem distinctKeys_of_restoreScript {item result : Json} (distinct : item.DistinctKeys)
    (restores : table.restoreScript item = .ok result) : result.DistinctKeys := by
  obtain ⟨-, rfl⟩ := restoreScript_eq_ok_iff.mp restores
  exact (distinctKeys_expandedItem distinct).rewrite (table.leafwise_restored _) .value

theorem distinctKeys_of_restoreScripts {scripts results : Json} (distinct : scripts.DistinctKeys)
    (decoded : table.restoreScripts scripts = .ok results) : results.DistinctKeys := by
  cases scripts with
  | null | bool | num | str | obj =>
      obtain rfl := Except.ok.inj decoded
      exact distinct.rewrite (table.leafwise_restored none) .value
  | arr items =>
      obtain ⟨results, pointwise, rfl⟩ := restoreScripts_arr_eq_ok_iff.mp decoded
      refine (Json.distinctItemKeys_iff results).mpr fun result member => ?_
      obtain ⟨position, stored⟩ := List.mem_iff_getElem?.mp member
      obtain ⟨item, listed, restores⟩ := exists_getElem?_of_forall₂ pointwise.flip stored
      have itemDistinct :=
        (Json.distinctItemKeys_iff items).mp distinct item (List.mem_of_getElem? listed)
      exact distinctKeys_of_restoreScript itemDistinct restores

end InvertibleTable

theorem Json.DistinctKeys.withScripts {value results : Json} (distinct : value.DistinctKeys)
    (resultsDistinct : results.DistinctKeys) : (value.withScripts results).DistinctKeys := by
  cases value with
  | null | bool | num | str => exact distinct
  | arr items => exact resultsDistinct
  | obj program => exact distinct.replace Key.scripts resultsDistinct

namespace Document

variable (document : Document) {table : SymbolTable} {restored : Json}
  (restores : document.tree.restore table = .ok restored)

include restores

theorem distinctKeys_restored : restored.DistinctKeys := by
  obtain ⟨inverse, accepted⟩ := SymbolTable.exists_invertible_of_restore restores
  rw [SymbolTable.restore_eq accepted] at restores
  rcases InvertibleTable.restore_eq_ok_iff.mp restores with
    ⟨-, rfl⟩ | ⟨scripts, results, held, decoded, rfl⟩
  · exact document.distinctKeys
  · have scriptsDistinct := document.distinctKeys.scripts held
    exact document.distinctKeys.withScripts
      (InvertibleTable.distinctKeys_of_restoreScripts scriptsDistinct decoded)

theorem restorationEvents_eq :
    document.tree.restorationEvents table = restored.leftovers.map Leftover.event := by
  obtain ⟨inverse, accepted⟩ := SymbolTable.exists_invertible_of_restore restores
  have logged : document.tree.restorationEvents table = inverse.events document.tree := by
    rw [Json.restorationEvents, accepted]
  rw [SymbolTable.restore_eq accepted] at restores
  rw [logged, InvertibleTable.events_eq, Json.leftovers]
  rcases InvertibleTable.restore_eq_ok_iff.mp restores with
    ⟨absent, rfl⟩ | ⟨scripts, results, held, decoded, rfl⟩
  · rw [absent]
    rfl
  · have resultsDistinct := InvertibleTable.distinctKeys_of_restoreScripts
      (document.distinctKeys.scripts held) decoded
    rw [held, (InvertibleTable.withScripts_restored held decoded).1]
    exact InvertibleTable.scriptsEvents_eq resultsDistinct decoded

end Document

/-- A restoration logs the numbers that it leaves over. The log has one line for each, in the order
in which scripts are searched, and nothing else; no number is listed twice. So it is empty exactly
if no index is left at a reference and no script counts its arguments any more. -/
theorem Document.log_restore (document : Document) (table : SymbolTable) (restored : Json)
    (restores : document.tree.restore table = .ok restored) :
    (document.tree.restorationEvents table).map Event.line =
        restored.leftovers.map Leftover.line ∧
      restored.leftovers.Nodup ∧
      (∀ leftover, leftover ∈ restored.leftovers ↔
        ∃ scripts, restored.scripts? = some scripts ∧ scripts.Leaves leftover) ∧
      (document.tree.restorationEvents table = [] ↔
        ∀ scripts, restored.scripts? = some scripts → ∀ leftover, ¬scripts.Leaves leftover) := by
  let result : Document := ⟨restored, document.distinctKeys_restored restores⟩
  have listed : ∀ leftover, leftover ∈ restored.leftovers ↔
      ∃ scripts, restored.scripts? = some scripts ∧ scripts.Leaves leftover :=
    fun _ => result.mem_leftovers_iff
  have events := document.restorationEvents_eq restores
  refine ⟨?_, result.nodup_leftovers, listed, ?_⟩
  · rw [events, List.map_map]
    exact List.map_congr_left fun leftover _ => leftover.line_event
  · rw [events, List.map_eq_nil_iff, List.eq_nil_iff_forall_not_mem]
    constructor
    · intro unlisted scripts held leftover leaves
      exact unlisted leftover ((listed leftover).mpr ⟨scripts, held, leaves⟩)
    · intro absent leftover member
      obtain ⟨scripts, held, leaves⟩ := (listed leftover).mp member
      exact absent scripts held leftover leaves

/-- Scripts that call a function and define it with two arguments. The table does not know it, so
only the variables of the event handler get names. -/
def strangeSteps (inner speed : Json) : Json :=
  steppingScripts (.index 5) (.index (-1)) inner speed (.index (-1)) (.index 2)

theorem Document.log_restore_strangeSteps :
    (strangeSteps (.index (-1)) (.index 0)).DistinctKeys ∧
      (strangeSteps (.index (-1)) (.index 0)).restore steppingTable =
        .ok (strangeSteps (.str "step") (.str "speed")) ∧
      ((strangeSteps (.index (-1)) (.index 0)).restorationEvents steppingTable).map Event.line = [
        "WARN no variable name for index -1",
        "WARN no function name for index 5",
        "WARN no list name for index 3",
        "WARN argument count of an unknown function left as is",
        "WARN no function name for index 5",
        "WARN no variable name for index -1"] ∧
      (strangeSteps (.str "step") (.str "speed")).Leaves
        (.count [.item 1, .field Key.arguments]) := by
  have distinct : (strangeSteps (.index (-1)) (.index 0)).DistinctKeys := by decide
  have restores : (strangeSteps (.index (-1)) (.index 0)).restore steppingTable =
      .ok (strangeSteps (.str "step") (.str "speed")) := rfl
  obtain ⟨lines, -, listed, -⟩ := Document.log_restore ⟨_, distinct⟩ steppingTable _ restores
  obtain ⟨scripts, held, leaves⟩ :=
    (listed (.count [.item 1, .field Key.arguments])).mp (by decide)
  obtain rfl := Option.some.inj held
  exact ⟨distinct, restores, lines.trans rfl, leaves⟩

end BlockNames
