import BlockNames.Proofs.PointwiseRestoration

/-!
Restoration of what is restored already. A script belongs to the function that it belonged to by its
index, and so does a call. Main statement: a restored value is restored to itself, because the
indices and the numbers of arguments that it still holds mean nothing to the table.
-/
namespace BlockNames

/-- The scripts of the results belong to the scopes that they belonged to, and calls to the
functions. Where the results hold an index, it stands for no name, and no number of arguments is
left that could be declared. -/
structure SymbolTable.Settles (table : SymbolTable) (scripts results : Json) : Prop where
  owners : ∀ path item, scripts.itemOf? path = some item →
    ∃ result, results.itemOf? path = some result ∧
      ∀ scope, table.Owns result scope ↔ table.Owns item scope
  targets : ∀ path target, scripts.siteAt? path = some (.binding (some target)) →
    ∃ after, results.siteAt? path = some (.binding (some after)) ∧
      ∀ function, table.Means after function ↔ table.Means target function
  nameless : ∀ path site index, results.siteAt? path = some site →
    results.at? path = some (Json.index index) →
      ∀ name, ¬table.StandsFor (results.itemOf? path) site index name
  uncounted : ∀ path claim, ¬table.ClaimsAt results path claim

namespace InvertibleTable

variable {table : InvertibleTable}

private theorem functionOf?_rewrite (change : Site → Json → Json) (role : Role) (value : Json) :
    table.functionOf? (value.rewrite change role) = table.functionOf? value := by
  rw [functionOf?_eq, functionOf?_eq, Json.str?_rewrite, Json.index?_rewrite]

theorem keepsTargets_restored (scope : Option Namespace) :
    table.KeepsTargets (table.restored scope) := by
  intro value
  rw [← table.functionOf?_rewrite (table.restored scope) .value value, Json.targetAfter]
  cases read : (value.rewrite (table.restored scope) .value).index? with
  | none => rw [table.restored_of_index?_eq_none scope _ read]
  | some index =>
      rw [Json.index?_eq_some_iff.mp read]
      cases named : table.nameAt? scope (.name .function) index with
      | none => rw [restored_index_of_nameless named]
      | some name =>
          rw [table.restored_index named]
          exact named.symm

private theorem nameAt?_mapTarget {change : Site → Json → Json} (keeps : table.KeepsTargets change)
    (scope : Option Namespace) (site : Site) (index : Int) :
    table.nameAt? scope (site.mapTarget (Json.targetAfter change)) index =
      table.nameAt? scope site index := by
  cases site with
  | name kind => rfl
  | binding target =>
      cases target with
      | none => rfl
      | some target =>
          simp only [nameAt?, namesAt, Site.mapTarget, localsOf?, Option.map_some,
            Option.bind_some, keeps target]

private theorem changeThen_restored (scope : Option Namespace) :
    Json.changeThen (table.restored scope) (table.restored scope) = table.restored scope := by
  funext site value
  unfold Json.changeThen
  cases read : value.index? with
  | none =>
      rw [table.restored_of_index?_eq_none scope site read]
      exact table.restored_of_index?_eq_none scope _ read
  | some index =>
      rw [Json.index?_eq_some_iff.mp read]
      cases named : table.nameAt? scope site index with
      | some name =>
          rw [table.restored_index named]
          exact table.restored_of_index?_eq_none scope _ rfl
      | none =>
          rw [restored_index_of_nameless named]
          apply restored_index_of_nameless
          rw [nameAt?_mapTarget (keepsTargets_restored scope), named]

theorem rewrite_restored_restored (scope : Option Namespace) (tree : Json) :
    (tree.rewrite (table.restored scope) .value).rewrite (table.restored scope) .value =
      tree.rewrite (table.restored scope) .value := by
  have twice :=
    Json.rewrite_rewrite (table.leafwise_restored scope) (table.restored scope) .value tree
  rwa [changeThen_restored] at twice

private theorem owns_event_iff {script : Json.Fields} :
    table.Owns (.obj script) .event ↔ ScriptKind.ofFields script = .eventHandler := by
  constructor
  · rintro ⟨kind⟩
    exact kind
  · exact .event

private theorem owns_function_iff {script : Json.Fields} {function : String} :
    table.Owns (.obj script) (.function function) ↔
      table.definedFunction? script = some function := by
  rw [definedFunction?_eq_some_iff_defines]
  constructor
  · rintro (_ | defines)
    exact defines
  · exact .function

private theorem exists_fields_of_restoreScript {script : Json.Fields} {result : Json}
    (restores : table.restoreScript (.obj script) = .ok result) :
    ∃ fields, result = .obj fields ∧
      ScriptKind.ofFields fields = ScriptKind.ofFields script ∧
      table.definedFunction? fields = table.definedFunction? script := by
  have expanded : ∃ fields, table.expandedItem (.obj script) = .obj fields ∧
      ScriptKind.ofFields fields = ScriptKind.ofFields script ∧
      table.definedFunction? fields = table.definedFunction? script := by
    simp only [expandedItem]
    split
    · exact ⟨script, rfl, rfl, rfl⟩
    · have kind := fun value => Json.Fields.ofFields_replace_of_ne script value
        (show Key.kind ≠ Key.arguments by decide)
      refine ⟨_, rfl, kind _, ?_⟩
      simp only [definedFunction?, kind,
        script.lookup_replace_of_ne _ (show NameKind.function.key ≠ Key.arguments by decide)]
  obtain ⟨-, rfl⟩ := restoreScript_eq_ok_iff.mp restores
  obtain ⟨fields, isFields, kind, defined⟩ := expanded
  rw [isFields]
  refine ⟨_, rfl, (Json.ofFields_rewriteFields _ _ fields).trans kind, ?_⟩
  exact (definedFunction?_rewriteFields (keepsTargets_restored _) fields).trans defined

private theorem fields?_of_restoreScript {item result : Json}
    (restores : table.restoreScript item = .ok result) (noScript : item.fields? = none) :
    result.fields? = none := by
  obtain ⟨-, rfl⟩ := restoreScript_eq_ok_iff.mp restores
  cases item with
  | null | bool | num | str | arr => rfl
  | obj script => cases noScript

theorem owns_iff_of_restoreScript {item result : Json}
    (restores : table.restoreScript item = .ok result) (scope : Scope) :
    table.Owns result scope ↔ table.Owns item scope := by
  cases item with
  | obj script =>
      obtain ⟨fields, rfl, kind, defined⟩ := exists_fields_of_restoreScript restores
      cases scope with
      | event => rw [owns_event_iff, owns_event_iff, kind]
      | function function => rw [owns_function_iff, owns_function_iff, defined]
  | null | bool | num | str | arr =>
      have noScript := fields?_of_restoreScript restores rfl
      constructor
      · rintro (_ | _) <;> cases noScript
      · nofun

private theorem itemLocals?_of_restoreScript {item result : Json}
    (restores : table.restoreScript item = .ok result) :
    table.itemLocals? result = table.itemLocals? item := by
  refine Option.ext fun names => ?_
  rw [itemLocals?_eq_some_iff, itemLocals?_eq_some_iff]
  exact exists_congr fun scope => and_congr_left' (owns_iff_of_restoreScript restores scope)

/-- No number of arguments is left that could be declared: it has been declared, or it belongs to no
function that the table knows. -/
private theorem unclaimed_of_restoreScript {item result : Json}
    (restores : table.restoreScript item = .ok result) (claim : ArgumentClaim) :
    ¬table.Claims result claim := by
  intro claims
  cases claims with
  | @script fields _ defines known held =>
  cases item with
  | null | bool | num | str | arr => cases fields?_of_restoreScript restores rfl
  | obj script =>
      by_cases claimed : ∃ earlier, table.Claims (.obj script) earlier
      · obtain ⟨earlier, claimed⟩ := claimed
        obtain ⟨restored, isFields, declared⟩ := lookup_arguments_of_claims claimed restores
        obtain rfl := Json.obj.inj isFields
        rw [Json.Fields.heldCount?, declared] at held
        cases held
      · apply claimed
        have owns := (owns_iff_of_restoreScript restores _).mp (.function defines)
        obtain ⟨-, isFields⟩ := restoreScript_eq_ok_iff.mp restores
        rw [expandedItem_of_unclaimed fun earlier holds => claimed ⟨earlier, holds⟩] at isFields
        obtain rfl := Json.obj.inj isFields
        rw [Json.heldCount?_rewriteFields] at held
        cases owns with
        | function definedBefore => exact ⟨claim, .script definedBefore known held⟩

theorem restoreScript_restored {item result : Json}
    (restores : table.restoreScript item = .ok result) :
    table.restoreScript result = .ok result := by
  have unclaimed := unclaimed_of_restoreScript restores
  refine restoreScript_eq_ok_iff.mpr ⟨?_, ?_⟩
  · exact argumentFault?_eq_none_iff.mpr fun claim claims => absurd claims (unclaimed claim)
  · rw [expandedItem_of_unclaimed unclaimed, itemLocals?_of_restoreScript restores]
    obtain ⟨-, rfl⟩ := restoreScript_eq_ok_iff.mp restores
    exact rewrite_restored_restored _ _

private theorem siteAt?_arguments_of_claims {script : Json.Fields} {claim : ArgumentClaim}
    (claims : table.Claims (.obj script) claim) (path : List Json.Step) :
    (Json.obj script).siteAt? (.field Key.arguments :: path) = none := by
  obtain ⟨arguments, stored, counted⟩ := Option.bind_eq_some_iff.mp claims.held
  have child : (Json.obj script).child? (.field Key.arguments) = some arguments := stored
  rw [Json.siteAt?, Json.placeAt_cons child]
  cases path with
  | nil => exact Json.site?_inside_arguments _ _
  | cons step path =>
      have childless := Json.child?_of_isLeaf (Json.isLeaf_of_count? counted) step
      rw [Json.placeAt_cons_of_child?_eq_none childless]

private theorem siteAt?_expandedItem {item : Json} {path : List Json.Step} {site : Site}
    (reference : item.siteAt? path = some site) :
    (table.expandedItem item).siteAt? path = some site := by
  by_cases claimed : ∃ claim, table.Claims item claim
  · obtain ⟨claim, claims⟩ := claimed
    cases item with
    | null | bool | num | str | arr => cases claims
    | obj script =>
        rw [expandedItem_of_claimed claims]
        cases path with
        | nil => cases reference
        | cons step path =>
            by_cases atArguments : step = .field Key.arguments
            · subst atArguments
              rw [siteAt?_arguments_of_claims claims] at reference
              cases reference
            · obtain ⟨child, inside⟩ :=
                child?_replace_arguments script (.arr claim.declarations) atArguments
              obtain ⟨place, -⟩ := Json.placeAt_cons_congr child inside path
              exact (congrArg Place.site? place).trans reference
  · rw [expandedItem_of_unclaimed fun claim claims => claimed ⟨claim, claims⟩]
    exact reference

private theorem exists_target_of_rewrite_restored (scope : Option Namespace) {tree target : Json}
    {path : List Json.Step} (binding : tree.siteAt? path = some (.binding (some target))) :
    ∃ after,
      (tree.rewrite (table.restored scope) .value).siteAt? path =
        some (.binding (some after)) ∧
      ∀ function, table.Means after function ↔ table.Means target function := by
  refine ⟨Json.targetAfter (table.restored scope) target, ?_, fun function => ?_⟩
  · rw [Json.siteAt?_rewrite (table.leafwise_restored scope), binding]
    rfl
  · rw [← functionOf?_eq_some_iff, ← functionOf?_eq_some_iff, keepsTargets_restored scope]

theorem restoreScripts_restored {scripts results : Json}
    (decoded : table.restoreScripts scripts = .ok results) :
    table.restoreScripts results = .ok results := by
  cases scripts with
  | null | bool | num | str =>
      obtain rfl := Except.ok.inj decoded
      rfl
  | obj fields =>
      obtain rfl := Except.ok.inj decoded
      exact congrArg Except.ok (rewrite_restored_restored none (.obj fields))
  | arr items =>
      obtain ⟨results, pointwise, rfl⟩ := restoreScripts_arr_eq_ok_iff.mp decoded
      refine restoreScripts_arr_eq_ok_iff.mpr ⟨results, ?_, rfl⟩
      clear decoded
      induction pointwise with
      | nil => exact .nil
      | cons here _ induction => exact .cons (restoreScript_restored here) induction

/-- Whatever comes back as itself holds no index with a name. -/
private theorem nameless_of_restoreScripts_self {scripts : Json}
    (unchanged : table.restoreScripts scripts = .ok scripts) {path : List Json.Step} {site : Site}
    {index : Int} (reference : scripts.siteAt? path = some site)
    (found : scripts.at? path = some (Json.index index)) (name : String) :
    ¬table.StandsFor (scripts.itemOf? path) site index name := by
  obtain ⟨after, reached, restores⟩ := restoresTo_of_restoreScripts unchanged path _ found
  obtain rfl := Option.some.inj (found.symm.trans reached)
  unfold SymbolTable.RestoresAt at restores
  rw [reference] at restores
  intro stands
  cases restores with
  | reference isReference named nameless =>
      obtain rfl := Option.some.inj isReference
      cases (named name).mpr stands
  | leaf isLeaf noIndex unclaimed => rcases noIndex with noReference | noIndex <;> contradiction

private theorem settles_arr {items results : List Json}
    (pointwise : List.Forall₂ (fun item result => table.restoreScript item = .ok result) items
      results) : table.Settles (.arr items) (.arr results) where
  owners := by
    intro path item isItem
    cases path with
    | nil => cases isItem
    | cons step path =>
        cases step with
        | field key => cases isItem
        | item position =>
            obtain ⟨result, stays, restores⟩ := exists_getElem?_of_forall₂ pointwise isItem
            exact ⟨result, stays, owns_iff_of_restoreScript restores⟩
  targets := by
    intro path target binding
    obtain ⟨position, item, rest, rfl, listed, inside⟩ := Json.siteAt?_arr_eq_some_iff.mp binding
    obtain ⟨result, stays, restores⟩ := exists_getElem?_of_forall₂ pointwise listed
    obtain ⟨-, rfl⟩ := restoreScript_eq_ok_iff.mp restores
    rw [Json.siteAt?_arr_item stays]
    exact exists_target_of_rewrite_restored _ (siteAt?_expandedItem inside)
  nameless := by
    intro path site index reference found
    have decoded := restoreScripts_arr_eq_ok_iff.mpr ⟨results, pointwise, rfl⟩
    exact nameless_of_restoreScripts_self (restoreScripts_restored decoded) reference found
  uncounted := by
    rintro path claim ⟨position, result, rfl, isResult, claims⟩
    obtain ⟨item, -, restores⟩ := exists_getElem?_of_forall₂ pointwise.flip isResult
    exact unclaimed_of_restoreScript restores claim claims

theorem settles_of_restoreScripts {scripts results : Json}
    (decoded : table.restoreScripts scripts = .ok results) : table.Settles scripts results := by
  cases scripts with
  | arr items =>
      obtain ⟨results, pointwise, rfl⟩ := restoreScripts_arr_eq_ok_iff.mp decoded
      exact settles_arr pointwise
  | null | bool | num | str | obj =>
      have unchanged := restoreScripts_restored decoded
      obtain rfl := Except.ok.inj decoded
      exact {
        owners := nofun
        targets := fun _ _ => exists_target_of_rewrite_restored none
        nameless := fun _ _ _ => nameless_of_restoreScripts_self unchanged
        uncounted := by
          rintro path claim ⟨position, item, -, isItem, -⟩
          cases isItem }

theorem withScripts_restored {value scripts results : Json} (held : value.scripts? = some scripts)
    (decoded : table.restoreScripts scripts = .ok results) :
    (value.withScripts results).scripts? = some results ∧
      (value.withScripts results).withScripts results = value.withScripts results := by
  cases value with
  | null | bool | num | str => cases held
  | arr items =>
      obtain rfl := Option.some.inj held
      obtain ⟨restored, -, rfl⟩ := restoreScripts_arr_eq_ok_iff.mp decoded
      exact ⟨rfl, rfl⟩
  | obj program =>
      have held : program.lookup Key.scripts = some scripts := held
      refine ⟨?_, congrArg Json.obj (Json.Fields.replace_replace program _ _ _)⟩
      change (Json.Fields.replace program Key.scripts results).lookup _ = some results
      rw [Json.Fields.lookup_replace_self, held, Option.map_some]

end InvertibleTable

/-- What was restored stays as it is when it is restored again. The scripts settle: their functions
and the targets of their calls are the same by name as by index, the indices that are left have no
name, and no number of arguments is left that could be declared. -/
theorem Json.restore_restore (value : Json) (table : SymbolTable) (restored : Json)
    (restores : value.restore table = .ok restored) :
    restored.restore table = .ok restored ∧
      ∀ scripts, value.scripts? = some scripts →
        ∃ results, restored.scripts? = some results ∧ table.Settles scripts results := by
  obtain ⟨inverse, accepted⟩ := SymbolTable.exists_invertible_of_restore restores
  rw [SymbolTable.restore_eq accepted] at restores ⊢
  obtain rfl := (SymbolTable.invertible_eq_ok_iff _ _).mp accepted
  rcases InvertibleTable.restore_eq_ok_iff.mp restores with
    ⟨absent, rfl⟩ | ⟨scripts, results, held, decoded, rfl⟩
  · refine ⟨restores, fun scripts held => ?_⟩
    cases absent.symm.trans held
  · obtain ⟨heldAgain, replaced⟩ := InvertibleTable.withScripts_restored held decoded
    have again := InvertibleTable.restoreScripts_restored decoded
    refine ⟨?_, fun other otherHeld => ⟨results, heldAgain, ?_⟩⟩
    · exact InvertibleTable.restore_eq_ok_iff.mpr
        (.inr ⟨results, results, heldAgain, again, replaced⟩)
    · obtain rfl := Option.some.inj (held.symm.trans otherHeld)
      exact InvertibleTable.settles_of_restoreScripts decoded

theorem Json.restore_restore_countedSteps :
    countedSteps.restore steppingTable = .ok namedSteps ∧
      namedSteps.restore steppingTable = .ok namedSteps ∧
      ∃ results, namedSteps.scripts? = some results ∧
        steppingTable.Settles countedSteps results := by
  have restores : countedSteps.restore steppingTable = .ok namedSteps := rfl
  obtain ⟨again, settles⟩ := Json.restore_restore countedSteps steppingTable namedSteps restores
  exact ⟨restores, again, settles countedSteps rfl⟩

end BlockNames
