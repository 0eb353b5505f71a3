import BlockNames.Proofs.ItemRestoration

/-!
When a restoration fails. Either the table cannot be read backwards, or some script holds more
arguments than its function has local names. Main statement: there is no other failure, the first
such script is the one reported, and what does not fail has exactly the declarations it counts.
-/
namespace BlockNames

/-- The first of the items that holds more arguments than its function has local names. -/
def SymbolTable.FirstExcess (table : SymbolTable) (items : List Json) (claim : ArgumentClaim) :
    Prop :=
  ∃ before item after, items = before ++ item :: after ∧
    (∀ earlier ∈ before, ∀ other, table.Claims earlier other → other.count ≤ other.locals.size) ∧
    table.Claims item claim ∧ claim.locals.size < claim.count

def ArgumentClaim.error (claim : ArgumentClaim) : CompactionError :=
  .argumentCount claim.function claim.count claim.locals.size

theorem ArgumentClaim.fault?_eq_some_iff {claim : ArgumentClaim} {error : CompactionError} :
    claim.fault? = some error ↔ claim.locals.size < claim.count ∧ error = claim.error := by
  unfold fault? ArgumentClaim.error
  split
  next within => simp [Nat.not_lt.mpr within]
  next exceeds => simp [Nat.not_le.mp exceeds, eq_comm]

namespace InvertibleTable

variable {table : InvertibleTable}

private theorem argumentFault?_eq_some_iff {item : Json} {error : CompactionError} :
    table.argumentFault? Json.Fields.heldCount? item = some error ↔
      ∃ claim, table.Claims item claim ∧ claim.locals.size < claim.count ∧
        error = claim.error := by
  unfold argumentFault?
  simp only [Option.bind_eq_some_iff, ArgumentClaim.fault?_eq_some_iff]
  constructor
  · rintro ⟨claim, ⟨script, isScript, claimed⟩, exceeds⟩
    cases item with
    | null | bool | num | str | arr => cases isScript
    | obj fields =>
        obtain rfl := Option.some.inj isScript
        exact ⟨claim, argumentClaim?_eq_some_iff_claims.mp claimed, exceeds⟩
  · rintro ⟨claim, claimed, exceeds⟩
    cases item with
    | null | bool | num | str | arr => cases claimed
    | obj script =>
        exact ⟨claim, ⟨script, rfl, argumentClaim?_eq_some_iff_claims.mpr claimed⟩, exceeds⟩

theorem argumentFault?_eq_none_iff {item : Json} :
    table.argumentFault? Json.Fields.heldCount? item = none ↔
      ∀ claim, table.Claims item claim → claim.count ≤ claim.locals.size := by
  rw [Option.eq_none_iff_forall_ne_some]
  constructor
  · intro faultless claim claimed
    by_contra exceeds
    exact faultless _
      (argumentFault?_eq_some_iff.mpr ⟨claim, claimed, Nat.lt_of_not_le exceeds, rfl⟩)
  · intro within error failed
    obtain ⟨claim, claimed, exceeds, -⟩ := argumentFault?_eq_some_iff.mp failed
    exact Nat.not_le.mpr exceeds (within claim claimed)

theorem findSome?_argumentFault?_eq_some_iff {items : List Json} {error : CompactionError} :
    items.findSome? (table.argumentFault? Json.Fields.heldCount?) = some error ↔
      ∃ claim, table.FirstExcess items claim ∧ error = claim.error := by
  rw [List.findSome?_eq_some_iff]
  constructor
  · rintro ⟨before, item, after, isList, failed, earlier⟩
    obtain ⟨claim, claimed, exceeds, isError⟩ := argumentFault?_eq_some_iff.mp failed
    refine ⟨claim, ⟨before, item, after, isList, ?_, claimed, exceeds⟩, isError⟩
    exact fun other member => argumentFault?_eq_none_iff.mp (earlier other member)
  · rintro ⟨claim, ⟨before, item, after, isList, earlier, claimed, exceeds⟩, isError⟩
    refine ⟨before, item, after, isList, ?_, ?_⟩
    · exact argumentFault?_eq_some_iff.mpr ⟨claim, claimed, exceeds, isError⟩
    · exact fun other member => argumentFault?_eq_none_iff.mpr (earlier other member)

theorem findSome?_argumentFault?_eq_none_iff {items : List Json} :
    items.findSome? (table.argumentFault? Json.Fields.heldCount?) = none ↔
      ∀ item ∈ items, ∀ claim, table.Claims item claim → claim.count ≤ claim.locals.size := by
  rw [List.findSome?_eq_none_iff]
  exact forall₂_congr fun _ _ => argumentFault?_eq_none_iff

theorem exists_restore_iff {value : Json} :
    (∃ restored, table.restore value = .ok restored) ↔
      ∀ item ∈ value.scriptItems, ∀ claim, table.Claims item claim →
        claim.count ≤ claim.locals.size := by
  rw [← findSome?_argumentFault?_eq_none_iff, Option.eq_none_iff_forall_ne_some]
  simp only [ne_eq, ← restore_eq_error_iff]
  cases table.restore value <;> simp

private theorem argumentFault?_countedItem (item : Json) :
    table.argumentFault? Json.Fields.heldCount? item.countedItem =
      table.argumentFault? Json.Fields.argumentCount? item := by
  cases item with
  | null | bool | num | str | arr => rfl
  | obj script =>
      simp only [Json.countedItem, argumentFault?, Json.fields?, Option.bind_some,
        argumentClaim?_counted]

private theorem restore_ofValue_eq_error_iff_counted {value : Json}
    (accepted : (Compaction.ofValue value).table.invertible = .ok table)
    (error : CompactionError) :
    (Compaction.ofValue value).value.restore (Compaction.ofValue value).table = .error error ↔
      (value.scriptItems.map Json.countedItem).findSome?
        (table.argumentFault? Json.Fields.heldCount?) = some error := by
  have sameFault : table.argumentFault? Json.Fields.heldCount? ∘ Json.countedItem =
      table.argumentFault? Json.Fields.argumentCount? :=
    funext fun item => table.argumentFault?_countedItem item
  rw [Compaction.restore_ofValue_eq_error_iff accepted, List.findSome?_map, sameFault]

theorem exists_declarations_of_restore {value restored item : Json} {position : Nat}
    {claim : ArgumentClaim} (restores : table.restore value = .ok restored)
    (listed : value.scriptItems[position]? = some item) (claims : table.Claims item claim) :
    ∃ script, restored.scriptItems[position]? = some (.obj script) ∧
      script.lookup Key.arguments = some (.arr claim.declarations) ∧
      claim.count ≤ claim.locals.size := by
  obtain ⟨result, stays, itemRestores⟩ :=
    exists_getElem?_of_forall₂ (forall₂_scriptItems_of_restore restores) listed
  have sound := argumentFault?_eq_none_iff.mp (restoreScript_eq_ok_iff.mp itemRestores).1
  cases item with
  | null | bool | num | str | arr => cases claims
  | obj fields =>
      obtain ⟨script, rfl, declared⟩ := lookup_arguments_of_claims claims itemRestores
      exact ⟨script, stays, declared, sound claim claims⟩

end InvertibleTable

/-- A restoration fails with the fault of the table, or else with the first script that holds more
arguments than its function has local names. What is restored has as many declarations as each
script held. -/
theorem Json.restore_outcome (value : Json) (table : SymbolTable) :
    (∀ error, value.restore table = .error error ↔
      table.invertible = .error error ∨
      (∃ inverse, table.invertible = .ok inverse) ∧
        ∃ claim, table.FirstExcess value.scriptItems claim ∧ error = claim.error) ∧
    ∀ restored, value.restore table = .ok restored →
      ∀ (position : Nat) (item : Json) (claim : ArgumentClaim),
        value.scriptItems[position]? = some item → table.Claims item claim →
        ∃ (script : Json.Fields) (declarations : List Json),
          restored.scriptItems[position]? = some (.obj script) ∧
          script.lookup Key.arguments = some (.arr declarations) ∧
          declarations.length = claim.count := by
  cases accepted : table.invertible with
  | error fault =>
      have failed : value.restore table = .error fault := by
        unfold restore
        rw [accepted]
        rfl
      simp [failed]
  | ok inverse =>
      have tableOf := (SymbolTable.invertible_eq_ok_iff _ _).mp accepted
      rw [SymbolTable.restore_eq accepted]
      subst tableOf
      constructor
      · intro error
        rw [InvertibleTable.restore_eq_error_iff,
          InvertibleTable.findSome?_argumentFault?_eq_some_iff]
        simp
      · intro restored restores position item claim listed claimed
        have pointwise := InvertibleTable.forall₂_scriptItems_of_restore restores
        obtain ⟨result, stays, itemRestores⟩ := exists_getElem?_of_forall₂ pointwise listed
        cases claimed with
        | script defines known held =>
            obtain ⟨script, rfl, declared⟩ :=
              InvertibleTable.lookup_arguments_of_claims (.script defines known held) itemRestores
            exact ⟨script, _, stays, declared, claim.length_declarations⟩

def angleNames : Namespace := OrderedMap.ofList [("angle", -1)]

def angleTable : SymbolTable where
  functionNames := OrderedMap.ofList [("turn", 0)]
  locals := OrderedMap.ofList [("turn", angleNames)]

/-- A script for the first function, with a number in place of its arguments. -/
def countingScript (count : Number) : Json.Fields :=
  [(Key.arguments, .num count), (NameKind.function.key, .index 0),
    (Key.kind, .str NameKind.function.key)]

/-- The largest number of arguments is refused, after a script without arguments that is not; one
argument is declared. -/
theorem Json.restore_outcome_countingScript :
    (Json.arr [.obj (countingScript (.integer 0)),
        .obj (countingScript (.ofInt 0xFFFFFFFFFFFFFFFF))]).restore angleTable =
      .error (.argumentCount "turn" 0xFFFFFFFFFFFFFFFF 1) ∧
    ∃ restored, (Json.arr [.obj (countingScript (.integer 1))]).restore angleTable =
      .ok restored ∧
      ∃ (script : Json.Fields) (declarations : List Json),
        restored.scriptItems[0]? = some (.obj script) ∧
        script.lookup Key.arguments = some (.arr declarations) ∧ declarations.length = 1 := by
  have claims : ∀ count size, Number.count? count = some size →
      angleTable.Claims (.obj (countingScript count)) ⟨"turn", angleNames, size⟩ := by
    intro count size counted
    have indexed : angleTable.functionNames.get? "turn" = some 0 := by decide
    have known : angleTable.locals.get? "turn" = some angleNames := by decide
    exact .script ⟨rfl, .index 0, rfl, .index indexed⟩ known counted
  constructor
  · refine ((Json.restore_outcome _ angleTable).1 _).mpr (.inr ⟨⟨⟨angleTable, rfl⟩, rfl⟩, ?_⟩)
    refine ⟨⟨"turn", angleNames, 0xFFFFFFFFFFFFFFFF⟩, ⟨[_], _, [], rfl, ?_, ?_, ?_⟩, rfl⟩
    · rintro earlier member other claimed
      obtain rfl := List.mem_singleton.mp member
      cases claimed with
      | script _ _ held =>
          rw [← Option.some.inj held]
          exact Nat.zero_le _
    · exact claims _ _ rfl
    · decide
  · have outcome := (Json.restore_outcome (.arr [.obj (countingScript (.integer 1))]) angleTable).2
    exact ⟨_, rfl, outcome _ rfl 0 _ ⟨"turn", angleNames, 1⟩ rfl (claims (.integer 1) 1 rfl)⟩

/-- What has just been compacted can be restored, unless a script has more arguments than its
function has local names, be they listed or counted already. The first such script is the one
reported, and the table is never at fault. -/
theorem Json.restore_compact_eq_error_iff (options : Options) (value : Json)
    (compaction : Compaction) (compacted : value.compact options = .ok compaction) :
    (∃ table, compaction.table.invertible = .ok table) ∧
      (∀ error, compaction.value.restore compaction.table = .error error ↔
        ∃ claim, compaction.table.FirstExcess (value.scriptItems.map countedItem) claim ∧
          error = claim.error) ∧
      (∀ label fault,
        compaction.value.restore compaction.table ≠ .error (.invalidTable label fault)) ∧
      ((∃ restored, compaction.value.restore compaction.table = .ok restored) ↔
        ∀ item ∈ value.scriptItems, ∀ claim, compaction.table.Claims item.countedItem claim →
          claim.count ≤ claim.locals.size) := by
  obtain rfl := Compaction.eq_ofValue_of_compact compacted
  obtain ⟨table, accepted⟩ := SymbolTable.exists_invertible_ofScripts value.scriptItems
  rw [← Compaction.ofValue_table] at accepted
  have faults := InvertibleTable.restore_ofValue_eq_error_iff_counted accepted
  have failure : ∀ error,
      (Compaction.ofValue value).value.restore (Compaction.ofValue value).table = .error error ↔
        ∃ claim, (Compaction.ofValue value).table.FirstExcess
          (value.scriptItems.map countedItem) claim ∧ error = claim.error := by
    intro error
    rw [faults, ← (SymbolTable.invertible_eq_ok_iff _ _).mp accepted]
    exact InvertibleTable.findSome?_argumentFault?_eq_some_iff
  refine ⟨⟨table, accepted⟩, failure, ?_, ?_⟩
  · intro label fault failed
    obtain ⟨claim, -, isError⟩ := (failure _).mp failed
    cases isError
  · have within : (∀ item ∈ value.scriptItems, ∀ claim,
        (Compaction.ofValue value).table.Claims item.countedItem claim →
          claim.count ≤ claim.locals.size) ↔
        (value.scriptItems.map countedItem).findSome?
          (table.argumentFault? Fields.heldCount?) = none := by
      rw [InvertibleTable.findSome?_argumentFault?_eq_none_iff,
        (SymbolTable.invertible_eq_ok_iff _ _).mp accepted]
      simp only [List.forall_mem_map]
    rw [within, Option.eq_none_iff_forall_ne_some]
    simp only [ne_eq, ← faults]
    cases (Compaction.ofValue value).value.restore (Compaction.ofValue value).table <;> simp

def turnScript (arguments : Json) : Json.Fields :=
  [(Key.arguments, arguments), (NameKind.function.key, .str "turn"),
    (Key.kind, .str NameKind.function.key)]

def turnProgram (arguments : Json) : Json :=
  .arr [.obj (turnScript arguments)]

def repeatedArguments : Json :=
  .arr (List.replicate 2 (.obj [(NameKind.variable.key, .str "angle")]))

/-- An argument name may be given twice, an argument may have no name, and a count may stand where
no names do. -/
theorem Json.restore_compact_turnProgram :
    (∃ compaction, (turnProgram repeatedArguments).compact default = .ok compaction ∧
      compaction.value.restore compaction.table = .error (.argumentCount "turn" 2 1)) ∧
    (∃ compaction, (turnProgram (.arr [.obj []])).compact default = .ok compaction ∧
      compaction.value.restore compaction.table = .error (.argumentCount "turn" 1 0)) ∧
    (∃ compaction, (turnProgram (Json.index 1)).compact default = .ok compaction ∧
      compaction.value.restore compaction.table = .error (.argumentCount "turn" 1 0)) :=
  ⟨⟨_, rfl, rfl⟩, ⟨_, rfl, rfl⟩, ⟨_, rfl, rfl⟩⟩

/-- The error of a repeated argument name is found in the value before it is compacted. -/
theorem Json.restore_compact_eq_error_iff_repeatedArguments :
    ∃ compaction, (turnProgram repeatedArguments).compact ⟨.reject⟩ = .ok compaction ∧
      compaction.table.FirstExcess
        ((turnProgram repeatedArguments).scriptItems.map countedItem) ⟨"turn", angleNames, 2⟩ ∧
      compaction.value.restore compaction.table = .error (.argumentCount "turn" 2 1) := by
  have compacted : (turnProgram repeatedArguments).compact ⟨.reject⟩ =
      .ok (Compaction.ofValue (turnProgram repeatedArguments)) := rfl
  have excess : (Compaction.ofValue (turnProgram repeatedArguments)).table.FirstExcess
      ((turnProgram repeatedArguments).scriptItems.map countedItem) ⟨"turn", angleNames, 2⟩ := by
    have defines : (Compaction.ofValue (turnProgram repeatedArguments)).table.Defines
        (Fields.counted (turnScript repeatedArguments)) "turn" := ⟨rfl, .str "turn", rfl, .name _⟩
    exact ⟨[], _, [], rfl, nofun, .script defines (by decide) rfl, by decide⟩
  obtain ⟨-, failure, -⟩ := Json.restore_compact_eq_error_iff _ _ _ compacted
  exact ⟨_, compacted, excess, (failure _).mpr ⟨_, excess, rfl⟩⟩

end BlockNames
