import BlockNames.Proofs.Inversion
import BlockNames.Proofs.DeclaredTable

/-!
The namespaces of a table as one family. A declaration changes the namespace of its slot and no
other. The number of names gives a new name its index. In a namespace with gaps another name may
hold that index already, and then the table cannot be read backwards any more.
-/
namespace BlockNames

/-- Where a table holds a namespace. -/
inductive Slot
  | globalNames (kind : NameKind)
  | localNames (scope : Scope)
deriving DecidableEq

def Slot.numbering : Slot → Numbering
  | .globalNames _ => .ascending
  | .localNames _ => .descending

namespace SymbolTable

/-- The names in a slot. A scope that the table does not know has none. -/
def namesIn (table : SymbolTable) : Slot → Namespace
  | .globalNames kind => table.globalNames kind
  | .localNames scope => table.localNames scope

def declareIn (table : SymbolTable) (slot : Slot) (name : String) : SymbolTable :=
  match slot with
  | .globalNames kind => table.declareGlobal kind name
  | .localNames scope => table.declareLocals scope [name]

@[simp] theorem namesIn_empty (slot : Slot) : (∅ : SymbolTable).namesIn slot = ∅ := by
  cases slot with
  | globalNames kind => cases kind <;> rfl
  | localNames scope => cases scope <;> rfl

theorem namesIn_declareIn (table : SymbolTable) (slot probe : Slot) (name : String) :
    (table.declareIn slot name).namesIn probe =
      if probe = slot then (table.namesIn slot).declare slot.numbering name
      else table.namesIn probe := by
  cases slot with
  | globalNames kind =>
      cases probe with
      | globalNames other => simp [declareIn, namesIn, Slot.numbering]
      | localNames scope => simp [declareIn, namesIn]
  | localNames scope =>
      cases probe with
      | globalNames kind => simp [declareIn, namesIn]
      | localNames other =>
          simp only [declareIn, namesIn, localNames, localNames?_declareLocals,
            Slot.localNames.injEq]
          split <;> rfl

theorem localNames_induction {motive : Namespace → Prop} (table : SymbolTable) (scope : Scope)
    (unknown : motive ∅)
    (known : ∀ names, table.localNames? scope = some names → motive names) :
    motive (table.localNames scope) := by
  unfold localNames
  cases found : table.localNames? scope with
  | none => exact unknown
  | some names => exact known names found

theorem faultless_iff_namesIn (table : SymbolTable) :
    table.Faultless ↔ ∀ slot, (table.namesIn slot).Faultless slot.numbering := by
  constructor
  · rintro ⟨globalNames, localNames⟩ slot
    cases slot with
    | globalNames kind => exact globalNames kind
    | localNames scope =>
        exact table.localNames_induction scope (Namespace.numberedBy_nil .descending).faultless
          fun names known => localNames known
  · intro faultless
    refine ⟨fun kind => faultless (.globalNames kind), fun {scope names} known => ?_⟩
    have held := faultless (.localNames scope)
    rwa [namesIn, SymbolTable.localNames, known] at held

theorem exists_invertible_iff (table : SymbolTable) :
    (∃ inverse, table.invertible = .ok inverse) ↔
      ∀ slot, (table.namesIn slot).Faultless slot.numbering := by
  rw [← faultless_iff_namesIn, ← fault?_eq_none_iff]
  simp only [invertible_eq_ok_iff]
  constructor
  · rintro ⟨inverse, rfl⟩
    exact inverse.faultless
  · intro faultless
    exact ⟨⟨table, faultless⟩, rfl⟩

end SymbolTable

namespace Namespace

private theorem Faultless.admits_declaredIndex {numbering : Numbering} {names : Namespace}
    (faultless : names.Faultless numbering) (name : String) :
    numbering.admits (names.declaredIndex numbering name) = true := by
  cases found : names.get? name with
  | none =>
      rw [declaredIndex_of_eq_none found]
      exact numbering.admits_index _
  | some index =>
      rw [declaredIndex_of_eq_some found]
      exact faultless.admits found

theorem Faultless.declare_iff {numbering : Numbering} {names : Namespace}
    (faultless : names.Faultless numbering) (name : String) :
    (names.declare numbering name).Faultless numbering ↔
      (names.get? name).isSome ∨
        ∀ other, names.get? other ≠ some (numbering.index names.size) := by
  constructor
  · intro declared
    cases found : names.get? name with
    | some index => exact .inl rfl
    | none =>
        refine .inr fun other held => ?_
        have different : other ≠ name := by
          rintro rfl
          rw [found] at held
          cases held
        apply different
        apply declared.injective (get?_declare_of_eq_some held name)
        rw [get?_declare, if_pos rfl, declaredIndex_of_eq_none found]
  · intro free
    have unshared : ∀ other,
        names.get? other = some (names.declaredIndex numbering name) → other = name := by
      intro other held
      cases found : names.get? name with
      | some index =>
          rw [declaredIndex_of_eq_some found] at held
          exact faultless.injective held found
      | none =>
          rw [declaredIndex_of_eq_none found] at held
          rw [found] at free
          exact absurd held (free.resolve_left Bool.false_ne_true other)
    refine ⟨fun {probe index} numbered => ?_, eq_of_get?_declare faultless.injective unshared⟩
    rw [get?_declare] at numbered
    split at numbered
    next =>
      rw [← Option.some.inj numbered]
      exact faultless.admits_declaredIndex name
    next => exact faultless.admits numbered

end Namespace

namespace SymbolTable

/-- In a table that can be read backwards, a declared name has an index of its numbering. The table
can still be read backwards unless the name is new and another name has the next index already. -/
theorem invertible_declareIn_iff (table : InvertibleTable) (slot : Slot) (name : String) :
    slot.numbering.admits ((table.namesIn slot).declaredIndex slot.numbering name) = true ∧
      ((∃ declared, (table.declareIn slot name).invertible = .ok declared) ↔
        ((table.namesIn slot).get? name).isSome ∨
          ∀ other, (table.namesIn slot).get? other ≠
            some (slot.numbering.index (table.namesIn slot).size)) := by
  have faultless : ∀ probe, (table.namesIn probe).Faultless probe.numbering :=
    (exists_invertible_iff _).mp ⟨table, (invertible_eq_ok_iff _ _).mpr rfl⟩
  refine ⟨(faultless slot).admits_declaredIndex name, ?_⟩
  rw [exists_invertible_iff, ← (faultless slot).declare_iff name]
  constructor
  · intro declared
    have here := declared slot
    rwa [namesIn_declareIn, if_pos rfl] at here
  · intro declared probe
    rw [namesIn_declareIn]
    split
    next same => exact same ▸ declared
    next => exact faultless probe

/-- The function `turn` with a gap between its local names. -/
def tableWithGap : SymbolTable where
  locals := OrderedMap.ofList
    [("turn", OrderedMap.ofList [("angle", -1), ("speed", -3), ("steps", -4)])]
  functionNames := OrderedMap.ofList [("turn", 0)]

/-- A fourth local name takes the index of `steps`. -/
theorem invertible_declareIn_tableWithGap :
    let slot := Slot.localNames (.function "turn")
    let declared := tableWithGap.declareIn slot "extra"
    (∃ inverse, tableWithGap.invertible = .ok inverse) ∧
      (tableWithGap.namesIn slot).get? "extra" = none ∧
      (declared.namesIn slot).get? "extra" = some (-4) ∧
      (declared.namesIn slot).get? "steps" = some (-4) ∧
      declared.invertible =
        .error (.invalidTable "locals.turn" (.numbering (.sharedIndex (-4) "extra" "steps"))) := by
  refine ⟨⟨⟨tableWithGap, by decide⟩, (invertible_eq_ok_iff _ _).mpr rfl⟩,
    by decide, by decide, by decide, ?_⟩
  rfl

end SymbolTable

end BlockNames
