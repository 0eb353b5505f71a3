import Mathlib.Data.List.Nodup
import BlockNames.Proofs.Overcount
import BlockNames.Proofs.Slot

/-!
The names of restored arguments. An argument whose index has no local name is named after its
position, whatever names the others have. Main statement: two arguments have the same name only if
the name that is made up for one is the local name of the other.
-/
namespace BlockNames

def positionalName (position : Nat) : String :=
  "arg" ++ toString position

theorem positionalName_injective : Function.Injective positionalName := by
  intro first second same
  have characters := congrArg String.toList same
  simp only [positionalName, String.toList_append] at characters
  have digits := congrArg (Nat.ofDigitChars 10 · 0) (List.append_cancel_left characters)
  simpa [Nat.toString_eq_ofList_toDigits] using digits

namespace Namespace

/-- The argument in this place, counted from one, has the name of its index, which is its place
with the sign changed, or a name that is made up since its index has none. -/
inductive NamesArgument (locals : Namespace) (position : Nat) : String → Prop
  | index {name : String} (found : locals.get? name = some (-(position : Int))) :
      locals.NamesArgument position name
  | position {name : String} (nameless : ∀ other, locals.get? other ≠ some (-(position : Int)))
      (madeUp : name = positionalName position) : locals.NamesArgument position name

/-- Among the first arguments, the name that is made up for one is the local name of another. -/
def Clashes (locals : Namespace) (count : Nat) : Prop :=
  ∃ gap position : Nat, 1 ≤ gap ∧ gap ≤ count ∧ 1 ≤ position ∧ position ≤ count ∧
    (∀ name, locals.get? name ≠ some (-(gap : Int))) ∧
    locals.get? (positionalName gap) = some (-(position : Int))

def argumentNames (locals : Namespace) (count : Nat) : List String :=
  (List.range' 1 count).map locals.argumentName

private theorem argumentDeclarations_eq_map (locals : Namespace) (count : Nat) :
    locals.argumentDeclarations count =
      (locals.argumentNames count).map Json.argumentDeclaration := by
  rw [argumentNames, List.map_map]
  rfl

variable {locals : Namespace}

theorem Faultless.argumentName_eq_iff (faultless : locals.Faultless .descending) {position : Nat}
    {name : String} :
    locals.argumentName position = name ↔ locals.NamesArgument position name := by
  unfold argumentName
  cases named : locals.nameOf? (-(position : Int)) with
  | some stored =>
      have found := faultless.nameOf?_eq_some_iff.mp named
      rw [Option.getD_some]
      constructor
      · rintro rfl
        exact .index found
      · rintro (other | nameless)
        · exact faultless.injective found other
        · exact absurd found (nameless stored)
  | none =>
      have nameless : ∀ name, locals.get? name ≠ some (-(position : Int)) := fun name found =>
        Option.eq_none_iff_forall_ne_some.mp named name (faultless.nameOf?_eq_some_iff.mpr found)
      rw [Option.getD_none]
      constructor
      · exact fun madeUp => .position nameless madeUp.symm
      · rintro (found | ⟨-, rfl⟩)
        · exact absurd found (nameless name)
        · rfl

private theorem NamesArgument.position_unique {count first second : Nat} {name : String}
    (unclashing : ¬locals.Clashes count) (firstInside : 1 ≤ first ∧ first ≤ count)
    (secondInside : 1 ≤ second ∧ second ≤ count) (namesFirst : locals.NamesArgument first name)
    (namesSecond : locals.NamesArgument second name) : first = second := by
  cases namesFirst with
  | index found =>
      cases namesSecond with
      | index other =>
          have same := Option.some.inj (found.symm.trans other)
          exact Int.ofNat.inj (Int.neg_inj.mp same)
      | position nameless madeUp =>
          exact absurd ⟨second, first, secondInside.1, secondInside.2, firstInside.1,
            firstInside.2, nameless, madeUp ▸ found⟩ unclashing
  | position nameless madeUp =>
      cases namesSecond with
      | index found =>
          exact absurd ⟨first, second, firstInside.1, firstInside.2, secondInside.1,
            secondInside.2, nameless, madeUp ▸ found⟩ unclashing
      | position _ otherMadeUp => exact positionalName_injective (madeUp.symm.trans otherMadeUp)

section Faultless

variable (faultless : locals.Faultless .descending)

include faultless

private theorem namesArgument_of_getElem? {count index : Nat} {name : String}
    (listed : (locals.argumentNames count)[index]? = some name) :
    locals.NamesArgument (index + 1) name := by
  obtain ⟨inside, rfl⟩ := List.getElem?_eq_some_iff.mp listed
  apply faultless.argumentName_eq_iff.mp
  simp only [argumentNames, List.getElem_map, List.getElem_range', Nat.one_mul, Nat.add_comm]

theorem nodup_argumentNames_iff (count : Nat) :
    (locals.argumentNames count).Nodup ↔ ¬locals.Clashes count := by
  have inside : ∀ position, position ∈ List.range' 1 count ↔ 1 ≤ position ∧ position ≤ count := by
    intro position
    rw [List.mem_range'_1]
    omega
  rw [argumentNames, List.nodup_map_iff_inj_on List.nodup_range']
  constructor
  · rintro injective ⟨gap, position, gapFrom, gapTo, positionFrom, positionTo, nameless, found⟩
    have madeUp := faultless.argumentName_eq_iff.mpr (.position nameless rfl)
    have held := faultless.argumentName_eq_iff.mpr (.index found)
    obtain rfl := injective gap ((inside gap).mpr ⟨gapFrom, gapTo⟩) position
      ((inside position).mpr ⟨positionFrom, positionTo⟩) (madeUp.trans held.symm)
    exact nameless _ found
  · intro unclashing first firstMember second secondMember same
    exact NamesArgument.position_unique unclashing ((inside first).mp firstMember)
      ((inside second).mp secondMember) (faultless.argumentName_eq_iff.mp same)
      (faultless.argumentName_eq_iff.mp rfl)

end Faultless

end Namespace

/-- The arguments that are declared in place of a number have the names of their indices, or names
that are made up where there are none. They are all different exactly if no name that is made up for
one of them is the local name of another. -/
theorem Json.restore_argumentNames (value : Json) (table : SymbolTable) (restored : Json)
    (restores : value.restore table = .ok restored) (position : Nat) (item : Json)
    (claim : ArgumentClaim) (listed : value.scriptItems[position]? = some item)
    (claims : table.Claims item claim) :
    ∃ (script : Json.Fields) (names : List String),
      restored.scriptItems[position]? = some (.obj script) ∧
      script.lookup Key.arguments = some (.arr (names.map Json.argumentDeclaration)) ∧
      names.length = claim.count ∧
      (∀ index name, names[index]? = some name → claim.locals.NamesArgument (index + 1) name) ∧
      (names.Nodup ↔ ¬claim.locals.Clashes claim.count) := by
  obtain ⟨inverse, accepted⟩ := SymbolTable.exists_invertible_of_restore restores
  rw [SymbolTable.restore_eq accepted] at restores
  obtain rfl := (SymbolTable.invertible_eq_ok_iff _ _).mp accepted
  obtain ⟨script, stays, declared, -⟩ :=
    InvertibleTable.exists_declarations_of_restore restores listed claims
  have faultless : claim.locals.Faultless .descending := by
    cases claims with
    | script _ known _ =>
        have known : inverse.localNames? (.function claim.function) = some claim.locals := known
        exact inverse.namesFaultless.localNames known
  rw [ArgumentClaim.declarations, Namespace.argumentDeclarations_eq_map] at declared
  refine ⟨script, _, stays, declared, ?_, ?_, Namespace.nodup_argumentNames_iff faultless _⟩
  · rw [Namespace.argumentNames, List.length_map, List.length_range']
  · exact fun _ _ => Namespace.namesArgument_of_getElem? faultless

theorem Json.restore_argumentNames_tableWithGap :
    ∃ restored, (Json.arr [.obj (countingScript (.integer 3))]).restore SymbolTable.tableWithGap =
        .ok restored ∧
      ∃ (script : Json.Fields) (names : List String),
        restored.scriptItems[0]? = some (.obj script) ∧
        script.lookup Key.arguments = some (.arr (names.map Json.argumentDeclaration)) ∧
        names.length = 3 ∧ names.Nodup := by
  let locals : Namespace := OrderedMap.ofList [("angle", -1), ("speed", -3), ("steps", -4)]
  have indexed : SymbolTable.tableWithGap.functionNames.get? "turn" = some 0 := by decide
  have known : SymbolTable.tableWithGap.locals.get? "turn" = some locals := by decide
  have claims : SymbolTable.tableWithGap.Claims (.obj (countingScript (.integer 3)))
      ⟨"turn", locals, 3⟩ := .script ⟨rfl, .index 0, rfl, .index indexed⟩ known rfl
  have unclashing : ¬locals.Clashes 3 := by
    rintro ⟨gap, position, -, inside, -, -, -, found⟩
    have absent : ∀ gap ≤ 3, locals.get? (positionalName gap) = none := by decide
    cases (absent gap inside).symm.trans found
  obtain ⟨script, names, listed, declared, length, -, distinct⟩ :=
    Json.restore_argumentNames (.arr [.obj (countingScript (.integer 3))])
      SymbolTable.tableWithGap _ rfl 0 _ _ rfl claims
  exact ⟨_, rfl, script, names, listed, declared, length, distinct.mpr unclashing⟩

/-- The second argument of `turn` has the name that is made up for the first. -/
def clashingTable : SymbolTable where
  functionNames := OrderedMap.ofList [("turn", 0)]
  locals := OrderedMap.ofList [("turn", OrderedMap.ofList [("angle", -3), ("arg1", -2)])]

theorem Json.restore_clashingTable :
    ∃ (restored : Json) (script : Json.Fields),
      (Json.arr [.obj (countingScript (.integer 2))]).restore clashingTable = .ok restored ∧
      restored.scriptItems[0]? = some (.obj script) ∧
      script.lookup Key.arguments =
        some (.arr (["arg1", "arg1"].map Json.argumentDeclaration)) ∧
      ¬["arg1", "arg1"].Nodup :=
  ⟨_, _, rfl, rfl, rfl, by decide⟩

end BlockNames
