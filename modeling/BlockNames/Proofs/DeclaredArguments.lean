import BlockNames.Proofs.DeclaredTable
import BlockNames.Proofs.Overcount

/-!
Arguments of declared functions. Where the scripts of a table declare a function, each place among
its arguments has a local name, so that none is made up. Main statement: a number of arguments comes
back as the first names that the scripts declare for the function.
-/
namespace BlockNames

private theorem Namespace.NumberedBy.get?_argumentName {names : Namespace} {order : List String}
    (numbered : names.NumberedBy .descending order) {position : Nat} (positive : 1 ≤ position)
    (inside : position ≤ names.size) :
    names.get? (names.argumentName position) = some (-(position : Int)) := by
  obtain ⟨place, rfl⟩ := Nat.exists_eq_add_of_le' positive
  rw [numbered.size_eq] at inside
  have index : (-((place + 1 : Nat) : Int)) = Numbering.descending.index place := by
    simp only [Numbering.index]
    omega
  have named : names.nameOf? (-((place + 1 : Nat) : Int)) = some order[place] := by
    rw [index, numbered.nameOf?_index, List.getElem?_eq_getElem]
  rw [argumentName, named, Option.getD_some]
  exact numbered.faultless.nameOf?_eq_some_iff.mp named

/-- The local names of a function stand in the order of their declaration, and each number of
arguments for which they are enough comes back as the first of them. A restoration fails only for
the sake of another item that holds too many. -/
structure SymbolTable.DeclaresArguments (table : SymbolTable) (function : String)
    (locals : Namespace) (names : List String) : Prop where
  known : table.locals.get? function = some locals
  size : locals.size = names.length
  named : ∀ {position : Nat}, 1 ≤ position → position ≤ locals.size →
    locals.get? (locals.argumentName position) = some (-(position : Int))
  restorable : ∀ {value : Json} {script : Json.Fields} {count : Nat},
    table.Defines script function → script.heldCount? = some count → count ≤ locals.size →
      .obj script ∈ value.scriptItems →
        ((∃ restored, value.restore table = .ok restored) ↔
          ∀ item ∈ value.scriptItems, item ≠ .obj script →
            ∀ claim, table.Claims item claim → claim.count ≤ claim.locals.size)
  restores : ∀ {value restored : Json} {position : Nat} {script : Json.Fields} {count : Nat},
    table.Defines script function → script.heldCount? = some count →
      value.scriptItems[position]? = some (.obj script) → value.restore table = .ok restored →
        ∃ result, restored.scriptItems[position]? = some (.obj result) ∧
          result.lookup Key.arguments =
            some (.arr ((names.take count).map Json.argumentDeclaration))

namespace InvertibleTable

variable {table : InvertibleTable}

theorem declaresArguments {function : String} {locals : Namespace} {names : List String}
    (known : table.locals.get? function = some locals)
    (numbered : locals.NumberedBy .descending names) :
    table.DeclaresArguments function locals names where
  known := known
  size := numbered.size_eq
  named := numbered.get?_argumentName
  restorable := by
    intro value script count defines held within member
    rw [SymbolTable.restore_eq ((SymbolTable.invertible_eq_ok_iff _ table).mpr rfl),
      exists_restore_iff]
    constructor
    · exact fun sound item listed _ => sound item listed
    · intro sound item listed claim claims
      by_cases same : item = .obj script
      · subst same
        have claimed : table.Claims (.obj script) ⟨function, locals, count⟩ :=
          .script defines known held
        rw [claims_unique claims claimed]
        exact within
      · exact sound item listed same claim claims
  restores := by
    intro value restored position script count defines held listed restores
    rw [SymbolTable.restore_eq ((SymbolTable.invertible_eq_ok_iff _ table).mpr rfl)] at restores
    have claims : table.Claims (.obj script) ⟨function, locals, count⟩ :=
      .script defines known held
    obtain ⟨result, stays, declared, within⟩ :=
      exists_declarations_of_restore restores listed claims
    refine ⟨result, stays, ?_⟩
    rw [declared, ArgumentClaim.declarations_eq_take _ numbered
      ((ArgumentClaim.fault?_eq_none_iff _).mpr within)]

end InvertibleTable

/-- The table of a list of scripts can be read backwards. Any number of arguments of a function, as
far as its local names go, comes back as the first names that the scripts declare for it, arguments
before locals in each script and each name once. -/
theorem SymbolTable.declaresArguments_ofScripts (scripts : List Json) :
    (∃ inverse, (ofScripts scripts).invertible = .ok inverse) ∧
      ∀ function index, (ofScripts scripts).functionNames.get? function = some index →
        ∃ locals, (ofScripts scripts).DeclaresArguments function locals
          (Scope.functionDeclarations function (scripts.filterMap Json.fields?)).eraseDups := by
  obtain ⟨inverse, accepted⟩ := exists_invertible_ofScripts scripts
  refine ⟨⟨inverse, accepted⟩, fun function index indexed => ?_⟩
  have enumerates := enumerates_ofScripts scripts
  have isFunction : ((ofScripts scripts).functionNames.get? function).isSome := by
    rw [indexed]
    rfl
  obtain ⟨locals, known⟩ :=
    Option.isSome_iff_exists.mp ((enumerates.functions function).mpr isFunction)
  have numbered := enumerates.functionLocals known
  have tableOf := (invertible_eq_ok_iff _ _).mp accepted
  rw [← tableOf] at known ⊢
  exact ⟨locals, InvertibleTable.declaresArguments known numbered⟩

/-- The function `turn` is declared twice, with `angle` both times. -/
def twiceDeclared : List Json :=
  [.obj [(Key.arguments, .arr (["angle", "speed"].map Json.argumentDeclaration)),
      (NameKind.function.key, .str "turn"), (Key.kind, .str NameKind.function.key)],
    .obj [(Key.arguments, .arr (["angle"].map Json.argumentDeclaration)),
      (NameKind.function.key, .str "turn"),
      (Key.locals, .arr (["steps"].map Json.argumentDeclaration)),
      (Key.kind, .str NameKind.function.key)]]

theorem SymbolTable.declaresArguments_twiceDeclared :
    ∃ (restored : Json) (result : Json.Fields),
      (Json.arr [.obj (countingScript (.integer 3))]).restore (ofScripts twiceDeclared) =
        .ok restored ∧
      restored.scriptItems[0]? = some (.obj result) ∧
      result.lookup Key.arguments =
        some (.arr (["angle", "speed", "steps"].map Json.argumentDeclaration)) := by
  have indexed : (ofScripts twiceDeclared).functionNames.get? "turn" = some 0 := by decide
  obtain ⟨-, declared⟩ := declaresArguments_ofScripts twiceDeclared
  obtain ⟨locals, declares⟩ := declared "turn" 0 indexed
  have defines : (ofScripts twiceDeclared).Defines (countingScript (.integer 3)) "turn" :=
    ⟨rfl, .index 0, rfl, .index indexed⟩
  have within : 3 ≤ locals.size := by
    rw [declares.size]
    decide
  have listed : (Json.arr [.obj (countingScript (.integer 3))]).scriptItems[0]? =
      some (.obj (countingScript (.integer 3))) := rfl
  obtain ⟨restored, restores⟩ := (declares.restorable defines rfl within
    (List.mem_of_getElem? listed)).mpr
      fun item member other => absurd (List.mem_singleton.mp member) other
  obtain ⟨result, stays, declared⟩ := declares.restores defines rfl listed restores
  exact ⟨restored, result, restores, stays, declared⟩

end BlockNames
