import BlockNames.Proofs.Redeclaration

/-!
Restoring one item of a list of scripts. What the item says about its function is decided by the
table, whose look-ups are read backwards. An item that does not hold too many arguments gets its
declarations first, and then names in place of indices.
-/
namespace BlockNames

theorem exists_getElem?_of_forall₂ {α β : Type} {relation : α → β → Prop} {items : List α}
    {results : List β} (pointwise : List.Forall₂ relation items results) {position : Nat} {item : α}
    (listed : items[position]? = some item) :
    ∃ result, results[position]? = some result ∧ relation item result := by
  induction pointwise generalizing position with
  | nil => cases listed
  | cons here later induction =>
      cases position with
      | zero =>
          obtain rfl := Option.some.inj listed
          exact ⟨_, rfl, here⟩
      | succ position => exact induction listed

theorem Shape.ofFields_replace_arguments (script : Json.Fields) (arguments : Json) :
    Shape.ofFields (script.replace Key.arguments arguments) = Shape.ofFields script := by
  unfold Shape.ofFields
  rw [Json.Fields.string?_replace_of_ne script arguments (by decide),
    Json.Fields.lookup_replace_of_ne script arguments (by decide)]

namespace SymbolTable

/-- A value means a function by its name, or by the index that the table has for the name. -/
inductive Means (table : SymbolTable) : Json → String → Prop
  | name (function : String) : table.Means (.str function) function
  | index {index : Int} {function : String}
      (found : table.functionNames.get? function = some index) :
      table.Means (Json.index index) function

structure Defines (table : SymbolTable) (script : Json.Fields) (function : String) : Prop where
  kind : ScriptKind.ofFields script = .declaration .function
  target : ∃ value, script.lookup NameKind.function.key = some value ∧ table.Means value function

/-- The item is a script for a function with local names in the table, and it holds a number of
arguments. -/
inductive Claims (table : SymbolTable) : Json → ArgumentClaim → Prop
  | script {script : Json.Fields} {claim : ArgumentClaim}
      (defines : table.Defines script claim.function)
      (known : table.locals.get? claim.function = some claim.locals)
      (held : script.heldCount? = some claim.count) : table.Claims (.obj script) claim

theorem Claims.held {table : SymbolTable} {script : Json.Fields} {claim : ArgumentClaim}
    (claims : table.Claims (.obj script) claim) : script.heldCount? = some claim.count := by
  cases claims with
  | script _ _ held => exact held

end SymbolTable

namespace InvertibleTable

variable {table : InvertibleTable}

theorem functionOf?_eq_some_iff {value : Json} {function : String} :
    table.functionOf? value = some function ↔ table.Means value function := by
  have readBack : ∀ index, table.functionName? index = some function ↔
      table.functionNames.get? function = some index :=
    fun _ => (table.namesFaultless.globalNames .function).nameOf?_eq_some_iff
  constructor
  · intro meant
    rw [functionOf?_eq, Option.or_eq_some_iff] at meant
    rcases meant with named | ⟨-, indexed⟩
    · rw [Json.str?_eq_some_iff.mp named]
      exact .name function
    · obtain ⟨index, read, found⟩ := Option.bind_eq_some_iff.mp indexed
      rw [Json.index?_eq_some_iff.mp read]
      exact .index ((readBack index).mp found)
  · rintro (_ | found)
    · rfl
    · exact (readBack _).mpr found

theorem definedFunction?_eq_some_iff_defines {script : Json.Fields} {function : String} :
    table.definedFunction? script = some function ↔ table.Defines script function := by
  constructor
  · intro defined
    have kind := kind_of_definedFunction? defined
    simp only [definedFunction?, kind] at defined
    obtain ⟨value, held, meant⟩ := Option.bind_eq_some_iff.mp defined
    exact ⟨kind, value, held, functionOf?_eq_some_iff.mp meant⟩
  · rintro ⟨kind, value, held, meant⟩
    simp only [definedFunction?, kind, held, Option.bind_some]
    exact functionOf?_eq_some_iff.mpr meant

theorem argumentClaim?_eq_some_iff_claims {script : Json.Fields} {claim : ArgumentClaim} :
    table.argumentClaim? script script.heldCount? = some claim ↔
      table.Claims (.obj script) claim := by
  rw [argumentClaim?_eq_some_iff, definedFunction?_eq_some_iff_defines]
  constructor
  · rintro ⟨defines, known, held⟩
    exact .script defines known held
  · rintro ⟨defines, known, held⟩
    exact ⟨defines, known, held⟩

theorem claims_unique {item : Json} {claim other : ArgumentClaim} (claims : table.Claims item claim)
    (otherClaims : table.Claims item other) : claim = other := by
  cases item with
  | null | bool | num | str | arr => cases claims
  | obj script =>
      have found := argumentClaim?_eq_some_iff_claims.mpr claims
      rw [argumentClaim?_eq_some_iff_claims.mpr otherClaims] at found
      exact (Option.some.inj found).symm

def itemLocals? (table : InvertibleTable) : Json → Option Namespace
  | .obj script => table.scriptLocals? script
  | _ => none

/-- An item with declarations in place of the number of arguments that it holds. -/
def expandedItem (table : InvertibleTable) : Json → Json
  | .obj script =>
      match table.argumentClaim? script (Json.Fields.heldCount? script) with
      | none => .obj script
      | some claim => .obj (Json.Fields.replace script Key.arguments (.arr claim.declarations))
  | item => item

theorem expandedItem_of_unclaimed {item : Json} (unclaimed : ∀ claim, ¬table.Claims item claim) :
    table.expandedItem item = item := by
  cases item with
  | null | bool | num | str | arr => rfl
  | obj script =>
      have none : table.argumentClaim? script (Json.Fields.heldCount? script) = none :=
        Option.eq_none_iff_forall_ne_some.mpr fun claim claimed =>
          unclaimed claim (argumentClaim?_eq_some_iff_claims.mp claimed)
      simp only [expandedItem, none]

theorem expandedItem_of_claimed {script : Json.Fields} {claim : ArgumentClaim}
    (claimed : table.Claims (.obj script) claim) :
    table.expandedItem (.obj script) =
      .obj (script.replace Key.arguments (.arr claim.declarations)) := by
  simp only [expandedItem, argumentClaim?_eq_some_iff_claims.mpr claimed]

theorem restoreScript_eq_ok_iff {item result : Json} :
    table.restoreScript item = .ok result ↔
      table.argumentFault? Json.Fields.heldCount? item = none ∧
        (table.expandedItem item).rewrite (table.restored (table.itemLocals? item)) .value =
          result := by
  cases item with
  | null | bool | num | str | arr =>
      simp [restoreScript, argumentFault?, Json.fields?, expandedItem, itemLocals?]
  | obj script =>
      simp only [restoreScript, argumentFault?, Json.fields?, Option.bind_some, expandedItem,
        itemLocals?]
      cases claimed : table.argumentClaim? script (Json.Fields.heldCount? script) with
      | none =>
          rw [restoreScriptArguments_of_unclaimed claimed]
          simp [bind, Except.bind, pure, Except.pure]
      | some claim =>
          rw [restoreScriptArguments_of_claimed claimed, Option.bind_some]
          cases claim.fault? <;> simp [bind, Except.bind, pure, Except.pure]

theorem lookup_arguments_of_claims {script : Json.Fields} {claim : ArgumentClaim} {result : Json}
    (claimed : table.Claims (.obj script) claim)
    (restores : table.restoreScript (.obj script) = .ok result) :
    ∃ restored, result = .obj restored ∧
      restored.lookup Key.arguments = some (.arr claim.declarations) := by
  obtain ⟨-, rfl⟩ := restoreScript_eq_ok_iff.mp restores
  rw [expandedItem_of_claimed claimed]
  refine ⟨_, rfl, ?_⟩
  obtain ⟨⟨kind, -⟩, -, held⟩ := claimed
  obtain ⟨arguments, stored, -⟩ := Option.bind_eq_some_iff.mp held
  have block : Shape.ofFields script = .block :=
    Shape.ofFields_of_hasLocals (by rw [kind]; rfl)
  rw [Role.shape, Shape.ofFields_replace_arguments, block, Json.lookup_rewriteFields,
    Shape.site?_arguments, Json.Fields.lookup_replace_self, stored, Option.map_some,
    Option.map_some]
  exact congrArg some (table.rewrite_restored_declarations _ claim)

theorem restoreScripts_arr_eq_ok_iff {items : List Json} {restored : Json} :
    table.restoreScripts (.arr items) = .ok restored ↔
      ∃ results, List.Forall₂ (fun item result => table.restoreScript item = .ok result)
        items results ∧ .arr results = restored := by
  simp only [restoreScripts, ← Except.mapM_eq_ok_iff]
  cases items.mapM table.restoreScript <;> simp [bind, Except.bind, pure, Except.pure]

theorem restore_eq_ok_iff {value restored : Json} :
    table.restore value = .ok restored ↔
      (value.scripts? = none ∧ value = restored) ∨
      ∃ scripts results, value.scripts? = some scripts ∧
        table.restoreScripts scripts = .ok results ∧ value.withScripts results = restored := by
  cases value with
  | null | bool | num | str => simp [restore, Json.scripts?]
  | arr items => simp [restore, Json.scripts?, Json.withScripts]
  | obj program =>
      simp only [restore, Json.scripts?, Json.withScripts]
      cases program.lookup Key.scripts with
      | none => simp
      | some scripts =>
          cases restored : table.restoreScripts scripts <;>
            simp [restored, bind, Except.bind, pure, Except.pure]

private theorem forall₂_items_of_restoreScripts {scripts results : Json}
    (decoded : table.restoreScripts scripts = .ok results) :
    List.Forall₂ (fun item result => table.restoreScript item = .ok result)
      (scripts.items?.getD []) (results.items?.getD []) := by
  cases scripts with
  | null | bool | num | str | obj =>
      obtain rfl := Except.ok.inj decoded
      exact .nil
  | arr items =>
      obtain ⟨restored, pointwise, rfl⟩ := restoreScripts_arr_eq_ok_iff.mp decoded
      exact pointwise

theorem forall₂_scriptItems_of_restore {value restored : Json}
    (restores : table.restore value = .ok restored) :
    List.Forall₂ (fun item result => table.restoreScript item = .ok result) value.scriptItems
      restored.scriptItems := by
  rcases restore_eq_ok_iff.mp restores with ⟨absent, rfl⟩ | ⟨scripts, results, held, decoded, rfl⟩
  · rw [Json.scriptItems, absent]
    exact .nil
  have pointwise := forall₂_items_of_restoreScripts decoded
  cases value with
  | null | bool | num | str => cases held
  | arr items =>
      obtain rfl := Option.some.inj held
      obtain ⟨results, -, rfl⟩ := restoreScripts_arr_eq_ok_iff.mp decoded
      exact pointwise
  | obj program =>
      have held : program.lookup Key.scripts = some scripts := held
      simp only [Json.scriptItems, Json.scripts?, Json.withScripts,
        Json.Fields.lookup_replace_self, held]
      exact pointwise

end InvertibleTable

theorem SymbolTable.exists_invertible_of_restore {table : SymbolTable} {value restored : Json}
    (restores : value.restore table = .ok restored) :
    ∃ inverse, table.invertible = .ok inverse := by
  cases accepted : table.invertible with
  | ok inverse => exact ⟨inverse, rfl⟩
  | error fault =>
      unfold Json.restore at restores
      rw [accepted] at restores
      cases restores

end BlockNames
