import BlockNames.Proofs.Compaction
import BlockNames.Proofs.Declaration
import BlockNames.Proofs.Inversion

/-!
Arguments are counted when names are replaced and declared again when they are restored. Main
statement: a resolved script comes back with its names and with declarations in place of the count,
or not at all if it counts more arguments than its function has local names.
-/
namespace BlockNames

/-- The number that a script holds in place of its arguments. -/
def Json.Fields.heldCount? (script : Json.Fields) : Option Nat :=
  (script.lookup Key.arguments).bind Json.count?

theorem Json.heldCount?_rewriteFields (change : Site → Json → Json) (shape : Shape)
    (script : Json.Fields) :
    Json.Fields.heldCount? (Json.rewriteFields change shape script) = script.heldCount? :=
  Json.count?_arguments_rewriteFields change shape script

/-- The number of arguments that a script lists, or else holds. -/
def Json.Fields.argumentCount? (script : Json.Fields) : Option Nat :=
  (script.lookup Key.arguments).bind fun arguments =>
    (arguments.items?.map List.length).or arguments.count?

/-- A number of arguments for a function, and the local names that they may take. -/
structure ArgumentClaim where
  function : String
  locals : Namespace
  count : Nat

def ArgumentClaim.fault? (claim : ArgumentClaim) : Option CompactionError :=
  if claim.count ≤ claim.locals.size then none
  else some (.argumentCount claim.function claim.count claim.locals.size)

theorem ArgumentClaim.fault?_eq_none_iff (claim : ArgumentClaim) :
    claim.fault? = none ↔ claim.count ≤ claim.locals.size := by
  unfold fault?
  split <;> simp_all

def ArgumentClaim.declarations (claim : ArgumentClaim) : List Json :=
  claim.locals.argumentDeclarations claim.count

namespace InvertibleTable

/-- What a number of arguments means for a script, if its function has local names in the table. -/
def argumentClaim? (table : InvertibleTable) (script : Json.Fields) (count? : Option Nat) :
    Option ArgumentClaim :=
  (table.definedFunction? script).bind fun function =>
    (table.localNames? (.function function)).bind fun locals =>
      count?.map fun count => ⟨function, locals, count⟩

theorem restoreScriptArguments_of_unclaimed {table : InvertibleTable} {script : Json.Fields}
    (unclaimed : table.argumentClaim? script script.heldCount? = none) :
    table.restoreScriptArguments script = .ok script := by
  unfold argumentClaim? Json.Fields.heldCount? at unclaimed
  unfold restoreScriptArguments
  cases defined : table.definedFunction? script with
  | none => rfl
  | some function =>
      rw [defined, Option.bind_some] at unclaimed
      cases known : table.localNames? (.function function) with
      | none => simp only [known]
      | some locals =>
          rw [known, Option.bind_some, Option.map_eq_none_iff] at unclaimed
          simp only [known, Namespace.restoreArguments, unclaimed]

theorem restoreScriptArguments_of_claimed {table : InvertibleTable} {script : Json.Fields}
    {claim : ArgumentClaim} (claimed : table.argumentClaim? script script.heldCount? = some claim) :
    table.restoreScriptArguments script =
      match claim.fault? with
      | none => .ok (script.replace Key.arguments (.arr claim.declarations))
      | some fault => .error fault := by
  unfold argumentClaim? at claimed
  obtain ⟨function, defined, claimed⟩ := Option.bind_eq_some_iff.mp claimed
  obtain ⟨locals, known, claimed⟩ := Option.bind_eq_some_iff.mp claimed
  obtain ⟨count, held, rfl⟩ := Option.map_eq_some_iff.mp claimed
  unfold Json.Fields.heldCount? at held
  unfold restoreScriptArguments
  simp only [defined, known, Namespace.restoreArguments, held, ArgumentClaim.fault?]
  split <;> rfl

theorem functionOf?_eq (table : InvertibleTable) (value : Json) :
    table.functionOf? value = value.str?.or (value.index?.bind table.functionName?) := by
  cases value <;> rfl

theorem kind_of_definedFunction? {table : InvertibleTable} {script : Json.Fields}
    {function : String} (defined : table.definedFunction? script = some function) :
    ScriptKind.ofFields script = .declaration .function := by
  unfold definedFunction? at defined
  split at defined
  next equation => exact equation
  all_goals cases defined

/-- The change leaves every target with the function that it means. -/
def KeepsTargets (table : InvertibleTable) (change : Site → Json → Json) : Prop :=
  ∀ value, table.functionOf? (Json.targetAfter change value) = table.functionOf? value

theorem keepsTargets_change {view : ScopeView} {table : InvertibleTable}
    (tableOf : view.table = table.toSymbolTable) : table.KeepsTargets view.change := by
  intro value
  cases value with
  | str name => exact functionOf?_change tableOf name
  | null | bool | num | arr | obj => rfl

section KeepsTargets

variable {table : InvertibleTable} {change : Site → Json → Json}
  (keeps : table.KeepsTargets change)

include keeps

theorem definedFunction?_rewriteFields (script : Json.Fields) :
    table.definedFunction? (Json.rewriteFields change (Shape.ofFields script) script) =
      table.definedFunction? script := by
  unfold definedFunction?
  rw [Json.ofFields_rewriteFields]
  cases kind : ScriptKind.ofFields script with
  | eventHandler | other => rfl
  | declaration declared =>
      cases declared with
      | list | image => rfl
      | function =>
          have block : Shape.ofFields script = .block :=
            Shape.ofFields_of_hasLocals (by rw [kind]; rfl)
          rw [block, Json.lookup_rewriteFields]
          cases script.lookup NameKind.function.key with
          | none => rfl
          | some value => exact keeps value
      | _ => rfl

private theorem scriptLocals?_rewriteFields (script : Json.Fields) :
    table.scriptLocals? (Json.rewriteFields change (Shape.ofFields script) script) =
      table.scriptLocals? script := by
  have defined := definedFunction?_rewriteFields keeps script
  unfold definedFunction? at defined
  unfold scriptLocals? localsOf?
  rw [Json.ofFields_rewriteFields] at defined ⊢
  cases kind : ScriptKind.ofFields script with
  | eventHandler | other => rfl
  | declaration declared =>
      rw [kind] at defined
      cases declared with
      | list | image => rfl
      | function => exact congrArg (Option.bind · _) defined
      | _ => rfl

theorem argumentClaim?_rewriteFields (script : Json.Fields) (count? : Option Nat) :
    table.argumentClaim? (Json.rewriteFields change (Shape.ofFields script) script) count? =
      table.argumentClaim? script count? := by
  unfold argumentClaim?
  rw [definedFunction?_rewriteFields keeps]

end KeepsTargets

theorem hasLocals_of_argumentClaim? {table : InvertibleTable} {script : Json.Fields}
    {count? : Option Nat} {claim : ArgumentClaim}
    (claimed : table.argumentClaim? script count? = some claim) :
    (ScriptKind.ofFields script).hasLocals = true := by
  obtain ⟨function, defined, -⟩ := Option.bind_eq_some_iff.mp claimed
  rw [kind_of_definedFunction? defined]
  rfl

theorem rewrite_restored_declarations (table : InvertibleTable) (scope : Option Namespace)
    (claim : ArgumentClaim) :
    (Json.arr claim.declarations).rewrite (table.restored scope) .value =
      .arr claim.declarations := by
  apply Json.rewrite_eq_self (fun site value => table.restored_of_index?_eq_none scope site)
  rw [Json.EveryReference, Json.everyItemReference_iff]
  intro declaration member
  obtain ⟨position, -, rfl⟩ := List.mem_map.mp member
  exact ⟨fun _ => rfl, trivial, trivial⟩

theorem restoreScript_rewrite {view : ScopeView} {table : InvertibleTable}
    (tableOf : view.table = table.toSymbolTable) {script : Json.Fields}
    (readBack : view.locals.ReadBack (table.scriptLocals? script))
    (noIndex : (Json.obj script).EveryReference (·.index? = none) .value) :
    table.restoreScript ((Json.obj script).rewrite view.change .value) =
      (table.restoreScriptArguments script).map Json.obj := by
  let resolved := Json.rewriteFields view.change (Shape.ofFields script) script
  have held : Json.Fields.heldCount? resolved = script.heldCount? :=
    Json.heldCount?_rewriteFields _ _ script
  have sameClaim : table.argumentClaim? resolved (Json.Fields.heldCount? resolved) =
      table.argumentClaim? script script.heldCount? := by
    rw [held]
    exact argumentClaim?_rewriteFields (keepsTargets_change tableOf) script _
  have shape : Shape.ofFields resolved =
      (Shape.ofFields script).mapTarget (Json.targetAfter view.change) :=
    Json.shape_rewriteFields view.change .value script
  have undone : Json.rewriteFields (table.restored (table.scriptLocals? script))
      (Shape.ofFields resolved) resolved = script := by
    rw [shape]
    exact rewriteFields_restored_change tableOf readBack (Shape.ofFields script) script noIndex
  change table.restoreScript (.obj resolved) = _
  simp only [restoreScript, resolved, scriptLocals?_rewriteFields (keepsTargets_change tableOf)]
  change (table.restoreScriptArguments resolved >>= _) = _
  cases claimed : table.argumentClaim? script script.heldCount? with
  | none =>
      rw [restoreScriptArguments_of_unclaimed claimed,
        restoreScriptArguments_of_unclaimed (sameClaim.trans claimed)]
      exact congrArg (Except.ok ∘ Json.obj) undone
  | some claim =>
      rw [restoreScriptArguments_of_claimed claimed,
        restoreScriptArguments_of_claimed (sameClaim.trans claimed)]
      cases claim.fault? with
      | some fault => rfl
      | none =>
          -- The declarations return before the names do, and restoring names leaves them alone.
          have owner := hasLocals_of_argumentClaim? (sameClaim.trans claimed)
          have block := Shape.ofFields_of_hasLocals owner
          have declaredBlock : Shape.ofFields (Json.Fields.replace resolved Key.arguments
              (.arr claim.declarations)) = .block := by
            apply Shape.ofFields_of_hasLocals
            rw [Json.Fields.ofFields_replace_of_ne _ _ (by decide), owner]
          have declared : Json.rewriteFields (table.restored (table.scriptLocals? script)) .block
              (Json.Fields.replace resolved Key.arguments (.arr claim.declarations)) =
              script.replace Key.arguments (.arr claim.declarations) := by
            rw [block] at undone
            rw [Json.rewriteFields_replace _ _ Shape.block.site?_arguments, undone]
            exact congrArg (script.replace Key.arguments)
              (table.rewrite_restored_declarations _ claim)
          rw [← declaredBlock] at declared
          exact congrArg (Except.ok ∘ Json.obj) declared

end InvertibleTable

/-- A script as compaction counts it: with a number in place of the arguments of its own scope. -/
def Json.Fields.counted (script : Json.Fields) : Json.Fields :=
  if (ScriptKind.ofFields script).hasLocals then script.countArguments else script

/-- An item of a list of scripts with the number of its arguments in place of a list of them. -/
def Json.countedItem : Json → Json
  | .obj script => .obj (Fields.counted script)
  | item => item

theorem SymbolTable.resolveScoped_obj (table : SymbolTable) (script : Json.Fields) :
    table.resolveScoped (.obj script) = (table.viewOf script).resolve (.obj script.counted) := rfl

theorem Json.Fields.lookup_counted_of_ne (script : Json.Fields) {key : String}
    (different : key ≠ Key.arguments) : script.counted.lookup key = script.lookup key := by
  unfold counted countArguments
  split
  · split
    · exact lookup_replace_of_ne script _ different
    · rfl
  · rfl

theorem Json.Fields.ofFields_counted (script : Json.Fields) :
    ScriptKind.ofFields script.counted = ScriptKind.ofFields script := by
  unfold counted
  split
  · exact ofFields_countArguments script
  · rfl

theorem Json.Fields.counted_of_unlisted {script : Json.Fields}
    (unlisted : (ScriptKind.ofFields script).hasLocals = true →
      (script.lookup Key.arguments).bind Json.items? = none) : script.counted = script := by
  unfold counted
  split
  next owner => exact countArguments_of_unlisted (unlisted owner)
  next => rfl

theorem Json.Fields.replace_arguments_counted (script : Json.Fields) (arguments : Json) :
    script.counted.replace Key.arguments arguments = script.replace Key.arguments arguments := by
  unfold counted countArguments
  split
  · split
    · exact replace_replace script Key.arguments _ arguments
    · rfl
  · rfl

theorem Shape.ofFields_counted (script : Json.Fields) :
    Shape.ofFields script.counted = Shape.ofFields script := by
  cases owner : (ScriptKind.ofFields script).hasLocals with
  | false => rw [Json.Fields.counted, owner, if_neg Bool.false_ne_true]
  | true =>
      rw [Shape.ofFields_of_hasLocals owner]
      apply Shape.ofFields_of_hasLocals
      rw [Json.Fields.ofFields_counted, owner]

theorem Json.everyFieldReference_counted {condition : Json → Prop} {script : Json.Fields}
    (every : EveryFieldReference condition (Shape.ofFields script) script) :
    EveryFieldReference condition (Shape.ofFields script.counted) script.counted := by
  rw [Shape.ofFields_counted]
  unfold Fields.counted Fields.countArguments
  split
  · split
    · exact everyFieldReference_replace (Shape.ofFields script).site?_arguments trivial every
    · exact every
  · exact every

theorem Json.Fields.heldCount?_countArguments (script : Json.Fields) :
    script.countArguments.heldCount? = script.argumentCount? := by
  unfold heldCount? argumentCount?
  cases held : script.lookup Key.arguments with
  | none => simp [countArguments, held]
  | some arguments =>
      cases listed : arguments.items? with
      | none => simp [countArguments, held, listed]
      | some declarations =>
          have counted : script.countArguments =
              script.replace Key.arguments (Json.index declarations.length) := by
            simp [countArguments, held, listed]
          rw [counted, lookup_replace_self, held]
          simp only [Option.map_some, Option.bind_some, listed, Option.some_or]
          rfl

namespace InvertibleTable

private theorem definedFunction?_counted (table : InvertibleTable) (script : Json.Fields) :
    table.definedFunction? script.counted = table.definedFunction? script := by
  unfold definedFunction?
  rw [Json.Fields.ofFields_counted,
    Json.Fields.lookup_counted_of_ne script (by decide)]

theorem argumentClaim?_eq_some_iff {table : InvertibleTable} {script : Json.Fields}
    {count? : Option Nat} {claim : ArgumentClaim} :
    table.argumentClaim? script count? = some claim ↔
      table.definedFunction? script = some claim.function ∧
        table.localNames? (.function claim.function) = some claim.locals ∧
        count? = some claim.count := by
  simp only [argumentClaim?, Option.bind_eq_some_iff, Option.map_eq_some_iff]
  constructor
  · rintro ⟨function, defined, locals, known, count, counted, rfl⟩
    exact ⟨defined, known, counted⟩
  · rintro ⟨defined, known, counted⟩
    exact ⟨_, defined, _, known, _, counted, rfl⟩

theorem argumentClaim?_counted (table : InvertibleTable) (script : Json.Fields) :
    table.argumentClaim? script.counted script.counted.heldCount? =
      table.argumentClaim? script script.argumentCount? := by
  unfold argumentClaim?
  rw [definedFunction?_counted]
  cases defined : table.definedFunction? script with
  | none => rfl
  | some function =>
      have owner : (ScriptKind.ofFields script).hasLocals = true := by
        rw [kind_of_definedFunction? defined]
        rfl
      rw [Json.Fields.counted, if_pos owner, Json.Fields.heldCount?_countArguments]

theorem definedFunction?_eq_some_iff {table : InvertibleTable} {script : Json.Fields}
    (noIndex : Json.EveryFieldReference (·.index? = none) (Shape.ofFields script) script)
    (function : String) :
    table.definedFunction? script = some function ↔
      Scope.ofFields? script = some (.function function) := by
  constructor
  · intro defined
    have kind := kind_of_definedFunction? defined
    have block : Shape.ofFields script = .block :=
      Shape.ofFields_of_hasLocals (by rw [kind]; rfl)
    rw [definedFunction?, kind] at defined
    obtain ⟨value, held, named⟩ := Option.bind_eq_some_iff.mp defined
    have noIndexHere : value.index? = none := by
      have reference : Shape.block.site? NameKind.function.key ≠ none := by decide
      rw [block, Json.everyFieldReference_iff] at noIndex
      exact (noIndex _ (Json.Fields.mem_of_lookup_eq_some held)).1 reference
    rw [functionOf?_eq, noIndexHere, Option.bind_none, Option.or_none] at named
    simp only [Scope.ofFields?, kind, Json.Fields.string?, held, Option.bind_some, named,
      Option.map_some]
  · intro defines
    obtain ⟨kind, held⟩ := Scope.ofFields?_eq_function defines
    rw [definedFunction?, kind]
    exact held ▸ rfl

private theorem scriptLocals?_eq (table : InvertibleTable) {script : Json.Fields} {scope : Scope}
    (defines : Scope.ofFields? script = some scope) :
    table.scriptLocals? script = table.localNames? scope := by
  cases scope with
  | event =>
      rw [scriptLocals?, (Scope.ofFields?_eq_event_iff script).mp defines]
      rfl
  | function name =>
      obtain ⟨kind, held⟩ := Scope.ofFields?_eq_function defines
      rw [scriptLocals?, kind]
      exact held ▸ rfl

private theorem scriptLocals?_counted (table : InvertibleTable) (script : Json.Fields) :
    table.scriptLocals? script.counted = table.scriptLocals? script := by
  unfold scriptLocals?
  rw [Json.Fields.ofFields_counted,
    Json.Fields.lookup_counted_of_ne script (by decide)]

private theorem readBack_viewOf (table : InvertibleTable) (script : Json.Fields) :
    (table.toSymbolTable.viewOf script).locals.ReadBack (table.scriptLocals? script) := by
  rw [SymbolTable.localsOfView_eq]
  cases defines : Scope.ofFields? script with
  | none => exact Namespace.readBack_empty _
  | some scope =>
      rw [table.scriptLocals?_eq defines]
      simp only [Option.map_some, Option.getD_some, SymbolTable.localNames]
      cases known : table.localNames? scope with
      | none => exact Namespace.readBack_empty _
      | some names => exact (table.namesFaultless.localNames known).readBack

theorem restoreScript_resolveScoped (table : InvertibleTable) {script : Json.Fields}
    (noIndex : (Json.obj script).EveryReference (·.index? = none) .value) :
    table.restoreScript (table.toSymbolTable.resolveScoped (.obj script)).value =
      (table.restoreScriptArguments script.counted).map Json.obj := by
  rw [SymbolTable.resolveScoped_obj, ScopeView.resolve_eq]
  apply restoreScript_rewrite rfl
  · rw [scriptLocals?_counted]
    exact table.readBack_viewOf script
  · exact Json.everyFieldReference_counted noIndex

end InvertibleTable

end BlockNames
