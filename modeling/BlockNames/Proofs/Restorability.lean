import BlockNames.Proofs.ArgumentCount

/-!
When a table that can be read backwards does not restore a value: some script holds more arguments
than its function has local names. Of what has just been compacted the same is said by the arguments
that the scripts listed or held before.
-/
namespace BlockNames

private theorem Except.mapM_eq_error_iff {α β ε : Type} {step : α → Except ε β}
    {fault? : α → Option ε} {items : List α}
    (each : ∀ item ∈ items, ∀ error, step item = .error error ↔ fault? item = some error)
    (error : ε) : items.mapM step = .error error ↔ items.findSome? fault? = some error := by
  induction items with
  | nil => simp [pure, Except.pure]
  | cons item rest induction =>
      have here := each item List.mem_cons_self
      have later := induction fun other member => each other (List.mem_cons_of_mem item member)
      rw [List.mapM_cons, List.findSome?_cons]
      cases stepped : step item with
      | error fault =>
          rw [(here fault).mp stepped]
          simp [bind, Except.bind]
      | ok result =>
          have passed : fault? item = none := by
            by_contra failed
            obtain ⟨fault, found⟩ := Option.ne_none_iff_exists'.mp failed
            rw [(here fault).mpr found] at stepped
            cases stepped
          rw [passed, ← later]
          cases rest.mapM step <;> simp [bind, Except.bind, pure, Except.pure]

namespace InvertibleTable

/-- The fault of an item that has too many arguments, as `count?` counts them. -/
def argumentFault? (table : InvertibleTable) (count? : Json.Fields → Option Nat) (item : Json) :
    Option CompactionError :=
  (item.fields?.bind fun script => table.argumentClaim? script (count? script)).bind
    ArgumentClaim.fault?

theorem restoreScript_eq_error_iff (table : InvertibleTable) (item : Json)
    (error : CompactionError) :
    table.restoreScript item = .error error ↔
      table.argumentFault? Json.Fields.heldCount? item = some error := by
  cases item with
  | null | bool | num | str | arr => simp [restoreScript, argumentFault?, Json.fields?]
  | obj script =>
      simp only [restoreScript, argumentFault?, Json.fields?, Option.bind_some]
      cases claimed : table.argumentClaim? script (Json.Fields.heldCount? script) with
      | none =>
          rw [restoreScriptArguments_of_unclaimed claimed]
          simp [bind, Except.bind, pure, Except.pure]
      | some claim =>
          rw [restoreScriptArguments_of_claimed claimed, Option.bind_some]
          cases claim.fault? <;> simp [bind, Except.bind, pure, Except.pure]

theorem restoreScripts_eq_error_iff (table : InvertibleTable) (scripts : Json)
    (error : CompactionError) :
    table.restoreScripts scripts = .error error ↔
      (scripts.items?.getD []).findSome? (table.argumentFault? Json.Fields.heldCount?) =
        some error := by
  cases scripts with
  | null | bool | num | str | obj => simp [restoreScripts, Json.items?]
  | arr items =>
      simp only [restoreScripts, Json.items?, Option.getD_some]
      rw [← Except.mapM_eq_error_iff fun item _ => table.restoreScript_eq_error_iff item]
      cases items.mapM table.restoreScript <;> simp [bind, Except.bind, pure, Except.pure]

/-- A table that can be read backwards restores all values but those with a script that holds more
arguments than its function has local names. The first such script is the one reported. -/
theorem restore_eq_error_iff (table : InvertibleTable) (value : Json) (error : CompactionError) :
    table.restore value = .error error ↔
      value.scriptItems.findSome? (table.argumentFault? Json.Fields.heldCount?) = some error := by
  cases value with
  | null | bool | num | str => simp [restore, Json.scriptItems, Json.scripts?]
  | arr items => exact table.restoreScripts_eq_error_iff (.arr items) error
  | obj program =>
      simp only [restore, Json.scriptItems, Json.scripts?]
      cases program.lookup Key.scripts with
      | none => simp
      | some scripts =>
          rw [Option.bind_some, ← table.restoreScripts_eq_error_iff]
          cases restored : table.restoreScripts scripts <;>
            simp [restored, bind, Except.bind, pure, Except.pure]

private theorem argumentClaim?_eraseFieldAnnotations (table : InvertibleTable)
    (script : Json.Fields) :
    table.argumentClaim? (Json.eraseFieldAnnotations script)
        (Json.Fields.argumentCount? (Json.eraseFieldAnnotations script)) =
      table.argumentClaim? script script.argumentCount? := by
  have count : Json.Fields.argumentCount? (Json.eraseFieldAnnotations script) =
      script.argumentCount? := by
    unfold Json.Fields.argumentCount?
    rw [Json.lookup_eraseFieldAnnotations script (by decide)]
    cases script.lookup Key.arguments with
    | none => rfl
    | some arguments =>
        cases arguments <;>
          simp [Json.eraseAnnotations, Json.items?, Json.count?, Json.eraseItemAnnotations_eq_map]
  have defined : table.definedFunction? (Json.eraseFieldAnnotations script) =
      table.definedFunction? script := by
    unfold definedFunction?
    rw [ScriptKind.ofFields_eraseFieldAnnotations,
      Json.lookup_eraseFieldAnnotations script (NameKind.key_ne_annotation _)]
    cases script.lookup NameKind.function.key with
    | none => rfl
    | some value => cases value <;> rfl
  unfold argumentClaim?
  rw [count, defined]

theorem argumentFault?_eraseAnnotations (table : InvertibleTable) (item : Json) :
    table.argumentFault? Json.Fields.argumentCount? item.eraseAnnotations =
      table.argumentFault? Json.Fields.argumentCount? item := by
  cases item with
  | null | bool | num | str | arr => rfl
  | obj script =>
      simp only [Json.eraseAnnotations, argumentFault?, Json.fields?, Option.bind_some,
        argumentClaim?_eraseFieldAnnotations]

private theorem argumentFault?_resolveScoped (table : InvertibleTable) (item : Json) :
    table.argumentFault? Json.Fields.heldCount?
        (table.toSymbolTable.resolveScoped item.eraseAnnotations).value =
      table.argumentFault? Json.Fields.argumentCount? item := by
  cases item with
  | null | bool | num | str | arr => rfl
  | obj script =>
      rw [← argumentFault?_eraseAnnotations]
      simp only [Json.eraseAnnotations, SymbolTable.resolveScoped_obj, ScopeView.resolve_eq,
        Json.rewrite, Role.shape, argumentFault?, Json.fields?, Option.bind_some]
      rw [Json.heldCount?_rewriteFields, argumentClaim?_rewriteFields (keepsTargets_change rfl),
        argumentClaim?_counted]

end InvertibleTable

theorem SymbolTable.exists_invertible_ofScripts (scripts : List Json) :
    ∃ table : InvertibleTable, (ofScripts scripts).invertible = .ok table := by
  have faultless := (fault?_eq_none_iff _).mpr (faultless_ofScripts scripts)
  exact ⟨⟨ofScripts scripts, faultless⟩, (invertible_eq_ok_iff _ _).mpr rfl⟩

theorem SymbolTable.items?_resolve (table : SymbolTable) (scripts : Json) :
    (table.resolve scripts).value.items? =
      scripts.items?.map (List.map fun item =>
        (table.resolveScoped item.eraseAnnotations).value) := by
  cases scripts with
  | null | bool | num | str | obj => rfl
  | arr items =>
      rw [resolve_arr]
      rfl

theorem Compaction.scriptItems_ofValue (value : Json) :
    (ofValue value).value.scriptItems =
      value.scriptItems.map fun item =>
        ((ofValue value).table.resolveScoped item.eraseAnnotations).value := by
  unfold Json.scriptItems
  rw [scripts?_ofValue]
  cases value.scripts? with
  | none => rfl
  | some scripts =>
      simp only [Option.map_some, Option.bind_some, SymbolTable.items?_resolve]
      cases scripts.items? <;> rfl

theorem Compaction.eq_ofValue_of_compact {options : Options} {value : Json}
    {compaction : Compaction} (compacted : value.compact options = .ok compaction) :
    compaction = ofValue value := by
  unfold Json.compact enforce at compacted
  split at compacted
  · cases compacted
  · exact (Except.ok.inj compacted).symm

theorem Compaction.restore_ofValue_eq_error_iff {value : Json} {table : InvertibleTable}
    (accepted : (ofValue value).table.invertible = .ok table) (error : CompactionError) :
    (ofValue value).value.restore (ofValue value).table = .error error ↔
      value.scriptItems.findSome? (table.argumentFault? Json.Fields.argumentCount?) =
        some error := by
  rw [SymbolTable.restore_eq accepted, table.restore_eq_error_iff, scriptItems_ofValue,
    List.findSome?_map, ← (SymbolTable.invertible_eq_ok_iff _ _).mp accepted]
  have sameFault : table.argumentFault? Json.Fields.heldCount? ∘
      (fun item => (table.toSymbolTable.resolveScoped item.eraseAnnotations).value) =
        table.argumentFault? Json.Fields.argumentCount? := by
    funext item
    exact table.argumentFault?_resolveScoped item
  rw [sameFault]

theorem Compaction.findSome?_argumentFault?_eq_none {value restored : Json}
    {table : InvertibleTable} (accepted : (ofValue value).table.invertible = .ok table)
    (decoded : (ofValue value).value.restore (ofValue value).table = .ok restored) :
    value.scriptItems.findSome? (table.argumentFault? Json.Fields.argumentCount?) = none := by
  by_contra failed
  obtain ⟨error, found⟩ := Option.ne_none_iff_exists'.mp failed
  rw [(restore_ofValue_eq_error_iff accepted error).mpr found] at decoded
  cases decoded

end BlockNames
