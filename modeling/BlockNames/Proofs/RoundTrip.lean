import BlockNames.Proofs.ArgumentCount

/-!
Compaction and restoration of a whole value. The table of the scripts gives every index its name
back, and the first local names of a function are its arguments. Main statement: a value whose
functions can be told apart and declare their arguments plainly comes back without annotations.
-/
namespace BlockNames

def Json.argumentDeclaration (name : String) : Json :=
  .obj [(NameKind.variable.key, .str name)]

theorem eraseDups_of_nodup (names : List String) (distinct : names.Nodup) :
    names.eraseDups = names := by
  induction names with
  | nil => rfl
  | cons name rest induction =>
      obtain ⟨fresh, distinct⟩ := List.nodup_cons.mp distinct
      have kept : rest.filter (fun other => !other == name) = rest := by
        apply List.filter_eq_self.mpr
        intro other member
        have different : other ≠ name := fun same => fresh (same ▸ member)
        simp [different]
      rw [List.eraseDups_cons, kept, induction distinct]

theorem Namespace.NumberedBy.argumentDeclarations {names : Namespace} {first later : List String}
    (numbered : names.NumberedBy .descending (first ++ later)) :
    names.argumentDeclarations first.length = first.map Json.argumentDeclaration := by
  apply List.ext_getElem
  · simp [Namespace.argumentDeclarations]
  · intro position inside insideFirst
    have bound : position < first.length := by simpa using insideFirst
    have index : (-((1 + position : Nat) : Int)) = Numbering.descending.index position := by
      simp only [Numbering.index]
      omega
    have named : names.nameOf? (-((1 + position : Nat) : Int)) = some first[position] := by
      rw [index, numbered.nameOf?_index, List.getElem?_append_left bound,
        List.getElem?_eq_getElem bound]
    simp only [Namespace.argumentDeclarations, List.getElem_map, List.getElem_range',
      Namespace.argumentName, Nat.one_mul, named, Option.getD_some, Json.argumentDeclaration]

/-- Names declared first and only once are the first arguments of the namespace. -/
private theorem Namespace.argumentDeclarations_declareAll (first later : List String)
    (distinct : first.Nodup) :
    first.length ≤ ((∅ : Namespace).declareAll .descending (first ++ later)).size ∧
      ((∅ : Namespace).declareAll .descending (first ++ later)).argumentDeclarations first.length =
        first.map Json.argumentDeclaration := by
  have numbered := Namespace.numberedBy_declareAll .descending (first ++ later)
  rw [List.eraseDups_append, eraseDups_of_nodup first distinct] at numbered
  refine ⟨?_, numbered.argumentDeclarations⟩
  rw [numbered.size_eq, List.length_append]
  exact Nat.le_add_right _ _

theorem Json.declaredNames_argumentDeclarations {script : Json.Fields} {key : String}
    {names : List String}
    (declared : script.lookup key = some (.arr (names.map Json.argumentDeclaration))) :
    script.declaredNames key = names := by
  unfold Json.Fields.declaredNames
  rw [declared]
  simp only [Option.bind_some, Json.items?, Option.getD_some, List.filterMap_map]
  exact List.filterMap_some

namespace InvertibleTable

private theorem restoreScript_resolveScoped_eq_self (table : InvertibleTable) {script : Json.Fields}
    (distinct : (script.map Prod.fst).Nodup)
    (noIndex : (Json.obj script).EveryReference (·.index? = none) .value)
    (counted : ∀ declarations, (ScriptKind.ofFields script).hasLocals = true →
      script.lookup Key.arguments = some (.arr declarations) →
        ∃ name locals, Scope.ofFields? script = some (.function name) ∧
          table.localNames? (.function name) = some locals ∧
          declarations.length ≤ locals.size ∧
          locals.argumentDeclarations declarations.length = declarations)
    (uncounted : ∀ name, Scope.ofFields? script = some (.function name) →
      (script.lookup Key.arguments).bind Json.count? = none) :
    table.restoreScript (table.toSymbolTable.resolveScoped (.obj script)).value =
      .ok (.obj script) := by
  suffices restored : table.restoreScriptArguments script.counted = .ok script by
    rw [table.restoreScript_resolveScoped noIndex, restored]
    rfl
  have sameClaim := table.argumentClaim?_counted script
  by_cases listed : (ScriptKind.ofFields script).hasLocals = true ∧
      ((script.lookup Key.arguments).bind Json.items?).isSome = true
  · obtain ⟨owner, listed⟩ := listed
    obtain ⟨declarations, listed⟩ := Option.isSome_iff_exists.mp listed
    have held := Json.Fields.lookup_eq_some_arr listed
    obtain ⟨name, locals, defines, known, bound, declared⟩ := counted declarations owner held
    have claimed : table.argumentClaim? script script.argumentCount? =
        some ⟨name, locals, declarations.length⟩ := by
      refine argumentClaim?_eq_some_iff.mpr
        ⟨(definedFunction?_eq_some_iff noIndex name).mpr defines, known, ?_⟩
      simp only [Json.Fields.argumentCount?, held, Option.bind_some, Json.items?, Option.map_some,
        Option.some_or]
    have sound : ArgumentClaim.fault? ⟨name, locals, declarations.length⟩ = none := if_pos bound
    rw [restoreScriptArguments_of_claimed (sameClaim.trans claimed), sound]
    simp only [ArgumentClaim.declarations, declared, Json.Fields.replace_arguments_counted,
      Json.Fields.replace_eq_self distinct held]
  · have unlisted : (ScriptKind.ofFields script).hasLocals = true →
        (script.lookup Key.arguments).bind Json.items? = none :=
      fun owner => Option.not_isSome_iff_eq_none.mp fun items => listed ⟨owner, items⟩
    rw [Json.Fields.counted_of_unlisted unlisted]
    apply restoreScriptArguments_of_unclaimed
    by_contra claimed
    obtain ⟨claim, claimed⟩ := Option.ne_none_iff_exists'.mp claimed
    obtain ⟨defined, -, count⟩ := argumentClaim?_eq_some_iff.mp claimed
    have defines := (definedFunction?_eq_some_iff noIndex _).mp defined
    rw [Json.Fields.heldCount?, uncounted _ defines] at count
    cases count

end InvertibleTable

/-- A program with its port tables; any other value as it is. -/
def Json.withPortTables : Json → Json
  | .obj program => .obj (Json.Fields.withPortTables program)
  | value => value

/-- A value with other scripts in place of its own. -/
def Json.withScripts (value scripts : Json) : Json :=
  match value with
  | .obj program => .obj (Json.Fields.replace program Key.scripts scripts)
  | .arr _ => scripts
  | .null | .bool _ | .num _ | .str _ => value

theorem Json.withScripts_of_scripts?_eq_none {value : Json} (absent : value.scripts? = none)
    (scripts : Json) : value.withPortTables.withScripts scripts = value.withPortTables := by
  cases value with
  | null | bool | num | str => rfl
  | arr => cases absent
  | obj program =>
      apply congrArg Json.obj
      rw [Json.Fields.replace_scripts_withPortTables, Json.Fields.replace_of_lookup_eq_none absent]

private theorem Json.withScripts_of_scripts?_eq_some {value scripts : Json}
    (distinct : value.DistinctKeys) (held : value.scripts? = some scripts) :
    value.withPortTables.withScripts scripts = value.withPortTables := by
  cases value with
  | null | bool | num | str => cases held
  | arr => exact (Option.some.inj held).symm
  | obj program =>
      apply congrArg Json.obj
      rw [Json.Fields.replace_scripts_withPortTables, Json.Fields.replace_eq_self distinct.1 held]

/-- What a value must be like to come back. Its scripts hold no index where a name may stand,
functions have names of their own, and only functions with a name list arguments, as plain
declarations of different names. -/
structure Json.Recoverable (value : Json) : Prop where
  noIndex : ∀ scripts, value.scripts? = some scripts →
    scripts.EveryReference (·.index? = none) .value
  functions : ((value.scriptItems.filterMap Json.fields?).filterMap
    (Json.Fields.declaredName? .function)).Nodup
  arguments : ∀ script name, .obj script ∈ value.scriptItems →
    Scope.ofFields? script = some (.function name) →
      script.lookup Key.arguments = none ∨ ∃ names : List String, names.Nodup ∧
        script.lookup Key.arguments = some (.arr (names.map Json.argumentDeclaration))
  unlisted : ∀ script, .obj script ∈ value.scriptItems →
    (ScriptKind.ofFields script).hasLocals = true →
      (∀ name, Scope.ofFields? script ≠ some (.function name)) →
        (script.lookup Key.arguments).bind Json.items? = none

theorem Json.Recoverable.localNames? {value : Json} (recoverable : value.Recoverable)
    {script : Json.Fields} (member : .obj script ∈ value.scriptItems) {name : String}
    (defines : Scope.ofFields? script = some (.function name)) {names : List String}
    (distinct : names.Nodup)
    (held : script.lookup Key.arguments = some (.arr (names.map Json.argumentDeclaration))) :
    ∃ locals, (SymbolTable.ofScripts value.scriptItems).localNames? (.function name) = some locals ∧
      names.length ≤ locals.size ∧
      locals.argumentDeclarations names.length = names.map Json.argumentDeclaration := by
  have scriptMember := Json.mem_filterMap_fields?.mpr member
  have declarations : script.localDeclarations = names ++ script.declaredNames Key.locals := by
    unfold Json.Fields.localDeclarations
    rw [(Scope.ofFields?_eq_function defines).1, Json.declaredNames_argumentDeclarations held]
  refine ⟨_, ?_, Namespace.argumentDeclarations_declareAll names
    (script.declaredNames Key.locals) distinct⟩
  rw [SymbolTable.localNames?_ofScripts,
    Scope.definitions_eq_singleton recoverable.functions scriptMember defines,
    if_neg (List.cons_ne_nil _ _), List.flatMap_singleton, declarations]

namespace InvertibleTable

private theorem rewrite_restored_resolve (table : InvertibleTable) {tree : Json}
    (noIndex : tree.EveryReference (·.index? = none) .value) :
    (ScopeView.resolve ⟨table.toSymbolTable, ∅, none⟩ tree).value.rewrite (table.restored none)
      .value = tree := by
  rw [ScopeView.resolve_eq]
  exact rewrite_restored_change rfl (Namespace.readBack_empty none) .value tree noIndex

theorem restoreScripts_of_items?_eq_none (table : InvertibleTable) {scripts : Json}
    (unlisted : scripts.items? = none)
    (noIndex : scripts.eraseAnnotations.EveryReference (·.index? = none) .value) :
    table.restoreScripts (table.toSymbolTable.resolve scripts).value =
      .ok scripts.eraseAnnotations := by
  have undone := table.rewrite_restored_resolve noIndex
  rw [SymbolTable.resolve_of_items?_eq_none _ unlisted]
  rw [ScopeView.resolve_eq] at undone ⊢
  cases scripts with
  | arr items => cases unlisted
  | null | bool | num | str => rfl
  | obj fields => exact congrArg Except.ok undone

theorem restoreScript_of_fields?_eq_none (table : InvertibleTable) {item : Json}
    (noScript : item.fields? = none) (noIndex : item.EveryReference (·.index? = none) .value) :
    table.restoreScript (table.toSymbolTable.resolveScoped item).value = .ok item := by
  have unscoped : table.toSymbolTable.resolveScoped item =
      ScopeView.resolve ⟨table.toSymbolTable, ∅, none⟩ item := by
    cases item with
    | obj script => cases noScript
    | null | bool | num | str | arr => rfl
  rw [unscoped, ScopeView.resolve_eq]
  exact restoreScript_change_of_fields?_eq_none rfl (Namespace.readBack_empty none) noScript noIndex

theorem restore_ofValue_eq_withScripts (table : InvertibleTable) {value restored : Json}
    (scriptsRestored : ∀ scripts, value.scripts? = some scripts →
      table.restoreScripts ((Compaction.ofValue value).table.resolve scripts).value =
        .ok restored) :
    table.restore (Compaction.ofValue value).value =
      .ok (value.eraseAnnotations.withPortTables.withScripts restored) := by
  cases value with
  | null | bool | num | str => rfl
  | arr items =>
      cases items with
      | nil => exact scriptsRestored _ rfl
      | cons first rest => exact scriptsRestored _ rfl
  | obj program =>
      rw [Compaction.ofValue_table] at scriptsRestored
      simp only [Compaction.ofValue, Compaction.ofProgram_value, restore,
        Json.Fields.lookup_scripts_withPortTables, SymbolTable.lookup_scripts_compactFields,
        Json.eraseAnnotations, Json.withPortTables, Json.withScripts]
      cases held : program.lookup Key.scripts with
      | none =>
          have absent : (Json.eraseFieldAnnotations program).lookup Key.scripts = none := by
            rw [Json.lookup_eraseFieldAnnotations program (by decide), held, Option.map_none]
          rw [SymbolTable.compactFields_of_lookup_eq_none _ held,
            Json.Fields.replace_scripts_withPortTables,
            Json.Fields.replace_of_lookup_eq_none absent]
          rfl
      | some scripts =>
          simp only [Option.map_some, scriptsRestored scripts held]
          change Except.ok (Json.obj (Json.Fields.replace _ _ _)) = _
          rw [Json.Fields.replace_scripts_withPortTables,
            SymbolTable.replace_scripts_compactFields, ← Json.Fields.replace_scripts_withPortTables]

private theorem restore_ofValue (table : InvertibleTable) (document : Document)
    (scriptsRestored : ∀ scripts, document.tree.scripts? = some scripts →
      table.restoreScripts ((Compaction.ofValue document.tree).table.resolve scripts).value =
        .ok scripts.eraseAnnotations) :
    table.restore (Compaction.ofValue document.tree).value =
      .ok document.tree.eraseAnnotations.withPortTables := by
  cases held : document.tree.scripts? with
  | none =>
      have absent : document.tree.eraseAnnotations.scripts? = none := by
        rw [Json.scripts?_eraseAnnotations, held, Option.map_none]
      rw [← Json.withScripts_of_scripts?_eq_none absent .null]
      apply table.restore_ofValue_eq_withScripts
      simp [held]
  | some scripts =>
      have heldPlain : document.tree.eraseAnnotations.scripts? =
          some scripts.eraseAnnotations := by
        rw [Json.scripts?_eraseAnnotations, held, Option.map_some]
      have distinctPlain : document.tree.eraseAnnotations.DistinctKeys :=
        document.eraseAnnotations.distinctKeys
      rw [← Json.withScripts_of_scripts?_eq_some distinctPlain heldPlain]
      apply table.restore_ofValue_eq_withScripts
      intro other otherHeld
      obtain rfl := Option.some.inj (held.symm.trans otherHeld)
      exact scriptsRestored scripts held

end InvertibleTable

theorem Json.Recoverable.restoreScript {value : Json} (recoverable : value.Recoverable)
    (distinct : value.DistinctKeys) {table : InvertibleTable}
    (tableOf : table.toSymbolTable = SymbolTable.ofScripts value.scriptItems) {item : Json}
    (member : item ∈ value.scriptItems) :
    table.restoreScript (table.toSymbolTable.resolveScoped item).value = .ok item := by
  obtain ⟨items, held, itemMember⟩ := Json.mem_scriptItems.mp member
  have noIndex :=
    (Json.everyItemReference_iff _ _ items).mp (recoverable.noIndex _ held) _ itemMember
  have itemDistinct := distinct.of_mem_scriptItems member
  cases item with
  | null | bool | num | str | arr => exact table.restoreScript_of_fields?_eq_none rfl noIndex
  | obj script =>
      apply table.restoreScript_resolveScoped_eq_self itemDistinct.1 noIndex
      · intro declarations owner listed
        cases defines : Scope.ofFields? script with
        | none =>
            have unlisted := recoverable.unlisted script member owner (by simp [defines])
            rw [listed] at unlisted
            cases unlisted
        | some scope =>
            cases scope with
            | event =>
                have unlisted := recoverable.unlisted script member owner (by simp [defines])
                rw [listed] at unlisted
                cases unlisted
            | function name =>
                obtain absent | ⟨names, namesDistinct, declared⟩ :=
                  recoverable.arguments script name member defines
                · rw [absent] at listed
                  cases listed
                · obtain ⟨locals, known, bound, restored⟩ :=
                    recoverable.localNames? member defines namesDistinct declared
                  rw [listed] at declared
                  obtain rfl := Json.arr.inj (Option.some.inj declared)
                  rw [List.length_map]
                  exact ⟨name, locals, rfl, tableOf ▸ known, bound, restored⟩
      · intro name defines
        obtain absent | ⟨names, -, declared⟩ := recoverable.arguments script name member defines
        · rw [absent]
          rfl
        · rw [declared]
          rfl

private theorem Document.restoreScripts (document : Document)
    (recoverable : document.tree.eraseAnnotations.Recoverable) {table : InvertibleTable}
    (tableOf : table.toSymbolTable = SymbolTable.ofScripts document.tree.scriptItems)
    {scripts : Json} (held : document.tree.scripts? = some scripts) :
    table.restoreScripts (table.toSymbolTable.resolve scripts).value =
      .ok scripts.eraseAnnotations := by
  have heldPlain : document.tree.eraseAnnotations.scripts? = some scripts.eraseAnnotations := by
    rw [Json.scripts?_eraseAnnotations, held, Option.map_some]
  have distinctPlain := document.eraseAnnotations.distinctKeys
  rw [← SymbolTable.ofScripts_eraseAnnotations, ← Json.scriptItems_eraseAnnotations] at tableOf
  cases listed : scripts.items? with
  | none => exact table.restoreScripts_of_items?_eq_none listed (recoverable.noIndex _ heldPlain)
  | some items =>
      cases scripts with
      | null | bool | num | str | obj => cases listed
      | arr scriptList =>
          rw [SymbolTable.resolve_arr]
          simp only [Json.eraseAnnotations, Json.eraseItemAnnotations_eq_map]
          apply table.restoreScripts_arr
          intro item member
          apply recoverable.restoreScript distinctPlain tableOf
          rw [Json.mem_scriptItems]
          simp only [Json.eraseAnnotations, Json.eraseItemAnnotations_eq_map] at heldPlain
          exact ⟨_, heldPlain, List.mem_map_of_mem member⟩

/-- A recoverable document that is compacted and restored is the document without annotations. -/
theorem Document.restore_compact (document : Document)
    (recoverable : document.tree.eraseAnnotations.Recoverable) :
    ∃ compaction, document.tree.compact default = .ok compaction ∧
      compaction.value.restore compaction.table =
        .ok document.tree.eraseAnnotations.withPortTables := by
  refine ⟨_, document.tree.compact_default, ?_⟩
  have faultless := SymbolTable.faultless_ofScripts document.tree.scriptItems
  rw [← SymbolTable.fault?_eq_none_iff] at faultless
  let table : InvertibleTable := ⟨SymbolTable.ofScripts document.tree.scriptItems, faultless⟩
  have tableOf : (Compaction.ofValue document.tree).table = table.toSymbolTable :=
    Compaction.ofValue_table document.tree
  have accepted : (Compaction.ofValue document.tree).table.invertible = .ok table :=
    (SymbolTable.invertible_eq_ok_iff _ _).mpr tableOf.symm
  rw [SymbolTable.restore_eq accepted]
  apply table.restore_ofValue document
  intro scripts held
  rw [tableOf]
  exact document.restoreScripts recoverable rfl held

def jumpProgram : Json :=
  let start := .obj [
    ("body", .arr [.obj [
      (Key.arguments, .arr [.obj [
        ("value", .obj [(NameKind.variable.key, .str "speed")]),
        (NameKind.variable.key, .str "height")]]),
      (NameKind.function.key, .str "jump"), (Key.kind, .str callKind)]]),
    (Key.locals, .arr [.obj [(NameKind.variable.key, .str "speed")]]),
    (Key.kind, .str eventHandlerKind)]
  let jump := .obj [
    (Key.arguments, .arr [.obj [
      (Key.annotation, .str "line 1"), (NameKind.variable.key, .str "height")]]),
    ("body", .obj [(NameKind.variable.key, .str "height")]),
    (NameKind.function.key, .str "jump"), (Key.kind, .str NameKind.function.key)]
  .obj [(Key.annotation, .null), (Key.scripts, .arr [start, jump])]

theorem Document.restore_compact_jumpProgram :
    jumpProgram.DistinctKeys ∧ jumpProgram.eraseAnnotations.Recoverable ∧
      (Compaction.ofValue jumpProgram).value ≠ jumpProgram.eraseAnnotations.withPortTables ∧
      ∃ compaction, jumpProgram.compact default = .ok compaction ∧
        compaction.value.restore compaction.table =
          .ok jumpProgram.eraseAnnotations.withPortTables := by
  have distinct : jumpProgram.DistinctKeys := by decide
  have recoverable : jumpProgram.eraseAnnotations.Recoverable := by
    refine ⟨?_, by decide, ?_, ?_⟩
    · intro scripts held
      obtain rfl := Option.some.inj held
      decide
    · intro script name member defines
      rcases List.mem_cons.mp member with same | later
      · obtain rfl := Json.obj.inj same
        cases defines
      · obtain rfl := Json.obj.inj (List.mem_singleton.mp later)
        exact .inr ⟨["height"], by decide, rfl⟩
    · intro script member _ nameless
      rcases List.mem_cons.mp member with same | later
      · obtain rfl := Json.obj.inj same
        rfl
      · obtain rfl := Json.obj.inj (List.mem_singleton.mp later)
        exact absurd rfl (nameless "jump")
  exact ⟨distinct, recoverable, by decide, Document.restore_compact ⟨_, distinct⟩ recoverable⟩

end BlockNames
