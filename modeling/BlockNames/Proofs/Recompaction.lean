import BlockNames.Proofs.Redeclaration

/-!
Compaction of what a restoration made. A value whose scripts are restored keeps its other fields and
its port tables. Main statement: compacting a restored compaction gives the compaction.
-/
namespace BlockNames

/-- Compaction makes the same of the other scripts, which have no annotations. -/
structure Json.Recodes (scripts restored : Json) : Prop where
  plain : restored.eraseAnnotations = restored
  listed : restored.items?.isSome = scripts.items?.isSome
  table : SymbolTable.ofScripts (restored.items?.getD []) =
    SymbolTable.ofScripts (scripts.items?.getD [])
  resolve : (SymbolTable.ofScripts (scripts.items?.getD [])).resolve restored =
    (SymbolTable.ofScripts (scripts.items?.getD [])).resolve scripts

namespace Json.Recodes

theorem refl {scripts : Json} (plain : scripts.eraseAnnotations = scripts) :
    scripts.Recodes scripts :=
  ⟨plain, rfl, rfl, rfl⟩

end Json.Recodes

namespace Compaction

theorem ofValue_obj {program : Json.Fields} {scripts : Json}
    (distinct : (program.map Prod.fst).Nodup) (held : program.lookup Key.scripts = some scripts) :
    ofValue (.obj program) =
      let table := SymbolTable.ofScripts (scripts.items?.getD [])
      let resolution := table.resolve scripts
      ⟨.obj (Json.Fields.replace (Json.eraseFieldAnnotations program) Key.scripts
        resolution.value).withPortTables, table, resolution.unresolved⟩ := by
  have table : (ofValue (.obj program)).table =
      SymbolTable.ofScripts (scripts.items?.getD []) := by
    rw [ofValue_table, Json.scriptItems, Json.scripts?.eq_1, held, Option.bind_some]
  ext1
  · rw [ofValue_table] at table
    rw [ofValue, ofProgram_value, table,
      SymbolTable.compactFields_of_lookup_eq_some _ distinct held]
  · exact table
  · rw [ofValue_unresolved, table, Json.scripts?.eq_1, held, Option.map_some, Option.getD_some]

private theorem ofValue_obj_of_lookup_eq_none {program : Json.Fields}
    (absent : program.lookup Key.scripts = none) :
    ofValue (.obj program) =
      ⟨.obj (Json.Fields.withPortTables (Json.eraseFieldAnnotations program)), ∅, []⟩ := by
  have table : (ofValue (.obj program)).table = ∅ := by
    rw [ofValue_table, Json.scriptItems, Json.scripts?.eq_1, absent]
    rfl
  ext1
  · rw [ofValue, ofProgram_value, SymbolTable.compactFields_of_lookup_eq_none _ absent]
  · exact table
  · rw [ofValue_unresolved, Json.scripts?.eq_1, absent, Option.map_none, Option.getD_none]

private theorem ofValue_withPortTables {value : Json} (plain : value.eraseAnnotations = value)
    (absent : value.scripts? = none) : ofValue value.withPortTables = ofValue value := by
  cases value with
  | null | bool | num | str => rfl
  | arr => cases absent
  | obj program =>
      have unannotated : Json.eraseFieldAnnotations program = program := Json.obj.inj plain
      have stillAbsent : (Json.Fields.withPortTables program).lookup Key.scripts = none := by
        rw [Json.Fields.lookup_scripts_withPortTables]
        exact absent
      change ofValue (.obj (Json.Fields.withPortTables program)) = _
      rw [ofValue_obj_of_lookup_eq_none absent, ofValue_obj_of_lookup_eq_none stillAbsent,
        Json.Fields.eraseFieldAnnotations_withPortTables unannotated, unannotated,
        Json.Fields.withPortTables_withPortTables]

theorem ofValue_withScripts {value scripts restored : Json}
    (plain : value.eraseAnnotations = value) (distinct : value.DistinctKeys)
    (held : value.scripts? = some scripts) (recodes : scripts.Recodes restored) :
    ofValue (value.withPortTables.withScripts restored) = ofValue value := by
  obtain ⟨restoredPlain, listed, table, resolve⟩ := recodes
  cases value with
  | null | bool | num | str => cases held
  | arr items =>
      obtain rfl := Option.some.inj held
      cases restored with
      | null | bool | num | str | obj => cases listed
      | arr restoredItems =>
          change ofValue (.arr restoredItems) = ofValue (.arr items)
          simp only [ofValue_arr, ofScripts]
          rw [show SymbolTable.ofScripts restoredItems = SymbolTable.ofScripts items from table]
          rw [show (SymbolTable.ofScripts items).resolve (.arr restoredItems) = _ from resolve]
          rfl
  | obj program =>
      replace held : program.lookup Key.scripts = some scripts := held
      have unannotated : Json.eraseFieldAnnotations program = program := Json.obj.inj plain
      let other := Json.Fields.replace program Key.scripts restored
      have otherUnannotated : Json.eraseFieldAnnotations other = other := by
        rw [Json.eraseFieldAnnotations_replace, restoredPlain, unannotated]
      have otherDistinct : (other.map Prod.fst).Nodup := by
        rw [Json.Fields.keys_replace]
        exact distinct.1
      have otherHeld : other.withPortTables.lookup Key.scripts = some restored := by
        rw [Json.Fields.lookup_scripts_withPortTables, Json.Fields.lookup_replace_self, held,
          Option.map_some]
      have again : ∀ value : Json,
          (Json.Fields.replace other.withPortTables Key.scripts value).withPortTables =
            (Json.Fields.replace program Key.scripts value).withPortTables := by
        intro value
        rw [Json.Fields.replace_scripts_withPortTables, Json.Fields.replace_replace,
          Json.Fields.withPortTables_withPortTables]
      change ofValue (.obj
        (Json.Fields.replace (Json.Fields.withPortTables program) _ restored)) = _
      rw [Json.Fields.replace_scripts_withPortTables, ofValue_obj distinct.1 held,
        ofValue_obj (Json.Fields.nodup_keys_withPortTables otherDistinct) otherHeld]
      simp only [table, resolve, again, unannotated,
        Json.Fields.eraseFieldAnnotations_withPortTables otherUnannotated]

end Compaction

/-- What a value must be like for its restored compaction to be compacted again. Its scripts hold no
index where a name may stand, functions have names of their own, and an argument count too large for
an index is too large for the declarations of any script. -/
structure Json.Recompactable (value : Json) : Prop where
  noIndex : ∀ scripts, value.scripts? = some scripts →
    scripts.EveryReference (·.index? = none) .value
  functions : ((value.scriptItems.filterMap Json.fields?).filterMap
    (Json.Fields.declaredName? .function)).Nodup
  oversize : ∀ (script : Json.Fields) count large, .obj script ∈ value.scriptItems →
    script.lookup Key.arguments = some (.num (.oversize count large)) →
      script.localDeclarations.length < count

namespace Json.Recompactable

variable {value : Json} (recompactable : value.Recompactable) {table : InvertibleTable}

include recompactable

private theorem noIndex_of_mem {item : Json} (member : item ∈ value.scriptItems) :
    item.EveryReference (·.index? = none) .value := by
  obtain ⟨items, listed, member⟩ := Json.mem_scriptItems.mp member
  exact (Json.everyItemReference_iff _ _ items).mp (recompactable.noIndex _ listed) item member

private theorem oversizeExceeds
    (tableOf : table.toSymbolTable = SymbolTable.ofScripts value.scriptItems)
    {script : Json.Fields} (member : .obj script ∈ value.scriptItems) :
    table.OversizeExceeds script := by
  intro claim count large claimed held
  have exceeds := recompactable.oversize script count large member held
  obtain ⟨defined, known, -⟩ := InvertibleTable.argumentClaim?_eq_some_iff.mp claimed
  have noIndex := recompactable.noIndex_of_mem member
  have defines := (InvertibleTable.definedFunction?_eq_some_iff noIndex _).mp defined
  have alone := Scope.definitions_eq_singleton recompactable.functions
    (Json.mem_filterMap_fields?.mpr member) defines
  rw [tableOf] at known
  have numbered := SymbolTable.localNames?_ofScripts_of_eq_some known
  rw [alone, List.flatMap_singleton] at numbered
  rw [numbered.size_eq]
  exact Nat.lt_of_le_of_lt (length_eraseDups_le _) exceeds

variable (plain : value.eraseAnnotations = value)
  (sound : ∀ item ∈ value.scriptItems,
    table.argumentFault? Json.Fields.argumentCount? item = none)

include plain sound

theorem restoreScripts {items : List Json} (listed : value.scripts? = some (.arr items)) :
    table.restoreScripts (table.toSymbolTable.resolve (.arr items)).value =
      .ok (.arr (items.map table.redeclaredItem)) := by
  obtain rfl := Json.scriptItems_of_scripts?_eq_some listed
  rw [SymbolTable.resolve_arr]
  apply table.restoreScripts_arr
  intro item member
  rw [Json.eraseAnnotations_of_mem_scriptItems plain member]
  exact InvertibleTable.restoreScript_resolveScoped_eq_redeclaredItem
    (recompactable.noIndex_of_mem member) (sound item member)

variable (distinct : value.DistinctKeys)
  (tableOf : table.toSymbolTable = SymbolTable.ofScripts value.scriptItems)

include distinct tableOf

private theorem recodes {items : List Json} (listed : value.scripts? = some (.arr items)) :
    (Json.arr items).Recodes (.arr (items.map table.redeclaredItem)) := by
  obtain rfl := Json.scriptItems_of_scripts?_eq_some listed
  have restoredPlain : ∀ item ∈ value.scriptItems,
      (table.redeclaredItem item).eraseAnnotations = table.redeclaredItem item := by
    intro item member
    apply InvertibleTable.eraseAnnotations_redeclaredItem
    exact Json.eraseAnnotations_of_mem_scriptItems plain member
  have resolved : ∀ item ∈ value.scriptItems,
      table.resolveScoped (table.redeclaredItem item).eraseAnnotations =
        table.resolveScoped item.eraseAnnotations := by
    intro item member
    rw [restoredPlain item member, Json.eraseAnnotations_of_mem_scriptItems plain member]
    apply InvertibleTable.resolveScoped_redeclaredItem (distinct.of_mem_scriptItems member)
      (sound item member)
    rintro script rfl
    exact recompactable.oversizeExceeds tableOf member
  refine ⟨?_, rfl, ?_, ?_⟩
  · simp only [Json.eraseAnnotations, Json.eraseItemAnnotations_eq_map, List.map_map]
    exact congrArg Json.arr (List.map_congr_left restoredPlain)
  · exact InvertibleTable.ofScripts_redeclaredItem tableOf
      (fun item member => recompactable.noIndex_of_mem member) recompactable.functions sound
  · simp only [Json.items?, Option.getD_some, ← tableOf, SymbolTable.resolve_arr, List.map_map,
      List.flatMap_map]
    congr 1
    · apply congrArg Json.arr
      exact List.map_congr_left fun item member => congrArg (·.value) (resolved item member)
    · exact List.flatMap_congr fun item member => congrArg (·.unresolved) (resolved item member)

private theorem exists_recodes {scripts : Json} (held : value.scripts? = some scripts) :
    ∃ restored, table.restoreScripts (table.toSymbolTable.resolve scripts).value = .ok restored ∧
      scripts.Recodes restored := by
  cases listed : scripts.items? with
  | none =>
      have scriptsPlain : scripts.eraseAnnotations = scripts := by
        have same := value.scripts?_eraseAnnotations
        rw [plain, held] at same
        exact (Option.some.inj same).symm
      have noIndex := recompactable.noIndex _ held
      rw [← scriptsPlain] at noIndex
      have kept := table.restoreScripts_of_items?_eq_none listed noIndex
      rw [scriptsPlain] at kept
      exact ⟨scripts, kept, Json.Recodes.refl scriptsPlain⟩
  | some _ =>
      cases scripts with
      | null | bool | num | str | obj => cases listed
      | arr items =>
          exact ⟨_, recompactable.restoreScripts plain sound held,
            recompactable.recodes plain sound distinct tableOf held⟩

end Json.Recompactable

private theorem Compaction.ofValue_restored (document : Document) {restored : Json}
    (recompactable : document.tree.Recompactable)
    (plain : document.tree.eraseAnnotations = document.tree)
    (decoded : (ofValue document.tree).value.restore (ofValue document.tree).table =
      .ok restored) :
    ofValue restored = ofValue document.tree := by
  obtain ⟨value, distinct⟩ := document
  obtain ⟨table, accepted⟩ := SymbolTable.exists_invertible_ofScripts value.scriptItems
  have tableOf := (SymbolTable.invertible_eq_ok_iff _ _).mp accepted
  rw [← ofValue_table] at accepted
  have sound := findSome?_argumentFault?_eq_none accepted decoded
  rw [List.findSome?_eq_none_iff] at sound
  rw [SymbolTable.restore_eq accepted] at decoded
  cases held : value.scripts? with
  | none =>
      have kept : table.restore (ofValue value).value =
          .ok (value.eraseAnnotations.withPortTables.withScripts .null) := by
        apply table.restore_ofValue_eq_withScripts
        simp [held]
      rw [plain, Json.withScripts_of_scripts?_eq_none held, decoded] at kept
      rw [Except.ok.inj kept]
      exact ofValue_withPortTables plain held
  | some scripts =>
      obtain ⟨again, scriptsRestored, recodes⟩ :=
        recompactable.exists_recodes plain sound distinct tableOf held
      rw [tableOf, ← ofValue_table] at scriptsRestored
      have replaced : table.restore (ofValue value).value =
          .ok (value.eraseAnnotations.withPortTables.withScripts again) := by
        apply table.restore_ofValue_eq_withScripts
        intro other otherHeld
        obtain rfl := Option.some.inj (held.symm.trans otherHeld)
        exact scriptsRestored
      rw [plain, decoded] at replaced
      rw [Except.ok.inj replaced]
      exact ofValue_withScripts plain distinct held recodes

/-- Compacting what a restored compaction has become gives the compaction again: the same value,
the same table and the same reports. -/
theorem Document.compact_restore (document : Document)
    (recompactable : document.tree.eraseAnnotations.Recompactable) (compaction : Compaction)
    (compacted : document.tree.compact default = .ok compaction) (restored : Json)
    (decoded : compaction.value.restore compaction.table = .ok restored) :
    restored.compact default = .ok compaction := by
  obtain rfl := Compaction.eq_ofValue_of_compact compacted
  rw [← Compaction.ofValue_eraseAnnotations] at decoded ⊢
  have plain := document.tree.eraseAnnotations_eraseAnnotations
  have recompacted :=
    Compaction.ofValue_restored document.eraseAnnotations recompactable plain decoded
  rw [Json.compact_default, recompacted]
  rfl

/-- A function that names its only argument twice and has a local variable. -/
def repeatedName : Json :=
  let declaration (name : String) := Json.obj [(NameKind.variable.key, .str name)]
  .arr [.obj [
    (Key.arguments, .arr [declaration "angle", declaration "angle"]),
    ("body", declaration "speed"), (NameKind.function.key, .str "turn"),
    (Key.locals, .arr [declaration "speed"]), (Key.kind, .str NameKind.function.key)]]

/-- The second `angle` comes back as `speed`, and the compaction of that is the same. -/
theorem Document.compact_restore_repeatedName :
    repeatedName.DistinctKeys ∧ repeatedName.eraseAnnotations.Recompactable ∧
      ∃ compaction restored, repeatedName.compact default = .ok compaction ∧
        compaction.value.restore compaction.table = .ok restored ∧
        restored ≠ repeatedName.eraseAnnotations ∧
        restored.compact default = .ok compaction := by
  have distinct : repeatedName.DistinctKeys := by decide
  have recompactable : repeatedName.eraseAnnotations.Recompactable := by
    refine ⟨?_, by decide, ?_⟩
    · intro scripts held
      obtain rfl := Option.some.inj held
      decide
    · intro script count large member held
      obtain rfl := Json.obj.inj (List.mem_singleton.mp member)
      cases held
  refine ⟨distinct, recompactable, _, _, rfl, rfl, by decide, ?_⟩
  exact Document.compact_restore ⟨_, distinct⟩ recompactable _ rfl _ rfl

end BlockNames
