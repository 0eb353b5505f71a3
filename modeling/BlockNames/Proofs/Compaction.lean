import BlockNames.Compaction
import BlockNames.Proofs.Declaration
import BlockNames.Proofs.ScopedResolution

/-!
Compaction of whole values. Programs and bare lists are compacted alike: the table is that of the
scripts, the scripts are resolved with it, and what surrounds them only loses its annotations and
gains its missing port tables.
-/
namespace BlockNames

def Json.scripts? : Json → Option Json
  | .obj program => program.lookup Key.scripts
  | .arr items => some (.arr items)
  | .null | .bool _ | .num _ | .str _ => none

def Json.scriptItems (value : Json) : List Json :=
  (value.scripts?.bind Json.items?).getD []

theorem Json.mem_scriptItems {value item : Json} :
    item ∈ value.scriptItems ↔ ∃ items, value.scripts? = some (.arr items) ∧ item ∈ items := by
  unfold Json.scriptItems
  constructor
  · intro member
    cases held : value.scripts? with
    | none => simp [held] at member
    | some scripts =>
        rw [held] at member
        cases scripts with
        | arr items => exact ⟨items, rfl, member⟩
        | null | bool | num | str | obj => cases member
  · rintro ⟨items, held, member⟩
    rw [held]
    exact member

theorem Json.scripts?_eraseAnnotations (value : Json) :
    value.eraseAnnotations.scripts? = value.scripts?.map eraseAnnotations := by
  cases value with
  | null | bool | num | str | arr => rfl
  | obj program => exact Json.lookup_eraseFieldAnnotations program (by decide)

theorem Json.scriptItems_eraseAnnotations (value : Json) :
    value.eraseAnnotations.scriptItems = value.scriptItems.map eraseAnnotations := by
  unfold Json.scriptItems
  rw [Json.scripts?_eraseAnnotations]
  cases value.scripts? with
  | none => rfl
  | some scripts =>
      simp only [Option.map_some, Option.bind_some, Json.items?_eraseAnnotations]
      cases scripts.items? <;> rfl

theorem Json.DistinctKeys.scripts {value scripts : Json} (distinct : value.DistinctKeys)
    (held : value.scripts? = some scripts) : scripts.DistinctKeys := by
  cases value with
  | null | bool | num | str => cases held
  | arr items =>
      cases held
      exact distinct
  | obj program =>
      have fieldsDistinct := (Json.distinctFieldKeys_iff program).mp distinct.2
      exact fieldsDistinct _ (Json.Fields.mem_of_lookup_eq_some held)

namespace Json

theorem scriptItems_of_scripts?_eq_some {value : Json} {items : List Json}
    (listed : value.scripts? = some (.arr items)) : value.scriptItems = items := by
  rw [scriptItems, listed]
  rfl

theorem DistinctKeys.of_mem_scriptItems {value item : Json} (distinct : value.DistinctKeys)
    (member : item ∈ value.scriptItems) : item.DistinctKeys := by
  obtain ⟨items, listed, member⟩ := mem_scriptItems.mp member
  exact (distinctItemKeys_iff items).mp (distinct.scripts listed) item member

theorem eraseAnnotations_of_mem_scriptItems {value item : Json}
    (plain : value.eraseAnnotations = value) (member : item ∈ value.scriptItems) :
    item.eraseAnnotations = item := by
  have same := value.scriptItems_eraseAnnotations
  rw [plain] at same
  exact List.map_inj_left.mp (same.symm.trans (List.map_id _).symm) item member

end Json

/-- A program with an empty table of each kind for its ports unless it has one. -/
def Json.Fields.withPortTables (program : Json.Fields) : Json.Fields :=
  (program.insertIfNew Key.portSettings (.obj [])).insertIfNew Key.portParameters (.obj [])

namespace Json.Fields

theorem lookup_scripts_withPortTables (program : Fields) :
    program.withPortTables.lookup Key.scripts = program.lookup Key.scripts := by
  unfold withPortTables
  rw [lookup_insertIfNew_of_ne _ _ (by decide), lookup_insertIfNew_of_ne _ _ (by decide)]

theorem replace_scripts_withPortTables (program : Fields) (scripts : Json) :
    program.withPortTables.replace Key.scripts scripts =
      (program.replace Key.scripts scripts).withPortTables := by
  unfold withPortTables
  rw [replace_insertIfNew _ _ _ (by decide), replace_insertIfNew _ _ _ (by decide)]

theorem nodup_keys_withPortTables {program : Fields} (distinct : (program.map Prod.fst).Nodup) :
    (program.withPortTables.map Prod.fst).Nodup :=
  nodup_keys_insertIfNew (nodup_keys_insertIfNew distinct _ _) _ _

theorem withPortTables_withPortTables (program : Fields) :
    program.withPortTables.withPortTables = program.withPortTables := by
  have settings : (program.withPortTables.lookup Key.portSettings).isSome := by
    unfold withPortTables
    rw [lookup_insertIfNew_of_ne _ _ (by decide)]
    exact isSome_lookup_insertIfNew program _ _
  have parameters : (program.withPortTables.lookup Key.portParameters).isSome :=
    isSome_lookup_insertIfNew _ _ _
  have unchanged : program.withPortTables.insertIfNew Key.portSettings (.obj []) =
      program.withPortTables := if_pos settings
  change (program.withPortTables.insertIfNew _ _).insertIfNew _ _ = _
  rw [unchanged]
  exact if_pos parameters

theorem eraseFieldAnnotations_withPortTables {program : Fields}
    (plain : eraseFieldAnnotations program = program) :
    eraseFieldAnnotations program.withPortTables = program.withPortTables := by
  rw [eraseFieldAnnotations_eq_self_iff] at plain ⊢
  intro field member
  rcases mem_insertIfNew member with rfl | member
  · exact ⟨by decide, rfl⟩
  rcases mem_insertIfNew member with rfl | member
  · exact ⟨by decide, rfl⟩
  · exact plain field member

end Json.Fields

def SymbolTable.compactFields (table : SymbolTable) (program : Json.Fields) : Json.Fields :=
  (program.filter (·.1 ≠ Key.annotation)).map fun (key, value) =>
    (key, if key = Key.scripts then (table.resolve value).value else value.eraseAnnotations)

namespace SymbolTable

theorem compactFields_cons (table : SymbolTable) (key : String) (value : Json)
    (rest : Json.Fields) :
    table.compactFields ((key, value) :: rest) =
      if key = Key.annotation then table.compactFields rest
      else (key, if key = Key.scripts then (table.resolve value).value
        else value.eraseAnnotations) :: table.compactFields rest := by
  unfold compactFields
  split
  next erased => rw [List.filter_cons_of_neg (by simp [erased])]
  next kept =>
    rw [List.filter_cons_of_pos (by simp [kept])]
    rfl

theorem lookup_scripts_compactFields (table : SymbolTable) (program : Json.Fields) :
    (table.compactFields program).lookup Key.scripts =
      (program.lookup Key.scripts).map fun scripts => (table.resolve scripts).value := by
  induction program with
  | nil => rfl
  | cons field rest induction =>
      obtain ⟨key, value⟩ := field
      rw [compactFields_cons]
      split
      next erased =>
        have skipped : (Key.scripts == key) = false := by
          rw [erased]
          decide
        rw [induction, List.lookup_cons, skipped]
      next =>
        rw [List.lookup_cons, List.lookup_cons]
        cases equal : Key.scripts == key with
        | true => simp only [if_pos (eq_of_beq equal).symm, Option.map_some]
        | false => exact induction

private theorem compactFields_eraseFieldAnnotations (table : SymbolTable) (program : Json.Fields) :
    table.compactFields (Json.eraseFieldAnnotations program) = table.compactFields program := by
  induction program with
  | nil => rfl
  | cons field rest induction =>
      obtain ⟨key, value⟩ := field
      rw [compactFields_cons, Json.eraseFieldAnnotations]
      split
      next => exact induction
      next kept =>
        rw [compactFields_cons, if_neg kept, induction, resolve_eraseAnnotations,
          Json.eraseAnnotations_eraseAnnotations]

theorem replace_scripts_compactFields (table : SymbolTable) (program : Json.Fields)
    (scripts : Json) :
    (table.compactFields program).replace Key.scripts scripts =
      Json.Fields.replace (Json.eraseFieldAnnotations program) Key.scripts scripts := by
  induction program with
  | nil => rfl
  | cons field rest induction =>
      obtain ⟨key, value⟩ := field
      rw [compactFields_cons, Json.eraseFieldAnnotations]
      split
      · exact induction
      · rw [Json.Fields.replace_cons, Json.Fields.replace_cons, induction]
        split <;> rfl

theorem compactFields_of_lookup_eq_none (table : SymbolTable) {program : Json.Fields}
    (absent : program.lookup Key.scripts = none) :
    table.compactFields program = Json.eraseFieldAnnotations program := by
  have same := table.replace_scripts_compactFields program .null
  rwa [Json.Fields.replace_of_lookup_eq_none (by rw [lookup_scripts_compactFields, absent]; rfl),
    Json.Fields.replace_of_lookup_eq_none
      (by rw [Json.lookup_eraseFieldAnnotations program (by decide), absent]; rfl)] at same

theorem compactFields_of_lookup_eq_some (table : SymbolTable) {program : Json.Fields}
    (distinct : (program.map Prod.fst).Nodup) {scripts : Json}
    (held : program.lookup Key.scripts = some scripts) :
    table.compactFields program =
      Json.Fields.replace (Json.eraseFieldAnnotations program) Key.scripts
        (table.resolve scripts).value := by
  have keys := congrArg (List.map Prod.fst) (table.replace_scripts_compactFields program .null)
  rw [Json.Fields.keys_replace, Json.Fields.keys_replace, Json.keys_eraseFieldAnnotations] at keys
  rw [← replace_scripts_compactFields, Json.Fields.replace_eq_self]
  · rw [keys]
    exact List.Nodup.filter _ distinct
  · rw [lookup_scripts_compactFields, held, Option.map_some]

end SymbolTable

namespace Compaction

theorem ofProgram_value (program : Json.Fields) :
    (ofProgram program).value =
      .obj ((SymbolTable.ofScripts (Json.obj program).scriptItems).compactFields
        program).withPortTables := rfl

theorem ofValue_arr (items : List Json) : ofValue (.arr items) = ofScripts items := by
  cases items <;> rfl

theorem ofValue_table (value : Json) :
    (ofValue value).table = SymbolTable.ofScripts value.scriptItems := by
  cases value with
  | null | bool | num | str | obj => rfl
  | arr items => cases items <;> rfl

theorem ofValue_unresolved (value : Json) :
    (ofValue value).unresolved =
      (value.scripts?.map fun scripts =>
        ((ofValue value).table.resolve scripts).unresolved).getD [] := by
  cases value with
  | null | bool | num | str => rfl
  | arr items => cases items <;> rfl
  | obj program =>
      simp only [ofValue, ofProgram, Option.map_map]
      rfl

theorem scripts?_ofValue (value : Json) :
    (ofValue value).value.scripts? =
      value.scripts?.map fun scripts => ((ofValue value).table.resolve scripts).value := by
  cases value with
  | null | bool | num | str => rfl
  | arr items => cases items <;> rfl
  | obj program =>
      rw [ofValue_table]
      simp only [ofValue, ofProgram_value, Json.scripts?]
      rw [Json.Fields.lookup_scripts_withPortTables, SymbolTable.lookup_scripts_compactFields]

theorem ofValue_eraseAnnotations (value : Json) :
    ofValue value.eraseAnnotations = ofValue value := by
  have table : (ofValue value.eraseAnnotations).table = (ofValue value).table := by
    rw [ofValue_table, ofValue_table, Json.scriptItems_eraseAnnotations,
      SymbolTable.ofScripts_eraseAnnotations]
  ext1
  · cases value with
    | null | bool | num | str => rfl
    | arr items =>
        have resolved := (SymbolTable.ofScripts items).resolve_eraseAnnotations (.arr items)
        rw [Json.eraseAnnotations, Json.eraseItemAnnotations_eq_map] at resolved ⊢
        simp only [ofValue_arr, ofScripts, SymbolTable.ofScripts_eraseAnnotations, resolved]
    | obj program =>
        rw [ofValue_table, ofValue_table] at table
        simp only [Json.eraseAnnotations, ofValue, ofProgram_value] at table ⊢
        rw [table, SymbolTable.compactFields_eraseFieldAnnotations]
  · exact table
  · rw [ofValue_unresolved, ofValue_unresolved, table, Json.scripts?_eraseAnnotations,
      Option.map_map]
    simp only [Function.comp_def, SymbolTable.resolve_eraseAnnotations]

end Compaction

theorem Json.compact_default (value : Json) :
    value.compact default = .ok (Compaction.ofValue value) := rfl

end BlockNames
