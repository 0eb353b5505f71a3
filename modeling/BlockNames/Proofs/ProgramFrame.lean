import BlockNames.Proofs.Recompaction

/-!
Programs and their scripts. What stands around the scripts of a program is a frame that neither
compaction nor restoration looks at. Main statement: a program is compacted and restored as the list
of its scripts is.
-/
namespace BlockNames

namespace Json.Fields

theorem lookup_withPortTables (program : Fields) (key : String) :
    program.withPortTables.lookup key =
      (program.lookup key).or
        (if key = Key.portSettings ∨ key = Key.portParameters then some (.obj []) else none) := by
  unfold withPortTables
  rw [lookup_insertIfNew, lookup_insertIfNew, Option.or_assoc]
  by_cases settings : key = Key.portSettings <;> simp [settings]

private theorem lookup_annotation_eraseFieldAnnotations (fields : Fields) :
    (eraseFieldAnnotations fields).lookup Key.annotation = none := by
  have erased : Key.annotation ∉ (eraseFieldAnnotations fields).map Prod.fst := by
    rw [keys_eraseFieldAnnotations]
    simp
  by_contra kept
  obtain ⟨value, held⟩ := Option.ne_none_iff_exists'.mp kept
  exact erased (List.mem_map_of_mem (mem_of_lookup_eq_some held))

/-- What compaction puts around compacted scripts: the other fields of the program without their
annotations, and a table of each kind for the ports. -/
def frame (program : Fields) (scripts : Json) : Fields :=
  (Fields.replace (eraseFieldAnnotations program) Key.scripts scripts).withPortTables

theorem lookup_frame (program : Fields) (scripts : Json) {key : String}
    (other : key ≠ Key.scripts) :
    (program.frame scripts).lookup key =
      if key = Key.annotation then none
      else ((program.lookup key).map eraseAnnotations).or
        (if key = Key.portSettings ∨ key = Key.portParameters then some (.obj []) else none) := by
  rw [frame, lookup_withPortTables, lookup_replace_of_ne _ _ other]
  by_cases annotation : key = Key.annotation
  · rw [if_pos annotation, annotation, lookup_annotation_eraseFieldAnnotations]
    rfl
  · rw [if_neg annotation, lookup_eraseFieldAnnotations program annotation]

theorem nodup_keys_frame {program : Fields} (distinct : (program.map Prod.fst).Nodup)
    (scripts : Json) : ((program.frame scripts).map Prod.fst).Nodup := by
  apply nodup_keys_withPortTables
  rw [keys_replace, keys_eraseFieldAnnotations]
  exact List.Nodup.filter _ distinct

end Json.Fields

private theorem Compaction.ofValue_obj_eq_frame {program : Json.Fields} {items : List Json}
    (distinct : (program.map Prod.fst).Nodup)
    (held : program.lookup Key.scripts = some (.arr items)) :
    ofValue (.obj program) =
      { ofValue (.arr items) with value := .obj (program.frame (ofValue (.arr items)).value) } := by
  rw [ofValue_obj distinct held, ofValue_arr]
  rfl

private theorem Compaction.enforce_mapValue (options : Options) (compaction : Compaction)
    (change : Json → Json) :
    enforce options { compaction with value := change compaction.value } =
      (enforce options compaction).map fun kept => { kept with value := change kept.value } := by
  obtain ⟨policy⟩ := options
  obtain ⟨value, table, unresolved⟩ := compaction
  cases policy <;> cases unresolved <;> rfl

theorem InvertibleTable.restore_obj (table : InvertibleTable) {program : Json.Fields}
    {items : List Json} (held : program.lookup Key.scripts = some (.arr items)) :
    table.restore (.obj program) =
      (table.restore (.arr items)).map fun restored =>
        .obj (program.replace Key.scripts restored) := by
  simp only [restore, held]
  cases table.restoreScripts (.arr items) <;> rfl

/-- A program is compacted and restored as the list of its scripts is. A failure is the same. A
compaction differs in its value only, which stands in the frame of the program: that has the other
fields without annotations and adds no keys but those of missing port tables. A restoration leaves
the other fields as they are. -/
theorem Json.compact_and_restore_obj (program : Json.Fields) (items : List Json)
    (distinct : (program.map Prod.fst).Nodup)
    (held : program.lookup Key.scripts = some (.arr items)) :
    (∀ options, (Json.obj program).compact options =
      ((Json.arr items).compact options).map fun compaction =>
        { compaction with value := .obj (program.frame compaction.value) }) ∧
    (∀ scripts, ((program.frame scripts).map Prod.fst).Nodup ∧
      (program.frame scripts).lookup Key.scripts = some scripts ∧
      ∀ key, key ≠ Key.scripts → (program.frame scripts).lookup key =
        if key = Key.annotation then none
        else ((program.lookup key).map eraseAnnotations).or
          (if key = Key.portSettings ∨ key = Key.portParameters then some (.obj []) else none)) ∧
    ∀ table, (Json.obj program).restore table =
      ((Json.arr items).restore table).map fun restored =>
        .obj (program.replace Key.scripts restored) := by
  refine ⟨fun options => ?_, fun scripts => ⟨?_, ?_, ?_⟩, fun table => ?_⟩
  · rw [compact, Compaction.ofValue_obj_eq_frame distinct held]
    exact Compaction.enforce_mapValue options _ fun value => .obj (program.frame value)
  · exact Fields.nodup_keys_frame distinct scripts
  · rw [Fields.frame, Fields.lookup_scripts_withPortTables, Fields.lookup_replace_self,
      lookup_eraseFieldAnnotations program (by decide), held]
    rfl
  · exact fun key other => program.lookup_frame scripts other
  · unfold restore
    cases table.invertible with
    | error error => rfl
    | ok inverse => exact inverse.restore_obj held

def strayScripts : List Json :=
  [.obj [(Key.arguments, Json.index 1), (NameKind.function.key, Json.index 0),
      (Key.kind, .str NameKind.function.key)],
    .obj [(NameKind.variable.key, .str "speed")]]

/-- A program with a title, an annotated port and an annotation of its own. -/
def titledProgram : Json.Fields :=
  [(Key.portSettings, .obj [("left", .obj [(Key.annotation, .null)])]), (Key.annotation, .null),
    (Key.scripts, .arr strayScripts), ("title", .str "maze")]

theorem Json.compact_and_restore_obj_titledProgram :
    (Json.obj titledProgram).compact ⟨.reject⟩ =
        .error (.unresolvedNames [⟨.name .variable, "speed", none⟩]) ∧
      (Json.obj titledProgram).compact default = .ok
        { value := .obj [(Key.portParameters, .obj []),
            (Key.portSettings, .obj [("left", .obj [])]), (Key.scripts, .arr strayScripts),
            ("title", .str "maze")]
          unresolved := [⟨.name .variable, "speed", none⟩] } ∧
      (titledProgram.frame .null).lookup Key.portParameters = some (.obj []) ∧
      (Json.obj titledProgram).restore
          { locals := OrderedMap.ofList [("turn", ∅)]
            functionNames := OrderedMap.ofList [("turn", 0)] } =
        .error (.argumentCount "turn" 1 0) := by
  obtain ⟨compacted, frame, restored⟩ :=
    Json.compact_and_restore_obj titledProgram strayScripts (by decide) rfl
  exact ⟨(compacted ⟨.reject⟩).trans rfl, (compacted default).trans rfl,
    ((frame .null).2.2 _ (by decide)).trans rfl, (restored _).trans rfl⟩

end BlockNames
