import BlockNames.Proofs.Inversion
import BlockNames.Wire.Compaction

/-!
Reading what was written. The fields of an object are stored one by one, in whatever order they
stand, so what has been read of a record depends only on which of its keys have been met. Main
statement: compactions, tables and the names that stayed are read back from their written forms, and
a table also from an object that leaves out what is empty and has further keys.
-/
namespace BlockNames

private theorem OrderedMap.ofList_entries {α : Type} (map : OrderedMap String α) :
    ofList map.entries = map := by
  refine OrderedMap.ext fun key => Option.ext fun value => ?_
  rw [get?_ofList_eq_some_iff map.nodup_keys, get?_eq_some_iff]

namespace Json

variable {α : Type} {read : Json → Except ReadError α} {write : α → Json}

private theorem readList_written (readBack : ∀ value, read (write value) = .ok value)
    (items : List α) :
    (Json.arr (items.map write)).readList read = .ok items := by
  have each : ∀ item ∈ items, (read ∘ write) item = .ok (id item) := fun item _ => readBack item
  change (items.map write).mapM read = .ok items
  rw [List.mapM_map, Except.mapM_eq_ok each, List.map_id]

private theorem readMap_written (readBack : ∀ value, read (write value) = .ok value)
    (map : OrderedMap String α) :
    (Json.obj (map.entries.map fun entry => (entry.1, write entry.2))).readMap read = .ok map := by
  have each : ∀ entry ∈ map.entries,
      (entry.1, ·) <$> read (write entry.2) = .ok (id entry) := by
    intro entry _
    rw [readBack]
    rfl
  change OrderedMap.ofList <$> (map.entries.map fun entry => (entry.1, write entry.2)).mapM
    (fun field => (field.1, ·) <$> read field.2) = _
  rw [List.mapM_map, Function.comp_def, Except.mapM_eq_ok each, List.map_id]
  exact congrArg Except.ok map.ofList_entries

end Json

/-- `fields` is the object `written` with some keys left out that hold an empty object, and with
further keys. -/
structure Json.Fields.Amended (written fields : Json.Fields) : Prop where
  kept : ∀ {key value other}, written.lookup key = some value → (key, other) ∈ fields →
    other = value
  leftOut : ∀ {key value}, written.lookup key = some value → fields.lookup key = none →
    value = .obj []

namespace RecordFormat

variable {ρ : Type} {format : RecordFormat ρ} {written : Json.Fields} {read : (String → Bool) → ρ}

/-- `read met` is the record after the fields of `written` whose keys are in `met`. -/
structure Reads (format : RecordFormat ρ) (written : Json.Fields) (read : (String → Bool) → ρ) :
    Prop where
  initial : read (fun _ => false) = format.initial
  stored : ∀ field ∈ format.fields, ∀ {value}, written.lookup field.key = some value → ∀ met,
    field.store (read met) value = .ok (read fun key => key == field.key || met key)
  determined : ∀ {met other}, (∀ field ∈ format.fields, met field.key = other field.key) →
    read met = read other

/-- Where an object has a field of the record, it holds what was written there. -/
def Keeps (format : RecordFormat ρ) (written fields : Json.Fields) : Prop :=
  ∀ field ∈ format.fields, ∀ value, (field.key, value) ∈ fields →
    written.lookup field.key = some value

theorem Reads.storeField (reads : format.Reads written read) {key : String} {value : Json}
    (kept : ∀ field ∈ format.fields, field.key = key → written.lookup key = some value)
    (met : String → Bool) :
    format.storeField (read met) (key, value) =
      .ok (read fun other => other == key || met other) := by
  unfold RecordFormat.storeField
  split
  next known found =>
    have same : known.key = key := by simpa using List.find?_some found
    have member := List.mem_of_find?_eq_some found
    subst same
    exact reads.stored known member (kept known member rfl) met
  -- An unknown key adds nothing to what has been met.
  next missing =>
    refine congrArg Except.ok (reads.determined fun field member => ?_)
    have foreign : (field.key == key) = false := by
      simpa using List.find?_eq_none.mp missing field member
    rw [foreign, Bool.false_or]

private theorem Reads.storeFields (reads : format.Reads written read) {fields : Json.Fields}
    (kept : format.Keeps written fields) (met : String → Bool) :
    fields.foldlM format.storeField (read met) =
      .ok (read fun key => (fields.lookup key).isSome || met key) := by
  -- The keys that were met are a set, so the induction forgets the order of the fields.
  induction fields generalizing met with
  | nil => rfl
  | cons head rest induction =>
      obtain ⟨key, value⟩ := head
      have keptHere : ∀ field ∈ format.fields, field.key = key →
          written.lookup key = some value := by
        rintro field member rfl
        exact kept field member value List.mem_cons_self
      have keptLater : format.Keeps written rest :=
        fun field member other later => kept field member other (List.mem_cons_of_mem _ later)
      rw [List.foldlM_cons, reads.storeField keptHere]
      refine (induction keptLater _).trans (congrArg (Except.ok ∘ read) (funext fun other => ?_))
      rw [List.lookup_cons]
      cases other == key with
      | true => simp only [Bool.true_or, Bool.or_true, Option.isSome_some]
      | false => simp only [Bool.false_or]

private theorem Reads.read_obj (reads : format.Reads written read) {fields : Json.Fields}
    (kept : format.Keeps written fields)
    (complete : ∀ field ∈ format.fields, field.required = true →
      (fields.lookup field.key).isSome = true) :
    format.read (.obj fields) = .ok (read fun key => (fields.lookup key).isSome) := by
  have nothingMissing : (format.fields.find? fun field =>
      field.required && (fields.lookup field.key).isNone) = none := by
    refine List.find?_eq_none.mpr fun field member missing => ?_
    obtain ⟨required, absent⟩ := Bool.and_eq_true_iff.mp missing
    have held := complete field member required
    rw [Option.isNone_iff_eq_none.mp absent] at held
    cases held
  have stored := reads.storeFields kept fun _ => false
  simp only [reads.initial, Bool.or_false] at stored
  change format.readObject fields = _
  unfold readObject
  rw [stored]
  simp only [bind, Except.bind, nothingMissing]

theorem Reads.read_written (reads : format.Reads written read)
    (distinct : (written.map Prod.fst).Nodup)
    (complete : ∀ field ∈ format.fields, (written.lookup field.key).isSome = true) :
    format.read (.obj written) = .ok (read fun _ => true) := by
  have kept : format.Keeps written written :=
    fun _ _ _ member => Json.Fields.lookup_eq_some_of_mem distinct member
  have everyField : read (fun key => (written.lookup key).isSome) = read fun _ => true :=
    reads.determined complete
  rw [reads.read_obj kept fun field member _ => complete field member, everyField]

end RecordFormat

theorem Namespace.ofJson_toJson (names : Namespace) :
    Namespace.ofJson names.toJson = .ok names := by
  have readBack : ∀ index, Json.readIndex (Json.index index) = .ok index := fun _ => rfl
  exact Json.readMap_written readBack names

namespace SymbolTable

private theorem read_eventToJson (event : Option Namespace) :
    eventFormat.read (eventToJson event) = .ok event := by
  cases event with
  | none => rfl
  | some names =>
      have stored : eventFormat.storeField none (Key.locals, names.toJson) = .ok (some names) :=
        congrArg (some <$> ·) names.ofJson_toJson
      change (eventFormat.storeField none (Key.locals, names.toJson) >>= pure) >>= _ = _
      rw [stored]
      rfl

/-- A table without what it holds under other keys than those in `met`. -/
def restrict (table : SymbolTable) (met : String → Bool) : SymbolTable where
  event := if met eventHandlerKind then table.event else none
  locals := if met Key.locals then table.locals else ∅
  functionNames := if met NameKind.function.key then table.functionNames else ∅
  listNames := if met NameKind.list.key then table.listNames else ∅
  variableNames := if met NameKind.variable.key then table.variableNames else ∅
  imageNames := if met NameKind.image.key then table.imageNames else ∅

section Written

variable {table : SymbolTable} {written : Json.Fields} (isWritten : table.toJson = .obj written)
include isWritten

private theorem reads_restrict : format.Reads written table.restrict where
  initial := rfl
  stored := by
    cases isWritten
    intro field member value held met
    simp only [format, List.mem_cons, List.not_mem_nil, or_false] at member
    rcases member with rfl | rfl | rfl | rfl | rfl | rfl
    · obtain rfl := Option.some.inj held
      simp only [read_eventToJson]
      rfl
    · obtain rfl := Option.some.inj held
      have readLocals := Json.readMap_written Namespace.ofJson_toJson table.locals
      simp only [readLocals]
      rfl
    all_goals
      obtain rfl := Option.some.inj held
      simp only [namesField, Namespace.ofJson_toJson]
      rfl
  determined := by
    intro met other agree
    simp only [format, namesField, List.forall_mem_cons] at agree
    obtain ⟨atEvent, atLocals, atFunction, atList, atVariable, atImage, -⟩ := agree
    simp only [restrict, atEvent, atLocals, atFunction, atList, atVariable, atImage]

private theorem written_complete :
    ∀ field ∈ format.fields, (written.lookup field.key).isSome = true := by
  cases isWritten
  intro field member
  simp only [format, List.mem_cons, List.not_mem_nil, or_false] at member
  rcases member with rfl | rfl | rfl | rfl | rfl | rfl <;> rfl

end Written

private theorem eq_empty_of_written {α : Type} {map : OrderedMap String α}
    {write : String × α → String × Json}
    (written : Json.obj (map.entries.map write) = .obj []) : map = ∅ := by
  obtain ⟨entries, ascending⟩ := map
  obtain rfl := List.map_eq_nil_iff.mp (Json.obj.inj written)
  rfl

private theorem eq_none_of_written {event : Option Namespace}
    (written : eventToJson event = .obj []) : event = none := by
  cases event with
  | none => rfl
  | some names => cases Json.obj.inj written

private theorem restricted_eq {α : Type} {met : Bool} {content empty : α}
    (leftOut : met = false → content = empty) : (if met then content else empty) = content := by
  cases met with
  | true => rfl
  | false => exact (leftOut rfl).symm

/-- Nothing is lost under keys that stand for nothing. -/
private theorem restrict_eq_self {table : SymbolTable} {written : Json.Fields}
    (isWritten : table.toJson = .obj written) {met : String → Bool}
    (empty : ∀ key {value}, written.lookup key = some value → met key = false → value = .obj []) :
    table.restrict met = table := by
  cases isWritten
  have atEvent : (if met eventHandlerKind then table.event else none) = table.event :=
    restricted_eq fun leftOut => eq_none_of_written (empty eventHandlerKind rfl leftOut)
  have atLocals : (if met Key.locals then table.locals else ∅) = table.locals :=
    restricted_eq fun leftOut => eq_empty_of_written (empty Key.locals rfl leftOut)
  have atKind : ∀ kind : NameKind,
      (if met kind.key then table.globalNames kind else ∅) = table.globalNames kind := by
    intro kind
    have isHeld : ∀ {names : Namespace}, names.toJson = .obj [] → names = ∅ := eq_empty_of_written
    refine restricted_eq fun leftOut => isHeld (empty kind.key ?_ leftOut)
    cases kind <;> rfl
  have atFunction := atKind .function
  have atList := atKind .list
  have atVariable := atKind .variable
  have atImage := atKind .image
  simp only [globalNames] at atFunction atList atVariable atImage
  simp only [restrict, atEvent, atLocals, atFunction, atList, atVariable, atImage]

theorem ofJson_amended {table : SymbolTable} {written fields : Json.Fields}
    (isWritten : table.toJson = .obj written) (amended : written.Amended fields) :
    SymbolTable.ofJson (.obj fields) = .ok table := by
  have kept : format.Keeps written fields := by
    intro field member value held
    obtain ⟨stored, isStored⟩ :=
      Option.isSome_iff_exists.mp (written_complete isWritten field member)
    rw [amended.kept isStored held, isStored]
  have noneRequired : ∀ field ∈ format.fields, field.required = true →
      (fields.lookup field.key).isSome = true := by
    intro field member required
    simp only [format, namesField, List.mem_cons, List.not_mem_nil, or_false] at member
    rcases member with rfl | rfl | rfl | rfl | rfl | rfl <;> cases required
  have leftOut : ∀ key {value}, written.lookup key = some value →
      (fields.lookup key).isSome = false → value = .obj [] := by
    intro key value isWritten absent
    rw [Option.isSome_eq_false_iff, Option.isNone_iff_eq_none] at absent
    exact amended.leftOut isWritten absent
  unfold SymbolTable.ofJson
  rw [(reads_restrict isWritten).read_obj kept noneRequired, restrict_eq_self isWritten leftOut]

theorem ofJson_toJson (table : SymbolTable) : SymbolTable.ofJson table.toJson = .ok table := by
  have distinct : [NameKind.function.key, NameKind.image.key, NameKind.list.key, Key.locals,
    NameKind.variable.key, eventHandlerKind].Nodup := by decide
  exact (reads_restrict rfl).read_written distinct (written_complete rfl)

end SymbolTable

namespace UnresolvedName

private theorem readKind_word (kind : ReferenceKind) : readKind (.str kind.word) = .ok kind := by
  cases kind with
  | binding => rfl
  | name kind => cases kind <;> rfl

private theorem readOption_scope (scope : Option String) :
    ((scope.map Json.str).getD .null).readOption Json.readString = .ok scope := by
  cases scope <;> rfl

def restrict (unresolved : UnresolvedName) (met : String → Bool) : UnresolvedName where
  kind := if met "kind" then unresolved.kind else format.initial.kind
  name := if met "name" then unresolved.name else format.initial.name
  scope := if met "scope" then unresolved.scope else format.initial.scope

private theorem reads_restrict {unresolved : UnresolvedName} {written : Json.Fields}
    (isWritten : unresolved.toJson = .obj written) :
    format.Reads written unresolved.restrict where
  initial := rfl
  stored := by
    cases isWritten
    intro field member value held met
    simp only [format, List.mem_cons, List.not_mem_nil, or_false] at member
    rcases member with rfl | rfl | rfl
    · obtain rfl := Option.some.inj held
      simp only [readKind_word]
      rfl
    · obtain rfl := Option.some.inj held
      rfl
    · obtain rfl := Option.some.inj held
      simp only [readOption_scope]
      rfl
  determined := by
    intro met other agree
    simp only [format, List.forall_mem_cons] at agree
    obtain ⟨atKind, atName, atScope, -⟩ := agree
    simp only [restrict, atKind, atName, atScope]

theorem ofJson_toJson (unresolved : UnresolvedName) :
    UnresolvedName.ofJson unresolved.toJson = .ok unresolved := by
  have distinct : ["kind", "name", "scope"].Nodup := by decide
  refine (reads_restrict rfl).read_written distinct fun field member => ?_
  simp only [format, List.mem_cons, List.not_mem_nil, or_false] at member
  rcases member with rfl | rfl | rfl <;> rfl

end UnresolvedName

namespace Compaction

def restrict (compaction : Compaction) (met : String → Bool) : Compaction where
  value := if met "value" then compaction.value else format.initial.value
  table := if met "table" then compaction.table else format.initial.table
  unresolved := if met "unresolved" then compaction.unresolved else format.initial.unresolved

private theorem reads_restrict {compaction : Compaction} {written : Json.Fields}
    (isWritten : compaction.toJson = .obj written) :
    format.Reads written compaction.restrict where
  initial := rfl
  stored := by
    cases isWritten
    intro field member value held met
    simp only [format, List.mem_cons, List.not_mem_nil, or_false] at member
    rcases member with rfl | rfl | rfl
    · obtain rfl := Option.some.inj held
      rfl
    · obtain rfl := Option.some.inj held
      simp only [SymbolTable.ofJson_toJson]
      rfl
    · obtain rfl := Option.some.inj held
      have readUnresolved :=
        Json.readList_written UnresolvedName.ofJson_toJson compaction.unresolved
      simp only [readUnresolved]
      rfl
  determined := by
    intro met other agree
    simp only [format, List.forall_mem_cons] at agree
    obtain ⟨atValue, atTable, atUnresolved, -⟩ := agree
    simp only [restrict, atValue, atTable, atUnresolved]

theorem ofJson_toJson (compaction : Compaction) :
    Compaction.ofJson compaction.toJson = .ok compaction := by
  have distinct : ["table", "unresolved", "value"].Nodup := by decide
  refine (reads_restrict rfl).read_written distinct fun field member => ?_
  simp only [format, List.mem_cons, List.not_mem_nil, or_false] at member
  rcases member with rfl | rfl | rfl <;> rfl

end Compaction

/-- Every compaction, table and name that stayed is read back from its written form. A table is
also read back from an object in which keys that hold an empty object are left out and unknown keys
are added, in whatever order the fields stand. -/
theorem ofJson_written :
    (∀ compaction : Compaction, Compaction.ofJson compaction.toJson = .ok compaction) ∧
    (∀ table : SymbolTable, SymbolTable.ofJson table.toJson = .ok table) ∧
    (∀ unresolved : UnresolvedName,
      UnresolvedName.ofJson unresolved.toJson = .ok unresolved) ∧
    ∀ (table : SymbolTable) (written fields : Json.Fields), table.toJson = .obj written →
      written.Amended fields → SymbolTable.ofJson (.obj fields) = .ok table :=
  ⟨Compaction.ofJson_toJson, SymbolTable.ofJson_toJson, UnresolvedName.ofJson_toJson,
    fun _ _ _ isWritten amended => SymbolTable.ofJson_amended isWritten amended⟩

/-- A table with an empty event handler and names that are keys of the written form, without its
empty namespaces and with an unknown key. -/
theorem ofJson_written_sparseTable :
    SymbolTable.ofJson (.obj [("version", .index 2),
      ("locals", .obj [("locals", .obj [("function", .index (-1))])]),
      ("when-green-flag-clicked", .obj [("locals", .obj [])])]) =
    .ok {
      event := some ∅
      locals := OrderedMap.ofList [("locals", .ofList [("function", -1)])] } := by
  refine ofJson_written.2.2.2 _ _ _ rfl ⟨?_, ?_⟩
  · intro key value other stored held
    simp only [List.mem_cons, List.not_mem_nil, or_false, Prod.mk.injEq] at held
    rcases held with ⟨rfl, rfl⟩ | ⟨rfl, rfl⟩ | ⟨rfl, rfl⟩
    · cases stored
    · exact Option.some.inj stored
    · exact Option.some.inj stored
  · intro key value stored absent
    have member := Json.Fields.mem_of_lookup_eq_some stored
    simp only [List.mem_cons, List.not_mem_nil, or_false, Prod.mk.injEq] at member
    rcases member with ⟨rfl, rfl⟩ | ⟨rfl, rfl⟩ | ⟨rfl, rfl⟩ | ⟨rfl, rfl⟩ | ⟨rfl, rfl⟩ | ⟨rfl, rfl⟩
    · rfl
    · rfl
    · rfl
    · cases absent
    · rfl
    · cases absent

end BlockNames
