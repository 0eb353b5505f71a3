import BlockNames.Proofs.Slot

/-!
The first fault of a table. The namespaces of a table are checked one after the other, and each of
them in the order of its names. Main statement: a table is refused exactly if a namespace is out of
its numbering or gives one index to two names, and then the first entry of the first such namespace
is reported; any other table is read backwards without loss.
-/
namespace BlockNames

private theorem OrderedMap.mem_before_iff {κ α : Type} [Ord κ] [Std.TransOrd κ] [Std.LawfulEqOrd κ]
    {map : OrderedMap κ α} {before after : List (κ × α)} {entry : κ × α}
    (whole : map.entries = before ++ entry :: after) {key : κ} {value : α} :
    (key, value) ∈ before ↔ map.get? key = some value ∧ compare key entry.1 = .lt := by
  have ascending := map.ascending
  rw [whole, List.pairwise_append, List.pairwise_cons] at ascending
  obtain ⟨-, ⟨above, -⟩, below⟩ := ascending
  rw [get?_eq_some_iff, whole]
  constructor
  · intro member
    exact ⟨List.mem_append_left _ member, below _ member _ List.mem_cons_self⟩
  · rintro ⟨member, smaller⟩
    rcases List.mem_append.mp member with earlier | later
    · exact earlier
    rcases List.mem_cons.mp later with rfl | later
    · simp at smaller
    · have larger := Std.OrientedCmp.gt_of_lt (above _ later)
      rw [smaller] at larger
      cases larger

namespace Namespace

/-- What is wrong with the entry of a name: its index is out of the numbering, or else an earlier
name has the same index. -/
inductive EntryFault (numbering : Numbering) (names : Namespace) :
    String → NumberingFault → Prop
  | wrongSign {name : String} {index : Int} (held : names.get? name = some index)
      (refused : numbering.admits index = false) :
      names.EntryFault numbering name (.wrongSign index name)
  | sharedIndex {earlier name : String} {index : Int} (held : names.get? name = some index)
      (admitted : numbering.admits index = true) (before : compare earlier name = .lt)
      (shared : names.get? earlier = some index) :
      names.EntryFault numbering name (.sharedIndex index earlier name)

/-- The fault of the first name in order whose entry has one. -/
def FirstFault (numbering : Numbering) (names : Namespace) (fault : NumberingFault) : Prop :=
  ∃ name, names.EntryFault numbering name fault ∧
    ∀ earlier, compare earlier name = .lt → ∀ other, ¬names.EntryFault numbering earlier other

section FirstFault

variable {numbering : Numbering} {names : Namespace}

theorem EntryFault.held {name : String} {fault : NumberingFault}
    (faulty : names.EntryFault numbering name fault) : ∃ index, names.get? name = some index := by
  cases faulty with
  | wrongSign held => exact ⟨_, held⟩
  | sharedIndex held => exact ⟨_, held⟩

private theorem EntryFault.not_faultless {name : String} {fault : NumberingFault}
    (faulty : names.EntryFault numbering name fault) : ¬names.Faultless numbering := by
  intro faultless
  cases faulty with
  | wrongSign held refused =>
      rw [faultless.admits held] at refused
      cases refused
  | sharedIndex held _ before shared =>
      rw [faultless.injective shared held] at before
      simp at before

private theorem eq_of_get?_before {name first second : String} {index : Int}
    (clean : ∀ earlier, compare earlier name = .lt →
      ∀ other, ¬names.EntryFault numbering earlier other)
    (admitted : numbering.admits index = true)
    (firstBefore : compare first name = .lt) (firstHeld : names.get? first = some index)
    (secondBefore : compare second name = .lt) (secondHeld : names.get? second = some index) :
    first = second := by
  cases order : compare first second with
  | eq => exact Std.LawfulEqOrd.eq_of_compare order
  | lt =>
      exact absurd (.sharedIndex secondHeld admitted order firstHeld) (clean second secondBefore _)
  | gt =>
      have order := Std.OrientedCmp.lt_of_gt order
      exact absurd (.sharedIndex firstHeld admitted order secondHeld) (clean first firstBefore _)

theorem FirstFault.unique {first second : NumberingFault}
    (isFirst : names.FirstFault numbering first) (isSecond : names.FirstFault numbering second) :
    first = second := by
  obtain ⟨name, faulty, clean⟩ := isFirst
  obtain ⟨other, otherFaulty, otherClean⟩ := isSecond
  have sameName : name = other := by
    cases order : compare name other with
    | eq => exact Std.LawfulEqOrd.eq_of_compare order
    | lt => exact absurd faulty (otherClean name order _)
    | gt => exact absurd otherFaulty (clean other (Std.OrientedCmp.lt_of_gt order) _)
  subst sameName
  obtain ⟨index, found⟩ := faulty.held
  cases faulty with
  | wrongSign held refused =>
      cases otherFaulty with
      | wrongSign otherHeld => rw [Option.some.inj (held.symm.trans otherHeld)]
      | sharedIndex otherHeld admitted =>
          rw [Option.some.inj (otherHeld.symm.trans held), refused] at admitted
          cases admitted
  | sharedIndex held admitted before shared =>
      cases otherFaulty with
      | wrongSign otherHeld refused =>
          rw [Option.some.inj (otherHeld.symm.trans held), admitted] at refused
          cases refused
      | sharedIndex otherHeld _ otherBefore otherShared =>
          obtain rfl := Option.some.inj (held.symm.trans otherHeld)
          rw [eq_of_get?_before clean admitted before shared otherBefore otherShared]

/-- The entries that the scan has passed are those of all smaller names, and none has a fault. -/
theorem firstFault_of_faultAfter? {passed entries : List (String × Int)}
    (whole : names.entries = passed ++ entries)
    (clean : ∀ entry ∈ passed, ∀ other, ¬names.EntryFault numbering entry.1 other)
    {fault : NumberingFault} (found : faultAfter? numbering passed entries = some fault) :
    names.FirstFault numbering fault := by
  induction entries generalizing passed with
  | nil => cases found
  | cons entry rest induction =>
      obtain ⟨name, index⟩ := entry
      have held : names.get? name = some index := by
        rw [OrderedMap.get?_eq_some_iff, whole]
        exact List.mem_append_right _ List.mem_cons_self
      have passed_iff : ∀ earlier value, (earlier, value) ∈ passed ↔
          names.get? earlier = some value ∧ compare earlier name = .lt :=
        fun _ _ => OrderedMap.mem_before_iff whole
      have cleanBefore : ∀ earlier, compare earlier name = .lt →
          ∀ other, ¬names.EntryFault numbering earlier other := by
        intro earlier before other faulty
        obtain ⟨value, earlierHeld⟩ := faulty.held
        exact clean _ ((passed_iff earlier value).mpr ⟨earlierHeld, before⟩) other faulty
      unfold faultAfter? at found
      split at found
      next admitted =>
        split at found
        next holder stored shared =>
          have same : stored = index := by simpa using List.find?_some shared
          have member := (passed_iff holder stored).mp (List.mem_of_find?_eq_some shared)
          rw [same] at member
          rw [← Option.some.inj found]
          exact ⟨name, .sharedIndex held admitted member.2 member.1, cleanBefore⟩
        next unshared =>
          refine induction (by rw [whole, List.append_assoc]; rfl) ?_ found
          intro other member
          rcases List.mem_append.mp member with earlier | here
          · exact clean other earlier
          obtain rfl := List.mem_singleton.mp here
          intro _ faulty
          cases faulty with
          | wrongSign otherHeld refused =>
              rw [Option.some.inj (otherHeld.symm.trans held), admitted] at refused
              cases refused
          | sharedIndex otherHeld _ before shared =>
              have passedEarlier := (passed_iff _ _).mpr ⟨shared, before⟩
              have sameIndex := Option.some.inj (otherHeld.symm.trans held)
              exact List.find?_eq_none.mp unshared _ passedEarlier (decide_eq_true sameIndex)
      next refused =>
        rw [← Option.some.inj found]
        exact ⟨name, .wrongSign held (Bool.not_eq_true _ ▸ refused), cleanBefore⟩

theorem fault?_eq_some_iff {fault : NumberingFault} :
    names.fault? numbering = some fault ↔ names.FirstFault numbering fault := by
  have sound : ∀ found, names.fault? numbering = some found → names.FirstFault numbering found :=
    fun _ => firstFault_of_faultAfter? rfl fun _ member => (List.not_mem_nil member).elim
  constructor
  · exact sound fault
  · intro isFirst
    cases outcome : names.fault? numbering with
    | none =>
        obtain ⟨name, faulty, -⟩ := isFirst
        exact absurd ((fault?_eq_none_iff numbering names).mp outcome) faulty.not_faultless
    | some found => rw [(sound found outcome).unique isFirst]

end FirstFault

end Namespace

namespace Slot

def label : Slot → String
  | .globalNames kind => kind.key
  | .localNames .event => eventHandlerKind ++ ".locals"
  | .localNames (.function name) => "locals." ++ name

/-- The local names of functions come first, then the global names kind by kind, and the local names
of the event handler last. -/
def rank : Slot → Nat
  | .localNames (.function _) => 0
  | .globalNames .function => 1
  | .globalNames .list => 2
  | .globalNames .variable => 3
  | .globalNames .image => 4
  | .localNames .event => 5

/-- The slot is checked before the other. Functions are checked in the order of their names. -/
inductive Precedes : Slot → Slot → Prop
  | function {first second : String} (before : compare first second = .lt) :
      Precedes (.localNames (.function first)) (.localNames (.function second))
  | rank {first second : Slot} (before : first.rank < second.rank) : Precedes first second

theorem Precedes.irrefl (slot : Slot) : ¬slot.Precedes slot := by
  intro before
  cases before with
  | function before => simp at before
  | rank before => exact Nat.lt_irrefl _ before

theorem Precedes.asymm {first second : Slot} (before : first.Precedes second) :
    ¬second.Precedes first := by
  intro after
  cases before with
  | function before =>
      cases after with
      | function after =>
          rw [Std.OrientedCmp.gt_of_lt before] at after
          cases after
      | rank after => exact Nat.lt_irrefl _ after
  | rank before =>
      cases after with
      | function => exact Nat.lt_irrefl _ before
      | rank after => exact Nat.lt_asymm before after

private theorem eq_of_rank_eq {first second : Slot} (same : first.rank = second.rank) :
    first = second ∨ ∃ name other, first = .localNames (.function name) ∧
      second = .localNames (.function other) := by
  cases first with
  | globalNames kind =>
      cases second with
      | globalNames other => cases kind <;> cases other <;> simp_all [rank]
      | localNames scope => cases kind <;> cases scope <;> cases same
  | localNames scope =>
      cases second with
      | globalNames kind => cases kind <;> cases scope <;> cases same
      | localNames other => cases scope <;> cases other <;> simp_all [rank]

theorem precedes_trichotomy (first second : Slot) :
    first.Precedes second ∨ first = second ∨ second.Precedes first := by
  rcases Nat.lt_trichotomy first.rank second.rank with before | same | after
  · exact .inl (.rank before)
  · rcases eq_of_rank_eq same with rfl | ⟨name, other, rfl, rfl⟩
    · exact .inr (.inl rfl)
    cases order : compare name other with
    | lt => exact .inl (.function order)
    | eq => exact .inr (.inl (by rw [Std.LawfulEqOrd.eq_of_compare order]))
    | gt => exact .inr (.inr (.function (Std.OrientedCmp.lt_of_gt order)))
  · exact .inr (.inr (.rank after))

end Slot

namespace SymbolTable

def slots (table : SymbolTable) : List Slot :=
  table.locals.entries.map (fun entry => .localNames (.function entry.1)) ++
    [.globalNames .function, .globalNames .list, .globalNames .variable, .globalNames .image] ++
    (table.event.map fun _ => .localNames .event).toList

private theorem namespaces_eq (table : SymbolTable) :
    table.namespaces =
      table.slots.map fun slot => (slot.label, slot.numbering, table.namesIn slot) := by
  have locals : table.locals.entries.map (fun entry =>
        ("locals." ++ entry.1, Numbering.descending, entry.2)) =
      (table.locals.entries.map fun entry => Slot.localNames (.function entry.1)).map
        fun slot => (slot.label, slot.numbering, table.namesIn slot) := by
    rw [List.map_map]
    apply List.map_congr_left
    intro entry member
    have known : table.localNames? (.function entry.1) = some entry.2 :=
      OrderedMap.get?_eq_some_iff.mpr member
    simp only [Function.comp_apply, Slot.label, Slot.numbering, namesIn, localNames, known,
      Option.getD_some]
  have event : (table.event.map fun names =>
        (eventHandlerKind ++ ".locals", Numbering.descending, names)).toList =
      (table.event.map fun _ => Slot.localNames .event).toList.map
        fun slot => (slot.label, slot.numbering, table.namesIn slot) := by
    have known : table.localNames? .event = table.event := rfl
    cases held : table.event with
    | none => rfl
    | some names => simp [Slot.label, Slot.numbering, namesIn, localNames, known, held]
  unfold namespaces slots
  rw [List.map_append, List.map_append, ← locals, ← event]
  rfl

private theorem pairwise_slots (table : SymbolTable) : table.slots.Pairwise Slot.Precedes := by
  let kinds : List Slot :=
    [.globalNames .function, .globalNames .list, .globalNames .variable, .globalNames .image]
  have functions : (table.locals.entries.map fun entry =>
      Slot.localNames (.function entry.1)).Pairwise Slot.Precedes :=
    List.pairwise_map.mpr (table.locals.ascending.imp .function)
  have ascending : kinds.Pairwise fun first second => first.rank < second.rank := by decide
  have between : ∀ slot ∈ kinds, 0 < slot.rank ∧ slot.rank < 5 := by decide
  have event : (table.event.map fun _ => Slot.localNames .event).toList.Pairwise
      Slot.Precedes := by
    cases table.event with
    | none => exact .nil
    | some names => exact List.pairwise_singleton _ _
  unfold slots
  rw [List.pairwise_append, List.pairwise_append]
  refine ⟨⟨functions, ascending.imp .rank, ?_⟩, event, ?_⟩
  · intro first firstMember second secondMember
    obtain ⟨entry, -, rfl⟩ := List.mem_map.mp firstMember
    exact .rank (between second secondMember).1
  · intro first firstMember second secondMember
    obtain ⟨-, -, rfl⟩ := Option.map_eq_some_iff.mp (Option.mem_toList.mp secondMember)
    rcases List.mem_append.mp firstMember with isFunction | isKind
    · obtain ⟨entry, -, rfl⟩ := List.mem_map.mp isFunction
      exact .rank (by decide : 0 < 5)
    · exact .rank (between first isKind).2

private theorem mem_slots_of_localNames? {table : SymbolTable} {scope : Scope} {names : Namespace}
    (known : table.localNames? scope = some names) : .localNames scope ∈ table.slots := by
  cases scope with
  | event =>
      have event : table.event = some names := known
      apply List.mem_append_right
      rw [event]
      exact List.mem_singleton_self _
  | function name =>
      have member := OrderedMap.get?_eq_some_iff.mp known
      exact List.mem_append_left _ (List.mem_append_left _ (List.mem_map.mpr ⟨_, member, rfl⟩))

private theorem faultless_namesIn_of_not_mem_slots {table : SymbolTable} {slot : Slot}
    (absent : slot ∉ table.slots) : (table.namesIn slot).Faultless slot.numbering := by
  cases slot with
  | globalNames kind =>
      refine absurd (List.mem_append_left _ (List.mem_append_right _ ?_)) absent
      cases kind <;> simp
  | localNames scope =>
      apply table.localNames_induction scope (Namespace.numberedBy_nil .descending).faultless
      intro names known
      exact absurd (mem_slots_of_localNames? known) absent

/-- The fault of the first slot in order that has one. -/
def FirstFault (table : SymbolTable) (slot : Slot) (fault : NumberingFault) : Prop :=
  (table.namesIn slot).FirstFault slot.numbering fault ∧
    ∀ earlier, earlier.Precedes slot → (table.namesIn earlier).Faultless earlier.numbering

theorem FirstFault.not_faultless {table : SymbolTable} {slot : Slot} {fault : NumberingFault}
    (isFirst : table.FirstFault slot fault) : ¬(table.namesIn slot).Faultless slot.numbering := by
  obtain ⟨⟨name, faulty, -⟩, -⟩ := isFirst
  exact faulty.not_faultless

theorem FirstFault.unique {table : SymbolTable} {first second : Slot}
    {firstFault secondFault : NumberingFault} (isFirst : table.FirstFault first firstFault)
    (isSecond : table.FirstFault second secondFault) :
    first = second ∧ firstFault = secondFault := by
  rcases first.precedes_trichotomy second with before | rfl | after
  · exact absurd (isSecond.2 first before) isFirst.not_faultless
  · exact ⟨rfl, isFirst.1.unique isSecond.1⟩
  · exact absurd (isFirst.2 second after) isSecond.not_faultless

theorem exists_firstFault_of_fault? {table : SymbolTable} {label : String} {fault : NumberingFault}
    (found : table.fault? = some (label, fault)) :
    ∃ slot, table.FirstFault slot fault ∧ label = slot.label := by
  unfold fault? at found
  rw [namespaces_eq, List.findSome?_map, List.findSome?_eq_some_iff] at found
  obtain ⟨before, slot, after, whole, faulty, clean⟩ := found
  obtain ⟨slotFault, slotFaulty, same⟩ := Option.map_eq_some_iff.mp faulty
  obtain ⟨rfl, rfl⟩ := Prod.mk.inj same
  refine ⟨slot, ⟨Namespace.fault?_eq_some_iff.mp slotFaulty, fun earlier precedes => ?_⟩, rfl⟩
  by_cases listed : earlier ∈ table.slots
  · have ordered := table.pairwise_slots
    rw [whole, List.pairwise_append, List.pairwise_cons] at ordered
    obtain ⟨-, ⟨above, -⟩, -⟩ := ordered
    rw [whole] at listed
    rcases List.mem_append.mp listed with passed | later
    · have passes := Option.map_eq_none_iff.mp (clean earlier passed)
      exact (Namespace.fault?_eq_none_iff _ _).mp passes
    rcases List.mem_cons.mp later with rfl | later
    · exact absurd precedes (Slot.Precedes.irrefl _)
    · exact absurd (above earlier later) precedes.asymm
  · exact faultless_namesIn_of_not_mem_slots listed

theorem invertible_eq_error_iff (table : SymbolTable) (error : CompactionError) :
    table.invertible = .error error ↔
      ∃ slot fault, table.FirstFault slot fault ∧
        error = .invalidTable slot.label (.numbering fault) := by
  have refused : table.invertible = .error error ↔
      ∃ label fault, table.fault? = some (label, fault) ∧
        error = .invalidTable label (.numbering fault) := by
    unfold invertible
    split
    next faultless => simp [faultless]
    next label fault found => simp [found, eq_comm]
  rw [refused]
  constructor
  · rintro ⟨label, fault, found, isError⟩
    obtain ⟨slot, isFirst, rfl⟩ := exists_firstFault_of_fault? found
    exact ⟨slot, fault, isFirst, isError⟩
  · rintro ⟨slot, fault, isFirst, isError⟩
    cases outcome : table.fault? with
    | none =>
        have faultless := (faultless_iff_namesIn table).mp ((fault?_eq_none_iff table).mp outcome)
        exact absurd (faultless slot) isFirst.not_faultless
    | some found =>
        obtain ⟨other, otherFirst, isLabel⟩ := exists_firstFault_of_fault? outcome
        obtain ⟨rfl, rfl⟩ := isFirst.unique otherFirst
        exact ⟨found.1, found.2, rfl, isLabel ▸ isError⟩

/-- A table can be read backwards exactly if no global index is negative, all local indices are, and
no namespace gives one index to two names; then every index leads back to its name. Any other table
is refused for the first fault of its first faulty namespace. -/
theorem invertible_outcome (table : SymbolTable) :
    ((∃ inverse, table.invertible = .ok inverse) ↔
      (∀ kind name index, (table.globalNames kind).get? name = some index → 0 ≤ index) ∧
      (∀ scope name index, (table.localNames scope).get? name = some index → index < 0) ∧
      ∀ slot first second index, (table.namesIn slot).get? first = some index →
        (table.namesIn slot).get? second = some index → first = second) ∧
    (∀ inverse, table.invertible = .ok inverse →
      (∀ index name, inverse.functionName? index = some name ↔
        table.functionNames.get? name = some index) ∧
      ∀ slot index name, (inverse.namesIn slot).nameOf? index = some name ↔
        (table.namesIn slot).get? name = some index) ∧
    ∀ error, table.invertible = .error error ↔
      ∃ slot fault, table.FirstFault slot fault ∧
        error = .invalidTable slot.label (.numbering fault) := by
  refine ⟨?_, ?_, table.invertible_eq_error_iff⟩
  · rw [exists_invertible_iff]
    constructor
    · intro faultless
      refine ⟨fun kind name index found => ?_, fun scope name index found => ?_,
        fun slot first second index => (faultless slot).injective⟩
      · exact of_decide_eq_true ((faultless (.globalNames kind)).admits found)
      · exact of_decide_eq_true ((faultless (.localNames scope)).admits found)
    · rintro ⟨globals, locals, injective⟩ slot
      refine ⟨fun {name index} found => ?_, injective slot _ _ _⟩
      cases slot with
      | globalNames kind => exact decide_eq_true (globals kind name index found)
      | localNames scope => exact decide_eq_true (locals scope name index found)
  · intro inverse accepted
    have readBack : ∀ slot index name, (inverse.namesIn slot).nameOf? index = some name ↔
        (table.namesIn slot).get? name = some index := by
      intro slot index name
      rw [(invertible_eq_ok_iff table inverse).mp accepted]
      exact ((exists_invertible_iff table).mp ⟨inverse, accepted⟩ slot).nameOf?_eq_some_iff
    exact ⟨readBack (.globalNames .function), readBack⟩

/-- An index is shared before another has the wrong sign, and a global index has it as well. -/
def tableOfFaults : SymbolTable where
  locals := OrderedMap.ofList
    [("turn", OrderedMap.ofList [("angle", -1), ("speed", -1), ("steps", 2)])]
  functionNames := OrderedMap.ofList [("turn", -1)]

theorem invertible_outcome_tableOfFaults :
    (∃ inverse, tableWithGap.invertible = .ok inverse ∧
      inverse.functionName? 0 = some "turn" ∧ inverse.functionName? 1 = none) ∧
    tableOfFaults.invertible =
      .error (.invalidTable "locals.turn" (.numbering (.sharedIndex (-1) "angle" "speed"))) ∧
    ∃ slot, slot.label = "locals.turn" ∧
      tableOfFaults.FirstFault slot (.sharedIndex (-1) "angle" "speed") := by
  have accepted : tableWithGap.invertible = .ok ⟨tableWithGap, by decide⟩ :=
    (invertible_eq_ok_iff _ _).mpr rfl
  have refused : tableOfFaults.invertible =
      .error (.invalidTable "locals.turn" (.numbering (.sharedIndex (-1) "angle" "speed"))) := rfl
  obtain ⟨named, -⟩ := (invertible_outcome tableWithGap).2.1 _ accepted
  obtain ⟨slot, fault, isFirst, same⟩ := ((invertible_outcome tableOfFaults).2.2 _).mp refused
  obtain ⟨isLabel, isFault⟩ := CompactionError.invalidTable.inj same
  obtain rfl := Fault.numbering.inj isFault
  exact ⟨⟨_, accepted, (named 0 "turn").mpr (by decide), rfl⟩, refused, slot, isLabel.symm, isFirst⟩

end SymbolTable

end BlockNames
