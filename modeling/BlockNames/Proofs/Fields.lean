import BlockNames.Json.Document
import Mathlib.Data.List.Nodup

/-!
Laws of the fields of an object. Replacing a field and adding a new one touch no other field. In a
tree whose objects hold no key twice the fields of an object are told apart by their keys.
-/
namespace BlockNames.Json

theorem str?_eq_some_iff {value : Json} {name : String} :
    value.str? = some name ↔ value = .str name := by
  cases value with
  | str other => simp only [str?, Option.some.injEq, str.injEq]
  | null | bool | num | arr | obj => simp only [str?, reduceCtorEq]

theorem index?_eq_some_iff {value : Json} {index : Int} :
    value.index? = some index ↔ value = Json.index index := by
  constructor
  · intro read
    cases value with
    | null | bool | str | arr | obj => cases read
    | num number =>
        cases number with
        | oversize | decimal => cases read
        | integer value => rw [Option.some.inj read, Json.index]
  · rintro rfl
    rfl

namespace Fields

theorem string?_eq_some_iff {fields : Fields} {key name : String} :
    fields.string? key = some name ↔ fields.lookup key = some (.str name) := by
  simp only [string?, Option.bind_eq_some_iff, str?_eq_some_iff, exists_eq_right]

theorem replace_cons (stored : String) (old : Json) (rest : Fields) (key : String) (value : Json) :
    Fields.replace ((stored, old) :: rest) key value =
      (stored, if stored = key then value else old) :: rest.replace key value := by
  simp only [Fields.replace, List.map_cons]
  split
  next same => rw [same]
  next => rfl

theorem keys_replace (fields : Fields) (key : String) (value : Json) :
    (fields.replace key value).map Prod.fst = fields.map Prod.fst := by
  induction fields with
  | nil => rfl
  | cons field rest induction =>
      obtain ⟨stored, old⟩ := field
      rw [replace_cons, List.map_cons, List.map_cons, induction]

theorem lookup_replace_of_ne (fields : Fields) {key probe : String} (value : Json)
    (different : probe ≠ key) : (fields.replace key value).lookup probe = fields.lookup probe := by
  induction fields with
  | nil => rfl
  | cons field rest induction =>
      obtain ⟨stored, old⟩ := field
      rw [replace_cons, List.lookup_cons, List.lookup_cons, induction]
      cases equal : probe == stored with
      | false => rfl
      | true =>
          have other : stored ≠ key := eq_of_beq equal ▸ different
          simp only [if_neg other]

theorem lookup_replace_self (fields : Fields) (key : String) (value : Json) :
    (fields.replace key value).lookup key = (fields.lookup key).map fun _ => value := by
  induction fields with
  | nil => rfl
  | cons field rest induction =>
      obtain ⟨stored, old⟩ := field
      rw [replace_cons, List.lookup_cons, List.lookup_cons, induction]
      cases equal : key == stored with
      | false => rfl
      | true => simp only [if_pos (eq_of_beq equal).symm, Option.map_some]

theorem replace_replace (fields : Fields) (key : String) (first second : Json) :
    (fields.replace key first).replace key second = fields.replace key second := by
  induction fields with
  | nil => rfl
  | cons field rest induction =>
      obtain ⟨stored, old⟩ := field
      simp only [replace_cons, induction]
      split <;> rfl

theorem replace_of_lookup_eq_none {fields : Fields} {key : String}
    (absent : fields.lookup key = none) (value : Json) : fields.replace key value = fields := by
  induction fields with
  | nil => rfl
  | cons field rest induction =>
      obtain ⟨stored, old⟩ := field
      rw [List.lookup_cons] at absent
      cases equal : key == stored with
      | true => simp [equal] at absent
      | false =>
          rw [equal] at absent
          have other : stored ≠ key := (ne_of_beq_false equal).symm
          rw [replace_cons, if_neg other, induction absent]

theorem lookup_eq_some_arr {fields : Fields} {key : String} {items : List Json}
    (listed : (fields.lookup key).bind items? = some items) :
    fields.lookup key = some (.arr items) := by
  obtain ⟨value, held, valueItems⟩ := Option.bind_eq_some_iff.mp listed
  cases value with
  | arr stored => rw [held, ← Option.some.inj valueItems]
  | null | bool | num | str | obj => cases valueItems

theorem mem_of_lookup_eq_some {fields : Fields} {key : String} {value : Json}
    (held : fields.lookup key = some value) : (key, value) ∈ fields := by
  obtain ⟨before, after, rfl, -⟩ := List.lookup_eq_some_iff.mp held
  exact List.mem_append_right before List.mem_cons_self

theorem lookup_eq_some_of_mem {fields : Fields} (distinct : (fields.map Prod.fst).Nodup)
    {key : String} {value : Json} (member : (key, value) ∈ fields) :
    fields.lookup key = some value := by
  induction fields with
  | nil => cases member
  | cons field rest induction =>
      obtain ⟨stored, old⟩ := field
      rw [List.map_cons, List.nodup_cons] at distinct
      obtain ⟨fresh, distinct⟩ := distinct
      rw [List.lookup_cons]
      rcases List.mem_cons.mp member with same | later
      · obtain ⟨rfl, rfl⟩ := Prod.mk.inj same
        simp
      · have other : (key == stored) = false := by
          rw [beq_eq_false_iff_ne]
          rintro rfl
          exact fresh (List.mem_map.mpr ⟨(key, value), later, rfl⟩)
        rw [other, induction distinct later]

theorem replace_eq_self {fields : Fields} (distinct : (fields.map Prod.fst).Nodup) {key : String}
    {value : Json} (held : fields.lookup key = some value) : fields.replace key value = fields := by
  conv_rhs => rw [← List.map_id fields]
  refine List.map_congr_left fun field member => ?_
  obtain ⟨stored, old⟩ := field
  by_cases same : stored = key
  · subst same
    rw [lookup_eq_some_of_mem distinct member] at held
    rw [if_pos rfl, ← Option.some.inj held, id]
  · rw [if_neg same, id]

private theorem lookup_insertEntry_of_ne (fields : Fields) {key probe : String} (value : Json)
    (different : probe ≠ key) :
    (OrderedMap.insertEntry key value fields).lookup probe = fields.lookup probe := by
  have other : (probe == key) = false := beq_eq_false_iff_ne.mpr different
  induction fields with
  | nil => simp only [OrderedMap.insertEntry, List.lookup_cons, other]
  | cons field rest induction =>
      obtain ⟨stored, old⟩ := field
      unfold OrderedMap.insertEntry
      cases order : compare key stored with
      | lt => simp only [List.lookup_cons, other]
      | eq =>
          obtain rfl := Std.LawfulEqCmp.eq_of_compare order
          simp only [List.lookup_cons, other]
      | gt => simp only [List.lookup_cons, induction]

private theorem replace_insertEntry (fields : Fields) {key other : String} (value inserted : Json)
    (different : other ≠ key) :
    Fields.replace (OrderedMap.insertEntry other inserted fields) key value =
      OrderedMap.insertEntry other inserted (fields.replace key value) := by
  induction fields with
  | nil => simp only [OrderedMap.insertEntry, Fields.replace, List.map_cons, if_neg different,
      List.map_nil]
  | cons field rest induction =>
      obtain ⟨stored, old⟩ := field
      rw [replace_cons]
      unfold OrderedMap.insertEntry
      cases compare other stored with
      | lt => simp only [replace_cons, if_neg different]
      | eq => simp only [replace_cons, if_neg different]
      | gt => simp only [replace_cons, induction]

private theorem lookup_insertEntry_self (fields : Fields) (key : String) (value : Json) :
    (OrderedMap.insertEntry key value fields).lookup key = some value := by
  induction fields with
  | nil => simp [OrderedMap.insertEntry]
  | cons field rest induction =>
      obtain ⟨stored, old⟩ := field
      unfold OrderedMap.insertEntry
      cases order : compare key stored with
      | lt | eq => simp
      | gt =>
          have other : (key == stored) = false := by
            rw [beq_eq_false_iff_ne]
            rintro rfl
            simp at order
          simp only [List.lookup_cons, other, induction]

theorem lookup_insertIfNew_self (fields : Fields) (key : String) (value : Json) :
    (fields.insertIfNew key value).lookup key = some ((fields.lookup key).getD value) := by
  unfold insertIfNew
  cases held : fields.lookup key with
  | some old => simp [held]
  | none => simp [lookup_insertEntry_self]

theorem isSome_lookup_insertIfNew (fields : Fields) (key : String) (value : Json) :
    ((fields.insertIfNew key value).lookup key).isSome := by
  rw [lookup_insertIfNew_self, Option.isSome_some]

private theorem keys_insertEntry_perm {fields : Fields} {key : String} (value : Json)
    (absent : key ∉ fields.map Prod.fst) :
    ((OrderedMap.insertEntry key value fields).map Prod.fst).Perm (key :: fields.map Prod.fst) := by
  induction fields with
  | nil => exact .refl _
  | cons field rest induction =>
      obtain ⟨stored, old⟩ := field
      rw [List.map_cons, List.mem_cons, not_or] at absent
      unfold OrderedMap.insertEntry
      cases order : compare key stored with
      | lt => exact .refl _
      | eq => exact absurd (Std.LawfulEqCmp.eq_of_compare order) absent.1
      | gt => exact ((induction absent.2).cons stored).trans (.swap key stored _)

theorem nodup_keys_insertIfNew {fields : Fields} (distinct : (fields.map Prod.fst).Nodup)
    (key : String) (value : Json) : ((fields.insertIfNew key value).map Prod.fst).Nodup := by
  unfold insertIfNew
  split
  · exact distinct
  next new =>
    have absent : key ∉ fields.map Prod.fst := by
      rintro member
      obtain ⟨⟨_, held⟩, fieldMember, rfl⟩ := List.mem_map.mp member
      rw [lookup_eq_some_of_mem distinct fieldMember] at new
      exact new rfl
    rw [(keys_insertEntry_perm value absent).nodup_iff]
    exact List.nodup_cons.mpr ⟨absent, distinct⟩

theorem mem_insertIfNew {fields : Fields} {key : String} {value : Json} {field : String × Json}
    (member : field ∈ fields.insertIfNew key value) : field = (key, value) ∨ field ∈ fields := by
  unfold insertIfNew at member
  split at member
  · exact .inr member
  · exact OrderedMap.mem_insertEntry member

theorem lookup_insertIfNew_of_ne (fields : Fields) {key probe : String} (value : Json)
    (different : probe ≠ key) :
    (fields.insertIfNew key value).lookup probe = fields.lookup probe := by
  unfold insertIfNew
  split
  · rfl
  · exact lookup_insertEntry_of_ne fields value different

theorem lookup_insertIfNew (fields : Fields) (key probe : String) (value : Json) :
    (fields.insertIfNew key value).lookup probe =
      (fields.lookup probe).or (if probe = key then some value else none) := by
  split
  next same =>
    rw [same, lookup_insertIfNew_self]
    cases fields.lookup key <;> rfl
  next different => rw [lookup_insertIfNew_of_ne fields value different, Option.or_none]

theorem replace_insertIfNew (fields : Fields) {key other : String} (value inserted : Json)
    (different : other ≠ key) :
    (fields.insertIfNew other inserted).replace key value =
      (fields.replace key value).insertIfNew other inserted := by
  unfold insertIfNew
  rw [lookup_replace_of_ne fields value different]
  split
  · rfl
  · exact replace_insertEntry fields value inserted different

end Fields

theorem DistinctKeys.replace {fields : Fields} (distinct : (Json.obj fields).DistinctKeys)
    (key : String) {value : Json} (valueDistinct : value.DistinctKeys) :
    (Json.obj (fields.replace key value)).DistinctKeys := by
  refine ⟨?_, ?_⟩
  · rw [Fields.keys_replace]
    exact distinct.1
  · rw [distinctFieldKeys_iff]
    intro field member
    obtain ⟨old, oldMember, rfl⟩ := List.mem_map.mp member
    split
    · exact valueDistinct
    · exact (distinctFieldKeys_iff fields).mp distinct.2 old oldMember

end BlockNames.Json
