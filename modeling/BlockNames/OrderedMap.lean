/-!
Finite maps whose entries stand in ascending key order. A map is determined by its look-ups, and
the order of its entries depends on its keys alone, not on the order of insertion.
-/
namespace BlockNames

/-- A finite map, stored as its entries in strictly ascending key order. -/
structure OrderedMap (κ α : Type) [Ord κ] where
  entries : List (κ × α)
  ascending : entries.Pairwise fun earlier later => compare earlier.1 later.1 = .lt

namespace OrderedMap

section Entries

variable {κ α β : Type} [Ord κ]

def lookupEntry (key : κ) : List (κ × α) → Option α
  | [] => none
  | (stored, value) :: rest =>
      match compare key stored with
      | .lt => none
      | .eq => some value
      | .gt => lookupEntry key rest

def insertEntry (key : κ) (value : α) : List (κ × α) → List (κ × α)
  | [] => [(key, value)]
  | (stored, old) :: rest =>
      match compare key stored with
      | .lt => (key, value) :: (stored, old) :: rest
      | .eq => (key, value) :: rest
      | .gt => (stored, old) :: insertEntry key value rest

theorem mem_insertEntry {key : κ} {value : α} {entry : κ × α} {entries : List (κ × α)}
    (member : entry ∈ insertEntry key value entries) :
    entry = (key, value) ∨ entry ∈ entries := by
  induction entries with
  | nil => simpa [insertEntry] using member
  | cons head rest induction =>
      obtain ⟨stored, old⟩ := head
      unfold insertEntry at member
      split at member
      · simpa using member
      · rcases List.mem_cons.mp member with same | later
        · exact .inl same
        · exact .inr (List.mem_cons_of_mem _ later)
      · rcases List.mem_cons.mp member with same | later
        · exact .inr (same ▸ List.mem_cons_self)
        · exact (induction later).imp_right (List.mem_cons_of_mem _)

private theorem length_insertEntry {key : κ} {value : α} {entries : List (κ × α)}
    (absent : lookupEntry key entries = none) :
    (insertEntry key value entries).length = entries.length + 1 := by
  induction entries with
  | nil => rfl
  | cons head rest induction =>
      obtain ⟨stored, old⟩ := head
      unfold lookupEntry at absent
      unfold insertEntry
      split at absent
      · rfl
      · cases absent
      · rw [List.length_cons, induction absent, List.length_cons]

private theorem lookupEntry_eq_none_of_lt {key : κ} {entries : List (κ × α)}
    (above : ∀ entry ∈ entries, compare key entry.1 = .lt) :
    lookupEntry key entries = none := by
  cases entries with
  | nil => rfl
  | cons head rest => simp [lookupEntry, above head List.mem_cons_self]

end Entries

section Order

variable {κ α β : Type} [Ord κ] [Std.TransOrd κ] [Std.LawfulEqOrd κ]

private theorem ascending_insertEntry (key : κ) (value : α) {entries : List (κ × α)}
    (ascending : entries.Pairwise fun earlier later => compare earlier.1 later.1 = .lt) :
    (insertEntry key value entries).Pairwise
      fun earlier later => compare earlier.1 later.1 = .lt := by
  induction entries with
  | nil => simp [insertEntry]
  | cons head rest induction =>
      obtain ⟨stored, old⟩ := head
      obtain ⟨below, restAscending⟩ := List.pairwise_cons.mp ascending
      unfold insertEntry
      split
      next before =>
        refine List.pairwise_cons.mpr ⟨fun entry member => ?_, ascending⟩
        rcases List.mem_cons.mp member with same | later
        · exact same ▸ before
        · exact Std.TransCmp.lt_trans before (below entry later)
      next same =>
        have keyEq : key = stored := Std.LawfulEqOrd.eq_of_compare same
        exact List.pairwise_cons.mpr ⟨fun entry member => keyEq ▸ below entry member, restAscending⟩
      next after =>
        refine List.pairwise_cons.mpr ⟨fun entry member => ?_, induction restAscending⟩
        rcases mem_insertEntry member with same | later
        · exact same ▸ Std.OrientedCmp.lt_of_gt after
        · exact below entry later

private theorem lookupEntry_insertEntry [DecidableEq κ] (key probe : κ) (value : α)
    {entries : List (κ × α)}
    (ascending : entries.Pairwise fun earlier later => compare earlier.1 later.1 = .lt) :
    lookupEntry probe (insertEntry key value entries) =
      if probe = key then some value else lookupEntry probe entries := by
  induction entries with
  | nil =>
      cases order : compare probe key with
      | eq =>
          obtain rfl := Std.LawfulEqOrd.eq_of_compare order
          simp [insertEntry, lookupEntry]
      | lt | gt =>
          have different : probe ≠ key := by rintro rfl; simp at order
          simp [insertEntry, lookupEntry, order, different]
  | cons head rest induction =>
      obtain ⟨stored, old⟩ := head
      obtain ⟨below, restAscending⟩ := List.pairwise_cons.mp ascending
      unfold insertEntry
      by_cases same : probe = key
      · subst same
        rw [if_pos rfl]
        split
        · simp [lookupEntry]
        · simp [lookupEntry]
        next after => simp [lookupEntry, after, induction restAscending]
      · rw [if_neg same]
        have different : compare probe key ≠ .eq :=
          fun equal => same (Std.LawfulEqOrd.eq_of_compare equal)
        split
        next before =>
          rw [lookupEntry.eq_2]
          split
          next less =>
            exact (lookupEntry_eq_none_of_lt fun entry member => by
              rcases List.mem_cons.mp member with rfl | later
              · exact Std.TransCmp.lt_trans less before
              · exact Std.TransCmp.lt_trans (Std.TransCmp.lt_trans less before)
                  (below entry later)).symm
          next equal => exact absurd equal different
          next => rfl
        next equal =>
          have keyEq : key = stored := Std.LawfulEqOrd.eq_of_compare equal
          subst keyEq
          rw [lookupEntry.eq_2, lookupEntry.eq_2]
          split
          · rfl
          next equalProbe => exact absurd equalProbe different
          · rfl
        next after =>
          rw [lookupEntry.eq_2, lookupEntry.eq_2, induction restAscending, if_neg same]

private theorem lookupEntry_eq_some_iff {key : κ} {value : α} {entries : List (κ × α)}
    (ascending : entries.Pairwise fun earlier later => compare earlier.1 later.1 = .lt) :
    lookupEntry key entries = some value ↔ (key, value) ∈ entries := by
  induction entries with
  | nil => simp [lookupEntry]
  | cons head rest induction =>
      obtain ⟨stored, old⟩ := head
      obtain ⟨below, restAscending⟩ := List.pairwise_cons.mp ascending
      have notLater : ∀ other, compare key stored ≠ .gt → (key, other) ∉ rest := by
        intro other notAfter later
        exact notAfter (Std.OrientedCmp.gt_of_lt (below _ later))
      rw [lookupEntry.eq_2, List.mem_cons, Prod.mk.injEq]
      split
      next before =>
        have different : key ≠ stored := by rintro rfl; simp at before
        simp [different, notLater value (by simp [before])]
      next same =>
        have keyEq : key = stored := Std.LawfulEqOrd.eq_of_compare same
        simp [keyEq, eq_comm, show (stored, value) ∉ rest from
          keyEq ▸ notLater value (by simp [same])]
      next after =>
        have different : key ≠ stored := by rintro rfl; simp at after
        simp [different, induction restAscending]

private theorem eq_of_lookupEntry_eq {left right : List (κ × α)}
    (leftAscending : left.Pairwise fun earlier later => compare earlier.1 later.1 = .lt)
    (rightAscending : right.Pairwise fun earlier later => compare earlier.1 later.1 = .lt)
    (lookupEq : ∀ key, lookupEntry key left = lookupEntry key right) : left = right := by
  induction left generalizing right with
  | nil =>
      cases right with
      | nil => rfl
      | cons head rest => simpa [lookupEntry] using lookupEq head.1
  | cons head rest induction =>
      cases right with
      | nil => simpa [lookupEntry] using lookupEq head.1
      | cons other others =>
          obtain ⟨leftKey, leftValue⟩ := head
          obtain ⟨rightKey, rightValue⟩ := other
          obtain ⟨leftBelow, leftRest⟩ := List.pairwise_cons.mp leftAscending
          obtain ⟨rightBelow, rightRest⟩ := List.pairwise_cons.mp rightAscending
          have headEq : leftKey = rightKey ∧ leftValue = rightValue := by
            have atLeft := lookupEq leftKey
            have atRight := lookupEq rightKey
            simp only [lookupEntry] at atLeft atRight
            cases order : compare leftKey rightKey with
            | lt => simp [order] at atLeft
            | gt => simp [Std.OrientedCmp.lt_of_gt order] at atRight
            | eq =>
                simp only [Std.ReflCmp.compare_self, order, Option.some.injEq] at atLeft
                exact ⟨Std.LawfulEqOrd.eq_of_compare order, atLeft⟩
          obtain ⟨rfl, rfl⟩ := headEq
          congr 1
          refine induction leftRest rightRest fun key => ?_
          have atKey := lookupEq key
          rw [lookupEntry.eq_2, lookupEntry.eq_2] at atKey
          cases order : compare key leftKey with
          | gt => simpa [order] using atKey
          | lt =>
              rw [lookupEntry_eq_none_of_lt fun entry member =>
                  Std.TransCmp.lt_trans order (leftBelow entry member),
                lookupEntry_eq_none_of_lt fun entry member =>
                  Std.TransCmp.lt_trans order (rightBelow entry member)]
          | eq =>
              obtain rfl := Std.LawfulEqOrd.eq_of_compare order
              rw [lookupEntry_eq_none_of_lt leftBelow, lookupEntry_eq_none_of_lt rightBelow]

end Order

section Operations

variable {κ α β : Type} [Ord κ]

instance : EmptyCollection (OrderedMap κ α) := ⟨⟨[], .nil⟩⟩

instance : Inhabited (OrderedMap κ α) := ⟨∅⟩

instance [DecidableEq κ] [DecidableEq α] : DecidableEq (OrderedMap κ α) :=
  fun left right => decidable_of_iff (left.entries = right.entries) <| by
    cases left; cases right; simp

def get? (map : OrderedMap κ α) (key : κ) : Option α :=
  lookupEntry key map.entries

def size (map : OrderedMap κ α) : Nat :=
  map.entries.length

def isEmpty (map : OrderedMap κ α) : Bool :=
  map.entries.isEmpty

def contains (map : OrderedMap κ α) (key : κ) : Bool :=
  (map.get? key).isSome

variable [Std.TransOrd κ] [Std.LawfulEqOrd κ]

/-- Stores `value` under `key`, replacing what was there. -/
def insert (map : OrderedMap κ α) (key : κ) (value : α) : OrderedMap κ α :=
  ⟨insertEntry key value map.entries, ascending_insertEntry key value map.ascending⟩

def insertIfNew (map : OrderedMap κ α) (key : κ) (value : α) : OrderedMap κ α :=
  if map.contains key then map else map.insert key value

/-- The map of a list of pairs; of equal keys the last pair counts. -/
def ofList (pairs : List (κ × α)) : OrderedMap κ α :=
  pairs.foldl (fun map pair => map.insert pair.1 pair.2) ∅

end Operations

section Lemmas

variable {κ α : Type} [Ord κ]

@[simp] theorem get?_empty (key : κ) : (∅ : OrderedMap κ α).get? key = none := rfl

@[simp] theorem size_empty : (∅ : OrderedMap κ α).size = 0 := rfl

theorem nodup_keys [Std.LawfulEqOrd κ] (map : OrderedMap κ α) :
    (map.entries.map Prod.fst).Nodup := by
  apply List.pairwise_map.mpr
  apply map.ascending.imp
  intro first second before same
  rw [same] at before
  simp at before

variable [Std.TransOrd κ] [Std.LawfulEqOrd κ]

theorem get?_insert [DecidableEq κ] (map : OrderedMap κ α) (key probe : κ) (value : α) :
    (map.insert key value).get? probe = if probe = key then some value else map.get? probe :=
  lookupEntry_insertEntry key probe value map.ascending

theorem get?_insertIfNew [DecidableEq κ] (map : OrderedMap κ α) (key probe : κ) (value : α) :
    (map.insertIfNew key value).get? probe =
      if probe = key then some ((map.get? key).getD value) else map.get? probe := by
  unfold insertIfNew contains
  cases present : map.get? key with
  | none => simp [get?_insert]
  | some stored =>
      by_cases same : probe = key
      · simp [same, present]
      · simp [same]

theorem size_insertIfNew (map : OrderedMap κ α) (key : κ) (value : α) :
    (map.insertIfNew key value).size =
      if map.contains key = true then map.size else map.size + 1 := by
  unfold insertIfNew
  split
  · rfl
  next absent =>
    unfold contains get? at absent
    exact length_insertEntry (Option.not_isSome_iff_eq_none.mp absent)

theorem mem_of_mem_ofList {pairs : List (κ × α)} {entry : κ × α}
    (member : entry ∈ (ofList pairs).entries) : entry ∈ pairs := by
  have held : ∀ map : OrderedMap κ α,
      entry ∈ (pairs.foldl (fun map pair => map.insert pair.1 pair.2) map).entries →
        entry ∈ map.entries ∨ entry ∈ pairs := by
    clear member
    induction pairs with
    | nil => exact fun map member => .inl member
    | cons pair rest induction =>
        intro map member
        rcases induction (map.insert pair.1 pair.2) member with inserted | later
        · rcases mem_insertEntry inserted with same | earlier
          · exact .inr (same ▸ List.mem_cons_self)
          · exact .inl earlier
        · exact .inr (List.mem_cons_of_mem pair later)
  rcases held ∅ member with impossible | listed
  · cases impossible
  · exact listed

theorem get?_eq_some_iff {map : OrderedMap κ α} {key : κ} {value : α} :
    map.get? key = some value ↔ (key, value) ∈ map.entries :=
  lookupEntry_eq_some_iff map.ascending

theorem size_insert {map : OrderedMap κ α} {key : κ} (absent : map.get? key = none) (value : α) :
    (map.insert key value).size = map.size + 1 :=
  length_insertEntry absent

private theorem get?_insertAll_of_not_mem [DecidableEq κ] {pairs : List (κ × α)} {key : κ}
    (absent : key ∉ pairs.map Prod.fst) (map : OrderedMap κ α) :
    (pairs.foldl (fun map pair => map.insert pair.1 pair.2) map).get? key = map.get? key := by
  induction pairs generalizing map with
  | nil => rfl
  | cons pair rest induction =>
      rw [List.map_cons, List.mem_cons, not_or] at absent
      rw [List.foldl_cons, induction absent.2, get?_insert, if_neg absent.1]

theorem get?_ofList_eq_some_iff [DecidableEq κ] {pairs : List (κ × α)}
    (distinct : (pairs.map Prod.fst).Nodup) {key : κ} {value : α} :
    (ofList pairs).get? key = some value ↔ (key, value) ∈ pairs := by
  refine ⟨fun found => mem_of_mem_ofList (get?_eq_some_iff.mp found), fun member => ?_⟩
  suffices held : ∀ map : OrderedMap κ α,
      (pairs.foldl (fun map pair => map.insert pair.1 pair.2) map).get? key = some value from held ∅
  induction pairs with
  | nil => cases member
  | cons pair rest induction =>
      intro map
      obtain ⟨fresh, distinct⟩ := List.nodup_cons.mp distinct
      rw [List.foldl_cons]
      rcases List.mem_cons.mp member with rfl | later
      · rw [get?_insertAll_of_not_mem fresh, get?_insert, if_pos rfl]
      · exact induction distinct later _

theorem size_ofList [DecidableEq κ] {pairs : List (κ × α)}
    (distinct : (pairs.map Prod.fst).Nodup) : (ofList pairs).size = pairs.length := by
  suffices grown : ∀ map : OrderedMap κ α, (∀ pair ∈ pairs, map.get? pair.1 = none) →
      (pairs.foldl (fun map pair => map.insert pair.1 pair.2) map).size =
        map.size + pairs.length by
    rw [ofList, grown ∅ (fun _ _ => rfl), size_empty, Nat.zero_add]
  induction pairs with
  | nil => exact fun map _ => rfl
  | cons pair rest induction =>
      intro map absent
      obtain ⟨fresh, distinct⟩ := List.nodup_cons.mp distinct
      have stillAbsent : ∀ other ∈ rest, (map.insert pair.1 pair.2).get? other.1 = none := by
        intro other member
        have different : other.1 ≠ pair.1 :=
          fun same => fresh (same ▸ List.mem_map_of_mem member)
        rw [get?_insert, if_neg different]
        exact absent other (List.mem_cons_of_mem pair member)
      rw [List.foldl_cons, induction distinct _ stillAbsent,
        size_insert (absent pair List.mem_cons_self), List.length_cons]
      omega

@[ext] theorem ext {left right : OrderedMap κ α}
    (lookupEq : ∀ key, left.get? key = right.get? key) : left = right := by
  have entriesEq := eq_of_lookupEntry_eq left.ascending right.ascending lookupEq
  cases left; cases right; simpa using entriesEq

end Lemmas

end OrderedMap

end BlockNames
