import BlockNames.Json.Basic

/-!
Documents: data trees as they are read, in which no object holds a key twice.
-/
namespace BlockNames

namespace Json

mutual
/-- No object in the tree holds a key twice. -/
def DistinctKeys : Json → Prop
  | .arr items => DistinctItemKeys items
  | .obj fields => (fields.map Prod.fst).Nodup ∧ DistinctFieldKeys fields
  | .null | .bool _ | .num _ | .str _ => True

def DistinctItemKeys : List Json → Prop
  | [] => True
  | item :: rest => DistinctKeys item ∧ DistinctItemKeys rest

def DistinctFieldKeys : List (String × Json) → Prop
  | [] => True
  | (_, value) :: rest => DistinctKeys value ∧ DistinctFieldKeys rest
end

mutual
private def decideDistinctKeys : (tree : Json) → Decidable tree.DistinctKeys
  | .arr items => decideDistinctItemKeys items
  | .obj fields =>
      have := decideDistinctFieldKeys fields
      inferInstanceAs (Decidable ((fields.map Prod.fst).Nodup ∧ DistinctFieldKeys fields))
  | .null | .bool _ | .num _ | .str _ => isTrue trivial

private def decideDistinctItemKeys : (items : List Json) → Decidable (DistinctItemKeys items)
  | [] => isTrue trivial
  | item :: rest =>
      have := decideDistinctKeys item
      have := decideDistinctItemKeys rest
      inferInstanceAs (Decidable (_ ∧ _))

private def decideDistinctFieldKeys :
    (fields : List (String × Json)) → Decidable (DistinctFieldKeys fields)
  | [] => isTrue trivial
  | (_, value) :: rest =>
      have := decideDistinctKeys value
      have := decideDistinctFieldKeys rest
      inferInstanceAs (Decidable (_ ∧ _))
end

instance (tree : Json) : Decidable tree.DistinctKeys :=
  decideDistinctKeys tree

theorem distinctItemKeys_iff (items : List Json) :
    DistinctItemKeys items ↔ ∀ item ∈ items, item.DistinctKeys := by
  induction items with
  | nil => simp [DistinctItemKeys]
  | cons item rest induction => simp [DistinctItemKeys, induction]

theorem distinctFieldKeys_iff (fields : Fields) :
    DistinctFieldKeys fields ↔ ∀ field ∈ fields, field.2.DistinctKeys := by
  induction fields with
  | nil => simp [DistinctFieldKeys]
  | cons field rest induction => simp [DistinctFieldKeys, induction]

theorem distinctKeys_object {fields : Fields} (values : ∀ field ∈ fields, field.2.DistinctKeys) :
    (object fields).DistinctKeys := by
  refine ⟨?_, ?_⟩
  · exact (OrderedMap.ofList fields).nodup_keys
  · rw [distinctFieldKeys_iff]
    intro field member
    exact values field (OrderedMap.mem_of_mem_ofList member)

end Json

/-- A data tree in which no object holds a key twice. -/
structure Document where
  tree : Json
  distinctKeys : tree.DistinctKeys

/-- A list of scripts in which no object holds a key twice. -/
structure ScriptList where
  items : List Json
  distinctKeys : (Json.arr items).DistinctKeys

end BlockNames
