import BlockNames.Json.Decimal
import BlockNames.OrderedMap

/-!
Data trees in the JSON format. Numbers are told apart by what they can be read as: an integer may be
an index or a count, an oversize integer only a count, a decimal neither.
-/
namespace BlockNames

/-- Integers from this bound on are too large for an index. It is the first that 63 bits do not
hold. -/
def indexBound : Int := 0x8000000000000000

inductive Number
  | integer (value : Int)
  | oversize (value : Nat) (large : indexBound ≤ value)
  | decimal (value : Decimal)
deriving DecidableEq

namespace Number

def ofInt (value : Int) : Number :=
  if small : value < indexBound then
    .integer value
  else
    .oversize value.toNat (Int.le_trans (Int.not_lt.mp small) (Int.self_le_toNat value))

def index? : Number → Option Int
  | .integer value => some value
  | .oversize .. | .decimal _ => none

def count? : Number → Option Nat
  | .integer value => value.toNat?
  | .oversize value _ => some value
  | .decimal _ => none

end Number

/-- A data tree. The fields of an object are listed in key order. -/
inductive Json
  | null
  | bool (value : Bool)
  | num (value : Number)
  | str (value : String)
  | arr (items : List Json)
  | obj (fields : List (String × Json))

namespace Json

abbrev Fields := List (String × Json)

mutual
private def decideEq : (left right : Json) → Decidable (left = right)
  | .null, .null => isTrue rfl
  | .bool left, .bool right => decidable_of_iff (left = right) (by simp)
  | .num left, .num right => decidable_of_iff (left = right) (by simp)
  | .str left, .str right => decidable_of_iff (left = right) (by simp)
  | .arr left, .arr right =>
      have := decideItemsEq left right
      decidable_of_iff (left = right) (by simp)
  | .obj left, .obj right =>
      have := decideFieldsEq left right
      decidable_of_iff (left = right) (by simp)
  | .null, .bool _ | .null, .num _ | .null, .str _ | .null, .arr _ | .null, .obj _
  | .bool _, .null | .bool _, .num _ | .bool _, .str _ | .bool _, .arr _ | .bool _, .obj _
  | .num _, .null | .num _, .bool _ | .num _, .str _ | .num _, .arr _ | .num _, .obj _
  | .str _, .null | .str _, .bool _ | .str _, .num _ | .str _, .arr _ | .str _, .obj _
  | .arr _, .null | .arr _, .bool _ | .arr _, .num _ | .arr _, .str _ | .arr _, .obj _
  | .obj _, .null | .obj _, .bool _ | .obj _, .num _ | .obj _, .str _ | .obj _, .arr _ =>
      isFalse nofun

private def decideItemsEq : (left right : List Json) → Decidable (left = right)
  | [], [] => isTrue rfl
  | [], _ :: _ | _ :: _, [] => isFalse nofun
  | left :: lefts, right :: rights =>
      have := decideEq left right
      have := decideItemsEq lefts rights
      decidable_of_iff (left = right ∧ lefts = rights) (by simp)

private def decideFieldsEq : (left right : List (String × Json)) → Decidable (left = right)
  | [], [] => isTrue rfl
  | [], _ :: _ | _ :: _, [] => isFalse nofun
  | (leftKey, left) :: lefts, (rightKey, right) :: rights =>
      have := decideEq left right
      have := decideFieldsEq lefts rights
      decidable_of_iff (leftKey = rightKey ∧ left = right ∧ lefts = rights)
        (by simp [and_assoc])
end

instance : DecidableEq Json := decideEq

instance : Inhabited Json := ⟨.null⟩

/-- The object with these fields in key order; of equal keys the last field counts. -/
def object (fields : Fields) : Json :=
  .obj (OrderedMap.ofList fields).entries

def index (value : Int) : Json :=
  .num (.integer value)

def str? : Json → Option String
  | .str value => some value
  | _ => none

def index? : Json → Option Int
  | .num value => value.index?
  | _ => none

def count? : Json → Option Nat
  | .num value => value.count?
  | _ => none

def items? : Json → Option (List Json)
  | .arr items => some items
  | _ => none

def fields? : Json → Option Fields
  | .obj fields => some fields
  | _ => none

def Fields.string? (fields : Fields) (key : String) : Option String :=
  (fields.lookup key).bind str?

/-- Puts `value` in place of what field `key` holds; an absent field stays absent. -/
def Fields.replace (fields : Fields) (key : String) (value : Json) : Fields :=
  fields.map fun field => if field.1 = key then (key, value) else field

/-- Adds field `key` at its place unless it is present. -/
def Fields.insertIfNew (fields : Fields) (key : String) (value : Json) : Fields :=
  if (fields.lookup key).isSome then fields else OrderedMap.insertEntry key value fields

end Json

end BlockNames
