import BlockNames.Wire.ReadError

/-!
Reading records from data trees. A record is written as an object, whose fields are read in key
order and whose other keys are passed over, or as an array that gives the fields by position. The
first fault found is the one reported.
-/
namespace BlockNames

structure RecordField (ρ : Type) where
  key : String
  required : Bool
  reached : Bool
  store : ρ → Json → Except ReadError ρ

/-- How a record is read: its fields by position, and the record before any field is stored. -/
structure RecordFormat (ρ : Type) where
  title : String
  fields : List (RecordField ρ)
  initial : ρ

namespace RecordFormat

variable {ρ : Type}

def storeField (format : RecordFormat ρ) (record : ρ) (field : String × Json) :
    Except ReadError ρ :=
  match format.fields.find? (·.key = field.1) with
  | some known => known.store record field.2
  | none => .ok record

def readObject (format : RecordFormat ρ) (fields : Json.Fields) : Except ReadError ρ := do
  let record ← fields.foldlM format.storeField format.initial
  match format.fields.find? fun field => field.required && (fields.lookup field.key).isNone with
  | some missing => .error (.missingField missing.key)
  | none => .ok record

private def readElements (format : RecordFormat ρ) (count : Nat) :
    ρ → List (RecordField ρ) → List Json → Except ReadError ρ
  | record, [], [] => .ok record
  | _, [], _ :: _ => .error (.tooManyElements count)
  | record, field :: fields, element :: elements => do
      format.readElements count (← field.store record element) fields elements
  | record, field :: fields, [] =>
      if field.reached then .error (.tooFewElements count format.title format.fields.length)
      else format.readElements count record fields []

def read (format : RecordFormat ρ) : Json → Except ReadError ρ
  | .obj fields => format.readObject fields
  | .arr elements => format.readElements elements.length format.initial format.fields elements
  | value => .error (.wrongType value (.record format.title))

end RecordFormat

namespace Json

def readIndex : Json → Except ReadError Int
  | .num (.integer value) => .ok value
  | .num (.oversize value _) => .error (.indexTooLarge value)
  | value => .error (.wrongType value .index)

def readString : Json → Except ReadError String
  | .str value => .ok value
  | value => .error (.wrongType value .string)

/-- Reads a value that may be `null` for nothing. -/
def readOption {α : Type} (read : Json → Except ReadError α) : Json → Except ReadError (Option α)
  | .null => .ok none
  | value => some <$> read value

def readList {α : Type} (read : Json → Except ReadError α) : Json → Except ReadError (List α)
  | .arr items => items.mapM read
  | value => .error (.wrongType value .sequence)

def readMap {α : Type} (read : Json → Except ReadError α) :
    Json → Except ReadError (OrderedMap String α)
  | .obj fields => OrderedMap.ofList <$> fields.mapM fun (key, value) => (key, ·) <$> read value
  | value => .error (.wrongType value .map)

/-- Reads one of several named values. It is written as its name, or as an object that holds `null`
under that name. -/
def readVariant {α : Type} (variants : List (String × α)) : Json → Except ReadError α
  | .str name => find name
  | .obj [(name, content)] => do
      let variant ← find name
      match content with
      | .null => .ok variant
      | other => .error (.wrongType other .unit)
  | .obj _ => .error .noSingleKey
  | value => .error (.wrongType value .variant)
where
  find (name : String) : Except ReadError α :=
    match variants.lookup name with
    | some variant => .ok variant
    | none => .error (.unknownVariant name (variants.map (·.1)))

end Json

end BlockNames
