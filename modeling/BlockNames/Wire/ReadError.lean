import BlockNames.Json.Text
import BlockNames.Text.Quoted

/-! Why a data tree cannot be read as a value, and how messages say it. -/

namespace BlockNames

inductive Expected
  | record (title : String)
  | map
  | index
  | string
  | sequence
  | variant
  | unit
deriving DecidableEq

def Expected.text : Expected → String
  | .record title => "struct " ++ title
  | .map => "a map"
  | .index => "i64"
  | .string => "a string"
  | .sequence => "a sequence"
  | .variant => "string or map"
  | .unit => "unit"

inductive ReadError
  | wrongType (found : Json) (expected : Expected)
  | indexTooLarge (value : Nat)
  | noSingleKey
  | unknownVariant (name : String) (known : List String)
  | missingField (key : String)
  | tooManyElements (count : Nat)
  /-- An array that stands for a record has fewer elements than the record has fields. -/
  | tooFewElements (count : Nat) (title : String) (fields : Nat)
deriving DecidableEq

/-- What a message calls a value. Scalars are shown, arrays and objects are not. -/
def Json.description : Json → String
  | .null => "null"
  | .bool true => "boolean `true`"
  | .bool false => "boolean `false`"
  | .num (.decimal value) => "floating point `" ++ value.text ++ "`"
  | .num (.integer value) => "integer `" ++ toString value ++ "`"
  | .num (.oversize value _) => "integer `" ++ toString value ++ "`"
  | .str value => "string " ++ Text.quoted value
  | .arr _ => "sequence"
  | .obj _ => "map"

namespace ReadError

private def alternativesText (known : List String) : String :=
  let marked := known.map fun name => "`" ++ name ++ "`"
  match marked with
  | [] => "there are no variants"
  | [only] => "expected " ++ only
  | [first, second] => "expected " ++ first ++ " or " ++ second
  | _ => "expected one of " ++ String.intercalate ", " marked

def text : ReadError → String
  | .wrongType found expected =>
      "invalid type: " ++ found.description ++ ", expected " ++ expected.text
  | .indexTooLarge value =>
      "invalid value: integer `" ++ toString value ++ "`, expected " ++ Expected.index.text
  | .noSingleKey => "invalid value: map, expected map with a single key"
  | .unknownVariant name known => "unknown variant `" ++ name ++ "`, " ++ alternativesText known
  | .missingField key => "missing field `" ++ key ++ "`"
  | .tooManyElements count =>
      "invalid length " ++ toString count ++ ", expected fewer elements in array"
  | .tooFewElements count title fields =>
      "invalid length " ++ toString count ++ ", expected " ++ (Expected.record title).text ++
        " with " ++ toString fields ++ (if fields = 1 then " element" else " elements")

end ReadError

end BlockNames
