import BlockNames.Json.Basic

/-! The compact text of a data tree: no blanks, and no escapes but those that the format demands. -/

namespace BlockNames

def Number.text : Number → String
  | .integer value => toString value
  | .oversize value _ => toString value
  | .decimal value => value.text

namespace Json

/-- Quotes, backslashes and control characters are escaped; any other character stands for
itself. -/
def escapeChar (character : Char) : List Char :=
  match character with
  | '"' => ['\\', '"']
  | '\\' => ['\\', '\\']
  | '\x08' => ['\\', 'b']
  | '\x0c' => ['\\', 'f']
  | '\n' => ['\\', 'n']
  | '\r' => ['\\', 'r']
  | '\t' => ['\\', 't']
  | _ =>
      if character.toNat < 0x20 then
        ['\\', 'u', '0', '0', Nat.digitChar (character.toNat / 16),
          Nat.digitChar (character.toNat % 16)]
      else
        [character]

def stringText (value : String) : String :=
  String.ofList ('"' :: value.toList.flatMap escapeChar ++ ['"'])

mutual
def text : Json → String
  | .null => "null"
  | .bool true => "true"
  | .bool false => "false"
  | .num value => value.text
  | .str value => stringText value
  | .arr items => "[" ++ itemsText items ++ "]"
  | .obj fields => "\x7b" ++ fieldsText fields ++ "\x7d"

def itemsText : List Json → String
  | [] => ""
  | [item] => text item
  | item :: next :: rest => text item ++ "," ++ itemsText (next :: rest)

def fieldsText : List (String × Json) → String
  | [] => ""
  | [(key, value)] => stringText key ++ ":" ++ text value
  | (key, value) :: next :: rest =>
      stringText key ++ ":" ++ text value ++ "," ++ fieldsText (next :: rest)
end

end Json

end BlockNames
