import BlockNames.Text.CodePoint

/-! Texts in quotation marks, as messages show them. -/

namespace BlockNames.Text

/-- The escapes of quoted texts: a short form for the common controls, the quotation mark and the
backslash, and the code point in braces for any other character that cannot be seen. -/
def quotedChar (character : Char) : List Char :=
  match character with
  | '\x00' => ['\\', '0']
  | '\t' => ['\\', 't']
  | '\n' => ['\\', 'n']
  | '\r' => ['\\', 'r']
  | '"' => ['\\', '"']
  | '\\' => ['\\', '\\']
  | _ =>
      if isShownByCodePoint character then
        ['\\', 'u', '\x7b'] ++ Nat.toDigits 16 character.toNat ++ ['\x7d']
      else
        [character]

def quoted (text : String) : String :=
  String.ofList ('"' :: text.toList.flatMap quotedChar ++ ['"'])

end BlockNames.Text
