import BlockNames.Compaction
import BlockNames.Wire.SymbolTable

/-! The written form of compactions, of the names that stayed, and of options. -/

namespace BlockNames

namespace UnresolvedName

def toJson (unresolved : UnresolvedName) : Json :=
  .obj [
    ("kind", .str unresolved.kind.word),
    ("name", .str unresolved.name),
    ("scope", (unresolved.scope.map Json.str).getD .null)]

def readKind : Json → Except ReadError ReferenceKind :=
  Json.readVariant (ReferenceKind.all.map fun kind => (kind.word, kind))

/-- An object may leave out the scope; an array gives all three fields. -/
def format : RecordFormat UnresolvedName where
  title := "UnresolvedName"
  initial := ⟨.binding, "", none⟩
  fields := [
    ⟨"kind", true, true, fun unresolved value =>
      ({ unresolved with kind := · }) <$> readKind value⟩,
    ⟨"name", true, true, fun unresolved value =>
      ({ unresolved with name := · }) <$> value.readString⟩,
    ⟨"scope", false, true, fun unresolved value =>
      ({ unresolved with scope := · }) <$> value.readOption Json.readString⟩]

def ofJson : Json → Except ReadError UnresolvedName := format.read

end UnresolvedName

namespace Compaction

def toJson (compaction : Compaction) : Json :=
  .obj [
    ("table", compaction.table.toJson),
    ("unresolved", .arr (compaction.unresolved.map UnresolvedName.toJson)),
    ("value", compaction.value)]

/-- Only the names that stayed may be left out. -/
def format : RecordFormat Compaction where
  title := "Compaction"
  initial := { value := .null }
  fields := [
    ⟨"value", true, true, fun compaction value => .ok { compaction with value }⟩,
    ⟨"table", true, true, fun compaction value =>
      ({ compaction with table := · }) <$> SymbolTable.ofJson value⟩,
    ⟨"unresolved", false, false, fun compaction value =>
      ({ compaction with unresolved := · }) <$> value.readList UnresolvedName.ofJson⟩]

def ofJson : Json → Except ReadError Compaction := format.read

end Compaction

namespace Policy

def word : Policy → String
  | .keep => "keep"
  | .reject => "reject"

def all : List Policy := [.keep, .reject]

end Policy

namespace Options

def toJson (options : Options) : Json :=
  .obj [("unresolved", .str options.unresolved.word)]

def format : RecordFormat Options where
  title := "CompactOptions"
  initial := {}
  fields := [
    ⟨"unresolved", false, false, fun options value =>
      ({ options with unresolved := · }) <$>
        value.readVariant (Policy.all.map fun policy => (policy.word, policy))⟩]

def ofInput (value : Json) : Except CompactionError Options :=
  (format.read value).mapError fun error => .invalidOptions (.unreadable error)

end Options

end BlockNames
