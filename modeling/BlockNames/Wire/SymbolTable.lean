import BlockNames.Error
import BlockNames.SymbolTable.Basic
import BlockNames.Wire.Record

/-!
The written form of symbol tables: an object with all six keys, in which the entry of the event
handler is empty if the program has none.
-/
namespace BlockNames

def Namespace.toJson (names : Namespace) : Json :=
  .obj (names.entries.map fun (name, index) => (name, Json.index index))

def Namespace.ofJson : Json → Except ReadError Namespace :=
  Json.readMap Json.readIndex

namespace SymbolTable

def eventToJson (event : Option Namespace) : Json :=
  .obj (event.map fun names => (Key.locals, names.toJson)).toList

def toJson (table : SymbolTable) : Json :=
  .obj [
    (NameKind.function.key, table.functionNames.toJson),
    (NameKind.image.key, table.imageNames.toJson),
    (NameKind.list.key, table.listNames.toJson),
    (Key.locals, .obj (table.locals.entries.map fun (function, names) =>
      (function, names.toJson))),
    (NameKind.variable.key, table.variableNames.toJson),
    (eventHandlerKind, eventToJson table.event)]

def eventFormat : RecordFormat (Option Namespace) where
  title := "EventScope"
  initial := none
  fields := [⟨Key.locals, false, false, fun _ => Json.readOption Namespace.ofJson⟩]

def namesField (kind : NameKind) : RecordField SymbolTable where
  key := kind.key
  required := false
  reached := false
  store table value := table.setGlobalNames kind <$> Namespace.ofJson value

/-- Every field may be missing. -/
def format : RecordFormat SymbolTable where
  title := "SymbolTable"
  initial := ∅
  fields := [
    ⟨eventHandlerKind, false, false, fun table value =>
      ({ table with event := · }) <$> eventFormat.read value⟩,
    ⟨Key.locals, false, false, fun table value =>
      ({ table with locals := · }) <$> Json.readMap Namespace.ofJson value⟩,
    namesField .function, namesField .list, namesField .variable, namesField .image]

def ofJson : Json → Except ReadError SymbolTable := format.read

def ofInput (value : Json) : Except CompactionError SymbolTable :=
  (ofJson value).mapError fun error => .invalidTable "symbol" (.unreadable error)

end SymbolTable

end BlockNames
