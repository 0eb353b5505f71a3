import BlockNames.Error
import BlockNames.Resolution
import BlockNames.SymbolTable.Declaration

/-!
Compaction of a whole value: a program object with a list of scripts among its fields, or a bare
list of scripts. The symbol table comes from the scripts themselves.
-/
namespace BlockNames

/-- A value with its names replaced, the table that gives them back, and the names that stayed. -/
@[ext] structure Compaction where
  value : Json
  table : SymbolTable := ∅
  unresolved : List UnresolvedName := []
deriving DecidableEq

inductive Policy
  /-- It stays in the value and is reported. -/
  | keep
  /-- The whole compaction fails. -/
  | reject
deriving DecidableEq

structure Options where
  unresolved : Policy := .keep
deriving DecidableEq

instance : Inhabited Options := ⟨{}⟩

namespace Compaction

def ofScripts (scripts : List Json) : Compaction :=
  let table := SymbolTable.ofScripts scripts
  let resolution := table.resolve (.arr scripts)
  ⟨resolution.value, table, resolution.unresolved⟩

/-- Compacts a program. Its scripts are resolved, its other fields lose their annotations, and
missing port tables are added as empty ones. -/
def ofProgram (program : Json.Fields) : Compaction :=
  let scripts := program.lookup Key.scripts
  let table := SymbolTable.ofScripts ((scripts.bind Json.items?).getD [])
  let compacted := (program.filter (·.1 ≠ Key.annotation)).map fun (key, value) =>
    (key, if key = Key.scripts then (table.resolve value).value else value.eraseAnnotations)
  let completed := Json.Fields.insertIfNew
    (Json.Fields.insertIfNew compacted Key.portSettings (.obj [])) Key.portParameters (.obj [])
  ⟨.obj completed, table, ((scripts.map table.resolve).map (·.unresolved)).getD []⟩

/-- Compacts a program or a list of scripts. Scalars and the empty list stay as they are. -/
def ofValue : Json → Compaction
  | .obj program => ofProgram program
  | .arr (first :: rest) => ofScripts (first :: rest)
  | value => { value }

def enforce (options : Options) (compaction : Compaction) : Except CompactionError Compaction :=
  match options.unresolved, compaction.unresolved with
  | .reject, first :: rest => .error (.unresolvedNames (first :: rest))
  | _, _ => .ok compaction

end Compaction

def Json.compact (options : Options) (value : Json) : Except CompactionError Compaction :=
  (Compaction.ofValue value).enforce options

/-! The log of a compaction does not depend on the options. -/

def SymbolTable.builtEvent (table : SymbolTable) : Event :=
  .tableBuilt table.functionNames.size table.listNames.size table.variableNames.size
    table.imageNames.size

def Compaction.events (compaction : Compaction) : List Event :=
  compaction.table.builtEvent :: compaction.unresolved.map .unresolved

def Json.compactionEvents : Json → List Event
  | .obj program => (Compaction.ofProgram program).events
  | .arr (first :: rest) => (Compaction.ofScripts (first :: rest)).events
  | _ => []

end BlockNames
