import BlockNames.Error
import BlockNames.SymbolTable.Basic

/-!
Tables that can be read backwards. In such a table every index of a namespace belongs to one name,
global indices are not negative and local indices are.
-/
namespace BlockNames

namespace SymbolTable

/-- The namespaces of the table with their labels and numberings, in the order in which they are
checked. -/
def namespaces (table : SymbolTable) : List (String × Numbering × Namespace) :=
  table.locals.entries.map (fun (function, names) =>
    ("locals." ++ function, .descending, names)) ++
  [("function", .ascending, table.functionNames),
    ("list", .ascending, table.listNames),
    ("variable", .ascending, table.variableNames),
    ("image", .ascending, table.imageNames)] ++
  (table.event.map fun names => (eventHandlerKind ++ ".locals", .descending, names)).toList

def fault? (table : SymbolTable) : Option (String × NumberingFault) :=
  table.namespaces.findSome? fun (label, numbering, names) =>
    (names.fault? numbering).map (label, ·)

end SymbolTable

structure InvertibleTable extends SymbolTable where
  faultless : toSymbolTable.fault? = none

def SymbolTable.invertible (table : SymbolTable) : Except CompactionError InvertibleTable :=
  match checked : table.fault? with
  | none => .ok ⟨table, checked⟩
  | some (label, fault) => .error (.invalidTable label (.numbering fault))

namespace InvertibleTable

def functionName? (table : InvertibleTable) (index : Int) : Option String :=
  table.functionNames.nameOf? index

/-- The function that a value means, either by name or by index. -/
def functionOf? (table : InvertibleTable) : Json → Option String
  | .str name => some name
  | value => value.index?.bind table.functionName?

def localsOf? (table : InvertibleTable) (target : Option Json) : Option Namespace :=
  (target.bind table.functionOf?).bind fun name => table.localNames? (.function name)

end InvertibleTable

end BlockNames
