import BlockNames.Namespace
import BlockNames.Script.Kind

/-!
The symbol table of a program: a namespace for each kind of global name, and one for the local names
of every scope.
-/
namespace BlockNames

structure SymbolTable where
  /-- The local names of the event handler, if there is one. -/
  event : Option Namespace := none
  locals : OrderedMap String Namespace := ∅
  functionNames : Namespace := ∅
  listNames : Namespace := ∅
  variableNames : Namespace := ∅
  imageNames : Namespace := ∅
deriving DecidableEq

namespace SymbolTable

instance : EmptyCollection SymbolTable := ⟨{}⟩

instance : Inhabited SymbolTable := ⟨∅⟩

def globalNames (table : SymbolTable) : NameKind → Namespace
  | .variable => table.variableNames
  | .list => table.listNames
  | .image => table.imageNames
  | .function => table.functionNames

def setGlobalNames (table : SymbolTable) (kind : NameKind) (names : Namespace) : SymbolTable :=
  match kind with
  | .variable => { table with variableNames := names }
  | .list => { table with listNames := names }
  | .image => { table with imageNames := names }
  | .function => { table with functionNames := names }

/-- The local names of a scope, or `none` if the table does not know the scope. -/
def localNames? (table : SymbolTable) : Scope → Option Namespace
  | .event => table.event
  | .function name => table.locals.get? name

/-- The local names of a scope; a scope that the table does not know has none. -/
def localNames (table : SymbolTable) (scope : Scope) : Namespace :=
  (table.localNames? scope).getD ∅

def setLocalNames (table : SymbolTable) (scope : Scope) (names : Namespace) : SymbolTable :=
  match scope with
  | .event => { table with event := some names }
  | .function name => { table with locals := table.locals.insert name names }

def declareGlobal (table : SymbolTable) (kind : NameKind) (name : String) : SymbolTable :=
  table.setGlobalNames kind ((table.globalNames kind).declare .ascending name)

/-- Gives the local names of a scope indices and makes the scope known. -/
def declareLocals (table : SymbolTable) (scope : Scope) (names : List String) : SymbolTable :=
  table.setLocalNames scope ((table.localNames scope).declareAll .descending names)

@[simp] theorem globalNames_setGlobalNames (table : SymbolTable) (kind probe : NameKind)
    (names : Namespace) :
    (table.setGlobalNames kind names).globalNames probe =
      if probe = kind then names else table.globalNames probe := by
  cases kind <;> cases probe <;> rfl

@[simp] theorem localNames?_setGlobalNames (table : SymbolTable) (kind : NameKind)
    (scope : Scope) (names : Namespace) :
    (table.setGlobalNames kind names).localNames? scope = table.localNames? scope := by
  cases kind <;> cases scope <;> rfl

@[simp] theorem globalNames_setLocalNames (table : SymbolTable) (kind : NameKind)
    (scope : Scope) (names : Namespace) :
    (table.setLocalNames scope names).globalNames kind = table.globalNames kind := by
  cases kind <;> cases scope <;> rfl

@[simp] theorem localNames?_setLocalNames (table : SymbolTable) (scope probe : Scope)
    (names : Namespace) :
    (table.setLocalNames scope names).localNames? probe =
      if probe = scope then some names else table.localNames? probe := by
  cases scope with
  | event => cases probe <;> simp [setLocalNames, localNames?]
  | function name =>
      cases probe with
      | event => simp [setLocalNames, localNames?]
      | function other => simp [setLocalNames, localNames?, OrderedMap.get?_insert]

end SymbolTable

end BlockNames
