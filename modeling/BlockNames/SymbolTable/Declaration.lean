import BlockNames.SymbolTable.Basic

/-!
The symbol table that a list of scripts declares. Global names are numbered in the order in which
scripts declare them; the local names of a scope in the order of its declarations, arguments first.
-/
namespace BlockNames.SymbolTable

/-- Adds what one script declares. The locals of an event handler are local names, its arguments are
not. A script that should declare a name and has none declares nothing. -/
def declareScript (table : SymbolTable) (fields : Json.Fields) : SymbolTable :=
  match ScriptKind.ofFields fields with
  | .eventHandler => table.declareLocals .event (fields.declaredNames Key.locals)
  | .declaration kind =>
      match fields.string? kind.key with
      | none => table
      | some name =>
          let declared := table.declareGlobal kind name
          match kind with
          | .function =>
              declared.declareLocals (.function name)
                (fields.declaredNames Key.arguments ++ fields.declaredNames Key.locals)
          | .variable | .list | .image => declared
  | .other => table

/-- The table of a list of scripts. Items that are no objects declare nothing. -/
def ofScripts (scripts : List Json) : SymbolTable :=
  (scripts.filterMap Json.fields?).foldl declareScript ∅

end BlockNames.SymbolTable
