import BlockNames.Script.Reference
import BlockNames.SymbolTable.Invertible

/-!
Restoring names from indices. A negative index of a variable is looked up in the scope of its script
and any other index among the global names; the bindings of a call are looked up among the local
names of its target. An index without a name stays, and is reported.
-/
namespace BlockNames

def InvertibleTable.namesAt (table : InvertibleTable) (scope : Option Namespace) (index : Int) :
    Site → Option Namespace
  | .name .variable => if index < 0 then scope else some table.variableNames
  | .name kind => some (table.globalNames kind)
  | .binding target => table.localsOf? target

def InvertibleTable.nameAt? (table : InvertibleTable) (scope : Option Namespace) (site : Site)
    (index : Int) : Option String :=
  (table.namesAt scope index site).bind (·.nameOf? index)

/-- The name of an index at a reference. Any value but an index with a name stays. -/
def InvertibleTable.restored (table : InvertibleTable) (scope : Option Namespace) (site : Site)
    (value : Json) : Json :=
  match value.index? with
  | none => value
  | some index =>
      match table.nameAt? scope site index with
      | some name => .str name
      | none => value

def InvertibleTable.unknownIndex? (table : InvertibleTable) (scope : Option Namespace)
    (reference : Reference) : Option Event :=
  match reference.value.index? with
  | none => none
  | some index =>
      match table.nameAt? scope reference.site index with
      | some _ => none
      | none => some (.unknownIndex reference.site.field index)

/-- The name of the argument in this place, counted from one. A place without a name gets one. -/
def Namespace.argumentName (locals : Namespace) (position : Nat) : String :=
  (locals.nameOf? (-position)).getD ("arg" ++ toString position)

def Namespace.argumentDeclarations (locals : Namespace) (count : Nat) : List Json :=
  (List.range' 1 count).map fun position =>
    .obj [(NameKind.variable.key, .str (locals.argumentName position))]

/-- Puts declarations in place of an argument count. There must be a local name for each
argument. -/
def Namespace.restoreArguments (locals : Namespace) (function : String) (script : Json.Fields) :
    Except CompactionError Json.Fields :=
  match (script.lookup Key.arguments).bind Json.count? with
  | none => .ok script
  | some count =>
      if count ≤ locals.size then
        .ok (script.replace Key.arguments (.arr (locals.argumentDeclarations count)))
      else
        .error (.argumentCount function count locals.size)

namespace InvertibleTable

def definedFunction? (table : InvertibleTable) (script : Json.Fields) : Option String :=
  match ScriptKind.ofFields script with
  | .declaration .function => (script.lookup NameKind.function.key).bind table.functionOf?
  | .eventHandler | .declaration _ | .other => none

def scriptLocals? (table : InvertibleTable) (script : Json.Fields) : Option Namespace :=
  match ScriptKind.ofFields script with
  | .eventHandler => table.event
  | .declaration .function => table.localsOf? (script.lookup NameKind.function.key)
  | .declaration _ | .other => none

def restoreScriptArguments (table : InvertibleTable) (script : Json.Fields) :
    Except CompactionError Json.Fields :=
  match table.definedFunction? script with
  | none => .ok script
  | some function =>
      match table.localNames? (.function function) with
      | none => .ok script
      | some locals => locals.restoreArguments function script

def restoreScript (table : InvertibleTable) : Json → Except CompactionError Json
  | .obj script => do
      let declared ← table.restoreScriptArguments script
      return (Json.obj declared).rewrite (table.restored (table.scriptLocals? script)) .value
  | item => .ok (item.rewrite (table.restored none) .value)

/-- Restores a list of scripts, up to the first that fails. What is no list is searched as a value
outside all scopes. -/
def restoreScripts (table : InvertibleTable) : Json → Except CompactionError Json
  | .arr scripts => do
      let restored ← scripts.mapM table.restoreScript
      return .arr restored
  | scripts => .ok (scripts.rewrite (table.restored none) .value)

/-- Restores a list of scripts or the scripts of a program. Any other value stays as it is. -/
def restore (table : InvertibleTable) : Json → Except CompactionError Json
  | .arr scripts => table.restoreScripts (.arr scripts)
  | .obj program =>
      match program.lookup Key.scripts with
      | none => .ok (.obj program)
      | some scripts => do
          let restored ← table.restoreScripts scripts
          return .obj (Json.Fields.replace program Key.scripts restored)
  | value => .ok value

end InvertibleTable

def Json.restore (value : Json) (table : SymbolTable) : Except CompactionError Json := do
  let invertible ← table.invertible
  invertible.restore value

namespace InvertibleTable

def unknownIndices (table : InvertibleTable) (scope : Option Namespace) (value : Json) :
    List Event :=
  (value.references .value).filterMap (table.unknownIndex? scope)

def unknownFunction? (table : InvertibleTable) (script : Json.Fields) : Option Event :=
  match ScriptKind.ofFields script with
  | .declaration .function =>
      if ((script.lookup Key.arguments).bind Json.count?).isSome ∧
          table.scriptLocals? script = none then
        some .unknownFunction
      else
        none
  | .eventHandler | .declaration _ | .other => none

def scriptEvents (table : InvertibleTable) : Json → List Event
  | .obj script =>
      match table.restoreScriptArguments script with
      | .error _ => []
      | .ok declared =>
          (table.unknownFunction? script).toList ++
            table.unknownIndices (table.scriptLocals? script) (.obj declared)
  | item => table.unknownIndices none item

/-- The log of a list of scripts: the scripts before the first that fails are logged. -/
def scriptsEvents (table : InvertibleTable) : Json → List Event
  | .arr scripts =>
      (scripts.takeWhile fun script => (table.restoreScript script).isOk).flatMap
        table.scriptEvents
  | scripts => table.unknownIndices none scripts

def events (table : InvertibleTable) : Json → List Event
  | .arr scripts => table.scriptsEvents (.arr scripts)
  | .obj program => ((program.lookup Key.scripts).map table.scriptsEvents).getD []
  | _ => []

end InvertibleTable

/-- The log of the restoration of a value. A table that cannot be read backwards logs nothing. -/
def Json.restorationEvents (value : Json) (table : SymbolTable) : List Event :=
  match table.invertible with
  | .ok invertible => invertible.events value
  | .error _ => []

end BlockNames
