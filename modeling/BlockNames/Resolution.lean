import BlockNames.Diagnostic
import BlockNames.Script.Annotation
import BlockNames.SymbolTable.Basic

/-!
Replacing names by indices. The variables of a script are looked up in its own scope first. What
that leaves is looked up among the global names, the bindings of a call among the local names of its
target. A name that is found nowhere stays, and is reported.
-/
namespace BlockNames

/-- The index of a name at a reference, among the names that the reference may mean. Any value but a
known name stays. -/
def Json.resolved (namesAt : Site → Option Namespace) (site : Site) : Json → Json
  | .str name =>
      match (namesAt site).bind (·.get? name) with
      | some index => Json.index index
      | none => .str name
  | .arr items => .arr items
  | .obj fields => .obj fields
  | .null => .null
  | .bool value => .bool value
  | .num value => .num value

/-- Within a scope the variables of blocks may mean its local names. -/
def Namespace.atSite (locals : Namespace) : Site → Option Namespace
  | .name .variable => some locals
  | .name _ | .binding _ => none

/-- The global names at a reference. A binding means a local name of the call's target, provided
that the target is given by name; an unknown target has no local names. -/
def SymbolTable.namesAt (table : SymbolTable) : Site → Option Namespace
  | .name kind => some (table.globalNames kind)
  | .binding (some (.str target)) => some (table.localNames (.function target))
  | .binding _ => none

def Reference.unresolved? (namesAt : Site → Option Namespace) (scope : Option String)
    (reference : Reference) : Option UnresolvedName :=
  match reference.value, namesAt reference.site with
  | .str name, some names =>
      if names.contains name then none
      else
        let lookedUpIn :=
          match reference.site with
          | .binding (some (.str target)) => some target
          | _ => scope
        some ⟨reference.site.kind, name, lookedUpIn⟩
  | _, _ => none

/-- Puts the number of arguments in place of their declarations. -/
def Json.Fields.countArguments (fields : Json.Fields) : Json.Fields :=
  match (fields.lookup Key.arguments).bind Json.items? with
  | some declarations => fields.replace Key.arguments (Json.index declarations.length)
  | none => fields

def Namespace.resolveScript (locals : Namespace) (script : Json.Fields) : Json.Fields :=
  Json.rewriteFields (Json.resolved locals.atSite) .block script.countArguments

def ScriptKind.hasLocals : ScriptKind → Bool
  | .eventHandler | .declaration .function => true
  | .declaration _ | .other => false

namespace SymbolTable

/-- Resolves the local variables of one item of a script list. A function without a name has no
local names, yet its arguments are counted. -/
def resolveLocalsOf (table : SymbolTable) : Json → Json
  | .obj fields =>
      if (ScriptKind.ofFields fields).hasLocals then
        let locals := ((Scope.ofFields? fields).map table.localNames).getD ∅
        .obj (locals.resolveScript fields)
      else
        .obj fields
  | item => item

def resolveLocals (table : SymbolTable) : Json → Json
  | .arr scripts => .arr (scripts.map table.resolveLocalsOf)
  | scripts => scripts

end SymbolTable

structure Resolution where
  value : Json
  unresolved : List UnresolvedName
deriving DecidableEq

def Json.reportScope (script : Json) : Option String :=
  (script.fields?.bind Scope.ofFields?).map Scope.label

namespace SymbolTable

def unresolvedIn (table : SymbolTable) (scope : Option String) (script : Json) :
    List UnresolvedName :=
  (script.references .value).filterMap (·.unresolved? table.namesAt scope)

/-- Erases annotations and resolves the remaining names. What is no list is searched as a value
outside all scopes. -/
def resolveGlobals (table : SymbolTable) (scripts : Json) : Resolution :=
  let plain := scripts.eraseAnnotations
  { value := plain.rewrite (Json.resolved table.namesAt) .value
    unresolved :=
      match plain with
      | .arr items => items.flatMap fun item => table.unresolvedIn item.reportScope item
      | other => table.unresolvedIn none other }

def resolve (table : SymbolTable) (scripts : Json) : Resolution :=
  table.resolveGlobals (table.resolveLocals scripts)

end SymbolTable

end BlockNames
