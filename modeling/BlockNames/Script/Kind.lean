import BlockNames.Json.Basic

/-!
The vocabulary of block programs. Scripts and blocks are objects told apart by the string in their
field `name`; a few further fields hold names.
-/
namespace BlockNames

namespace Key

/-- Tells scripts and blocks apart. -/
def kind := "name"
def arguments := "args"
def locals := "locals"
def scripts := "scripts"
def portSettings := "port-settings"
def portParameters := "port-parameters"
/-- Source positions attached by the editor; they mean nothing to the program. -/
def annotation := "python-info"

end Key

/-- The kind of a script that reacts to the start of the program. -/
def eventHandlerKind := "when-green-flag-clicked"

def callKind := "call-function"

inductive NameKind
  | variable
  | list
  | image
  | function
deriving DecidableEq

namespace NameKind

/-- The field that holds a name of this kind. The scripts that declare such names have this very
word for their kind. -/
def key : NameKind → String
  | .variable => "variable"
  | .list => "list"
  | .image => "image"
  | .function => "function"

/-- All kinds, in the order in which the names of a block are looked up. -/
def all : List NameKind := [.variable, .list, .image, .function]

def ofKey? (key : String) : Option NameKind :=
  all.find? (·.key = key)

end NameKind

inductive ScriptKind
  | eventHandler
  /-- Declares a name; its own field for that kind holds the name. -/
  | declaration (kind : NameKind)
  | other
deriving DecidableEq

def ScriptKind.ofFields (fields : Json.Fields) : ScriptKind :=
  match fields.string? Key.kind with
  | none => .other
  | some word =>
      if word = eventHandlerKind then .eventHandler
      else match NameKind.ofKey? word with
        | some kind => .declaration kind
        | none => .other

/-- The names that field `key` declares. It holds a list of objects that name a variable each;
entries without a name are passed over. -/
def Json.Fields.declaredNames (fields : Json.Fields) (key : String) : List String :=
  (((fields.lookup key).bind Json.items?).getD []).filterMap fun entry =>
    entry.fields?.bind (·.string? NameKind.variable.key)

/-- What owns local names: the event handler or a function. -/
inductive Scope
  | event
  | function (name : String)
deriving DecidableEq

namespace Scope

/-- The name by which reports refer to the scope. -/
def label : Scope → String
  | .event => eventHandlerKind
  | .function name => name

def ofFields? (fields : Json.Fields) : Option Scope :=
  match ScriptKind.ofFields fields with
  | .eventHandler => some .event
  | .declaration .function => (fields.string? NameKind.function.key).map .function
  | .declaration _ | .other => none

end Scope

end BlockNames
