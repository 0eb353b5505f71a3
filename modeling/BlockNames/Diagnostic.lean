import BlockNames.Script.Reference

/-! What is reported while names are replaced and restored. -/

namespace BlockNames

inductive ReferenceKind
  | name (kind : NameKind)
  /-- The name of a parameter of a call's target. -/
  | binding
deriving DecidableEq

namespace ReferenceKind

def word : ReferenceKind → String
  | .name kind => kind.key
  | .binding => "binding"

def all : List ReferenceKind := NameKind.all.map .name ++ [.binding]

end ReferenceKind

def Site.kind : Site → ReferenceKind
  | .name kind => .name kind
  | .binding _ => .binding

structure UnresolvedName where
  kind : ReferenceKind
  name : String
  /-- The scope that the name was looked up in: that of the script, or for a binding the target of
  the call. -/
  scope : Option String
deriving DecidableEq

def UnresolvedName.text (unresolved : UnresolvedName) : String :=
  let subject := unresolved.kind.word ++ " '" ++ unresolved.name ++ "'"
  match unresolved.scope with
  | none => subject
  | some scope => subject ++ " in '" ++ scope ++ "'"

inductive Event
  /-- A symbol table was built; it has this many global names of each kind. -/
  | tableBuilt (functionCount listCount variableCount imageCount : Nat)
  | unresolved (name : UnresolvedName)
  /-- A field for names of this kind holds an index without a name. -/
  | unknownIndex (field : NameKind) (index : Int)
  /-- A script has an argument count, and its function is not in the symbol table. -/
  | unknownFunction
deriving DecidableEq

namespace Event

def level : Event → String
  | .tableBuilt .. => "DEBUG"
  | .unresolved _ | .unknownIndex .. | .unknownFunction => "WARN"

def text : Event → String
  | .tableBuilt functionCount listCount variableCount imageCount =>
      "symbol table: " ++ toString functionCount ++ " function(s), " ++
        toString listCount ++ " list(s), " ++ toString variableCount ++ " variable(s), " ++
        toString imageCount ++ " image(s)"
  | .unresolved name => "unresolved " ++ name.text
  | .unknownIndex field index => "no " ++ field.key ++ " name for index " ++ toString index
  | .unknownFunction => "argument count of an unknown function left as is"

def line (event : Event) : String :=
  event.level ++ " " ++ event.text

end Event

end BlockNames
