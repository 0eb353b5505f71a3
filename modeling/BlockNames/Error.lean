import BlockNames.Diagnostic
import BlockNames.Namespace
import BlockNames.Wire.ReadError

/-! The errors of the library, each with a stable code and a message. -/

namespace BlockNames

inductive Fault
  | numbering (fault : NumberingFault)
  | unreadable (error : ReadError)
  /-- A fault found by the caller, in the caller's words. -/
  | stated (text : String)
deriving DecidableEq

def NumberingFault.text : NumberingFault → String
  | .wrongSign index name =>
      "index " ++ toString index ++ " of '" ++ name ++ "' has the wrong sign"
  | .sharedIndex index earlier later =>
      "index " ++ toString index ++ " is shared by '" ++ earlier ++ "' and '" ++ later ++ "'"

def Fault.text : Fault → String
  | .numbering fault => fault.text
  | .unreadable error => error.text
  | .stated text => text

inductive CompactionError
  | unresolvedNames (names : List UnresolvedName)
  /-- The named namespace of a symbol table cannot be used. -/
  | invalidTable (label : String) (fault : Fault)
  | invalidOptions (fault : Fault)
  /-- A script counts more arguments than its function has local names. -/
  | argumentCount (function : String) (count declared : Nat)
deriving DecidableEq

namespace CompactionError

def code : CompactionError → String
  | .unresolvedNames _ => "C-ERR-NAME-001"
  | .invalidTable .. => "C-ERR-TABLE-001"
  | .invalidOptions _ => "C-ERR-OPTIONS-001"
  | .argumentCount .. => "C-ERR-ARGS-001"

def message : CompactionError → String
  | .unresolvedNames names =>
      toString names.length ++ " unresolved name(s), first: " ++
        (names.head?.map UnresolvedName.text).getD "<none>"
  | .invalidTable label fault =>
      "invalid symbol table: " ++ label ++ " namespace " ++ fault.text
  | .invalidOptions fault => "invalid options: " ++ fault.text
  | .argumentCount function count declared =>
      "function '" ++ function ++ "' claims " ++ toString count ++
        " argument(s) but declares " ++ toString declared ++ " local(s)"

end CompactionError

end BlockNames
