import BlockNames.Compaction
import BlockNames.Restoration

/-!
An editing session holds a value and the symbol table for it. A step replaces one of them or both; a
step that fails leaves the session as it was.
-/
namespace BlockNames

structure Session where
  value : Json := .null
  table : SymbolTable := ∅
deriving DecidableEq

/-- The script list that a value holds: a program holds it among its fields, and any other value is
taken for the list itself. -/
def Json.scriptList? : Json → Option (List Json)
  | .obj program => (program.lookup Key.scripts).bind Json.items?
  | value => value.items?

namespace Session

inductive Step
  | setValue (value : Json)
  | setTable (table : SymbolTable)
  /-- Builds the table from the scripts of the value. -/
  | build
  | compact (options : Options)
  /-- Compacts the value under the usual options and keeps the table. -/
  | compactValue
  | resolveLocals
  | resolveGlobals
  | resolve
  | restore
  | declareGlobal (kind : NameKind) (name : String)
  | declareLocal (scope : Scope) (name : String)
deriving DecidableEq

inductive Reply
  | done
  | unresolved (names : List UnresolvedName)
  | index (value : Int)
deriving DecidableEq

inductive StepError
  | compaction (error : CompactionError)
  | noScriptList
deriving DecidableEq

private def resolved (session : Session) (resolution : Resolution) : Reply × Session :=
  (.unresolved resolution.unresolved, { session with value := resolution.value })

def perform (session : Session) : Step → Except StepError (Reply × Session)
  | .setValue value => .ok (.done, { session with value })
  | .setTable table => .ok (.done, { session with table })
  | .build =>
      match session.value.scriptList? with
      | some scripts => .ok (.done, { session with table := SymbolTable.ofScripts scripts })
      | none => .error .noScriptList
  | .compact options =>
      match session.value.compact options with
      | .ok compaction =>
          .ok (.unresolved compaction.unresolved, ⟨compaction.value, compaction.table⟩)
      | .error error => .error (.compaction error)
  | .compactValue =>
      match session.value.compact default with
      | .ok compaction => .ok (.done, { session with value := compaction.value })
      | .error error => .error (.compaction error)
  | .resolveLocals =>
      .ok (.done, { session with value := session.table.resolveLocals session.value })
  | .resolveGlobals => .ok (session.resolved (session.table.resolveGlobals session.value))
  | .resolve => .ok (session.resolved (session.table.resolve session.value))
  | .restore =>
      match session.value.restore session.table with
      | .ok value => .ok (.done, { session with value })
      | .error error => .error (.compaction error)
  | .declareGlobal kind name =>
      .ok (.index ((session.table.globalNames kind).declaredIndex .ascending name),
        { session with table := session.table.declareGlobal kind name })
  | .declareLocal scope name =>
      .ok (.index ((session.table.localNames scope).declaredIndex .descending name),
        { session with table := session.table.declareLocals scope [name] })

def events (session : Session) : Step → List Event
  | .build =>
      match session.value.scriptList? with
      | some scripts => [(SymbolTable.ofScripts scripts).builtEvent]
      | none => []
  | .compact _ | .compactValue => session.value.compactionEvents
  | .resolveGlobals =>
      (session.table.resolveGlobals session.value).unresolved.map .unresolved
  | .resolve => (session.table.resolve session.value).unresolved.map .unresolved
  | .restore => session.value.restorationEvents session.table
  | .setValue _ | .setTable _ | .resolveLocals | .declareGlobal .. | .declareLocal .. => []

end Session

end BlockNames
