import BlockNames.Proofs.MixedNumbering
import BlockNames.Proofs.Restorability
import BlockNames.Proofs.Slot
import BlockNames.Session

/-!
The tables that a session reaches. A step takes the table of scripts, declares a name or leaves the
table as it is, unless it puts a given table in its place. Main statement: without such a step every
namespace stays one to one with the first indices of its numbering, the table can be read backwards,
and a declaration gives one name the index that it answers. A namespace that is numbered both ways
is no part of a table, but keeps its names apart too.
-/
namespace BlockNames

namespace SymbolTable

/-- Each namespace numbers its names in some order. -/
def Numbered (table : SymbolTable) : Prop :=
  ∀ slot, ∃ order, (table.namesIn slot).NumberedBy slot.numbering order

theorem numbered_empty : Numbered ∅ := by
  intro slot
  rw [namesIn_empty]
  exact ⟨[], Namespace.numberedBy_nil _⟩

theorem numbered_ofScripts (scripts : List Json) : (ofScripts scripts).Numbered := by
  intro slot
  cases slot with
  | globalNames kind => exact ⟨_, globalNames_ofScripts_numberedBy scripts kind⟩
  | localNames scope =>
      apply localNames_induction
        (motive := fun names => ∃ order, names.NumberedBy .descending order)
      · exact ⟨[], Namespace.numberedBy_nil _⟩
      · exact fun names known => ⟨_, localNames?_ofScripts_of_eq_some known⟩

namespace Numbered

variable {table : SymbolTable} (numbered : table.Numbered)

include numbered

theorem declareIn (slot : Slot) (name : String) : (table.declareIn slot name).Numbered := by
  intro probe
  rw [namesIn_declareIn]
  split
  next same =>
    subst same
    obtain ⟨order, inOrder⟩ := numbered probe
    exact ⟨_, inOrder.declare name⟩
  next => exact numbered probe

theorem dense (slot : Slot) : (table.namesIn slot).Dense slot.numbering := by
  obtain ⟨order, inOrder⟩ := numbered slot
  exact inOrder.dense

theorem exists_invertible : ∃ inverse, table.invertible = .ok inverse := by
  rw [exists_invertible_iff]
  intro slot
  obtain ⟨order, inOrder⟩ := numbered slot
  exact inOrder.faultless

end Numbered

end SymbolTable

namespace Session

def Step.declare : Slot → String → Step
  | .globalNames kind, name => .declareGlobal kind name
  | .localNames scope, name => .declareLocal scope name

theorem perform_declare (session : Session) (slot : Slot) (name : String) :
    session.perform (.declare slot name) =
      .ok (.index ((session.table.namesIn slot).declaredIndex slot.numbering name),
        { session with table := session.table.declareIn slot name }) := by
  cases slot <;> rfl

theorem table_of_perform {session next : Session} {step : Step} {reply : Reply}
    (performed : session.perform step = .ok (reply, next)) :
    next.table = session.table ∨ (∃ scripts, next.table = SymbolTable.ofScripts scripts) ∨
      (∃ slot name, next.table = session.table.declareIn slot name) ∨
        ∃ table, step = .setTable table := by
  cases step with
  | setTable table => exact .inr (.inr (.inr ⟨table, rfl⟩))
  | setValue | resolveLocals | resolveGlobals | resolve =>
      obtain ⟨-, rfl⟩ := Prod.mk.inj (Except.ok.inj performed)
      exact .inl rfl
  | build =>
      simp only [perform] at performed
      split at performed
      · obtain ⟨-, rfl⟩ := Prod.mk.inj (Except.ok.inj performed)
        exact .inr (.inl ⟨_, rfl⟩)
      · cases performed
  | compact options =>
      simp only [perform] at performed
      split at performed
      next compaction compacted =>
        obtain ⟨-, rfl⟩ := Prod.mk.inj (Except.ok.inj performed)
        obtain rfl := Compaction.eq_ofValue_of_compact compacted
        exact .inr (.inl ⟨_, Compaction.ofValue_table session.value⟩)
      next => cases performed
  | compactValue | restore =>
      simp only [perform] at performed
      split at performed
      · obtain ⟨-, rfl⟩ := Prod.mk.inj (Except.ok.inj performed)
        exact .inl rfl
      · cases performed
  | declareGlobal kind name =>
      obtain ⟨-, rfl⟩ := Prod.mk.inj (Except.ok.inj performed)
      exact .inr (.inr (.inl ⟨.globalNames kind, name, rfl⟩))
  | declareLocal scope name =>
      obtain ⟨-, rfl⟩ := Prod.mk.inj (Except.ok.inj performed)
      exact .inr (.inr (.inl ⟨.localNames scope, name, rfl⟩))

/-- The session after a step; a step that fails changes nothing. -/
def after (session : Session) (step : Step) : Session :=
  match session.perform step with
  | .ok (_, next) => next
  | .error _ => session

def run (session : Session) (steps : List Step) : Session :=
  steps.foldl after session

theorem numbered_after {session : Session} {step : Step} (numbered : session.table.Numbered)
    (unset : ∀ table, step ≠ .setTable table) : (session.after step).table.Numbered := by
  unfold after
  split
  next reply next performed =>
    rcases table_of_perform performed with
      same | ⟨scripts, built⟩ | ⟨slot, name, declared⟩ | ⟨table, set⟩
    · rwa [same]
    · rw [built]
      exact SymbolTable.numbered_ofScripts scripts
    · rw [declared]
      exact numbered.declareIn slot name
    · exact absurd set (unset table)
  next => exact numbered

theorem numbered_run {session : Session} {steps : List Step} (numbered : session.table.Numbered)
    (unset : ∀ step ∈ steps, ∀ table, step ≠ .setTable table) :
    (session.run steps).table.Numbered := by
  -- Each step starts from the session that the earlier ones left, so the session is kept general.
  induction steps generalizing session with
  | nil => exact numbered
  | cons first rest induction =>
      apply induction (numbered_after numbered (unset first List.mem_cons_self))
      exact fun step member => unset step (List.mem_cons_of_mem first member)

/-- The declaration of a name answers the index that the name has in the next session. No name loses
its index, and no other name comes in. -/
structure Declares (session : Session) (slot : Slot) (name : String) (index : Int)
    (next : Session) : Prop where
  performed : session.perform (.declare slot name) = .ok (.index index, next)
  stored : (next.table.namesIn slot).get? name = some index
  kept : ∀ {probe other old}, (session.table.namesIn probe).get? other = some old →
    (next.table.namesIn probe).get? other = some old
  alone : ∀ {probe other}, ((next.table.namesIn probe).get? other).isSome →
    ((session.table.namesIn probe).get? other).isSome ∨ probe = slot ∧ other = name

theorem exists_declares (session : Session) (slot : Slot) (name : String) :
    ∃ index next, session.Declares slot name index next := by
  refine ⟨_, _, session.perform_declare slot name, ?_, ?_, ?_⟩
  · rw [SymbolTable.namesIn_declareIn, if_pos rfl, Namespace.get?_declare, if_pos rfl]
  · intro probe other old found
    rw [SymbolTable.namesIn_declareIn]
    split
    next same =>
      rw [same] at found
      exact Namespace.get?_declare_of_eq_some found name
    next => exact found
  · intro probe other known
    rw [SymbolTable.namesIn_declareIn] at known
    split at known
    next same =>
      rw [Namespace.isSome_get?_declare_iff] at known
      rcases known with new | old
      · exact .inr ⟨same, new⟩
      · exact .inl (same ▸ old)
    next => exact .inl known

/-- What holds of a session whose table was declared or built: each namespace is one to one with the
first indices of its numbering, the table can be read backwards, and a name can be declared in any
namespace. -/
structure Sound (session : Session) : Prop where
  dense : ∀ slot, (session.table.namesIn slot).Dense slot.numbering
  invertible : ∃ inverse, session.table.invertible = .ok inverse
  declares : ∀ slot name, ∃ index next, session.Declares slot name index next

theorem sound_run (value : Json) {steps : List Step}
    (unset : ∀ step ∈ steps, ∀ table, step ≠ .setTable table) : (run { value } steps).Sound := by
  have numbered : (run { value } steps).table.Numbered :=
    numbered_run SymbolTable.numbered_empty unset
  exact ⟨numbered.dense, numbered.exists_invertible, exists_declares _⟩

end Session

/-- Declarations leave no gaps and no name without an index of its own. That is so of the table of a
session that starts without names and is given no table, and of one namespace under both
numberings. -/
theorem sound_declarations (value : Json) (steps : List Session.Step)
    (unset : ∀ step ∈ steps, ∀ table, step ≠ .setTable table) :
    (Session.run { value } steps).Sound ∧
      ∀ declared, ((∅ : Namespace).declareMixed declared).NumbersMixed declared :=
  ⟨Session.sound_run value unset, Namespace.numbersMixed_declareMixed⟩

def editing : List Session.Step :=
  let turn := Json.obj [
    (Key.arguments, .arr [.obj [(NameKind.variable.key, .str "angle")]]),
    (NameKind.function.key, .str "turn"), (Key.kind, .str NameKind.function.key)]
  [.setValue (.arr [turn]), .build, .declareLocal (.function "turn") "speed",
    .declareLocal (.function "turn") "angle", .declareLocal (.function "spin") "speed",
    .declareGlobal .list "turns"]

/-- Three names, the first of which is declared a second time. -/
def mixedDeclarations : List (Numbering × String) :=
  [(.ascending, "turn"), (.descending, "angle"), (.descending, "turn"), (.ascending, "speed")]

/-- The session declares a third local name of `turn`, and the third name of the one namespace has
the index 2. -/
theorem sound_declarations_editing :
    let table := (Session.run {} editing).table
    let mixed := (∅ : Namespace).declareMixed mixedDeclarations
    (table.namesIn (.localNames (.function "turn"))).get? "speed" = some (-2) ∧
      (table.namesIn (.localNames (.function "spin"))).get? "speed" = some (-1) ∧
      (∀ slot, (table.namesIn slot).Dense slot.numbering) ∧
      (∃ inverse, table.invertible = .ok inverse) ∧
      (∃ next, (Session.run {} editing).Declares (.localNames (.function "turn")) "width" (-3)
        next) ∧
      mixed.get? "turn" = some 0 ∧ mixed.get? "angle" = some (-2) ∧
      mixed.get? "speed" = some 2 := by
  obtain ⟨⟨dense, invertible, declares⟩, numbers⟩ :=
    sound_declarations .null editing (by simp [editing])
  obtain ⟨index, next, declared⟩ := declares (.localNames (.function "turn")) "width"
  have answered := declared.performed.symm.trans (Session.perform_declare _ _ _)
  obtain rfl : index = -3 := Session.Reply.index.inj (Prod.mk.inj (Except.ok.inj answered)).1
  have turn : mixedDeclarations = [] ++ (.ascending, "turn") :: mixedDeclarations.drop 1 := rfl
  have angle : mixedDeclarations =
      [(.ascending, "turn")] ++ (.descending, "angle") :: mixedDeclarations.drop 2 := rfl
  have speed : mixedDeclarations =
      mixedDeclarations.take 3 ++ (.ascending, "speed") :: [] := rfl
  have mixed := numbers mixedDeclarations
  exact ⟨by decide, by decide, dense, invertible, ⟨next, declared⟩,
    mixed.first turn List.not_mem_nil, mixed.first angle (by decide),
    mixed.first speed (by decide)⟩

end BlockNames
