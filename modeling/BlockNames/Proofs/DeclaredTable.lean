import BlockNames.Proofs.Declaration

/-!
The table of a list of scripts, told by what it holds. Main statement: it is the one table that
numbers the names of each kind and of each scope in the order of their first declarations, and its
indices leave no gap.
-/
namespace BlockNames

/-- The index is one of the first `count` of the numbering. -/
def Numbering.Reaches (numbering : Numbering) (count : Nat) (index : Int) : Prop :=
  match numbering with
  | .ascending => 0 ≤ index ∧ index < count
  | .descending => -count ≤ index ∧ index < 0

theorem Numbering.reaches_iff (numbering : Numbering) (count : Nat) (index : Int) :
    numbering.Reaches count index ↔ ∃ position < count, numbering.index position = index := by
  cases numbering with
  | ascending =>
      simp only [Reaches, Numbering.index]
      constructor
      · rintro ⟨lower, upper⟩
        exact ⟨index.toNat, by omega, by omega⟩
      · rintro ⟨position, bound, rfl⟩
        omega
  | descending =>
      simp only [Reaches, Numbering.index]
      constructor
      · rintro ⟨lower, upper⟩
        exact ⟨(-index - 1).toNat, by omega, by omega⟩
      · rintro ⟨position, bound, rfl⟩
        omega

namespace Namespace

/-- The names stand one to one for the first indices of the numbering. -/
structure Dense (numbering : Numbering) (names : Namespace) : Prop where
  reaches : ∀ {name index}, names.get? name = some index → numbering.Reaches names.size index
  existsUnique : ∀ {index}, numbering.Reaches names.size index →
    ∃! name, names.get? name = some index

namespace NumberedBy

variable {numbering : Numbering} {order : List String} {names : Namespace}

theorem dense (numbered : names.NumberedBy numbering order) : names.Dense numbering where
  reaches := by
    intro name index found
    rw [numbered.get?_eq, Option.map_eq_some_iff] at found
    obtain ⟨position, here, rfl⟩ := found
    obtain ⟨inside, -⟩ := List.idxOf?_eq_some_iff.mp here
    rw [Numbering.reaches_iff, numbered.size_eq]
    exact ⟨position, inside, rfl⟩
  existsUnique := by
    intro index reached
    rw [Numbering.reaches_iff, numbered.size_eq] at reached
    obtain ⟨position, bound, rfl⟩ := reached
    refine ⟨order[position], ?_, ?_⟩
    · exact numbered.get?_eq_some_iff.mpr (List.getElem?_eq_getElem bound)
    · intro other found
      have otherHere := numbered.get?_eq_some_iff.mp found
      rw [List.getElem?_eq_getElem bound] at otherHere
      exact (Option.some.inj otherHere).symm

theorem isSome_get?_iff (numbered : names.NumberedBy numbering order) (name : String) :
    (names.get? name).isSome ↔ name ∈ order := by
  rw [numbered.get?_eq, Option.isSome_map, List.isSome_idxOf?]

theorem unique {other : Namespace} (numbered : names.NumberedBy numbering order)
    (otherNumbered : other.NumberedBy numbering order) : names = other := by
  ext name
  rw [numbered.get?_eq, otherNumbered.get?_eq]

end NumberedBy

end Namespace

private theorem Scope.definitions_function (name : String) (scripts : List Json.Fields) :
    (Scope.function name).definitions scripts =
      scripts.filter fun script => script.declaredName? .function = some name := by
  apply List.filter_congr
  intro script _
  simp only [Scope.ofFields?_eq_function_iff]

private theorem Scope.definitions_event (scripts : List Json.Fields) :
    Scope.event.definitions scripts =
      scripts.filter fun script => ScriptKind.ofFields script = .eventHandler := by
  apply List.filter_congr
  intro script _
  simp only [Scope.ofFields?_eq_event_iff]

/-- The names that scripts declare for a function, arguments before locals in each script. -/
def Scope.functionDeclarations (name : String) (scripts : List Json.Fields) : List String :=
  (scripts.filter fun script => script.declaredName? .function = some name).flatMap fun script =>
    script.declaredNames Key.arguments ++ script.declaredNames Key.locals

/-- The names that scripts declare for the event handler. Arguments are not among them. -/
def Scope.eventDeclarations (scripts : List Json.Fields) : List String :=
  (scripts.filter fun script => ScriptKind.ofFields script = .eventHandler).flatMap fun script =>
    script.declaredNames Key.locals

private theorem Scope.localDeclarations_function (name : String) (scripts : List Json.Fields) :
    ((Scope.function name).definitions scripts).flatMap Json.Fields.localDeclarations =
      Scope.functionDeclarations name scripts := by
  rw [Scope.definitions_function, Scope.functionDeclarations]
  apply List.flatMap_congr
  intro script member
  have declared : script.declaredName? .function = some name := by
    simpa using (List.mem_filter.mp member).2
  have kind : ScriptKind.ofFields script = .declaration .function := by
    by_contra other
    simp [Json.Fields.declaredName?, other] at declared
  simp only [Json.Fields.localDeclarations, kind]

theorem Scope.localDeclarations_event (scripts : List Json.Fields) :
    (Scope.event.definitions scripts).flatMap Json.Fields.localDeclarations =
      Scope.eventDeclarations scripts := by
  rw [Scope.definitions_event, Scope.eventDeclarations]
  apply List.flatMap_congr
  intro script member
  have kind : ScriptKind.ofFields script = .eventHandler := by
    simpa using (List.mem_filter.mp member).2
  simp only [Json.Fields.localDeclarations, kind]

namespace SymbolTable

/-- The table holds the names that the scripts declare, and nothing else. Names of a namespace are
numbered by their places among its declarations without repetitions. -/
structure Enumerates (table : SymbolTable) (scripts : List Json.Fields) : Prop where
  globalNames : ∀ kind, (table.globalNames kind).NumberedBy .ascending
    (scripts.filterMap (Json.Fields.declaredName? kind)).eraseDups
  functions : ∀ name, (table.localNames? (.function name)).isSome ↔
    (table.functionNames.get? name).isSome
  functionLocals : ∀ {name names}, table.localNames? (.function name) = some names →
    names.NumberedBy .descending (Scope.functionDeclarations name scripts).eraseDups
  event : (table.localNames? .event).isSome ↔
    ∃ script ∈ scripts, ScriptKind.ofFields script = .eventHandler
  eventLocals : ∀ {names}, table.localNames? .event = some names →
    names.NumberedBy .descending (Scope.eventDeclarations scripts).eraseDups

theorem localNames?_ofScripts_of_eq_some {scripts : List Json} {scope : Scope} {names : Namespace}
    (known : (ofScripts scripts).localNames? scope = some names) :
    names.NumberedBy .descending ((scope.definitions (scripts.filterMap Json.fields?)).flatMap
      Json.Fields.localDeclarations).eraseDups := by
  rw [localNames?_ofScripts] at known
  split at known
  · cases known
  · rw [← Option.some.inj known]
    exact Namespace.numberedBy_declareAll .descending _

theorem isSome_localNames?_ofScripts_iff (scripts : List Json) (scope : Scope) :
    ((ofScripts scripts).localNames? scope).isSome ↔
      ∃ script ∈ scripts.filterMap Json.fields?, Scope.ofFields? script = some scope := by
  rw [localNames?_ofScripts]
  have undefined : scope.definitions (scripts.filterMap Json.fields?) = [] ↔
      ¬∃ script ∈ scripts.filterMap Json.fields?, Scope.ofFields? script = some scope := by
    simp only [Scope.definitions, List.filter_eq_nil_iff, decide_eq_true_eq, not_exists, not_and]
  split
  next none => simpa using undefined.mp none
  next some => simpa using not_not.mp (mt undefined.mpr some)

theorem globalNames_ofScripts_numberedBy (scripts : List Json) (kind : NameKind) :
    ((ofScripts scripts).globalNames kind).NumberedBy .ascending
      ((scripts.filterMap Json.fields?).filterMap (Json.Fields.declaredName? kind)).eraseDups := by
  rw [globalNames_ofScripts]
  exact Namespace.numberedBy_declareAll .ascending _

theorem enumerates_ofScripts (scripts : List Json) :
    (ofScripts scripts).Enumerates (scripts.filterMap Json.fields?) where
  globalNames := globalNames_ofScripts_numberedBy scripts
  functions := by
    intro name
    have numbered := globalNames_ofScripts_numberedBy scripts .function
    have functionNames : (ofScripts scripts).globalNames .function =
        (ofScripts scripts).functionNames := rfl
    rw [functionNames] at numbered
    rw [isSome_localNames?_ofScripts_iff, numbered.isSome_get?_iff, List.mem_eraseDups,
      List.mem_filterMap]
    simp only [Scope.ofFields?_eq_function_iff]
  functionLocals := by
    intro name names known
    rw [← Scope.localDeclarations_function]
    exact localNames?_ofScripts_of_eq_some known
  event := by
    rw [isSome_localNames?_ofScripts_iff]
    simp only [Scope.ofFields?_eq_event_iff]
  eventLocals := by
    intro names known
    rw [← Scope.localDeclarations_event]
    exact localNames?_ofScripts_of_eq_some known

theorem Enumerates.unique {left right : SymbolTable} {scripts : List Json.Fields}
    (leftEnumerates : left.Enumerates scripts) (rightEnumerates : right.Enumerates scripts) :
    left = right := by
  have globalNames : ∀ kind, left.globalNames kind = right.globalNames kind :=
    fun kind => (leftEnumerates.globalNames kind).unique (rightEnumerates.globalNames kind)
  apply ext_names globalNames
  intro scope
  have sameScopes : (left.localNames? scope).isSome ↔ (right.localNames? scope).isSome := by
    cases scope with
    | event => rw [leftEnumerates.event, rightEnumerates.event]
    | function name =>
        have functionNames : left.functionNames = right.functionNames := globalNames .function
        rw [leftEnumerates.functions, rightEnumerates.functions, functionNames]
  cases leftKnown : left.localNames? scope with
  | none =>
      rw [leftKnown] at sameScopes
      exact (Option.not_isSome_iff_eq_none.mp (mt sameScopes.mpr Bool.false_ne_true)).symm
  | some leftNames =>
      rw [leftKnown] at sameScopes
      obtain ⟨rightNames, rightKnown⟩ := Option.isSome_iff_exists.mp (sameScopes.mp rfl)
      rw [rightKnown]
      cases scope with
      | event =>
          rw [(leftEnumerates.eventLocals leftKnown).unique
            (rightEnumerates.eventLocals rightKnown)]
      | function name =>
          rw [(leftEnumerates.functionLocals leftKnown).unique
            (rightEnumerates.functionLocals rightKnown)]

/-- The table of a list of scripts is the one that enumerates their declarations. Each of its
namespaces is one to one with the first indices of its numbering. -/
theorem eq_ofScripts_iff_enumerates (scripts : List Json) :
    (∀ table, table = ofScripts scripts ↔ table.Enumerates (scripts.filterMap Json.fields?)) ∧
      (∀ kind, ((ofScripts scripts).globalNames kind).Dense .ascending) ∧
      ∀ scope names, (ofScripts scripts).localNames? scope = some names →
        names.Dense .descending := by
  refine ⟨fun table => ⟨?_, fun enumerates => ?_⟩, fun kind => ?_, fun scope names known => ?_⟩
  · rintro rfl
    exact enumerates_ofScripts scripts
  · exact enumerates.unique (enumerates_ofScripts scripts)
  · exact (globalNames_ofScripts_numberedBy scripts kind).dense
  · exact (localNames?_ofScripts_of_eq_some known).dense

end SymbolTable

end BlockNames
