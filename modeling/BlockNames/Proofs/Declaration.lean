import BlockNames.Proofs.Erasure
import BlockNames.Proofs.Numbering
import BlockNames.SymbolTable.Declaration

/-!
The namespaces of a declared table. A script adds to one namespace of global names and to the local
names of the scope that it defines; a list of scripts adds all that its members do, in their order.
-/
namespace BlockNames

def Json.Fields.declaredName? (kind : NameKind) (script : Json.Fields) : Option String :=
  if ScriptKind.ofFields script = .declaration kind then script.string? kind.key else none

def Json.Fields.localDeclarations (script : Json.Fields) : List String :=
  match ScriptKind.ofFields script with
  | .eventHandler => script.declaredNames Key.locals
  | .declaration _ | .other =>
      script.declaredNames Key.arguments ++ script.declaredNames Key.locals

namespace Json

theorem mem_filterMap_fields? {items : List Json} {script : Fields} :
    script ∈ items.filterMap fields? ↔ .obj script ∈ items := by
  rw [List.mem_filterMap]
  constructor
  · rintro ⟨item, member, held⟩
    cases item with
    | null | bool | num | str | arr => cases held
    | obj fields => exact Option.some.inj held ▸ member
  · intro member
    exact ⟨.obj script, member, rfl⟩

theorem filterMap_fields?_map {change : Json → Json} {changeFields : Fields → Fields}
    (fieldwise : ∀ item, (change item).fields? = item.fields?.map changeFields)
    (items : List Json) :
    (items.map change).filterMap fields? = (items.filterMap fields?).map changeFields := by
  rw [List.filterMap_map, List.map_filterMap]
  exact List.filterMap_congr fun item _ => fieldwise item

end Json

def Scope.definitions (scope : Scope) (scripts : List Json.Fields) : List Json.Fields :=
  scripts.filter fun script => Scope.ofFields? script = some scope

private theorem Scope.definitions_cons_of_defines {scope : Scope} {script : Json.Fields}
    (rest : List Json.Fields) (defines : Scope.ofFields? script = some scope) :
    scope.definitions (script :: rest) = script :: scope.definitions rest :=
  List.filter_cons_of_pos (decide_eq_true defines)

private theorem Scope.definitions_cons_of_not_defines {scope : Scope} {script : Json.Fields}
    (rest : List Json.Fields) (defines : ¬Scope.ofFields? script = some scope) :
    scope.definitions (script :: rest) = scope.definitions rest :=
  List.filter_cons_of_neg (by rwa [decide_eq_true_eq])

/-- The scripts that define a scope may be changed before or after they are picked out, if the
change tells scopes apart. -/
theorem Scope.definitions_map {change : Json.Fields → Json.Fields} {scope changed : Scope}
    (same : ∀ script, Scope.ofFields? (change script) = some changed ↔
      Scope.ofFields? script = some scope) (scripts : List Json.Fields) :
    changed.definitions (scripts.map change) = (scope.definitions scripts).map change := by
  unfold definitions
  rw [List.filter_map]
  apply congrArg (List.map change)
  apply List.filter_congr
  intro script _
  simp only [Function.comp_apply, same]

theorem Scope.ofFields?_eq_function_iff (script : Json.Fields) (name : String) :
    Scope.ofFields? script = some (.function name) ↔
      script.declaredName? .function = some name := by
  unfold Scope.ofFields? Json.Fields.declaredName?
  cases ScriptKind.ofFields script with
  | eventHandler | other => simp
  | declaration kind => cases kind <;> simp

theorem Scope.ofFields?_eq_event_iff (script : Json.Fields) :
    Scope.ofFields? script = some .event ↔ ScriptKind.ofFields script = .eventHandler := by
  unfold Scope.ofFields?
  cases ScriptKind.ofFields script with
  | eventHandler | other => simp
  | declaration kind => cases kind <;> simp

theorem Scope.ofFields?_eq_function {script : Json.Fields} {name : String}
    (defines : Scope.ofFields? script = some (.function name)) :
    ScriptKind.ofFields script = .declaration .function ∧
      script.lookup NameKind.function.key = some (.str name) := by
  rw [Scope.ofFields?_eq_function_iff] at defines
  unfold Json.Fields.declaredName? Json.Fields.string? at defines
  split at defines
  next kind =>
    refine ⟨kind, ?_⟩
    obtain ⟨value, held, named⟩ := Option.bind_eq_some_iff.mp defines
    cases value with
    | str other => rw [held, ← Option.some.inj named]
    | null | bool | num | arr | obj => cases named
  next => cases defines

theorem Scope.definitions_eq_singleton {scripts : List Json.Fields}
    (distinct : (scripts.filterMap (Json.Fields.declaredName? .function)).Nodup)
    {script : Json.Fields} (member : script ∈ scripts) {name : String}
    (defines : Scope.ofFields? script = some (.function name)) :
    (Scope.function name).definitions scripts = [script] := by
  have named := (Scope.ofFields?_eq_function_iff script name).mp defines
  induction scripts with
  | nil => cases member
  | cons head rest induction =>
      rcases List.mem_cons.mp member with same | later
      · subst same
        rw [List.filterMap_cons_some named] at distinct
        have fresh := (List.nodup_cons.mp distinct).1
        rw [Scope.definitions_cons_of_defines rest defines]
        apply congrArg (List.cons script)
        apply List.filter_eq_nil_iff.mpr
        intro other otherMember otherDefines
        apply fresh
        have otherNamed := (Scope.ofFields?_eq_function_iff other name).mp
          (of_decide_eq_true otherDefines)
        exact List.mem_filterMap.mpr ⟨other, otherMember, otherNamed⟩
      · have headDefines : ¬Scope.ofFields? head = some (.function name) := by
          intro headDefines
          have headNamed := (Scope.ofFields?_eq_function_iff head name).mp headDefines
          rw [List.filterMap_cons_some headNamed] at distinct
          exact (List.nodup_cons.mp distinct).1 (List.mem_filterMap.mpr ⟨script, later, named⟩)
        rw [Scope.definitions_cons_of_not_defines rest headDefines]
        apply induction _ later
        exact List.Nodup.sublist ((List.sublist_cons_self head rest).filterMap _) distinct

theorem Namespace.declareAll_append (numbering : Numbering) (names : Namespace)
    (first second : List String) :
    names.declareAll numbering (first ++ second) =
      (names.declareAll numbering first).declareAll numbering second :=
  List.foldl_append

namespace SymbolTable

theorem ext_names {left right : SymbolTable}
    (globalNames : ∀ kind, left.globalNames kind = right.globalNames kind)
    (localNames : ∀ scope, left.localNames? scope = right.localNames? scope) : left = right := by
  have locals : left.locals = right.locals :=
    OrderedMap.ext fun name => localNames (.function name)
  have event := localNames .event
  have functionNames := globalNames .function
  have listNames := globalNames .list
  have variableNames := globalNames .variable
  have imageNames := globalNames .image
  cases left
  cases right
  simp only [mk.injEq]
  exact ⟨event, locals, functionNames, listNames, variableNames, imageNames⟩

@[simp] theorem globalNames_declareGlobal (table : SymbolTable) (kind probe : NameKind)
    (name : String) :
    (table.declareGlobal kind name).globalNames probe =
      if probe = kind then (table.globalNames kind).declare .ascending name
      else table.globalNames probe := by
  exact globalNames_setGlobalNames table kind probe _

@[simp] theorem localNames?_declareGlobal (table : SymbolTable) (kind : NameKind) (name : String)
    (scope : Scope) : (table.declareGlobal kind name).localNames? scope = table.localNames? scope :=
  localNames?_setGlobalNames table kind scope _

@[simp] theorem globalNames_declareLocals (table : SymbolTable) (scope : Scope)
    (names : List String) (kind : NameKind) :
    (table.declareLocals scope names).globalNames kind = table.globalNames kind :=
  globalNames_setLocalNames table kind scope _

@[simp] theorem localNames?_declareLocals (table : SymbolTable) (scope probe : Scope)
    (names : List String) :
    (table.declareLocals scope names).localNames? probe =
      if probe = scope then some ((table.localNames scope).declareAll .descending names)
      else table.localNames? probe :=
  localNames?_setLocalNames table scope probe _

@[simp] theorem localNames_declareGlobal (table : SymbolTable) (kind : NameKind) (name : String)
    (scope : Scope) :
    (table.declareGlobal kind name).localNames scope = table.localNames scope := by
  unfold localNames
  rw [localNames?_declareGlobal]

private theorem globalNames_declareScript (table : SymbolTable) (script : Json.Fields)
    (kind : NameKind) :
    (table.declareScript script).globalNames kind =
      (table.globalNames kind).declareAll .ascending (script.declaredName? kind).toList := by
  unfold declareScript Json.Fields.declaredName?
  cases found : ScriptKind.ofFields script with
  | eventHandler => simp
  | other => simp
  | declaration declared =>
      by_cases same : declared = kind
      · subst same
        cases named : script.string? declared.key with
        | none => simp [named]
        | some name => cases declared <;> simp [named]
      · have other : ¬kind = declared := fun equal => same equal.symm
        cases named : script.string? declared.key with
        | none => simp [named, same]
        | some name => cases declared <;> simp [named, same, other]

private theorem localNames?_declareScript (table : SymbolTable) (script : Json.Fields)
    (scope : Scope) :
    (table.declareScript script).localNames? scope =
      if Scope.ofFields? script = some scope then
        some ((table.localNames scope).declareAll .descending script.localDeclarations)
      else table.localNames? scope := by
  unfold declareScript Scope.ofFields? Json.Fields.localDeclarations
  cases found : ScriptKind.ofFields script with
  | other => simp
  | eventHandler =>
      by_cases same : scope = .event
      · subst same
        simp
      · have other : ¬Scope.event = scope := fun equal => same equal.symm
        simp [same, other]
  | declaration kind =>
      cases named : script.string? kind.key with
      | none => cases kind <;> simp_all
      | some name =>
          cases kind with
          | list | image => simp [named]
          | function =>
              by_cases same : scope = .function name
              · subst same
                simp [named]
              · have other : ¬Scope.function name = scope := fun equal => same equal.symm
                simp [named, same, other]
          | _ => simp [named]

@[simp] theorem declareScript_eraseFieldAnnotations (table : SymbolTable) (script : Json.Fields) :
    table.declareScript (Json.eraseFieldAnnotations script) = table.declareScript script := by
  have named : ∀ kind : NameKind, Json.Fields.string? (Json.eraseFieldAnnotations script) kind.key =
      script.string? kind.key :=
    fun kind => Json.string?_eraseFieldAnnotations script kind.key_ne_annotation
  have arguments := Json.declaredNames_eraseFieldAnnotations script
    (show Key.arguments ≠ Key.annotation by decide)
  have locals := Json.declaredNames_eraseFieldAnnotations script
    (show Key.locals ≠ Key.annotation by decide)
  unfold declareScript
  simp only [ScriptKind.ofFields_eraseFieldAnnotations, named, arguments, locals]

theorem globalNames_declareScripts (scripts : List Json.Fields) (table : SymbolTable)
    (kind : NameKind) :
    (scripts.foldl declareScript table).globalNames kind =
      (table.globalNames kind).declareAll .ascending
        (scripts.filterMap (Json.Fields.declaredName? kind)) := by
  induction scripts generalizing table with
  | nil => rfl
  | cons script rest induction =>
      rw [List.foldl_cons, induction, globalNames_declareScript, ← Namespace.declareAll_append]
      cases declared : script.declaredName? kind <;> simp [declared]

theorem localNames?_declareScripts (scripts : List Json.Fields) (table : SymbolTable)
    (scope : Scope) :
    (scripts.foldl declareScript table).localNames? scope =
      if scope.definitions scripts = [] then table.localNames? scope
      else some ((table.localNames scope).declareAll .descending
        ((scope.definitions scripts).flatMap Json.Fields.localDeclarations)) := by
  -- Each script starts from what the earlier ones declared, so the table is kept general.
  induction scripts generalizing table with
  | nil => rfl
  | cons script rest induction =>
      rw [List.foldl_cons, induction]
      by_cases defines : Scope.ofFields? script = some scope
      · have step := localNames?_declareScript table script scope
        rw [if_pos defines] at step
        have defined : (table.declareScript script).localNames scope =
            (table.localNames scope).declareAll .descending script.localDeclarations := by
          rw [localNames, step, Option.getD_some]
        rw [Scope.definitions_cons_of_defines rest defines, if_neg (List.cons_ne_nil _ _),
          List.flatMap_cons, Namespace.declareAll_append, defined, step]
        split
        next alone => rw [alone, List.flatMap_nil, Namespace.declareAll_nil]
        next => rfl
      · have step := localNames?_declareScript table script scope
        rw [if_neg defines] at step
        have kept : (table.declareScript script).localNames scope = table.localNames scope := by
          rw [localNames, step, localNames]
        rw [Scope.definitions_cons_of_not_defines rest defines, kept, step]

theorem globalNames_ofScripts (scripts : List Json) (kind : NameKind) :
    (ofScripts scripts).globalNames kind =
      (∅ : Namespace).declareAll .ascending
        ((scripts.filterMap Json.fields?).filterMap (Json.Fields.declaredName? kind)) := by
  unfold ofScripts
  rw [globalNames_declareScripts]
  cases kind <;> rfl

theorem localNames?_ofScripts (scripts : List Json) (scope : Scope) :
    (ofScripts scripts).localNames? scope =
      if scope.definitions (scripts.filterMap Json.fields?) = [] then none
      else some ((∅ : Namespace).declareAll .descending
        ((scope.definitions (scripts.filterMap Json.fields?)).flatMap
          Json.Fields.localDeclarations)) := by
  unfold ofScripts
  rw [localNames?_declareScripts]
  cases scope <;> rfl

theorem ofScripts_eraseAnnotations (scripts : List Json) :
    ofScripts (scripts.map Json.eraseAnnotations) = ofScripts scripts := by
  unfold ofScripts
  rw [Json.filterMap_fields?_map Json.fields?_eraseAnnotations, List.foldl_map]
  simp only [declareScript_eraseFieldAnnotations]

theorem faultless_ofScripts (scripts : List Json) : (ofScripts scripts).Faultless where
  globalNames := by
    intro kind
    rw [globalNames_ofScripts]
    exact (Namespace.numberedBy_declareAll .ascending _).faultless
  localNames := by
    intro scope names known
    rw [localNames?_ofScripts] at known
    split at known
    · cases known
    · obtain rfl := Option.some.inj known
      exact (Namespace.numberedBy_declareAll .descending _).faultless

end SymbolTable

end BlockNames
