import BlockNames.Proofs.DeclaredTable
import BlockNames.Proofs.Redeclaration
import BlockNames.Proofs.Unannotated

/-!
Resolution of what is resolved already. A name that was not found is not found again unless the
later table knows more. Main statement: resolving twice is resolving once, and so is compacting
twice, although the second compaction makes a table of its own.
-/
namespace BlockNames

@[simp] theorem Shape.site?_locals (shape : Shape) : shape.site? Key.locals = none := by
  cases shape <;> rfl

/-- The other namespace has none but the names of this one. -/
def Namespace.Covers (names other : Namespace) : Prop :=
  ∀ {name}, names.get? name = none → other.get? name = none

private theorem Namespace.covers_empty (names : Namespace) : names.Covers ∅ := fun _ => rfl

structure SymbolTable.Covers (table other : SymbolTable) : Prop where
  globalNames : ∀ kind, (table.globalNames kind).Covers (other.globalNames kind)
  localNames : ∀ scope, (table.localNames scope).Covers (other.localNames scope)

theorem SymbolTable.Covers.refl (table : SymbolTable) : table.Covers table :=
  ⟨fun _ => id, fun _ => id⟩

structure ScopeView.Covers (view other : ScopeView) : Prop where
  table : view.table.Covers other.table
  locals : view.locals.Covers other.locals

namespace ScopeView

private theorem str?_changed_of_eq_some {view : ScopeView} {site? : Option Site} {value : Json}
    {name : String} (named : (Site.changed view.change site? value).str? = some name) :
    value.str? = some name := by
  cases site? with
  | none => exact named
  | some site => exact str?_change_of_eq_some named

private theorem string?_of_rewriteFields {view : ScopeView} {shape : Shape} {fields : Json.Fields}
    {key name : String}
    (named : Json.Fields.string? (Json.rewriteFields view.change shape fields) key = some name) :
    fields.string? key = some name := by
  simp only [Json.Fields.string?, Json.lookup_rewriteFields] at named ⊢
  cases held : fields.lookup key with
  | none =>
      rw [held] at named
      cases named
  | some value =>
      rw [held] at named
      have original := str?_changed_of_eq_some named
      rwa [Json.str?_rewrite] at original

private theorem mem_declaredNames_of_rewriteFields {view : ScopeView} {shape : Shape}
    {fields : Json.Fields} {key name : String} (free : shape.site? key = none)
    (declared :
      name ∈ Json.Fields.declaredNames (Json.rewriteFields view.change shape fields) key) :
    name ∈ fields.declaredNames key := by
  simp only [Json.Fields.declaredNames, Json.lookup_rewriteFields, free] at declared ⊢
  cases held : fields.lookup key with
  | none =>
      rw [held] at declared
      cases declared
  | some value =>
      rw [held] at declared
      cases value with
      | null | bool | num | str | obj => cases declared
      | arr items =>
          simp only [Option.map_some, Option.bind_some, Site.changed, Json.rewrite, Json.items?,
            Option.getD_some, Json.rewriteItems_eq_map, List.mem_filterMap, List.mem_map]
            at declared ⊢
          obtain ⟨_, ⟨entry, member, rfl⟩, named⟩ := declared
          refine ⟨entry, member, ?_⟩
          cases entry with
          | null | bool | num | str | arr => cases named
          | obj binding => exact string?_of_rewriteFields named

private theorem str?_blockName_of_global (view : ScopeView) {kind : NameKind} {name : String}
    {index : Int} (found : (view.table.globalNames kind).get? name = some index) :
    (view.blockName kind name).value.str? = none := by
  rw [blockName_eq, settle_value, found]
  cases (view.locals.atSite (.name kind)).bind (·.get? name) <;> rfl

private theorem change_settle {later : ScopeView} {site : Site} {kind : ReferenceKind}
    {scope : Option String} {name : String} {found : Option Int}
    (unknown : found = none → (later.settled site name).value = .str name) :
    later.change site (settle kind scope name found).value =
      (settle kind scope name found).value := by
  cases found with
  | none => exact unknown rfl
  | some index => rfl

private theorem change_blockName_of_covers {view later : ScopeView} (covers : view.Covers later)
    (kind : NameKind) (name : String) :
    later.change (.name kind) (view.blockName kind name).value =
      (view.blockName kind name).value := by
  rw [blockName_eq]
  apply change_settle
  intro missing
  obtain ⟨notLocal, notGlobal⟩ := Option.or_eq_none_iff.mp missing
  have neverLocal : (later.locals.atSite (.name kind)).bind (·.get? name) = none := by
    cases kind with
    | list | image | function => rfl
    | _ => exact covers.locals notLocal
  have neverGlobal := covers.table.globalNames kind notGlobal
  simp only [settled, blockName_eq, neverLocal, neverGlobal, Option.or_none, settle]

private theorem change_bindingName_of_covers {view later : ScopeView} (covers : view.Covers later)
    (target name : String) :
    later.change (.binding (some (view.blockName .function target).value))
        (view.bindingName target name).value = (view.bindingName target name).value := by
  rw [bindingName_eq]
  apply change_settle
  intro missing
  have never := covers.table.localNames (.function target) missing
  rw [blockName_eq, settle_value]
  -- A target that became an index has no local names; one that stayed has no more than before.
  cases ((view.locals.atSite (.name .function)).bind (·.get? target)).or
      ((view.table.globalNames .function).get? target) with
  | some index => rfl
  | none => simp only [Option.map_none, Option.getD_none, settled, bindingName_eq, never, settle]

private theorem changeThen_of_covers {view later : ScopeView} (covers : view.Covers later) :
    Json.changeThen view.change later.change = view.change := by
  funext site value
  cases value with
  | null | bool | num | arr | obj => rfl
  | str name =>
      cases site with
      | name kind => exact change_blockName_of_covers covers kind name
      | binding target =>
          rcases target with _ | (_ | _ | _ | target | _ | _)
          case some.str => exact change_bindingName_of_covers covers target name
          all_goals rfl

theorem resolve_resolve_of_covers {view later : ScopeView} (covers : view.Covers later)
    (tree : Json) :
    (later.resolve (view.resolve tree).value).value = (view.resolve tree).value := by
  simp only [resolve_eq]
  have twice := Json.rewrite_rewrite view.leafwise_change later.change .value tree
  rwa [changeThen_of_covers covers] at twice

end ScopeView

private theorem Json.Fields.counted_rewriteFields (change : Site → Json → Json) (shape : Shape)
    (script : Json.Fields) :
    Json.Fields.counted (Json.rewriteFields change shape script) =
      Json.rewriteFields change shape script.counted := by
  have listed : ((Json.rewriteFields change shape script).lookup Key.arguments).bind Json.items? =
      ((script.lookup Key.arguments).bind Json.items?).map
        (List.map (Json.rewrite change (shape.role Key.arguments).item)) := by
    rw [Json.lookup_rewriteFields, shape.site?_arguments]
    cases script.lookup Key.arguments with
    | none => rfl
    | some value =>
        cases value with
        | null | bool | num | str | obj => rfl
        | arr items => exact congrArg some (Json.rewriteItems_eq_map _ _ _)
  simp only [counted, countArguments, Json.ofFields_rewriteFields, listed]
  cases (script.lookup Key.arguments).bind Json.items? with
  | none => split <;> rfl
  | some declarations =>
      have replaced := Json.rewriteFields_replace change script shape.site?_arguments
        (Json.index declarations.length)
      simp only [Option.map_some, List.length_map]
      split
      · exact replaced.symm
      · rfl

private theorem Json.Fields.declaredName?_eq_some_iff {kind : NameKind} {script : Json.Fields}
    {name : String} :
    script.declaredName? kind = some name ↔
      ScriptKind.ofFields script = .declaration kind ∧ script.string? kind.key = some name := by
  simp only [declaredName?]
  split
  next declares => simp only [declares, true_and]
  next other => simp only [other, false_and, reduceCtorEq]

private theorem Shape.ofFields_of_declaration {script : Json.Fields} {kind : NameKind}
    (declares : ScriptKind.ofFields script = .declaration kind) :
    Shape.ofFields script = .block := by
  refine if_neg fun call => ?_
  have kindOfCall : ScriptKind.ofFields script = .other := by
    simp only [ScriptKind.ofFields, call]
    decide
  cases kindOfCall.symm.trans declares

namespace SymbolTable

def resolvedScript (table : SymbolTable) (script : Json.Fields) : Json.Fields :=
  Json.rewriteFields (table.viewOf script).change (Shape.ofFields script) script.counted

private theorem value_resolveScoped_obj (table : SymbolTable) (script : Json.Fields) :
    (table.resolveScoped (.obj script)).value = .obj (table.resolvedScript script) := by
  simp only [resolveScoped_obj, ScopeView.resolve_eq, Json.rewrite, Role.shape,
    Shape.ofFields_counted]
  rfl

private theorem fields?_resolveScoped (table : SymbolTable) (item : Json) :
    (table.resolveScoped item).value.fields? = item.fields?.map table.resolvedScript := by
  cases item with
  | null | bool | num | str | arr => rfl
  | obj script =>
      rw [value_resolveScoped_obj]
      rfl

variable (table : SymbolTable) (script : Json.Fields)

private theorem counted_resolvedScript :
    (table.resolvedScript script).counted = table.resolvedScript script := by
  rw [resolvedScript, Json.Fields.counted_rewriteFields, Json.Fields.counted_counted]

private theorem ofFields_resolvedScript :
    ScriptKind.ofFields (table.resolvedScript script) = ScriptKind.ofFields script := by
  rw [resolvedScript, Json.ofFields_rewriteFields, Json.Fields.ofFields_counted]

variable {table script}

private theorem string?_of_resolvedScript {key name : String} (different : key ≠ Key.arguments)
    (named : (table.resolvedScript script).string? key = some name) :
    script.string? key = some name := by
  have counted := ScopeView.string?_of_rewriteFields named
  rwa [Json.Fields.string?, script.lookup_counted_of_ne different] at counted

private theorem ofFields?_of_resolvedScript {scope : Scope}
    (owner : Scope.ofFields? (table.resolvedScript script) = some scope) :
    Scope.ofFields? script = some scope := by
  simp only [Scope.ofFields?, ofFields_resolvedScript] at owner ⊢
  split at owner
  next => exact owner
  next =>
    obtain ⟨name, named, rfl⟩ := Option.map_eq_some_iff.mp owner
    rw [string?_of_resolvedScript (by decide) named]
    rfl
  all_goals cases owner

/-- A name that the table knows is declared no more: its index stands in its place. -/
private theorem declaredName?_resolvedScript {kind : NameKind}
    (known : ∀ name, script.declaredName? kind = some name →
      ((table.globalNames kind).get? name).isSome) :
    (table.resolvedScript script).declaredName? kind = none := by
  apply Option.eq_none_iff_forall_ne_some.mpr
  intro name declared
  obtain ⟨declares, named⟩ := Json.Fields.declaredName?_eq_some_iff.mp declared
  rw [ofFields_resolvedScript] at declares
  have different : kind.key ≠ Key.arguments := by cases kind <;> decide
  have original := string?_of_resolvedScript different named
  obtain ⟨index, found⟩ := Option.isSome_iff_exists.mp
    (known name (Json.Fields.declaredName?_eq_some_iff.mpr ⟨declares, original⟩))
  have site : Shape.block.site? kind.key = some (.name kind) := by cases kind <;> rfl
  have replaced : (table.resolvedScript script).lookup kind.key =
      some ((table.viewOf script).blockName kind name).value := by
    simp only [resolvedScript, Json.lookup_rewriteFields, script.lookup_counted_of_ne different,
      Json.Fields.string?_eq_some_iff.mp original, Shape.ofFields_of_declaration declares, site]
    rfl
  have indexed := (table.viewOf script).str?_blockName_of_global found
  rw [Option.some.inj (replaced.symm.trans (Json.Fields.string?_eq_some_iff.mp named))] at indexed
  cases indexed

private theorem mem_declaredNames_locals_of_resolvedScript {name : String}
    (declared : name ∈ (table.resolvedScript script).declaredNames Key.locals) :
    name ∈ script.declaredNames Key.locals := by
  have counted := ScopeView.mem_declaredNames_of_rewriteFields (Shape.site?_locals _) declared
  rwa [Json.Fields.declaredNames, script.lookup_counted_of_ne (by decide)] at counted

private theorem isSome_globalNames_of_declaredName? {items : List Json} {kind : NameKind}
    (member : script ∈ items.filterMap Json.fields?) {name : String}
    (declared : script.declaredName? kind = some name) :
    (((ofScripts items).globalNames kind).get? name).isSome := by
  rw [(globalNames_ofScripts_numberedBy items kind).isSome_get?_iff, List.mem_eraseDups]
  exact List.mem_filterMap.mpr ⟨script, member, declared⟩

private theorem isSome_get?_localNames_ofScripts_iff (items : List Json) (scope : Scope)
    (name : String) :
    (((ofScripts items).localNames scope).get? name).isSome ↔
      name ∈ (scope.definitions (items.filterMap Json.fields?)).flatMap
        Json.Fields.localDeclarations := by
  have declared : (ofScripts items).localNames scope =
      (∅ : Namespace).declareAll .descending
        ((scope.definitions (items.filterMap Json.fields?)).flatMap
          Json.Fields.localDeclarations) := by
    rw [localNames, localNames?_ofScripts]
    split
    next undefined => rw [undefined]; rfl
    next => rfl
  rw [declared, (Namespace.numberedBy_declareAll .descending _).isSome_get?_iff,
    List.mem_eraseDups]

def resolvedItems (items : List Json) : List Json :=
  items.map fun item => ((ofScripts items).resolveScoped item).value

private theorem filterMap_fields?_resolvedItems (items : List Json) :
    (resolvedItems items).filterMap Json.fields? =
      (items.filterMap Json.fields?).map (ofScripts items).resolvedScript :=
  Json.filterMap_fields?_map (ofScripts items).fields?_resolveScoped items

private theorem declaredName?_of_mem_resolvedItems {items : List Json} {kind : NameKind}
    (member : script ∈ (resolvedItems items).filterMap Json.fields?) :
    script.declaredName? kind = none := by
  rw [filterMap_fields?_resolvedItems] at member
  obtain ⟨original, originalMember, rfl⟩ := List.mem_map.mp member
  apply declaredName?_resolvedScript
  intro name declared
  exact isSome_globalNames_of_declaredName? originalMember declared

private theorem globalNames_ofScripts_resolvedItems (items : List Json) (kind : NameKind) :
    (ofScripts (resolvedItems items)).globalNames kind = ∅ := by
  have undeclared : ((resolvedItems items).filterMap Json.fields?).filterMap
      (Json.Fields.declaredName? kind) = [] := by
    rw [List.filterMap_eq_nil_iff]
    intro script member
    exact declaredName?_of_mem_resolvedItems member
  rw [globalNames_ofScripts, undeclared]
  rfl

private theorem localNames?_ofScripts_resolvedItems (items : List Json) (function : String) :
    (ofScripts (resolvedItems items)).localNames? (.function function) = none := by
  apply Option.not_isSome_iff_eq_none.mp
  rw [isSome_localNames?_ofScripts_iff]
  rintro ⟨script, member, defines⟩
  rw [Scope.ofFields?_eq_function_iff, declaredName?_of_mem_resolvedItems member] at defines
  cases defines

private theorem locals_ofScripts_resolvedItems (items : List Json) :
    (ofScripts (resolvedItems items)).locals = ∅ :=
  OrderedMap.ext fun function => localNames?_ofScripts_resolvedItems items function

/-- Only the names of the event handler may be declared again, and no new ones. -/
theorem covers_resolvedItems (items : List Json) :
    (ofScripts items).Covers (ofScripts (resolvedItems items)) where
  globalNames := by
    intro kind
    rw [globalNames_ofScripts_resolvedItems]
    exact Namespace.covers_empty _
  localNames := by
    intro scope
    cases scope with
    | function function =>
        rw [localNames.eq_def (ofScripts (resolvedItems items)),
          localNames?_ofScripts_resolvedItems]
        exact Namespace.covers_empty _
    | event =>
        intro name
        simp only [← Option.not_isSome_iff_eq_none, isSome_get?_localNames_ofScripts_iff]
        apply mt
        intro declared
        rw [Scope.localDeclarations_event] at declared ⊢
        obtain ⟨script, member, declared⟩ := List.mem_flatMap.mp declared
        rw [filterMap_fields?_resolvedItems] at member
        obtain ⟨member, handles⟩ := List.mem_filter.mp member
        obtain ⟨original, originalMember, rfl⟩ := List.mem_map.mp member
        rw [ofFields_resolvedScript] at handles
        exact List.mem_flatMap.mpr ⟨original, List.mem_filter.mpr ⟨originalMember, handles⟩,
          mem_declaredNames_locals_of_resolvedScript declared⟩

theorem Covers.viewOf {table later : SymbolTable} (covers : table.Covers later)
    (script : Json.Fields) :
    (table.viewOf script).Covers (later.viewOf (table.resolvedScript script)) where
  table := covers
  locals := by
    rw [localsOfView_eq, localsOfView_eq]
    cases owner : Scope.ofFields? (table.resolvedScript script) with
    | none => exact Namespace.covers_empty _
    | some scope =>
        rw [ofFields?_of_resolvedScript owner]
        exact covers.localNames scope

theorem Covers.global {table later : SymbolTable} (covers : table.Covers later) :
    ScopeView.Covers ⟨table, ∅, none⟩ ⟨later, ∅, none⟩ :=
  ⟨covers, id⟩

theorem Covers.resolveScoped {table later : SymbolTable} (covers : table.Covers later)
    (item : Json) :
    (later.resolveScoped (table.resolveScoped item).value).value =
      (table.resolveScoped item).value := by
  cases item with
  | null | bool | num | str => rfl
  | arr items => exact ScopeView.resolve_resolve_of_covers covers.global (.arr items)
  | obj script =>
      have twice := ScopeView.resolve_resolve_of_covers (covers.viewOf script)
        (.obj (Json.Fields.counted script))
      rw [← resolveScoped_obj, value_resolveScoped_obj] at twice
      rw [value_resolveScoped_obj, resolveScoped_obj, counted_resolvedScript]
      exact twice

theorem Covers.resolve {table later : SymbolTable} (covers : table.Covers later)
    (scripts : Json) :
    (later.resolve (table.resolve scripts).value).value = (table.resolve scripts).value := by
  cases scripts with
  | arr items =>
      simp only [resolve_arr, List.map_map]
      apply congrArg Json.arr
      apply List.map_congr_left
      intro item _
      have plain := table.eraseAnnotations_resolveScoped item.eraseAnnotations_eraseAnnotations
      simp only [Function.comp_apply, plain]
      exact covers.resolveScoped item.eraseAnnotations
  | null | bool | num | str => rfl
  | obj fields =>
      have plain := table.eraseAnnotations_resolve (.obj fields)
      have unlisted : (table.resolve (.obj fields)).value.items? = none := by
        rw [items?_resolve]
        rfl
      rw [resolve_of_items?_eq_none later unlisted, plain, resolve_of_items?_eq_none table rfl]
      exact ScopeView.resolve_resolve_of_covers covers.global _

private theorem compactFields_eq_self {table : SymbolTable} {program : Json.Fields}
    (plain : Json.eraseFieldAnnotations program = program)
    (settled : ∀ scripts, (Key.scripts, scripts) ∈ program →
      (table.resolve scripts).value = scripts) :
    table.compactFields program = program := by
  rw [Json.eraseFieldAnnotations_eq_self_iff] at plain
  have unerased : program.filter (·.1 ≠ Key.annotation) = program :=
    List.filter_eq_self.mpr fun field member => decide_eq_true (plain field member).1
  rw [compactFields, unerased]
  conv_rhs => rw [← List.map_id program]
  apply List.map_congr_left
  intro ⟨key, value⟩ member
  dsimp only
  split
  next isScripts =>
    rw [settled value (isScripts ▸ member)]
    rfl
  next =>
    rw [(plain _ member).2]
    rfl

theorem Covers.compactFields {table later : SymbolTable} (covers : table.Covers later)
    (program : Json.Fields) :
    later.compactFields (table.compactFields program).withPortTables =
      (table.compactFields program).withPortTables := by
  apply compactFields_eq_self
  · exact Json.Fields.eraseFieldAnnotations_withPortTables
      (table.eraseFieldAnnotations_compactFields program)
  · intro scripts member
    rcases Json.Fields.mem_insertIfNew member with isPorts | member
    · exact absurd (Prod.mk.inj isPorts).1 (by decide)
    rcases Json.Fields.mem_insertIfNew member with isPorts | member
    · exact absurd (Prod.mk.inj isPorts).1 (by decide)
    obtain ⟨⟨key, original⟩, -, replaced⟩ := List.mem_map.mp member
    obtain ⟨rfl, rfl⟩ := Prod.mk.inj replaced
    rw [if_pos rfl]
    exact covers.resolve original

end SymbolTable

namespace Compaction

private theorem table_ofValue_value (value : Json) :
    (ofValue (ofValue value).value).table =
      SymbolTable.ofScripts
        (SymbolTable.resolvedItems (value.scriptItems.map Json.eraseAnnotations)) := by
  simp only [ofValue_table, scriptItems_ofValue, SymbolTable.resolvedItems, List.map_map,
    SymbolTable.ofScripts_eraseAnnotations]
  rfl

theorem covers_ofValue (value : Json) :
    (ofValue value).table.Covers (ofValue (ofValue value).value).table := by
  rw [table_ofValue_value, ofValue_table, ← SymbolTable.ofScripts_eraseAnnotations]
  exact SymbolTable.covers_resolvedItems _

private theorem value_ofValue_of_items? {scripts : Json} {items : List Json}
    (listed : scripts.items? = some items) :
    (ofValue scripts).value = ((ofValue scripts).table.resolve scripts).value := by
  cases scripts with
  | null | bool | num | str | obj => cases listed
  | arr scriptList => cases scriptList <;> rfl

theorem value_ofValue_value (value : Json) :
    (ofValue (ofValue value).value).value = (ofValue value).value := by
  have covers := covers_ofValue value
  cases value with
  | null | bool | num | str => rfl
  | arr items =>
      have first : (ofValue (.arr items)).value =
          ((ofValue (.arr items)).table.resolve (.arr items)).value :=
        value_ofValue_of_items? rfl
      have listed : ((ofValue (.arr items)).value.items?).isSome := by
        rw [first, SymbolTable.items?_resolve]
        rfl
      obtain ⟨resolved, listed⟩ := Option.isSome_iff_exists.mp listed
      have twice := covers.resolve (.arr items)
      rw [← first] at twice
      exact (value_ofValue_of_items? listed).trans twice
  | obj program =>
      have twice := congrArg Json.Fields.withPortTables (covers.compactFields program)
      rw [Json.Fields.withPortTables_withPortTables] at twice
      exact congrArg Json.obj twice

end Compaction

/-- Compacting what is compacted changes nothing, and declares no name but those of the event
handler. Resolving with one table twice changes nothing either. -/
theorem Json.compact_idempotent (value : Json) (table : SymbolTable) :
    (∃ compaction again, value.compact default = .ok compaction ∧
      compaction.value.compact default = .ok again ∧
      again.value = compaction.value ∧
      (∀ kind, again.table.globalNames kind = ∅) ∧ again.table.locals = ∅) ∧
    (table.resolve (table.resolve value).value).value = (table.resolve value).value := by
  refine ⟨⟨_, _, value.compact_default, Json.compact_default _,
    Compaction.value_ofValue_value value, ?_, ?_⟩, ?_⟩
  · intro kind
    rw [Compaction.table_ofValue_value]
    exact SymbolTable.globalNames_ofScripts_resolvedItems _ kind
  · rw [Compaction.table_ofValue_value]
    exact SymbolTable.locals_ofScripts_resolvedItems _
  · exact (SymbolTable.Covers.refl table).resolve value

end BlockNames
