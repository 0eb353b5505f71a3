import Mathlib.Data.List.Nodup
import BlockNames.Proofs.Declaration

/-!
Renaming. Names of each kind may be given other names, wherever they stand in a tree. Main
statement: the table of renamed scripts is the table of the scripts with its names renamed, provided
that different names of a kind stay different.
-/
namespace BlockNames

/-- Other keys and values in place of those of a map. Different keys should stay different. -/
def OrderedMap.mapEntries {κ α β : Type} [Ord κ] [Std.TransOrd κ] [Std.LawfulEqOrd κ]
    (key : κ → κ) (value : α → β) (map : OrderedMap κ α) : OrderedMap κ β :=
  ofList (map.entries.map fun entry => (key entry.1, value entry.2))

namespace OrderedMap

variable {κ α β : Type} [Ord κ] [Std.LawfulEqOrd κ] {key : κ → κ}

private theorem nodup_mapEntries (injective : Function.Injective key) (value : α → β)
    (map : OrderedMap κ α) :
    ((map.entries.map fun entry => (key entry.1, value entry.2)).map Prod.fst).Nodup := by
  have keys : (map.entries.map fun entry => (key entry.1, value entry.2)).map Prod.fst =
      (map.entries.map Prod.fst).map key := by
    simp only [List.map_map, Function.comp_def]
  rw [keys]
  exact map.nodup_keys.map injective

variable [Std.TransOrd κ]

private theorem get?_mapEntries_eq_some_iff [DecidableEq κ] (injective : Function.Injective key)
    (value : α → β) (map : OrderedMap κ α) {probe : κ} {result : β} :
    (map.mapEntries key value).get? probe = some result ↔
      ∃ name stored, map.get? name = some stored ∧ key name = probe ∧ value stored = result := by
  rw [mapEntries, get?_ofList_eq_some_iff (nodup_mapEntries injective value map)]
  simp only [List.mem_map, Prod.mk.injEq, Prod.exists, get?_eq_some_iff]

theorem get?_mapEntries [DecidableEq κ] (injective : Function.Injective key) (value : α → β)
    (map : OrderedMap κ α) (probe : κ) :
    (map.mapEntries key value).get? (key probe) = (map.get? probe).map value := by
  apply Option.ext
  intro result
  rw [get?_mapEntries_eq_some_iff injective, Option.map_eq_some_iff]
  constructor
  · rintro ⟨name, stored, held, same, rfl⟩
    exact ⟨stored, injective same ▸ held, rfl⟩
  · rintro ⟨stored, held, rfl⟩
    exact ⟨probe, stored, held, rfl, rfl⟩

theorem size_mapEntries [DecidableEq κ] (injective : Function.Injective key) (value : α → β)
    (map : OrderedMap κ α) : (map.mapEntries key value).size = map.size := by
  rw [mapEntries, size_ofList (nodup_mapEntries injective value map), List.length_map]
  rfl

end OrderedMap

/-- New names for names of each kind. -/
abbrev Renaming := NameKind → String → String

def Namespace.rename (new : String → String) (names : Namespace) : Namespace :=
  names.mapEntries new id

/-- The table with other names for its names. The names of a scope are those of variables. -/
def SymbolTable.rename (new : Renaming) (table : SymbolTable) : SymbolTable where
  event := table.event.map (Namespace.rename (new .variable))
  locals := table.locals.mapEntries (new .function) (Namespace.rename (new .variable))
  functionNames := table.functionNames.rename (new .function)
  listNames := table.listNames.rename (new .list)
  variableNames := table.variableNames.rename (new .variable)
  imageNames := table.imageNames.rename (new .image)

def Scope.rename (new : Renaming) : Scope → Scope
  | .event => .event
  | .function name => .function (new .function name)

namespace Json

def renameAt (new : String → String) : Json → Json
  | .str name => .str (new name)
  | .arr items => .arr items
  | .obj fields => .obj fields
  | .null => .null
  | .bool value => .bool value
  | .num value => .num value

def renameUnder (new : Renaming) (key : String) (value : Json) : Json :=
  match NameKind.ofKey? key with
  | some kind => value.renameAt (new kind)
  | none => value

mutual
def rename (new : Renaming) : Json → Json
  | .arr items => .arr (renameItems new items)
  | .obj fields => .obj (renameFields new fields)
  | .null => .null
  | .bool value => .bool value
  | .num value => .num value
  | .str value => .str value

def renameItems (new : Renaming) : List Json → List Json
  | [] => []
  | item :: rest => rename new item :: renameItems new rest

def renameFields (new : Renaming) : List (String × Json) → List (String × Json)
  | [] => []
  | (key, value) :: rest => (key, renameUnder new key (rename new value)) :: renameFields new rest
end

theorem renameItems_eq_map (new : Renaming) (items : List Json) :
    renameItems new items = items.map (rename new) := by
  induction items with
  | nil => rfl
  | cons item rest induction => simp only [renameItems, List.map_cons, induction]

theorem lookup_renameFields (new : Renaming) (fields : Fields) (key : String) :
    (renameFields new fields).lookup key =
      (fields.lookup key).map fun value => renameUnder new key (value.rename new) := by
  induction fields with
  | nil => rfl
  | cons field rest induction =>
      obtain ⟨stored, value⟩ := field
      simp only [renameFields, List.lookup_cons]
      by_cases same : key = stored
      · subst same
        simp
      · simp only [beq_eq_false_iff_ne.mpr same, induction]

@[simp] theorem renameUnder_key (new : Renaming) (kind : NameKind) (value : Json) :
    renameUnder new kind.key value = value.renameAt (new kind) := by
  cases kind <;> rfl

private theorem renameUnder_of_ofKey?_eq_none (new : Renaming) {key : String}
    (unnamed : NameKind.ofKey? key = none) (value : Json) : renameUnder new key value = value := by
  unfold renameUnder
  rw [unnamed]

@[simp] theorem str?_rename (new : Renaming) (value : Json) :
    (value.rename new).str? = value.str? := by
  cases value <;> rfl

@[simp] theorem items?_rename (new : Renaming) (value : Json) :
    (value.rename new).items? = value.items?.map (List.map (rename new)) := by
  cases value with
  | arr items => simp only [rename, items?, Option.map_some, renameItems_eq_map]
  | null | bool | num | str | obj => rfl

@[simp] theorem fields?_rename (new : Renaming) (value : Json) :
    (value.rename new).fields? = value.fields?.map (renameFields new) := by
  cases value <;> rfl

@[simp] theorem str?_renameAt (new : String → String) (value : Json) :
    (value.renameAt new).str? = value.str?.map new := by
  cases value <;> rfl

private theorem string?_key_renameFields (new : Renaming) (fields : Fields) (kind : NameKind) :
    Fields.string? (renameFields new fields) kind.key =
      (fields.string? kind.key).map (new kind) := by
  unfold Fields.string?
  rw [lookup_renameFields]
  cases fields.lookup kind.key with
  | none => rfl
  | some value => simp

theorem lookup_renameFields_of_ofKey?_eq_none (new : Renaming) (fields : Fields) {key : String}
    (unnamed : NameKind.ofKey? key = none) :
    (renameFields new fields).lookup key = (fields.lookup key).map (rename new) := by
  rw [lookup_renameFields]
  simp only [renameUnder_of_ofKey?_eq_none new unnamed]

theorem string?_kind_renameFields (new : Renaming) (fields : Fields) :
    Fields.string? (renameFields new fields) Key.kind = fields.string? Key.kind := by
  unfold Fields.string?
  rw [lookup_renameFields_of_ofKey?_eq_none new fields rfl]
  cases fields.lookup Key.kind with
  | none => rfl
  | some value => exact str?_rename new value

@[simp] theorem ofFields_renameFields (new : Renaming) (fields : Fields) :
    ScriptKind.ofFields (renameFields new fields) = ScriptKind.ofFields fields := by
  unfold ScriptKind.ofFields
  rw [string?_kind_renameFields]

theorem renameFields_replace (new : Renaming) (fields : Fields) {key : String}
    (unnamed : NameKind.ofKey? key = none) (value : Json) :
    renameFields new (fields.replace key value) =
      Fields.replace (renameFields new fields) key (value.rename new) := by
  induction fields with
  | nil => rfl
  | cons field rest induction =>
      obtain ⟨stored, old⟩ := field
      simp only [Fields.replace_cons, renameFields, induction]
      by_cases same : stored = key
      · subst same
        simp only [if_true, renameUnder_of_ofKey?_eq_none new unnamed]
      · simp only [if_neg same]

theorem eraseAnnotations_renameUnder (new : Renaming) (key : String) (value : Json) :
    (renameUnder new key value).eraseAnnotations =
      renameUnder new key value.eraseAnnotations := by
  unfold renameUnder
  cases NameKind.ofKey? key with
  | none => rfl
  | some kind => cases value <;> rfl

mutual
theorem eraseAnnotations_rename (new : Renaming) (tree : Json) :
    (tree.rename new).eraseAnnotations = tree.eraseAnnotations.rename new := by
  cases tree with
  | null | bool | num | str => rfl
  | arr items =>
      simp only [rename, eraseAnnotations]
      rw [eraseItemAnnotations_renameItems new items]
  | obj fields =>
      simp only [rename, eraseAnnotations]
      rw [eraseFieldAnnotations_renameFields new fields]

private theorem eraseItemAnnotations_renameItems (new : Renaming) (items : List Json) :
    eraseItemAnnotations (renameItems new items) =
      renameItems new (eraseItemAnnotations items) := by
  cases items with
  | nil => rfl
  | cons item rest =>
      simp only [renameItems, eraseItemAnnotations]
      rw [eraseAnnotations_rename new item, eraseItemAnnotations_renameItems new rest]

private theorem eraseFieldAnnotations_renameFields (new : Renaming)
    (fields : List (String × Json)) :
    eraseFieldAnnotations (renameFields new fields) =
      renameFields new (eraseFieldAnnotations fields) := by
  match fields with
  | [] => rfl
  | (key, value) :: rest =>
      simp only [renameFields, eraseFieldAnnotations]
      split
      next => exact eraseFieldAnnotations_renameFields new rest
      next =>
        simp only [renameFields]
        rw [eraseAnnotations_renameUnder, eraseAnnotations_rename new value,
          eraseFieldAnnotations_renameFields new rest]
end

end Json

private theorem Json.Fields.declaredName?_renameFields (new : Renaming) (script : Json.Fields)
    (kind : NameKind) :
    Json.Fields.declaredName? kind (Json.renameFields new script) =
      (script.declaredName? kind).map (new kind) := by
  unfold declaredName?
  rw [Json.ofFields_renameFields, Json.string?_key_renameFields]
  split <;> rfl

private theorem Json.Fields.declaredNames_renameFields (new : Renaming) (script : Json.Fields)
    {key : String} (unnamed : NameKind.ofKey? key = none) :
    Json.Fields.declaredNames (Json.renameFields new script) key =
      (script.declaredNames key).map (new .variable) := by
  unfold declaredNames
  rw [Json.lookup_renameFields_of_ofKey?_eq_none new script unnamed]
  cases script.lookup key with
  | none => rfl
  | some value =>
      simp only [Option.map_some, Option.bind_some, Json.items?_rename]
      cases value.items? with
      | none => rfl
      | some items =>
          simp only [Option.map_some, Option.getD_some, List.filterMap_map, List.map_filterMap]
          refine List.filterMap_congr fun entry _ => ?_
          simp only [Function.comp_apply, Json.fields?_rename]
          cases entry.fields? with
          | none => rfl
          | some inner => exact Json.string?_key_renameFields new inner .variable

theorem Scope.ofFields?_renameFields (new : Renaming) (script : Json.Fields) :
    Scope.ofFields? (Json.renameFields new script) =
      (Scope.ofFields? script).map (Scope.rename new) := by
  unfold Scope.ofFields?
  rw [Json.ofFields_renameFields, Json.string?_key_renameFields]
  cases ScriptKind.ofFields script with
  | eventHandler | other => rfl
  | declaration kind =>
      cases kind with
      | function => cases script.string? NameKind.function.key <;> rfl
      | _ => rfl

private theorem Json.Fields.localDeclarations_renameFields (new : Renaming) (script : Json.Fields) :
    Json.Fields.localDeclarations (Json.renameFields new script) =
      script.localDeclarations.map (new .variable) := by
  have arguments := declaredNames_renameFields new script
    (show NameKind.ofKey? Key.arguments = none by decide)
  have locals := declaredNames_renameFields new script
    (show NameKind.ofKey? Key.locals = none by decide)
  unfold localDeclarations
  rw [Json.ofFields_renameFields, arguments, locals]
  cases ScriptKind.ofFields script <;> simp

namespace Namespace

variable {new : String → String} (injective : Function.Injective new)

include injective

theorem get?_rename (names : Namespace) (name : String) :
    (names.rename new).get? (new name) = names.get? name := by
  rw [rename, OrderedMap.get?_mapEntries injective, Option.map_id, id]

private theorem get?_rename_of_forall_ne (names : Namespace) {probe : String}
    (unused : ∀ name, new name ≠ probe) : (names.rename new).get? probe = none := by
  by_contra found
  obtain ⟨index, found⟩ := Option.ne_none_iff_exists'.mp found
  obtain ⟨name, -, -, same, -⟩ :=
    (OrderedMap.get?_mapEntries_eq_some_iff injective id names).mp found
  exact unused name same

private theorem declare_rename (numbering : Numbering) (names : Namespace) (name : String) :
    (names.declare numbering name).rename new =
      (names.rename new).declare numbering (new name) := by
  have declaredIndex : (names.rename new).declaredIndex numbering (new name) =
      names.declaredIndex numbering name := by
    unfold Namespace.declaredIndex
    rw [get?_rename injective, rename, OrderedMap.size_mapEntries injective]
  ext1 probe
  rw [get?_declare, declaredIndex]
  by_cases used : ∃ other, new other = probe
  · obtain ⟨other, rfl⟩ := used
    rw [get?_rename injective, get?_declare, get?_rename injective]
    simp only [injective.eq_iff]
  · have unused : ∀ other, new other ≠ probe := not_exists.mp used
    rw [get?_rename_of_forall_ne injective _ unused, get?_rename_of_forall_ne injective _ unused,
      if_neg (unused name).symm]

theorem declareAll_rename (numbering : Numbering) (names : Namespace) (declared : List String) :
    (names.declareAll numbering declared).rename new =
      (names.rename new).declareAll numbering (declared.map new) := by
  induction declared generalizing names with
  | nil => rfl
  | cons name rest induction =>
      rw [declareAll_cons, induction, declare_rename injective, List.map_cons, declareAll_cons]

private theorem declareAll_empty_rename (numbering : Numbering) (declared : List String) :
    ((∅ : Namespace).declareAll numbering declared).rename new =
      (∅ : Namespace).declareAll numbering (declared.map new) :=
  declareAll_rename injective numbering ∅ declared

end Namespace

section Table

variable {new : Renaming} (injective : ∀ kind, Function.Injective (new kind))

theorem SymbolTable.globalNames_rename (new : Renaming) (table : SymbolTable) (kind : NameKind) :
    (table.rename new).globalNames kind = (table.globalNames kind).rename (new kind) := by
  cases kind <;> rfl

include injective

private theorem Scope.rename_injective : Function.Injective (Scope.rename new) := by
  intro first second same
  cases first with
  | event =>
      cases second with
      | event => rfl
      | function => cases same
  | function name =>
      cases second with
      | event => cases same
      | function other => rw [injective .function (Scope.function.inj same)]

namespace SymbolTable

theorem localNames?_rename (table : SymbolTable) (scope : Scope) :
    (table.rename new).localNames? (scope.rename new) =
      (table.localNames? scope).map (Namespace.rename (new .variable)) := by
  cases scope with
  | event => rfl
  | function name => exact OrderedMap.get?_mapEntries (injective .function) _ table.locals name

private theorem localNames?_rename_of_forall_ne (table : SymbolTable) {name : String}
    (unused : ∀ other, new .function other ≠ name) :
    (table.rename new).localNames? (.function name) = none := by
  by_contra found
  obtain ⟨names, found⟩ := Option.ne_none_iff_exists'.mp found
  obtain ⟨other, -, -, same, -⟩ :=
    (OrderedMap.get?_mapEntries_eq_some_iff (injective .function) _ table.locals).mp found
  exact unused other same

private theorem definitions_renameFields (scope : Scope) (scripts : List Json.Fields) :
    (scope.rename new).definitions (scripts.map (Json.renameFields new)) =
      (scope.definitions scripts).map (Json.renameFields new) := by
  apply Scope.definitions_map
  intro script
  rw [Scope.ofFields?_renameFields, ← Option.map_some,
    (Option.map_injective (Scope.rename_injective injective)).eq_iff]

theorem ofScripts_rename (scripts : List Json) :
    ofScripts (scripts.map (Json.rename new)) = (ofScripts scripts).rename new := by
  have fields := Json.filterMap_fields?_map (Json.fields?_rename new) scripts
  have known : ∀ scope : Scope, (ofScripts (scripts.map (Json.rename new))).localNames?
      (scope.rename new) = ((ofScripts scripts).rename new).localNames? (scope.rename new) := by
    intro scope
    rw [localNames?_rename injective, localNames?_ofScripts, localNames?_ofScripts, fields,
      definitions_renameFields injective]
    simp only [List.map_eq_nil_iff, List.flatMap_map, Json.Fields.localDeclarations_renameFields]
    split
    next => rfl
    next =>
      rw [Option.map_some, Namespace.declareAll_empty_rename (injective .variable),
        List.map_flatMap]
  apply ext_names
  · intro kind
    rw [globalNames_rename, globalNames_ofScripts, globalNames_ofScripts, fields,
      Namespace.declareAll_empty_rename (injective kind), List.filterMap_map, List.map_filterMap]
    simp only [Function.comp_def, Json.Fields.declaredName?_renameFields]
  · intro scope
    cases scope with
    | event => exact known .event
    | function name =>
        -- Neither table knows a function whose name is not a new name.
        by_cases used : ∃ other, new .function other = name
        · obtain ⟨other, rfl⟩ := used
          exact known (.function other)
        · have unused : ∀ other, new .function other ≠ name := not_exists.mp used
          have undefined : (Scope.function name).definitions
              ((scripts.filterMap Json.fields?).map (Json.renameFields new)) = [] := by
            apply List.filter_eq_nil_iff.mpr
            intro renamed member
            obtain ⟨script, -, rfl⟩ := List.mem_map.mp member
            rw [decide_eq_true_eq, Scope.ofFields?_renameFields, Option.map_eq_some_iff]
            rintro ⟨_ | other, -, same⟩
            · cases same
            · exact unused other (Scope.function.inj same)
          rw [localNames?_rename_of_forall_ne injective _ unused, localNames?_ofScripts, fields,
            if_pos undefined]

end SymbolTable

end Table

end BlockNames
