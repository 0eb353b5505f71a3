import BlockNames.Proofs.Erasure

/-!
Resolution by scope in one pass. A script is walked once with the names of its owner and those of
the program at hand. Main statement: resolving local names first and global names afterwards is the
same as this one pass, for every table.
-/
namespace BlockNames

/-- The names that are known where a script stands. -/
structure ScopeView where
  table : SymbolTable
  /-- The local names of the owner of the script. -/
  locals : Namespace
  /-- What reports call the owner. -/
  owner : Option String

namespace ScopeView

/-- A name that was looked up: it gives way to its index, or it stays and is reported. -/
def settle (kind : ReferenceKind) (scope : Option String) (name : String) :
    Option Int → Resolution
  | some index => ⟨Json.index index, []⟩
  | none => ⟨.str name, [⟨kind, name, scope⟩]⟩

/-- A name in a block. Only variables may be local. -/
def blockName (view : ScopeView) (kind : NameKind) (name : String) : Resolution :=
  settle (.name kind) view.owner name <|
    match kind with
    | .variable => (view.locals.get? name).or (view.table.variableNames.get? name)
    | .list => view.table.listNames.get? name
    | .image => view.table.imageNames.get? name
    | .function => view.table.functionNames.get? name

def bindingName (view : ScopeView) (target name : String) : Resolution :=
  settle .binding (some target) name ((view.table.locals.get? target).bind (·.get? name))

def inBlock (view : ScopeView) (key name : String) : Resolution :=
  match NameKind.ofKey? key with
  | some kind => view.blockName kind name
  | none => ⟨.str name, []⟩

def inCall (view : ScopeView) (key name : String) : Resolution :=
  if key = NameKind.function.key then view.blockName .function name else ⟨.str name, []⟩

/-- What a binding makes of the string `name` in field `key`. A call whose target is no string
leaves the names of its bindings alone. -/
def inBinding (view : ScopeView) (target : Option String) (key name : String) : Resolution :=
  match target with
  | some target =>
      if key = NameKind.variable.key then view.bindingName target name else ⟨.str name, []⟩
  | none => ⟨.str name, []⟩

def blockReports (view : ScopeView) (fields : Json.Fields) : List UnresolvedName :=
  NameKind.all.flatMap fun kind =>
    ((fields.string? kind.key).map fun name => (view.inBlock kind.key name).unresolved).getD []

def bindingReports (view : ScopeView) (target : Option String) (entry : Json) :
    List UnresolvedName :=
  ((entry.fields?.bind (·.string? NameKind.variable.key)).map fun name =>
    (view.inBinding target NameKind.variable.key name).unresolved).getD []

def callReports (view : ScopeView) (target : Option String) (fields : Json.Fields) :
    List UnresolvedName :=
  (((fields.lookup Key.arguments).bind Json.items?).getD []).flatMap
      (view.bindingReports target) ++
    (target.map fun name => (view.inCall NameKind.function.key name).unresolved).getD []

mutual
/-- The pass over a value: what it becomes, and the reports in the order of the pass. -/
def resolve (view : ScopeView) : Json → Resolution
  | .arr items =>
      let inner := view.resolveItems items
      ⟨.arr inner.1, inner.2⟩
  | .obj fields =>
      if Json.Fields.string? fields Key.kind = some callKind then
        let target := Json.Fields.string? fields NameKind.function.key
        let inner := view.resolveCall target fields
        ⟨.obj inner.1, view.callReports target fields ++ inner.2⟩
      else
        let inner := view.resolveBlock fields
        ⟨.obj inner.1, view.blockReports fields ++ inner.2⟩
  | .null => ⟨.null, []⟩
  | .bool value => ⟨.bool value, []⟩
  | .num value => ⟨.num value, []⟩
  | .str value => ⟨.str value, []⟩

def resolveItems (view : ScopeView) : List Json → List Json × List UnresolvedName
  | [] => ([], [])
  | item :: rest =>
      let head := view.resolve item
      let tail := view.resolveItems rest
      (head.value :: tail.1, head.unresolved ++ tail.2)

def resolveBlock (view : ScopeView) :
    List (String × Json) → List (String × Json) × List UnresolvedName
  | [] => ([], [])
  | (key, .str name) :: rest =>
      let tail := view.resolveBlock rest
      ((key, (view.inBlock key name).value) :: tail.1, tail.2)
  | (key, value) :: rest =>
      let head := view.resolve value
      let tail := view.resolveBlock rest
      ((key, head.value) :: tail.1, head.unresolved ++ tail.2)

def resolveCall (view : ScopeView) (target : Option String) :
    List (String × Json) → List (String × Json) × List UnresolvedName
  | [] => ([], [])
  | (key, .str name) :: rest =>
      let tail := view.resolveCall target rest
      ((key, (view.inCall key name).value) :: tail.1, tail.2)
  | (key, .arr items) :: rest =>
      let head :=
        if key = Key.arguments then view.resolveArguments target items else view.resolveItems items
      let tail := view.resolveCall target rest
      ((key, .arr head.1) :: tail.1, head.2 ++ tail.2)
  | (key, value) :: rest =>
      let head := view.resolve value
      let tail := view.resolveCall target rest
      ((key, head.value) :: tail.1, head.unresolved ++ tail.2)

def resolveArguments (view : ScopeView) (target : Option String) :
    List Json → List Json × List UnresolvedName
  | [] => ([], [])
  | .obj binding :: rest =>
      let head := view.resolveBinding target binding
      let tail := view.resolveArguments target rest
      (.obj head.1 :: tail.1, head.2 ++ tail.2)
  | argument :: rest =>
      let head := view.resolve argument
      let tail := view.resolveArguments target rest
      (head.value :: tail.1, head.unresolved ++ tail.2)

def resolveBinding (view : ScopeView) (target : Option String) :
    List (String × Json) → List (String × Json) × List UnresolvedName
  | [] => ([], [])
  | (key, .str name) :: rest =>
      let tail := view.resolveBinding target rest
      ((key, (view.inBinding target key name).value) :: tail.1, tail.2)
  | (key, value) :: rest =>
      let head := view.resolve value
      let tail := view.resolveBinding target rest
      ((key, head.value) :: tail.1, head.unresolved ++ tail.2)
end

end ScopeView

namespace SymbolTable

def viewOf (table : SymbolTable) (script : Json.Fields) : ScopeView :=
  let scope := Scope.ofFields? script
  ⟨table, (scope.bind table.localNames?).getD ∅, scope.map Scope.label⟩

/-- Resolves one item of a list of scripts. A script that may have local names has its argument
list replaced by the number of its entries. -/
def resolveScoped (table : SymbolTable) : Json → Resolution
  | .obj script =>
      let counted :=
        if (ScriptKind.ofFields script).hasLocals then Json.Fields.countArguments script else script
      (table.viewOf script).resolve (.obj counted)
  | item => ScopeView.resolve ⟨table, ∅, none⟩ item

/-- Resolves all names in one pass over the tree without annotations. -/
def resolveOnce (table : SymbolTable) (scripts : Json) : Resolution :=
  match scripts.eraseAnnotations with
  | .arr items =>
      let resolutions := items.map table.resolveScoped
      ⟨.arr (resolutions.map (·.value)), resolutions.flatMap (·.unresolved)⟩
  | other => ScopeView.resolve ⟨table, ∅, none⟩ other

end SymbolTable

/-! The pass is a rewriting, and its reports are those on the references of the tree. -/

namespace ScopeView

def settled (view : ScopeView) : Site → String → Resolution
  | .name kind, name => view.blockName kind name
  | .binding (some (.str target)), name => view.bindingName target name
  | .binding _, name => ⟨.str name, []⟩

def change (view : ScopeView) (site : Site) : Json → Json
  | .str name => (view.settled site name).value
  | value => value

def reports (view : ScopeView) (reference : Reference) : List UnresolvedName :=
  match reference.value with
  | .str name => (view.settled reference.site name).unresolved
  | _ => []

theorem settle_value (kind : ReferenceKind) (scope : Option String) (name : String)
    (found : Option Int) :
    (settle kind scope name found).value = (found.map Json.index).getD (.str name) := by
  cases found <;> rfl

theorem leafwise_change (view : ScopeView) : Leafwise view.change where
  leaf := by
    intro site value leaf
    cases value with
    | arr | obj => exact leaf.elim
    | null | bool | num => trivial
    | str name =>
        have settledLeaf : ∀ kind scope found, (settle kind scope name found).value.IsLeaf := by
          intro kind scope found
          cases found <;> trivial
        cases site with
        | name kind => exact settledLeaf _ _ _
        | binding target =>
            rcases target with _ | (_ | _ | _ | _ | _ | _)
            case some.str => exact settledLeaf _ _ _
            all_goals trivial
  inner := by
    intro site value inner
    cases value with
    | arr | obj => rfl
    | null | bool | num | str => exact (inner trivial).elim

theorem str?_change_of_eq_some {view : ScopeView} {site : Site} {value : Json} {name : String}
    (named : (view.change site value).str? = some name) : value.str? = some name := by
  cases value with
  | null | bool | num | arr | obj => cases named
  | str original =>
      have kept : ∀ kind scope found,
          (settle kind scope original found).value.str? = some name → original = name := by
        intro kind scope found named
        cases found with
        | none => exact Option.some.inj named
        | some index => cases named
      cases site with
      | name kind => exact congrArg some (kept _ _ _ named)
      | binding target =>
          rcases target with _ | (_ | _ | _ | _ | _ | _)
          case some.str => exact congrArg some (kept _ _ _ named)
          all_goals exact named

def settledField (view : ScopeView) (shape : Shape) (key name : String) : Resolution :=
  match shape.site? key with
  | some site => view.settled site name
  | none => ⟨.str name, []⟩

private theorem inBlock_eq (view : ScopeView) (key name : String) :
    view.inBlock key name = view.settledField .block key name := by
  unfold inBlock settledField Shape.site?
  cases NameKind.ofKey? key <;> rfl

private theorem inCall_eq (view : ScopeView) (target : Option Json) (key name : String) :
    view.inCall key name = view.settledField (.call target) key name := by
  unfold inCall settledField Shape.site?
  by_cases same : key = NameKind.function.key
  · simp only [if_pos same, settled]
  · simp only [if_neg same]

private theorem inBinding_eq (view : ScopeView) (target : Option Json) (key name : String) :
    view.inBinding (target.bind Json.str?) key name =
      view.settledField (.binding target) key name := by
  unfold inBinding settledField Shape.site?
  by_cases same : key = NameKind.variable.key
  · simp only [if_pos same]
    rcases target with _ | (_ | _ | _ | _ | _ | _) <;> rfl
  · simp only [if_neg same]
    cases target.bind Json.str? <;> rfl

private theorem changed_str (view : ScopeView) (shape : Shape) (key name : String) :
    Site.changed view.change (shape.site? key) (.str name) =
      (view.settledField shape key name).value := by
  unfold settledField
  cases shape.site? key <;> rfl

private theorem changed_of_str?_eq_none (view : ScopeView) (site? : Option Site) {value : Json}
    (unnamed : value.str? = none) : Site.changed view.change site? value = value := by
  cases site? with
  | none => rfl
  | some site =>
      cases value with
      | str name => cases unnamed
      | null | bool | num | arr | obj => rfl

private theorem blockReports_eq (view : ScopeView) (fields : Json.Fields) :
    view.blockReports fields = (Shape.block.references fields).flatMap view.reports := by
  unfold blockReports Shape.references
  rw [List.filterMap_eq_flatMap_toList, List.flatMap_assoc]
  refine List.flatMap_congr fun kind _ => ?_
  unfold Json.Fields.string?
  cases fields.lookup kind.key with
  | none => rfl
  | some value =>
      cases value with
      | str name =>
          simp only [Option.bind_some, Json.str?, Option.map_some, Option.getD_some,
            Option.toList_some, List.flatMap_singleton, reports, inBlock]
          cases kind <;> rfl
      | null | bool | num | arr | obj => rfl

private theorem bindingReports_eq (view : ScopeView) (target : Option Json) (entry : Json) :
    view.bindingReports (target.bind Json.str?) entry =
      (((entry.fields?.bind (·.lookup NameKind.variable.key)).map
        (Reference.mk (.binding target))).toList).flatMap view.reports := by
  unfold bindingReports Json.Fields.string?
  cases entry.fields? with
  | none => rfl
  | some fields =>
      simp only [Option.bind_some]
      cases fields.lookup NameKind.variable.key with
      | none => rfl
      | some value =>
          cases value with
          | str name =>
              simp only [Option.bind_some, Json.str?, Option.map_some, Option.getD_some,
                Option.toList_some, List.flatMap_singleton, reports, inBinding_eq]
              rfl
          | null | bool | num | arr | obj => rfl

private theorem callReports_eq (view : ScopeView) (fields : Json.Fields) :
    view.callReports (fields.string? NameKind.function.key) fields =
      ((Shape.call (fields.lookup NameKind.function.key)).references fields).flatMap
        view.reports := by
  unfold callReports Shape.references Json.bindings Json.Fields.string?
  rw [List.flatMap_append, List.filterMap_eq_flatMap_toList, List.flatMap_assoc]
  congr 1
  · refine List.flatMap_congr fun entry _ => ?_
    exact bindingReports_eq view _ entry
  · cases fields.lookup NameKind.function.key with
    | none => rfl
    | some value =>
        cases value with
        | str name =>
            simp only [Option.bind_some, Json.str?, Option.map_some, Option.getD_some,
              Option.toList_some, List.flatMap_singleton, reports, inCall]
            rfl
        | null | bool | num | arr | obj => rfl

mutual
theorem resolve_eq (view : ScopeView) (tree : Json) :
    view.resolve tree =
      ⟨tree.rewrite view.change .value, (tree.references .value).flatMap view.reports⟩ := by
  cases tree with
  | null | bool | num | str => rfl
  | arr items =>
      simp only [resolve, resolveItems_eq view items, Json.rewrite, Json.references, Role.item]
  | obj fields =>
      simp only [resolve, Json.rewrite, Json.references, Role.shape, Shape.ofFields,
        List.flatMap_append]
      by_cases call : Json.Fields.string? fields Key.kind = some callKind
      · rw [if_pos call, if_pos call, callReports_eq, Json.Fields.string?,
          resolveCall_eq view (List.lookup NameKind.function.key fields) fields]
      · rw [if_neg call, if_neg call, blockReports_eq, resolveBlock_eq view fields]

private theorem resolveItems_eq (view : ScopeView) (items : List Json) :
    view.resolveItems items =
      (Json.rewriteItems view.change .value items,
        (Json.itemReferences .value items).flatMap view.reports) := by
  cases items with
  | nil => rfl
  | cons item rest =>
      simp only [resolveItems, resolve_eq view item, resolveItems_eq view rest,
        Json.rewriteItems, Json.itemReferences, List.flatMap_append]

private theorem resolveBlock_eq (view : ScopeView) (fields : List (String × Json)) :
    view.resolveBlock fields =
      (Json.rewriteFields view.change .block fields,
        (Json.fieldReferences .block fields).flatMap view.reports) := by
  match fields with
  | [] => rfl
  | (key, .str name) :: rest =>
      simp only [resolveBlock, resolveBlock_eq view rest, inBlock_eq, ← changed_str]
      rfl
  | (key, .null) :: rest | (key, .bool _) :: rest | (key, .num _) :: rest
  | (key, .arr _) :: rest | (key, .obj _) :: rest =>
      simp only [resolveBlock, resolve_eq view _, resolveBlock_eq view rest, Json.rewriteFields,
        Json.fieldReferences, List.flatMap_append, Shape.role]
      rw [changed_of_str?_eq_none view _ (Json.str?_rewrite _ _ _)]

private theorem resolveCall_eq (view : ScopeView) (target : Option Json)
    (fields : List (String × Json)) :
    view.resolveCall (target.bind Json.str?) fields =
      (Json.rewriteFields view.change (.call target) fields,
        (Json.fieldReferences (.call target) fields).flatMap view.reports) := by
  match fields with
  | [] => rfl
  | (key, .str name) :: rest =>
      simp only [resolveCall, resolveCall_eq view target rest, inCall_eq view target,
        ← changed_str]
      rfl
  | (key, .arr items) :: rest =>
      simp only [resolveCall, resolveArguments_eq view target items, resolveItems_eq view items,
        resolveCall_eq view target rest, Json.rewriteFields, Json.fieldReferences,
        List.flatMap_append, Shape.role]
      rw [changed_of_str?_eq_none view _ (Json.str?_rewrite _ _ _)]
      split <;> rfl
  | (key, .null) :: rest | (key, .bool _) :: rest | (key, .num _) :: rest
  | (key, .obj _) :: rest =>
      simp only [resolveCall, resolve_eq view _, resolveCall_eq view target rest,
        Json.rewriteFields, Json.fieldReferences, List.flatMap_append, Shape.role]
      rw [changed_of_str?_eq_none view _ (Json.str?_rewrite _ _ _)]
      split <;> rfl

private theorem resolveArguments_eq (view : ScopeView) (target : Option Json) (items : List Json) :
    view.resolveArguments (target.bind Json.str?) items =
      (Json.rewriteItems view.change (.argument target) items,
        (Json.itemReferences (.argument target) items).flatMap view.reports) := by
  match items with
  | [] => rfl
  | .obj binding :: rest =>
      simp only [resolveArguments, resolveBinding_eq view target binding,
        resolveArguments_eq view target rest, Json.rewriteItems, Json.itemReferences,
        List.flatMap_append]
      rfl
  | .null :: rest | .bool _ :: rest | .num _ :: rest | .str _ :: rest | .arr _ :: rest =>
      simp only [resolveArguments, resolve_eq view _, resolveArguments_eq view target rest,
        Json.rewriteItems, Json.itemReferences, List.flatMap_append]
      rfl

private theorem resolveBinding_eq (view : ScopeView) (target : Option Json)
    (fields : List (String × Json)) :
    view.resolveBinding (target.bind Json.str?) fields =
      (Json.rewriteFields view.change (.binding target) fields,
        (Json.fieldReferences (.binding target) fields).flatMap view.reports) := by
  match fields with
  | [] => rfl
  | (key, .str name) :: rest =>
      simp only [resolveBinding, resolveBinding_eq view target rest, inBinding_eq,
        ← changed_str]
      rfl
  | (key, .null) :: rest | (key, .bool _) :: rest | (key, .num _) :: rest
  | (key, .arr _) :: rest | (key, .obj _) :: rest =>
      simp only [resolveBinding, resolve_eq view _, resolveBinding_eq view target rest,
        Json.rewriteFields, Json.fieldReferences, List.flatMap_append, Shape.role]
      rw [changed_of_str?_eq_none view _ (Json.str?_rewrite _ _ _)]
end

end ScopeView

theorem Json.leafwise_resolved (namesAt : Site → Option Namespace) :
    Leafwise (Json.resolved namesAt) where
  leaf := by
    intro site value leaf
    cases value with
    | arr | obj => exact leaf.elim
    | null | bool | num => trivial
    | str name =>
        simp only [Json.resolved]
        split <;> trivial
  inner := by
    intro site value inner
    cases value with
    | arr | obj => rfl
    | null | bool | num | str => exact (inner trivial).elim

private theorem Json.resolved_of_namesAt_eq_none {namesAt : Site → Option Namespace} {site : Site}
    (unknown : namesAt site = none) (value : Json) : Json.resolved namesAt site value = value := by
  cases value with
  | str name => simp only [Json.resolved, unknown, Option.bind_none]
  | null | bool | num | arr | obj => rfl

private theorem Namespace.targetAfter_local (locals : Namespace) (target : Json) :
    Json.targetAfter (Json.resolved locals.atSite) target =
      target.rewrite (Json.resolved locals.atSite) .value :=
  Json.resolved_of_namesAt_eq_none rfl _

namespace ScopeView

private theorem namesAt_mapTarget (table : SymbolTable) (locals : Namespace) (site : Site) :
    table.namesAt (site.mapTarget (Json.targetAfter (Json.resolved locals.atSite))) =
      table.namesAt site := by
  cases site with
  | name kind => rfl
  | binding target =>
      cases target with
      | none => rfl
      | some target =>
          simp only [Site.mapTarget, Option.map_some, Namespace.targetAfter_local]
          cases target <;> rfl

theorem bindingName_eq (view : ScopeView) (target name : String) :
    view.bindingName target name =
      settle .binding (some target) name
        ((view.table.localNames (.function target)).get? name) := by
  simp only [bindingName, SymbolTable.localNames, SymbolTable.localNames?]
  cases view.table.locals.get? target <;> rfl

theorem blockName_eq (view : ScopeView) (kind : NameKind) (name : String) :
    view.blockName kind name =
      settle (.name kind) view.owner name
        (((view.locals.atSite (.name kind)).bind (·.get? name)).or
          ((view.table.globalNames kind).get? name)) := by
  cases kind <;> rfl

private theorem changeThen_eq (view : ScopeView) :
    Json.changeThen (Json.resolved view.locals.atSite) (Json.resolved view.table.namesAt) =
      view.change := by
  funext site value
  cases value with
  | null | bool | num | arr | obj => rfl
  | str name =>
      unfold Json.changeThen
      simp only [Json.resolved, change]
      cases site with
      | name kind =>
          simp only [settled, blockName_eq, settle_value, Site.mapTarget]
          cases (view.locals.atSite (.name kind)).bind (·.get? name) with
          | some index => rfl
          | none =>
              simp only [SymbolTable.namesAt, Option.bind_some, Option.none_or]
              cases (view.table.globalNames kind).get? name <;> rfl
      | binding target =>
          simp only [Namespace.atSite, Option.bind_none, namesAt_mapTarget]
          rcases target with _ | (_ | _ | _ | target | _ | _)
          case some.str =>
            simp only [SymbolTable.namesAt, settled, bindingName_eq, settle_value,
              Option.bind_some]
            cases (view.table.localNames (.function target)).get? name <;> rfl
          all_goals rfl

private theorem unresolved?_after (view : ScopeView) (reference : Reference) :
    ((reference.after (Json.resolved view.locals.atSite)).unresolved? view.table.namesAt
      view.owner).toList = view.reports reference := by
  obtain ⟨site, value⟩ := reference
  unfold Reference.unresolved? Reference.after
  simp only [namesAt_mapTarget]
  cases value with
  | null | bool | num | arr | obj => rfl
  | str name =>
      simp only [Json.rewrite, Json.resolved, reports]
      cases site with
      | name kind =>
          simp only [settled, blockName_eq]
          cases (view.locals.atSite (.name kind)).bind (·.get? name) with
          | some index => rfl
          | none =>
              simp only [SymbolTable.namesAt, OrderedMap.contains, Option.none_or]
              obtain missing | ⟨index, found⟩ :=
                ((view.table.globalNames kind).get? name).eq_none_or_eq_some
              · simp only [missing]
                rfl
              · simp only [found]
                rfl
      | binding target =>
          simp only [Namespace.atSite, Option.bind_none]
          rcases target with _ | (_ | _ | _ | target | _ | _)
          case some.str =>
            simp only [SymbolTable.namesAt, settled, bindingName_eq, OrderedMap.contains]
            obtain missing | ⟨index, found⟩ :=
              ((view.table.localNames (.function target)).get? name).eq_none_or_eq_some
            · simp only [missing]
              rfl
            · simp only [found]
              rfl
          all_goals rfl

theorem resolve_eq_phases (view : ScopeView) (tree : Json) :
    view.resolve tree =
      ⟨(tree.rewrite (Json.resolved view.locals.atSite) .value).rewrite
          (Json.resolved view.table.namesAt) .value,
        view.table.unresolvedIn view.owner
          (tree.rewrite (Json.resolved view.locals.atSite) .value)⟩ := by
  rw [resolve_eq, ← changeThen_eq]
  congr 1
  · exact (Json.rewrite_rewrite (Json.leafwise_resolved _) _ .value tree).symm
  · have references := Json.references_rewrite (Json.leafwise_resolved view.locals.atSite) .value
      tree
    unfold SymbolTable.unresolvedIn
    rw [Role.mapTarget] at references
    rw [references, List.filterMap_map, List.filterMap_eq_flatMap_toList]
    exact List.flatMap_congr fun reference _ => (view.unresolved?_after reference).symm

end ScopeView

namespace Json.Fields

theorem string?_replace_of_ne (fields : Fields) {key probe : String} (value : Json)
    (different : probe ≠ key) :
    (fields.replace key value).string? probe = fields.string? probe := by
  unfold Fields.string?
  rw [lookup_replace_of_ne fields value different]

theorem ofFields_replace_of_ne (fields : Fields) {key : String} (value : Json)
    (different : Key.kind ≠ key) :
    ScriptKind.ofFields (fields.replace key value) = ScriptKind.ofFields fields := by
  unfold ScriptKind.ofFields
  rw [string?_replace_of_ne fields value different]

theorem countArguments_of_declarations {fields : Fields} {declarations : List Json}
    (held : fields.lookup Key.arguments = some (.arr declarations)) :
    fields.countArguments = fields.replace Key.arguments (Json.index declarations.length) := by
  unfold countArguments
  rw [held]
  rfl

theorem countArguments_of_unlisted {fields : Fields}
    (unlisted : (fields.lookup Key.arguments).bind Json.items? = none) :
    fields.countArguments = fields := by
  unfold countArguments
  rw [unlisted]

@[simp] theorem ofFields_countArguments (fields : Fields) :
    ScriptKind.ofFields fields.countArguments = ScriptKind.ofFields fields := by
  unfold countArguments
  split
  · exact ofFields_replace_of_ne fields _ (by decide)
  · rfl

@[simp] theorem ofFields?_countArguments (fields : Fields) :
    Scope.ofFields? fields.countArguments = Scope.ofFields? fields := by
  unfold countArguments
  split
  · unfold Scope.ofFields?
    rw [ofFields_replace_of_ne fields _ (by decide), string?_replace_of_ne fields _ (by decide)]
  · rfl

end Json.Fields

theorem Shape.ofFields_of_hasLocals {script : Json.Fields}
    (owner : (ScriptKind.ofFields script).hasLocals = true) : Shape.ofFields script = .block := by
  refine if_neg fun call => ?_
  unfold ScriptKind.ofFields at owner
  rw [call] at owner
  exact absurd owner (by decide)

private theorem Scope.ofFields?_eq_none_of_hasLocals {script : Json.Fields}
    (ownerless : ¬(ScriptKind.ofFields script).hasLocals = true) :
    Scope.ofFields? script = none := by
  unfold Scope.ofFields?
  cases kind : ScriptKind.ofFields script with
  | eventHandler => exact absurd (by rw [kind]; rfl) ownerless
  | other => rfl
  | declaration declared =>
      cases declared with
      | function => exact absurd (by rw [kind]; rfl) ownerless
      | _ => rfl

theorem Scope.ofFields?_rewriteFields (locals : Namespace) (script : Json.Fields) :
    Scope.ofFields? (Json.rewriteFields (Json.resolved locals.atSite) .block script) =
      Scope.ofFields? script := by
  unfold Scope.ofFields? Json.Fields.string?
  rw [Json.ofFields_rewriteFields, Json.lookup_rewriteFields]
  cases script.lookup NameKind.function.key with
  | none => rfl
  | some value =>
      have kept : ∀ value, Site.changed (Json.resolved locals.atSite)
          (Shape.block.site? NameKind.function.key) value = value := by
        intro value
        have unknown : locals.atSite (.name .function) = none := rfl
        exact Json.resolved_of_namesAt_eq_none unknown value
      simp only [Option.map_some, Option.bind_some, kept, Json.str?_rewrite]

theorem Json.rewrite_resolved_empty (tree : Json) :
    tree.rewrite (Json.resolved (∅ : Namespace).atSite) .value = tree := by
  have every : tree.EveryReference (fun _ => True) .value :=
    Json.everyReference_of_forall (fun _ => trivial) .value tree
  refine Json.rewrite_eq_self (fun site value _ => ?_) .value tree every
  cases value with
  | null | bool | num | arr | obj => rfl
  | str name =>
      rcases site with (_ | _ | _ | _) | target <;> rfl

private theorem Json.eraseAnnotations_local (locals : Namespace) (site : Site) (value : Json) :
    (Json.resolved locals.atSite site value).eraseAnnotations =
      Json.resolved locals.atSite (site.mapTarget eraseAnnotations) value.eraseAnnotations := by
  have sameNames : locals.atSite (site.mapTarget eraseAnnotations) = locals.atSite site := by
    cases site <;> rfl
  cases value with
  | null | bool | num | arr | obj => rfl
  | str name =>
      simp only [Json.resolved, Json.eraseAnnotations, sameNames]
      cases (locals.atSite site).bind (·.get? name) <;> rfl

namespace SymbolTable

theorem localsOfView_eq (table : SymbolTable) (script : Json.Fields) :
    (table.viewOf script).locals = ((Scope.ofFields? script).map table.localNames).getD ∅ := by
  unfold viewOf
  cases Scope.ofFields? script <;> rfl

private theorem eraseAnnotations_resolveLocalsOf (table : SymbolTable) (script : Json.Fields)
    (owner : (ScriptKind.ofFields script).hasLocals = true) :
    (table.resolveLocalsOf (.obj script)).eraseAnnotations =
      .obj (Json.rewriteFields
        (Json.resolved (table.viewOf (Json.eraseFieldAnnotations script)).locals.atSite) .block
        (Json.Fields.countArguments (Json.eraseFieldAnnotations script))) := by
  simp only [resolveLocalsOf, if_pos owner, Namespace.resolveScript, Json.eraseAnnotations]
  rw [Json.eraseFieldAnnotations_rewriteFields (Json.eraseAnnotations_local _),
    Json.countArguments_eraseFieldAnnotations, localsOfView_eq,
    Scope.ofFields?_eraseFieldAnnotations]
  rfl

theorem resolveScoped_eq (table : SymbolTable) (item : Json) :
    table.resolveScoped item.eraseAnnotations =
      ⟨(table.resolveLocalsOf item).eraseAnnotations.rewrite (Json.resolved table.namesAt) .value,
        table.unresolvedIn (table.resolveLocalsOf item).eraseAnnotations.reportScope
          (table.resolveLocalsOf item).eraseAnnotations⟩ := by
  cases item with
  | null | bool | num | str => rfl
  | arr items =>
      simp only [Json.eraseAnnotations, resolveScoped, resolveLocalsOf,
        ScopeView.resolve_eq_phases, Json.rewrite_resolved_empty]
      rfl
  | obj script =>
      by_cases owner : (ScriptKind.ofFields script).hasLocals = true
      · rw [eraseAnnotations_resolveLocalsOf table script owner]
        have ownerPlain :
            (ScriptKind.ofFields (Json.eraseFieldAnnotations script)).hasLocals = true := by
          rw [ScriptKind.ofFields_eraseFieldAnnotations, owner]
        have block : Shape.ofFields (Json.Fields.countArguments
            (Json.eraseFieldAnnotations script)) = .block := by
          apply Shape.ofFields_of_hasLocals
          rw [Json.Fields.ofFields_countArguments, ownerPlain]
        simp only [Json.eraseAnnotations, resolveScoped, if_pos ownerPlain,
          ScopeView.resolve_eq_phases, Json.rewrite, Role.shape, block, Json.reportScope,
          Json.fields?, Option.bind_some, Scope.ofFields?_rewriteFields,
          Json.Fields.ofFields?_countArguments]
        rfl
      · have ownerless : ¬(ScriptKind.ofFields (Json.eraseFieldAnnotations script)).hasLocals
            = true := by
          rwa [ScriptKind.ofFields_eraseFieldAnnotations]
        have view : table.viewOf (Json.eraseFieldAnnotations script) = ⟨table, ∅, none⟩ := by
          unfold viewOf
          rw [Scope.ofFields?_eq_none_of_hasLocals ownerless]
          rfl
        simp only [resolveLocalsOf, if_neg owner, Json.eraseAnnotations, resolveScoped,
          if_neg ownerless, view, ScopeView.resolve_eq_phases, Json.rewrite_resolved_empty,
          Json.reportScope, Json.fields?, Option.bind_some,
          Scope.ofFields?_eq_none_of_hasLocals ownerless, Option.map_none]

theorem resolve_arr (table : SymbolTable) (items : List Json) :
    table.resolve (.arr items) =
      ⟨.arr (items.map fun item => (table.resolveScoped item.eraseAnnotations).value),
        items.flatMap fun item => (table.resolveScoped item.eraseAnnotations).unresolved⟩ := by
  simp only [resolve, resolveLocals, resolveGlobals, Json.eraseAnnotations,
    Json.eraseItemAnnotations_eq_map, Json.rewrite, Role.item, Json.rewriteItems_eq_map,
    List.map_map, List.flatMap_map]
  congr 1
  · congr 1
    refine List.map_congr_left fun item _ => ?_
    simp only [Function.comp_apply, resolveScoped_eq]
  · refine List.flatMap_congr fun item _ => ?_
    simp only [Function.comp_apply, resolveScoped_eq]

theorem resolve_of_items?_eq_none (table : SymbolTable) {scripts : Json}
    (unlisted : scripts.items? = none) :
    table.resolve scripts = ScopeView.resolve ⟨table, ∅, none⟩ scripts.eraseAnnotations := by
  rw [ScopeView.resolve_eq_phases, Json.rewrite_resolved_empty]
  cases scripts with
  | arr items => cases unlisted
  | null | bool | num | str | obj => rfl

theorem resolve_eraseAnnotations (table : SymbolTable) (scripts : Json) :
    table.resolve scripts.eraseAnnotations = table.resolve scripts := by
  cases listed : scripts.items? with
  | none =>
      have listedPlain : scripts.eraseAnnotations.items? = none := by
        rw [Json.items?_eraseAnnotations, listed, Option.map_none]
      rw [resolve_of_items?_eq_none table listed, resolve_of_items?_eq_none table listedPlain,
        Json.eraseAnnotations_eraseAnnotations]
  | some items =>
      cases scripts with
      | null | bool | num | str | obj => cases listed
      | arr =>
          simp only [Json.eraseAnnotations, Json.eraseItemAnnotations_eq_map, resolve_arr,
            List.map_map, List.flatMap_map, Function.comp_def,
            Json.eraseAnnotations_eraseAnnotations]

/-- Resolving local names and then global names is resolving each name once, in its scope. -/
theorem resolve_eq_resolveOnce (table : SymbolTable) (scripts : Json) :
    table.resolve scripts = table.resolveOnce scripts := by
  cases scripts with
  | arr items =>
      rw [resolve_arr]
      simp only [resolveOnce, Json.eraseAnnotations, Json.eraseItemAnnotations_eq_map,
        List.map_map, List.flatMap_map]
      rfl
  | null | bool | num | str | obj => rw [resolve_of_items?_eq_none table rfl]; rfl

end SymbolTable

end BlockNames
