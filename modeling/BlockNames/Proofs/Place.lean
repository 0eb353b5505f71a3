import BlockNames.Proofs.ArgumentCount
import BlockNames.Proofs.Position

/-!
Places of values. Going down a path into a tree one keeps track of what the value there refers to
and of how it is searched. Main statements: a rewriting changes the value at the end of a path as
the place of that value says, and a place with a site holds one of the references of the tree.
-/
namespace BlockNames

/-- What a value refers to where it stands, if it is at a reference, and how it is searched. -/
structure Place where
  site? : Option Site := none
  role : Role := .value
deriving DecidableEq

namespace Place

def inside (place : Place) : Json → Json.Step → Place
  | .obj fields, .field key =>
      ⟨(place.role.shape fields).site? key, (place.role.shape fields).role key⟩
  | _, _ => ⟨none, place.role.item⟩

def mapTarget (change : Json → Json) (place : Place) : Place :=
  ⟨place.site?.map (Site.mapTarget change), place.role.mapTarget change⟩

/-- What a rewriting makes of a value in this place. -/
def rewrite (change : Site → Json → Json) (place : Place) (value : Json) : Json :=
  Site.changed change place.site? (value.rewrite change place.role)

end Place

namespace Json

/-- The place that a path leads to, from the place of the whole tree on. A path that leads nowhere
has a place without a site. -/
def placeAt (place : Place) (tree : Json) : List Step → Place
  | [] => place
  | step :: path =>
      match tree.child? step with
      | some inner => inner.placeAt (place.inside tree step) path
      | none => {}

/-- What the value at the end of a path refers to, if it is at a reference. -/
def siteAt? (tree : Json) (path : List Step) : Option Site :=
  (tree.placeAt {} path).site?

theorem placeAt_cons {tree inner : Json} {step : Step} (child : tree.child? step = some inner)
    (place : Place) (path : List Step) :
    tree.placeAt place (step :: path) = inner.placeAt (place.inside tree step) path := by
  simp only [placeAt, child]

theorem placeAt_cons_of_child?_eq_none {tree : Json} {step : Step}
    (childless : tree.child? step = none) (place : Place) (path : List Step) :
    tree.placeAt place (step :: path) = {} := by
  simp only [placeAt, childless]

theorem at?_cons {tree inner : Json} {step : Step} (child : tree.child? step = some inner)
    (path : List Step) : tree.at? (step :: path) = inner.at? path := by
  simp only [at?, child, Option.bind_some]

theorem at?_cons_of_child?_eq_none {tree : Json} {step : Step}
    (childless : tree.child? step = none) (path : List Step) :
    tree.at? (step :: path) = none := by
  simp only [at?, childless, Option.bind_none]

theorem placeAt_cons_congr {tree other : Json} {step : Step}
    (child : tree.child? step = other.child? step)
    (inside : ({} : Place).inside tree step = ({} : Place).inside other step) (path : List Step) :
    tree.placeAt {} (step :: path) = other.placeAt {} (step :: path) ∧
      tree.at? (step :: path) = other.at? (step :: path) := by
  simp only [placeAt, at?, child, inside, and_self]

theorem child?_of_isLeaf {tree : Json} (leaf : tree.IsLeaf) (step : Step) :
    tree.child? step = none := by
  cases tree with
  | null | bool | num | str => rfl
  | arr | obj => exact leaf.elim

private theorem inside_of_isLeaf {tree : Json} (leaf : tree.IsLeaf) (place : Place) (step : Step) :
    place.inside tree step = ⟨none, place.role.item⟩ := by
  cases tree with
  | null | bool | num | str => rfl
  | arr | obj => exact leaf.elim

section Rewriting

variable {change : Site → Json → Json} (leafwise : Leafwise change)

include leafwise

theorem isLeaf_placeRewrite (place : Place) {tree : Json} (leaf : tree.IsLeaf) :
    (place.rewrite change tree).IsLeaf := by
  simp only [Place.rewrite, rewrite_of_isLeaf change place.role leaf]
  cases place.site? with
  | none => exact leaf
  | some site => exact leafwise.leaf site tree leaf

theorem placeRewrite_of_not_isLeaf (place : Place) {tree : Json} (inner : ¬tree.IsLeaf) :
    place.rewrite change tree = tree.rewrite change place.role := by
  simp only [Place.rewrite]
  cases place.site? with
  | none => rfl
  | some site =>
      exact leafwise.inner site _ (mt (isLeaf_rewrite_iff change place.role tree).mp inner)

private theorem child?_placeRewrite (place : Place) (tree : Json) (step : Step) :
    (place.rewrite change tree).child? step =
      (tree.child? step).map ((place.inside tree step).rewrite change) := by
  by_cases leaf : tree.IsLeaf
  · rw [child?_of_isLeaf leaf, child?_of_isLeaf (isLeaf_placeRewrite leafwise place leaf),
      Option.map_none]
  · rw [placeRewrite_of_not_isLeaf leafwise place leaf]
    cases tree with
    | null | bool | num | str => exact absurd trivial leaf
    | arr items =>
        cases step with
        | field key => rfl
        | item index =>
            simp only [rewrite, child?, rewriteItems_eq_map, List.getElem?_map]
            rfl
    | obj fields =>
        cases step with
        | item index => rfl
        | field key =>
            simp only [rewrite, child?, lookup_rewriteFields]
            rfl

private theorem inside_placeRewrite (place : Place) (tree : Json) (step : Step) :
    (place.mapTarget (targetAfter change)).inside (place.rewrite change tree) step =
      (place.inside tree step).mapTarget (targetAfter change) := by
  have itemPlace : (⟨none, (place.role.mapTarget (targetAfter change)).item⟩ : Place) =
      (⟨none, place.role.item⟩ : Place).mapTarget (targetAfter change) := by
    rw [Role.item_mapTarget]
    rfl
  by_cases leaf : tree.IsLeaf
  · rw [inside_of_isLeaf leaf, inside_of_isLeaf (isLeaf_placeRewrite leafwise place leaf)]
    exact itemPlace
  · rw [placeRewrite_of_not_isLeaf leafwise place leaf]
    cases tree with
    | null | bool | num | str => exact absurd trivial leaf
    | arr items => exact itemPlace
    | obj fields =>
        cases step with
        | item index => exact itemPlace
        | field key =>
            simp only [Place.inside, Place.mapTarget, rewrite, shape_rewriteFields,
              Shape.site?_mapTarget, Shape.role_mapTarget]

theorem at?_placeRewrite (place : Place) (tree : Json) (path : List Step) :
    (place.rewrite change tree).at? path =
      (tree.at? path).map ((tree.placeAt place path).rewrite change) := by
  induction path generalizing place tree with
  | nil => rfl
  | cons step path induction =>
      have child := child?_placeRewrite leafwise place tree step
      cases found : tree.child? step with
      | none =>
          rw [found, Option.map_none] at child
          rw [at?_cons_of_child?_eq_none child, at?_cons_of_child?_eq_none found, Option.map_none]
      | some inner =>
          rw [found, Option.map_some] at child
          rw [at?_cons child, at?_cons found, placeAt_cons found]
          exact induction (place.inside tree step) inner

private theorem placeAt_placeRewrite (place : Place) (tree : Json) (path : List Step) :
    (place.rewrite change tree).placeAt (place.mapTarget (targetAfter change)) path =
      (tree.placeAt place path).mapTarget (targetAfter change) := by
  induction path generalizing place tree with
  | nil => rfl
  | cons step path induction =>
      have child := child?_placeRewrite leafwise place tree step
      cases found : tree.child? step with
      | none =>
          rw [found, Option.map_none] at child
          rw [placeAt_cons_of_child?_eq_none child, placeAt_cons_of_child?_eq_none found]
          rfl
      | some inner =>
          rw [found, Option.map_some] at child
          rw [placeAt_cons child, placeAt_cons found, inside_placeRewrite leafwise]
          exact induction (place.inside tree step) inner

theorem at?_rewrite_of_siteAt? (tree : Json) {path : List Step} {site : Site}
    (reference : tree.siteAt? path = some site) :
    (tree.rewrite change .value).at? path =
      (tree.at? path).map fun value =>
        change site (value.rewrite change (tree.placeAt {} path).role) := by
  have here : (tree.placeAt {} path).rewrite change =
      fun value => change site (value.rewrite change (tree.placeAt {} path).role) := by
    funext value
    change Site.changed change (tree.siteAt? path) _ = _
    rw [reference]
    rfl
  rw [← here]
  exact at?_placeRewrite leafwise {} tree path

theorem siteAt?_rewrite (tree : Json) (path : List Step) :
    (tree.rewrite change .value).siteAt? path =
      (tree.siteAt? path).map (Site.mapTarget (targetAfter change)) :=
  congrArg Place.site? (placeAt_placeRewrite leafwise {} tree path)

end Rewriting

end Json

theorem NameKind.key_of_ofKey?_eq_some {key : String} {kind : NameKind}
    (found : NameKind.ofKey? key = some kind) : kind.key = key := by
  have matched := List.find?_some found
  exact of_decide_eq_true matched

/-- The bindings that a value makes up by standing in an argument list. -/
def Role.bindings (role : Role) (value : Json) : List Reference :=
  match role with
  | .value => []
  | .arguments target => Json.bindings target (some value)
  | .argument target => Json.bindings target (some (.arr [value]))

/-- All references that a value in this place holds, the value itself included. -/
def Place.references (place : Place) (value : Json) : List Reference :=
  (place.site?.map (⟨·, value⟩)).toList ++
    (place.role.bindings value ++ value.references place.role)

namespace Json

private theorem mem_itemReferences {role : Role} {items : List Json} {item : Json}
    (member : item ∈ items) {reference : Reference} (inside : reference ∈ item.references role) :
    reference ∈ itemReferences role items := by
  induction items with
  | nil => cases member
  | cons head rest induction =>
      rcases List.mem_cons.mp member with rfl | later
      · exact List.mem_append_left _ inside
      · exact List.mem_append_right _ (induction later)

private theorem mem_fieldReferences {shape : Shape} {fields : Fields} {key : String} {value : Json}
    (member : (key, value) ∈ fields) {reference : Reference}
    (inside : reference ∈ value.references (shape.role key)) :
    reference ∈ fieldReferences shape fields := by
  induction fields with
  | nil => cases member
  | cons head rest induction =>
      rcases List.mem_cons.mp member with rfl | later
      · exact List.mem_append_left _ inside
      · exact List.mem_append_right _ (induction later)

private theorem mem_bindings_of_mem {role : Role} {items : List Json} {item : Json}
    (member : item ∈ items) {reference : Reference} (bound : reference ∈ role.item.bindings item) :
    reference ∈ role.bindings (.arr items) := by
  cases role with
  | value | argument => cases bound
  | arguments target =>
      obtain ⟨argument, listed, held⟩ := List.mem_filterMap.mp bound
      obtain rfl := List.mem_singleton.mp listed
      exact List.mem_filterMap.mpr ⟨argument, member, held⟩

/-- A field at a reference is one of the references of its object, or the object is a binding and
the field what it binds. -/
private theorem mem_own_of_site? {role : Role} {fields : Fields} {key : String} {value : Json}
    (held : fields.lookup key = some value) {site : Site}
    (found : (role.shape fields).site? key = some site) :
    ⟨site, value⟩ ∈ role.bindings (.obj fields) ++ (role.shape fields).references fields := by
  have unbound : (Shape.ofFields fields).site? key = some site →
      ⟨site, value⟩ ∈ (Shape.ofFields fields).references fields := by
    intro found
    simp only [Shape.ofFields] at found ⊢
    split at found
    next call =>
      simp only [Shape.site?] at found
      split at found
      next same =>
        obtain rfl := Option.some.inj found
        rw [if_pos call]
        apply List.mem_append_right
        rw [← same, held]
        exact List.mem_singleton_self _
      next => cases found
    next call =>
      obtain ⟨kind, known, rfl⟩ := Option.map_eq_some_iff.mp found
      rw [if_neg call]
      apply List.mem_filterMap.mpr
      refine ⟨kind, List.mem_of_find?_eq_some known, ?_⟩
      rw [NameKind.key_of_ofKey?_eq_some known, held, Option.map_some]
  cases role with
  | value | arguments => exact List.mem_append_right _ (unbound found)
  | argument target =>
      apply List.mem_append_left
      simp only [Role.shape, Shape.site?] at found
      split at found
      next same =>
        obtain rfl := Option.some.inj found
        apply List.mem_filterMap.mpr
        refine ⟨.obj fields, List.mem_singleton_self _, ?_⟩
        rw [← same, fields?, Option.bind_some, held, Option.map_some]
      next => cases found

private theorem mem_own_of_bindings {shape : Shape} {fields : Fields} {key : String} {value : Json}
    (held : fields.lookup key = some value) {reference : Reference}
    (bound : reference ∈ (shape.role key).bindings value) :
    reference ∈ shape.references fields := by
  cases shape with
  | block | binding => cases bound
  | call target =>
      simp only [Shape.role] at bound
      split at bound
      next same =>
        apply List.mem_append_left
        rw [← same, held]
        exact bound
      next => cases bound

private theorem mem_references_of_child? {place : Place} {tree inner : Json} {step : Step}
    (child : tree.child? step = some inner) {reference : Reference}
    (member : reference ∈ (place.inside tree step).references inner) :
    reference ∈ place.references tree := by
  apply List.mem_append_right
  cases tree with
  | null | bool | num | str => cases child
  | arr items =>
      cases step with
      | field key => cases child
      | item index =>
          have listed : inner ∈ items := List.mem_of_getElem? child
          rcases List.mem_append.mp member with own | member
          · cases own
          rcases List.mem_append.mp member with bound | inside
          · exact List.mem_append_left _ (mem_bindings_of_mem listed bound)
          · exact List.mem_append_right _ (mem_itemReferences listed inside)
  | obj fields =>
      cases step with
      | item index => cases child
      | field key =>
          have held : fields.lookup key = some inner := child
          simp only [references]
          rw [← List.append_assoc]
          rcases List.mem_append.mp member with own | member
          · apply List.mem_append_left
            obtain ⟨site, found, rfl⟩ := Option.map_eq_some_iff.mp (Option.mem_toList.mp own)
            exact mem_own_of_site? held found
          rcases List.mem_append.mp member with bound | inside
          · exact List.mem_append_left _
              (List.mem_append_right _ (mem_own_of_bindings held bound))
          · exact List.mem_append_right _
              (mem_fieldReferences (Fields.mem_of_lookup_eq_some held) inside)

theorem mem_references_of_placeAt {place : Place} {tree value : Json} {path : List Step}
    {site : Site} (reference : (tree.placeAt place path).site? = some site)
    (found : tree.at? path = some value) : ⟨site, value⟩ ∈ place.references tree := by
  induction path generalizing place tree with
  | nil =>
      obtain rfl := Option.some.inj found
      apply List.mem_append_left
      rw [show place.site? = some site from reference]
      exact List.mem_singleton_self _
  | cons step path induction =>
      cases child : tree.child? step with
      | none =>
          rw [at?_cons_of_child?_eq_none child] at found
          cases found
      | some inner =>
          rw [placeAt_cons child] at reference
          rw [at?_cons child] at found
          exact mem_references_of_child? child (induction reference found)

theorem exists_at?_of_placeAt {place : Place} {tree : Json} {path : List Step} {site : Site}
    (reference : (tree.placeAt place path).site? = some site) :
    ∃ value, tree.at? path = some value := by
  induction path generalizing place tree with
  | nil => exact ⟨tree, rfl⟩
  | cons step path induction =>
      cases child : tree.child? step with
      | none =>
          rw [placeAt_cons_of_child?_eq_none child] at reference
          cases reference
      | some inner =>
          rw [placeAt_cons child] at reference
          rw [at?_cons child]
          exact induction reference

theorem mem_references_of_siteAt? {tree value : Json} {path : List Step} {site : Site}
    (reference : tree.siteAt? path = some site) (found : tree.at? path = some value) :
    ⟨site, value⟩ ∈ tree.references .value :=
  mem_references_of_placeAt reference found

theorem Fields.counted_eq_or_eq_replace (script : Fields) :
    script.counted = script ∨
      ∃ count : Nat, script.counted = script.replace Key.arguments (Json.index count) := by
  simp only [Fields.counted, Fields.countArguments]
  split
  · split
    next declarations _ => exact .inr ⟨declarations.length, rfl⟩
    next => exact .inl rfl
  · exact .inl rfl

theorem site?_inside_arguments (place : Place) (tree : Json) :
    (place.inside tree (.field Key.arguments)).site? = none := by
  cases tree with
  | null | bool | num | str | arr => rfl
  | obj fields => exact Shape.site?_arguments _

private theorem child?_countedItem (item : Json) (step : Step) :
    (item.countedItem.child? step = item.child? step ∧
      ({} : Place).inside item.countedItem step = ({} : Place).inside item step) ∨
    (step = .field Key.arguments ∧
      ∃ count, item.countedItem.child? step = some (Json.index count)) := by
  cases item with
  | null | bool | num | str | arr => exact .inl ⟨rfl, rfl⟩
  | obj script =>
      cases step with
      | item index => exact .inl ⟨rfl, rfl⟩
      | field key =>
          have inside : ({} : Place).inside (Json.obj script).countedItem (.field key) =
              ({} : Place).inside (.obj script) (.field key) := by
            simp only [countedItem, Place.inside, Role.shape, Shape.ofFields_counted]
          by_cases arguments : key = Key.arguments
          · rcases Fields.counted_eq_or_eq_replace script with same | ⟨count, counted⟩
            · exact .inl ⟨congrArg (List.lookup key) same, inside⟩
            have child : (Json.obj script).countedItem.child? (.field key) =
                (script.lookup key).map fun _ => Json.index count := by
              simp only [countedItem, child?, counted, arguments, Fields.lookup_replace_self]
            cases held : script.lookup key with
            | none =>
                rw [held] at child
                exact .inl ⟨child.trans held.symm, inside⟩
            | some value =>
                rw [held] at child
                exact .inr ⟨congrArg Step.field arguments, count, child⟩
          · exact .inl ⟨Fields.lookup_counted_of_ne script arguments, inside⟩

theorem siteAt?_countedItem {item : Json} {path : List Step} {site : Site}
    (reference : item.countedItem.siteAt? path = some site) :
    item.siteAt? path = some site ∧ item.countedItem.at? path = item.at? path := by
  cases path with
  | nil => cases reference
  | cons step path =>
      rcases item.child?_countedItem step with ⟨child, inside⟩ | ⟨rfl, count, child⟩
      · obtain ⟨place, value⟩ := placeAt_cons_congr child inside path
        exact ⟨(congrArg Place.site? place).symm.trans reference, value⟩
      · rw [siteAt?, placeAt_cons child] at reference
        cases path with
        | nil => cases (site?_inside_arguments _ _).symm.trans reference
        | cons inner path => cases reference

/-- A reference of an item stays one unless it is counted away. -/
theorem siteAt?_countedItem_of_at? {item value : Json} {path : List Step} {site : Site}
    (reference : item.siteAt? path = some site)
    (kept : item.countedItem.at? path = some value) :
    item.countedItem.siteAt? path = some site := by
  cases path with
  | nil => cases reference
  | cons step path =>
      rcases item.child?_countedItem step with ⟨child, inside⟩ | ⟨rfl, count, child⟩
      · obtain ⟨place, -⟩ := placeAt_cons_congr child inside path
        exact (congrArg Place.site? place).trans reference
      · rw [at?_cons child] at kept
        cases path with
        | nil =>
            obtain ⟨old, held⟩ := exists_at?_of_placeAt reference
            rw [at?_singleton] at held
            rw [siteAt?, placeAt_cons held] at reference
            cases (site?_inside_arguments _ _).symm.trans reference
        | cons inner path => cases kept

theorem isLeaf_at?_countedItem {item value counted : Json} {path : List Step}
    (held : item.at? path = some value) (leaf : value.IsLeaf)
    (found : item.countedItem.at? path = some counted) : counted.IsLeaf := by
  cases path with
  | nil =>
      obtain rfl := Option.some.inj held
      obtain rfl := Option.some.inj found
      cases item with
      | null | bool | num | str => trivial
      | arr | obj => exact leaf.elim
  | cons step path =>
      rcases item.child?_countedItem step with ⟨child, inside⟩ | ⟨-, count, child⟩
      · obtain ⟨-, same⟩ := placeAt_cons_congr child inside path
        rw [same, held] at found
        exact Option.some.inj found ▸ leaf
      · rw [at?_cons child] at found
        cases path with
        | nil => exact Option.some.inj found ▸ trivial
        | cons inner path => cases found

theorem siteAt?_arr_item {items : List Json} {index : Nat} {item : Json}
    (listed : items[index]? = some item) (path : List Step) :
    (Json.arr items).siteAt? (.item index :: path) = item.siteAt? path := by
  have child : (Json.arr items).child? (.item index) = some item := listed
  rw [siteAt?, placeAt_cons child]
  rfl

theorem siteAt?_arr_eq_some_iff {items : List Json} {path : List Step} {site : Site} :
    (Json.arr items).siteAt? path = some site ↔
      ∃ index item rest, path = .item index :: rest ∧ items[index]? = some item ∧
        item.siteAt? rest = some site := by
  constructor
  · intro reference
    cases path with
    | nil => cases reference
    | cons step rest =>
        cases child : (Json.arr items).child? step with
        | none =>
            rw [siteAt?, placeAt_cons_of_child?_eq_none child] at reference
            cases reference
        | some item =>
            rw [siteAt?, placeAt_cons child] at reference
            cases step with
            | field key => cases child
            | item index => exact ⟨index, item, rest, rfl, child, reference⟩
  · rintro ⟨index, item, rest, rfl, listed, reference⟩
    exact (siteAt?_arr_item listed rest).trans reference

theorem at?_arr_item {items : List Json} {index : Nat} {item : Json}
    (listed : items[index]? = some item) (path : List Step) :
    (Json.arr items).at? (.item index :: path) = item.at? path := by
  have child : (Json.arr items).child? (.item index) = some item := listed
  exact at?_cons child path

end Json

/-- The names that are known where an item of a list of scripts stands. -/
def SymbolTable.viewOfItem (table : SymbolTable) : Json → ScopeView
  | .obj script => table.viewOf script
  | _ => ⟨table, ∅, none⟩

theorem SymbolTable.resolveScoped_eq_resolve (table : SymbolTable) (item : Json) :
    table.resolveScoped item = (table.viewOfItem item).resolve item.countedItem := by
  cases item with
  | null | bool | num | str | arr => rfl
  | obj script => exact table.resolveScoped_obj script

theorem SymbolTable.value_resolveScoped (table : SymbolTable) (item : Json) :
    (table.resolveScoped item).value =
      item.countedItem.rewrite (table.viewOfItem item).change .value := by
  rw [resolveScoped_eq_resolve, ScopeView.resolve_eq]

end BlockNames
