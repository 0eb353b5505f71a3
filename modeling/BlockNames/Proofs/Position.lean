import BlockNames.Proofs.Rewriting

/-!
Positions of references. The path to a value names it in a tree and in every rewriting of the tree.
A tree has its positions in the order in which its references are listed, and none of them twice.
-/
namespace BlockNames

inductive Json.Step
  | field (key : String)
  | item (index : Nat)
deriving DecidableEq

namespace Json

def child? : Json → Step → Option Json
  | .obj fields, .field key => fields.lookup key
  | .arr items, .item index => items[index]?
  | _, _ => none

def at? : Json → List Step → Option Json
  | tree, [] => some tree
  | tree, step :: path => (tree.child? step).bind fun inner => inner.at? path

end Json

/-- Where a value may hold a name. -/
structure Position where
  path : List Json.Step
  site : Site

namespace Position

def under (step : Json.Step) (position : Position) : Position :=
  { position with path := step :: position.path }

def reference? (tree : Json) (position : Position) : Option Reference :=
  (tree.at? position.path).map (Reference.mk position.site)

def binding (target : Option Json) (index : Nat) : Position :=
  ⟨[.field Key.arguments, .item index, .field NameKind.variable.key], .binding target⟩

end Position

/-- The positions that an object is asked for before its values are searched: those of a block, or
the bindings of a call and its target. -/
def Shape.positions (shape : Shape) (fields : Json.Fields) : List Position :=
  match shape with
  | .block => NameKind.all.map fun kind => ⟨[.field kind.key], .name kind⟩
  | .call target =>
      let arguments := ((fields.lookup Key.arguments).bind Json.items?).getD []
      (List.range arguments.length).map (Position.binding target) ++
        [⟨[.field NameKind.function.key], .name .function⟩]
  | .binding _ => []

mutual
def Json.positions (role : Role) : Json → List Position
  | .arr items => Json.itemPositions role.item 0 items
  | .obj fields =>
      (role.shape fields).positions fields ++ Json.fieldPositions (role.shape fields) fields
  | .null | .bool _ | .num _ | .str _ => []

/-- The positions of items that are numbered from `index` on. -/
def Json.itemPositions (role : Role) : Nat → List Json → List Position
  | _, [] => []
  | index, item :: rest =>
      (Json.positions role item).map (·.under (.item index)) ++
        Json.itemPositions role (index + 1) rest

def Json.fieldPositions (shape : Shape) : List (String × Json) → List Position
  | [] => []
  | (key, value) :: rest =>
      (Json.positions (shape.role key) value).map (·.under (.field key)) ++
        Json.fieldPositions shape rest
end

namespace Json

theorem at?_under {tree inner : Json} {step : Step} (child : tree.child? step = some inner)
    (position : Position) : tree.at? (position.under step).path = inner.at? position.path := by
  change (tree.child? step).bind _ = _
  rw [child, Option.bind_some]

private theorem reference?_under {tree inner : Json} {step : Step}
    (child : tree.child? step = some inner) (position : Position) :
    (position.under step).reference? tree = position.reference? inner := by
  unfold Position.reference?
  rw [at?_under child]
  rfl

private theorem positions_of_isLeaf (role : Role) {value : Json} (leaf : value.IsLeaf) :
    value.positions role = [] := by
  cases value with
  | null | bool | num | str => rfl
  | arr | obj => exact leaf.elim

theorem at?_singleton (tree : Json) (step : Step) : tree.at? [step] = tree.child? step :=
  Option.bind_fun_some _

private theorem child?_field (tree : Json) (key : String) :
    tree.child? (.field key) = tree.fields?.bind (·.lookup key) := by
  cases tree <;> rfl

theorem child?_item (tree : Json) (index : Nat) :
    tree.child? (.item index) = tree.items?.bind (·[index]?) := by
  cases tree <;> rfl

private theorem filterMap_range {α : Type} (items : List Json) (read : Json → Option α) :
    (List.range items.length).filterMap (fun index => items[index]?.bind read) =
      items.filterMap read := by
  induction items with
  | nil => rfl
  | cons item rest induction =>
      rw [List.length_cons, List.range_succ_eq_map, List.filterMap_cons, List.filterMap_map,
        List.filterMap_cons, ← induction]
      rfl

private theorem bindings_eq (target : Option Json) (fields : Fields) :
    bindings target (fields.lookup Key.arguments) =
      ((List.range (((fields.lookup Key.arguments).bind items?).getD []).length).map
        (Position.binding target)).filterMap (·.reference? (.obj fields)) := by
  unfold bindings
  rw [List.filterMap_map, ← filterMap_range]
  apply List.filterMap_congr
  intro index _
  simp only [Function.comp_apply, Position.reference?, Position.binding, at?, child?_field,
    child?_item, fields?, Option.bind_some, Option.bind_fun_some]
  cases fields.lookup Key.arguments with
  | none => rfl
  | some value =>
      simp only [Option.bind_some]
      cases value.items? with
      | none => rfl
      | some items =>
          simp only [Option.bind_some, Option.getD_some]
          cases items[index]? <;> rfl

private theorem ownReferences_eq (shape : Shape) (fields : Fields) :
    shape.references fields =
      (shape.positions fields).filterMap (·.reference? (.obj fields)) := by
  cases shape with
  | binding target => rfl
  | block =>
      simp only [Shape.references, Shape.positions, List.filterMap_map]
      apply List.filterMap_congr
      intro kind _
      simp only [Function.comp_apply, Position.reference?, at?_singleton, child?]
  | call target =>
      simp only [Shape.references, Shape.positions, List.filterMap_append]
      rw [bindings_eq target fields]
      apply congrArg (List.append _)
      simp only [List.filterMap_cons, List.filterMap_nil, Position.reference?, at?_singleton,
        child?]
      cases fields.lookup NameKind.function.key <;> rfl

mutual
theorem references_eq (role : Role) (tree : Json)
    (distinct : tree.DistinctKeys) :
    tree.references role = (tree.positions role).filterMap (·.reference? tree) := by
  cases tree with
  | null | bool | num | str => rfl
  | arr items =>
      apply itemReferences_eq role.item (.arr items) 0 items distinct
      intro offset
      rw [Nat.zero_add, child?]
  | obj fields =>
      simp only [references, positions, List.filterMap_append]
      rw [ownReferences_eq]
      apply congrArg (List.append _)
      apply fieldReferences_eq _ (.obj fields) fields distinct.2
      intro key value member
      exact Fields.lookup_eq_some_of_mem distinct.1 member

private theorem itemReferences_eq (role : Role) (tree : Json) (index : Nat)
    (items : List Json) (distinct : DistinctItemKeys items)
    (children : ∀ offset, tree.child? (.item (index + offset)) = items[offset]?) :
    itemReferences role items =
      (itemPositions role index items).filterMap (·.reference? tree) := by
  cases items with
  | nil => rfl
  | cons item rest =>
      have here : tree.child? (.item index) = some item := children 0
      have later : ∀ offset, tree.child? (.item (index + 1 + offset)) = rest[offset]? := by
        intro offset
        rw [Nat.add_assoc, Nat.add_comm 1, children]
        rfl
      simp only [itemReferences, itemPositions, List.filterMap_append, List.filterMap_map]
      rw [references_eq role item distinct.1,
        itemReferences_eq role tree (index + 1) rest distinct.2 later]
      apply congrArg (List.append · _)
      apply List.filterMap_congr
      intro position _
      exact (reference?_under here position).symm

private theorem fieldReferences_eq (shape : Shape) (tree : Json)
    (fields : List (String × Json)) (distinct : DistinctFieldKeys fields)
    (children : ∀ key value, (key, value) ∈ fields → tree.child? (.field key) = some value) :
    fieldReferences shape fields =
      (fieldPositions shape fields).filterMap (·.reference? tree) := by
  match fields with
  | [] => rfl
  | (key, value) :: rest =>
      have here := children key value List.mem_cons_self
      have later := fun key value member => children key value (List.mem_cons_of_mem _ member)
      simp only [fieldReferences, fieldPositions, List.filterMap_append, List.filterMap_map]
      rw [references_eq (shape.role key) value distinct.1,
        fieldReferences_eq shape tree rest distinct.2 later]
      apply congrArg (List.append · _)
      apply List.filterMap_congr
      intro position _
      exact (reference?_under here position).symm
end

private theorem at?_own_rewrite (change : Site → Json → Json) (shape : Shape)
    (fields : Fields) {position : Position} (member : position ∈ shape.positions fields) :
    (Json.obj (rewriteFields change shape fields)).at? position.path =
      (position.reference? (.obj fields)).map fun reference => (reference.after change).value := by
  cases shape with
  | binding target => cases member
  | block =>
      obtain ⟨kind, -, rfl⟩ := List.mem_map.mp member
      have site : Shape.block.site? kind.key = some (.name kind) := by cases kind <;> rfl
      simp only [Position.reference?, at?_singleton, child?, lookup_rewriteFields, site,
        Option.map_map]
      rfl
  | call target =>
      rcases List.mem_append.mp member with binding | function
      · obtain ⟨index, -, rfl⟩ := List.mem_map.mp binding
        simp only [Position.reference?, Position.binding, at?, child?_field, child?_item, fields?,
          Option.bind_some, Option.bind_fun_some, lookup_rewriteFields, Shape.site?_arguments]
        cases fields.lookup Key.arguments with
        | none => rfl
        | some value =>
            cases value with
            | null | bool | num | str | obj => rfl
            | arr items =>
                simp only [Option.map_some, Option.bind_some, Site.changed, rewrite, items?,
                  rewriteItems_eq_map, List.getElem?_map]
                cases items[index]? with
                | none => rfl
                | some item =>
                    cases item with
                    | null | bool | num | str | arr => rfl
                    | obj binding =>
                        simp only [Option.map_some, Option.bind_some, rewrite,
                          lookup_rewriteFields, Option.map_map]
                        rfl
      · obtain rfl := List.mem_singleton.mp function
        simp only [Position.reference?, at?_singleton, child?, lookup_rewriteFields,
          Option.map_map]
        rfl

private theorem changed_of_mem_positions {change : Site → Json → Json}
    (leafwise : Leafwise change) {role : Role} {value : Json}
    {position : Position} (member : position ∈ value.positions role) (site? : Option Site) :
    Site.changed change site? (value.rewrite change role) = value.rewrite change role := by
  cases site? with
  | none => rfl
  | some site =>
      apply leafwise.inner
      rw [isLeaf_rewrite_iff]
      intro leaf
      rw [positions_of_isLeaf role leaf] at member
      cases member

mutual
theorem at?_rewrite {change : Site → Json → Json} (leafwise : Leafwise change)
    (role : Role) (tree : Json) (distinct : tree.DistinctKeys)
    (position : Position) (member : position ∈ tree.positions role) :
    (tree.rewrite change role).at? position.path =
      (position.reference? tree).map fun reference => (reference.after change).value := by
  cases tree with
  | null | bool | num | str => cases member
  | arr items =>
      apply at?_rewriteItems leafwise role.item 0 items distinct _ _ _ _ position member
      · intro offset
        rw [Nat.zero_add, child?]
      · intro offset
        rw [Nat.zero_add, rewrite, child?]
  | obj fields =>
      rcases List.mem_append.mp member with own | inside
      · exact at?_own_rewrite change _ fields own
      · apply at?_rewriteFields leafwise (role.shape fields) fields distinct.2 _ _ _ _
          position inside
        · intro key value fieldMember
          exact Fields.lookup_eq_some_of_mem distinct.1 fieldMember
        · intro key value fieldMember
          rw [rewrite, child?, lookup_rewriteFields,
            Fields.lookup_eq_some_of_mem distinct.1 fieldMember]
          rfl

private theorem at?_rewriteItems {change : Site → Json → Json} (leafwise : Leafwise change)
    (role : Role) (index : Nat) (items : List Json)
    (distinct : DistinctItemKeys items) (before after : Json)
    (children : ∀ offset, before.child? (.item (index + offset)) = items[offset]?)
    (changed : ∀ offset, after.child? (.item (index + offset)) =
      (rewriteItems change role items)[offset]?)
    (position : Position) (member : position ∈ itemPositions role index items) :
    after.at? position.path =
      (position.reference? before).map fun reference => (reference.after change).value := by
  cases items with
  | nil => cases member
  | cons item rest =>
      rcases List.mem_append.mp member with here | later
      · obtain ⟨inner, innerMember, rfl⟩ := List.mem_map.mp here
        have child : before.child? (.item index) = some item := children 0
        have changedChild : after.child? (.item index) = some (item.rewrite change role) :=
          changed 0
        rw [at?_under changedChild, reference?_under child]
        exact at?_rewrite leafwise role item distinct.1 inner innerMember
      · have next : ∀ offset, index + 1 + offset = index + (offset + 1) := by omega
        apply at?_rewriteItems leafwise role (index + 1) rest distinct.2 before after _ _
          position later
        · intro offset
          rw [next, children]
          rfl
        · intro offset
          rw [next, changed]
          rfl

private theorem at?_rewriteFields {change : Site → Json → Json} (leafwise : Leafwise change)
    (shape : Shape) (fields : List (String × Json))
    (distinct : DistinctFieldKeys fields) (before after : Json)
    (children : ∀ key value, (key, value) ∈ fields → before.child? (.field key) = some value)
    (changed : ∀ key value, (key, value) ∈ fields → after.child? (.field key) =
      some (Site.changed change (shape.site? key) (value.rewrite change (shape.role key))))
    (position : Position) (member : position ∈ fieldPositions shape fields) :
    after.at? position.path =
      (position.reference? before).map fun reference => (reference.after change).value := by
  match fields with
  | [] => cases member
  | (key, value) :: rest =>
      rcases List.mem_append.mp member with here | later
      · obtain ⟨inner, innerMember, rfl⟩ := List.mem_map.mp here
        have child := children key value List.mem_cons_self
        have changedChild := changed key value List.mem_cons_self
        rw [changed_of_mem_positions leafwise innerMember] at changedChild
        rw [at?_under changedChild, reference?_under child]
        exact at?_rewrite leafwise (shape.role key) value distinct.1 inner innerMember
      · apply at?_rewriteFields leafwise shape rest distinct.2 before after _ _ position
          later
        · intro key value fieldMember
          exact children key value (List.mem_cons_of_mem _ fieldMember)
        · intro key value fieldMember
          exact changed key value (List.mem_cons_of_mem _ fieldMember)
end

theorem fieldPositions_replace (shape : Shape) (fields : Fields) (key : String) {value : Json}
    (leaf : value.IsLeaf) :
    fieldPositions shape (fields.replace key value) =
      (fieldPositions shape fields).filter fun position =>
        !(position.path.head? = some (.field key)) := by
  induction fields with
  | nil => rfl
  | cons field rest induction =>
      obtain ⟨stored, old⟩ := field
      rw [Fields.replace_cons, fieldPositions, fieldPositions, List.filter_append, induction]
      apply congrArg (List.append · _)
      by_cases same : stored = key
      · subst same
        rw [if_pos rfl, positions_of_isLeaf _ leaf, List.map_nil, eq_comm, List.filter_eq_nil_iff]
        intro position member
        obtain ⟨inner, -, rfl⟩ := List.mem_map.mp member
        simp [Position.under]
      · rw [if_neg same, eq_comm, List.filter_eq_self]
        intro position member
        obtain ⟨inner, -, rfl⟩ := List.mem_map.mp member
        simp [Position.under, same]

theorem at?_replace_of_head?_ne {fields : Fields} {key : String} (value : Json)
    {path : List Step} (nonempty : path ≠ []) (elsewhere : path.head? ≠ some (.field key)) :
    (Json.obj (fields.replace key value)).at? path = (Json.obj fields).at? path := by
  cases path with
  | nil => exact absurd rfl nonempty
  | cons step rest =>
      cases step with
      | item index => rfl
      | field probe =>
          have different : probe ≠ key := by
            intro same
            rw [same] at elsewhere
            exact elsewhere rfl
          simp only [at?, child?, Fields.lookup_replace_of_ne fields value different]

/-! No position is listed twice. The bindings of a call are asked for with their call, so they are
not met again inside its argument list. -/

theorem mem_itemPositions {role : Role} {index : Nat} {items : List Json}
    {position : Position} (member : position ∈ itemPositions role index items) :
    ∃ offset item inner, item ∈ items ∧ inner ∈ item.positions role ∧
      position = inner.under (.item (index + offset)) := by
  induction items generalizing index with
  | nil => cases member
  | cons item rest induction =>
      rcases List.mem_append.mp member with here | later
      · obtain ⟨inner, innerMember, rfl⟩ := List.mem_map.mp here
        exact ⟨0, item, inner, List.mem_cons_self, innerMember, rfl⟩
      · obtain ⟨offset, other, inner, otherMember, innerMember, rfl⟩ := induction later
        refine ⟨1 + offset, other, inner, List.mem_cons_of_mem _ otherMember, innerMember, ?_⟩
        rw [Nat.add_assoc]

private theorem mem_fieldPositions {shape : Shape} {fields : Fields}
    {position : Position} (member : position ∈ fieldPositions shape fields) :
    ∃ key value inner, (key, value) ∈ fields ∧ inner ∈ value.positions (shape.role key) ∧
      position = inner.under (.field key) := by
  induction fields with
  | nil => cases member
  | cons field rest induction =>
      obtain ⟨key, value⟩ := field
      rcases List.mem_append.mp member with here | later
      · obtain ⟨inner, innerMember, rfl⟩ := List.mem_map.mp here
        exact ⟨key, value, inner, List.mem_cons_self, innerMember, rfl⟩
      · obtain ⟨other, held, inner, fieldMember, innerMember, rfl⟩ := induction later
        exact ⟨other, held, inner, List.mem_cons_of_mem _ fieldMember, innerMember, rfl⟩

private theorem path_of_mem_own {shape : Shape} {fields : Fields}
    {position : Position} (member : position ∈ shape.positions fields) :
    ∃ key path, position.path = .field key :: path := by
  cases shape with
  | binding target => cases member
  | block =>
      obtain ⟨kind, -, rfl⟩ := List.mem_map.mp member
      exact ⟨_, _, rfl⟩
  | call target =>
      rcases List.mem_append.mp member with binding | function
      · obtain ⟨index, -, rfl⟩ := List.mem_map.mp binding
        exact ⟨_, _, rfl⟩
      · obtain rfl := List.mem_singleton.mp function
        exact ⟨_, _, rfl⟩

private theorem path_of_mem_obj {role : Role} {fields : Fields}
    {position : Position} (member : position ∈ (Json.obj fields).positions role) :
    ∃ key path, position.path = .field key :: path := by
  rcases List.mem_append.mp member with own | inside
  · exact path_of_mem_own own
  · obtain ⟨key, value, inner, -, -, rfl⟩ := mem_fieldPositions inside
    exact ⟨key, inner.path, rfl⟩

private theorem path_of_mem_arr {role : Role} {items : List Json}
    {position : Position} (member : position ∈ (Json.arr items).positions role) :
    ∃ index path, position.path = .item index :: path := by
  obtain ⟨offset, item, inner, -, -, rfl⟩ := mem_itemPositions member
  exact ⟨0 + offset, inner.path, rfl⟩

theorem path_ne_nil {role : Role} {tree : Json} {position : Position}
    (member : position ∈ tree.positions role) : position.path ≠ [] := by
  cases tree with
  | null | bool | num | str => cases member
  | arr items =>
      obtain ⟨index, path, equation⟩ := path_of_mem_arr member
      rw [equation]
      exact List.cons_ne_nil _ _
  | obj fields =>
      obtain ⟨key, path, equation⟩ := path_of_mem_obj member
      rw [equation]
      exact List.cons_ne_nil _ _

private theorem path_ne_of_argument {target : Option Json} {argument : Json}
    {position : Position} (member : position ∈ argument.positions (.argument target))
    (key : String) : position.path ≠ [.field key] := by
  intro path
  cases argument with
  | null | bool | num | str => cases member
  | arr items =>
      obtain ⟨index, rest, equation⟩ := path_of_mem_arr member
      rw [path] at equation
      cases equation
  | obj binding =>
      obtain ⟨other, value, inner, -, innerMember, rfl⟩ := mem_fieldPositions member
      exact path_ne_nil innerMember (List.cons.inj path).2

private theorem path_ne_of_arguments {target : Option Json} {arguments : Json}
    {position : Position} (member : position ∈ arguments.positions (.arguments target))
    (index : Nat) (key : String) : position.path ≠ [.item index, .field key] := by
  intro path
  cases arguments with
  | null | bool | num | str => cases member
  | arr items =>
      obtain ⟨offset, item, inner, -, innerMember, rfl⟩ := mem_itemPositions member
      exact path_ne_of_argument innerMember key (List.cons.inj path).2
  | obj fields =>
      obtain ⟨other, rest, equation⟩ := path_of_mem_obj member
      rw [path] at equation
      cases equation

private theorem own_ne_inside {shape : Shape} {fields : Fields}
    {own inside : Position} (ownMember : own ∈ shape.positions fields)
    (insideMember : inside ∈ fieldPositions shape fields) : own.path ≠ inside.path := by
  obtain ⟨key, value, inner, -, innerMember, rfl⟩ := mem_fieldPositions insideMember
  intro same
  cases shape with
  | binding target => cases ownMember
  | block =>
      obtain ⟨kind, -, rfl⟩ := List.mem_map.mp ownMember
      exact path_ne_nil innerMember (List.cons.inj same).2.symm
  -- Only a call has positions of its own further inside, and its bindings have none.
  | call target =>
      rcases List.mem_append.mp ownMember with binding | function
      · obtain ⟨index, -, rfl⟩ := List.mem_map.mp binding
        obtain ⟨step, path⟩ := List.cons.inj same
        obtain rfl := Step.field.inj step
        exact path_ne_of_arguments innerMember index _ path.symm
      · obtain rfl := List.mem_singleton.mp function
        exact path_ne_nil innerMember (List.cons.inj same).2.symm

private theorem nodup_ownPaths (shape : Shape) (fields : Fields) :
    ((shape.positions fields).map Position.path).Nodup := by
  cases shape with
  | binding target => exact List.nodup_nil
  | block =>
      rw [Shape.positions, List.map_map]
      change (NameKind.all.map fun kind => [Step.field kind.key]).Nodup
      decide
  | call target =>
      simp only [Shape.positions, List.map_append, List.map_map, List.map_cons, List.map_nil]
      apply List.nodup_append.mpr
      refine ⟨?_, List.nodup_singleton _, ?_⟩
      · apply List.Nodup.map _ List.nodup_range
        intro first second same
        simpa [Position.binding] using same
      · intro path pathMember
        obtain ⟨index, -, rfl⟩ := List.mem_map.mp pathMember
        simp [Position.binding]

private theorem nodup_map_under {positions : List Position}
    (distinct : (positions.map Position.path).Nodup) (step : Step) :
    ((positions.map (·.under step)).map Position.path).Nodup := by
  have paths : (positions.map (·.under step)).map Position.path =
      (positions.map Position.path).map (List.cons step) := by
    rw [List.map_map, List.map_map]
    rfl
  rw [paths]
  exact List.Nodup.map List.cons_injective distinct

private theorem nodup_append_paths {first second : List Position}
    (firstDistinct : (first.map Position.path).Nodup)
    (secondDistinct : (second.map Position.path).Nodup)
    (apart : ∀ left ∈ first, ∀ right ∈ second, left.path ≠ right.path) :
    ((first ++ second).map Position.path).Nodup := by
  rw [List.map_append]
  apply List.nodup_append.mpr
  refine ⟨firstDistinct, secondDistinct, ?_⟩
  intro leftPath leftMember rightPath rightMember
  obtain ⟨left, leftListed, rfl⟩ := List.mem_map.mp leftMember
  obtain ⟨right, rightListed, rfl⟩ := List.mem_map.mp rightMember
  exact apart left leftListed right rightListed

mutual
theorem nodup_paths (role : Role) (tree : Json)
    (distinct : tree.DistinctKeys) : ((tree.positions role).map Position.path).Nodup := by
  cases tree with
  | null | bool | num | str => exact List.nodup_nil
  | arr items => exact nodup_itemPaths role.item 0 items distinct
  | obj fields =>
      apply nodup_append_paths (nodup_ownPaths _ fields)
        (nodup_fieldPaths _ fields distinct.1 distinct.2)
      intro own ownMember inside insideMember
      exact own_ne_inside ownMember insideMember

private theorem nodup_itemPaths (role : Role) (index : Nat) (items : List Json)
    (distinct : DistinctItemKeys items) :
    ((itemPositions role index items).map Position.path).Nodup := by
  cases items with
  | nil => exact List.nodup_nil
  | cons item rest =>
      apply nodup_append_paths (nodup_map_under (nodup_paths role item distinct.1) _)
        (nodup_itemPaths role (index + 1) rest distinct.2)
      intro here hereMember later laterMember same
      obtain ⟨inner, -, rfl⟩ := List.mem_map.mp hereMember
      obtain ⟨offset, other, inside, -, -, rfl⟩ := mem_itemPositions laterMember
      have sameIndex := Step.item.inj (List.cons.inj same).1
      omega

private theorem nodup_fieldPaths (shape : Shape) (fields : List (String × Json))
    (keys : (fields.map Prod.fst).Nodup) (distinct : DistinctFieldKeys fields) :
    ((fieldPositions shape fields).map Position.path).Nodup := by
  match fields with
  | [] => exact List.nodup_nil
  | (key, value) :: rest =>
      obtain ⟨fresh, restKeys⟩ := List.nodup_cons.mp keys
      apply nodup_append_paths
        (nodup_map_under (nodup_paths (shape.role key) value distinct.1) _)
        (nodup_fieldPaths shape rest restKeys distinct.2)
      intro here hereMember later laterMember same
      obtain ⟨inner, -, rfl⟩ := List.mem_map.mp hereMember
      obtain ⟨other, held, inside, fieldMember, -, rfl⟩ := mem_fieldPositions laterMember
      obtain rfl := Step.field.inj (List.cons.inj same).1
      exact fresh (List.mem_map.mpr ⟨_, fieldMember, rfl⟩)
end

end Json

end BlockNames
