import BlockNames.Proofs.Place

/-!
The places of references. Main statement: a path leads to a reference exactly if it is listed among
the positions of the tree and a value stands there.
-/
namespace BlockNames

/-- The positions of the bindings that a value makes up by standing in an argument list. -/
def Role.bindingPositions (role : Role) (tree : Json) : List Position :=
  match role with
  | .value => []
  | .arguments target =>
      (List.range (tree.items?.getD []).length).map fun index =>
        ⟨[.item index, .field NameKind.variable.key], .binding target⟩
  | .argument target => [⟨[.field NameKind.variable.key], .binding target⟩]

/-- All positions that a value in this place has, the place itself included. -/
def Place.positions (place : Place) (tree : Json) : List Position :=
  (place.site?.map (⟨[], ·⟩)).toList ++
    (place.role.bindingPositions tree ++ tree.positions place.role)

private theorem Place.mem_positions_iff {place : Place} {tree : Json} {path : List Json.Step}
    {site : Site} :
    ⟨path, site⟩ ∈ place.positions tree ↔
      path = [] ∧ place.site? = some site ∨
        ⟨path, site⟩ ∈ place.role.bindingPositions tree ∨
          ⟨path, site⟩ ∈ tree.positions place.role := by
  have here : ⟨path, site⟩ ∈ (place.site?.map (⟨[], ·⟩ : Site → Position)).toList ↔
      path = [] ∧ place.site? = some site := by
    cases place.site? with
    | none => simp
    | some other => simp [eq_comm]
  rw [Place.positions, List.mem_append, List.mem_append, here]

private theorem Position.mem_map_under_iff {positions : List Position} {step other : Json.Step}
    {path : List Json.Step} {site : Site} :
    ⟨other :: path, site⟩ ∈ positions.map (·.under step) ↔
      step = other ∧ ⟨path, site⟩ ∈ positions := by
  rw [List.mem_map]
  constructor
  · rintro ⟨⟨inner, innerSite⟩, member, same⟩
    obtain ⟨samePath, rfl⟩ := Position.mk.inj same
    obtain ⟨rfl, rfl⟩ := List.cons.inj samePath
    exact ⟨rfl, member⟩
  · rintro ⟨rfl, member⟩
    exact ⟨_, member, rfl⟩

private theorem Position.eq_field_iff {key field : String} {path : List Json.Step}
    {site fieldSite : Site} :
    (⟨.field key :: path, site⟩ : Position) = ⟨[.field field], fieldSite⟩ ↔
      path = [] ∧ (if key = field then some fieldSite else none) = some site := by
  rw [Position.mk.injEq, List.cons.injEq, Json.Step.field.injEq]
  split
  next same => simp [same, eq_comm]
  next other => simp [other]

private theorem Shape.site?_block_eq_some_iff {key : String} {site : Site} :
    Shape.block.site? key = some site ↔ ∃ kind : NameKind, kind.key = key ∧ .name kind = site := by
  have keyed : ∀ kind, NameKind.ofKey? key = some kind ↔ kind.key = key := by
    intro kind
    constructor
    · exact NameKind.key_of_ofKey?_eq_some
    · rintro rfl
      cases kind <;> rfl
  simp only [Shape.site?, Option.map_eq_some_iff, keyed]

namespace Json

private theorem mem_itemPositions_iff {role : Role} {items : List Json} {start index : Nat}
    {path : List Step} {site : Site} :
    ⟨.item (start + index) :: path, site⟩ ∈ itemPositions role start items ↔
      ∃ item, items[index]? = some item ∧ ⟨path, site⟩ ∈ item.positions role := by
  induction items generalizing start index with
  | nil => simp [itemPositions]
  | cons item rest induction =>
      rw [itemPositions, List.mem_append, Position.mem_map_under_iff, Step.item.injEq]
      cases index with
      | zero =>
          have later : ⟨.item start :: path, site⟩ ∉ itemPositions role (start + 1) rest := by
            intro member
            obtain ⟨offset, _, inner, -, -, same⟩ := mem_itemPositions member
            have sameIndex := Step.item.inj (List.cons.inj (Position.mk.inj same).1).1
            omega
          simp [later]
      | succ index =>
          have next : start + (index + 1) = start + 1 + index := by omega
          have other : start ≠ start + 1 + index := by omega
          rw [next, induction]
          simp [other]

private theorem mem_fieldPositions_iff {shape : Shape} {fields : Fields} {key : String}
    {path : List Step} {site : Site} :
    ⟨.field key :: path, site⟩ ∈ fieldPositions shape fields ↔
      ∃ value, (key, value) ∈ fields ∧ ⟨path, site⟩ ∈ value.positions (shape.role key) := by
  induction fields with
  | nil => simp [fieldPositions]
  | cons field rest induction =>
      obtain ⟨stored, value⟩ := field
      rw [fieldPositions, List.mem_append, Position.mem_map_under_iff, induction, Step.field.injEq]
      constructor
      · rintro (⟨rfl, member⟩ | ⟨other, listed, member⟩)
        · exact ⟨value, List.mem_cons_self, member⟩
        · exact ⟨other, List.mem_cons_of_mem _ listed, member⟩
      · rintro ⟨other, listed, member⟩
        rcases List.mem_cons.mp listed with same | later
        · obtain ⟨rfl, rfl⟩ := Prod.mk.inj same
          exact .inl ⟨rfl, member⟩
        · exact .inr ⟨other, later, member⟩

private theorem mem_blockPositions_iff {fields : Fields} {key : String} {path : List Step}
    {site : Site} :
    ⟨.field key :: path, site⟩ ∈ Shape.block.positions fields ↔
      path = [] ∧ Shape.block.site? key = some site := by
  rw [Shape.positions, List.mem_map, Shape.site?_block_eq_some_iff]
  constructor
  · rintro ⟨kind, -, same⟩
    obtain ⟨samePath, rfl⟩ := Position.mk.inj same
    obtain ⟨sameStep, rfl⟩ := List.cons.inj samePath
    exact ⟨rfl, kind, Step.field.inj sameStep, rfl⟩
  · rintro ⟨rfl, kind, rfl, rfl⟩
    exact ⟨kind, by cases kind <;> decide, rfl⟩

private theorem mem_callPositions_iff {target : Option Json} {fields : Fields} {key : String}
    {value : Json} (held : fields.lookup key = some value) {path : List Step} {site : Site} :
    ⟨.field key :: path, site⟩ ∈ (Shape.call target).positions fields ↔
      path = [] ∧ (Shape.call target).site? key = some site ∨
        ⟨path, site⟩ ∈ ((Shape.call target).role key).bindingPositions value := by
  rw [Shape.positions, List.mem_append, List.mem_singleton]
  by_cases isArguments : key = Key.arguments
  · subst isArguments
    rw [Shape.site?_arguments, Shape.role, if_pos rfl, Role.bindingPositions, held,
      Option.bind_some]
    have noTarget : Key.arguments ≠ NameKind.function.key := by decide
    simp [Position.binding, noTarget]
  · have noBinding : ∀ index, Position.binding target index ≠ ⟨.field key :: path, site⟩ := by
      intro index same
      exact isArguments (Step.field.inj (List.cons.inj (Position.mk.inj same).1).1).symm
    rw [Shape.role, if_neg isArguments, Position.eq_field_iff]
    simp [noBinding, Role.bindingPositions, Shape.site?]

/-- The positions of an object are its fields at references, and the bindings that its argument list
makes up. A binding is one in its own place. -/
private theorem mem_ownPositions_iff {role : Role} {fields : Fields} {key : String} {value : Json}
    (held : fields.lookup key = some value) {path : List Step} {site : Site} :
    ⟨.field key :: path, site⟩ ∈
        role.bindingPositions (.obj fields) ++ (role.shape fields).positions fields ↔
      path = [] ∧ (role.shape fields).site? key = some site ∨
        ⟨path, site⟩ ∈ ((role.shape fields).role key).bindingPositions value := by
  have unbound : ⟨.field key :: path, site⟩ ∈ (Shape.ofFields fields).positions fields ↔
      path = [] ∧ (Shape.ofFields fields).site? key = some site ∨
        ⟨path, site⟩ ∈ ((Shape.ofFields fields).role key).bindingPositions value := by
    unfold Shape.ofFields
    split
    · exact mem_callPositions_iff held
    · rw [mem_blockPositions_iff]
      simp [Shape.role, Role.bindingPositions]
  cases role with
  | value => exact unbound
  | arguments target => exact unbound
  | argument target =>
      simp only [Role.bindingPositions, Role.shape, Shape.positions, List.append_nil,
        List.mem_singleton, Shape.role, List.not_mem_nil, or_false]
      exact Position.eq_field_iff

private theorem mem_placePositions_field_iff {place : Place} {fields : Fields} {key : String}
    {value : Json} (distinct : (fields.map Prod.fst).Nodup)
    (held : fields.lookup key = some value) {path : List Step} {site : Site} :
    ⟨.field key :: path, site⟩ ∈ place.positions (.obj fields) ↔
      ⟨path, site⟩ ∈ (place.inside (.obj fields) (.field key)).positions value := by
  have inside : (∃ other, (key, other) ∈ fields ∧
      ⟨path, site⟩ ∈ other.positions ((place.role.shape fields).role key)) ↔
        ⟨path, site⟩ ∈ value.positions ((place.role.shape fields).role key) := by
    constructor
    · rintro ⟨other, listed, member⟩
      obtain rfl := Option.some.inj ((Fields.lookup_eq_some_of_mem distinct listed).symm.trans held)
      exact member
    · exact fun member => ⟨value, Fields.mem_of_lookup_eq_some held, member⟩
  simp only [Place.mem_positions_iff, positions, List.mem_append, mem_fieldPositions_iff, inside,
    List.cons_ne_nil, false_and, false_or]
  rw [← or_assoc, ← List.mem_append, mem_ownPositions_iff held, or_assoc]
  rfl

private theorem mem_placePositions_item_iff {place : Place} {items : List Json} {index : Nat}
    {item : Json} (listed : items[index]? = some item) {path : List Step} {site : Site} :
    ⟨.item index :: path, site⟩ ∈ place.positions (.arr items) ↔
      ⟨path, site⟩ ∈ (place.inside (.arr items) (.item index)).positions item := by
  have bound : index < items.length := (List.getElem?_eq_some_iff.mp listed).1
  have own : ⟨.item index :: path, site⟩ ∈ place.role.bindingPositions (.arr items) ↔
      ⟨path, site⟩ ∈ place.role.item.bindingPositions item := by
    cases place.role with
    | value | argument target => simp [Role.item, Role.bindingPositions]
    | arguments target =>
        simp only [Role.item, Role.bindingPositions, items?, Option.getD_some, List.mem_map,
          List.mem_range, List.mem_singleton, Position.mk.injEq, List.cons.injEq, Step.item.injEq]
        constructor
        · rintro ⟨other, -, ⟨-, rfl⟩, rfl⟩
          exact ⟨rfl, rfl⟩
        · rintro ⟨rfl, rfl⟩
          exact ⟨index, bound, ⟨rfl, rfl⟩, rfl⟩
  have inside : ⟨.item index :: path, site⟩ ∈ itemPositions place.role.item 0 items ↔
      ⟨path, site⟩ ∈ item.positions place.role.item := by
    rw [← Nat.zero_add index, mem_itemPositions_iff, listed]
    simp
  simp only [Place.mem_positions_iff, own, positions, inside, List.cons_ne_nil, false_and, false_or,
    Place.inside, reduceCtorEq, and_false]

theorem mem_placePositions_cons_iff {place : Place} {tree inner : Json} {step : Step}
    (distinct : tree.DistinctKeys) (child : tree.child? step = some inner) {path : List Step}
    {site : Site} :
    ⟨step :: path, site⟩ ∈ place.positions tree ↔
      ⟨path, site⟩ ∈ (place.inside tree step).positions inner := by
  cases tree with
  | null | bool | num | str => cases child
  | arr items =>
      cases step with
      | field key => cases child
      | item index => exact mem_placePositions_item_iff child
  | obj fields =>
      cases step with
      | item index => cases child
      | field key => exact mem_placePositions_field_iff distinct.1 child

theorem DistinctKeys.child {tree inner : Json} {step : Step} (distinct : tree.DistinctKeys)
    (child : tree.child? step = some inner) : inner.DistinctKeys := by
  cases tree with
  | null | bool | num | str => cases child
  | arr items =>
      cases step with
      | field key => cases child
      | item index =>
          exact (distinctItemKeys_iff items).mp distinct inner (List.mem_of_getElem? child)
  | obj fields =>
      cases step with
      | item index => cases child
      | field key =>
          exact (distinctFieldKeys_iff fields).mp distinct.2 (key, inner)
            (Fields.mem_of_lookup_eq_some child)

theorem placeAt_site?_eq_some_iff {place : Place} {tree : Json} (distinct : tree.DistinctKeys)
    {path : List Step} {site : Site} :
    (tree.placeAt place path).site? = some site ↔
      ⟨path, site⟩ ∈ place.positions tree ∧ (tree.at? path).isSome := by
  induction path generalizing place tree with
  | nil =>
      have outside : ⟨[], site⟩ ∉ tree.positions place.role := fun member =>
        path_ne_nil member rfl
      have unbound : ⟨[], site⟩ ∉ place.role.bindingPositions tree := by
        cases place.role <;> simp [Role.bindingPositions]
      simp [Place.mem_positions_iff, placeAt, at?, outside, unbound]
  | cons step path induction =>
      cases child : tree.child? step with
      | none =>
          rw [placeAt_cons_of_child?_eq_none child, at?_cons_of_child?_eq_none child]
          simp
      | some inner =>
          rw [placeAt_cons child, at?_cons child, mem_placePositions_cons_iff distinct child]
          exact induction (distinct.child child)

/-- A path leads to a reference if it is one of the positions of the tree and leads somewhere. -/
theorem siteAt?_eq_some_iff {tree : Json} (distinct : tree.DistinctKeys) {path : List Step}
    {site : Site} :
    tree.siteAt? path = some site ↔
      ⟨path, site⟩ ∈ tree.positions .value ∧ (tree.at? path).isSome :=
  placeAt_site?_eq_some_iff distinct

end Json

end BlockNames
