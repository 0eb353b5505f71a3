import BlockNames.Proofs.Position

/-!
Trees that are made from another tree point by point. Main statement: if at every path of a tree it
is said what becomes of the value there, or at least how many items or which keys it will have, then
there is only one tree that fits.
-/
namespace BlockNames.Json

private theorem Fields.ext_lookup {left right : Fields} (distinct : (left.map Prod.fst).Nodup)
    (sameKeys : left.map Prod.fst = right.map Prod.fst)
    (sameValues : ∀ key ∈ left.map Prod.fst, left.lookup key = right.lookup key) :
    left = right := by
  induction left generalizing right with
  | nil => exact (List.map_eq_nil_iff.mp sameKeys.symm).symm
  | cons field rest induction =>
      cases right with
      | nil => cases sameKeys
      | cons other others =>
          obtain ⟨key, value⟩ := field
          obtain ⟨otherKey, otherValue⟩ := other
          obtain ⟨rfl, restKeys⟩ := List.cons.inj sameKeys
          obtain ⟨fresh, restDistinct⟩ := List.nodup_cons.mp distinct
          have here := sameValues key List.mem_cons_self
          rw [List.lookup_cons_self, List.lookup_cons_self] at here
          obtain rfl := Option.some.inj here
          congr 1
          refine induction restDistinct restKeys fun probe member => ?_
          have later := sameValues probe (List.mem_cons_of_mem _ member)
          have different : (probe == key) = false := by
            rw [beq_eq_false_iff_ne]
            rintro rfl
            exact fresh member
          rwa [List.lookup_cons, List.lookup_cons, different] at later

private theorem Fields.exists_lookup_of_mem_keys {fields : Fields} {key : String}
    (member : key ∈ fields.map Prod.fst) : ∃ value, fields.lookup key = some value := by
  by_contra absent
  have missing : fields.lookup key = none :=
    Option.eq_none_iff_forall_ne_some.mpr fun value held => absent ⟨value, held⟩
  obtain ⟨field, fieldMember, rfl⟩ := List.mem_map.mp member
  exact absurd (List.lookup_eq_none_iff.mp missing field fieldMember) (by simp)

/-- What is true of leaves, and of lists and objects if it is true of all that they hold, is true of
every tree. -/
theorem induction {motive : Json → Prop} (leaf : ∀ value, value.IsLeaf → motive value)
    (list : ∀ items, (∀ item ∈ items, motive item) → motive (.arr items))
    (object : ∀ fields : Fields, (∀ field ∈ fields, motive field.2) → motive (.obj fields)) :
    ∀ tree, motive tree
  | .null | .bool _ | .num _ | .str _ => leaf _ trivial
  | .arr items => list items fun item _member => induction leaf list object item
  | .obj fields => object fields fun field _member => induction leaf list object field.2
decreasing_by
  · have := List.sizeOf_lt_of_mem _member
    simp only [arr.sizeOf_spec]
    omega
  · have := List.sizeOf_lt_of_mem _member
    obtain ⟨key, value⟩ := field
    simp only [obj.sizeOf_spec, Prod.mk.sizeOf_spec] at this ⊢
    omega

/-- Two results for a value are the same, or they are lists of the same length as the value or
objects with its keys. -/
inductive Alike : Json → Json → Json → Prop
  | same (value result : Json) : Alike value result result
  | list {items left right : List Json} (leftLength : left.length = items.length)
      (rightLength : right.length = items.length) : Alike (.arr items) (.arr left) (.arr right)
  | object {fields left right : Fields} (leftKeys : left.map Prod.fst = fields.map Prod.fst)
      (rightKeys : right.map Prod.fst = fields.map Prod.fst) :
      Alike (.obj fields) (.obj left) (.obj right)

/-- At every path of the tree the result is related to the value there. -/
def Becomes (tree result : Json) (related : List Step → Json → Json → Prop) : Prop :=
  ∀ path value, tree.at? path = some value →
    ∃ after, result.at? path = some after ∧ related path value after

theorem Becomes.here {tree result : Json} {related : List Step → Json → Json → Prop}
    (becomes : tree.Becomes result related) : related [] tree result := by
  obtain ⟨after, reached, isRelated⟩ := becomes [] tree rfl
  rwa [← Option.some.inj reached] at isRelated

theorem Becomes.inside {tree result inner : Json} {related : List Step → Json → Json → Prop}
    (becomes : tree.Becomes result related) {step : Step} (child : tree.child? step = some inner) :
    ∃ after, result.child? step = some after ∧
      inner.Becomes after fun path => related (step :: path) := by
  have found : tree.at? [step] = some inner := (tree.at?_singleton step).trans child
  obtain ⟨after, reached, -⟩ := becomes [step] inner found
  rw [at?_singleton] at reached
  refine ⟨after, reached, fun path value held => ?_⟩
  have later := becomes (step :: path) value
  simp only [at?, child, reached, Option.bind_some] at later
  exact later held

/-- Nothing but one result can become of the tree, whatever is said about it. -/
def Determined (tree : Json) : Prop :=
  ∀ (left right : Json) (related : List Step → Json → Json → Prop),
    (∀ path {value first second}, related path value first → related path value second →
      Alike value first second) →
    tree.Becomes left related → tree.Becomes right related → left = right

private theorem Determined.child?_eq {tree inner left right : Json}
    {related : List Step → Json → Json → Prop} (determined : inner.Determined)
    (alike : ∀ path {value first second}, related path value first → related path value second →
      Alike value first second)
    (becomesLeft : tree.Becomes left related) (becomesRight : tree.Becomes right related)
    {step : Step} (child : tree.child? step = some inner) :
    left.child? step = right.child? step := by
  obtain ⟨leftInner, leftReached, leftInside⟩ := becomesLeft.inside child
  obtain ⟨rightInner, rightReached, rightInside⟩ := becomesRight.inside child
  rw [leftReached, rightReached,
    determined _ _ _ (fun path => alike (step :: path)) leftInside rightInside]

theorem DistinctKeys.determined {tree : Json} (distinct : tree.DistinctKeys) : tree.Determined := by
  induction tree using Json.induction with
  | leaf value leaf =>
      intro left right related alike becomesLeft becomesRight
      cases alike [] becomesLeft.here becomesRight.here with
      | same => rfl
      | list | object => exact leaf.elim
  | list items induction =>
      intro left right related alike becomesLeft becomesRight
      cases alike [] becomesLeft.here becomesRight.here with
      | same => rfl
      -- Both lists have an item for every item of the tree and for no other.
      | list leftLength rightLength =>
          refine congrArg Json.arr (List.ext_getElem? fun index => ?_)
          cases listed : items[index]? with
          | none =>
              rw [List.getElem?_eq_none_iff] at listed
              rw [List.getElem?_eq_none (leftLength ▸ listed),
                List.getElem?_eq_none (rightLength ▸ listed)]
          | some item =>
              have member := List.mem_of_getElem? listed
              have itemDistinct := (distinctItemKeys_iff items).mp distinct item member
              have child : (Json.arr items).child? (.item index) = some item := listed
              exact (induction item member itemDistinct).child?_eq alike becomesLeft becomesRight
                child
  | object fields induction =>
      intro left right related alike becomesLeft becomesRight
      cases alike [] becomesLeft.here becomesRight.here with
      | same => rfl
      | object leftKeys rightKeys =>
          have leftDistinct := leftKeys ▸ distinct.1
          have sameKeys := leftKeys.trans rightKeys.symm
          refine congrArg Json.obj (Fields.ext_lookup leftDistinct sameKeys fun key member => ?_)
          obtain ⟨value, held⟩ := Fields.exists_lookup_of_mem_keys (leftKeys ▸ member)
          have fieldMember := Fields.mem_of_lookup_eq_some held
          have valueDistinct := (distinctFieldKeys_iff fields).mp distinct.2 _ fieldMember
          have child : (Json.obj fields).child? (.field key) = some value := held
          exact (induction _ fieldMember valueDistinct).child?_eq alike becomesLeft becomesRight
            child

end BlockNames.Json
