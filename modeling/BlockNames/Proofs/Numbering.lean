import BlockNames.SymbolTable.Invertible
import Mathlib.Data.List.Induction
import Mathlib.Data.List.Nodup
import Mathlib.Data.List.Pairwise

/-!
Namespaces as numberings. A namespace without a fault is injective, so an index has the name it was
given for. Declaring names one after the other numbers them in the order of their first appearance,
and no namespace made this way has a fault.
-/
namespace BlockNames

namespace Namespace

/-- All indices belong to the numbering, and no two names share one. -/
structure Faultless (numbering : Numbering) (names : Namespace) : Prop where
  admits : ∀ {name index}, names.get? name = some index → numbering.admits index = true
  injective : ∀ {first second index}, names.get? first = some index →
    names.get? second = some index → first = second

theorem faultAfter?_eq_none_iff (numbering : Numbering) (earlier entries : List (String × Int)) :
    faultAfter? numbering earlier entries = none ↔
      (∀ entry ∈ entries, numbering.admits entry.2 = true) ∧
        entries.Pairwise (·.2 ≠ ·.2) ∧
        ∀ before ∈ earlier, ∀ entry ∈ entries, before.2 ≠ entry.2 := by
  induction entries generalizing earlier with
  | nil => simp [faultAfter?]
  | cons head rest induction =>
      obtain ⟨name, index⟩ := head
      unfold faultAfter?
      split
      next admitted =>
        split
        next holder held found =>
          have member := List.mem_of_find?_eq_some found
          have same : held = index := by simpa using List.find?_some found
          simp only [reduceCtorEq, false_iff]
          rintro ⟨-, -, distinct⟩
          exact distinct _ member _ List.mem_cons_self same
        next unused =>
          have fresh : ∀ before ∈ earlier, before.2 ≠ index := by
            simpa using List.find?_eq_none.mp unused
          rw [induction]
          simp only [List.mem_append, List.mem_cons, List.not_mem_nil, or_false,
            List.pairwise_cons]
          constructor
          · rintro ⟨admits, pairwise, distinct⟩
            refine ⟨?_, ⟨fun entry member => distinct _ (.inr rfl) entry member, pairwise⟩, ?_⟩
            · rintro entry (rfl | member)
              · exact admitted
              · exact admits entry member
            · rintro before member entry (rfl | later)
              · exact fresh before member
              · exact distinct before (.inl member) entry later
          · rintro ⟨admits, ⟨headDistinct, pairwise⟩, distinct⟩
            refine ⟨fun entry member => admits entry (.inr member), pairwise, ?_⟩
            rintro before (member | rfl) entry later
            · exact distinct before member entry (.inr later)
            · exact headDistinct entry later
      next refused =>
        simp only [reduceCtorEq, false_iff]
        rintro ⟨admits, -, -⟩
        exact refused (admits _ List.mem_cons_self)

theorem fault?_eq_none_iff (numbering : Numbering) (names : Namespace) :
    names.fault? numbering = none ↔ names.Faultless numbering := by
  unfold fault?
  rw [faultAfter?_eq_none_iff]
  constructor
  · rintro ⟨admits, pairwise, -⟩
    refine ⟨fun found => admits _ (OrderedMap.get?_eq_some_iff.mp found), ?_⟩
    intro first second index firstFound secondFound
    by_contra different
    have firstMember := OrderedMap.get?_eq_some_iff.mp firstFound
    have secondMember := OrderedMap.get?_eq_some_iff.mp secondFound
    have : Std.Symm fun (left right : String × Int) => left.2 ≠ right.2 := ⟨fun _ _ => Ne.symm⟩
    have entriesDifferent : (first, index) ≠ (second, index) :=
      fun same => different (congrArg Prod.fst same)
    exact pairwise.forall firstMember secondMember entriesDifferent rfl
  · rintro ⟨admits, injective⟩
    refine ⟨fun entry member => admits (OrderedMap.get?_eq_some_iff.mpr member), ?_, ?_⟩
    · refine names.ascending.imp_of_mem fun {first second} firstMember secondMember before => ?_
      rintro (same : first.2 = second.2)
      have secondNumbered := OrderedMap.get?_eq_some_iff.mpr secondMember
      rw [← same] at secondNumbered
      have keyEq := injective (OrderedMap.get?_eq_some_iff.mpr firstMember) secondNumbered
      simp [keyEq] at before
    · intro before member
      exact absurd member List.not_mem_nil

theorem Faultless.nameOf?_eq_some_iff {numbering : Numbering} {names : Namespace}
    (faultless : names.Faultless numbering) {index : Int} {name : String} :
    names.nameOf? index = some name ↔ names.get? name = some index := by
  unfold nameOf?
  constructor
  · intro named
    obtain ⟨entry, found, rfl⟩ := Option.map_eq_some_iff.mp named
    have same : entry.2 = index := by simpa using List.find?_some found
    exact OrderedMap.get?_eq_some_iff.mpr (same ▸ List.mem_of_find?_eq_some found)
  · intro numbered
    have member := OrderedMap.get?_eq_some_iff.mp numbered
    cases found : names.entries.find? (·.2 = index) with
    | none =>
        have unused := List.find?_eq_none.mp found _ member
        simp at unused
    | some entry =>
        have same : entry.2 = index := by simpa using List.find?_some found
        have entryNumbered : names.get? entry.1 = some index :=
          OrderedMap.get?_eq_some_iff.mpr (same ▸ List.mem_of_find?_eq_some found)
        simp only [Option.map_some, faultless.injective entryNumbered numbered]

theorem declaredIndex_of_eq_some {numbering : Numbering} {names : Namespace} {name : String}
    {index : Int} (found : names.get? name = some index) :
    names.declaredIndex numbering name = index := by
  rw [declaredIndex, found, Option.getD_some]

theorem declaredIndex_of_eq_none {numbering : Numbering} {names : Namespace} {name : String}
    (absent : names.get? name = none) :
    names.declaredIndex numbering name = numbering.index names.size := by
  rw [declaredIndex, absent, Option.getD_none]

theorem get?_declare_of_eq_some {numbering : Numbering} {names : Namespace} {name : String}
    {index : Int} (found : names.get? name = some index) (declared : String) :
    (names.declare numbering declared).get? name = some index := by
  rw [get?_declare]
  split
  next same => rw [← same, declaredIndex_of_eq_some found]
  next => exact found

theorem size_declare (numbering : Numbering) (names : Namespace) (name : String) :
    (names.declare numbering name).size =
      if (names.get? name).isSome then names.size else names.size + 1 :=
  OrderedMap.size_insertIfNew names name _

theorem isSome_get?_declare_iff (numbering : Numbering) (names : Namespace)
    (name probe : String) :
    ((names.declare numbering name).get? probe).isSome ↔
      probe = name ∨ (names.get? probe).isSome := by
  rw [get?_declare]
  split
  next same => simp [same]
  next different => simp [different]

/-- A namespace stays injective if nothing else has the index of the declared name. -/
theorem eq_of_get?_declare {numbering : Numbering} {names : Namespace} {name : String}
    (injective : ∀ {first second index}, names.get? first = some index →
      names.get? second = some index → first = second)
    (unshared : ∀ other, names.get? other = some (names.declaredIndex numbering name) →
      other = name)
    {first second : String} {index : Int}
    (firstFound : (names.declare numbering name).get? first = some index)
    (secondFound : (names.declare numbering name).get? second = some index) : first = second := by
  rw [get?_declare] at firstFound secondFound
  split at firstFound <;> split at secondFound
  next firstSame secondSame => rw [firstSame, secondSame]
  next firstSame _ => rw [firstSame, unshared second (secondFound.trans firstFound.symm)]
  next _ secondSame => rw [secondSame, unshared first (firstFound.trans secondFound.symm)]
  next => exact injective firstFound secondFound

end Namespace

namespace Numbering

theorem admits_index (numbering : Numbering) (position : Nat) :
    numbering.admits (numbering.index position) = true := by
  cases numbering with
  | ascending => exact decide_eq_true (Int.natCast_nonneg position)
  | descending =>
      have below : -(position : Int) - 1 < 0 := by omega
      exact decide_eq_true below

theorem index_injective (numbering : Numbering) : Function.Injective numbering.index := by
  intro first second same
  cases numbering <;> simp only [index] at same <;> omega

end Numbering

namespace Namespace

/-- Each name of `order` has its place in it for its index, and there are no other names. -/
structure NumberedBy (numbering : Numbering) (order : List String) (names : Namespace) : Prop where
  nodup : order.Nodup
  size_eq : names.size = order.length
  get?_eq : ∀ name, names.get? name = (order.idxOf? name).map numbering.index

theorem numberedBy_nil (numbering : Numbering) : (∅ : Namespace).NumberedBy numbering [] where
  nodup := List.nodup_nil
  size_eq := rfl
  get?_eq := fun _ => rfl

private theorem idxOf?_concat (order : List String) (name probe : String) (fresh : name ∉ order) :
    (order ++ [name]).idxOf? probe =
      if probe = name then some order.length else order.idxOf? probe := by
  unfold List.idxOf?
  rw [List.findIdx?_append]
  by_cases same : probe = name
  · subst same
    have absent : order.findIdx? (· == probe) = none := List.idxOf?_eq_none_iff.mpr fresh
    simp [absent]
  · have other : (name == probe) = false := beq_eq_false_iff_ne.mpr (Ne.symm same)
    simp [other, same]

theorem NumberedBy.declare {numbering : Numbering} {order : List String} {names : Namespace}
    (numbered : names.NumberedBy numbering order) (name : String) :
    (names.declare numbering name).NumberedBy numbering
      (if name ∈ order then order else order ++ [name]) := by
  have known : (names.get? name).isSome ↔ name ∈ order := by
    rw [numbered.get?_eq, Option.isSome_map, List.isSome_idxOf?]
  by_cases member : name ∈ order
  · have unchanged : names.declare numbering name = names := if_pos (known.mpr member)
    rwa [if_pos member, unchanged]
  · have absent : names.get? name = none := Option.not_isSome_iff_eq_none.mp (mt known.mp member)
    rw [if_neg member]
    refine ⟨?_, ?_, fun probe => ?_⟩
    · rw [← List.concat_eq_append]
      exact List.Nodup.concat member numbered.nodup
    · rw [size_declare, absent, numbered.size_eq, List.length_append, List.length_singleton]
      rfl
    · rw [get?_declare, idxOf?_concat order name probe member, numbered.get?_eq probe,
        declaredIndex_of_eq_none absent, numbered.size_eq]
      split <;> rfl

theorem eraseDups_concat (earlier : List String) (name : String) :
    (earlier ++ [name]).eraseDups =
      if name ∈ earlier.eraseDups then earlier.eraseDups else earlier.eraseDups ++ [name] := by
  rw [List.eraseDups_append]
  by_cases member : name ∈ earlier
  · have repeated : List.removeAll [name] earlier = [] := by
      simp [List.removeAll, member]
    rw [repeated, if_pos (List.mem_eraseDups.mpr member), List.eraseDups_nil, List.append_nil]
  · have new : List.removeAll [name] earlier = [name] := by
      simp [List.removeAll, member]
    rw [new, if_neg (mt List.mem_eraseDups.mp member)]
    rfl

theorem numberedBy_declareAll (numbering : Numbering) (declared : List String) :
    ((∅ : Namespace).declareAll numbering declared).NumberedBy numbering declared.eraseDups := by
  -- From the end of the list: only the last name may be new.
  induction declared using List.reverseRecOn with
  | nil => exact numberedBy_nil numbering
  | append_singleton earlier name induction =>
      have step := induction.declare name
      rw [← eraseDups_concat] at step
      unfold declareAll at step ⊢
      rwa [List.foldl_append]

theorem NumberedBy.get?_eq_some_iff {numbering : Numbering} {order : List String}
    {names : Namespace} (numbered : names.NumberedBy numbering order) {name : String}
    {position : Nat} :
    names.get? name = some (numbering.index position) ↔ order[position]? = some name := by
  rw [numbered.get?_eq, Option.map_eq_some_iff]
  constructor
  · rintro ⟨place, found, same⟩
    obtain rfl := numbering.index_injective same
    obtain ⟨inside, here, -⟩ := List.idxOf?_eq_some_iff.mp found
    rw [List.getElem?_eq_getElem inside, here]
  · intro here
    obtain ⟨inside, here⟩ := List.getElem?_eq_some_iff.mp here
    refine ⟨position, List.idxOf?_eq_some_iff.mpr ⟨inside, here, fun place before same => ?_⟩, rfl⟩
    have placesEqual := (List.Nodup.getElem_inj_iff numbered.nodup).mp (same.trans here.symm)
    omega

theorem NumberedBy.faultless {numbering : Numbering} {order : List String} {names : Namespace}
    (numbered : names.NumberedBy numbering order) : names.Faultless numbering where
  admits := by
    intro name index found
    rw [numbered.get?_eq] at found
    obtain ⟨position, -, rfl⟩ := Option.map_eq_some_iff.mp found
    exact numbering.admits_index position
  injective := by
    intro first second index firstFound secondFound
    have found := firstFound
    rw [numbered.get?_eq] at found
    obtain ⟨position, -, rfl⟩ := Option.map_eq_some_iff.mp found
    rw [numbered.get?_eq_some_iff] at firstFound secondFound
    exact Option.some.inj (firstFound.symm.trans secondFound)

theorem NumberedBy.nameOf?_index {numbering : Numbering} {order : List String}
    {names : Namespace} (numbered : names.NumberedBy numbering order) (position : Nat) :
    names.nameOf? (numbering.index position) = order[position]? := by
  apply Option.ext
  intro name
  rw [numbered.faultless.nameOf?_eq_some_iff, numbered.get?_eq_some_iff]

end Namespace

structure SymbolTable.Faultless (table : SymbolTable) : Prop where
  globalNames : ∀ kind, (table.globalNames kind).Faultless .ascending
  localNames : ∀ {scope names}, table.localNames? scope = some names → names.Faultless .descending

theorem SymbolTable.fault?_eq_none_iff (table : SymbolTable) :
    table.fault? = none ↔ table.Faultless := by
  unfold fault?
  rw [List.findSome?_eq_none_iff]
  simp only [Option.map_eq_none_iff, Namespace.fault?_eq_none_iff]
  constructor
  · intro faultless
    refine ⟨fun kind => ?_, fun {scope names} known => ?_⟩
    · cases kind with
      | function => exact faultless ("function", .ascending, _) (by simp [namespaces])
      | list => exact faultless ("list", .ascending, _) (by simp [namespaces])
      | image => exact faultless ("image", .ascending, _) (by simp [namespaces])
      | _ => exact faultless ("variable", .ascending, _) (by simp [namespaces])
    · cases scope with
      | event =>
          have event : table.event = some names := known
          exact faultless (eventHandlerKind ++ ".locals", .descending, names)
            (by simp [namespaces, event])
      | function name =>
          have member := OrderedMap.get?_eq_some_iff.mp known
          refine faultless ("locals." ++ name, .descending, names) ?_
          exact List.mem_append_left _ (List.mem_append_left _
            (List.mem_map.mpr ⟨_, member, rfl⟩))
  · rintro ⟨globalNames, localNames⟩ ⟨label, numbering, names⟩ member
    simp only [namespaces, List.mem_append, List.mem_map, List.mem_cons, List.not_mem_nil,
      or_false, Option.mem_toList, Option.map_eq_some_iff, Prod.mk.injEq] at member
    rcases member with
      (⟨⟨name, stored⟩, storedMember, -, rfl, rfl⟩ | globalMember) | ⟨_, event, -, rfl, rfl⟩
    · have known : table.localNames? (.function name) = some stored :=
        OrderedMap.get?_eq_some_iff.mpr storedMember
      exact localNames known
    · rcases globalMember with ⟨-, rfl, rfl⟩ | ⟨-, rfl, rfl⟩ | ⟨-, rfl, rfl⟩ | ⟨-, rfl, rfl⟩
      · exact globalNames .function
      · exact globalNames .list
      · exact globalNames .variable
      · exact globalNames .image
    · have known : table.localNames? .event = some _ := event
      exact localNames known

end BlockNames
