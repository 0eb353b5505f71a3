import BlockNames.Proofs.Numbering

/-!
A namespace whose names are declared under both numberings. The numberings share one count, so an
index tells its place, and no two names have the same one.
-/
namespace BlockNames

theorem Numbering.eq_of_index_eq {first second : Numbering} {left right : Nat}
    (same : first.index left = second.index right) : left = right := by
  cases first <;> cases second <;> simp only [Numbering.index] at same <;> omega

namespace Namespace

/-- Declares names one after the other, each under a numbering of its own. -/
def declareMixed (names : Namespace) (declared : List (Numbering × String)) : Namespace :=
  declared.foldl (fun names (numbering, name) => names.declare numbering name) names

@[simp] theorem declareMixed_cons (names : Namespace) (numbering : Numbering) (name : String)
    (rest : List (Numbering × String)) :
    names.declareMixed ((numbering, name) :: rest) =
      (names.declare numbering name).declareMixed rest := rfl

theorem declareMixed_append (names : Namespace) (first second : List (Numbering × String)) :
    names.declareMixed (first ++ second) = (names.declareMixed first).declareMixed second :=
  List.foldl_append

/-- The namespace has the names of these declarations and no others. Each index has a place below
the number of names, in one of the numberings, and belongs to one name. -/
structure Tallies (declared : List (Numbering × String)) (names : Namespace) : Prop where
  size_eq : names.size = (declared.map Prod.snd).eraseDups.length
  isSome_get?_iff : ∀ name, (names.get? name).isSome ↔ name ∈ declared.map Prod.snd
  bounded : ∀ {name index}, names.get? name = some index →
    ∃ numbering : Numbering, ∃ place < names.size, numbering.index place = index
  injective : ∀ {first second index}, names.get? first = some index →
    names.get? second = some index → first = second

theorem Tallies.declare {declared : List (Numbering × String)} {names : Namespace}
    (tallies : names.Tallies declared) (numbering : Numbering) (name : String) :
    (names.declare numbering name).Tallies (declared ++ [(numbering, name)]) := by
  have grows : names.size ≤ (names.declare numbering name).size := by
    rw [size_declare]
    split <;> omega
  refine ⟨?_, fun probe => ?_, fun {probe index} found => ?_, ?_⟩
  · have known : (names.get? name).isSome ↔ name ∈ (declared.map Prod.snd).eraseDups := by
      rw [tallies.isSome_get?_iff, List.mem_eraseDups]
    rw [size_declare, tallies.size_eq, List.map_append, List.map_singleton, eraseDups_concat]
    simp only [known]
    split <;> simp
  · rw [isSome_get?_declare_iff, tallies.isSome_get?_iff, List.map_append, List.mem_append,
      List.map_singleton, List.mem_singleton, or_comm]
  · rw [get?_declare] at found
    split at found
    next =>
      cases held : names.get? name with
      | some old =>
          rw [declaredIndex_of_eq_some held, ← held] at found
          obtain ⟨other, place, bound, same⟩ := tallies.bounded found
          exact ⟨other, place, by omega, same⟩
      | none =>
          rw [declaredIndex_of_eq_none held] at found
          have grown : (names.declare numbering name).size = names.size + 1 := by
            rw [size_declare, held]
            rfl
          exact ⟨numbering, names.size, by omega, Option.some.inj found⟩
    next =>
      obtain ⟨other, place, bound, same⟩ := tallies.bounded found
      exact ⟨other, place, by omega, same⟩
  · apply eq_of_get?_declare tallies.injective
    intro other found
    cases held : names.get? name with
    | some index =>
        rw [declaredIndex_of_eq_some held] at found
        exact tallies.injective found held
    | none =>
        -- All indices lie below the count, under either numbering.
        rw [declaredIndex_of_eq_none held] at found
        obtain ⟨otherNumbering, place, bound, same⟩ := tallies.bounded found
        have := Numbering.eq_of_index_eq same
        omega

theorem tallies_declareMixed (declared : List (Numbering × String)) :
    ((∅ : Namespace).declareMixed declared).Tallies declared := by
  induction declared using List.reverseRecOn with
  | nil =>
      refine ⟨rfl, fun name => ?_, fun {name index} found => ?_, fun {_ _ _} found => ?_⟩
      · simp [declareMixed]
      · cases found
      · cases found
  | append_singleton earlier last induction =>
      rw [declareMixed_append]
      exact induction.declare last.1 last.2

private theorem get?_declareMixed_of_eq_some {names : Namespace} {name : String} {index : Int}
    (found : names.get? name = some index) (declared : List (Numbering × String)) :
    (names.declareMixed declared).get? name = some index := by
  induction declared generalizing names with
  | nil => exact found
  | cons first rest induction => exact induction (get?_declare_of_eq_some found first.2)

private theorem get?_declareMixed_first (earlier later : List (Numbering × String))
    (numbering : Numbering) {name : String} (new : name ∉ earlier.map Prod.snd) :
    ((∅ : Namespace).declareMixed (earlier ++ (numbering, name) :: later)).get? name =
      some (numbering.index (earlier.map Prod.snd).eraseDups.length) := by
  have tallies := tallies_declareMixed earlier
  have absent : ((∅ : Namespace).declareMixed earlier).get? name = none :=
    Option.not_isSome_iff_eq_none.mp (mt (tallies.isSome_get?_iff name).mp new)
  rw [declareMixed_append, declareMixed_cons]
  apply get?_declareMixed_of_eq_some
  rw [get?_declare, if_pos rfl, declaredIndex_of_eq_none absent, tallies.size_eq]

/-- The namespace numbers the names of these declarations, each in the way of its first declaration
by how many names there were before. No two names share an index. -/
structure NumbersMixed (declared : List (Numbering × String)) (names : Namespace) : Prop where
  injective : ∀ {first second index}, names.get? first = some index →
    names.get? second = some index → first = second
  first : ∀ {earlier numbering name later}, declared = earlier ++ (numbering, name) :: later →
    name ∉ earlier.map Prod.snd →
      names.get? name = some (numbering.index (earlier.map Prod.snd).eraseDups.length)

theorem numbersMixed_declareMixed (declared : List (Numbering × String)) :
    ((∅ : Namespace).declareMixed declared).NumbersMixed declared where
  injective := (tallies_declareMixed declared).injective
  first := by
    rintro earlier numbering name later rfl new
    exact get?_declareMixed_first earlier later numbering new

end Namespace

end BlockNames
