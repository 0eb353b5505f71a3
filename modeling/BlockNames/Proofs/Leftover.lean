import BlockNames.Proofs.ReferencePlace

/-!
Numbers that scripts hold where names or declarations may stand. Such a number is left over from a
restoration if a script still holds it in place of its arguments, or if it is an index at a
reference. Main statement: the numbers that are listed are these, each of them once.
-/
namespace BlockNames

/-- A number that is left over in scripts, with the path to it. -/
inductive Leftover
  /-- A script for a function still holds the number of its arguments. -/
  | count (path : List Json.Step)
  /-- An index still stands at a reference, in a field for names of this kind. -/
  | index (path : List Json.Step) (field : NameKind) (value : Int)
deriving DecidableEq

namespace Leftover

def under (step : Json.Step) : Leftover → Leftover
  | .count path => .count (step :: path)
  | .index path field value => .index (step :: path) field value

def event : Leftover → Event
  | .count _ => .unknownFunction
  | .index _ field value => .unknownIndex field value

def line : Leftover → String
  | .count _ => "WARN argument count of an unknown function left as is"
  | .index _ field value => "WARN no " ++ field.key ++ " name for index " ++ toString value

theorem under_injective (step : Json.Step) : Function.Injective (under step) := by
  intro first second same
  cases first <;> cases second <;> simp_all [under]

private theorem step_eq_of_under_eq {step other : Json.Step} {first second : Leftover}
    (same : first.under step = second.under other) : step = other := by
  cases first <;> cases second <;> simp_all [under]

@[simp] theorem event_under (step : Json.Step) (leftover : Leftover) :
    (leftover.under step).event = leftover.event := by
  cases leftover <;> rfl

theorem line_event (leftover : Leftover) : leftover.event.line = leftover.line := by
  cases leftover with
  | count path =>
      change "WARN" ++ " " ++ "argument count of an unknown function left as is" =
        "WARN argument count of an unknown function left as is"
      simp
  | index path field value =>
      have start : "WARN" ++ " " ++ "no " = "WARN no " := by simp
      change "WARN" ++ " " ++ ("no " ++ field.key ++ " name for index " ++ toString value) =
        "WARN no " ++ field.key ++ " name for index " ++ toString value
      simp only [← String.append_assoc, start]

end Leftover

/-- The scripts hold the number: one of them is a script for a function and holds it in place of its
arguments, or it stands at a reference. -/
inductive Json.Leaves (scripts : Json) : Leftover → Prop
  | count {position count : Nat} {script : Json.Fields}
      (listed : scripts.at? [.item position] = some (.obj script))
      (kind : ScriptKind.ofFields script = .declaration .function)
      (held : script.heldCount? = some count) :
      scripts.Leaves (.count [.item position, .field Key.arguments])
  | index {path : List Json.Step} {site : Site} {value : Int}
      (reference : scripts.siteAt? path = some site)
      (held : scripts.at? path = some (Json.index value)) :
      scripts.Leaves (.index path site.field value)

def Position.leftover? (tree : Json) (position : Position) : Option Leftover :=
  ((tree.at? position.path).bind Json.index?).map (.index position.path position.site.field)

namespace Json

def leftIndices (tree : Json) : List Leftover :=
  (tree.positions .value).filterMap (·.leftover? tree)

def leftCount : Json → List Leftover
  | .obj script =>
      if ScriptKind.ofFields script = .declaration .function ∧
          (Fields.heldCount? script).isSome then
        [.count [.field Key.arguments]]
      else
        []
  | .null | .bool _ | .num _ | .str _ | .arr _ => []

def itemLeftovers (item : Json) : List Leftover :=
  item.leftCount ++ item.leftIndices

/-- What is left over in what should be a list of scripts. -/
def listLeftovers : Json → List Leftover
  | .arr items => items.zipIdx.flatMap fun (item, position) =>
      item.itemLeftovers.map (·.under (.item position))
  | other => other.leftIndices

def leftovers (value : Json) : List Leftover :=
  (value.scripts?.map listLeftovers).getD []

theorem mem_leftIndices_iff {tree : Json} (distinct : tree.DistinctKeys) {leftover : Leftover} :
    leftover ∈ tree.leftIndices ↔
      ∃ path site value, tree.siteAt? path = some site ∧
        tree.at? path = some (Json.index value) ∧ .index path site.field value = leftover := by
  rw [leftIndices, List.mem_filterMap]
  constructor
  · rintro ⟨⟨path, site⟩, member, found⟩
    obtain ⟨value, read, rfl⟩ := Option.map_eq_some_iff.mp found
    obtain ⟨stored, held, read⟩ := Option.bind_eq_some_iff.mp read
    obtain rfl := index?_eq_some_iff.mp read
    have reference := (siteAt?_eq_some_iff distinct).mpr ⟨member, Option.isSome_of_eq_some held⟩
    exact ⟨path, site, value, reference, held, rfl⟩
  · rintro ⟨path, site, value, reference, held, rfl⟩
    refine ⟨⟨path, site⟩, ((siteAt?_eq_some_iff distinct).mp reference).1, ?_⟩
    simp only [Position.leftover?, held, Option.bind_some]
    rfl

private theorem mem_leftCount_iff {item : Json} {leftover : Leftover} :
    leftover ∈ item.leftCount ↔
      ∃ script count, item = .obj script ∧
        ScriptKind.ofFields script = .declaration .function ∧
        Fields.heldCount? script = some count ∧ .count [.field Key.arguments] = leftover := by
  cases item with
  | null | bool | num | str | arr => simp [leftCount]
  | obj script =>
      rw [leftCount]
      constructor
      · intro member
        split at member
        next holds =>
          obtain ⟨count, held⟩ := Option.isSome_iff_exists.mp holds.2
          exact ⟨script, count, rfl, holds.1, held, (List.mem_singleton.mp member).symm⟩
        next => cases member
      · rintro ⟨_, count, same, kind, held, rfl⟩
        obtain rfl := Json.obj.inj same
        rw [if_pos ⟨kind, Option.isSome_of_eq_some held⟩]
        exact List.mem_singleton_self _

private theorem mem_listLeftovers_arr_iff {items : List Json} {leftover : Leftover} :
    leftover ∈ (Json.arr items).listLeftovers ↔
      ∃ (position : Nat) (item : Json), items[position]? = some item ∧
        ∃ inner ∈ item.itemLeftovers, inner.under (.item position) = leftover := by
  simp only [listLeftovers, List.mem_flatMap, List.mem_map, Prod.exists,
    List.mk_mem_zipIdx_iff_getElem?]
  exact exists_comm

private theorem listLeftovers_of_items?_eq_none {scripts : Json}
    (unlisted : scripts.items? = none) :
    scripts.listLeftovers = scripts.leftIndices := by
  cases scripts with
  | null | bool | num | str | obj => rfl
  | arr => cases unlisted

private theorem leaves_iff_of_items?_eq_none {scripts : Json} (unlisted : scripts.items? = none)
    (distinct : scripts.DistinctKeys) {leftover : Leftover} :
    scripts.Leaves leftover ↔ leftover ∈ scripts.leftIndices := by
  rw [mem_leftIndices_iff distinct]
  constructor
  · rintro (⟨item, -, -⟩ | ⟨reference, held⟩)
    · rw [at?_singleton, child?_item, unlisted] at item
      cases item
    · exact ⟨_, _, _, reference, held, rfl⟩
  · rintro ⟨path, site, value, reference, held, rfl⟩
    exact .index reference held

private theorem leaves_arr_iff {items : List Json} (distinct : DistinctItemKeys items)
    {leftover : Leftover} :
    (Json.arr items).Leaves leftover ↔
      ∃ (position : Nat) (item : Json), items[position]? = some item ∧
        ∃ inner ∈ item.itemLeftovers, inner.under (.item position) = leftover := by
  have itemDistinct : ∀ {position : Nat} {item : Json}, items[position]? = some item →
      item.DistinctKeys := fun stored =>
    (distinctItemKeys_iff items).mp distinct _ (List.mem_of_getElem? stored)
  constructor
  · rintro (⟨stored, kind, held⟩ | ⟨reference, held⟩)
    · rw [at?_singleton] at stored
      have counted := mem_leftCount_iff.mpr ⟨_, _, rfl, kind, held, rfl⟩
      exact ⟨_, _, stored, _, List.mem_append_left _ counted, rfl⟩
    · obtain ⟨position, item, path, rfl, stored, inside⟩ := siteAt?_arr_eq_some_iff.mp reference
      rw [at?_arr_item stored] at held
      have indexed :=
        (mem_leftIndices_iff (itemDistinct stored)).mpr ⟨path, _, _, inside, held, rfl⟩
      exact ⟨position, item, stored, _, List.mem_append_right _ indexed, rfl⟩
  · rintro ⟨position, item, stored, inner, member, rfl⟩
    rcases List.mem_append.mp member with counted | indexed
    · obtain ⟨script, count, rfl, kind, held, rfl⟩ := mem_leftCount_iff.mp counted
      exact .count (at?_arr_item stored []) kind held
    · obtain ⟨path, site, value, reference, held, rfl⟩ :=
        (mem_leftIndices_iff (itemDistinct stored)).mp indexed
      exact .index ((siteAt?_arr_item stored path).trans reference)
        ((at?_arr_item stored path).trans held)

theorem mem_listLeftovers_iff {scripts : Json} (distinct : scripts.DistinctKeys)
    {leftover : Leftover} : leftover ∈ scripts.listLeftovers ↔ scripts.Leaves leftover := by
  cases listed : scripts.items? with
  | none =>
      rw [leaves_iff_of_items?_eq_none listed distinct, listLeftovers_of_items?_eq_none listed]
  | some items =>
      cases scripts with
      | null | bool | num | str | obj => cases listed
      | arr => rw [leaves_arr_iff distinct, mem_listLeftovers_arr_iff]

private theorem nodup_leftIndices {tree : Json} (distinct : tree.DistinctKeys) :
    tree.leftIndices.Nodup := by
  have paths := List.pairwise_map.mp (nodup_paths .value tree distinct)
  apply List.pairwise_filterMap.mpr
  refine paths.imp fun different first firstFound second secondFound same => different ?_
  obtain ⟨_, -, rfl⟩ := Option.map_eq_some_iff.mp firstFound
  obtain ⟨_, -, rfl⟩ := Option.map_eq_some_iff.mp secondFound
  exact (Leftover.index.inj same).1

private theorem nodup_itemLeftovers {item : Json} (distinct : item.DistinctKeys) :
    item.itemLeftovers.Nodup := by
  have count : item.leftCount.Nodup := by
    cases item with
    | null | bool | num | str | arr => exact List.nodup_nil
    | obj script =>
        rw [leftCount]
        split
        · exact List.nodup_singleton _
        · exact List.nodup_nil
  refine List.nodup_append.mpr ⟨count, nodup_leftIndices distinct, ?_⟩
  intro first firstMember second secondMember same
  obtain ⟨_, _, -, -, -, rfl⟩ := mem_leftCount_iff.mp firstMember
  obtain ⟨_, _, _, -, -, rfl⟩ := (mem_leftIndices_iff distinct).mp secondMember
  cases same

theorem nodup_listLeftovers {scripts : Json} (distinct : scripts.DistinctKeys) :
    scripts.listLeftovers.Nodup := by
  cases scripts with
  | null | bool | num | str => exact List.nodup_nil
  | obj fields => exact nodup_leftIndices distinct
  | arr items =>
      rw [listLeftovers, List.nodup_flatMap]
      constructor
      · intro (item, position) member
        have itemDistinct := (distinctItemKeys_iff items).mp distinct item
          (List.fst_mem_of_mem_zipIdx member)
        exact (nodup_itemLeftovers itemDistinct).map (Leftover.under_injective _)
      · have positions : (items.zipIdx.map Prod.snd).Nodup := by
          rw [List.zipIdx_map_snd]
          exact List.nodup_range'
        apply (List.pairwise_map.mp positions).imp
        intro (first, firstPosition) (second, secondPosition) different leftover inFirst inSecond
        obtain ⟨firstInner, -, rfl⟩ := List.mem_map.mp inFirst
        obtain ⟨secondInner, -, same⟩ := List.mem_map.mp inSecond
        exact different (Step.item.inj (Leftover.step_eq_of_under_eq same)).symm

end Json

namespace Document

variable (document : Document)

theorem mem_leftovers_iff {leftover : Leftover} :
    leftover ∈ document.tree.leftovers ↔
      ∃ scripts, document.tree.scripts? = some scripts ∧ scripts.Leaves leftover := by
  rw [Json.leftovers]
  cases held : document.tree.scripts? with
  | none => simp
  | some scripts => simp [Json.mem_listLeftovers_iff (document.distinctKeys.scripts held)]

theorem nodup_leftovers : document.tree.leftovers.Nodup := by
  rw [Json.leftovers]
  cases held : document.tree.scripts? with
  | none => exact List.nodup_nil
  | some scripts => exact Json.nodup_listLeftovers (document.distinctKeys.scripts held)

end Document

end BlockNames
