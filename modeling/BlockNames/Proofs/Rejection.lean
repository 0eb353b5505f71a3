import BlockNames.Proofs.Diagnostic
import BlockNames.Proofs.Place

/-!
Strict compaction leaves no name behind. Main statement: it fails for the names that stay, or it
puts an index in place of every name that is looked up. The bindings of a call without a name for
its target are not looked up.
-/
namespace BlockNames

/-- Whether names are looked up here. A binding needs a target that is given by name. -/
def Site.LooksUp : Site → Prop
  | .name _ => True
  | .binding target => ∃ callee, target = some (.str callee)

/-- The names of the input gave way to indices wherever they are looked up. -/
structure Json.NamesReplaced (input output : Json) : Prop where
  /-- A string that is left names a binding, one that is not looked up. -/
  left : ∀ path site name, output.siteAt? path = some site →
    output.at? path = some (.str name) →
      ∃ target original, site = .binding target ∧ input.siteAt? path = some (.binding original) ∧
        ¬(Site.binding original).LooksUp
  replaced : ∀ path site name value, input.siteAt? path = some site → site.LooksUp →
    input.at? path = some (.str name) → output.at? path = some value →
      ∃ index, value = Json.index index

namespace ScopeView

private theorem change_of_reports_eq_nil {view : ScopeView} {site : Site} {name : String}
    (looksUp : site.LooksUp) (silent : view.reports ⟨site, .str name⟩ = []) :
    ∃ index, view.change site (.str name) = Json.index index := by
  have settled : ∀ kind scope found, (settle kind scope name found).unresolved = [] →
      ∃ index, (settle kind scope name found).value = Json.index index := by
    intro kind scope found silent
    cases found with
    | none => cases silent
    | some index => exact ⟨index, rfl⟩
  cases site with
  | name kind => exact settled _ _ _ silent
  | binding target =>
      obtain ⟨callee, rfl⟩ := looksUp
      exact settled _ _ _ silent

variable {view : ScopeView} {tree : Json}

private theorem at?_resolve_of_silent (silent : (view.resolve tree).unresolved = [])
    {path : List Json.Step}
    {site : Site} {name : String} (reference : tree.siteAt? path = some site)
    (looksUp : site.LooksUp) (held : tree.at? path = some (.str name)) :
    ∃ index, (view.resolve tree).value.at? path = some (Json.index index) := by
  rw [resolve_eq] at silent ⊢
  have unreported := List.flatMap_eq_nil_iff.mp silent _
    (Json.mem_references_of_siteAt? reference held)
  obtain ⟨index, changed⟩ := change_of_reports_eq_nil looksUp unreported
  refine ⟨index, ?_⟩
  have after := Json.at?_rewrite_of_siteAt? view.leafwise_change tree reference
  rw [held] at after
  exact after.trans (congrArg some changed)

theorem namesReplaced_resolve (silent : (view.resolve tree).unresolved = []) :
    tree.NamesReplaced (view.resolve tree).value where
  left := by
    intro path site name reference held
    have value : (view.resolve tree).value = tree.rewrite view.change .value := by
      rw [resolve_eq]
    rw [value, Json.siteAt?_rewrite view.leafwise_change] at reference
    obtain ⟨original, found, rfl⟩ := Option.map_eq_some_iff.mp reference
    have unsought : ¬original.LooksUp := by
      intro looksUp
      have before := held
      rw [value, Json.at?_rewrite_of_siteAt? view.leafwise_change tree found] at before
      obtain ⟨inner, innerHeld, changed⟩ := Option.map_eq_some_iff.mp before
      have named := str?_change_of_eq_some (congrArg Json.str? changed)
      rw [Json.str?_rewrite, Json.str?_eq_some_iff] at named
      rw [named] at innerHeld
      obtain ⟨index, indexed⟩ := at?_resolve_of_silent silent found looksUp innerHeld
      cases indexed.symm.trans held
    cases original with
    | name kind => exact absurd trivial unsought
    | binding target => exact ⟨_, target, rfl, found, unsought⟩
  replaced := by
    intro path site name value reference looksUp held found
    obtain ⟨index, indexed⟩ := at?_resolve_of_silent silent reference looksUp held
    exact ⟨index, Option.some.inj (found.symm.trans indexed)⟩

end ScopeView

private theorem Json.NamesReplaced.of_countedItem {item output : Json}
    (within : item.countedItem.NamesReplaced output)
    (kept : ∀ path value, output.at? path = some value →
      ∃ counted, item.countedItem.at? path = some counted) : item.NamesReplaced output where
  left := by
    intro path site name reference held
    obtain ⟨target, original, isBinding, found, unsought⟩ :=
      within.left path site name reference held
    exact ⟨target, original, isBinding, (siteAt?_countedItem found).1, unsought⟩
  replaced := by
    intro path site name value reference looksUp held found
    obtain ⟨counted, countedHeld⟩ := kept path value found
    have countedReference := siteAt?_countedItem_of_at? reference countedHeld
    obtain ⟨-, same⟩ := siteAt?_countedItem countedReference
    exact within.replaced path site name value countedReference looksUp (same.trans held) found

theorem Json.NamesReplaced.arr {items : List Json} {resolved : Json → Json}
    (each : ∀ item ∈ items, item.NamesReplaced (resolved item)) :
    (Json.arr items).NamesReplaced (.arr (items.map resolved)) where
  left := by
    intro path site name reference held
    obtain ⟨index, output, rest, rfl, listed, reference⟩ := siteAt?_arr_eq_some_iff.mp reference
    rw [at?_arr_item listed] at held
    rw [List.getElem?_map] at listed
    obtain ⟨item, itemListed, rfl⟩ := Option.map_eq_some_iff.mp listed
    obtain ⟨target, original, isBinding, found, unsought⟩ :=
      (each item (List.mem_of_getElem? itemListed)).left rest site name reference held
    have outside : (Json.arr items).siteAt? (.item index :: rest) = some (.binding original) :=
      siteAt?_arr_eq_some_iff.mpr ⟨index, item, rest, rfl, itemListed, found⟩
    exact ⟨target, original, isBinding, outside, unsought⟩
  replaced := by
    intro path site name value reference looksUp held found
    obtain ⟨index, item, rest, rfl, listed, reference⟩ := siteAt?_arr_eq_some_iff.mp reference
    have resolvedListed : (items.map resolved)[index]? = some (resolved item) := by
      rw [List.getElem?_map, listed, Option.map_some]
    rw [at?_arr_item listed] at held
    rw [at?_arr_item resolvedListed] at found
    exact (each item (List.mem_of_getElem? listed)).replaced rest site name value reference looksUp
      held found

namespace SymbolTable

private theorem namesReplaced_resolveScoped {table : SymbolTable} {item : Json}
    (silent : (table.resolveScoped item).unresolved = []) :
    item.NamesReplaced (table.resolveScoped item).value := by
  rw [resolveScoped_eq_resolve] at silent ⊢
  apply Json.NamesReplaced.of_countedItem (ScopeView.namesReplaced_resolve silent)
  intro path value found
  rw [ScopeView.resolve_eq] at found
  have before := Json.at?_placeRewrite (table.viewOfItem item).leafwise_change {}
    item.countedItem path
  obtain ⟨counted, held, -⟩ := Option.map_eq_some_iff.mp (before.symm.trans found)
  exact ⟨counted, held⟩

theorem namesReplaced_resolve {table : SymbolTable} {scripts : Json}
    (silent : (table.resolve scripts).unresolved = []) :
    scripts.eraseAnnotations.NamesReplaced (table.resolve scripts).value := by
  cases scripts with
  | null | bool | num | str | obj =>
      rw [resolve_of_items?_eq_none table rfl] at silent ⊢
      exact ScopeView.namesReplaced_resolve silent
  | arr items =>
      rw [resolve_arr] at silent ⊢
      simp only [Json.eraseAnnotations, Json.eraseItemAnnotations_eq_map]
      have each : ∀ item ∈ items.map Json.eraseAnnotations,
          item.NamesReplaced (table.resolveScoped item).value := by
        intro item member
        obtain ⟨original, listed, rfl⟩ := List.mem_map.mp member
        exact namesReplaced_resolveScoped (List.flatMap_eq_nil_iff.mp silent original listed)
      have whole := Json.NamesReplaced.arr each
      rwa [List.map_map] at whole

end SymbolTable

/-- A strict compaction replaces all names that are looked up, or it fails for those that no
namespace knows. -/
theorem Json.namesReplaced_of_compact_reject (value : Json) :
    (∀ compaction, value.compact ⟨.reject⟩ = .ok compaction →
      ∀ scripts, value.scripts? = some scripts →
        ∃ compacted, compaction.value.scripts? = some compacted ∧
          scripts.eraseAnnotations.NamesReplaced compacted) ∧
    ∀ error, value.compact ⟨.reject⟩ = .error error →
      error.code = "C-ERR-NAME-001" ∧ ∃ names, names ≠ [] ∧ error = .unresolvedNames names := by
  rw [compact_reject]
  by_cases silent : (Compaction.ofValue value).unresolved = []
  · rw [if_pos silent]
    refine ⟨?_, nofun⟩
    rintro compaction ⟨⟩ scripts held
    refine ⟨((Compaction.ofValue value).table.resolve scripts).value, ?_, ?_⟩
    · rw [Compaction.scripts?_ofValue, held, Option.map_some]
    · apply SymbolTable.namesReplaced_resolve
      rwa [Compaction.ofValue_unresolved, held] at silent
  · rw [if_neg silent]
    refine ⟨nofun, ?_⟩
    rintro error ⟨⟩
    exact ⟨rfl, _, silent, rfl⟩

def turnDefinition : Json :=
  .obj [(Key.arguments, .arr [.obj [(NameKind.variable.key, .str "angle")]]),
    (NameKind.function.key, .str "turn"), (Key.kind, .str NameKind.function.key)]

def turnCall (parameter : String) : Json :=
  .arr [turnDefinition,
    .obj [(Key.arguments, .arr [.obj [(NameKind.variable.key, .str parameter)]]),
      (NameKind.function.key, .str "turn"), (Key.kind, .str callKind)]]

theorem Json.namesReplaced_of_compact_reject_turnCall :
    (∃ compaction compacted, (turnCall "angle").compact ⟨.reject⟩ = .ok compaction ∧
      compaction.value.scripts? = some compacted ∧
      (turnCall "angle").eraseAnnotations.NamesReplaced compacted) ∧
    ∃ error, (turnCall "speed").compact ⟨.reject⟩ = .error error ∧
      error.code = "C-ERR-NAME-001" ∧ ∃ names, names ≠ [] ∧ error = .unresolvedNames names := by
  obtain ⟨compacted, held, replaced⟩ :=
    (Json.namesReplaced_of_compact_reject (turnCall "angle")).1 _ rfl _ rfl
  exact ⟨⟨_, compacted, rfl, held, replaced⟩,
    ⟨_, rfl, (Json.namesReplaced_of_compact_reject (turnCall "speed")).2 _ rfl⟩⟩

/-- A call with a variable of its own, a binding with a list of its own, and a binding in a call
whose target is an index already. -/
def unsoughtNames : Json :=
  .arr [turnDefinition,
    .obj [(Key.arguments, .arr [.obj [(NameKind.list.key, .str "turns"),
        (NameKind.variable.key, .str "angle")]]),
      (NameKind.function.key, .str "turn"), (Key.kind, .str callKind),
      (NameKind.variable.key, .str "speed")],
    .obj [(Key.arguments, .arr [.obj [(NameKind.variable.key, .str "speed")]]),
      (NameKind.function.key, Json.index 0), (Key.kind, .str callKind)]]

/-- Names that are not looked up pass a strict compaction. -/
theorem Json.compact_reject_unsoughtNames :
    ∃ compaction, unsoughtNames.compact ⟨.reject⟩ = .ok compaction ∧
      compaction.value.at? [.item 1, .field NameKind.variable.key] = some (.str "speed") ∧
      compaction.value.at? [.item 1, .field Key.arguments, .item 0, .field NameKind.list.key] =
        some (.str "turns") ∧
      compaction.value.at? [.item 2, .field Key.arguments, .item 0, .field NameKind.variable.key] =
        some (.str "speed") :=
  ⟨_, rfl, rfl, rfl, rfl⟩

end BlockNames
