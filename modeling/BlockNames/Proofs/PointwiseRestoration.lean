import BlockNames.Proofs.Overcount
import BlockNames.Proofs.Place
import BlockNames.Proofs.Pointwise

/-!
Restoration point by point. An index at a reference becomes the name that it stands for where it
is looked up, which depends on its place in the scripts as they were; a number of arguments becomes
declarations. Main statement: that is all that changes.
-/
namespace BlockNames

def Json.itemOf? : Json → List Json.Step → Option Json
  | .arr items, .item position :: _ => items[position]?
  | _, _ => none

namespace SymbolTable

/-- The item is a script with local names of its own: the event handler, or one for a function. -/
inductive Owns (table : SymbolTable) : Json → Scope → Prop
  | event {script : Json.Fields} (kind : ScriptKind.ofFields script = .eventHandler) :
      table.Owns (.obj script) .event
  | function {script : Json.Fields} {function : String} (defines : table.Defines script function) :
      table.Owns (.obj script) (.function function)

/-- Where an index at a reference is looked up. A negative variable belongs to the item that it
stands in, a binding to the target of its call. -/
inductive LooksIn (table : SymbolTable) (item : Option Json) : Site → Int → Namespace → Prop
  | globalVariable {index : Int} (admitted : 0 ≤ index) :
      table.LooksIn item (.name .variable) index table.variableNames
  | localVariable {index : Int} {owner : Json} {scope : Scope} {names : Namespace}
      (negative : index < 0) (inside : item = some owner) (owns : table.Owns owner scope)
      (known : table.localNames? scope = some names) :
      table.LooksIn item (.name .variable) index names
  | name {kind : NameKind} {index : Int} (other : kind ≠ .variable) :
      table.LooksIn item (.name kind) index (table.globalNames kind)
  | binding {target : Json} {function : String} {index : Int} {names : Namespace}
      (meant : table.Means target function) (known : table.locals.get? function = some names) :
      table.LooksIn item (.binding (some target)) index names

def StandsFor (table : SymbolTable) (item : Option Json) (site : Site) (index : Int)
    (name : String) : Prop :=
  ∃ names, table.LooksIn item site index names ∧ names.get? name = some index

/-- The path leads to the number that a script holds in place of its arguments. -/
def ClaimsAt (table : SymbolTable) (scripts : Json) (path : List Json.Step)
    (claim : ArgumentClaim) : Prop :=
  ∃ position item, path = [.item position, .field Key.arguments] ∧
    scripts.itemOf? path = some item ∧ table.Claims item claim

/-- What a value may come back as that stands in an item, at a reference or at a number of
arguments. -/
inductive Restores (table : SymbolTable) (item : Option Json) (site? : Option Site)
    (claimed : ArgumentClaim → Prop) : Json → Json → Prop
  | reference {site : Site} {index : Int} {result : Json} (isReference : site? = some site)
      (named : ∀ name, result = .str name ↔ table.StandsFor item site index name)
      (nameless : (∀ name, ¬table.StandsFor item site index name) → result = Json.index index) :
      table.Restores item site? claimed (Json.index index) result
  | arguments {value : Json} {claim : ArgumentClaim} (isClaimed : claimed claim)
      (held : value.count? = some claim.count) :
      table.Restores item site? claimed value (.arr claim.declarations)
  | leaf {value : Json} (isLeaf : value.IsLeaf) (noIndex : site? = none ∨ value.index? = none)
      (unclaimed : ∀ claim, ¬claimed claim) : table.Restores item site? claimed value value
  | list {items results : List Json} (length : results.length = items.length) :
      table.Restores item site? claimed (.arr items) (.arr results)
  | object {fields results : Json.Fields}
      (keys : results.map Prod.fst = fields.map Prod.fst) :
      table.Restores item site? claimed (.obj fields) (.obj results)

def RestoresAt (table : SymbolTable) (scripts : Json) (path : List Json.Step) :
    Json → Json → Prop :=
  table.Restores (scripts.itemOf? path) (scripts.siteAt? path) (table.ClaimsAt scripts path)

/-- At every path of the scripts the results have what the value there comes back as. -/
def RestoresTo (table : SymbolTable) (scripts results : Json) : Prop :=
  scripts.Becomes results (table.RestoresAt scripts)

end SymbolTable

namespace InvertibleTable

variable {table : InvertibleTable}

theorem itemLocals?_eq_some_iff {item : Json} {names : Namespace} :
    table.itemLocals? item = some names ↔
      ∃ scope, table.Owns item scope ∧ table.localNames? scope = some names := by
  constructor
  · intro known
    cases item with
    | null | bool | num | str | arr => cases known
    | obj script =>
        simp only [itemLocals?, scriptLocals?] at known
        split at known
        next kind => exact ⟨.event, .event kind, known⟩
        next kind =>
          obtain ⟨function, meant, known⟩ := Option.bind_eq_some_iff.mp known
          obtain ⟨value, held, meant⟩ := Option.bind_eq_some_iff.mp meant
          have defines : table.Defines script function :=
            ⟨kind, value, held, functionOf?_eq_some_iff.mp meant⟩
          exact ⟨.function function, .function defines, known⟩
        next => cases known
        next => cases known
  · rintro ⟨scope, owns, known⟩
    cases owns with
    | event kind =>
        simp only [itemLocals?, scriptLocals?, kind]
        exact known
    | function defines =>
        obtain ⟨kind, value, held, meant⟩ := defines
        simp only [itemLocals?, scriptLocals?, kind, localsOf?, held, Option.bind_some]
        rw [functionOf?_eq_some_iff.mpr meant]
        exact known

private theorem localsOf?_eq_some_iff {target : Option Json} {names : Namespace} :
    table.localsOf? target = some names ↔
      ∃ value function, target = some value ∧ table.Means value function ∧
        table.locals.get? function = some names := by
  unfold localsOf?
  simp only [Option.bind_eq_some_iff, functionOf?_eq_some_iff]
  constructor
  · rintro ⟨function, ⟨value, held, meant⟩, known⟩
    exact ⟨value, function, held, meant, known⟩
  · rintro ⟨value, function, held, meant, known⟩
    exact ⟨function, ⟨value, held, meant⟩, known⟩

private theorem namesAt_of_ne {scope : Option Namespace} {kind : NameKind} {index : Int}
    (other : kind ≠ .variable) :
    table.namesAt scope index (.name kind) = some (table.globalNames kind) := by
  cases kind with
  | list | image | function => rfl
  | _ => exact absurd rfl other

private theorem namesAt_eq_some_iff {item : Option Json} {site : Site} {index : Int}
    {names : Namespace} :
    table.namesAt (item.bind table.itemLocals?) index site = some names ↔
      table.LooksIn item site index names := by
  constructor
  · intro found
    cases site with
    | binding target =>
        obtain ⟨value, function, rfl, meant, known⟩ := localsOf?_eq_some_iff.mp found
        exact .binding meant known
    | name kind =>
        by_cases isVariable : kind = .variable
        · subst isVariable
          simp only [namesAt] at found
          split at found
          next negative =>
            obtain ⟨owner, inside, known⟩ := Option.bind_eq_some_iff.mp found
            obtain ⟨scope, owns, known⟩ := itemLocals?_eq_some_iff.mp known
            exact .localVariable negative inside owns known
          next admitted =>
            obtain rfl := Option.some.inj found
            exact .globalVariable (Int.not_lt.mp admitted)
        · rw [namesAt_of_ne isVariable] at found
          obtain rfl := Option.some.inj found
          exact .name isVariable
  · intro looksIn
    cases looksIn with
    | globalVariable admitted => simp only [namesAt, if_neg (Int.not_lt.mpr admitted)]
    | localVariable negative inside owns known =>
        simp only [namesAt, if_pos negative, inside, Option.bind_some]
        exact itemLocals?_eq_some_iff.mpr ⟨_, owns, known⟩
    | name other => exact namesAt_of_ne other
    | binding meant known => exact localsOf?_eq_some_iff.mpr ⟨_, _, rfl, meant, known⟩

private theorem faultless_of_looksIn {item : Option Json} {site : Site} {index : Int}
    {names : Namespace} (looksIn : table.LooksIn item site index names) :
    ∃ numbering, names.Faultless numbering := by
  cases looksIn with
  | globalVariable => exact ⟨_, table.namesFaultless.globalNames .variable⟩
  | localVariable _ _ _ known => exact ⟨_, table.namesFaultless.localNames known⟩
  | name => exact ⟨_, table.namesFaultless.globalNames _⟩
  | binding _ known =>
      have known : table.localNames? (.function _) = some names := known
      exact ⟨_, table.namesFaultless.localNames known⟩

theorem nameAt?_eq_some_iff {item : Option Json} {site : Site} {index : Int} {name : String} :
    table.nameAt? (item.bind table.itemLocals?) site index = some name ↔
      table.StandsFor item site index name := by
  unfold nameAt? SymbolTable.StandsFor
  rw [Option.bind_eq_some_iff]
  refine exists_congr fun names => ?_
  rw [namesAt_eq_some_iff]
  refine and_congr_right fun looksIn => ?_
  obtain ⟨numbering, faultless⟩ := faultless_of_looksIn looksIn
  exact faultless.nameOf?_eq_some_iff

theorem leafwise_restored (scope : Option Namespace) : Leafwise (table.restored scope) where
  leaf := by
    intro site value leaf
    unfold restored
    split
    · exact leaf
    · split
      · trivial
      · exact leaf
  inner := by
    intro site value inner
    apply restored_of_index?_eq_none
    cases value with
    | null | bool | num | str => exact absurd trivial inner
    | arr | obj => rfl

theorem restored_index_of_nameless {scope : Option Namespace} {site : Site} {index : Int}
    (nameless : table.nameAt? scope site index = none) :
    table.restored scope site (Json.index index) = Json.index index := by
  simp only [restored, Json.index, Json.index?, Number.index?, nameless]

theorem restores_reference {item : Option Json} {claimed : ArgumentClaim → Prop} (site : Site)
    (index : Int) :
    table.Restores item (some site) claimed (Json.index index)
      (table.restored (item.bind table.itemLocals?) site (Json.index index)) := by
  refine .reference rfl (fun name => ?_) fun nameless => ?_
  · rw [← nameAt?_eq_some_iff]
    cases named : table.nameAt? (item.bind table.itemLocals?) site index with
    | none =>
        rw [restored_index_of_nameless named]
        simp [Json.index]
    | some stored => simp [restored_index table named]
  · apply restored_index_of_nameless
    exact Option.eq_none_iff_forall_ne_some.mpr fun name named =>
      nameless name (nameAt?_eq_some_iff.mp named)

private theorem restores_placeRewrite {item : Option Json} {claimed : ArgumentClaim → Prop}
    (unclaimed : ∀ claim, ¬claimed claim) (place : Place) (value : Json) :
    table.Restores item place.site? claimed value
      (place.rewrite (table.restored (item.bind table.itemLocals?)) value) := by
  by_cases leaf : value.IsLeaf
  · unfold Place.rewrite
    rw [Json.rewrite_of_isLeaf _ place.role leaf]
    cases isSite : place.site? with
    | none => exact .leaf leaf (.inl rfl) unclaimed
    | some site =>
        simp only [Site.changed]
        cases read : value.index? with
        | none =>
            rw [restored_of_index?_eq_none _ _ _ read]
            exact .leaf leaf (.inr read) unclaimed
        | some index =>
            rw [Json.index?_eq_some_iff.mp read]
            exact restores_reference site index
  · rw [Json.placeRewrite_of_not_isLeaf (leafwise_restored _) place leaf]
    cases value with
    | null | bool | num | str => exact absurd trivial leaf
    | arr items =>
        refine .list ?_
        rw [Json.rewriteItems_eq_map, List.length_map]
    | obj fields => exact .object (Json.keys_rewriteFields _ _ fields)

private theorem restores_rewrite (table : InvertibleTable) (item : Option Json)
    {claimed : ArgumentClaim → Prop} (unclaimed : ∀ claim, ¬claimed claim) {tree value : Json}
    {path : List Json.Step} (found : tree.at? path = some value) :
    ∃ after,
      (tree.rewrite (table.restored (item.bind table.itemLocals?)) .value).at? path = some after ∧
        table.Restores item (tree.siteAt? path) claimed value after := by
  refine ⟨_, ?_, restores_placeRewrite unclaimed (tree.placeAt {} path) value⟩
  have moved := Json.at?_placeRewrite
    (table.leafwise_restored (item.bind table.itemLocals?)) {} tree path
  rw [found] at moved
  exact moved

/-- The path leads to the number that an item holds in place of its arguments. -/
def HoldsAt (table : InvertibleTable) (item : Json) (path : List Json.Step)
    (claim : ArgumentClaim) : Prop :=
  path = [.field Key.arguments] ∧ table.Claims item claim

theorem child?_replace_arguments (script : Json.Fields) (arguments : Json) {step : Json.Step}
    (other : step ≠ .field Key.arguments) :
    (Json.obj (script.replace Key.arguments arguments)).child? step =
        (Json.obj script).child? step ∧
      ({} : Place).inside (.obj (script.replace Key.arguments arguments)) step =
        ({} : Place).inside (.obj script) step := by
  cases step with
  | item index => exact ⟨rfl, rfl⟩
  | field key =>
      have different : key ≠ Key.arguments := fun same => other (congrArg Json.Step.field same)
      refine ⟨Json.Fields.lookup_replace_of_ne script arguments different, ?_⟩
      simp only [Place.inside, Role.shape, Shape.ofFields_replace_arguments]

theorem restores_script {script : Json.Fields} {claim : ArgumentClaim} {result value : Json}
    (claims : table.Claims (.obj script) claim)
    (restores : table.restoreScript (.obj script) = .ok result) {path : List Json.Step}
    (found : (Json.obj script).at? path = some value) :
    ∃ after, result.at? path = some after ∧
      table.Restores (some (.obj script)) ((Json.obj script).siteAt? path)
        (table.HoldsAt (.obj script) path) value after := by
  cases path with
  | nil =>
      obtain rfl := Option.some.inj found
      obtain ⟨-, rfl⟩ := restoreScript_eq_ok_iff.mp restores
      rw [expandedItem_of_claimed claims]
      refine ⟨_, rfl, .object ?_⟩
      rw [Json.keys_rewriteFields, Json.Fields.keys_replace]
  | cons step path =>
      -- The number has nothing inside, and beside it the script is what it was.
      by_cases atArguments : step = .field Key.arguments
      · subst atArguments
        obtain ⟨arguments, stored, counted⟩ := Option.bind_eq_some_iff.mp claims.held
        have child : (Json.obj script).child? (.field Key.arguments) = some arguments := stored
        cases path with
        | nil =>
            rw [Json.at?_singleton, child] at found
            obtain rfl := Option.some.inj found
            obtain ⟨restored, rfl, declared⟩ := lookup_arguments_of_claims claims restores
            refine ⟨_, ?_, .arguments ⟨rfl, claims⟩ counted⟩
            rw [Json.at?_singleton]
            exact declared
        | cons next path =>
            have leaf : arguments.IsLeaf := Json.isLeaf_of_count? counted
            rw [Json.at?_cons child,
              Json.at?_cons_of_child?_eq_none (Json.child?_of_isLeaf leaf next)] at found
            cases found
      · obtain ⟨-, rfl⟩ := restoreScript_eq_ok_iff.mp restores
        rw [expandedItem_of_claimed claims]
        obtain ⟨child, inside⟩ :=
          child?_replace_arguments script (.arr claim.declarations) atArguments
        obtain ⟨place, same⟩ := Json.placeAt_cons_congr child inside path
        have site := congrArg Place.site? place
        have unclaimed : ∀ other, ¬table.HoldsAt (.obj script) (step :: path) other :=
          fun other holds => atArguments (List.cons.inj holds.1).1
        rw [← same] at found
        have restored := restores_rewrite table (some (.obj script)) unclaimed found
        unfold Json.siteAt? at restored ⊢
        rwa [site] at restored

private theorem restores_item {item result value : Json}
    (restores : table.restoreScript item = .ok result) {path : List Json.Step}
    (found : item.at? path = some value) :
    ∃ after, result.at? path = some after ∧
      table.Restores (some item) (item.siteAt? path) (table.HoldsAt item path) value after := by
  by_cases claimed : ∃ claim, table.Claims item claim
  · obtain ⟨claim, claims⟩ := claimed
    cases item with
    | null | bool | num | str | arr => cases claims
    | obj script => exact restores_script claims restores found
  · have unclaimed : ∀ claim, ¬table.HoldsAt item path claim :=
      fun claim holds => claimed ⟨claim, holds.2⟩
    obtain ⟨-, rfl⟩ := restoreScript_eq_ok_iff.mp restores
    rw [expandedItem_of_unclaimed fun claim claims => claimed ⟨claim, claims⟩]
    exact restores_rewrite table (some item) unclaimed found

private theorem claimsAt_arr_item {items : List Json} {position : Nat} {item : Json}
    (listed : items[position]? = some item) (path : List Json.Step) :
    table.ClaimsAt (.arr items) (.item position :: path) = table.HoldsAt item path := by
  funext claim
  apply propext
  constructor
  · rintro ⟨_, other, isPath, isItem, claims⟩
    obtain rfl := Option.some.inj (listed.symm.trans isItem)
    exact ⟨(List.cons.inj isPath).2, claims⟩
  · rintro ⟨rfl, claims⟩
    exact ⟨position, item, rfl, listed, claims⟩

private theorem restoresTo_arr {items results : List Json}
    (pointwise : List.Forall₂ (fun item result => table.restoreScript item = .ok result) items
      results) : table.RestoresTo (.arr items) (.arr results) := by
  intro path value found
  cases path with
  | nil =>
      obtain rfl := Option.some.inj found
      exact ⟨_, rfl, .list pointwise.length_eq.symm⟩
  | cons step path =>
      cases step with
      | field key => cases found
      | item position =>
          cases listed : items[position]? with
          | none =>
              have childless : (Json.arr items).child? (.item position) = none := listed
              rw [Json.at?_cons_of_child?_eq_none childless] at found
              cases found
          | some item =>
              obtain ⟨result, stays, restores⟩ := exists_getElem?_of_forall₂ pointwise listed
              rw [Json.at?_arr_item listed] at found
              obtain ⟨after, reached, restored⟩ := restores_item restores found
              refine ⟨after, (Json.at?_arr_item stays path).trans reached, ?_⟩
              have isItem : (Json.arr items).itemOf? (.item position :: path) = some item := listed
              unfold SymbolTable.RestoresAt
              rw [isItem, Json.siteAt?_arr_item listed, claimsAt_arr_item listed]
              exact restored

private theorem restoresTo_of_items?_eq_none {scripts : Json} (unlisted : scripts.items? = none) :
    table.RestoresTo scripts (scripts.rewrite (table.restored none) .value) := by
  intro path value found
  have outside : scripts.itemOf? path = none := by
    cases scripts with
    | null | bool | num | str | obj => rfl
    | arr => cases unlisted
  have unclaimed : ∀ claim, ¬table.ClaimsAt scripts path claim := by
    rintro claim ⟨_, item, -, isItem, -⟩
    rw [outside] at isItem
    cases isItem
  unfold SymbolTable.RestoresAt
  rw [outside]
  exact restores_rewrite table none unclaimed found

theorem restoresTo_of_restoreScripts {scripts results : Json}
    (decoded : table.restoreScripts scripts = .ok results) :
    table.RestoresTo scripts results := by
  cases scripts with
  | arr items =>
      obtain ⟨restored, pointwise, rfl⟩ := restoreScripts_arr_eq_ok_iff.mp decoded
      exact restoresTo_arr pointwise
  | null | bool | num | str | obj =>
      obtain rfl := Except.ok.inj decoded
      exact restoresTo_of_items?_eq_none rfl

end InvertibleTable

/-- Results for a value are alike if at most one number of arguments is claimed, and none where a
reference may stand. -/
theorem SymbolTable.Restores.alike {table : SymbolTable} {item : Option Json} {site? : Option Site}
    {claimed : ArgumentClaim → Prop}
    (unique : ∀ claim other, claimed claim → claimed other → claim = other)
    (free : ∀ claim, claimed claim → site? = none) {value left right : Json}
    (first : table.Restores item site? claimed value left)
    (second : table.Restores item site? claimed value right) : Json.Alike value left right := by
  cases first with
  | reference isReference named nameless =>
      cases second with
      | reference otherReference otherNamed otherNameless =>
          obtain rfl := Option.some.inj (isReference.symm.trans otherReference)
          by_cases isName : ∃ name, left = .str name
          · obtain ⟨name, rfl⟩ := isName
            rw [(otherNamed name).mpr ((named name).mp rfl)]
            exact .same _ _
          · have noName := fun name stands => isName ⟨name, (named name).mpr stands⟩
            rw [nameless noName, otherNameless noName]
            exact .same _ _
      | arguments isClaimed => cases (free _ isClaimed).symm.trans isReference
      | leaf _ noIndex =>
          rcases noIndex with noReference | noIndex
          · cases noReference.symm.trans isReference
          · cases noIndex
  | arguments isClaimed held =>
      cases second with
      | reference isReference => cases (free _ isClaimed).symm.trans isReference
      | arguments otherClaimed =>
          rw [unique _ _ isClaimed otherClaimed]
          exact .same _ _
      | leaf _ _ unclaimed => exact absurd isClaimed (unclaimed _)
      | list | object => cases held
  | leaf isLeaf noIndex unclaimed =>
      cases second with
      | reference isReference =>
          rcases noIndex with noReference | noIndex
          · cases noReference.symm.trans isReference
          · cases noIndex
      | arguments isClaimed => exact absurd isClaimed (unclaimed _)
      | leaf => exact .same _ _
      | list | object => exact isLeaf.elim
  | list length =>
      cases second with
      | arguments _ held => cases held
      | leaf isLeaf => exact isLeaf.elim
      | list otherLength => exact .list length otherLength
  | object keys =>
      cases second with
      | arguments _ held => cases held
      | leaf isLeaf => exact isLeaf.elim
      | object otherKeys => exact .object keys otherKeys

namespace InvertibleTable

variable {table : InvertibleTable}

theorem claimsAt_unique {scripts : Json} {path : List Json.Step} {claim other : ArgumentClaim}
    (claims : table.ClaimsAt scripts path claim) (otherClaims : table.ClaimsAt scripts path other) :
    claim = other := by
  obtain ⟨_, item, -, isItem, claims⟩ := claims
  obtain ⟨_, otherItem, -, isOtherItem, otherClaims⟩ := otherClaims
  obtain rfl := Option.some.inj (isItem.symm.trans isOtherItem)
  exact claims_unique claims otherClaims

private theorem siteAt?_of_claimsAt {scripts : Json} {path : List Json.Step} {claim : ArgumentClaim}
    (claims : table.ClaimsAt scripts path claim) : scripts.siteAt? path = none := by
  obtain ⟨position, item, rfl, isItem, -⟩ := claims
  cases scripts with
  | null | bool | num | str | obj => cases isItem
  | arr items =>
      rw [Json.siteAt?_arr_item isItem]
      cases child : item.child? (.field Key.arguments) with
      | none => rw [Json.siteAt?, Json.placeAt_cons_of_child?_eq_none child]
      | some arguments =>
          rw [Json.siteAt?, Json.placeAt_cons child]
          exact Json.site?_inside_arguments {} item

theorem restoresTo_unique {scripts left right : Json} (distinct : scripts.DistinctKeys)
    (restoresLeft : table.RestoresTo scripts left)
    (restoresRight : table.RestoresTo scripts right) : left = right := by
  refine distinct.determined _ _ _ (fun path => ?_) restoresLeft restoresRight
  exact SymbolTable.Restores.alike (fun _ _ => claimsAt_unique) fun _ => siteAt?_of_claimsAt

end InvertibleTable

namespace SymbolTable

theorem globalNames_empty (kind : NameKind) : (∅ : SymbolTable).globalNames kind = ∅ := by
  cases kind <;> rfl

theorem localNames?_empty (scope : Scope) : (∅ : SymbolTable).localNames? scope = none := by
  cases scope <;> rfl

private theorem not_standsFor_empty {item : Option Json} {site : Site} {index : Int}
    {name : String} :
    ¬(∅ : SymbolTable).StandsFor item site index name := by
  rintro ⟨names, looksIn, found⟩
  cases looksIn with
  | globalVariable => cases found
  | localVariable _ _ _ known =>
      rw [localNames?_empty] at known
      cases known
  | name =>
      rw [globalNames_empty] at found
      cases found
  | binding _ known => cases known

private theorem not_claims_empty {item : Json} {claim : ArgumentClaim} :
    ¬(∅ : SymbolTable).Claims item claim := by
  rintro ⟨-, known, -⟩
  cases known

end SymbolTable

namespace InvertibleTable

def empty : InvertibleTable := ⟨∅, rfl⟩

private theorem restored_empty (item : Option Json) (site : Site) (value : Json) :
    empty.restored (item.bind empty.itemLocals?) site value = value := by
  cases read : value.index? with
  | none => exact empty.restored_of_index?_eq_none _ _ read
  | some index =>
      rw [Json.index?_eq_some_iff.mp read]
      apply restored_index_of_nameless
      exact Option.eq_none_iff_forall_ne_some.mpr fun name named =>
        SymbolTable.not_standsFor_empty (nameAt?_eq_some_iff.mp named)

private theorem rewrite_restored_empty (item : Option Json) (tree : Json) :
    tree.rewrite (empty.restored (item.bind empty.itemLocals?)) .value = tree :=
  Json.rewrite_eq_self (fun site value (_ : True) => restored_empty item site value) .value tree
    (Json.everyReference_of_forall (fun _ => trivial) .value tree)

private theorem restoreScript_empty (item : Json) : empty.restoreScript item = .ok item := by
  refine restoreScript_eq_ok_iff.mpr ⟨?_, ?_⟩
  · exact argumentFault?_eq_none_iff.mpr fun _ claims => absurd claims SymbolTable.not_claims_empty
  · rw [expandedItem_of_unclaimed fun _ => SymbolTable.not_claims_empty]
    exact rewrite_restored_empty (some item) item

theorem restoreScripts_empty (scripts : Json) : empty.restoreScripts scripts = .ok scripts := by
  cases scripts with
  | arr items =>
      refine restoreScripts_arr_eq_ok_iff.mpr ⟨items, ?_, rfl⟩
      exact List.forall₂_same.mpr fun item _ => restoreScript_empty item
  | null | bool | num | str | obj => exact congrArg Except.ok (rewrite_restored_empty none _)

end InvertibleTable

private theorem Document.withScripts_scripts (document : Document) {scripts : Json}
    (held : document.tree.scripts? = some scripts) :
    document.tree.withScripts scripts = document.tree := by
  obtain ⟨value, distinct⟩ := document
  cases value with
  | null | bool | num | str => cases held
  | arr => exact (Option.some.inj held).symm
  | obj program => exact congrArg Json.obj (Json.Fields.replace_eq_self distinct.1 held)

private theorem Document.restore_empty (document : Document) :
    document.tree.restore ∅ = .ok document.tree := by
  rw [SymbolTable.restore_eq (show (∅ : SymbolTable).invertible = .ok .empty from rfl),
    InvertibleTable.restore_eq_ok_iff]
  cases held : document.tree.scripts? with
  | none => exact .inl ⟨rfl, rfl⟩
  | some scripts =>
      exact .inr ⟨scripts, scripts, rfl, InvertibleTable.restoreScripts_empty scripts,
        document.withScripts_scripts held⟩

/-- A document is restored point by point. What surrounds the scripts stays. In the scripts each
index at a reference becomes the name that it stands for, each number of arguments of a known
function becomes declarations, and nothing else changes: there are no other scripts of which this is
true. The empty table changes nothing. -/
theorem Document.restore_pointwise (document : Document) :
    (∀ (table : SymbolTable) (restored : Json), document.tree.restore table = .ok restored →
      (document.tree.scripts? = none → restored = document.tree) ∧
      ∀ scripts, document.tree.scripts? = some scripts →
        ∃ results, restored = document.tree.withScripts results ∧
          table.RestoresTo scripts results ∧
          ∀ other, table.RestoresTo scripts other → other = results) ∧
    document.tree.restore ∅ = .ok document.tree := by
  refine ⟨fun table restored restores => ?_, document.restore_empty⟩
  obtain ⟨inverse, accepted⟩ := SymbolTable.exists_invertible_of_restore restores
  rw [SymbolTable.restore_eq accepted] at restores
  obtain rfl := (SymbolTable.invertible_eq_ok_iff _ _).mp accepted
  rcases InvertibleTable.restore_eq_ok_iff.mp restores with
    ⟨absent, rfl⟩ | ⟨scripts, results, held, decoded, rfl⟩
  · refine ⟨fun _ => rfl, fun scripts held => ?_⟩
    cases absent.symm.trans held
  · refine ⟨fun absent => ?_, fun other otherHeld => ?_⟩
    · cases absent.symm.trans held
    obtain rfl := Option.some.inj (held.symm.trans otherHeld)
    have restoresTo := InvertibleTable.restoresTo_of_restoreScripts decoded
    refine ⟨results, rfl, restoresTo, fun other otherRestores => ?_⟩
    have scriptsDistinct := document.distinctKeys.scripts held
    exact InvertibleTable.restoresTo_unique scriptsDistinct otherRestores restoresTo

/-- The index -1 means another name in the event handler, in the function `turn` and for a binding
of a call to it. -/
def steppingTable : SymbolTable where
  event := some (OrderedMap.ofList [("step", -1)])
  locals := OrderedMap.ofList [("turn", angleNames)]
  functionNames := OrderedMap.ofList [("turn", 0)]
  variableNames := OrderedMap.ofList [("speed", 0)]

/-- An event handler that calls `turn`, and `turn` itself. `argument` is bound in the call, inside
which `inner` stands, and `declared` are the arguments of `turn`. -/
def steppingScripts (target argument inner speed angle declared : Json) : Json :=
  .arr [
    .obj [("body", .arr [
        .obj [(Key.arguments, .arr [.obj [("value", .obj [(NameKind.variable.key, inner)]),
            (NameKind.variable.key, argument)]]),
          (NameKind.function.key, target), (Key.kind, .str callKind)],
        .obj [(NameKind.list.key, .index 3), (NameKind.variable.key, speed)]]),
      (Key.kind, .str eventHandlerKind)],
    .obj [(Key.arguments, declared), ("body", .obj [(NameKind.variable.key, angle)]),
      (NameKind.function.key, target), (Key.kind, .str NameKind.function.key)]]

def countedSteps : Json :=
  steppingScripts (.index 0) (.index (-1)) (.index (-1)) (.index 0) (.index (-1)) (.index 1)

def namedSteps : Json :=
  steppingScripts (.str "turn") (.str "angle") (.str "step") (.str "speed") (.str "angle")
    (.arr [.obj [(NameKind.variable.key, .str "angle")]])

/-- One index comes back as three names, and one without a name stays. -/
theorem Document.restore_pointwise_countedSteps :
    countedSteps.DistinctKeys ∧ countedSteps.restore steppingTable = .ok namedSteps ∧
      steppingTable.RestoresTo countedSteps namedSteps ∧
      (∀ other, steppingTable.RestoresTo countedSteps other → other = namedSteps) ∧
      countedSteps.restore ∅ = .ok countedSteps := by
  have distinct : countedSteps.DistinctKeys := by decide
  have restores : countedSteps.restore steppingTable = .ok namedSteps := rfl
  obtain ⟨pointwise, unchanged⟩ := Document.restore_pointwise ⟨countedSteps, distinct⟩
  obtain ⟨-, restored⟩ := pointwise steppingTable namedSteps restores
  obtain ⟨results, isNamed, restoresTo, only⟩ := restored countedSteps rfl
  obtain rfl : namedSteps = results := isNamed
  exact ⟨distinct, restores, restoresTo, only, unchanged⟩

end BlockNames
