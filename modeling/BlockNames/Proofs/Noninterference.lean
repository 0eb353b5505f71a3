import BlockNames.Proofs.Diagnostic
import BlockNames.Proofs.Place

/-!
Local names of a function act on its own scripts and on calls of it only. Main statement: tables
that differ in the local names of one function resolve scripts alike, except for the variables in
the scripts of that function and the bindings of its calls.
-/
namespace BlockNames

namespace Json

mutual
/-- The tree with `null` for every leaf in a hidden place. -/
def redact (hidden : List Step → Bool) : Json → Json
  | .arr items => .arr (redactItems hidden 0 items)
  | .obj fields => .obj (redactFields hidden fields)
  | .null => .null
  | .bool value => if hidden [] then .null else .bool value
  | .num value => if hidden [] then .null else .num value
  | .str value => if hidden [] then .null else .str value

/-- The items are numbered from `index` on. -/
def redactItems (hidden : List Step → Bool) : Nat → List Json → List Json
  | _, [] => []
  | index, item :: rest =>
      redact (fun path => hidden (.item index :: path)) item :: redactItems hidden (index + 1) rest

def redactFields (hidden : List Step → Bool) : List (String × Json) → List (String × Json)
  | [] => []
  | (key, value) :: rest =>
      (key, redact (fun path => hidden (.field key :: path)) value) :: redactFields hidden rest
end

private theorem redact_of_isLeaf (hidden : List Step → Bool) {tree : Json} (leaf : tree.IsLeaf) :
    tree.redact hidden = if hidden [] then .null else tree := by
  cases tree with
  | null => simp only [redact, ite_self]
  | bool | num | str => rfl
  | arr | obj => exact leaf.elim

mutual
theorem redact_nothing (tree : Json) : tree.redact (fun _ => false) = tree := by
  cases tree with
  | null | bool | num | str => rfl
  | arr items => exact congrArg Json.arr (redactItems_nothing 0 items)
  | obj fields => exact congrArg Json.obj (redactFields_nothing fields)

private theorem redactItems_nothing (index : Nat) (items : List Json) :
    redactItems (fun _ => false) index items = items := by
  cases items with
  | nil => rfl
  | cons item rest =>
      simp only [redactItems]
      rw [redact_nothing item, redactItems_nothing (index + 1) rest]

private theorem redactFields_nothing (fields : List (String × Json)) :
    redactFields (fun _ => false) fields = fields := by
  match fields with
  | [] => rfl
  | (key, value) :: rest =>
      simp only [redactFields]
      rw [redact_nothing value, redactFields_nothing rest]
end

private theorem redactItems_map_congr (hidden : List Step → Bool) {left right : Json → Json}
    (index : Nat) {items : List Json}
    (same : ∀ offset item, items[offset]? = some item →
      (left item).redact (fun path => hidden (.item (index + offset) :: path)) =
        (right item).redact (fun path => hidden (.item (index + offset) :: path))) :
    redactItems hidden index (items.map left) = redactItems hidden index (items.map right) := by
  induction items generalizing index with
  | nil => rfl
  | cons item rest induction =>
      have here := same 0 item rfl
      have later : redactItems hidden (index + 1) (rest.map left) =
          redactItems hidden (index + 1) (rest.map right) := by
        apply induction
        intro offset other found
        rw [Nat.add_right_comm]
        exact same (offset + 1) other found
      simp only [List.map_cons, redactItems]
      exact congrArg₂ List.cons here later

variable {first second : Site → Json → Json}

private theorem redact_placeRewrite_of_isLeaf (firstLeafwise : Leafwise first)
    (secondLeafwise : Leafwise second) (hidden : List Step → Bool) (place : Place) {tree : Json}
    (leaf : tree.IsLeaf)
    (agree : ∀ site, place.site? = some site → hidden [] = false →
      first site tree = second site tree) :
    (place.rewrite first tree).redact hidden = (place.rewrite second tree).redact hidden := by
  rw [redact_of_isLeaf hidden (isLeaf_placeRewrite firstLeafwise place leaf),
    redact_of_isLeaf hidden (isLeaf_placeRewrite secondLeafwise place leaf)]
  cases shown : hidden [] with
  | true => rfl
  | false =>
      simp only [Place.rewrite, rewrite_of_isLeaf _ _ leaf]
      cases found : place.site? with
      | none => rfl
      | some site => simp only [Site.changed, agree site found shown]

mutual
private theorem redact_placeRewrite (firstLeafwise : Leafwise first)
    (secondLeafwise : Leafwise second)
    (hidden : List Step → Bool) (place : Place) (tree : Json) (distinct : tree.DistinctKeys)
    (agree : ∀ path site value, (tree.placeAt place path).site? = some site →
      tree.at? path = some value → hidden path = false → first site value = second site value) :
    (place.rewrite first tree).redact hidden = (place.rewrite second tree).redact hidden := by
  cases tree with
  | null | bool | num | str =>
      exact redact_placeRewrite_of_isLeaf firstLeafwise secondLeafwise hidden place trivial
        fun site reference shown => agree [] site _ reference rfl shown
  | arr items =>
      rw [placeRewrite_of_not_isLeaf firstLeafwise place id,
        placeRewrite_of_not_isLeaf secondLeafwise place id]
      apply congrArg Json.arr
      apply redactItems_rewriteItems firstLeafwise secondLeafwise hidden place.role.item 0 items
        distinct
      intro offset item found path site value reference held shown
      have child : (Json.arr items).child? (.item offset) = some item := found
      rw [Nat.zero_add] at shown
      apply agree (.item offset :: path) site value _ _ shown
      · rwa [placeAt_cons child]
      · rwa [at?_cons child]
  | obj fields =>
      rw [placeRewrite_of_not_isLeaf firstLeafwise place id,
        placeRewrite_of_not_isLeaf secondLeafwise place id]
      apply congrArg Json.obj
      apply redactFields_rewriteFields firstLeafwise secondLeafwise hidden
        (place.role.shape fields) fields distinct.2
      intro key inner member path site value reference held shown
      have child : (Json.obj fields).child? (.field key) = some inner :=
        Fields.lookup_eq_some_of_mem distinct.1 member
      apply agree (.field key :: path) site value _ _ shown
      · rwa [placeAt_cons child]
      · rwa [at?_cons child]

private theorem redactItems_rewriteItems (firstLeafwise : Leafwise first)
    (secondLeafwise : Leafwise second) (hidden : List Step → Bool) (role : Role) (index : Nat)
    (items : List Json) (distinct : DistinctItemKeys items)
    (agree : ∀ offset item, items[offset]? = some item → ∀ path site value,
      (item.placeAt ⟨none, role⟩ path).site? = some site → item.at? path = some value →
        hidden (.item (index + offset) :: path) = false →
          first site value = second site value) :
    redactItems hidden index (rewriteItems first role items) =
      redactItems hidden index (rewriteItems second role items) := by
  cases items with
  | nil => rfl
  | cons item rest =>
      have here := redact_placeRewrite firstLeafwise secondLeafwise
        (fun path => hidden (.item index :: path)) ⟨none, role⟩ item distinct.1 (agree 0 item rfl)
      have later : redactItems hidden (index + 1) (rewriteItems first role rest) =
          redactItems hidden (index + 1) (rewriteItems second role rest) := by
        apply redactItems_rewriteItems firstLeafwise secondLeafwise hidden role (index + 1) rest
          distinct.2
        intro offset other found path site value reference held shown
        rw [Nat.add_right_comm] at shown
        exact agree (offset + 1) other found path site value reference held shown
      exact congrArg₂ List.cons here later

private theorem redactFields_rewriteFields (firstLeafwise : Leafwise first)
    (secondLeafwise : Leafwise second) (hidden : List Step → Bool) (shape : Shape)
    (fields : List (String × Json)) (distinct : DistinctFieldKeys fields)
    (agree : ∀ key inner, (key, inner) ∈ fields → ∀ path site value,
      (inner.placeAt ⟨shape.site? key, shape.role key⟩ path).site? = some site →
        inner.at? path = some value → hidden (.field key :: path) = false →
          first site value = second site value) :
    redactFields hidden (rewriteFields first shape fields) =
      redactFields hidden (rewriteFields second shape fields) := by
  match fields with
  | [] => rfl
  | (key, inner) :: rest =>
      have here := redact_placeRewrite firstLeafwise secondLeafwise
        (fun path => hidden (.field key :: path)) ⟨shape.site? key, shape.role key⟩ inner distinct.1
        (agree key inner List.mem_cons_self)
      have later := redactFields_rewriteFields firstLeafwise secondLeafwise hidden shape rest
        distinct.2 fun key inner member => agree key inner (List.mem_cons_of_mem _ member)
      exact congrArg₂ List.cons (congrArg (Prod.mk key) here) later
end

theorem rewrite_congr (firstLeafwise : Leafwise first) (secondLeafwise : Leafwise second)
    {tree : Json} (distinct : tree.DistinctKeys)
    (agree : ∀ path site value, tree.siteAt? path = some site → tree.at? path = some value →
      first site value = second site value) :
    tree.rewrite first .value = tree.rewrite second .value := by
  rw [← redact_nothing (tree.rewrite first .value), ← redact_nothing (tree.rewrite second .value)]
  apply redact_placeRewrite firstLeafwise secondLeafwise _ {} tree distinct
  intro path site value reference held _
  exact agree path site value reference held

end Json

/-- Only the local names of `function` may differ. -/
structure SymbolTable.AgreesOff (function : String) (left right : SymbolTable) : Prop where
  globalNames : ∀ kind, left.globalNames kind = right.globalNames kind
  localNames? : ∀ scope, scope ≠ .function function →
    left.localNames? scope = right.localNames? scope

theorem SymbolTable.agreesOff_setLocalNames (table : SymbolTable) (function : String)
    (names : Namespace) :
    table.AgreesOff function (table.setLocalNames (.function function) names) where
  globalNames := fun kind => (table.globalNames_setLocalNames kind _ names).symm
  localNames? := by
    intro scope different
    rw [localNames?_setLocalNames, if_neg different]

/-- Whether a reference in a script of this scope may mean a local name of `function`. -/
def Site.mayMeanLocalOf (function : String) (scope : Option Scope) : Site → Bool
  | .name kind => kind = .variable ∧ scope = some (.function function)
  | .binding target => target = some (.str function)

def Json.scope? (item : Json) : Option Scope :=
  item.fields?.bind Scope.ofFields?

theorem Json.scope?_eraseAnnotations (item : Json) :
    item.eraseAnnotations.scope? = item.scope? := by
  cases item with
  | null | bool | num | str | arr => rfl
  | obj script => exact Scope.ofFields?_eraseFieldAnnotations script

/-- Whether a path leads to a reference, in one of the scripts, that may mean a local name of
`function`. -/
def Json.mayBeLocalTo (function : String) (scripts : Json) : List Step → Bool
  | step :: path => (scripts.child? step).any fun script =>
      (script.siteAt? path).any (·.mayMeanLocalOf function script.scope?)
  | [] => false

namespace ScopeView

private theorem settled_of_agreesOff {left right : ScopeView} {function : String}
    (tables : left.table.AgreesOff function right.table) (owner : left.owner = right.owner)
    {site : Site} (locals : site = .name .variable → left.locals = right.locals)
    (other : site ≠ .binding (some (.str function))) : left.settled site = right.settled site := by
  funext name
  cases site with
  | name kind =>
      have localNames : left.locals.atSite (.name kind) = right.locals.atSite (.name kind) := by
        cases kind with
        | list | image | function => rfl
        | _ => exact congrArg some (locals rfl)
      simp only [settled, blockName_eq, owner, localNames, tables.globalNames]
  | binding target =>
      rcases target with _ | (_ | _ | _ | target | _ | _)
      case some.str =>
        have different : Scope.function target ≠ .function function := by
          rintro ⟨⟩
          exact other rfl
        simp only [settled, bindingName_eq, SymbolTable.localNames,
          tables.localNames? _ different]
      all_goals rfl

private theorem change_of_settled {left right : ScopeView} {site : Site}
    (same : left.settled site = right.settled site) : left.change site = right.change site := by
  funext value
  cases value with
  | null | bool | num | arr | obj => rfl
  | str name => exact congrArg Resolution.value (congrFun same name)

end ScopeView

namespace Json

theorem DistinctKeys.countedItem {item : Json} (distinct : item.DistinctKeys) :
    item.countedItem.DistinctKeys := by
  cases item with
  | null | bool | num | str | arr => exact distinct
  | obj script =>
      rcases Fields.counted_eq_or_eq_replace script with same | ⟨count, counted⟩
      · simp only [Json.countedItem, same]
        exact distinct
      · simp only [Json.countedItem, counted]
        exact distinct.replace Key.arguments trivial

end Json

namespace SymbolTable

theorem table_viewOfItem (table : SymbolTable) (item : Json) :
    (table.viewOfItem item).table = table := by
  cases item <;> rfl

private theorem owner_viewOfItem (table : SymbolTable) (item : Json) :
    (table.viewOfItem item).owner = item.reportScope := by
  cases item <;> rfl

theorem locals_viewOfItem (table : SymbolTable) (item : Json) :
    (table.viewOfItem item).locals = (item.scope?.map table.localNames).getD ∅ := by
  cases item with
  | null | bool | num | str | arr => rfl
  | obj script => exact table.localsOfView_eq script

end SymbolTable

namespace SymbolTable.AgreesOff

variable {function : String} {left right : SymbolTable} (agree : left.AgreesOff function right)

include agree

theorem locals_viewOfItem {item : Json} (owner : item.scope? ≠ some (.function function)) :
    (left.viewOfItem item).locals = (right.viewOfItem item).locals := by
  rw [SymbolTable.locals_viewOfItem, SymbolTable.locals_viewOfItem]
  cases defined : item.scope? with
  | none => rfl
  | some scope =>
      have different : scope ≠ .function function := by
        rintro rfl
        exact owner defined
      simp only [Option.map_some, Option.getD_some, localNames, agree.localNames? scope different]

private theorem change_viewOfItem {item : Json} {site : Site}
    (elsewhere : site.mayMeanLocalOf function item.scope? = false) :
    (left.viewOfItem item).change site = (right.viewOfItem item).change site := by
  apply ScopeView.change_of_settled
  apply ScopeView.settled_of_agreesOff
  · rwa [table_viewOfItem, table_viewOfItem]
  · rw [owner_viewOfItem, owner_viewOfItem]
  · rintro rfl
    apply agree.locals_viewOfItem
    simpa [Site.mayMeanLocalOf] using elsewhere
  · rintro rfl
    simp [Site.mayMeanLocalOf] at elsewhere

theorem redact_resolveScoped {item : Json} (distinct : item.DistinctKeys)
    {hidden : List Json.Step → Bool}
    (elsewhere : ∀ path site, item.siteAt? path = some site → hidden path = false →
      site.mayMeanLocalOf function item.scope? = false) :
    (left.resolveScoped item).value.redact hidden =
      (right.resolveScoped item).value.redact hidden := by
  rw [value_resolveScoped, value_resolveScoped]
  apply Json.redact_placeRewrite (left.viewOfItem item).leafwise_change
    (right.viewOfItem item).leafwise_change hidden {} _ distinct.countedItem
  intro path site value reference _ shown
  have original := (Json.siteAt?_countedItem reference).1
  exact congrFun (agree.change_viewOfItem (elsewhere path site original shown)) value

theorem resolveScoped_eq {item : Json} (distinct : item.DistinctKeys)
    (elsewhere : ∀ path site, item.siteAt? path = some site →
      site.mayMeanLocalOf function item.scope? = false) :
    left.resolveScoped item = right.resolveScoped item := by
  have value : (left.resolveScoped item).value = (right.resolveScoped item).value := by
    rw [← Json.redact_nothing (left.resolveScoped item).value,
      ← Json.redact_nothing (right.resolveScoped item).value]
    apply agree.redact_resolveScoped distinct
    intro path site reference _
    exact elsewhere path site reference
  -- What is reported can be read off the value before and after.
  have unresolved :
      (left.resolveScoped item).unresolved = (right.resolveScoped item).unresolved := by
    rw [left.unresolved_resolveScoped distinct, right.unresolved_resolveScoped distinct, value]
  exact congrArg₂ Resolution.mk value unresolved

private theorem at?_resolveScoped {item value : Json} {path : List Json.Step}
    (held : item.at? path = some value) (leaf : value.IsLeaf)
    (elsewhere : ∀ site, item.siteAt? path = some site →
      site.mayMeanLocalOf function item.scope? = false) :
    (left.resolveScoped item).value.at? path = (right.resolveScoped item).value.at? path := by
  rw [value_resolveScoped, value_resolveScoped]
  have leftAt := Json.at?_placeRewrite (left.viewOfItem item).leafwise_change {}
    item.countedItem path
  have rightAt := Json.at?_placeRewrite (right.viewOfItem item).leafwise_change {}
    item.countedItem path
  refine leftAt.trans (Eq.trans ?_ rightAt.symm)
  cases found : item.countedItem.at? path with
  | none => rfl
  | some counted =>
      have countedLeaf := Json.isLeaf_at?_countedItem held leaf found
      simp only [Option.map_some, Place.rewrite, Json.rewrite_of_isLeaf _ _ countedLeaf]
      cases reference : (item.countedItem.placeAt {} path).site? with
      | none => rfl
      | some site =>
          have original := (Json.siteAt?_countedItem reference).1
          simp only [Site.changed, agree.change_viewOfItem (elsewhere site original)]

end SymbolTable.AgreesOff

def Resolution.ofItems (resolutions : List Resolution) : Resolution :=
  ⟨.arr (resolutions.map (·.value)), resolutions.flatMap (·.unresolved)⟩

def SymbolTable.resolveItem (table : SymbolTable) (item : Json) : Resolution :=
  table.resolveScoped item.eraseAnnotations

theorem SymbolTable.resolve_arr_eq_ofItems (table : SymbolTable) (scripts : List Json) :
    table.resolve (.arr scripts) = .ofItems (scripts.map table.resolveItem) := by
  simp only [resolve_arr, Resolution.ofItems, List.map_map, List.flatMap_map]
  rfl

namespace Json

private theorem child?_eraseAnnotations_arr (scripts : List Json) (index : Nat) :
    (Json.arr scripts).eraseAnnotations.child? (.item index) =
      scripts[index]?.map eraseAnnotations := by
  simp only [eraseAnnotations, child?, eraseItemAnnotations_eq_map, List.getElem?_map]

private theorem mayMeanLocalOf_of_mayBeLocalTo {function : String} {scripts script : Json}
    {step : Step} (child : scripts.child? step = some script) {path : List Step} {site : Site}
    (reference : script.siteAt? path = some site)
    (elsewhere : scripts.mayBeLocalTo function (step :: path) = false) :
    site.mayMeanLocalOf function script.scope? = false := by
  simpa [mayBeLocalTo, child, reference] using elsewhere

end Json

namespace SymbolTable.AgreesOff

variable {function : String} {left right : SymbolTable} (agree : left.AgreesOff function right)

include agree

private theorem redact_resolve (scripts : ScriptList) :
    (left.resolve (.arr scripts.items)).value.redact
        ((Json.arr scripts.items).eraseAnnotations.mayBeLocalTo function) =
      (right.resolve (.arr scripts.items)).value.redact
        ((Json.arr scripts.items).eraseAnnotations.mayBeLocalTo function) := by
  simp only [resolve_arr, Json.redact]
  apply congrArg Json.arr
  apply Json.redactItems_map_congr
  intro index script listed
  rw [Nat.zero_add]
  have member := List.mem_of_getElem? listed
  apply agree.redact_resolveScoped (scripts.distinctKeys_eraseAnnotations member)
  intro path site reference elsewhere
  have child := Json.child?_eraseAnnotations_arr scripts.items index
  rw [listed, Option.map_some] at child
  exact Json.mayMeanLocalOf_of_mayBeLocalTo child reference elsewhere

private theorem at?_resolve_of_binding {scripts : List Json} {path : List Json.Step}
    {callee name : String}
    (reference : (Json.arr scripts).eraseAnnotations.siteAt? path =
      some (.binding (some (.str callee))))
    (other : callee ≠ function)
    (held : (Json.arr scripts).eraseAnnotations.at? path = some (.str name)) :
    (left.resolve (.arr scripts)).value.at? path =
      (right.resolve (.arr scripts)).value.at? path := by
  simp only [Json.eraseAnnotations, Json.eraseItemAnnotations_eq_map] at reference held
  obtain ⟨index, plain, path, rfl, listed, reference⟩ := Json.siteAt?_arr_eq_some_iff.mp reference
  rw [Json.at?_arr_item listed] at held
  have resolved : ∀ table : SymbolTable,
      (scripts.map fun script => (table.resolveScoped script.eraseAnnotations).value)[index]? =
        some (table.resolveScoped plain).value := by
    intro table
    rw [List.getElem?_map] at listed ⊢
    obtain ⟨script, scriptListed, rfl⟩ := Option.map_eq_some_iff.mp listed
    rw [scriptListed, Option.map_some]
  simp only [resolve_arr]
  rw [Json.at?_arr_item (resolved left), Json.at?_arr_item (resolved right)]
  apply agree.at?_resolveScoped held trivial
  intro site sameSite
  obtain rfl := Option.some.inj (reference.symm.trans sameSite)
  simpa [Site.mayMeanLocalOf] using other

end SymbolTable.AgreesOff

/-- Tables that differ in the local names of `function` alone resolve scripts to values that differ
at most in the variables of the scripts of `function` and in the bindings of its calls. -/
theorem SymbolTable.resolve_eq_off_function {function : String} {left right : SymbolTable}
    (agree : left.AgreesOff function right) (scripts : ScriptList) :
    (left.resolve (.arr scripts.items)).value.redact
        ((Json.arr scripts.items).eraseAnnotations.mayBeLocalTo function) =
      (right.resolve (.arr scripts.items)).value.redact
        ((Json.arr scripts.items).eraseAnnotations.mayBeLocalTo function) ∧
    (∀ path callee name,
      (Json.arr scripts.items).eraseAnnotations.siteAt? path =
        some (.binding (some (.str callee))) →
      callee ≠ function →
      (Json.arr scripts.items).eraseAnnotations.at? path = some (.str name) →
      (left.resolve (.arr scripts.items)).value.at? path =
        (right.resolve (.arr scripts.items)).value.at? path) ∧
    (∀ table : SymbolTable,
      table.resolve (.arr scripts.items) = .ofItems (scripts.items.map table.resolveItem)) ∧
    ∀ script ∈ scripts.items, script.scope? ≠ some (.function function) →
      (∀ path, script.eraseAnnotations.siteAt? path ≠ some (.binding (some (.str function)))) →
      left.resolveItem script = right.resolveItem script := by
  refine ⟨agree.redact_resolve scripts, ?_, fun _ => resolve_arr_eq_ofItems _ _, ?_⟩
  · intro path callee name reference other held
    exact agree.at?_resolve_of_binding reference other held
  · intro script member owner uncalled
    apply agree.resolveScoped_eq (scripts.distinctKeys_eraseAnnotations member)
    intro path site reference
    rw [Json.scope?_eraseAnnotations]
    cases site with
    | name kind => exact decide_eq_false fun named => owner named.2
    | binding target =>
        refine decide_eq_false fun called => uncalled path ?_
        rw [reference, called]

/-- A table that knows the parameter `angle` of `draw` and no local names of `turn`. -/
def drawTable : SymbolTable where
  functionNames := ⟨[("draw", 0), ("turn", 1)], by decide⟩
  variableNames := ⟨[("angle", 0)], List.pairwise_singleton _ _⟩
  locals := ⟨[("draw", ⟨[("angle", -1)], List.pairwise_singleton _ _⟩)],
    List.pairwise_singleton _ _⟩

def turnTable : SymbolTable :=
  drawTable.setLocalNames (.function "turn") ⟨[("angle", -7)], List.pairwise_singleton _ _⟩

def angleCall (target : String) : Json :=
  .obj [
    (Key.arguments, .arr [.obj [("value", .obj [(NameKind.variable.key, .str "angle")]),
      (NameKind.variable.key, .str "angle")]]),
    (NameKind.function.key, .str target), (Key.kind, .str callKind)]

def drawingScript : Json :=
  .obj [("body", angleCall "draw"), (Key.kind, .str eventHandlerKind)]

/-- The function `turn` calls `draw`, and the program calls both. -/
def turningScripts : List Json :=
  [.obj [("body", angleCall "draw"), (NameKind.function.key, .str "turn"),
      (Key.kind, .str NameKind.function.key)],
    .obj [("body", angleCall "turn"), (Key.kind, .str eventHandlerKind)],
    drawingScript]

def bindingInTurn : List Json.Step :=
  [.item 0, .field "body", .field Key.arguments, .item 0, .field NameKind.variable.key]

theorem SymbolTable.resolve_eq_off_function_turn :
    drawTable.AgreesOff "turn" turnTable ∧ (Json.arr turningScripts).DistinctKeys ∧
      (drawTable.resolve (.arr turningScripts)).value ≠
        (turnTable.resolve (.arr turningScripts)).value ∧
      (drawTable.resolve (.arr turningScripts)).value.redact
          ((Json.arr turningScripts).eraseAnnotations.mayBeLocalTo "turn") =
        (turnTable.resolve (.arr turningScripts)).value.redact
          ((Json.arr turningScripts).eraseAnnotations.mayBeLocalTo "turn") ∧
      (drawTable.resolve (.arr turningScripts)).value.at? bindingInTurn =
        (turnTable.resolve (.arr turningScripts)).value.at? bindingInTurn ∧
      drawTable.resolveItem drawingScript = turnTable.resolveItem drawingScript := by
  have agree := drawTable.agreesOff_setLocalNames "turn"
    ⟨[("angle", -7)], List.pairwise_singleton _ _⟩
  have distinct : (Json.arr turningScripts).DistinctKeys := by decide
  obtain ⟨outside, bindings, -, others⟩ :=
    resolve_eq_off_function agree ⟨turningScripts, distinct⟩
  have isBinding : (Json.arr turningScripts).eraseAnnotations.siteAt? bindingInTurn =
      some (.binding (some (.str "draw"))) := by decide
  have holds : (Json.arr turningScripts).eraseAnnotations.at? bindingInTurn =
      some (.str "angle") := by decide
  have binding := bindings bindingInTurn "draw" "angle" isBinding (by decide) holds
  have uncalled : ∀ reference ∈ drawingScript.eraseAnnotations.references .value,
      reference.site ≠ .binding (some (.str "turn")) := by decide
  have listed : drawingScript ∈ turningScripts := by decide
  refine ⟨agree, distinct, by decide, outside, binding, ?_⟩
  apply others drawingScript listed (by decide)
  intro path called
  obtain ⟨value, found⟩ := Json.exists_at?_of_placeAt called
  exact uncalled _ (Json.mem_references_of_siteAt? called found) rfl

end BlockNames
