import Mathlib.Data.List.Perm.Subperm
import BlockNames.Proofs.DeclaredTable
import BlockNames.Proofs.Restorability
import BlockNames.Proofs.RoundTrip

/-!
Scripts that a restoration made. The arguments that it declares are the first names of their
function. Main statement: the restored scripts declare the table that they were restored with, and
they are resolved to what they were restored from.
-/
namespace BlockNames

theorem nodup_eraseDups (names : List String) : names.eraseDups.Nodup :=
  (Namespace.numberedBy_declareAll .ascending names).nodup

theorem length_eraseDups_le (names : List String) :
    names.eraseDups.length ≤ names.length := by
  have subset : names.eraseDups ⊆ names := fun name member => List.mem_eraseDups.mp member
  exact ((nodup_eraseDups names).subperm subset).length_le

private theorem eraseDups_removeAll_take (names : List String) (count : Nat) :
    (names.removeAll (names.eraseDups.take count)).eraseDups = names.eraseDups.drop count := by
  -- The first name is taken and no longer stands in the rest, where one name less is taken.
  induction count generalizing names with
  | zero => rw [List.take_zero, List.removeAll_nil, List.drop_zero]
  | succ count induction =>
      cases names with
      | nil => rfl
      | cons name rest =>
          have others : (name :: rest).removeAll
              (name :: (rest.filter fun other => !other == name).eraseDups.take count) =
                (rest.filter fun other => !other == name).removeAll
                  ((rest.filter fun other => !other == name).eraseDups.take count) := by
            simp only [List.removeAll, List.filter_filter, List.elem_cons]
            rw [List.filter_cons_of_neg (by simp)]
            apply List.filter_congr
            intro other _
            cases other == name <;> simp
          rw [List.eraseDups_cons, List.take_succ_cons, others, induction, List.drop_succ_cons]

/-- Names and further names are numbered the same if only some of the names come first, provided
that these reach beyond the first list. -/
private theorem eraseDups_take_append (first later : List String) {count : Nat}
    (bound : first.eraseDups.length ≤ count) :
    ((first ++ later).eraseDups.take count ++ later).eraseDups = (first ++ later).eraseDups := by
  let new := later.removeAll first
  let kept := new.eraseDups.take (count - first.eraseDups.length)
  have whole : (first ++ later).eraseDups = first.eraseDups ++ new.eraseDups :=
    List.eraseDups_append
  have taken : (first ++ later).eraseDups.take count = first.eraseDups ++ kept := by
    rw [whole, List.take_append, List.take_of_length_le bound]
  have takenDistinct : (first.eraseDups ++ kept).Nodup := by
    rw [← taken]
    exact (nodup_eraseDups _).sublist (List.take_sublist _ _)
  have remaining : later.removeAll (first.eraseDups ++ kept) = new.removeAll kept := by
    simp only [new, List.removeAll, List.filter_filter]
    apply List.filter_congr
    intro name _
    simp [List.mem_eraseDups]
    exact Bool.and_comm _ _
  calc
    ((first ++ later).eraseDups.take count ++ later).eraseDups
      = (first.eraseDups ++ kept).eraseDups ++ (new.removeAll kept).eraseDups := by
        rw [taken, List.eraseDups_append, remaining]
    _ = first.eraseDups ++ kept ++ new.eraseDups.drop (count - first.eraseDups.length) := by
        rw [eraseDups_of_nodup _ takenDistinct, eraseDups_removeAll_take]
    _ = (first ++ later).eraseDups := by
        rw [List.append_assoc, List.take_append_drop, whole]

theorem Namespace.declareAll_eq_of_eraseDups_eq {numbering : Numbering} {first second : List String}
    (same : first.eraseDups = second.eraseDups) :
    (∅ : Namespace).declareAll numbering first = (∅ : Namespace).declareAll numbering second := by
  have numbered := numberedBy_declareAll numbering first
  rw [same] at numbered
  exact numbered.unique (numberedBy_declareAll numbering second)

namespace InvertibleTable

/-- A script as it comes back: with the declarations of as many arguments as it listed or held. -/
def redeclared (table : InvertibleTable) (script : Json.Fields) : Json.Fields :=
  match table.argumentClaim? script script.argumentCount? with
  | none => script.counted
  | some claim => script.replace Key.arguments (.arr claim.declarations)

def redeclaredItem (table : InvertibleTable) : Json → Json
  | .obj script => .obj (table.redeclared script)
  | item => item

variable {table : InvertibleTable}

private theorem redeclared_of_unclaimed {script : Json.Fields}
    (unclaimed : table.argumentClaim? script script.argumentCount? = none) :
    table.redeclared script = script.counted := by
  unfold redeclared
  rw [unclaimed]

private theorem redeclared_of_claimed {script : Json.Fields} {claim : ArgumentClaim}
    (claimed : table.argumentClaim? script script.argumentCount? = some claim) :
    table.redeclared script = script.replace Key.arguments (.arr claim.declarations) := by
  unfold redeclared
  rw [claimed]

private theorem fault?_eq_none_of_argumentFault? {script : Json.Fields} {claim : ArgumentClaim}
    (claimed : table.argumentClaim? script script.argumentCount? = some claim)
    (sound : table.argumentFault? Json.Fields.argumentCount? (.obj script) = none) :
    claim.fault? = none := by
  unfold argumentFault? at sound
  simpa [Json.fields?, claimed] using sound

theorem restoreScript_resolveScoped_eq_redeclaredItem {item : Json}
    (noIndex : item.EveryReference (·.index? = none) .value)
    (sound : table.argumentFault? Json.Fields.argumentCount? item = none) :
    table.restoreScript (table.toSymbolTable.resolveScoped item).value =
      .ok (table.redeclaredItem item) := by
  cases item with
  | null | bool | num | str | arr => exact table.restoreScript_of_fields?_eq_none rfl noIndex
  | obj script =>
      rw [table.restoreScript_resolveScoped noIndex]
      rw [redeclaredItem]
      have sameClaim := table.argumentClaim?_counted script
      cases claimed : table.argumentClaim? script (Json.Fields.argumentCount? script) with
      | none =>
          rw [restoreScriptArguments_of_unclaimed (sameClaim.trans claimed),
            redeclared_of_unclaimed claimed]
          rfl
      | some claim =>
          rw [restoreScriptArguments_of_claimed (sameClaim.trans claimed),
            fault?_eq_none_of_argumentFault? claimed sound, redeclared_of_claimed claimed]
          simp only [Json.Fields.replace_arguments_counted]
          rfl

private theorem lookup_redeclared_of_ne (script : Json.Fields) {key : String}
    (different : key ≠ Key.arguments) :
    (table.redeclared script).lookup key = script.lookup key := by
  unfold redeclared
  split
  · exact script.lookup_counted_of_ne different
  · exact script.lookup_replace_of_ne _ different

private theorem string?_redeclared (script : Json.Fields) {key : String}
    (different : key ≠ Key.arguments) :
    (table.redeclared script).string? key = script.string? key := by
  unfold Json.Fields.string?
  rw [lookup_redeclared_of_ne script different]

private theorem ofFields_redeclared (script : Json.Fields) :
    ScriptKind.ofFields (table.redeclared script) = ScriptKind.ofFields script := by
  unfold ScriptKind.ofFields
  rw [string?_redeclared script (by decide)]

private theorem ofFields?_redeclared (script : Json.Fields) :
    Scope.ofFields? (table.redeclared script) = Scope.ofFields? script := by
  unfold Scope.ofFields?
  rw [ofFields_redeclared, string?_redeclared script (by decide)]

private theorem declaredName?_redeclared (kind : NameKind) (script : Json.Fields) :
    (table.redeclared script).declaredName? kind = script.declaredName? kind := by
  unfold Json.Fields.declaredName?
  rw [ofFields_redeclared, string?_redeclared script (by cases kind <;> decide)]

end InvertibleTable

theorem Json.Fields.counted_counted (script : Json.Fields) :
    script.counted.counted = script.counted := by
  apply counted_of_unlisted
  intro owner
  rw [ofFields_counted] at owner
  unfold counted countArguments
  rw [if_pos owner]
  split
  next listed =>
    obtain ⟨arguments, held, -⟩ := Option.bind_eq_some_iff.mp listed
    rw [lookup_replace_self, held]
    rfl
  next unlisted => exact unlisted

theorem ArgumentClaim.length_declarations (claim : ArgumentClaim) :
    claim.declarations.length = claim.count := by
  simp [declarations, Namespace.argumentDeclarations]

theorem ArgumentClaim.declarations_eq_take (claim : ArgumentClaim) {names : List String}
    (numbered : claim.locals.NumberedBy .descending names) (sound : claim.fault? = none) :
    claim.declarations = (names.take claim.count).map Json.argumentDeclaration := by
  have bound : claim.count ≤ names.length := by
    rw [← numbered.size_eq]
    exact claim.fault?_eq_none_iff.mp sound
  have length : (names.take claim.count).length = claim.count := by
    rw [List.length_take]
    exact Nat.min_eq_left bound
  rw [← List.take_append_drop claim.count names] at numbered
  have first := numbered.argumentDeclarations
  rwa [length] at first

/-- What a count is read from is the number itself, unless that is too large for an index. -/
private theorem Json.eq_index_of_count? {value : Json} {count : Nat}
    (counted : value.count? = some count)
    (small : ∀ large, value ≠ .num (.oversize count large)) : value = Json.index count := by
  cases value with
  | null | bool | str | arr | obj => cases counted
  | num number =>
      cases number with
      | decimal => cases counted
      | oversize size large =>
          obtain rfl : size = count := Option.some.inj counted
          exact absurd rfl (small large)
      | integer value =>
          rw [Int.mem_toNat?.mp counted]
          rfl

namespace InvertibleTable

variable {table : InvertibleTable}

private theorem lookup_arguments_redeclared {script : Json.Fields} {claim : ArgumentClaim}
    (claimed : table.argumentClaim? script script.argumentCount? = some claim) :
    (table.redeclared script).lookup Key.arguments = some (.arr claim.declarations) := by
  obtain ⟨-, -, count⟩ := argumentClaim?_eq_some_iff.mp claimed
  obtain ⟨arguments, held, -⟩ := Option.bind_eq_some_iff.mp count
  rw [redeclared_of_claimed claimed, Json.Fields.lookup_replace_self, held, Option.map_some]

/-- No argument count that is too large for an index is within the local names. -/
def OversizeExceeds (table : InvertibleTable) (script : Json.Fields) : Prop :=
  ∀ claim count large, table.argumentClaim? script script.argumentCount? = some claim →
    script.lookup Key.arguments = some (.num (.oversize count large)) → claim.locals.size < count

theorem counted_redeclared {script : Json.Fields} (distinct : (script.map Prod.fst).Nodup)
    (sound : table.argumentFault? Json.Fields.argumentCount? (.obj script) = none)
    (oversize : table.OversizeExceeds script) :
    (table.redeclared script).counted = script.counted := by
  cases claimed : table.argumentClaim? script script.argumentCount? with
  | none =>
      rw [redeclared_of_unclaimed claimed]
      exact script.counted_counted
  | some claim =>
      have owner := hasLocals_of_argumentClaim? claimed
      obtain ⟨-, -, count⟩ := argumentClaim?_eq_some_iff.mp claimed
      obtain ⟨arguments, held, count⟩ := Option.bind_eq_some_iff.mp count
      have declared := lookup_arguments_redeclared claimed
      have recounted : (table.redeclared script).counted =
          script.replace Key.arguments (Json.index claim.count) := by
        rw [Json.Fields.counted, ofFields_redeclared, if_pos owner,
          Json.Fields.countArguments_of_declarations declared, claim.length_declarations,
          redeclared_of_claimed claimed]
        exact script.replace_replace _ _ _
      rw [recounted, Json.Fields.counted, if_pos owner]
      -- Listed arguments were counted; a number that was held must be the one that is put back.
      cases listed : arguments.items? with
      | some declarations =>
          have sameCount : declarations.length = claim.count := by simpa [listed] using count
          have heldList := Json.Fields.lookup_eq_some_arr
            (show (script.lookup Key.arguments).bind Json.items? = some declarations by
              rw [held, Option.bind_some, listed])
          rw [Json.Fields.countArguments_of_declarations heldList, sameCount]
      | none =>
          rw [listed, Option.map_none, Option.none_or] at count
          have unlisted : (script.lookup Key.arguments).bind Json.items? = none := by
            rw [held, Option.bind_some, listed]
          have small : ∀ large, arguments ≠ .num (.oversize claim.count large) := by
            rintro large rfl
            have excess := oversize claim _ large claimed held
            have bound := claim.fault?_eq_none_iff.mp
              (fault?_eq_none_of_argumentFault? claimed sound)
            omega
          rw [Json.Fields.countArguments_of_unlisted unlisted]
          apply Json.Fields.replace_eq_self distinct
          rw [held, Json.eq_index_of_count? count small]

theorem resolveScoped_redeclaredItem {item : Json} (distinct : item.DistinctKeys)
    (sound : table.argumentFault? Json.Fields.argumentCount? item = none)
    (oversize : ∀ script, item = .obj script → table.OversizeExceeds script)
    (other : SymbolTable) :
    other.resolveScoped (table.redeclaredItem item) = other.resolveScoped item := by
  cases item with
  | null | bool | num | str | arr => rfl
  | obj script =>
      have counted := counted_redeclared distinct.1 sound (oversize script rfl)
      have view : other.viewOf (table.redeclared script) = other.viewOf script := by
        unfold SymbolTable.viewOf
        rw [ofFields?_redeclared]
      simp only [redeclaredItem, SymbolTable.resolveScoped_obj, counted, view]

private theorem eraseAnnotations_declarations (claim : ArgumentClaim) :
    (Json.arr claim.declarations).eraseAnnotations = .arr claim.declarations := by
  apply congrArg Json.arr
  rw [Json.eraseItemAnnotations_eq_map, ArgumentClaim.declarations,
    Namespace.argumentDeclarations, List.map_map]
  apply List.map_congr_left
  intro position _
  rfl

theorem eraseAnnotations_redeclaredItem {item : Json} (plain : item.eraseAnnotations = item) :
    (table.redeclaredItem item).eraseAnnotations = table.redeclaredItem item := by
  cases item with
  | null | bool | num | str => rfl
  | arr => exact plain
  | obj script =>
      have fieldsPlain : Json.eraseFieldAnnotations script = script := Json.obj.inj plain
      apply congrArg Json.obj
      unfold redeclared Json.Fields.counted
      split
      · split
        · rw [← Json.countArguments_eraseFieldAnnotations, fieldsPlain]
        · exact fieldsPlain
      · rw [Json.eraseFieldAnnotations_replace, fieldsPlain, eraseAnnotations_declarations]

end InvertibleTable

private theorem Json.Fields.items?_eq_none_of_argumentCount? {script : Json.Fields}
    (uncounted : script.argumentCount? = none) :
    (script.lookup Key.arguments).bind Json.items? = none := by
  by_contra listed
  obtain ⟨declarations, listed⟩ := Option.ne_none_iff_exists'.mp listed
  obtain ⟨arguments, held, listed⟩ := Option.bind_eq_some_iff.mp listed
  simp [argumentCount?, held, listed] at uncounted

private theorem Json.Fields.length_declaredNames_arguments_le {script : Json.Fields} {count : Nat}
    (counted : script.argumentCount? = some count) :
    (script.declaredNames Key.arguments).length ≤ count := by
  obtain ⟨arguments, held, counted⟩ := Option.bind_eq_some_iff.mp counted
  unfold declaredNames
  rw [held, Option.bind_some]
  cases listed : arguments.items? with
  | none => simp
  | some declarations =>
      rw [listed, Option.map_some, Option.some_or] at counted
      obtain rfl := Option.some.inj counted
      exact List.length_filterMap_le _ declarations

namespace InvertibleTable

variable {table : InvertibleTable}

private theorem declaredNames_locals_redeclared (script : Json.Fields) :
    (table.redeclared script).declaredNames Key.locals = script.declaredNames Key.locals := by
  unfold Json.Fields.declaredNames
  rw [lookup_redeclared_of_ne script (by decide)]

private theorem eraseDups_localDeclarations_redeclared {script : Json.Fields} {name : String}
    {locals : Namespace}
    (noIndex : Json.EveryFieldReference (·.index? = none) (Shape.ofFields script) script)
    (defines : Scope.ofFields? script = some (.function name))
    (known : table.localNames? (.function name) = some locals)
    (numbered : locals.NumberedBy .descending script.localDeclarations.eraseDups)
    (sound : table.argumentFault? Json.Fields.argumentCount? (.obj script) = none) :
    (table.redeclared script).localDeclarations.eraseDups =
      script.localDeclarations.eraseDups := by
  have defined : table.definedFunction? script = some name :=
    (definedFunction?_eq_some_iff noIndex name).mpr defines
  cases claimed : table.argumentClaim? script script.argumentCount? with
  | none =>
      have uncounted : script.argumentCount? = none := by
        simpa [argumentClaim?, defined, known] using claimed
      have unlisted := Json.Fields.items?_eq_none_of_argumentCount? uncounted
      rw [redeclared_of_unclaimed claimed, Json.Fields.counted_of_unlisted fun _ => unlisted]
  | some claim =>
      obtain ⟨claimDefined, claimKnown, counted⟩ := argumentClaim?_eq_some_iff.mp claimed
      have sameFunction := Option.some.inj (claimDefined.symm.trans defined)
      rw [sameFunction] at claimKnown
      have sameLocals := Option.some.inj (claimKnown.symm.trans known)
      rw [← sameLocals] at numbered
      let names := script.localDeclarations.eraseDups
      have declarations : claim.declarations =
          (names.take claim.count).map Json.argumentDeclaration :=
        claim.declarations_eq_take numbered (fault?_eq_none_of_argumentFault? claimed sound)
      have declared := lookup_arguments_redeclared claimed
      rw [declarations] at declared
      have kind := (Scope.ofFields?_eq_function defines).1
      have before : script.localDeclarations =
          script.declaredNames Key.arguments ++ script.declaredNames Key.locals := by
        simp only [Json.Fields.localDeclarations, kind]
      have after : (table.redeclared script).localDeclarations =
          names.take claim.count ++ script.declaredNames Key.locals := by
        simp only [Json.Fields.localDeclarations, ofFields_redeclared, kind,
          Json.declaredNames_argumentDeclarations declared, declaredNames_locals_redeclared]
      rw [after]
      simp only [names, before]
      apply eraseDups_take_append
      exact Nat.le_trans (length_eraseDups_le _)
        (Json.Fields.length_declaredNames_arguments_le counted)

private theorem fields?_redeclaredItem (item : Json) :
    (table.redeclaredItem item).fields? = item.fields?.map table.redeclared := by
  cases item <;> rfl

private theorem definitions_redeclared (scope : Scope) (scripts : List Json.Fields) :
    scope.definitions (scripts.map table.redeclared) =
      (scope.definitions scripts).map table.redeclared :=
  Scope.definitions_map (fun script => by rw [ofFields?_redeclared]) scripts

theorem ofScripts_redeclaredItem {items : List Json}
    (tableOf : table.toSymbolTable = SymbolTable.ofScripts items)
    (noIndex : ∀ item ∈ items, item.EveryReference (·.index? = none) .value)
    (functions : ((items.filterMap Json.fields?).filterMap
      (Json.Fields.declaredName? .function)).Nodup)
    (sound : ∀ item ∈ items, table.argumentFault? Json.Fields.argumentCount? item = none) :
    SymbolTable.ofScripts (items.map table.redeclaredItem) = SymbolTable.ofScripts items := by
  apply SymbolTable.ext_names
  · intro kind
    rw [SymbolTable.globalNames_ofScripts, SymbolTable.globalNames_ofScripts,
      Json.filterMap_fields?_map fields?_redeclaredItem, List.filterMap_map]
    simp only [Function.comp_def, declaredName?_redeclared]
  · intro scope
    rw [SymbolTable.localNames?_ofScripts, SymbolTable.localNames?_ofScripts,
      Json.filterMap_fields?_map fields?_redeclaredItem, definitions_redeclared]
    simp only [List.map_eq_nil_iff, List.flatMap_map]
    split
    next => rfl
    next defined =>
      apply congrArg some
      -- An event handler declares no arguments, and one script alone declares those of a function.
      cases scope with
      | event =>
          congr 1
          apply List.flatMap_congr
          intro script member
          have kind := (Scope.ofFields?_eq_event_iff script).mp
            (by simpa using (List.mem_filter.mp member).2)
          simp only [Json.Fields.localDeclarations, ofFields_redeclared, kind,
            declaredNames_locals_redeclared]
      | function name =>
          obtain ⟨script, member⟩ := List.exists_mem_of_ne_nil _ defined
          obtain ⟨scriptMember, defines⟩ := List.mem_filter.mp member
          replace defines := of_decide_eq_true defines
          have alone := Scope.definitions_eq_singleton functions scriptMember defines
          have itemMember := Json.mem_filterMap_fields?.mp scriptMember
          have known : table.localNames? (.function name) =
              some ((∅ : Namespace).declareAll .descending script.localDeclarations) := by
            rw [tableOf, SymbolTable.localNames?_ofScripts, if_neg defined, alone,
              List.flatMap_singleton]
          rw [alone, List.flatMap_singleton, List.flatMap_singleton]
          apply Namespace.declareAll_eq_of_eraseDups_eq
          exact eraseDups_localDeclarations_redeclared (noIndex _ itemMember) defines known
            (Namespace.numberedBy_declareAll .descending _) (sound _ itemMember)

end InvertibleTable

end BlockNames
