import BlockNames.Script.Kind

/-!
Where scripts refer to names. A block refers by its fields `variable`, `list`, `image` and
`function`; a call refers to its target by `function` and to the parameters of the target by the
`variable` of each object in its argument list. Such an object is a binding and never a block. All
values are searched for further blocks and calls.
-/
namespace BlockNames

/-- What a reference is: a name of a kind, or the parameter of a call's target. The target is the
value that the call holds, or `none` if it holds no target. -/
inductive Site
  | name (kind : NameKind)
  | binding (target : Option Json)
deriving DecidableEq

/-- The kind of name that the field of a reference holds. -/
def Site.field : Site → NameKind
  | .name kind => kind
  | .binding _ => .variable

/-- A place that may hold a reference, with the value found there. -/
structure Reference where
  site : Site
  value : Json
deriving DecidableEq

inductive Shape
  | block
  | call (target : Option Json)
  | binding (target : Option Json)
deriving DecidableEq

inductive Role
  | value
  /-- What a call holds for its argument list. -/
  | arguments (target : Option Json)
  /-- An entry of an argument list. -/
  | argument (target : Option Json)
deriving DecidableEq

/-- A call is an object of its own kind; any other object is a block. -/
def Shape.ofFields (fields : Json.Fields) : Shape :=
  if fields.string? Key.kind = some callKind then
    .call (fields.lookup NameKind.function.key)
  else
    .block

def Role.item : Role → Role
  | .arguments target => .argument target
  | .value | .argument _ => .value

def Role.shape (role : Role) (fields : Json.Fields) : Shape :=
  match role with
  | .argument target => .binding target
  | .value | .arguments _ => Shape.ofFields fields

def Shape.role (shape : Shape) (key : String) : Role :=
  match shape with
  | .call target => if key = Key.arguments then .arguments target else .value
  | .block | .binding _ => .value

def Shape.site? (shape : Shape) (key : String) : Option Site :=
  match shape with
  | .block => (NameKind.ofKey? key).map .name
  | .call _ => if key = NameKind.function.key then some (.name .function) else none
  | .binding target => if key = NameKind.variable.key then some (.binding target) else none

/-- The changed value of a field that may be a reference. -/
def Site.changed (change : Site → Json → Json) : Option Site → Json → Json
  | none, value => value
  | some site, value => change site value

mutual
def Json.rewrite (change : Site → Json → Json) (role : Role) : Json → Json
  | .arr items => .arr (Json.rewriteItems change role.item items)
  | .obj fields => .obj (Json.rewriteFields change (role.shape fields) fields)
  | .null => .null
  | .bool value => .bool value
  | .num value => .num value
  | .str value => .str value

def Json.rewriteItems (change : Site → Json → Json) (role : Role) : List Json → List Json
  | [] => []
  | item :: rest => Json.rewrite change role item :: Json.rewriteItems change role rest

def Json.rewriteFields (change : Site → Json → Json) (shape : Shape) :
    List (String × Json) → List (String × Json)
  | [] => []
  | (key, value) :: rest =>
      (key, Site.changed change (shape.site? key) (Json.rewrite change (shape.role key) value)) ::
        Json.rewriteFields change shape rest
end

/-! References are listed in the order in which reports mention them: those of an object before
those inside its values, and the bindings of a call before its target. -/

/-- The bindings of a call's argument list. -/
def Json.bindings (target : Option Json) (arguments : Option Json) : List Reference :=
  ((arguments.bind Json.items?).getD []).filterMap fun argument =>
    (argument.fields?.bind (·.lookup NameKind.variable.key)).map (⟨.binding target, ·⟩)

/-- The references that an object is asked for before its values are searched. A binding is asked
for as part of its call. -/
def Shape.references (shape : Shape) (fields : Json.Fields) : List Reference :=
  match shape with
  | .block =>
      NameKind.all.filterMap fun kind => (fields.lookup kind.key).map (⟨.name kind, ·⟩)
  | .call target =>
      Json.bindings target (fields.lookup Key.arguments) ++
        ((fields.lookup NameKind.function.key).map (⟨.name .function, ·⟩)).toList
  | .binding _ => []

mutual
def Json.references (role : Role) : Json → List Reference
  | .arr items => Json.itemReferences role.item items
  | .obj fields =>
      (role.shape fields).references fields ++
        Json.fieldReferences (role.shape fields) fields
  | .null | .bool _ | .num _ | .str _ => []

def Json.itemReferences (role : Role) : List Json → List Reference
  | [] => []
  | item :: rest => Json.references role item ++ Json.itemReferences role rest

def Json.fieldReferences (shape : Shape) : List (String × Json) → List Reference
  | [] => []
  | (key, value) :: rest =>
      Json.references (shape.role key) value ++ Json.fieldReferences shape rest
end

end BlockNames
