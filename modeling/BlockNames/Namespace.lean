import BlockNames.OrderedMap

/-!
Namespaces give each name an index. A new name takes the next index of its numbering, and a name
keeps the index it has. A namespace can be read backwards if all its indices belong to the numbering
and no two names share one.
-/
namespace BlockNames

abbrev Namespace := OrderedMap String Int

/-- How names are numbered: 0, 1, 2, … for the names of the whole program, and -1, -2, -3, … for
those of one scope. -/
inductive Numbering
  | ascending
  | descending
deriving DecidableEq

namespace Numbering

/-- The index of the name in this place of the sequence, counted from zero. -/
def index (numbering : Numbering) (position : Nat) : Int :=
  match numbering with
  | .ascending => position
  | .descending => -position - 1

def admits (numbering : Numbering) (index : Int) : Bool :=
  match numbering with
  | .ascending => 0 ≤ index
  | .descending => index < 0

end Numbering

/-- Why a namespace cannot be read backwards. -/
inductive NumberingFault
  | wrongSign (index : Int) (name : String)
  | sharedIndex (index : Int) (earlier later : String)
deriving DecidableEq

namespace Namespace

def declare (numbering : Numbering) (names : Namespace) (name : String) : Namespace :=
  names.insertIfNew name (numbering.index names.size)

def declareAll (numbering : Numbering) (names : Namespace) (declared : List String) : Namespace :=
  declared.foldl (declare numbering) names

def declaredIndex (numbering : Numbering) (names : Namespace) (name : String) : Int :=
  (names.get? name).getD (numbering.index names.size)

def nameOf? (names : Namespace) (index : Int) : Option String :=
  (names.entries.find? (·.2 = index)).map (·.1)

def faultAfter? (numbering : Numbering) (earlier : List (String × Int)) :
    (entries : List (String × Int)) → Option NumberingFault
  | [] => none
  | (name, index) :: rest =>
      if numbering.admits index then
        match earlier.find? (·.2 = index) with
        | some (holder, _) => some (.sharedIndex index holder name)
        | none => faultAfter? numbering (earlier ++ [(name, index)]) rest
      else
        some (.wrongSign index name)

/-- The first entry in name order that is out of the numbering or repeats an index. -/
def fault? (numbering : Numbering) (names : Namespace) : Option NumberingFault :=
  faultAfter? numbering [] names.entries

@[simp] theorem declareAll_nil (numbering : Numbering) (names : Namespace) :
    names.declareAll numbering [] = names := rfl

@[simp] theorem declareAll_cons (numbering : Numbering) (names : Namespace)
    (name : String) (rest : List String) :
    names.declareAll numbering (name :: rest) =
      (names.declare numbering name).declareAll numbering rest := rfl

theorem get?_declare (numbering : Numbering) (names : Namespace) (name probe : String) :
    (names.declare numbering name).get? probe =
      if probe = name then some (names.declaredIndex numbering name) else names.get? probe :=
  OrderedMap.get?_insertIfNew names name probe _

end Namespace

end BlockNames
