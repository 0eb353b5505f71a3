import BlockNames.Script.Kind

/-! Annotations of the editor and their removal. -/

namespace BlockNames.Json

mutual
def eraseAnnotations : Json → Json
  | .arr items => .arr (eraseItemAnnotations items)
  | .obj fields => .obj (eraseFieldAnnotations fields)
  | .null => .null
  | .bool value => .bool value
  | .num value => .num value
  | .str value => .str value

def eraseItemAnnotations : List Json → List Json
  | [] => []
  | item :: rest => eraseAnnotations item :: eraseItemAnnotations rest

def eraseFieldAnnotations : List (String × Json) → List (String × Json)
  | [] => []
  | (key, value) :: rest =>
      if key = Key.annotation then eraseFieldAnnotations rest
      else (key, eraseAnnotations value) :: eraseFieldAnnotations rest
end

end BlockNames.Json
