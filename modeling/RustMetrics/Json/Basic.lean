/-! JSON documents whose numbers are integers. Objects keep the order of their
fields. -/

namespace RustMetrics

inductive Json where
  | null
  | bool (b : Bool)
  | int (n : Int)
  | str (s : String)
  | arr (items : List Json)
  | obj (fields : List (String × Json))

namespace Json

/-- The value of the first field of a name. -/
def field? (j : Json) (name : String) : Option Json :=
  match j with
  | .obj fields => fields.lookup name
  | _ => none

mutual

/-- The numbers in a document, followed by more. -/
def numbersOnto (rest : List Int) : Json → List Int
  | int n => n :: rest
  | arr items => numbersItemsOnto rest items
  | obj fields => numbersFieldsOnto rest fields
  | _ => rest

def numbersItemsOnto (rest : List Int) : List Json → List Int
  | [] => rest
  | j :: js => numbersOnto (numbersItemsOnto rest js) j

def numbersFieldsOnto (rest : List Int) : List (String × Json) → List Int
  | [] => rest
  | (_, j) :: fs => numbersOnto (numbersFieldsOnto rest fs) j

end

/-- The numbers in a document. -/
def numbers (j : Json) : List Int := numbersOnto [] j

end Json

end RustMetrics
