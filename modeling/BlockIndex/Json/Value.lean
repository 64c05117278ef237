import BlockIndex.Number.Double

/-! JSON values.  A number without a point and an exponent is whole and exact; any other is a number in
binary.  The members of an object keep the order in which their names first came. -/

namespace BlockIndex

inductive Json where
  | null
  | bool (b : Bool)
  | whole (n : Int)
  | real (x : Double)
  | text (s : String)
  | array (elements : List Json)
  | object (members : List (String × Json))
  deriving Inhabited

namespace Json

/-- The members with one more, which takes the place of an earlier one of the same name. -/
def setMember (name : String) (value : Json) : List (String × Json) → List (String × Json)
  | [] => [(name, value)]
  | m :: ms => if m.1 = name then (name, value) :: ms else m :: setMember name value ms

def ofOption : Option String → Json
  | some s => .text s
  | none => .null

/-- Whether a value counts as nothing: null, false, zero, and what is empty. -/
def isEmpty : Json → Bool
  | null => true
  | bool b => !b
  | whole n => n == 0
  | real x => x.isZero
  | text s => s.isEmpty
  | array xs => xs.isEmpty
  | object ms => ms.isEmpty

end Json

end BlockIndex
