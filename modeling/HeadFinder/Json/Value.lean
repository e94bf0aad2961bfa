import HeadFinder.Numeral.Number

/-! # JSON values

Objects keep the order of their members; each key occurs once.
-/
namespace HeadFinder

/-- A JSON value. -/
inductive Json where
  | null
  | bool (value : Bool)
  | number (value : Number)
  | string (value : String)
  | array (items : List Json)
  | object (members : List (String × Json))
deriving Repr

namespace Json

/-- The members of an object. -/
abbrev Members := List (String × Json)

/-- A value put under a key: in the place of the one that was there, or at the
end. -/
def put (key : String) (value : Json) : Members → Members
  | [] => [(key, value)]
  | (other, old) :: rest =>
    if other = key then (key, value) :: rest else (other, old) :: put key value rest

/-- The value under a key. -/
def find? (key : String) (members : Members) : Option Json :=
  members.lookup key

end Json
end HeadFinder
