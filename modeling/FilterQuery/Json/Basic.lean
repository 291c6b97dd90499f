import FilterQuery.Number.Binary64

/-!
# JSON values

Objects are lists of members, so the order in which members are written is part of the value. A number is a
whole number or a double, and a reader tells the two apart by how the number is written.
-/

namespace FilterQuery

inductive Json where
  | null
  | bool (b : Bool)
  | int (n : Int)
  | float (x : Binary64)
  | string (s : String)
  | array (items : List Json)
  | object (members : List (String × Json))
deriving Repr, Inhabited

namespace Json

/-- The object with one member. -/
def single (key : String) (value : Json) : Json := object [(key, value)]

/-- The value of the first member with this key. -/
def member? (key : String) : Json → Option Json
  | object members => (members.find? fun m => m.1 == key).map Prod.snd
  | _ => none

end Json

end FilterQuery
