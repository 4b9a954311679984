/-!
# JSON values

A JSON value whose objects keep the order of their members.

* `Json.member?`: the value of a name.
* `Json.distinct`: the value with one member per name: a later member replaces the value of an
  earlier one of the same name and keeps its place.
* `Json.str?`, `Json.int?`, …: the payload of a value of one shape.
-/

namespace Annals

/-- A JSON value. An object is the list of its members in document order. -/
inductive Json where
  | null
  | bool (value : Bool)
  /-- A number without fraction or exponent. -/
  | int (value : Int)
  /-- Any other number. -/
  | float (value : Float)
  | str (value : String)
  | arr (items : List Json)
  | obj (members : List (String × Json))
deriving Inhabited

namespace Json

/-! ## Members -/

/-- The value of the first member called `name`. -/
def lookup (name : String) : List (String × Json) → Option Json
  | [] => none
  | (key, value) :: rest => if key = name then some value else lookup name rest

/-- The value of an object's member; other values have no members. -/
def member? (name : String) : Json → Option Json
  | .obj members => lookup name members
  | _ => none

/-- Puts a member into a list of members: in the place of one with that name, else at the end. -/
def put (name : String) (value : Json) : List (String × Json) → List (String × Json)
  | [] => [(name, value)]
  | (key, old) :: rest =>
    if key = name then (key, value) :: rest else (key, old) :: put name value rest

mutual

/-- One member per name in every object: the last value wins and the first place is kept. -/
def distinct : Json → Json
  | .arr items => .arr (distinctItems items)
  | .obj members => .obj ((distinctMembers members).foldl (fun out m => put m.1 m.2 out) [])
  | other => other

/-- `distinct` in every item. -/
def distinctItems : List Json → List Json
  | [] => []
  | item :: rest => distinct item :: distinctItems rest

/-- `distinct` in the value of every member. -/
def distinctMembers : List (String × Json) → List (String × Json)
  | [] => []
  | (key, value) :: rest => (key, distinct value) :: distinctMembers rest

end

/-! ## Payloads -/

/-- Whether the value is `null`. -/
def isNull : Json → Bool
  | .null => true
  | _ => false

/-- The text of a string. -/
def str? : Json → Option String
  | .str value => some value
  | _ => none

/-- The truth value of a boolean. -/
def bool? : Json → Option Bool
  | .bool value => some value
  | _ => none

/-- The value of a number written as an integer. -/
def int? : Json → Option Int
  | .int value => some value
  | _ => none

/-- The items of an array. -/
def arr? : Json → Option (List Json)
  | .arr items => some items
  | _ => none

/-- The members of an object. -/
def obj? : Json → Option (List (String × Json))
  | .obj members => some members
  | _ => none

/-- An integer between two bounds. -/
def intWithin? (low high : Int) (j : Json) : Option Int :=
  j.int?.filter fun n => low ≤ n && n ≤ high

/-- An integer of 32 bits with sign. -/
def int32? (j : Json) : Option Int32 :=
  (j.intWithin? Int32.minValue.toInt Int32.maxValue.toInt).map Int32.ofInt

/-- An integer of 64 bits with sign. -/
def int64? (j : Json) : Option Int64 :=
  (j.intWithin? Int64.minValue.toInt Int64.maxValue.toInt).map Int64.ofInt

/-- An integer of 32 bits without sign. -/
def uint32? (j : Json) : Option UInt32 :=
  (j.intWithin? 0 (UInt32.size - 1)).map fun n => UInt32.ofNat n.toNat

/-- An integer of 64 bits without sign. -/
def uint64? (j : Json) : Option UInt64 :=
  (j.intWithin? 0 (UInt64.size - 1)).map fun n => UInt64.ofNat n.toNat

/-- A number of either spelling as a double. -/
def float? : Json → Option Float
  | .float value => some value
  | .int value => some (Float.ofInt value)
  | _ => none

/-- An array whose items all decode. -/
def list? {α : Type} (item? : Json → Option α) (j : Json) : Option (List α) :=
  j.arr?.bind fun items => items.mapM item?

/-- `null` as nothing, anything else decoded. -/
def nullable? {α : Type} (value? : Json → Option α) : Json → Option (Option α)
  | .null => some none
  | other => (value? other).map some

end Json

end Annals
