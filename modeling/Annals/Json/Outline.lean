/-!
# Outlines of JSON values

An outline says which parts of a value its reader wants: everything, or of a record only the
members that are its fields. What no outline asks for need not be read.

* `Outline.member?`, `Outline.first`, `Outline.later`: what is wanted of the parts of a value.
* `Outline.plain`: a record whose fields are wanted whole.
-/

namespace Annals.Json

/-- Which parts of a value are wanted. -/
inductive Outline where
  /-- All of the value. -/
  | whole
  /-- The members with these names, each in an outline of its own. An array lists them in this
  order. -/
  | record (fields : List (String × Outline))
  /-- Items of one outline. -/
  | list (item : Outline)

namespace Outline

/-- A record whose fields are all wanted whole. -/
def plain (names : List String) : Outline := .record (names.map fun name => (name, .whole))

/-- The names of a record's fields. -/
def names : Outline → List String
  | .record fields => fields.map (·.1)
  | _ => []

/-- What is wanted of an object's member; nothing for a name that is no field of a record. -/
def member? (name : String) : Outline → Option Outline
  | .record fields => fields.lookup name
  | _ => some .whole

/-- What is wanted of the first item of an array. -/
def first : Outline → Outline
  | .record (field :: _) => field.2
  | .list item => item
  | _ => .whole

/-- What is wanted of the items behind the first. -/
def later : Outline → Outline
  | .record (_ :: fields) => .record fields
  | other => other

end Outline

end Annals.Json
