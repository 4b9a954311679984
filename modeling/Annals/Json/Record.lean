import Annals.Json.Parser
/-!
# Records in JSON

A record with named fields is written as an object. It is read from an object in any member order,
or from an array that lists the fields in their order; members with other names are ignored, and a
field must not occur twice.

A record that is one of several kinds carries its kind in a member called the tag. In an array the
kind comes first.

* `ofText?`: a record from a text.
* `Record.ofJson?`: the fields of a record.
* `Record.need`, `Record.getD`, `Record.nullable`: one field.
* `untag?`: the kind of a tagged record and the value without its tag.
-/

namespace Annals.Json

/-- Reads the parts of a text that a decoder wants, and decodes them. -/
def ofText? {α : Type} (outline : Outline) (decode : Json → Option α) (text : String) :
    Option α :=
  (parse? text outline).bind decode

/-! ## Fields -/

/-- The fields that were found. -/
structure Record where
  fields : List (String × Json)
  /-- The fields were listed in an array; then only fields with a default may be missing. -/
  positional : Bool

namespace Record

/-- The fields of a record with the given field names. An array may be shorter than the names;
items beyond the last name are refused, or ignored when `spare` allows them. -/
def ofJson? (names : List String) (spare : Bool := false) : Json → Option Record
  | .obj members =>
    let known := members.filter fun m => names.contains m.1
    if (known.map (·.1)).Nodup then some { fields := known, positional := false } else none
  | .arr items =>
    if spare || items.length ≤ names.length then
      some { fields := names.zip items, positional := true }
    else none
  | _ => none

variable {α : Type}

/-- A field that must be there. -/
def need (r : Record) (name : String) (decode : Json → Option α) : Option α :=
  (lookup name r.fields).bind decode

/-- A field with a default. -/
def getD (r : Record) (name : String) (decode : Json → Option α) (default : α) : Option α :=
  match lookup name r.fields with
  | some value => decode value
  | none => some default

/-- A field that is nothing when it is missing from an object or `null`. -/
def nullable (r : Record) (name : String) (decode : Json → Option α) : Option (Option α) :=
  match lookup name r.fields with
  | some value => value.nullable? decode
  | none => if r.positional then none else some none

end Record

/-! ## Kinds -/

/-- The kind that a tag names. Inside another tagged record a kind may also be given by its place
in the list of kinds. -/
def kind? (kinds : List String) (nested : Bool) : Json → Option String
  | .str kind => if kinds.contains kind then some kind else none
  | .int place => if nested && 0 ≤ place then kinds[place.toNat]? else none
  | _ => none

/-- The kind of a tagged record, and the record without its tag. -/
def untag? (tag : String) (kinds : List String) (nested : Bool) : Json → Option (String × Json)
  | .obj members =>
    match members.filter fun m => m.1 == tag with
    | [(_, value)] =>
      (kind? kinds nested value).map fun kind => (kind, .obj (members.filter fun m => m.1 != tag))
    | _ => none
  | .arr (value :: rest) => (kind? kinds nested value).map fun kind => (kind, .arr rest)
  | _ => none

/-- One of several words; a word may also be the only member of an object, with the value `null`.
Inside a tagged record an empty object does for `null`. -/
def word? {α : Type} (ofWord? : String → Option α) (nested : Bool) : Json → Option α
  | .str word => ofWord? word
  | .obj [(word, .null)] => ofWord? word
  | .obj [(word, .obj [])] => if nested then ofWord? word else none
  | _ => none

/-- Something that may be missing, as itself or as `null`. -/
def orNull {α : Type} (encode : α → Json) : Option α → Json
  | some value => encode value
  | none => .null

end Annals.Json
