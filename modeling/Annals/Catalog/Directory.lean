import Annals.Catalog.Reader
import Annals.Table
/-!
# Catalogs with an index

A directory is a catalog together with the places of its events by id, so that an event is found
without a search. It is read from the same documents. The index is filled while the catalog is being
read: an event has its place in the index before its category has been added to the catalog.

* `Place`, `Catalog.at?`: where an event stands, and the event that stands there.
* `Directory.find?`, `Directory.candidatesOf`: events by id and by category.
* `Directory.ofJson`, `Directory.ofText`: reading a directory.
-/

namespace Annals

/-- Where an event stands: the number of its category, and its own number there. -/
structure Place where
  category : Nat
  event : Nat
deriving DecidableEq, Repr

/-- The event at a place. -/
def Catalog.at? (c : Catalog) (p : Place) : Option Definition :=
  c.categories[p.category]?.bind fun k => k.events[p.event]?

/-- A catalog and the places of its events. -/
structure Directory where
  catalog : Catalog
  places : Table Place
deriving DecidableEq

namespace Directory

/-- The directory without categories. -/
def empty : Directory := { catalog := .empty, places := .empty }

/-! ## Questions -/

/-- The event with an id. -/
def find? (d : Directory) (id : String) : Option Definition := (d.places.get? id).bind d.catalog.at?

/-- Whether there is an event with an id. -/
def contains (d : Directory) (id : String) : Bool := (d.places.get? id).isSome

/-- The number of events. -/
def size (d : Directory) : Nat := d.places.toList.length

/-- All events, category by category. -/
def events (d : Directory) : List Definition := d.catalog.events

/-- The events of a category; none for an unknown one. -/
def eventsOf (d : Directory) (name : String) : List Definition := d.catalog.eventsOf name

/-- The events that a category may begin a chain with. -/
def candidatesOf (d : Directory) (name : String) : List Definition :=
  (d.eventsOf name).filter fun e => !e.followUpOnly

/-! ## Reading -/

/-- Why a directory is not read. -/
inductive Halt where
  /-- The document is refused. -/
  | refused (fault : CatalogFault)
  /-- A category was looked up at a number that no category has yet. -/
  | noCategoryAt (number : Nat)

/-- Reads the events of a category behind those that have been read of it. The category is going to
be added behind the categories that are there. -/
def readEvents (categories : List Category) (name : String) :
    List (String × Json) → List Definition → Table Place →
      Except Halt (List Definition × Table Place)
  | [], events, places => .ok (events, places)
  | (id, value) :: rest, events, places => do
    let definition ← (Definition.read ("events." ++ name ++ "." ++ id) id name value).mapError
      .refused
    match places.get? id with
    | some place =>
      match categories[place.category]? with
      | some first => throw (.refused (.duplicateId id first.name name))
      | none => throw (.noCategoryAt place.category)
    | none =>
      readEvents categories name rest (events ++ [definition])
        (places.insert id { category := categories.length, event := events.length })

/-- Reads categories in document order, behind those that have been read. -/
def readCategories : List (String × Json) → Directory → Except Halt Directory
  | [], d => .ok d
  | (name, value) :: rest, d =>
    match value with
    | .obj members => do
      let (events, places) ← readEvents d.catalog.categories name members [] d.places
      readCategories rest { catalog := ⟨d.catalog.categories ++ [{ name, events }]⟩, places }
    | _ => .error (.refused (.schema ("events." ++ name) .categoryNotObject))

/-- The first event with a follow-up that is not in the index, and the first such follow-up. -/
def dangling? (d : Directory) : Option (String × String) :=
  d.events.findSome? fun e =>
    (e.followUps.find? fun f => !d.contains f.event).map fun f => (e.id, f.event)

/-- Reads a directory from a value whose objects have one member per name. -/
def ofJson (j : Json) : Except Halt Directory :=
  match j with
  | .obj _ =>
    match j.member? "events" with
    | none => .error (.refused (.schema "$" .noEvents))
    | some (.obj categories) => do
      let d ← readCategories categories empty
      match d.dangling? with
      | some (event, followUp) => throw (.refused (.danglingFollowUp event followUp))
      | none => return d
    | some _ => .error (.refused (.schema "events" .eventsNotObject))
  | _ => .error (.refused (.schema "$" .rootNotObject))

/-- Reads a directory from a text. -/
def ofText (text : String) : Except Halt Directory :=
  match Json.parse? text with
  | some j => ofJson j.distinct
  | none => .error (.refused .malformed)

end Directory

end Annals
