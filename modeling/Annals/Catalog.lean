import Annals.Event
/-!
# Catalogs of events

A catalog is a list of categories, each with the events that belong to it. It is read from a
document and never changes.

* `Catalog.find?`: an event of any category.
* `Catalog.eventsOf`: the events of one category.
* `Category.candidates`: the events that a category may begin a chain with.
-/

namespace Annals

/-- A category and its events in document order. -/
structure Category where
  name : String
  events : List Definition
deriving DecidableEq

/-- The events of a category that are not reserved for follow-ups. -/
def Category.candidates (c : Category) : List Definition :=
  c.events.filter fun d => !d.followUpOnly

/-- All categories in document order. -/
structure Catalog where
  categories : List Category
deriving DecidableEq

namespace Catalog

/-- The catalog without categories. -/
def empty : Catalog := { categories := [] }

/-- All events, category by category. -/
def events (c : Catalog) : List Definition := c.categories.flatMap (·.events)

/-- The event with an id. -/
def find? (c : Catalog) (id : String) : Option Definition := c.events.find? fun d => d.id == id

/-- Whether there is an event with an id. -/
def contains (c : Catalog) (id : String) : Bool := c.events.any fun d => d.id == id

/-- The category with a name. -/
def category? (c : Catalog) (name : String) : Option Category :=
  c.categories.find? fun k => k.name == name

/-- The events of a category; none for an unknown one. -/
def eventsOf (c : Catalog) (name : String) : List Definition :=
  ((c.category? name).map (·.events)).getD []

/-- The number of events. -/
def size (c : Catalog) : Nat := c.events.length

end Catalog

end Annals
