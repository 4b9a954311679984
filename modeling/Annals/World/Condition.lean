import Annals.World.Basic
/-!
# Conditions

A condition is a test of the world. An absent stat reads as the number zero. A named condition
stands for one of a fixed set of stat tests; a name outside it, and a condition of an unknown kind,
never hold.
-/

namespace Annals

/-- A comparison of one stat with a value. -/
structure StatTest where
  side : Side
  owner : String
  stat : String
  comparison : Comparison
  value : Stat
deriving DecidableEq, Repr

/-- A test of the world. -/
inductive Condition where
  /-- Compares the year. -/
  | year (comparison : Comparison) (value : Int64)
  /-- Compares a stat. -/
  | stat (test : StatTest)
  /-- Refers to a named condition. -/
  | named (name : String)
  /-- A kind of condition that this library does not know. -/
  | unknown (kind : String)
deriving DecidableEq, Repr

/-- Whether the stat compares as demanded; an absent stat counts as the number zero. -/
def StatTest.holds (t : StatTest) (w : World) : Bool :=
  ((w.stat? t.side t.owner t.stat).getD (.number 0)).compares t.comparison t.value

namespace Condition

/-- The named conditions, in the order of their names. -/
def library : List (String × StatTest) :=
  [ ("magical_instability",
      { side := .region, owner := "Central Valley", stat := "magical_energy"
        comparison := .ge, value := .number 80 }),
    ("realm_in_crisis",
      { side := .faction, owner := "Noble Houses", stat := "stability"
        comparison := .le, value := .number 30 }) ]

/-- The test behind a name. -/
def named? (name : String) : Option StatTest := library.lookup name

/-- Whether the condition holds in a world. -/
def holds (w : World) : Condition → Bool
  | .year comparison value => comparison.accepts (compare (Int64.ofInt w.year.toInt) value)
  | .stat test => test.holds w
  | .named name =>
    match named? name with
    | some test => test.holds w
    | none => false
  | .unknown _ => false

/-- Whether all conditions of a list hold. -/
def allHold (w : World) (cs : List Condition) : Bool := cs.all (holds w)

end Condition

end Annals
