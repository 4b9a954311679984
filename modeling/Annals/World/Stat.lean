/-!
# Stats, their owners and their comparison

A region or a faction owns named stats. A stat is a number or a text; most are numbers.

* `Comparison`: the six ways to compare, with their symbols.
* `Stat`, `Stat.compares`: values, and when a comparison holds between two of them.
* `Side`, `Target`: which kind of owner, and one owner by name.
-/

namespace Annals

/-! ## Comparisons -/

/-- A way to compare two values of one ordered type. -/
inductive Comparison where
  | eq | ne | gt | ge | lt | le
deriving DecidableEq, Repr

namespace Comparison

/-- The six comparisons. -/
def all : List Comparison := [.eq, .ne, .gt, .ge, .lt, .le]

/-- How a comparison is written. -/
def symbol : Comparison → String
  | .eq => "=="
  | .ne => "!="
  | .gt => ">"
  | .ge => ">="
  | .lt => "<"
  | .le => "<="

/-- The comparison of a symbol. -/
def ofSymbol? (s : String) : Option Comparison := all.find? fun c => c.symbol == s

/-- Whether the comparison accepts how the left value stands to the right one. -/
def accepts : Comparison → Ordering → Bool
  | .eq, o => o == .eq
  | .ne, o => o != .eq
  | .gt, o => o == .gt
  | .ge, o => o != .lt
  | .lt, o => o == .lt
  | .le, o => o != .gt

/-- A written comparison reads back. -/
theorem ofSymbol?_symbol (c : Comparison) : ofSymbol? c.symbol = some c := by
  cases c <;> decide

end Comparison

/-! ## Values -/

/-- The value of a stat. -/
inductive Stat where
  | number (value : Int64)
  | text (value : String)
deriving DecidableEq, Repr

namespace Stat

/-- The number of a numeric stat. -/
def number? : Stat → Option Int64
  | .number n => some n
  | .text _ => none

/-- The text of a text stat. -/
def text? : Stat → Option String
  | .number _ => none
  | .text s => some s

/-- Whether a comparison holds. Numbers compare as numbers, texts by code point; a number and a
text are unequal and nothing else. -/
def compares (c : Comparison) : Stat → Stat → Bool
  | .number a, .number b => c.accepts (compare a b)
  | .text a, .text b => c.accepts (compare a b)
  | _, _ => c = .ne

end Stat

/-! ## Owners -/

/-- The two kinds of owners of stats. -/
inductive Side where
  | region
  | faction
deriving DecidableEq, Repr

/-- The kind of owners in texts. -/
def Side.label : Side → String
  | .region => "region"
  | .faction => "faction"

/-- One owner of stats. -/
structure Target where
  side : Side
  name : String
deriving DecidableEq, Repr

/-- The owner as it is named in messages. -/
def Target.describe (t : Target) : String := t.side.label ++ " " ++ t.name

end Annals
