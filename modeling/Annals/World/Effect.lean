import Annals.World.Basic
import Annals.Text.Digits
/-!
# Effects

An effect changes the world when its event fires. A number is moved by an amount and then held
between `floor` and `ceiling`; the only other change is a new leader of a faction.

* `Effect.apply`, `Effect.applyAll`: the changed world and what was changed.
-/

namespace Annals

/-- A change that an event makes. -/
inductive Effect where
  /-- Moves a numeric stat by an amount. -/
  | adjust (target : Target) (stat : String) (amount : Int64)
  /-- Names a faction's leader. -/
  | appoint (faction leader : String)
  /-- A kind of effect that this library does not know; it changes nothing. -/
  | unknown (kind : String)
deriving DecidableEq, Repr

/-- What an effect did. -/
inductive Change where
  | adjusted (target : Target) (stat : String) (before after : Int64)
  | appointed (faction : String) (previous : Option String) (leader : String)
  /-- The effect was of an unknown kind, or it was an amount for a text. -/
  | unchanged
deriving DecidableEq, Repr

namespace Effect

/-- The least number a stat has after an effect. -/
def floor : Int64 := 0

/-- The greatest number a stat has after an effect. -/
def ceiling : Int64 := 100

/-- The stat that holds a faction's leader. -/
def leaderStat : String := "leader"

/-- The sum of two words, held at the ends of their range. -/
def addSaturated (a b : Int64) : Int64 :=
  Int64.ofInt (max Int64.minValue.toInt (min Int64.maxValue.toInt (a.toInt + b.toInt)))

/-- A number held between `floor` and `ceiling`. -/
def clamp (n : Int64) : Int64 := if n < floor then floor else if ceiling < n then ceiling else n

/-- Moves a stat. An absent stat counts as zero and is created; a text stays as it is. -/
def adjustStat (target : Target) (stat : String) (amount : Int64) (w : World) : World × Change :=
  match w.stat? target.side target.name stat with
  | some (.text _) => (w, .unchanged)
  | found =>
    let before := (found.bind Stat.number?).getD 0
    let after := clamp (addSaturated before amount)
    (w.setStat target.side target.name stat (.number after), .adjusted target stat before after)

/-- Applies one effect. -/
def apply (w : World) : Effect → World × Change
  | .adjust target stat amount => adjustStat target stat amount w
  | .appoint faction leader =>
    let previous := (w.stat? .faction faction leaderStat).bind Stat.text?
    (w.setStat .faction faction leaderStat (.text leader), .appointed faction previous leader)
  | .unknown _ => (w, .unchanged)

/-- Applies effects one after the other. -/
def applyAll (w : World) : List Effect → World × List Change
  | [] => (w, [])
  | e :: es =>
    let (w, change) := apply w e
    let (w, changes) := applyAll w es
    (w, change :: changes)

/-- The effect in one line. -/
def describe : Effect → String
  | .adjust target stat amount => target.name ++ "." ++ stat ++ " " ++ Text.signed amount.toInt
  | .appoint faction leader => faction ++ " led by " ++ leader
  | .unknown kind => "<" ++ kind ++ ">"

end Effect

end Annals
