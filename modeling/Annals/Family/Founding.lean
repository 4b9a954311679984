import Annals.Family.Dynasty
import Annals.Family.Market
/-!
# Founding a dynasty
-/

namespace Annals.Dynasty

/-- The youngest age of a founder. -/
def founderMinAge : Int32 := 20

/-- The greatest age of a founder. -/
def founderMaxAge : Int32 := 40

variable {σ : Type} [Dice σ]

/-- Founds a dynasty with a king and a queen who are married to each other. Both ages are drawn
before the names. -/
def found (name : String) (year : Year) (initialHealth : Int32) (roster : Roster) (dice : σ) :
    Dynasty × Roster × σ :=
  let (kingAge, dice) := Dice.between founderMinAge founderMaxAge dice
  let (queenAge, dice) := Dice.between founderMinAge founderMaxAge dice
  let founder (name : String) (gender : Gender) (age : Int32) : Roster.Arrival :=
    { name, gender, birthYear := year - age, faction := royalFaction, region := royalRegion
      health := initialHealth }
  let (kingName, dice) := Dice.givenName .male dice
  let (king, roster) := roster.spawn (founder kingName .male kingAge)
  let (queenName, dice) := Dice.givenName .female dice
  let (queen, roster) := roster.spawn (founder queenName .female queenAge)
  let roster := (roster.marry king queen).update king fun p => { p with wasMonarch := true }
  (ofCouple name king queen, roster, dice)

/-- Founds dynasties one after the other. -/
def foundAll (year : Year) (initialHealth : Int32) :
    List String → Roster → σ → List Dynasty × Roster × σ
  | [], roster, dice => ([], roster, dice)
  | name :: rest, roster, dice =>
    let (dynasty, roster, dice) := found name year initialHealth roster dice
    let (dynasties, roster, dice) := foundAll year initialHealth rest roster dice
    (dynasty :: dynasties, roster, dice)

end Annals.Dynasty
