import Annals.Dice
import Annals.Family.Person
/-!
# Names, homes and genders by chance
-/

namespace Annals

/-- Given names of men. -/
def maleNames : List String := [
  "Baelor", "Draven", "Falathar", "Hadrian", "Jareth", "Lysander", "Nyx", "Oberon",
  "Quintus", "Thorian", "Valerian", "Xander", "Aric", "Caspian", "Finnian", "Haelen",
  "Jorvik", "Kael", "Maelor", "Orion", "Raffael", "Tiberius", "Zaltar", "Aegon",
  "Balin", "Corvus", "Darius", "Eldrin", "Fenris", "Gideon", "Hektor", "Ignis",
  "Jarik", "Kaelan", "Lorien", "Marius", "Nereus", "Osric", "Phelan", "Ragnar",
  "Silas", "Talon", "Ulric", "Viggo", "Wulfric", "Xylon", "Yorath", "Zephyr"]

/-- Given names of women. -/
def femaleNames : List String := [
  "Aeliana", "Caelia", "Elyndra", "Gwendolyn", "Isolde", "Kyra", "Myranda", "Phiala",
  "Rhiannon", "Seraphina", "Ursula", "Wynter", "Ylva", "Zephyra", "Brynn", "Dahlia",
  "Elowen", "Giselle", "Ilaria", "Lyra", "Niamh", "Primrose", "Saoirse", "Ulani",
  "Vespera", "Wren", "Xylia", "Yvaine", "Anya", "Brynja", "Calista", "Demetra",
  "Eira", "Fiona", "Gwyneira", "Hestia", "Iona", "Juno", "Kassandra", "Lilith",
  "Morgana", "Nixie", "Ophelia", "Pandora", "Ravenna", "Selene", "Titania", "Valencia",
  "Winifred", "Xanthe", "Yara", "Zelda"]

/-- The given names of a gender. -/
def Gender.names : Gender → List String
  | .male => maleNames
  | .female => femaleNames

/-- The regions of the world. -/
def regionNames : List String :=
  ["Northern Mountains", "Central Valley", "Eastern Forests", "Southern Plains",
    "Western Deserts", "Coastal Regions"]

/-- The factions of the world. -/
def factionNames : List String :=
  ["Mages' Guild", "Noble Houses", "Merchant League", "Rangers' Order", "Temple of Light",
    "Dark Brotherhood"]

/-- The faction in which dynasties are founded. -/
def royalFaction : String := "Noble Houses"

/-- The region in which dynasties are founded. -/
def royalRegion : String := "Central Valley"

namespace Dice

variable {σ : Type} [Dice σ]

/-- A gender; both are equally likely. -/
def gender (s : σ) : Gender × σ :=
  let (isMale, s) := coin s
  (if isMale then .male else .female, s)

/-- A given name of a gender. -/
def givenName (g : Gender) (s : σ) : String × σ := choose "Unnamed" g.names s

/-- A faction. -/
def faction (s : σ) : String × σ := choose royalFaction factionNames s

/-- A region. -/
def region (s : σ) : String × σ := choose royalRegion regionNames s

end Dice

end Annals
