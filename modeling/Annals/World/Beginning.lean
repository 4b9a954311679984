import Annals.World.Effect
/-!
# The world at the beginning of a run
-/

namespace Annals.World

/-- The stats of the regions. -/
def firstRegions : List (String × List (String × Int64)) := [
  ("Northern Mountains", [("magical_energy", 30), ("trade", 40), ("fertility", 20),
    ("creature_diversity", 50), ("dragon_activity", 10)]),
  ("Central Valley", [("magical_energy", 50), ("trade", 70), ("fertility", 80),
    ("creature_diversity", 40)]),
  ("Eastern Forests", [("magical_energy", 60), ("trade", 30), ("fertility", 55),
    ("creature_diversity", 40)]),
  ("Southern Plains", [("magical_energy", 20), ("trade", 60), ("fertility", 70),
    ("creature_diversity", 30)]),
  ("Western Deserts", [("magical_energy", 40), ("trade", 40), ("fertility", 10),
    ("creature_diversity", 20)]),
  ("Coastal Regions", [("magical_energy", 30), ("trade", 80), ("fertility", 50),
    ("creature_diversity", 50)])]

/-- The numeric stats of the factions. -/
def firstFactions : List (String × List (String × Int64)) := [
  ("Mages' Guild", [("power", 60), ("influence", 65), ("stability", 70)]),
  ("Noble Houses", [("power", 65), ("influence", 70), ("stability", 75)]),
  ("Merchant League", [("power", 55), ("influence", 60), ("stability", 80),
    ("trade_income", 70)]),
  ("Rangers' Order", [("power", 55), ("influence", 50), ("stability", 85)]),
  ("Temple of Light", [("power", 55), ("influence", 75), ("stability", 85)]),
  ("Dark Brotherhood", [("power", 50), ("influence", 40), ("stability", 40)])]

/-- The world with numeric stats set for owners of one kind. -/
def settle (side : Side) (owners : List (String × List (String × Int64))) (w : World) : World :=
  owners.foldl (fun w owner =>
    owner.2.foldl (fun w stat => w.setStat side owner.1 stat.1 (.number stat.2)) w) w

/-- The world in which a run begins. -/
def beginning (year : Year) : World :=
  (((blank year).settle .region firstRegions).settle .faction firstFactions).setStat
    .faction "Mages' Guild" Effect.leaderStat (.text "Archmage Eldrin")

end Annals.World
