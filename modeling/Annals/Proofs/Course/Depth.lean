import Annals.Proofs.Catalog.Loaded
import Annals.Proofs.Course.Years
import Mathlib.Data.Nat.Init
/-!
# Years within their depth

The greatest depth cuts chains of follow-ups of the same year. Where no such chain can be longer
than that, nothing is cut, and a year with a greater depth is the same year: its world, its queue,
its report, its fault and the state of the dice.

* `Catalog.LeadsTo`: an event that can set off another in the same year.
* `Catalog.EndsWithin`, `Catalog.Shallow`: bounds on the paths from one event and from all of them;
  `Catalog.shallow_of_height` finds one.
* `Rules.fire_of_le`: a chain with more depth than its paths can use.
* `Rules.passYear_withDepth`, `Rules.before_withDepth`: a year, and years in a row.
-/

namespace Annals

/-! ## Paths of follow-ups -/

namespace Catalog

variable {c : Catalog} {d e : Definition} {n : Nat}

/-- An event has a follow-up at once that names the other event. -/
def LeadsTo (c : Catalog) (d e : Definition) : Prop := ∃ f ∈ d.atOnce, c.find? f.event = some e

/-- No path of follow-ups at once from the event has more than `n` edges. -/
def EndsWithin (c : Catalog) (n : Nat) (d : Definition) : Prop :=
  ∀ path : List Definition, List.IsChain c.LeadsTo (d :: path) → path.length ≤ n

/-- No path of follow-ups at once in the catalog has more than `n` edges. -/
def Shallow (c : Catalog) (n : Nat) : Prop := ∀ d ∈ c.events, c.EndsWithin n d

theorem leadsTo_of_find? {f : FollowUp} (hf : f ∈ d.followUps) (hnow : ¬ 0 < f.delay)
    (hfind : c.find? f.event = some e) : c.LeadsTo d e := by
  have hdelay : f.delay = 0 := by
    rw [UInt32.lt_iff_toNat_lt, UInt32.toNat_zero] at hnow
    exact UInt32.toNat_inj.1 (Nat.eq_zero_of_not_pos hnow)
  exact ⟨f, List.mem_filter.2 ⟨hf, by simpa using hdelay⟩, hfind⟩

namespace EndsWithin

theorem succ (h : c.EndsWithin n d) : c.EndsWithin (n + 1) d := fun path hpath =>
  Nat.le_succ_of_le (h path hpath)

/-- A step along a path leaves one edge less. -/
theorem of_leadsTo (h : c.EndsWithin (n + 1) d) (hlead : c.LeadsTo d e) : c.EndsWithin n e := by
  intro path hpath
  have hlonger : List.IsChain c.LeadsTo (d :: e :: path) := .cons_cons hlead hpath
  have hlength := h (e :: path) hlonger
  rw [List.length_cons] at hlength
  exact Nat.le_of_succ_le_succ hlength

/-- At the end of all paths nothing is set off. -/
theorem not_leadsTo (h : c.EndsWithin 0 d) : ¬ c.LeadsTo d e := by
  intro hlead
  have hlength := h [e] (.cons_cons hlead (.singleton e))
  exact Nat.not_succ_le_zero 0 hlength

end EndsWithin

/-- A number for each event that falls along every edge bounds all paths. -/
theorem shallow_of_height (height : Definition → Nat)
    (hfall : ∀ d ∈ c.events, ∀ f ∈ d.atOnce, ∀ e, c.find? f.event = some e → height e < height d)
    (hmost : ∀ d ∈ c.events, height d ≤ n) : c.Shallow n := by
  have hpath : ∀ (path : List Definition), ∀ d ∈ c.events,
      List.IsChain c.LeadsTo (d :: path) → path.length ≤ height d := by
    intro path
    induction path with
    | nil => exact fun d _ _ => Nat.zero_le _
    | cons e path ih =>
      intro d hd hchain
      obtain ⟨⟨f, hf, hfind⟩, hrest⟩ := List.isChain_cons_cons.1 hchain
      have hlength := ih e (List.mem_of_find?_eq_some hfind) hrest
      have hlt := hfall d hd f hf e hfind
      rw [List.length_cons]
      omega
  exact fun d hd path hchain => Nat.le_trans (hpath path d hd hchain) (hmost d hd)

end Catalog

/-! ## Chains -/

namespace Rules

variable {σ : Type} [Dice σ] {rules : Rules} {depth : Nat} {m n : UInt32}

/-- The rules with another greatest depth. -/
def withDepth (rules : Rules) (depth : UInt32) : Rules :=
  { rules with settings := { rules.settings with maxDepth := depth } }

/-- A chain looks at the depth that it has left, and not at the greatest depth. -/
theorem fire_withDepth (rules : Rules) (category : String) (m : UInt32) (left : Nat) :
    fire (σ := σ) (rules.withDepth m) category left = fire rules category left := by
  induction left with
  | zero => rfl
  | succ left ih =>
    show strike (rules.withDepth m) (some (fire (rules.withDepth m) category left)) category = _
    rw [ih]
    rfl

/-- One step more of depth than the paths from an event can use makes no difference. -/
theorem fire_succ (hcat : rules.catalog.Loaded) (category : String) (left : Nat) {d : Definition}
    (hd : d ∈ rules.catalog.events) (hends : rules.catalog.EndsWithin left d) :
    fire (σ := σ) rules category (left + 1) d = fire rules category left d := by
  induction left generalizing d with
  | zero =>
    -- At the cap there is nothing to drop: whatever follows has a delay.
    refine strike_congr fun f hf => ?_
    by_cases hdelay : 0 < f.delay
    · exact follow_of_delay hdelay d
    · obtain ⟨e, hfind⟩ := Option.isSome_iff_exists.1 (hcat.find?_followUp hd hf)
      exact absurd (Catalog.leadsTo_of_find? hf hdelay hfind) hends.not_leadsTo
  | succ left ih =>
    refine strike_congr fun f hf => ?_
    by_cases hdelay : 0 < f.delay
    · exact follow_of_delay hdelay d
    · refine follow_congr rfl (.some fun e hfind => ?_) d
      have hlead := Catalog.leadsTo_of_find? hf hdelay hfind
      exact ih (mem_events_of_find? hfind) (hends.of_leadsTo hlead)

/-- A chain with any depth that its paths cannot use up is the same chain. -/
theorem fire_of_le (hcat : rules.catalog.Loaded) (category : String) {left : Nat}
    (hle : depth ≤ left) {d : Definition} (hd : d ∈ rules.catalog.events)
    (hends : rules.catalog.EndsWithin depth d) :
    fire (σ := σ) rules category left d = fire rules category depth d := by
  have hmore : fire (σ := σ) rules category left d = fire rules category depth d ∧
      rules.catalog.EndsWithin left d := by
    induction left, hle using Nat.le_induction with
    | base => exact ⟨rfl, hends⟩
    | succ left hle ih =>
      obtain ⟨hfire, hleft⟩ := ih
      exact ⟨(fire_succ hcat category left hd hleft).trans hfire, hleft.succ⟩
  exact hmore.1

/-! ## Years -/

section Shallow

variable (hcat : rules.catalog.Loaded) (hshallow : rules.catalog.Shallow depth)
  (hm : depth ≤ m.toNat) (hn : depth ≤ n.toNat)

include hcat hshallow hm hn

/-- The chain of any event of a shallow catalog is the same with two depths above its bound. -/
theorem fireRoot_withDepth (category : String) {d : Definition} (hd : d ∈ rules.catalog.events) :
    fireRoot (σ := σ) (rules.withDepth m) category d =
      fireRoot (rules.withDepth n) category d := by
  have hends := hshallow d hd
  show fire (rules.withDepth m) category m.toNat d = fire (rules.withDepth n) category n.toNat d
  rw [fire_withDepth, fire_withDepth, fire_of_le hcat category hm hd hends,
    fire_of_le hcat category hn hd hends]

/-- A year over a shallow catalog is the same with two depths above its bound. -/
theorem passYear_withDepth (year : Year) (world : World) (dice : σ) :
    (rules.withDepth m).passYear year world dice =
      (rules.withDepth n).passYear year world dice := by
  refine passYear_congr (fun t _ => ?_) ?_ dice
  · exact tryTrigger_congr rfl fun d hfind =>
      fireRoot_withDepth hcat hshallow hm hn t.category (mem_events_of_find? hfind)
  · refine Passage.each_congr fun k hk => scan_congr rfl rfl rfl fun world d hd => ?_
    exact fireRoot_withDepth hcat hshallow hm hn k.name (mem_events_of_mem_eligible hk hd)

/-- Years in a row over a shallow catalog are the same with two depths above its bound. -/
theorem before_withDepth (years : Nat → Year) (world : World) (dice : σ) (k : Nat) :
    (rules.withDepth m).before years world dice k =
      (rules.withDepth n).before years world dice k := by
  induction k with
  | zero => rfl
  | succ k ih =>
    rw [before_succ, before_succ]
    unfold during
    rw [ih, passYear_withDepth hcat hshallow hm hn]

end Shallow

end Rules

/-! ## A shallow catalog -/

namespace Catalog

/-- A spark that lights a beacon, and is struck again after years. -/
def spark : Definition where
  id := "spark"
  name := "Spark"
  description := ""
  category := "signals"
  conditions := [.year .ge 0]
  effects := []
  followUps := [{ event := "beacon", delay := 0, chance := 1.0 },
    { event := "spark", delay := 3, chance := 0.5 }]
  followUpOnly := false
  details := {}

/-- A beacon that lights a pyre. -/
def beacon : Definition where
  id := "beacon"
  name := "Beacon"
  description := ""
  category := "signals"
  conditions := []
  effects := [.adjust { side := .region, name := "Coast" } "watch" 1]
  followUps := [{ event := "pyre", delay := 0, chance := 1.0 }]
  followUpOnly := true
  details := {}

/-- A pyre whose sparks fly a year later. -/
def pyre : Definition where
  id := "pyre"
  name := "Pyre"
  description := ""
  category := "signals"
  conditions := []
  effects := [.adjust { side := .region, name := "Coast" } "watch" 10]
  followUps := [{ event := "spark", delay := 1, chance := 1.0 }]
  followUpOnly := true
  details := {}

/-- A catalog whose cycles all take years: at once a spark leads to a pyre, and no further. -/
def beacons : Catalog := { categories := [{ name := "signals", events := [spark, beacon, pyre] }] }

/-- The document of `beacons`. -/
def beaconsDocument : Json :=
  .obj [("events", .obj [
    ("signals", .obj [
      ("spark", .obj [("name", .str "Spark"),
        ("conditions", .arr [
          .obj [("type", .str "year"), ("operator", .str ">="), ("value", .int 0)]]),
        ("effects", .arr []),
        ("followup_events", .arr [
          .obj [("id", .str "beacon"), ("probability", .float 1.0)],
          .obj [("id", .str "spark"), ("delay", .int 3)]])]),
      ("beacon", .obj [("name", .str "Beacon"), ("is_followup", .bool true),
        ("effects", .arr [.obj [("type", .str "modify_stat"), ("region", .str "Coast"),
          ("stat", .str "watch"), ("value", .int 1)]]),
        ("followup_events", .arr [
          .obj [("id", .str "pyre"), ("probability", .float 1.0)]])]),
      ("pyre", .obj [("name", .str "Pyre"), ("is_followup", .bool true),
        ("effects", .arr [.obj [("type", .str "modify_stat"), ("region", .str "Coast"),
          ("stat", .str "watch"), ("value", .int 10)]]),
        ("followup_events", .arr [
          .obj [("id", .str "spark"), ("delay", .int 1), ("probability", .float 1.0)]])])])])]

theorem beacons_loaded : beacons.Loaded := ⟨beaconsDocument, rfl⟩

/-- No chain of `beacons` goes on for more than two follow-ups. -/
theorem beacons_shallow : beacons.Shallow 2 := by
  let height : Definition → Nat := fun d =>
    if d.id = "spark" then 2 else if d.id = "beacon" then 1 else 0
  refine shallow_of_height height ?_ ?_
  · have hfall : ∀ d ∈ beacons.events, ∀ f ∈ d.atOnce, ∀ e ∈ beacons.find? f.event,
        height e < height d := by decide
    exact hfall
  · decide

end Catalog

namespace Rules

/-- The rules of `beacons` with some depth. -/
def signalled (depth : UInt32) : Rules :=
  { catalog := .beacons, settings := { maxDepth := depth, categoryChance := 1.0 } }

/-- Below the bound a chain is cut: here the pyre is missing. -/
example : ((signalled 1).passYear 5 (.blank 5) still).fired.map (·.id) = ["spark", "beacon"] ∧
    ((signalled 2).passYear 5 (.blank 5) still).fired.map (·.id) = ["spark", "beacon", "pyre"] := by
  decide +kernel

end Rules

end Annals
