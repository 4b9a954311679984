import Annals.Proofs.Catalog.Reload
import Annals.Proofs.World.Encoding
/-!
# Two readers of the parts of an event

The loader reads conditions, effects and follow-ups field by field, with a message for each field
that is not as it should be. Events that have been written are read by decoders, which know the
kinds and have no messages. What the loader reads in an object without `null`, the decoders read as
the same thing, in whatever order the members come and whatever other members there are.

* `Comparison.decode_of_read`, `Stat.decode_of_read`, `Target.decode_of_read`: the fields.
* `Condition.ofJson?_of_read`, `Effect.ofJson?_of_read`, `FollowUp.ofJson?_of_read`: the parts.
* `Catalog.decoders_agree`: all three.
-/

namespace Annals

open Json (lookup)

/-! ## Fields -/

section Fields

variable {members : List (String × Json)}

theorem Comparison.decode_of_read {c : Comparison} (h : readComparison members = .ok c)
    (nested : Bool) :
    (lookup "operator" members).bind (fun j => Comparison.ofJson? j nested) = some c := by
  obtain ⟨symbol, hsymbol, hc⟩ := bind_eq_ok.1 h
  rw [textField_eq_some.1 (demand_eq_ok.1 hsymbol)]
  show Comparison.ofSymbol? symbol = some c
  split at hc
  case h_1 c' hfound =>
    cases hc
    exact hfound
  case h_2 => cases hc

theorem int64?_of_readAmount {n : Int64} (h : readAmount members = .ok n) :
    (lookup "value" members).bind Json.int64? = some n := by
  obtain ⟨value, hvalue, hn⟩ := bind_eq_ok.1 h
  rw [(anyField_eq_some.1 (demand_eq_ok.1 hvalue)).1, Option.bind_some]
  split at hn
  case h_1 n' hread =>
    cases hn
    exact hread
  case h_2 => cases hn

theorem Stat.decode_of_read {v : Stat} (h : readStat members = .ok v) :
    (lookup "value" members).bind Stat.ofJson? = some v := by
  obtain ⟨value, hvalue, hv⟩ := bind_eq_ok.1 h
  rw [(anyField_eq_some.1 (demand_eq_ok.1 hvalue)).1, Option.bind_some]
  split at hv
  case h_1 text =>
    cases hv
    rfl
  case h_2 hother =>
    split at hv
    case h_1 n hread =>
      cases hv
      unfold Stat.ofJson?
      split
      case h_1 s => exact absurd rfl (hother s)
      case h_2 => rw [hread, Option.map_some]
    case h_2 => cases hv

end Fields

/-! ## Conditions -/

namespace Condition

variable {members rest : List (String × Json)}

theorem statOfJson?_of_read (hrest : Json.Untagged "type" members rest) {side : Side}
    {c : Condition} (h : readStatTest side members = .ok c) :
    statOfJson? side (.obj rest) = some c := by
  obtain ⟨owner, howner, h⟩ := bind_eq_ok.1 h
  obtain ⟨stat, hstat, h⟩ := bind_eq_ok.1 h
  obtain ⟨comparison, hcomparison, h⟩ := bind_eq_ok.1 h
  obtain ⟨value, hvalue, h⟩ := bind_eq_ok.1 h
  cases h
  have htag : "type" ∉ [side.label, "stat", "operator", "value"] := by cases side <;> decide
  obtain ⟨r, hr, hneed⟩ := hrest.exists_record _ htag false
  have howner' : r.need side.label Json.str? = some owner :=
    (hneed _ (by simp) _).trans (demand_eq_ok.1 howner)
  have hstat' : r.need "stat" Json.str? = some stat :=
    (hneed _ (by simp) _).trans (demand_eq_ok.1 hstat)
  have hcomparison' : r.need "operator" (fun c => Comparison.ofJson? c true) = some comparison :=
    (hneed _ (by simp) _).trans (Comparison.decode_of_read hcomparison true)
  have hvalue' : r.need "value" Stat.ofJson? = some value :=
    (hneed _ (by simp) _).trans (Stat.decode_of_read hvalue)
  simp [statOfJson?, hr, howner', hstat', hcomparison', hvalue']

/-- A condition that the loader reads as one of a known kind is decoded as the same condition. -/
theorem ofJson?_of_read (hnames : (members.map (·.1)).Nodup) {c : Condition}
    (h : read (.obj members) = .ok c) (hknown : c.IsKnown) (nested : Bool) :
    ofJson? (.obj members) nested = some c := by
  obtain ⟨found, hfound, h⟩ := bind_eq_ok.1 h
  obtain ⟨hsame, -⟩ := (Shape.members_eq_ok (by decide)).1 hfound
  cases hsame
  obtain ⟨kind, hkind, h⟩ := bind_eq_ok.1 h
  have htag := textField_eq_some.1 (demand_eq_ok.1 hkind)
  have hrest : kind ∈ kinds → ∃ rest,
      Json.untag? "type" kinds nested (.obj members) = some (kind, .obj rest) ∧
        Json.Untagged "type" members rest := fun hmem =>
    Json.exists_untagged hnames htag hmem nested
  split at h
  case h_1 =>
    obtain ⟨comparison, hcomparison, h⟩ := bind_eq_ok.1 h
    obtain ⟨value, hvalue, h⟩ := bind_eq_ok.1 h
    cases h
    obtain ⟨rest, huntag, hrest⟩ := hrest (by decide)
    obtain ⟨r, hr, hneed⟩ := hrest.exists_record ["operator", "value"] (by decide) false
    have hcomparison' : r.need "operator" (fun c => Comparison.ofJson? c true) = some comparison :=
      (hneed _ (by simp) _).trans (Comparison.decode_of_read hcomparison true)
    have hvalue' : r.need "value" Json.int64? = some value :=
      (hneed _ (by simp) _).trans (int64?_of_readAmount hvalue)
    simp [ofJson?, huntag, hr, hcomparison', hvalue']
  case h_2 =>
    obtain ⟨rest, huntag, hrest⟩ := hrest (by decide)
    simp [ofJson?, huntag, statOfJson?_of_read hrest h]
  case h_3 =>
    obtain ⟨rest, huntag, hrest⟩ := hrest (by decide)
    simp [ofJson?, huntag, statOfJson?_of_read hrest h]
  case h_4 =>
    obtain ⟨value, hvalue, h⟩ := bind_eq_ok.1 h
    split at h
    case h_1 name =>
      cases h
      obtain ⟨rest, huntag, hrest⟩ := hrest (by decide)
      obtain ⟨r, hr, hneed⟩ := hrest.exists_record ["value"] (by decide) false
      have hname : r.need "value" Json.str? = some name := by
        rw [hneed _ (by simp), (anyField_eq_some.1 (demand_eq_ok.1 hvalue)).1]
        rfl
      simp [ofJson?, huntag, hr, hname]
    case h_2 => cases h
  case h_5 =>
    -- Any other kind is read as an unknown one.
    cases h
    exact absurd rfl (hknown kind)

end Condition

/-! ## Effects -/

namespace Target

variable {members : List (String × Json)}

theorem readTarget_eq_ok {t : Target} :
    Effect.readTarget members = .ok t ↔ textField members t.side.label = some t.name ∧
      ∀ side : Side, side ≠ t.side → textField members side.label = none := by
  obtain ⟨side, name⟩ := t
  have hsides : ∀ P : Side → Prop, (∀ s, P s) ↔ P .region ∧ P .faction := fun P =>
    ⟨fun h => ⟨h .region, h .faction⟩, fun h s => by cases s <;> simp [h.1, h.2]⟩
  unfold Effect.readTarget
  rw [hsides]
  cases hregion : textField members "region" <;> cases hfaction : textField members "faction" <;>
    cases side <;> simp [Side.label, hregion, hfaction]

/-- The owner that the loader reads is the only one that the members name, when none is null. -/
theorem decode_of_read (hnames : (members.map (·.1)).Nodup) (hfull : ∀ m ∈ members, m.2 ≠ .null)
    (htexts : ∀ side : Side, Json.Each side.label (Json.NullOr Json.IsString) members)
    {t : Target} (h : Effect.readTarget members = .ok t) : ofMembers? members = some t := by
  obtain ⟨hname, hother⟩ := readTarget_eq_ok.1 h
  refine ofMembers?_eq_some (Json.mem_of_lookup (textField_eq_some.1 hname)) ?_
  rintro ⟨label, value⟩ hmem side rfl
  rcases htexts side value hmem with hnull | ⟨s, rfl⟩
  · exact absurd hnull (hfull _ hmem)
  · have hs := textField_eq_some.2 (Json.lookup_of_mem hnames hmem)
    by_cases hside : side = t.side
    · subst hside
      rw [hs] at hname
      cases hname
      rfl
    · rw [hother side hside] at hs
      cases hs

end Target

namespace Effect

variable {members rest : List (String × Json)}

/-- An effect that the loader reads as one of a known kind is decoded as the same effect. -/
theorem ofJson?_of_read (hnames : (members.map (·.1)).Nodup) (hfull : ∀ m ∈ members, m.2 ≠ .null)
    {e : Effect} (h : read (.obj members) = .ok e) (hknown : e.IsKnown) (nested : Bool) :
    ofJson? (.obj members) nested = some e := by
  obtain ⟨found, hfound, h⟩ := bind_eq_ok.1 h
  obtain ⟨hsame, htypes⟩ := (Shape.members_eq_ok (by decide)).1 hfound
  cases hsame
  obtain ⟨kind, hkind, h⟩ := bind_eq_ok.1 h
  have htag := textField_eq_some.1 (demand_eq_ok.1 hkind)
  have hrest : kind ∈ kinds → ∃ rest,
      Json.untag? "type" kinds nested (.obj members) = some (kind, .obj rest) ∧
        Json.Untagged "type" members rest := fun hmem =>
    Json.exists_untagged hnames htag hmem nested
  split at h
  case h_1 =>
    obtain ⟨target, htarget, h⟩ := bind_eq_ok.1 h
    obtain ⟨stat, hstat, h⟩ := bind_eq_ok.1 h
    obtain ⟨amount, hamount, h⟩ := bind_eq_ok.1 h
    cases h
    obtain ⟨rest, huntag, hrest⟩ := hrest (by decide)
    obtain ⟨r, hr, hneed⟩ := hrest.exists_record ["stat", "value"] (by decide) false
    have hstat' : r.need "stat" Json.str? = some stat :=
      (hneed _ (by simp) _).trans (demand_eq_ok.1 hstat)
    have hamount' : r.need "value" Json.int64? = some amount :=
      (hneed _ (by simp) _).trans (int64?_of_readAmount hamount)
    -- The owner is looked for among all members but the tag.
    have htarget' : Target.ofMembers? rest = some target := by
      have hsame : readTarget rest = readTarget members := by
        unfold readTarget textField
        rw [hrest.lookup_eq "region" (by decide), hrest.lookup_eq "faction" (by decide)]
      refine Target.decode_of_read hrest.nodup (fun m hm => hfull m (hrest.subset hm)) ?_
        (hsame.trans htarget)
      intro side value hvalue
      have hfield : (side.label, FieldType.text) ∈ shape := by cases side <;> decide
      exact FieldType.admits_text.1 (htypes _ hfield value (hrest.subset hvalue))
    simp [ofJson?, huntag, adjustOfJson?, Json.obj?, hr, htarget', hstat', hamount']
  case h_2 =>
    obtain ⟨faction, hfaction, h⟩ := bind_eq_ok.1 h
    obtain ⟨leader, hleader, h⟩ := bind_eq_ok.1 h
    cases h
    obtain ⟨rest, huntag, hrest⟩ := hrest (by decide)
    obtain ⟨r, hr, hneed⟩ := hrest.exists_record ["faction", "new_leader"] (by decide) false
    have hfaction' : r.need "faction" Json.str? = some faction :=
      (hneed _ (by simp) _).trans (demand_eq_ok.1 hfaction)
    have hleader' : r.need "new_leader" Json.str? = some leader :=
      (hneed _ (by simp) _).trans (demand_eq_ok.1 hleader)
    simp [ofJson?, huntag, hr, hfaction', hleader']
  case h_3 =>
    cases h
    exact absurd rfl (hknown kind)

end Effect

/-! ## Follow-ups -/

namespace FollowUp

variable {members : List (String × Json)}

/-- A delay that is there and in range is decoded as the delay that the loader finds. -/
theorem uint32?_of_delayOf {value : Json} (hdelay : lookup "delay" members = some value)
    (hinteger : value.IsInteger) (hlow : 0 ≤ (delayOf members).toInt)
    (hhigh : (delayOf members).toInt < UInt32.size) :
    value.uint32? = some (UInt32.ofNat (delayOf members).toInt.toNat) := by
  obtain ⟨k, rfl, hleast, hmost⟩ := hinteger
  have hread := Json.int64?_eq_some.2 ⟨k, rfl, hleast, hmost, rfl⟩
  have hk : (delayOf members).toInt = k := by
    unfold delayOf
    rw [hdelay, Option.bind_some, hread, Option.getD_some]
    exact Int64.toInt_ofInt_of_le hleast hmost
  rw [hk] at hlow hhigh ⊢
  have hwithin : (Json.int k).intWithin? 0 (UInt32.size - 1) = some k :=
    Json.intWithin?_eq_some.2 ⟨rfl, hlow, by omega⟩
  unfold Json.uint32?
  rw [hwithin, Option.map_some]

/-- A chance that is there is decoded as the chance that the loader finds. -/
theorem float?_of_chanceOf {value : Json} (hchance : lookup "probability" members = some value)
    (hnumber : value.IsNumber) : value.float? = some (chanceOf members) := by
  obtain ⟨x, hx⟩ := Json.exists_float?_iff.2 hnumber
  unfold chanceOf
  rw [hchance, Option.bind_some, hx, Option.getD_some]

/-- A follow-up with all of its fields is decoded as the loader reads it. -/
theorem ofJson?_of_read (hnames : (members.map (·.1)).Nodup) (hfull : ∀ m ∈ members, m.2 ≠ .null)
    {f : FollowUp} (h : read (.obj members) = .ok f)
    (hdelay : (lookup "delay" members).isSome) (hchance : (lookup "probability" members).isSome) :
    ofJson? (.obj members) = some f := by
  obtain ⟨found, hfound, hevent, ⟨hlow, hhigh⟩, -, hf⟩ := read_eq_ok.1 h
  obtain ⟨hsame, htypes⟩ := (Shape.members_eq_ok (by decide)).1 hfound
  cases hsame
  obtain ⟨delay, hdelay⟩ := Option.isSome_iff_exists.1 hdelay
  obtain ⟨chance, hchance⟩ := Option.isSome_iff_exists.1 hchance
  have hdelayMem := Json.mem_of_lookup hdelay
  have hchanceMem := Json.mem_of_lookup hchance
  have hdelayType := htypes ("delay", .integer) (by decide) delay hdelayMem
  have hchanceType := htypes ("probability", .number) (by decide) chance hchanceMem
  have hinteger : delay.IsInteger :=
    (FieldType.admits_integer.1 hdelayType).resolve_left (hfull _ hdelayMem)
  have hnumber : chance.IsNumber :=
    (FieldType.admits_number.1 hchanceType).resolve_left (hfull _ hchanceMem)
  obtain ⟨r, hr, hneed⟩ := Json.exists_record hnames ["id", "delay", "probability"] false
  have hevent' : r.need "id" Json.str? = some f.event :=
    (hneed _ (by simp) _).trans (textField_eq_some.2 hevent)
  have hdelay' : r.need "delay" Json.uint32? = some f.delay := by
    rw [hneed _ (by simp), hdelay, Option.bind_some, uint32?_of_delayOf hdelay hinteger hlow hhigh,
      hf]
  have hchance' : r.need "probability" Json.float? = some f.chance := by
    rw [hneed _ (by simp), hchance, Option.bind_some, float?_of_chanceOf hchance hnumber, hf]
  have hrecord : Json.Record.ofJson? outline.names false (.obj members) = some r := hr
  simp [ofJson?, hrecord, hevent', hdelay', hchance']

end FollowUp

/-! ## All parts -/

namespace Catalog

/-- The loader and the decoders agree. Take an object with one member per name, of which none is
null, in any order and with any other members. A condition or an effect that the loader reads in it
as one of a known kind is decoded as the same, whether it stands alone or inside a tagged record. A
follow-up that the loader reads in it is decoded as the same if all of its fields are there. -/
theorem decoders_agree (members : List (String × Json)) (hnames : (members.map (·.1)).Nodup)
    (hfull : ∀ m ∈ members, m.2 ≠ .null) :
    (∀ c, Condition.read (.obj members) = .ok c → c.IsKnown →
      ∀ nested, Condition.ofJson? (.obj members) nested = some c) ∧
    (∀ e, Effect.read (.obj members) = .ok e → e.IsKnown →
      ∀ nested, Effect.ofJson? (.obj members) nested = some e) ∧
    ∀ f, FollowUp.read (.obj members) = .ok f →
      (∀ name ∈ ["id", "delay", "probability"], (lookup name members).isSome) →
      FollowUp.ofJson? (.obj members) = some f := by
  refine ⟨fun c h hknown => Condition.ofJson?_of_read hnames h hknown,
    fun e h hknown => Effect.ofJson?_of_read hnames hfull h hknown, fun f h hthere => ?_⟩
  exact FollowUp.ofJson?_of_read hnames hfull h (hthere "delay" (by simp))
    (hthere "probability" (by simp))

/-- A test of a region with its tag last, among members that no test of a region has. -/
def strayTest : List (String × Json) :=
  [("note", .arr [.null]), ("value", .str "open"), ("faction", .str "Sailors"),
    ("operator", .str "!="), ("stat", .str "gates"), ("region", .str "Coast"),
    ("type", .str "region")]

/-- An amount for a faction, with a leader that it does not ask for. -/
def strayAmount : List (String × Json) :=
  [("value", .int (-3)), ("new_leader", .str "Storm Queen"), ("faction", .str "Sailors"),
    ("kind", .bool true), ("type", .str "modify_stat"), ("stat", .str "morale")]

/-- A follow-up with its id last. -/
def strayFollowUp : List (String × Json) :=
  [("probability", .float 0.25), ("type", .str "year"), ("delay", .int 2), ("id", .str "bell")]

theorem decoders_agree_stray :
    (Condition.read (.obj strayTest) = .ok (.stat ⟨.region, "Coast", "gates", .ne, .text "open"⟩) ∧
      Condition.ofJson? (.obj strayTest) =
        some (.stat ⟨.region, "Coast", "gates", .ne, .text "open"⟩)) ∧
    (Effect.read (.obj strayAmount) = .ok (.adjust ⟨.faction, "Sailors"⟩ "morale" (-3)) ∧
      Effect.ofJson? (.obj strayAmount) = some (.adjust ⟨.faction, "Sailors"⟩ "morale" (-3))) ∧
    FollowUp.read (.obj strayFollowUp) = .ok ⟨"bell", 2, 0.25⟩ ∧
      FollowUp.ofJson? (.obj strayFollowUp) = some ⟨"bell", 2, 0.25⟩ := by
  obtain ⟨htest, -, -⟩ := decoders_agree strayTest (by decide) (by simp [strayTest])
  obtain ⟨-, hamount, -⟩ := decoders_agree strayAmount (by decide) (by simp [strayAmount])
  obtain ⟨-, -, hfollow⟩ := decoders_agree strayFollowUp (by decide) (by simp [strayFollowUp])
  exact ⟨⟨rfl, htest _ rfl (fun _ => by simp) false⟩,
    ⟨rfl, hamount _ rfl (fun _ => by simp) false⟩,
    rfl, hfollow _ rfl (by decide)⟩

/-- A region that is null is no region to the loader, and no owner to the decoder. -/
example : Effect.read (.obj (("region", .null) :: strayAmount)) =
      .ok (.adjust ⟨.faction, "Sailors"⟩ "morale" (-3)) ∧
    Effect.ofJson? (.obj (("region", .null) :: strayAmount)) = none := ⟨rfl, rfl⟩

end Catalog

end Annals
