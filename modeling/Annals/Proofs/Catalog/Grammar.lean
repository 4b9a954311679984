import Annals.Catalog.Reader
import Annals.Proofs.Json.Payloads
import Mathlib.Data.List.Nodup
/-!
# The grammar of catalogs: conditions, effects and follow-ups

What a document must look like is said in terms of the document alone, field by field. A value of
the right form is read, and only such a value is.

* `Json.Each`, `Json.First`, `Json.Has`: what a member of a name is like, if there is one, and that
  there is one.
* `Shape.check_eq_ok`: the fields of an object have the types of a shape.
* `Grammar.IsCondition`, `IsEffect`, `IsFollowUp`: the parts of an event.
* `Condition.exists_read_iff`, `Effect.exists_read_iff`, `FollowUp.exists_read_iff`: exactly these
  are read.
-/

namespace Annals

/-! ## Values -/

namespace Json

/-- A value is a string. -/
def IsString (j : Json) : Prop := ∃ s, j = .str s

/-- A value is an integer of 64 bits with sign. -/
def IsInteger (j : Json) : Prop := ∃ n : Int, j = .int n ∧ -2 ^ 63 ≤ n ∧ n < 2 ^ 63

/-- A value is a number of either spelling. -/
def IsNumber (j : Json) : Prop := (∃ n, j = .int n) ∨ ∃ x, j = .float x

/-- A value is a boolean. -/
def IsBool (j : Json) : Prop := ∃ b, j = .bool b

/-- A value is an array. -/
def IsArray (j : Json) : Prop := ∃ items, j = .arr items

/-- A value is `null` or of some kind. -/
def NullOr (P : Json → Prop) (j : Json) : Prop := j = .null ∨ P j

/-- Every member of a name is of some kind. -/
def Each (name : String) (P : Json → Prop) (members : List (String × Json)) : Prop :=
  ∀ value, (name, value) ∈ members → P value

/-- The member of a name is of some kind, if there is one. -/
def First (name : String) (P : Json → Prop) (members : List (String × Json)) : Prop :=
  ∀ value, lookup name members = some value → P value

/-- There is a member of a name, and it is of some kind. -/
def Has (name : String) (P : Json → Prop) (members : List (String × Json)) : Prop :=
  ∃ value, lookup name members = some value ∧ P value

variable {name : String} {P : Json → Prop} {members : List (String × Json)}

theorem each_cons {key : String} {value : Json} :
    Each name P ((key, value) :: members) ↔ (name = key → P value) ∧ Each name P members := by
  unfold Each
  simp only [List.mem_cons, Prod.mk.injEq, or_imp, forall_and, and_imp]
  exact and_congr_left fun _ => ⟨fun h hname => h value hname rfl, fun h v hname hv => hv ▸ h hname⟩

theorem Each.first (h : Each name P members) : First name P members :=
  fun value hvalue => h value (mem_of_lookup hvalue)

/-! ## Payloads of a type -/

theorem exists_int64?_iff {j : Json} : (∃ n, j.int64? = some n) ↔ j.IsInteger := by
  constructor
  · rintro ⟨n, hn⟩
    obtain ⟨k, hj, hlow, hhigh, -⟩ := int64?_eq_some.1 hn
    exact ⟨k, hj, hlow, hhigh⟩
  · rintro ⟨k, hj, hlow, hhigh⟩
    exact ⟨_, int64?_eq_some.2 ⟨k, hj, hlow, hhigh, rfl⟩⟩

theorem exists_float?_iff {j : Json} : (∃ x, j.float? = some x) ↔ j.IsNumber := by
  cases j <;> simp [float?, IsNumber]

end Json

/-! ## Readings that succeed -/

/-- A sequence of two readings succeeds only if both do. -/
theorem bind_eq_ok {ε α β : Type} {x : Except ε α} {f : α → Except ε β} {b : β} :
    x >>= f = .ok b ↔ ∃ a, x = .ok a ∧ f a = .ok b := by
  cases x with
  | error e => exact ⟨(nomatch ·), fun ⟨_, hx, _⟩ => nomatch hx⟩
  | ok a =>
    constructor
    · exact fun h => ⟨a, rfl, h⟩
    · rintro ⟨_, hx, hf⟩
      cases hx
      exact hf

/-- A sequence of two readings yields something when the first one does and then the second one. -/
theorem exists_bind_iff {ε α β : Type} {x : Except ε α} {f : α → Except ε β} :
    (∃ b, x >>= f = .ok b) ↔ ∃ a, x = .ok a ∧ ∃ b, f a = .ok b := by
  simp only [bind_eq_ok]
  exact ⟨fun ⟨b, a, hx, hf⟩ => ⟨a, hx, b, hf⟩, fun ⟨a, hx, b, hf⟩ => ⟨b, a, hx, hf⟩⟩

theorem pure_eq_ok {ε α : Type} {a b : α} : (pure a : Except ε α) = .ok b ↔ b = a :=
  ⟨fun h => (Except.ok.inj h).symm, fun h => congrArg _ h.symm⟩

theorem exists_pure_iff {ε α : Type} {a : α} : (∃ b, (pure a : Except ε α) = .ok b) ↔ True :=
  iff_true_intro ⟨a, rfl⟩

theorem demand_eq_ok {α : Type} {field : String} {o : Option α} {a : α} :
    demand field o = .ok a ↔ o = some a := by
  cases o <;> simp [demand]

theorem located_eq_ok {α : Type} {path : String} {x : Except Flaw α} {a : α} :
    located path x = .ok a ↔ x = .ok a := by
  cases x <;> simp [located]

/-! ## Fields -/

section Fields

variable {members : List (String × Json)} {name field : String}

theorem textField_eq_some {s : String} :
    textField members field = some s ↔ Json.lookup field members = some (.str s) := by
  unfold textField
  rw [Option.bind_eq_some_iff]
  simp only [Json.str?_eq_some, exists_eq_right]

/-- A demanded text is there when the field holds a string. -/
theorem exists_textField_iff :
    (∃ s, textField members field = some s) ↔ Json.Has field Json.IsString members := by
  simp only [textField_eq_some]
  exact ⟨fun ⟨s, hs⟩ => ⟨_, hs, s, rfl⟩, fun ⟨_, hj, s, hs⟩ => ⟨s, hs ▸ hj⟩⟩

theorem anyField_eq_some {j : Json} :
    anyField members field = some j ↔ Json.lookup field members = some j ∧ j ≠ .null := by
  unfold anyField
  rw [Option.filter_eq_some_iff]
  cases j <;> simp [Json.isNull]

/-- What a field of a type may hold. -/
theorem FieldType.admits_text {j : Json} :
    FieldType.text.admits j = true ↔ j.NullOr Json.IsString := by
  cases j <;> simp [admits, Json.NullOr, Json.IsString, Json.isNull, Json.str?]

theorem FieldType.admits_list {j : Json} :
    (FieldType.list true).admits j = true ↔ j.NullOr Json.IsArray := by
  cases j <;> simp [admits, Json.NullOr, Json.IsArray, Json.isNull, Json.arr?]

theorem FieldType.admits_strictList {j : Json} :
    (FieldType.list false).admits j = true ↔ j.IsArray := by
  cases j <;> simp [admits, Json.IsArray, Json.arr?]

theorem FieldType.admits_flag {j : Json} : FieldType.flag.admits j = true ↔ j.IsBool := by
  cases j <;> simp [admits, Json.IsBool, Json.bool?]

theorem FieldType.admits_integer {j : Json} :
    FieldType.integer.admits j = true ↔ j.NullOr Json.IsInteger := by
  unfold admits Json.NullOr
  rw [Bool.or_eq_true, Option.isSome_iff_exists, Json.exists_int64?_iff]
  cases j <;> simp [Json.isNull]

theorem FieldType.admits_number {j : Json} :
    FieldType.number.admits j = true ↔ j.NullOr Json.IsNumber := by
  unfold admits Json.NullOr
  rw [Bool.or_eq_true, Option.isSome_iff_exists, Json.exists_float?_iff]
  cases j <;> simp [Json.isNull]

end Fields

namespace Shape

variable {shape : Shape}

/-- Fields of different names have the types of a shape when each has its own. -/
theorem check_eq_ok (hnames : (shape.map (·.1)).Nodup) {members : List (String × Json)} {u : Unit} :
    shape.check members = .ok u ↔
      ∀ field ∈ shape, Json.Each field.1 (fun j => field.2.admits j = true) members := by
  induction members with
  | nil => simp [check, Json.Each]
  | cons member rest ih =>
    obtain ⟨name, value⟩ := member
    simp only [Json.each_cons]
    unfold check
    split
    case h_1 type hlookup =>
      have hfield := (lookup_eq_some_iff_mem hnames).1 hlookup
      split
      case isTrue hadmits =>
        -- The member has the type of its own field, and no other field asks for it.
        rw [ih]
        refine forall₂_congr fun field hmem => (and_iff_right fun hname => ?_).symm
        have hown : (name, field.2) ∈ shape := hname ▸ hmem
        have htype := (lookup_eq_some_iff_mem hnames).2 hown
        rw [hlookup] at htype
        exact Option.some.inj htype ▸ hadmits
      case isFalse hadmits =>
        exact ⟨(nomatch ·), fun h => absurd ((h _ hfield).1 rfl) hadmits⟩
    case h_2 hlookup =>
      -- No field asks for a member of this name.
      rw [ih]
      refine forall₂_congr fun field hmem => (and_iff_right fun hname => ?_).symm
      have hown : (name, field.2) ∈ shape := hname ▸ hmem
      have htype := (lookup_eq_some_iff_mem hnames).2 hown
      rw [hlookup] at htype
      cases htype

theorem members_eq_ok (hnames : (shape.map (·.1)).Nodup) {j : Json}
    {members : List (String × Json)} :
    shape.members j = .ok members ↔ j = .obj members ∧
      ∀ field ∈ shape, Json.Each field.1 (fun j => field.2.admits j = true) members := by
  cases j with
  | obj found =>
    show (shape.check found).map (fun _ => found) = _ ↔ _
    simp only [← check_eq_ok (u := ()) hnames, Json.obj.injEq]
    cases hcheck : shape.check found with
    | error flaw =>
      refine ⟨(nomatch ·), ?_⟩
      rintro ⟨rfl, hok⟩
      rw [hcheck] at hok
      cases hok
    | ok u =>
      constructor
      · intro h
        cases h
        exact ⟨rfl, hcheck⟩
      · rintro ⟨rfl, -⟩
        rfl
  | _ => simp [Shape.members]

end Shape

/-! ## The grammar -/

namespace Grammar

open Json

/-- The members of some names are strings or `null`. -/
def Texts (names : List String) (members : List (String × Json)) : Prop :=
  ∀ name ∈ names, Each name (NullOr IsString) members

/-- A value is the symbol of one of the six comparisons. -/
def IsOperator (j : Json) : Prop := ∃ symbol ∈ ["==", "!=", ">", ">=", "<", "<="], j = .str symbol

/-- What a test of a stat demands. The owner is in the member of the kind. -/
def StatTestOf (kind : String) (members : List (String × Json)) : Prop :=
  Has kind IsString members ∧ Has "stat" IsString members ∧ Has "operator" IsOperator members ∧
    Has "value" (fun v => v.IsString ∨ v.IsInteger) members

/-- What a condition of a kind demands. Unknown kinds demand nothing. -/
def ConditionOf (members : List (String × Json)) : String → Prop
  | "year" => Has "operator" IsOperator members ∧ Has "value" IsInteger members
  | "region" => StatTestOf "region" members
  | "faction" => StatTestOf "faction" members
  | "common" => Has "value" IsString members
  | _ => True

/-- A value is a condition. -/
def IsCondition (j : Json) : Prop :=
  ∃ members, j = .obj members ∧
    Texts ["type", "operator", "region", "faction", "stat"] members ∧
    ∃ kind, lookup "type" members = some (.str kind) ∧ ConditionOf members kind

/-- What an effect of a kind demands. Unknown kinds demand nothing. -/
def EffectOf (members : List (String × Json)) : String → Prop
  | "modify_stat" => Xor (Has "region" IsString members) (Has "faction" IsString members) ∧
      Has "stat" IsString members ∧ Has "value" IsInteger members
  | "change_leader" => Has "faction" IsString members ∧ Has "new_leader" IsString members
  | _ => True

/-- A value is an effect. -/
def IsEffect (j : Json) : Prop :=
  ∃ members, j = .obj members ∧
    Texts ["type", "region", "faction", "stat", "new_leader"] members ∧
    ∃ kind, lookup "type" members = some (.str kind) ∧ EffectOf members kind

/-- A value is a number of years that can be waited for. -/
def IsDelay (j : Json) : Prop := ∃ n : Int, j = .int n ∧ 0 ≤ n ∧ n < 2 ^ 32

/-- A value is a number from zero to one. -/
def IsChance (j : Json) : Prop := ∃ x, j.float? = some x ∧ 0.0 ≤ x ∧ x ≤ 1.0

/-- A value is a follow-up. -/
def IsFollowUp (j : Json) : Prop :=
  ∃ members, j = .obj members ∧ Texts ["id"] members ∧
    Each "delay" (NullOr IsInteger) members ∧ Each "probability" (NullOr IsNumber) members ∧
    Has "id" IsString members ∧ First "delay" (NullOr IsDelay) members ∧
    First "probability" (NullOr IsChance) members

end Grammar

/-! ## Conditions -/

section Parts

variable {members : List (String × Json)}

theorem exists_ofSymbol?_iff {s : String} :
    (∃ c, Comparison.ofSymbol? s = some c) ↔ s ∈ ["==", "!=", ">", ">=", "<", "<="] := by
  have hsymbols : ["==", "!=", ">", ">=", "<", "<="] = Comparison.all.map Comparison.symbol := rfl
  rw [← Option.isSome_iff_exists, hsymbols]
  unfold Comparison.ofSymbol?
  simp only [List.find?_isSome, beq_iff_eq, List.mem_map]

theorem exists_readComparison_iff :
    (∃ c, readComparison members = .ok c) ↔ Json.Has "operator" Grammar.IsOperator members := by
  unfold readComparison
  simp only [exists_bind_iff, demand_eq_ok, textField_eq_some]
  constructor
  · rintro ⟨symbol, hsymbol, c, hc⟩
    split at hc
    case h_1 c' hfound => exact ⟨_, hsymbol, symbol, exists_ofSymbol?_iff.1 ⟨c', hfound⟩, rfl⟩
    case h_2 => cases hc
  · rintro ⟨_, hsymbol, symbol, hknown, rfl⟩
    obtain ⟨c, hc⟩ := exists_ofSymbol?_iff.2 hknown
    exact ⟨symbol, hsymbol, c, by rw [hc]⟩

theorem exists_readAmount_iff :
    (∃ n, readAmount members = .ok n) ↔ Json.Has "value" Json.IsInteger members := by
  unfold readAmount
  simp only [exists_bind_iff, demand_eq_ok, anyField_eq_some]
  constructor
  · rintro ⟨value, ⟨hvalue, -⟩, n, hn⟩
    split at hn
    case h_1 n' hread => exact ⟨value, hvalue, Json.exists_int64?_iff.1 ⟨n', hread⟩⟩
    case h_2 => cases hn
  · rintro ⟨value, hvalue, hinteger⟩
    obtain ⟨n, hn⟩ := Json.exists_int64?_iff.2 hinteger
    refine ⟨value, ⟨hvalue, ?_⟩, n, by rw [hn]⟩
    -- A `null` would count as missing, but it is no integer.
    rintro rfl
    cases hn

theorem exists_readStat_iff :
    (∃ v, readStat members = .ok v) ↔
      Json.Has "value" (fun v => v.IsString ∨ v.IsInteger) members := by
  unfold readStat
  simp only [exists_bind_iff, demand_eq_ok, anyField_eq_some]
  constructor
  · rintro ⟨value, ⟨hvalue, -⟩, v, hv⟩
    split at hv
    case h_1 text => exact ⟨_, hvalue, .inl ⟨text, rfl⟩⟩
    case h_2 =>
      split at hv
      case h_1 n hread => exact ⟨value, hvalue, .inr (Json.exists_int64?_iff.1 ⟨n, hread⟩)⟩
      case h_2 => cases hv
  · rintro ⟨value, hvalue, ⟨text, rfl⟩ | hinteger⟩
    · exact ⟨_, ⟨hvalue, by simp⟩, _, rfl⟩
    · obtain ⟨n, hn⟩ := Json.exists_int64?_iff.2 hinteger
      obtain ⟨k, rfl, -⟩ := hinteger
      exact ⟨_, ⟨hvalue, by simp⟩, .number n, by simp only [hn]⟩

theorem exists_readName_iff :
    (∃ c, (do
      match ← demand "value" (anyField members "value") with
      | .str name => return Condition.named name
      | _ => .error .valueNotName : Except Flaw Condition) = .ok c) ↔
      Json.Has "value" Json.IsString members := by
  simp only [exists_bind_iff, demand_eq_ok, anyField_eq_some]
  constructor
  · rintro ⟨value, ⟨hvalue, -⟩, c, hc⟩
    split at hc
    case h_1 name => exact ⟨_, hvalue, name, rfl⟩
    case h_2 => cases hc
  · rintro ⟨_, hvalue, name, rfl⟩
    exact ⟨_, ⟨hvalue, by simp⟩, _, rfl⟩

theorem exists_readStatTest_iff {side : Side} :
    (∃ c, Condition.readStatTest side members = .ok c) ↔
      Grammar.StatTestOf side.label members := by
  unfold Condition.readStatTest Grammar.StatTestOf
  simp only [exists_bind_iff, demand_eq_ok, exists_pure_iff, and_true, exists_and_right,
    exists_textField_iff, exists_readComparison_iff, exists_readStat_iff]

end Parts

theorem Condition.exists_read_iff {j : Json} :
    (∃ c, Condition.read j = .ok c) ↔ Grammar.IsCondition j := by
  have hnames : (Condition.shape.map (·.1)).Nodup := by decide
  have htexts : ∀ members, (∀ field ∈ Condition.shape,
      Json.Each field.1 (fun j => field.2.admits j = true) members) ↔
      Grammar.Texts ["type", "operator", "region", "faction", "stat"] members := by
    intro members
    simp [Condition.shape, Grammar.Texts, FieldType.admits_text]
  unfold Condition.read Grammar.IsCondition
  simp only [exists_bind_iff, Shape.members_eq_ok hnames, htexts, demand_eq_ok, textField_eq_some,
    and_assoc]
  refine exists_congr fun members => and_congr_right fun _ => and_congr_right fun _ =>
    exists_congr fun kind => and_congr_right fun _ => ?_
  split
  case h_1 =>
    simp only [exists_bind_iff, exists_pure_iff, and_true, exists_and_right,
      exists_readComparison_iff, exists_readAmount_iff]
    rfl
  case h_2 => exact exists_readStatTest_iff
  case h_3 => exact exists_readStatTest_iff
  case h_4 => exact exists_readName_iff
  case h_5 hyear hregion hfaction hcommon =>
    rw [exists_pure_iff]
    unfold Grammar.ConditionOf
    split
    case h_1 => exact absurd rfl hyear
    case h_2 => exact absurd rfl hregion
    case h_3 => exact absurd rfl hfaction
    case h_4 => exact absurd rfl hcommon
    case h_5 => rfl

/-! ## Effects -/

theorem exists_readTarget_iff {members : List (String × Json)} :
    (∃ t, Effect.readTarget members = .ok t) ↔
      Xor (Json.Has "region" Json.IsString members) (Json.Has "faction" Json.IsString members) := by
  simp only [← exists_textField_iff, ← Option.isSome_iff_exists]
  unfold Effect.readTarget
  cases textField members "region" <;> cases textField members "faction" <;> simp [Xor]

theorem Effect.exists_read_iff {j : Json} :
    (∃ e, Effect.read j = .ok e) ↔ Grammar.IsEffect j := by
  have hnames : (Effect.shape.map (·.1)).Nodup := by decide
  have htexts : ∀ members, (∀ field ∈ Effect.shape,
      Json.Each field.1 (fun j => field.2.admits j = true) members) ↔
      Grammar.Texts ["type", "region", "faction", "stat", "new_leader"] members := by
    intro members
    simp [Effect.shape, Grammar.Texts, FieldType.admits_text]
  unfold Effect.read Grammar.IsEffect
  simp only [exists_bind_iff, Shape.members_eq_ok hnames, htexts, demand_eq_ok, textField_eq_some,
    and_assoc]
  refine exists_congr fun members => and_congr_right fun _ => and_congr_right fun _ =>
    exists_congr fun kind => and_congr_right fun _ => ?_
  split
  case h_1 =>
    simp only [exists_bind_iff, exists_pure_iff, and_true, exists_and_right, demand_eq_ok,
      exists_readTarget_iff, exists_textField_iff, exists_readAmount_iff]
    rfl
  case h_2 =>
    simp only [exists_bind_iff, exists_pure_iff, and_true, exists_and_right, demand_eq_ok,
      exists_textField_iff]
    rfl
  case h_3 hadjust happoint =>
    rw [exists_pure_iff]
    unfold Grammar.EffectOf
    split
    case h_1 => exact absurd rfl hadjust
    case h_2 => exact absurd rfl happoint
    case h_3 => rfl

/-! ## Follow-ups -/

namespace FollowUp

variable {members : List (String × Json)}

/-- The delay of a follow-up; zero when there is none. -/
def delayOf (members : List (String × Json)) : Int64 :=
  ((Json.lookup "delay" members).bind Json.int64?).getD 0

/-- The chance of a follow-up; the usual one when there is none. -/
def chanceOf (members : List (String × Json)) : Float :=
  ((Json.lookup "probability" members).bind Json.float?).getD defaultChance

theorem delayOf_within_iff (htype : Json.First "delay" (Json.NullOr Json.IsInteger) members) :
    (0 ≤ (delayOf members).toInt ∧ (delayOf members).toInt < UInt32.size) ↔
      Json.First "delay" (Json.NullOr Grammar.IsDelay) members := by
  unfold Json.First at htype ⊢
  unfold delayOf
  cases hdelay : Json.lookup "delay" members with
  | none => simp
  | some value =>
    simp only [Option.some.injEq, forall_eq', Option.bind_some]
    rcases htype value hdelay with rfl | ⟨k, rfl, hlow, hhigh⟩
    · simp [Json.NullOr, Json.int64?, Json.intWithin?, Json.int?]
    · have hread := Json.int64?_eq_some.2 ⟨k, rfl, hlow, hhigh, rfl⟩
      have hk : (Int64.ofInt k).toInt = k := Int64.toInt_ofInt_of_le hlow hhigh
      rw [hread, Option.getD_some, hk]
      simp [Json.NullOr, Grammar.IsDelay, UInt32.size]

theorem chanceOf_within_iff (htype : Json.First "probability" (Json.NullOr Json.IsNumber) members) :
    (0.0 ≤ chanceOf members ∧ chanceOf members ≤ 1.0) ↔
      Json.First "probability" (Json.NullOr Grammar.IsChance) members := by
  have hdefault : 0.0 ≤ defaultChance ∧ defaultChance ≤ 1.0 := by decide +kernel
  unfold Json.First at htype ⊢
  unfold chanceOf
  cases hchance : Json.lookup "probability" members with
  | none => simpa using hdefault
  | some value =>
    simp only [Option.some.injEq, forall_eq', Option.bind_some]
    rcases htype value hchance with rfl | hnumber
    · simpa [Json.NullOr, Json.float?] using hdefault
    · obtain ⟨x, hx⟩ := Json.exists_float?_iff.2 hnumber
      rw [hx, Option.getD_some]
      have hnotNull : value ≠ .null := by
        rintro rfl
        cases hx
      unfold Json.NullOr Grammar.IsChance
      simp [hnotNull, hx]

/-- A follow-up is read when both of its numbers are in their ranges. -/
theorem read_eq (j : Json) :
    FollowUp.read j = (do
      let members ← shape.members j
      let event ← demand "id" (textField members "id")
      if (delayOf members).toInt < 0 ∨ UInt32.size ≤ (delayOf members).toInt then
        .error (.delayOutOfRange (delayOf members))
      else if !(0.0 ≤ chanceOf members && chanceOf members ≤ 1.0) then
        .error (.chanceOutOfRange (chanceOf members))
      else
        .ok { event, delay := UInt32.ofNat (delayOf members).toInt.toNat
              chance := chanceOf members }) := rfl

theorem read_eq_ok {j : Json} {f : FollowUp} :
    FollowUp.read j = .ok f ↔ ∃ members, shape.members j = .ok members ∧
      Json.lookup "id" members = some (.str f.event) ∧
      (0 ≤ (delayOf members).toInt ∧ (delayOf members).toInt < UInt32.size) ∧
      (0.0 ≤ chanceOf members ∧ chanceOf members ≤ 1.0) ∧
      f = { event := f.event, delay := UInt32.ofNat (delayOf members).toInt.toNat
            chance := chanceOf members } := by
  simp only [read_eq, bind_eq_ok, demand_eq_ok, textField_eq_some]
  refine exists_congr fun members => and_congr_right fun _ => ?_
  constructor
  · rintro ⟨event, hevent, hf⟩
    split at hf
    case isTrue => cases hf
    case isFalse hdelay =>
      split at hf
      case isTrue => cases hf
      case isFalse hchance =>
        cases hf
        refine ⟨hevent, ?_, by simpa using hchance, rfl⟩
        rw [not_or, Int.not_lt, Int.not_le] at hdelay
        exact hdelay
  · rintro ⟨hevent, hdelay, hchance, hf⟩
    refine ⟨f.event, hevent, ?_⟩
    rw [if_neg (by omega), if_neg (by simpa using hchance), ← hf]

/-- A follow-up that is read refers to the event that its id names. -/
theorem id_of_read {j : Json} {f : FollowUp} (h : FollowUp.read j = .ok f) :
    j.member? "id" = some (.str f.event) := by
  obtain ⟨members, hmembers, hevent, -⟩ := read_eq_ok.1 h
  rw [((Shape.members_eq_ok (by decide)).1 hmembers).1]
  exact hevent

theorem exists_read_iff {j : Json} :
    (∃ f, FollowUp.read j = .ok f) ↔ Grammar.IsFollowUp j := by
  have hnames : (FollowUp.shape.map (·.1)).Nodup := by decide
  have htypes : ∀ members, (∀ field ∈ FollowUp.shape,
      Json.Each field.1 (fun j => field.2.admits j = true) members) ↔
      Grammar.Texts ["id"] members ∧ Json.Each "delay" (Json.NullOr Json.IsInteger) members ∧
        Json.Each "probability" (Json.NullOr Json.IsNumber) members := by
    intro members
    simp [FollowUp.shape, Grammar.Texts, FieldType.admits_text, FieldType.admits_integer,
      FieldType.admits_number]
  unfold Grammar.IsFollowUp
  simp only [read_eq_ok, Shape.members_eq_ok hnames, htypes, and_assoc]
  rw [exists_comm]
  refine exists_congr fun members => ?_
  constructor
  · rintro ⟨f, hj, htexts, hdelay, hchance, hid, hlow, hhigh, hpositive, hsure, -⟩
    exact ⟨hj, htexts, hdelay, hchance, ⟨_, hid, _, rfl⟩,
      (delayOf_within_iff hdelay.first).1 ⟨hlow, hhigh⟩,
      (chanceOf_within_iff hchance.first).1 ⟨hpositive, hsure⟩⟩
  · rintro ⟨hj, htexts, hdelay, hchance, ⟨_, hid, id, rfl⟩, hwithin, hlikely⟩
    obtain ⟨hlow, hhigh⟩ := (delayOf_within_iff hdelay.first).2 hwithin
    obtain ⟨hpositive, hsure⟩ := (chanceOf_within_iff hchance.first).2 hlikely
    exact ⟨⟨id, _, _⟩, hj, htexts, hdelay, hchance, hid, hlow, hhigh, hpositive, hsure, rfl⟩

end FollowUp

end Annals
