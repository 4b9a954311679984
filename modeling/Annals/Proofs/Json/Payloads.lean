import Annals.Json.Record
import Mathlib.Algebra.Group.Int.Defs
/-!
# Payloads of JSON values

* `str?_eq_some`, `arr?_eq_some`, `intWithin?_eq_some`, `int64?_eq_some`: which values have a
  payload of a type.
* `int32?_toInt`, `int64?_toInt`, `uint32?_toNat`, `list?_map`: payloads that decode to what was
  encoded.
* `untag?_cons`: the tag of a record.
* `lookup_eq_some_iff_mem`: entries with different names.
* `lookup_of_mem`, `exists_untagged`, `exists_fields`, `exists_record`: in an object with one member
  per name, the order of the members does not matter, and other members do not disturb.
-/

namespace Annals

/-! ## Lookups -/

/-- Among entries of different names, each is found by its own. -/
theorem lookup_eq_some_iff_mem {β : Type} {entries : List (String × β)}
    (hnames : (entries.map (·.1)).Nodup) {name : String} {value : β} :
    entries.lookup name = some value ↔ (name, value) ∈ entries := by
  induction entries with
  | nil => simp
  | cons entry rest ih =>
    obtain ⟨key, first⟩ := entry
    rw [List.map_cons, List.nodup_cons] at hnames
    rw [List.lookup_cons, List.mem_cons, Prod.mk.injEq]
    split
    case h_1 heq =>
      have hkey : name = key := eq_of_beq heq
      subst hkey
      have hnew : (name, value) ∉ rest := fun hmem => hnames.1 (List.mem_map.2 ⟨_, hmem, rfl⟩)
      simp [hnew, eq_comm]
    case h_2 hne =>
      have hkey : name ≠ key := by simpa using hne
      simp [hkey, ih hnames.2]

namespace Json

/-! ## Members -/

/-- Members are looked up as entries are. -/
theorem lookup_eq (name : String) (members : List (String × Json)) :
    lookup name members = List.lookup name members := by
  induction members with
  | nil => rfl
  | cons member rest ih =>
    obtain ⟨key, value⟩ := member
    rw [lookup, List.lookup_cons, ih]
    by_cases hkey : key = name
    · simp [hkey]
    · have hne : (name == key) = false := beq_false_of_ne (Ne.symm hkey)
      simp [hkey, hne]

theorem mem_of_lookup {name : String} {members : List (String × Json)} {value : Json}
    (h : lookup name members = some value) : (name, value) ∈ members := by
  induction members with
  | nil => cases h
  | cons member rest ih =>
    obtain ⟨key, first⟩ := member
    unfold lookup at h
    split at h
    case isTrue hkey =>
      cases h
      rw [hkey]
      exact List.mem_cons_self
    case isFalse => exact List.mem_cons_of_mem _ (ih h)

/-- The tag is told from the other members by its name. -/
theorem untag?_cons {tag kind : String} {kinds : List String} (hkind : kind ∈ kinds)
    {members : List (String × Json)} (h : ∀ m ∈ members, m.1 ≠ tag) (nested : Bool) :
    untag? tag kinds nested (.obj ((tag, .str kind) :: members)) = some (kind, .obj members) := by
  have htag : members.filter (fun m => m.1 == tag) = [] := by simpa using h
  have hrest : members.filter (fun m => m.1 != tag) = members := by simpa using h
  simp [untag?, kind?, htag, hrest, hkind]

/-! ## Objects with one member per name -/

/-- Only the names count for what a member is dropped for. -/
theorem lookup_filter (keep : String → Bool) {name : String} (h : keep name = true)
    (members : List (String × Json)) :
    lookup name (members.filter fun m => keep m.1) = lookup name members := by
  induction members with
  | nil => rfl
  | cons member rest ih =>
    obtain ⟨key, value⟩ := member
    by_cases hkey : key = name
    · subst hkey
      rw [List.filter_cons_of_pos (by exact h)]
      unfold lookup
      rw [if_pos rfl, if_pos rfl]
    · have hskip : lookup name ((key, value) :: rest) = lookup name rest := if_neg hkey
      rw [hskip, List.filter_cons]
      split
      · exact (if_neg hkey).trans ih
      · exact ih

section Nodup

variable {members : List (String × Json)} (hnames : (members.map (·.1)).Nodup)

include hnames

/-- A member is found by its name. -/
theorem lookup_of_mem {name : String} {value : Json} (h : (name, value) ∈ members) :
    lookup name members = some value := by
  rw [lookup_eq]
  exact (lookup_eq_some_iff_mem hnames).2 h

/-- The member of a name is the only one of that name. -/
theorem filter_eq_singleton {name : String} {value : Json} (h : lookup name members = some value) :
    (members.filter fun m => m.1 == name) = [(name, value)] := by
  induction members with
  | nil => cases h
  | cons member rest ih =>
    obtain ⟨key, first⟩ := member
    rw [List.map_cons, List.nodup_cons] at hnames
    obtain ⟨hnew, hrest⟩ := hnames
    unfold lookup at h
    split at h
    case isTrue hkey =>
      cases h
      subst hkey
      have hnone : (rest.filter fun m => m.1 == key) = [] := by
        refine List.filter_eq_nil_iff.2 fun m hm heq => ?_
        exact hnew (List.mem_map.2 ⟨m, hm, eq_of_beq heq⟩)
      rw [List.filter_cons_of_pos (by simp), hnone]
    case isFalse hkey =>
      rw [List.filter_cons_of_neg (by simpa using hkey)]
      exact ih hrest h

/-- The fields of a record may be anywhere, among other members. -/
theorem exists_fields (names : List String) (spare : Bool) :
    ∃ r, Record.ofJson? names spare (.obj members) = some r ∧
      ∀ name ∈ names, lookup name r.fields = lookup name members := by
  have hsub : (members.filter fun m => names.contains m.1).Sublist members := List.filter_sublist
  exact ⟨⟨members.filter fun m => names.contains m.1, false⟩,
    if_pos ((hsub.map _).nodup hnames), fun name hname =>
      lookup_filter names.contains (by simpa using hname) members⟩

/-- A field of a record is decoded wherever its member stands. -/
theorem exists_record (names : List String) (spare : Bool) :
    ∃ r, Record.ofJson? names spare (.obj members) = some r ∧
      ∀ name ∈ names, ∀ {α : Type} (decode : Json → Option α),
        r.need name decode = (lookup name members).bind decode := by
  obtain ⟨r, hr, hfields⟩ := exists_fields hnames names spare
  refine ⟨r, hr, fun name hname α decode => ?_⟩
  rw [Record.need, hfields name hname]

end Nodup

/-- An object of which the tag has been taken, while the other members have stayed. -/
structure Untagged (tag : String) (members rest : List (String × Json)) : Prop where
  nodup : (rest.map (·.1)).Nodup
  subset : rest ⊆ members
  lookup_eq : ∀ name, name ≠ tag → lookup name rest = lookup name members

/-- The tag of a record may be anywhere. -/
theorem exists_untagged {members : List (String × Json)} (hnames : (members.map (·.1)).Nodup)
    {tag kind : String} (htag : lookup tag members = some (.str kind)) {kinds : List String}
    (hkind : kind ∈ kinds) (nested : Bool) :
    ∃ rest, untag? tag kinds nested (.obj members) = some (kind, .obj rest) ∧
      Untagged tag members rest := by
  have hsub : (members.filter fun m => m.1 != tag).Sublist members := List.filter_sublist
  have honly := filter_eq_singleton hnames htag
  refine ⟨members.filter fun m => m.1 != tag, by simp [untag?, kind?, honly, hkind], ?_⟩
  exact {
    nodup := (hsub.map _).nodup hnames
    subset := hsub.subset
    lookup_eq := fun name hname =>
      lookup_filter (fun key => key != tag) (by simpa using hname) members }

/-- The fields of a tagged record may be anywhere, among other members. -/
theorem Untagged.exists_record {tag : String} {members rest : List (String × Json)}
    (h : Untagged tag members rest) (names : List String) (htag : tag ∉ names) (spare : Bool) :
    ∃ r, Record.ofJson? names spare (.obj rest) = some r ∧
      ∀ name ∈ names, ∀ {α : Type} (decode : Json → Option α),
        r.need name decode = (lookup name members).bind decode := by
  obtain ⟨r, hr, hneed⟩ := Json.exists_record h.nodup names spare
  refine ⟨r, hr, fun name hname α decode => ?_⟩
  have hne : name ≠ tag := by
    rintro rfl
    exact htag hname
  rw [hneed name hname, h.lookup_eq name hne]

/-! ## Texts and lists -/

theorem str?_eq_some {j : Json} {s : String} : j.str? = some s ↔ j = .str s := by
  cases j <;> simp [str?]

theorem arr?_eq_some {j : Json} {items : List Json} : j.arr? = some items ↔ j = .arr items := by
  cases j <;> simp [arr?]

/-- What decodes one by one decodes as a list. -/
theorem mapM_map_eq_some {α β : Type} {encode : α → β} {decode : β → Option α}
    (h : ∀ x, decode (encode x) = some x) (xs : List α) :
    (xs.map encode).mapM decode = some xs := by
  have hpure : decode ∘ encode = pure := funext h
  rw [List.mapM_map, hpure, List.mapM_pure, List.map_id']
  rfl

theorem list?_map {α : Type} {encode : α → Json} {decode : Json → Option α}
    (h : ∀ x, decode (encode x) = some x) (xs : List α) :
    list? decode (.arr (xs.map encode)) = some xs := mapM_map_eq_some h xs

/-! ## Integers -/

theorem intWithin?_eq_some {j : Json} {low high n : Int} :
    j.intWithin? low high = some n ↔ j = .int n ∧ low ≤ n ∧ n ≤ high := by
  unfold intWithin?
  rw [Option.filter_eq_some_iff, Bool.and_eq_true, decide_eq_true_eq, decide_eq_true_eq]
  cases j <;> simp [int?]

theorem int64?_eq_some {j : Json} {n : Int64} :
    j.int64? = some n ↔ ∃ k : Int, j = .int k ∧ -2 ^ 63 ≤ k ∧ k < 2 ^ 63 ∧ Int64.ofInt k = n := by
  have hlow : Int64.minValue.toInt = -2 ^ 63 := by decide
  have hhigh : Int64.maxValue.toInt = 2 ^ 63 - 1 := by decide
  unfold int64?
  simp only [Option.map_eq_some_iff, intWithin?_eq_some, hlow, hhigh, Int.le_sub_one_iff, and_assoc]

@[simp] theorem int32?_toInt (n : Int32) : int32? (.int n.toInt) = some n := by
  have hwithin := intWithin?_eq_some.2 ⟨rfl, n.minValue_le_toInt, n.toInt_le⟩
  rw [int32?, hwithin, Option.map_some, Int32.ofInt_toInt]

@[simp] theorem int64?_toInt (n : Int64) : int64? (.int n.toInt) = some n := by
  have hwithin := intWithin?_eq_some.2 ⟨rfl, n.minValue_le_toInt, n.toInt_le⟩
  rw [int64?, hwithin, Option.map_some, Int64.ofInt_toInt]

theorem uint32?_toNat (n : UInt32) : uint32? (.int n.toNat) = some n := by
  have hlt := n.toNat_lt_size
  have hwithin := intWithin?_eq_some.2
    ⟨rfl, Int.natCast_nonneg n.toNat, show (n.toNat : Int) ≤ UInt32.size - 1 by omega⟩
  rw [uint32?, hwithin, Option.map_some, Int.toNat_natCast, UInt32.ofNat_toNat]

end Json

end Annals
