import Annals.Proofs.Json.Reordered
import Annals.World.Encoding
/-!
# The world read back from JSON

What is written of the world is restored from JSON, with the members of every object in any order.

* `Table.ofList_perm`, `restores_table`: tables.
* `Target.ofMembers?_eq_some`, `Target.restores`: owners, alone and among other members.
* `Condition.restores`, `Effect.restores`: the parts of events.
* `Snapshot.restores`: snapshots.
* `exact_toJson`: for each of them, that its JSON is exact.
-/

namespace Annals

open Json (Exact Reordered Restores restores_leaf)

variable {d : Nat}

/-! ## Tables -/

namespace Table

variable {α : Type}

theorem nodup_names (t : Table α) : (t.toList.map (·.1)).Nodup := by
  refine List.pairwise_map.2 (t.ordered.imp fun hlt heq => ?_)
  exact String.lt_irrefl _ (heq ▸ hlt)

/-- Entries of a table are found as those of any list. -/
theorem find_eq (name : String) (l : List (String × α)) : find name l = l.lookup name := by
  induction l with
  | nil => rfl
  | cons e l ih =>
    obtain ⟨key, value⟩ := e
    rw [find, List.lookup_cons, ih]
    by_cases hkey : key = name
    · simp [hkey]
    · have hne : (name == key) = false := beq_false_of_ne (Ne.symm hkey)
      simp [hkey, hne]

theorem mem_toList {t : Table α} {name : String} {value : α} :
    (name, value) ∈ t.toList ↔ t.get? name = some value := by
  rw [get?, find_eq]
  exact (lookup_eq_some_iff_mem t.nodup_names).symm

/-- Entries of different names all stay in the table that they are put into. -/
theorem get?_foldl_insert {l : List (String × α)} (h : (l.map (·.1)).Nodup) (t : Table α)
    (name : String) (value : α) :
    (l.foldl (fun t e => t.insert e.1 e.2) t).get? name = some value ↔
      (name, value) ∈ l ∨ name ∉ l.map (·.1) ∧ t.get? name = some value := by
  induction l generalizing t with
  | nil => simp
  | cons e l ih =>
    obtain ⟨key, first⟩ := e
    rw [List.map_cons, List.nodup_cons] at h
    rw [List.foldl_cons, ih h.2]
    by_cases hname : name = key
    · subst hname
      have hnew : (name, value) ∉ l := fun hmem => h.1 (List.mem_map_of_mem (f := (·.1)) hmem)
      simp [h.1, hnew, eq_comm]
    · simp [hname, get?_insert_ne hname]

/-- A table is the table of its entries in any order. -/
theorem ofList_perm {l : List (String × α)} {t : Table α} (h : l.Perm t.toList) :
    ofList l = t := by
  have hnames : (l.map (·.1)).Nodup := ((h.map _).nodup_iff).2 t.nodup_names
  refine ext_get? fun name => Option.ext fun value => ?_
  rw [ofList, get?_foldl_insert hnames, h.mem_iff, mem_toList]
  simp

variable {decode : Json → Option α} {encode : α → Json}

/-- A table whose values are restored is restored. -/
theorem restores (h : ∀ x, Restores decode (encode x) x) (t : Table α) :
    Restores (Table.ofJson? decode) (t.toJson encode) t := by
  intro k hk
  obtain ⟨middle, members, rfl, hmiddle, hperm⟩ := hk.exists_members
  have hdecoded : List.Forall₂ (fun m e => m.1 = e.1 ∧ decode m.2 = some e.2) middle t.toList :=
    ((List.forall₂_map_left_iff.1 hmiddle).imp fun e m hm => ⟨hm.1.symm, h e.2 m.2 hm.2⟩).flip
  -- The members are entries of the table, in the order in which they stand.
  obtain ⟨entries, hentries, hsame⟩ := List.perm_comp_forall₂ hperm.symm hdecoded
  have hread :
      (members.mapM fun m => (decode m.2).map fun value => (m.1, value)) = some entries := by
    refine mapM_eq_some_of_forall₂ (hentries.imp fun m e hm => ?_)
    rw [hm.1, hm.2, Option.map_some]
  simp only [Table.ofJson?, Json.obj?, Option.bind_some, hread, Option.map_some, ofList_perm hsame]

theorem exact_toJson (h : ∀ x, Exact d (encode x)) (t : Table α) :
    Exact (d + 1) (t.toJson encode) := by
  refine .obj fun m hm => ?_
  obtain ⟨e, -, rfl⟩ := List.mem_map.1 hm
  exact h e.2

end Table

/-! ## Owners -/

namespace Target

variable {members : List (String × Json)}

theorem ofLabel?_eq_some {label : String} {side : Side} :
    Side.ofLabel? label = some side ↔ label = side.label := by
  unfold Side.ofLabel?
  split
  case isTrue hregion => cases side <;> simp [hregion, Side.label]
  case isFalse hregion =>
    split
    case isTrue hfaction => cases side <;> simp [hfaction, Side.label]
    case isFalse hfaction => cases side <;> simp [hregion, hfaction, Side.label]

/-- The only member that names an owner is found. -/
theorem ofMembers?_eq_some {t : Target} (hmem : (t.side.label, Json.str t.name) ∈ members)
    (honly : ∀ m ∈ members, ∀ side : Side, m.1 = side.label → m = (t.side.label, .str t.name)) :
    ofMembers? members = some t := by
  have hlabel : Side.ofLabel? t.side.label = some t.side := ofLabel?_eq_some.2 rfl
  have hsome : (members.find? fun m => (Side.ofLabel? m.1).isSome).isSome = true := by
    rw [List.find?_isSome]
    exact ⟨_, hmem, by simp [hlabel]⟩
  obtain ⟨m, hfind⟩ := Option.isSome_iff_exists.1 hsome
  have hfound : (Side.ofLabel? m.1).isSome = true := by simpa using List.find?_some hfind
  obtain ⟨side, hside⟩ := Option.isSome_iff_exists.1 hfound
  have hm := honly m (List.mem_of_find?_eq_some hfind) side (ofLabel?_eq_some.1 hside)
  unfold ofMembers?
  rw [hfind, hm]
  simp [ofJson?, hlabel]

/-- The only member of an object cannot be permuted. -/
theorem restores (t : Target) : Restores ofJson? t.toJson t := by
  intro k hk
  obtain ⟨members', rfl, hperm⟩ := hk.exists_perm (by simp [Json.arr?, Json.obj?])
  obtain rfl := List.singleton_perm.1 hperm
  simp [ofJson?, ofLabel?_eq_some.2 rfl]

theorem exact_toJson (t : Target) : Exact (d + 1) t.toJson := .obj (by simp [Exact.str])

end Target

/-! ## Stats and comparisons -/

theorem Comparison.restores (c : Comparison) (nested : Bool) :
    Restores (fun j => ofJson? j nested) c.toJson c :=
  restores_leaf rfl rfl (ofSymbol?_symbol c)

theorem Stat.restores (v : Stat) : Restores ofJson? v.toJson v := by
  cases v with
  | number n =>
    refine restores_leaf rfl rfl ?_
    show ((Json.int n.toInt).int64?).map number = some (number n)
    rw [Json.int64?_toInt, Option.map_some]
  | text s => exact restores_leaf rfl rfl rfl

theorem Stat.exact_toJson (v : Stat) : Exact d v.toJson := by
  cases v with
  | number n => exact .int64 n
  | text s => exact .str s

/-! ## Conditions -/

namespace Condition

/-- The members of a stat test behind its kind. -/
theorem statOfJson?_of_reordered {t : StatTest} {k : Json}
    (h : Reordered (.obj [(t.side.label, .str t.owner), ("stat", .str t.stat),
      ("operator", t.comparison.toJson), ("value", t.value.toJson)]) k) :
    statOfJson? t.side k = some (.stat t) := by
  obtain ⟨side, owner, stat, comparison, value⟩ := t
  have hnames : [side.label, "stat", "operator", "value"].Nodup := by cases side <;> decide
  obtain ⟨r, hr, hfields⟩ := h.exists_record hnames [side.label, "stat", "operator", "value"]
  simp only [List.forall_mem_cons] at hfields
  obtain ⟨howner, hstat, hcomparison, hvalue, -⟩ := hfields
  have howner' := (howner (by simp)).str
  have hstat' := (hstat (by simp)).str
  have hcomparison' := (hcomparison (by simp)).need (comparison.restores true)
  have hvalue' := (hvalue (by simp)).need value.restores
  simp [statOfJson?, hr, howner', hstat', hcomparison', hvalue']

/-- A condition is restored, alone or inside a tagged record. -/
theorem restores (c : Condition) (nested : Bool) :
    Restores (fun j => ofJson? j nested) c.toJson c := by
  intro k hk
  cases c with
  | year comparison value =>
    obtain ⟨rest, r, huntag, hr, hfields⟩ :=
      hk.exists_tagged (by simp) kinds (by decide) nested ["operator", "value"]
    simp only [List.forall_mem_cons] at hfields
    obtain ⟨hcomparison, hvalue, -⟩ := hfields
    have hcomparison' := (hcomparison (by simp)).need (comparison.restores true)
    have hvalue' := (hvalue (by simp)).int64
    simp [ofJson?, huntag, hr, hcomparison', hvalue']
  | stat t =>
    have htag : "type" ∉ [t.side.label, "stat", "operator", "value"] := by
      cases t.side <;> decide
    have hkind : t.side.label ∈ kinds := by cases t.side <;> decide
    obtain ⟨rest, huntag, hrest⟩ := hk.exists_untagged htag kinds hkind nested
    have hread := statOfJson?_of_reordered hrest
    obtain ⟨side, owner, stat, comparison, value⟩ := t
    cases side with
    | region => simpa [ofJson?, huntag, Side.label] using hread
    | faction => simpa [ofJson?, huntag, Side.label] using hread
  | named name =>
    obtain ⟨rest, r, huntag, hr, hfields⟩ :=
      hk.exists_tagged (by simp) kinds (by decide) nested ["value"]
    have hname := (hfields _ List.mem_cons_self (by simp)).str
    simp [ofJson?, huntag, hr, hname]
  | unknown kind =>
    obtain ⟨rest, r, huntag, hr, hfields⟩ :=
      hk.exists_tagged (by simp) kinds (by decide) nested ["kind"]
    have hkind := (hfields _ List.mem_cons_self (by simp)).str
    simp [ofJson?, huntag, hr, hkind]

theorem exact_toJson (c : Condition) : Exact (d + 1) c.toJson := by
  cases c with
  | year comparison value =>
    exact .obj (by simp [Comparison.toJson, Exact.str, Exact.int64])
  | stat t => exact .obj (by simp [Comparison.toJson, Exact.str, t.value.exact_toJson])
  | named name => exact .obj (by simp [Exact.str])
  | unknown kind => exact .obj (by simp [Exact.str])

end Condition

/-! ## Effects -/

namespace Effect

/-- An effect is restored, alone or inside a tagged record. -/
theorem restores (e : Effect) (nested : Bool) :
    Restores (fun j => ofJson? j nested) e.toJson e := by
  intro k hk
  cases e with
  | adjust target stat amount =>
    have htag : "type" ∉ [target.side.label, "stat", "value"] := by cases target.side <;> decide
    have hnames : [target.side.label, "stat", "value"].Nodup := by cases target.side <;> decide
    obtain ⟨rest, huntag, hrest⟩ := hk.exists_untagged htag kinds (by decide) nested
    obtain ⟨r, hr, hfields⟩ := hrest.exists_record hnames ["stat", "value"]
    simp only [List.forall_mem_cons] at hfields
    obtain ⟨-, hstat, hamount, -⟩ := hfields
    have hstat' := (hstat (by simp)).str
    have hamount' := (hamount (by simp)).int64
    -- The owner is looked for among all members.
    obtain ⟨_, ⟨⟩, hperm⟩ := hrest.exists_perm (by simp [Json.arr?, Json.obj?])
    have htarget : Target.ofMembers? rest = some target := by
      have hmem := hperm.mem_iff.1 List.mem_cons_self
      refine Target.ofMembers?_eq_some hmem fun m hm side hside => ?_
      have hm := hperm.mem_iff.2 hm
      simp only [List.mem_cons, List.not_mem_nil, or_false] at hm
      -- Neither the stat nor the amount stands under the label of a side.
      rcases hm with rfl | rfl | rfl
      · rfl
      · cases side <;> simp [Side.label] at hside
      · cases side <;> simp [Side.label] at hside
    simp [ofJson?, huntag, adjustOfJson?, Json.obj?, hr, htarget, hstat', hamount']
  | appoint faction leader =>
    obtain ⟨rest, r, huntag, hr, hfields⟩ :=
      hk.exists_tagged (by simp) kinds (by decide) nested ["faction", "new_leader"]
    simp only [List.forall_mem_cons] at hfields
    obtain ⟨hfaction, hleader, -⟩ := hfields
    have hfaction' := (hfaction (by simp)).str
    have hleader' := (hleader (by simp)).str
    simp [ofJson?, huntag, hr, hfaction', hleader']
  | unknown kind =>
    obtain ⟨rest, r, huntag, hr, hfields⟩ :=
      hk.exists_tagged (by simp) kinds (by decide) nested ["kind"]
    have hkind := (hfields _ List.mem_cons_self (by simp)).str
    simp [ofJson?, huntag, hr, hkind]

theorem exact_toJson (e : Effect) : Exact (d + 1) e.toJson := by
  cases e with
  | adjust target stat amount => exact .obj (by simp [Exact.str, Exact.int64])
  | appoint faction leader => exact .obj (by simp [Exact.str])
  | unknown kind => exact .obj (by simp [Exact.str])

end Effect

/-! ## Snapshots -/

namespace Snapshot

/-- A snapshot is restored. -/
theorem restores (s : Snapshot) : Restores ofJson? s.toJson s := by
  intro k hk
  obtain ⟨r, hr, hfields⟩ := hk.exists_record (by simp) outline.names
  simp only [List.forall_mem_cons] at hfields
  obtain ⟨hyear, hregions, hfactions, -⟩ := hfields
  have howners := Table.restores (Table.restores Stat.restores)
  have hyear' := (hyear (by decide)).int32
  have hregions' := (hregions (by decide)).getD (howners s.regions) .empty
  have hfactions' := (hfactions (by decide)).getD (howners s.factions) .empty
  simp [ofJson?, hr, hyear', hregions', hfactions']

theorem exact_toJson (s : Snapshot) : Exact (d + 3) s.toJson := by
  have howners : ∀ t : Table Stats, Exact (d + 2) (t.toJson (Table.toJson Stat.toJson)) :=
    Table.exact_toJson (Table.exact_toJson Stat.exact_toJson)
  exact .obj (by simp [Exact.int32, howners])

end Snapshot

end Annals
