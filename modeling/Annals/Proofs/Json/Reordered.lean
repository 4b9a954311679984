import Annals.Proofs.Counterparts
import Annals.Proofs.Json.Payloads
import Annals.Proofs.Json.Values
import Mathlib.Data.List.Perm.Basic
/-!
# Members in any order

Whoever writes a value by other means may list the members of its objects in another order. A
decoder that restores what was encoded must not depend on that order.

* `Reordered`: the members of every object have been permuted.
* `Restores`: a decoder gives one result for all reorderings of a value.
* `Reordered.exists_record`, `Record.Holds.need`, `Record.Holds.getD`, `Record.Holds.nullable`: the
  fields of a record.
* `Reordered.exists_untagged`, `Reordered.exists_tagged`: the tag of a record.
* `restores_leaf`, `restores_list`: texts, numbers and lists.
* `Restores.text`, `Restores.record`: both texts of every reordering.
-/

namespace Annals.Json

/-! ## Reorderings -/

/-- The members of every object, at every depth, have been permuted. -/
inductive Reordered : Json → Json → Prop where
  | refl (j : Json) : Reordered j j
  | arr {items items' : List Json} (hitems : List.Forall₂ Reordered items items') :
      Reordered (.arr items) (.arr items')
  /-- The values are reordered one by one, and then the members are permuted. -/
  | obj {members middle members' : List (String × Json)}
      (hnames : members.map (·.1) = middle.map (·.1))
      (hvalues : List.Forall₂ (fun m m' => Reordered m.2 m'.2) members middle)
      (hperm : middle.Perm members') : Reordered (.obj members) (.obj members')

/-- The members in any order. -/
theorem Reordered.of_perm {members members' : List (String × Json)}
    (h : members.Perm members') : Reordered (.obj members) (.obj members') :=
  .obj rfl (List.forall₂_same.2 fun m _ => .refl m.2) h

variable {j k : Json}

/-- A value without members and items has no other order. -/
theorem Reordered.eq_of_leaf (h : Reordered j k) (harr : j.arr? = none) (hobj : j.obj? = none) :
    k = j := by
  cases h with
  | refl => rfl
  | arr => cases harr
  | obj => cases hobj

theorem Reordered.isNull_eq (h : Reordered j k) : k.isNull = j.isNull := by
  cases h <;> rfl

theorem Reordered.exists_items {items : List Json} (h : Reordered (.arr items) k) :
    ∃ items', k = .arr items' ∧ List.Forall₂ Reordered items items' := by
  cases h with
  | refl => exact ⟨items, rfl, List.forall₂_same.2 fun j _ => .refl j⟩
  | arr hitems => exact ⟨_, rfl, hitems⟩

/-- A member of one name, with its value reordered. -/
def SameMember (m m' : String × Json) : Prop := m.1 = m'.1 ∧ Reordered m.2 m'.2

theorem Reordered.exists_members {members : List (String × Json)} (h : Reordered (.obj members) k) :
    ∃ middle members', k = .obj members' ∧ List.Forall₂ SameMember members middle ∧
      middle.Perm members' := by
  cases h with
  | refl =>
    exact ⟨members, members, rfl, List.forall₂_same.2 fun m _ => ⟨rfl, .refl m.2⟩, .refl _⟩
  | obj hnames hvalues hperm =>
    rw [← List.forall₂_eq_eq_eq, List.forall₂_map_left_iff, List.forall₂_map_right_iff] at hnames
    exact ⟨_, _, rfl, hnames.mp (fun _ _ => .intro) hvalues, hperm⟩

/-- Depth and numbers do not depend on the order. -/
theorem Reordered.exact {d : Nat} (h : Reordered j k) (hj : Exact d j) : Exact d k := by
  induction hj generalizing k with
  | null => exact h.eq_of_leaf rfl rfl ▸ .null
  | bool b => exact h.eq_of_leaf rfl rfl ▸ .bool b
  | int hlow hhigh => exact h.eq_of_leaf rfl rfl ▸ .int hlow hhigh
  | str s => exact h.eq_of_leaf rfl rfl ▸ .str s
  | arr hitems ih =>
    obtain ⟨items', rfl, hitems'⟩ := h.exists_items
    refine .arr fun k hk => ?_
    obtain ⟨j, hj, hreordered⟩ := exists_of_mem_right hitems' hk
    exact ih j hj hreordered
  | obj hmembers ih =>
    obtain ⟨middle, members', rfl, hmiddle, hperm⟩ := h.exists_members
    refine .obj fun m' hm' => ?_
    obtain ⟨m, hm, -, hreordered⟩ := exists_of_mem_right hmiddle (hperm.mem_iff.2 hm')
    exact ih m hm hreordered

/-- A reordered object has the same names. -/
theorem Reordered.names_perm {members members' : List (String × Json)}
    (h : Reordered (.obj members) (.obj members')) :
    (members.map (·.1)).Perm (members'.map (·.1)) := by
  obtain ⟨middle, _, ⟨⟩, hmiddle, hperm⟩ := h.exists_members
  have hnames : members.map (·.1) = middle.map (·.1) :=
    map_eq_map_of_forall₂ hmiddle fun _ _ hm => hm.1
  rw [hnames]
  exact hperm.map _

/-- Members without members and items of their own are only permuted. -/
theorem Reordered.exists_perm {members : List (String × Json)} (h : Reordered (.obj members) k)
    (hleaves : ∀ m ∈ members, m.2.arr? = none ∧ m.2.obj? = none) :
    ∃ members', k = .obj members' ∧ members.Perm members' := by
  obtain ⟨middle, members', rfl, hmiddle, hperm⟩ := h.exists_members
  have hleft := (List.forall₂_and_left members middle).2 ⟨hleaves, hmiddle⟩
  have hsame : members = middle := by
    rw [← List.forall₂_eq_eq_eq]
    refine hleft.imp fun m m' hm => ?_
    obtain ⟨⟨harr, hobj⟩, hname, hvalue⟩ := hm
    exact Prod.ext hname (hvalue.eq_of_leaf harr hobj).symm
  exact ⟨members', rfl, hsame ▸ hperm⟩

/-! ## Records -/

/-- Something that may be missing is exact, since `null` is. -/
theorem Exact.orNull {α : Type} {d : Nat} {encode : α → Json} (h : ∀ x, Exact d (encode x))
    (x? : Option α) : Exact d (orNull encode x?) := by
  cases x? with
  | none => exact .null
  | some x => exact h x

/-- A record has a field, with its value reordered. -/
def Record.Holds (r : Record) (name : String) (j : Json) : Prop :=
  ∃ k, lookup name r.fields = some k ∧ Reordered j k

/-- The fields of a record are found in any order. -/
theorem Reordered.exists_record {members : List (String × Json)} (h : Reordered (.obj members) k)
    (hnames : (members.map (·.1)).Nodup) (names : List String) :
    ∃ r, Record.ofJson? names false k = some r ∧
      ∀ m ∈ members, m.1 ∈ names → r.Holds m.1 m.2 := by
  obtain ⟨middle, members', rfl, hmiddle, hperm⟩ := h.exists_members
  have hnames' := h.names_perm.nodup_iff.1 hnames
  obtain ⟨r, hr, hfields⟩ := exists_fields hnames' names false
  refine ⟨r, hr, fun m hm hname => ?_⟩
  obtain ⟨m', hm', heq, hreordered⟩ := exists_of_mem_left hmiddle hm
  refine ⟨m'.2, ?_, hreordered⟩
  rw [hfields m.1 hname]
  exact lookup_of_mem hnames' (heq ▸ hperm.mem_iff.1 hm')

/-- The tag of a record is found in any order, and the other members are those of the record. -/
theorem Reordered.exists_untagged {tag kind : String} {members : List (String × Json)}
    (h : Reordered (.obj ((tag, .str kind) :: members)) k) (htag : tag ∉ members.map (·.1))
    (kinds : List String) (hkind : kind ∈ kinds) (nested : Bool) :
    ∃ rest, k.untag? tag kinds nested = some (kind, .obj rest) ∧
      Reordered (.obj members) (.obj rest) := by
  obtain ⟨middle, members', rfl, hmiddle, hperm⟩ := h.exists_members
  obtain ⟨first, others, ⟨hfirst, hvalue⟩, hothers, rfl⟩ := List.forall₂_cons_left_iff.1 hmiddle
  obtain ⟨first, value⟩ := first
  obtain rfl : value = .str kind := hvalue.eq_of_leaf rfl rfl
  obtain rfl : first = tag := hfirst.symm
  have hother : ∀ m ∈ others, m.1 ≠ first := fun m' hm' heq => by
    obtain ⟨m, hm, hsame, -⟩ := exists_of_mem_right hothers hm'
    exact htag (List.mem_map.2 ⟨m, hm, hsame.trans heq⟩)
  have hno : others.filter (fun m => m.1 == first) = [] := by simpa using hother
  have hall : others.filter (fun m => m.1 != first) = others := by simpa using hother
  -- Both filters go through the permutation.
  have hfound := hperm.filter fun m => m.1 == first
  have hrest := hperm.filter fun m => m.1 != first
  simp only [List.filter_cons, beq_self_eq_true, bne_self_eq_false, hno, hall, if_true,
    Bool.false_eq_true, if_false, List.singleton_perm] at hfound hrest
  refine ⟨members'.filter fun m => m.1 != first, ?_, ?_⟩
  · simp [untag?, ← hfound, kind?, hkind]
  · have hnames := map_eq_map_of_forall₂ hothers fun _ _ hm => hm.1
    exact .obj hnames (hothers.imp fun _ _ hm => hm.2) hrest

/-- The tag and the fields of a tagged record are found in any order. -/
theorem Reordered.exists_tagged {tag kind : String} {members : List (String × Json)}
    (h : Reordered (.obj ((tag, .str kind) :: members)) k)
    (hnames : (tag :: members.map (·.1)).Nodup) (kinds : List String) (hkind : kind ∈ kinds)
    (nested : Bool) (names : List String) :
    ∃ rest r, k.untag? tag kinds nested = some (kind, .obj rest) ∧
      Record.ofJson? names false (.obj rest) = some r ∧
      ∀ m ∈ members, m.1 ∈ names → r.Holds m.1 m.2 := by
  obtain ⟨htag, hnames⟩ := List.nodup_cons.1 hnames
  obtain ⟨rest, huntag, hrest⟩ := h.exists_untagged htag kinds hkind nested
  obtain ⟨r, hr, hfields⟩ := hrest.exists_record hnames names
  exact ⟨rest, r, huntag, hr, hfields⟩

/-! ## Decoders -/

variable {α : Type} {decode : Json → Option α} {x : α}

/-- A decoder gives one result for a value with its members in any order. -/
def Restores (decode : Json → Option α) (j : Json) (x : α) : Prop :=
  ∀ k, Reordered j k → decode k = some x

theorem Restores.self (h : Restores decode j x) : decode j = some x := h j (.refl j)

theorem restores_leaf (harr : j.arr? = none) (hobj : j.obj? = none) (h : decode j = some x) :
    Restores decode j x := fun _ hk => hk.eq_of_leaf harr hobj ▸ h

/-- Items that are restored one by one are restored as a list. -/
theorem restores_list {encode : α → Json} (h : ∀ x, Restores decode (encode x) x) (xs : List α) :
    Restores (list? decode) (.arr (xs.map encode)) xs := by
  intro k hk
  obtain ⟨items', rfl, hitems⟩ := hk.exists_items
  have hdecoded : List.Forall₂ (fun k x => decode k = some x) items' xs :=
    ((List.forall₂_map_left_iff.1 hitems).imp fun x k hk => h x k hk).flip
  exact mapM_eq_some_of_forall₂ hdecoded

namespace Record.Holds

variable {r : Record} {name : String}

theorem need (h : r.Holds name j) (hj : Restores decode j x) : r.need name decode = some x := by
  obtain ⟨k, hfield, hk⟩ := h
  rw [Record.need, hfield, Option.bind_some, hj k hk]

theorem str {s : String} (h : r.Holds name (.str s)) : r.need name str? = some s :=
  h.need (restores_leaf rfl rfl rfl)

theorem bool {b : Bool} (h : r.Holds name (.bool b)) : r.need name bool? = some b :=
  h.need (restores_leaf rfl rfl rfl)

theorem int32 {n : Int32} (h : r.Holds name (.int n.toInt)) : r.need name int32? = some n :=
  h.need (restores_leaf rfl rfl (int32?_toInt n))

theorem int64 {n : Int64} (h : r.Holds name (.int n.toInt)) : r.need name int64? = some n :=
  h.need (restores_leaf rfl rfl (int64?_toInt n))

theorem getD (h : r.Holds name j) (hj : Restores decode j x) (default : α) :
    r.getD name decode default = some x := by
  obtain ⟨k, hfield, hk⟩ := h
  rw [Record.getD, hfield]
  exact hj k hk

/-- Something that may be missing is restored, if it is not written as `null` itself. -/
theorem nullable {encode : α → Json} {x? : Option α} (h : r.Holds name (orNull encode x?))
    (hencode : ∀ x, Restores decode (encode x) x) (hnull : ∀ x, (encode x).isNull = false) :
    r.nullable name decode = some x? := by
  obtain ⟨k, hfield, hk⟩ := h
  rw [Record.nullable, hfield]
  cases x? with
  | none => exact hk.eq_of_leaf rfl rfl ▸ rfl
  | some x =>
    have hdecode := hencode x k hk
    have hk' : k.isNull = false := hk.isNull_eq.trans (hnull x)
    change nullable? decode k = some (some x)
    cases k with
    | null => cases hk'
    | _ => simp [nullable?, hdecode]

end Record.Holds

/-! ## Texts -/

section Texts

variable {members : List (String × Json)}

/-- Both texts of every reordering are read. -/
theorem Restores.text (h : Restores decode j x) (hj : Exact maxDepth j) (hk : Reordered j k) :
    ofText? .whole decode k.compact = some x ∧ ofText? .whole decode k.pretty = some x := by
  have hexact := hk.exact hj
  rw [ofText?, ofText?, parse?_compact hexact, parse?_pretty hexact]
  exact ⟨h k hk, h k hk⟩

/-- An object of nothing but fields is read as a record. -/
theorem Restores.record {names : List String} (h : Restores decode (.obj members) x)
    (hnames : ∀ m ∈ members, m.1 ∈ names) (hj : Exact maxDepth (.obj members))
    (hk : Reordered (.obj members) k) :
    ofText? (.plain names) decode k.compact = some x ∧
      ofText? (.plain names) decode k.pretty = some x := by
  obtain ⟨_, members', rfl, -⟩ := hk.exists_members
  have hexact := hk.exact hj
  have hnames' : ∀ m ∈ members', m.1 ∈ names := fun m hm => by
    obtain ⟨m', hm', heq⟩ := List.mem_map.1 (hk.names_perm.mem_iff.2 (List.mem_map_of_mem hm))
    exact heq ▸ hnames m' hm'
  rw [ofText?, ofText?, compact, pretty,
    parse?_plain hnames' (spelled_compactChars hexact),
    parse?_plain hnames' (spelled_prettyChars hexact 0)]
  exact ⟨h _ hk, h _ hk⟩

end Texts

end Annals.Json
