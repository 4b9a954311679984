import Annals.Proofs.Json.Spelling
/-!
# Values read back

A value whose numbers are integers of 64 bits is written so that it is read back, as long as it does
not nest too deep. Doubles are left out: what they read back as depends on the decimal that was
chosen for them.

* `Exact`: these values, with a bound for their depth.
* `spelled_compactChars`, `spelled_prettyChars`: both forms in which a value is written spell it.
* `parse?_compact`, `parse?_pretty`: both are read as the value.
* `newline_not_mem_compactChars`: it is written on one line.
* `Exact.int32`, `Exact.int64`, `Exact.uint32`, `Exact.map`: payloads are encoded as exact values.
-/

namespace Annals.Json

/-- A value without doubles, whose integers fit 64 bits and whose arrays and objects nest at most so
deep. -/
inductive Exact : Nat → Json → Prop where
  | null {d : Nat} : Exact d .null
  | bool {d : Nat} (b : Bool) : Exact d (.bool b)
  | int {d : Nat} {n : Int} : Int64.minValue.toInt ≤ n → n < UInt64.size → Exact d (.int n)
  | str {d : Nat} (s : String) : Exact d (.str s)
  | arr {d : Nat} {items : List Json} : (∀ j ∈ items, Exact d j) → Exact (d + 1) (.arr items)
  | obj {d : Nat} {members : List (String × Json)} :
      (∀ m ∈ members, Exact d m.2) → Exact (d + 1) (.obj members)

variable {d : Nat} {j : Json}

/-! ## The compact form -/

theorem blank_nil : Blank [] := List.forall_mem_nil _

theorem spelled_compactItems {items : List Json} (hne : items ≠ [])
    (h : ∀ j ∈ items, Spelled d j j.compactChars) :
    SpelledItems d items (compactItems items ++ [']']) := by
  induction items with
  | nil => exact absurd rfl hne
  | cons j items ih =>
    obtain ⟨hj, hitems⟩ := List.forall_mem_cons.1 h
    cases items with
    | nil => exact .last hj blank_nil
    | cons k items =>
      have hmore := ih (List.cons_ne_nil k items) hitems
      simpa [compactItems] using SpelledItems.cons hj blank_nil hmore

theorem spelled_compactMembers {members : List (String × Json)} (hne : members ≠ [])
    (h : ∀ m ∈ members, Spelled d m.2 m.2.compactChars) :
    SpelledMembers d members (compactMembers members ++ ['}']) := by
  induction members with
  | nil => exact absurd rfl hne
  | cons m members ih =>
    obtain ⟨key, j⟩ := m
    obtain ⟨hj, hmembers⟩ := List.forall_mem_cons.1 h
    cases members with
    | nil =>
      rw [compactMembers, List.append_assoc]
      exact .last key blank_nil hj blank_nil
    | cons m members =>
      have hmore := ih (List.cons_ne_nil m members) hmembers
      simpa [compactMembers] using SpelledMembers.cons key blank_nil hj blank_nil hmore

/-- The compact form spells an exact value. -/
theorem spelled_compactChars (h : Exact d j) : Spelled d j j.compactChars := by
  induction h with
  | null => exact .null
  | bool b => exact .bool b
  | int hlow hhigh => exact .int hlow hhigh
  | str s => exact .str s
  | @arr _ items hitems ih =>
    cases items with
    | nil => exact .emptyArr
    | cons j items =>
      have hinner := spelled_compactItems (List.cons_ne_nil j items) ih
      simpa [compactChars] using Spelled.arr blank_nil hinner
  | @obj _ members hmembers ih =>
    cases members with
    | nil => exact .emptyObj
    | cons m members =>
      have hinner := spelled_compactMembers (List.cons_ne_nil m members) ih
      simpa [compactChars] using Spelled.obj blank_nil hinner

/-- The compact text of an exact value is read as that value. -/
theorem parse?_compact (h : Exact maxDepth j) : parse? j.compact = some j :=
  parse?_of_spelled (spelled_compactChars h)

/-! ## The indented form -/

theorem blank_newline (level : Nat) : Blank (newline level) := by
  rintro c (_ | ⟨_, hc⟩)
  · rfl
  · rw [List.eq_of_mem_replicate hc]
    rfl

theorem spelled_prettyItems {items : List Json} (hne : items ≠ []) {level : Nat}
    (h : ∀ j ∈ items, Spelled d j (j.prettyChars level)) {blanks : List Char}
    (hblanks : Blank blanks) :
    SpelledItems d items (prettyItems level items ++ (blanks ++ [']'])) := by
  induction items with
  | nil => exact absurd rfl hne
  | cons j items ih =>
    obtain ⟨hj, hitems⟩ := List.forall_mem_cons.1 h
    cases items with
    | nil => exact .last hj hblanks
    | cons k items =>
      have hmore := ih (List.cons_ne_nil k items) hitems
      simpa [prettyItems] using SpelledItems.cons hj (blank_newline level) hmore

theorem spelled_prettyMembers {members : List (String × Json)} (hne : members ≠ []) {level : Nat}
    (h : ∀ m ∈ members, Spelled d m.2 (m.2.prettyChars level)) {blanks : List Char}
    (hblanks : Blank blanks) :
    SpelledMembers d members (prettyMembers level members ++ (blanks ++ ['}'])) := by
  have hgap : Blank [' '] := List.forall_mem_singleton.2 rfl
  induction members with
  | nil => exact absurd rfl hne
  | cons m members ih =>
    obtain ⟨key, j⟩ := m
    obtain ⟨hj, hmembers⟩ := List.forall_mem_cons.1 h
    cases members with
    | nil => simpa [prettyMembers] using SpelledMembers.last key hgap hj hblanks
    | cons m members =>
      have hmore := ih (List.cons_ne_nil m members) hmembers
      simpa [prettyMembers] using
        SpelledMembers.cons key hgap hj (blank_newline level) hmore

/-- The indented form spells an exact value, at every level. -/
theorem spelled_prettyChars (h : Exact d j) (level : Nat) : Spelled d j (j.prettyChars level) := by
  induction h generalizing level with
  | null => exact .null
  | bool b => cases b <;> exact .bool _
  | int hlow hhigh => exact .int hlow hhigh
  | str s => exact .str s
  | @arr _ items hitems ih =>
    cases items with
    | nil => exact .emptyArr
    | cons j items =>
      have hinner := spelled_prettyItems (List.cons_ne_nil j items)
        (fun j hj => ih j hj (level + 1)) (blank_newline level)
      simpa [prettyChars] using Spelled.arr (blank_newline (level + 1)) hinner
  | @obj _ members hmembers ih =>
    cases members with
    | nil => exact .emptyObj
    | cons m members =>
      have hinner := spelled_prettyMembers (List.cons_ne_nil m members)
        (fun m hm => ih m hm (level + 1)) (blank_newline level)
      simpa [prettyChars] using Spelled.obj (blank_newline (level + 1)) hinner

/-- The indented text of an exact value is read as that value. -/
theorem parse?_pretty (h : Exact maxDepth j) : parse? j.pretty = some j :=
  parse?_of_spelled (spelled_prettyChars h 0)

/-! ## Line breaks -/

theorem newline_not_mem_compactItems {items : List Json} (h : ∀ j ∈ items, '\n' ∉ j.compactChars) :
    '\n' ∉ compactItems items := by
  induction items with
  | nil => exact List.not_mem_nil
  | cons j items ih =>
    have hj := h j List.mem_cons_self
    have hrest := ih fun k hk => h k (List.mem_cons_of_mem _ hk)
    cases items with
    | nil => exact hj
    | cons k items => simp [compactItems, hj, hrest]

theorem newline_not_mem_compactMembers {members : List (String × Json)}
    (h : ∀ m ∈ members, '\n' ∉ m.2.compactChars) : '\n' ∉ compactMembers members := by
  induction members with
  | nil => exact List.not_mem_nil
  | cons m members ih =>
    obtain ⟨key, j⟩ := m
    have hkey := newline_not_mem_strChars key
    have hj := h (key, j) List.mem_cons_self
    have hrest := ih fun m hm => h m (List.mem_cons_of_mem _ hm)
    cases members with
    | nil => simp [compactMembers, hkey, hj]
    | cons m members => simp [compactMembers, hkey, hj, hrest]

/-- An exact value is written on one line. -/
theorem newline_not_mem_compactChars (h : Exact d j) : '\n' ∉ j.compactChars := by
  induction h with
  | null => decide
  | bool b => cases b <;> decide
  | int hlow hhigh => exact newline_not_mem_intChars _
  | str s => exact newline_not_mem_strChars s
  | arr hitems ih => simp [compactChars, newline_not_mem_compactItems ih]
  | obj hmembers ih => simp [compactChars, newline_not_mem_compactMembers ih]

/-! ## Encoded payloads -/

theorem Exact.int64 (n : Int64) : Exact d (.int n.toInt) :=
  .int n.minValue_le_toInt (Int.lt_of_le_of_lt n.toInt_le (by decide))

theorem Exact.int32 (n : Int32) : Exact d (.int n.toInt) := by
  rw [← Int32.toInt_toInt64]
  exact .int64 n.toInt64

theorem Exact.uint32 (n : UInt32) : Exact d (.int n.toNat) :=
  .int (Int.le_trans (by decide) (Int.natCast_nonneg _))
    (Int.ofNat_lt.2 (Nat.lt_trans n.toNat_lt_size (by decide)))

theorem Exact.map {α : Type} {encode : α → Json} (h : ∀ x, Exact d (encode x)) (xs : List α) :
    Exact (d + 1) (.arr (xs.map encode)) := by
  refine .arr fun j hj => ?_
  obtain ⟨x, -, rfl⟩ := List.mem_map.1 hj
  exact h x

end Annals.Json
