/-!
# Tables sorted by name

A table maps names to values and lists its entries in the order of the names, code point by code
point. Since the order is part of the type, two tables with the same values are equal.

* `get?`, `insert`: one name.
* `get?_insert_self`, `get?_insert_ne`: what an insertion changes.
* `ext_get?`: a table is determined by its values.
-/

namespace Annals

/-- Names with values, in strictly increasing order of the names. -/
structure Table (α : Type) where
  entries : List (String × α)
  ordered : entries.Pairwise fun a b => a.1 < b.1 := by decide

namespace Table

variable {α β : Type}

instance [DecidableEq α] : DecidableEq (Table α) := fun a b =>
  if h : a.entries = b.entries then
    isTrue (by cases a; cases b; cases h; rfl)
  else isFalse fun he => h (congrArg entries he)

/-! ## Operations -/

/-- The table without entries. -/
def empty : Table α := { entries := [], ordered := .nil }

instance : Inhabited (Table α) := ⟨empty⟩

/-- The value in a list of entries. -/
def find (name : String) : List (String × α) → Option α
  | [] => none
  | (key, value) :: rest => if key = name then some value else find name rest

/-- The value of a name. -/
def get? (t : Table α) (name : String) : Option α := find name t.entries

/-- Puts an entry where the order wants it; an entry of that name is replaced. -/
def place (name : String) (value : α) : List (String × α) → List (String × α)
  | [] => [(name, value)]
  | (key, old) :: rest =>
    if name < key then (name, value) :: (key, old) :: rest
    else if key = name then (name, value) :: rest
    else (key, old) :: place name value rest

/-- An entry after an insertion is the new one or an old one. -/
theorem mem_place {name : String} {value : α} {e : String × α} {l : List (String × α)}
    (h : e ∈ place name value l) : e = (name, value) ∨ e ∈ l := by
  induction l with
  | nil => simpa [place] using h
  | cons head rest ih =>
    obtain ⟨key, old⟩ := head
    rw [place] at h
    split at h
    · simpa using h
    · split at h
      · rcases List.mem_cons.1 h with h | h
        · exact .inl h
        · exact .inr (List.mem_cons_of_mem _ h)
      · rcases List.mem_cons.1 h with h | h
        · exact .inr (h ▸ List.mem_cons_self)
        · exact (ih h).imp_right (List.mem_cons_of_mem _)

/-- An insertion keeps the order. -/
theorem ordered_place (name : String) (value : α) {l : List (String × α)}
    (h : l.Pairwise fun a b => a.1 < b.1) : (place name value l).Pairwise fun a b => a.1 < b.1 := by
  induction l with
  | nil => simp [place]
  | cons head rest ih =>
    obtain ⟨key, old⟩ := head
    have hrest := List.pairwise_cons.1 h
    rw [place]
    split
    case isTrue hlt =>
      refine List.pairwise_cons.2 ⟨fun e he => ?_, h⟩
      rcases List.mem_cons.1 he with rfl | he
      · exact hlt
      · exact String.lt_trans hlt (hrest.1 e he)
    case isFalse hlt =>
      split
      case isTrue heq =>
        subst heq
        exact List.pairwise_cons.2 ⟨hrest.1, hrest.2⟩
      case isFalse hne =>
        refine List.pairwise_cons.2 ⟨fun e he => ?_, ih hrest.2⟩
        rcases mem_place he with rfl | he
        · have hle : key ≤ name := String.not_lt.1 hlt
          rcases Decidable.em (key < name) with h' | h'
          · exact h'
          · exact absurd (String.le_antisymm hle (String.not_lt.1 h')) hne
        · exact hrest.1 e he

/-- The table with a value for a name. -/
def insert (t : Table α) (name : String) (value : α) : Table α :=
  { entries := place name value t.entries, ordered := ordered_place name value t.ordered }

/-- The table of a list of entries; of two entries of one name the later one counts. -/
def ofList (l : List (String × α)) : Table α :=
  l.foldl (fun t e => t.insert e.1 e.2) empty

/-- The entries in the order of the names. -/
def toList (t : Table α) : List (String × α) := t.entries

/-! ## Laws -/

theorem find_place_self (name : String) (value : α) (l : List (String × α)) :
    find name (place name value l) = some value := by
  induction l with
  | nil => simp [place, find]
  | cons head rest ih =>
    obtain ⟨key, old⟩ := head
    rw [place]
    split
    · simp [find]
    · split
      · simp [find]
      · next hne => simp [find, hne, ih]

theorem find_place_ne {name other : String} (h : other ≠ name) (value : α)
    (l : List (String × α)) : find other (place name value l) = find other l := by
  induction l with
  | nil => simp [place, find, h.symm]
  | cons head rest ih =>
    obtain ⟨key, old⟩ := head
    rw [place]
    split
    · simp [find, h.symm]
    · split
      · next heq => subst heq; simp [find, h.symm]
      · simp [find, ih]

@[simp] theorem get?_empty (name : String) : (empty : Table α).get? name = none := rfl

@[simp] theorem get?_insert_self (t : Table α) (name : String) (value : α) :
    (t.insert name value).get? name = some value := find_place_self ..

theorem get?_insert_ne {name other : String} (h : other ≠ name) (t : Table α) (value : α) :
    (t.insert name value).get? other = t.get? other := find_place_ne h ..

/-- A name before all names of a list is not in it. -/
theorem find_eq_none_of_lt {name : String} {l : List (String × α)}
    (h : ∀ e ∈ l, name < e.1) : find name l = none := by
  induction l with
  | nil => rfl
  | cons head rest ih =>
    have hne : head.1 ≠ name := fun heq =>
      String.lt_irrefl _ (heq ▸ h head List.mem_cons_self)
    simp [find, hne, ih fun e he => h e (List.mem_cons_of_mem _ he)]

/-- Sorted lists of entries with the same values are equal. -/
theorem entries_eq_of_find_eq {l m : List (String × α)}
    (hl : l.Pairwise fun a b => a.1 < b.1) (hm : m.Pairwise fun a b => a.1 < b.1)
    (h : ∀ name, find name l = find name m) : l = m := by
  induction l generalizing m with
  | nil =>
    cases m with
    | nil => rfl
    | cons head rest => simpa [find] using h head.1
  | cons a l ih =>
    cases m with
    | nil => simpa [find] using h a.1
    | cons b m =>
      obtain ⟨ka, va⟩ := a
      obtain ⟨kb, vb⟩ := b
      have hl' := List.pairwise_cons.1 hl
      have hm' := List.pairwise_cons.1 hm
      have hkey : ka = kb := by
        rcases Decidable.em (ka < kb) with hlt | hge
        · have hnone : find ka ((kb, vb) :: m) = none := find_eq_none_of_lt fun e he => by
            rcases List.mem_cons.1 he with rfl | he
            · exact hlt
            · exact String.lt_trans hlt (hm'.1 e he)
          have hk := h ka
          rw [hnone] at hk
          simp [find] at hk
        · rcases Decidable.em (kb < ka) with hlt | hge'
          · have hnone : find kb ((ka, va) :: l) = none := find_eq_none_of_lt fun e he => by
              rcases List.mem_cons.1 he with rfl | he
              · exact hlt
              · exact String.lt_trans hlt (hl'.1 e he)
            have hk := h kb
            rw [hnone] at hk
            simp [find] at hk
          · exact String.le_antisymm (String.not_lt.1 hge') (String.not_lt.1 hge)
      subst hkey
      have hval : va = vb := by simpa [find] using h ka
      subst hval
      refine congrArg _ (ih hl'.2 hm'.2 fun name => ?_)
      rcases Decidable.em (ka = name) with rfl | hne
      · rw [find_eq_none_of_lt hl'.1, find_eq_none_of_lt hm'.1]
      · simpa [find, hne] using h name

/-- A table is determined by its values. -/
theorem ext_get? {t u : Table α} (h : ∀ name, t.get? name = u.get? name) : t = u := by
  obtain ⟨l, hl⟩ := t
  obtain ⟨m, hm⟩ := u
  have : l = m := entries_eq_of_find_eq hl hm h
  subst this
  rfl

end Table

end Annals
