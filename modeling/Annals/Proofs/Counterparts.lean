import Mathlib.Data.List.Forall2
/-!
# Counterparts

Two lists whose items belong together one by one: what is read and what it is read as, or a document
and its parts in another shape.

* `exists_forall₂_iff`: all items have counterparts when each one has.
* `exists_of_mem_right`, `exists_of_mem_left`: the counterpart of one item.
* `forall_mem_of_forall₂`, `forall_mem_iff_of_forall₂`: what all counterparts are like.
* `map_eq_map_of_forall₂`, `mapM_eq_some_of_forall₂`: what is made of them.
-/

namespace Annals

variable {α β γ : Type} {R : α → β → Prop} {l : List α} {l' : List β}

/-- Every item has a counterpart when each one has. -/
theorem exists_forall₂_iff : (∃ values, List.Forall₂ R l values) ↔ ∀ a ∈ l, ∃ v, R a v := by
  induction l with
  | nil => simp
  | cons item rest ih =>
    simp only [List.forall₂_cons_left_iff, List.forall_mem_cons, ← ih]
    constructor
    · rintro ⟨_, value, values, hvalue, hvalues, rfl⟩
      exact ⟨⟨value, hvalue⟩, values, hvalues⟩
    · rintro ⟨⟨value, hvalue⟩, values, hvalues⟩
      exact ⟨_, value, values, hvalue, hvalues, rfl⟩

theorem exists_of_mem_right (h : List.Forall₂ R l l') {b : β} (hb : b ∈ l') : ∃ a ∈ l, R a b := by
  induction h with
  | nil => cases hb
  | cons hab _ ih =>
    rcases List.mem_cons.1 hb with rfl | hb
    · exact ⟨_, List.mem_cons_self, hab⟩
    · obtain ⟨a, ha, hab⟩ := ih hb
      exact ⟨a, List.mem_cons_of_mem _ ha, hab⟩

theorem exists_of_mem_left (h : List.Forall₂ R l l') {a : α} (ha : a ∈ l) : ∃ b ∈ l', R a b :=
  exists_of_mem_right h.flip ha

/-- What every counterpart of an item is like holds of all of them. -/
theorem forall_mem_of_forall₂ {Q : β → Prop} (h : List.Forall₂ R l l')
    (hQ : ∀ a b, R a b → Q b) : ∀ b ∈ l', Q b := by
  intro b hb
  obtain ⟨a, -, hab⟩ := exists_of_mem_right h hb
  exact hQ a b hab

/-- What holds of every item holds of every counterpart. -/
theorem forall_mem_iff_of_forall₂ {P : α → Prop} {Q : β → Prop} (h : List.Forall₂ R l l')
    (hPQ : ∀ a b, R a b → (P a ↔ Q b)) : (∀ a ∈ l, P a) ↔ ∀ b ∈ l', Q b := by
  induction h with
  | nil => exact ⟨fun _ => List.forall_mem_nil _, fun _ => List.forall_mem_nil _⟩
  | cons hab _ ih => rw [List.forall_mem_cons, List.forall_mem_cons, hPQ _ _ hab, ih]

/-- What counterparts have in common is the same list. -/
theorem map_eq_map_of_forall₂ {f : α → γ} {g : β → γ} (h : List.Forall₂ R l l')
    (hfg : ∀ a b, R a b → f a = g b) : l.map f = l'.map g := by
  rw [← List.forall₂_eq_eq_eq, List.forall₂_map_left_iff, List.forall₂_map_right_iff]
  exact h.imp hfg

/-- Items that decode one by one decode as a list. -/
theorem mapM_eq_some_of_forall₂ {decode : α → Option β}
    (h : List.Forall₂ (fun a b => decode a = some b) l l') : l.mapM decode = some l' := by
  induction h with
  | nil => rfl
  | cons hx _ ih => simp [hx, ih]

end Annals
