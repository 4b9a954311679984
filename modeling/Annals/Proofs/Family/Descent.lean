import Mathlib.Data.List.Nodup
import Mathlib.Logic.Relation
import Annals.Family.Tree
import Annals.Proofs.Family.Fates
import Annals.Proofs.Family.Reign
/-!
# Who is in a family tree

A tree is a walk from the founder that goes on to the children of whoever gets a line, and passes
over whoever has one already. However the lists of children overlap, it ends with one line for each
descendant of the founder.

* `Roster.Descends`: descent through lists of children.
* `Dynasty.Preorder`, `Dynasty.exists_preorder`: the order in which a walk lists persons.
* `Dynasty.Walked`, `Dynasty.Preorder.walked`: whom it lists.
* `Dynasty.hasLine_iff`: the persons with a line are the founder and the descendants.
* `Dynasty.CrownedLine`: a line with a crown in the text of the tree.
-/

namespace Annals

/-! ## Descent -/

namespace Roster

/-- Whether one person is another one or descends from that one. -/
def Descends (r : Roster) : PersonId → PersonId → Prop :=
  Relation.ReflTransGen fun parent child => child ∈ r.childrenOf parent

theorem Descends.tail {r : Roster} {x y z : PersonId} (h : r.Descends x y)
    (hz : z ∈ r.childrenOf y) : r.Descends x z :=
  Relation.ReflTransGen.tail h hz

/-- Whoever has children is known. -/
theorem knows_of_mem_childrenOf {r : Roster} {x y : PersonId} (h : y ∈ r.childrenOf x) :
    r.Knows x := by
  cases hx : r.get? x with
  | none =>
    unfold childrenOf at h
    rw [hx] at h
    exact absurd h List.not_mem_nil
  | some p => exact ⟨p, hx⟩

/-- Nobody outside a set of ids descends from one of them if their children are all in it. -/
theorem Descends.mem_of_closed {r : Roster} {ids : List PersonId} {x y : PersonId}
    (h : r.Descends x y) (hclosed : ∀ p ∈ ids, ∀ c ∈ r.childrenOf p, c ∈ ids) (hx : x ∈ ids) :
    y ∈ ids := by
  induction h with
  | refl => exact hx
  | tail _ hchild ih => exact hclosed _ ih _ hchild

end Roster

/-! ## Depth-first order -/

namespace Roster

/-- Whoever has been seen stays seen, so going on leaves no more persons unseen. -/
theorem length_unseen_append_le (r : Roster) (more seen : List PersonId) :
    (r.unseen (more ++ seen)).length ≤ (r.unseen seen).length := by
  have hsub : r.unseen (more ++ seen) =
      (r.unseen seen).filter fun i => !more.contains { index := UInt32.ofNat i } := by
    simp only [unseen, List.filter_filter]
    refine List.filter_congr fun i _ => ?_
    simp only [List.contains_eq_mem, List.mem_append, Bool.decide_or, Bool.not_or]
  rw [hsub]
  exact List.length_filter_le _ _

end Roster

namespace Dynasty

variable {r : Roster} {d : Dynasty} {seen ids : List PersonId} {rest : List (Nat × PersonId)}
  {order : List (Nat × PersonId)} {level : Nat} {id x : PersonId} {p : Person}

/-- The persons of an order. -/
def idsOf (order : List (Nat × PersonId)) : List PersonId := order.map (·.2)

theorem idsOf_cons_append (level : Nat) (id : PersonId) (below behind : List (Nat × PersonId)) :
    idsOf ((level, id) :: (below ++ behind)) = id :: (idsOf below ++ idsOf behind) := by
  unfold idsOf
  rw [List.map_cons, List.map_append]

/-- The order in which persons get lines when some ids of one level are gone through and some
persons have a line already. Whoever is unknown or has a line is passed over. Whoever gets a line is
followed by all who get one through the children, a level deeper, before the other ids are gone
through. -/
inductive Preorder (r : Roster) :
    List PersonId → Nat → List PersonId → List (Nat × PersonId) → Prop where
  | nil {seen : List PersonId} {level : Nat} : Preorder r seen level [] []
  | skip {seen ids : List PersonId} {level : Nat} {id : PersonId} {order : List (Nat × PersonId)}
      (hskip : r.Knows id → id ∈ seen) (hrest : Preorder r seen level ids order) :
      Preorder r seen level (id :: ids) order
  | list {seen ids : List PersonId} {level : Nat} {id : PersonId} {p : Person}
      {below behind : List (Nat × PersonId)} (hget : r.get? id = some p) (hnew : id ∉ seen)
      (hbelow : Preorder r (id :: seen) (level + 1) p.children below)
      (hbehind : Preorder r ((idsOf below).reverse ++ id :: seen) level ids behind) :
      Preorder r seen level (id :: ids) ((level, id) :: (below ++ behind))

/-! ## Walks -/

/-- The lines of an order. -/
def linesOf (r : Roster) (order : List (Nat × PersonId)) : List (Nat × Person) :=
  order.filterMap fun e => (r.get? e.2).map fun p => (e.1, p)

theorem linesOf_append (r : Roster) (before behind : List (Nat × PersonId)) :
    linesOf r (before ++ behind) = linesOf r before ++ linesOf r behind := List.filterMap_append

theorem linesOf_cons (hget : r.get? id = some p) (level : Nat) (order : List (Nat × PersonId)) :
    linesOf r ((level, id) :: order) = (level, p) :: linesOf r order := by
  unfold linesOf
  exact List.filterMap_cons_some (by rw [hget]; rfl)

theorem walk_of_new (hget : r.get? id = some p) (hnew : id ∉ seen) :
    walk r seen ((level, id) :: rest) =
      (level, p) :: walk r (id :: seen)
        (p.children.map (fun child => (level + 1, child)) ++ rest) := by
  rw [walk]
  split
  case h_1 q hq _ =>
    obtain rfl : p = q := Option.some.inj (hget.symm.trans hq)
    rfl
  case h_2 _ hold => exact absurd (by simpa using hold) hnew
  case h_3 hnone =>
    rw [hget] at hnone
    cases hnone

theorem walk_of_skip (hskip : r.Knows id → id ∈ seen) :
    walk r seen ((level, id) :: rest) = walk r seen rest := by
  rw [walk]
  split
  case h_1 q hq hnew =>
    have hold := hskip ⟨q, hq⟩
    simp [hold] at hnew
  case h_2 => rfl
  case h_3 => rfl

/-- A walk takes the persons to be visited at the front in depth-first order, and then goes on with
the others. -/
theorem exists_preorder (r : Roster) (seen : List PersonId) (level : Nat) :
    ∀ ids : List PersonId, ∃ order, Preorder r seen level ids order ∧
      ∀ rest, walk r seen (ids.map (fun id => (level, id)) ++ rest) =
        linesOf r order ++ walk r ((idsOf order).reverse ++ seen) rest
  | [] => ⟨[], .nil, fun _ => rfl⟩
  | id :: ids => by
    by_cases hnew : r.Knows id ∧ id ∉ seen
    · obtain ⟨⟨p, hget⟩, hnew⟩ := hnew
      have hless := Roster.length_unseen_lt hget (by simpa using hnew)
      obtain ⟨below, hbelow, hwalkBelow⟩ := exists_preorder r (id :: seen) (level + 1) p.children
      have hleast := r.length_unseen_append_le (idsOf below).reverse (id :: seen)
      obtain ⟨behind, hbehind, hwalkBehind⟩ :=
        exists_preorder r ((idsOf below).reverse ++ id :: seen) level ids
      refine ⟨(level, id) :: (below ++ behind), .list hget hnew hbelow hbehind, fun rest => ?_⟩
      rw [List.map_cons, List.cons_append, walk_of_new hget hnew, hwalkBelow, hwalkBehind,
        linesOf_cons hget, linesOf_append, idsOf_cons_append]
      simp
    · have hskip : r.Knows id → id ∈ seen := by
        intro hknown
        by_contra hmem
        exact hnew ⟨hknown, hmem⟩
      obtain ⟨order, horder, hwalk⟩ := exists_preorder r seen level ids
      refine ⟨order, .skip hskip horder, fun rest => ?_⟩
      rw [List.map_cons, List.cons_append, walk_of_skip hskip, hwalk]
termination_by ids => ((r.unseen seen).length, ids.length)

/-- The lines of a tree are in depth-first order from the founder. -/
theorem exists_descent (d : Dynasty) (r : Roster) :
    ∃ order, Preorder r [] 0 [d.founder] order ∧ d.descent r = linesOf r order := by
  obtain ⟨order, horder, hwalk⟩ := exists_preorder r [] 0 [d.founder]
  refine ⟨order, horder, ?_⟩
  have hend : walk r ((idsOf order).reverse ++ []) [] = [] := by rw [walk]
  have hall := hwalk []
  rw [hend, List.append_nil] at hall
  exact hall.trans (List.append_nil _)

/-- Who is in an order: known persons who descend from one of those gone through and have no line
yet, each of them once; and nobody gone through and no child of somebody in the order is left
without a line. -/
structure Walked (r : Roster) (seen ids : List PersonId) (order : List (Nat × PersonId)) :
    Prop where
  known : ∀ x ∈ idsOf order, r.Knows x
  descends : ∀ x ∈ idsOf order, ∃ y ∈ ids, r.Descends y x
  unseen : ∀ x ∈ idsOf order, x ∉ seen
  once : (idsOf order).Nodup
  visited : ∀ x ∈ ids, r.Knows x → x ∈ seen ∨ x ∈ idsOf order
  closed : ∀ x ∈ idsOf order, ∀ c ∈ r.childrenOf x, r.Knows c → c ∈ seen ∨ c ∈ idsOf order

/-- Somebody new gets a line, with those who get one through the children behind it and then those
who get one through the other ids. -/
theorem Walked.list {below behind : List (Nat × PersonId)} (hget : r.get? id = some p)
    (hnew : id ∉ seen) (hbelow : Walked r (id :: seen) p.children below)
    (hbehind : Walked r ((idsOf below).reverse ++ id :: seen) ids behind) :
    Walked r seen (id :: ids) ((level, id) :: (below ++ behind)) := by
  have hchildren : r.childrenOf id = p.children := Roster.childrenOf_of_get? hget
  -- Who is seen by those further behind is seen before, or is in one of the new lines.
  have hseen : ∀ {c}, c ∈ id :: seen ∨ c ∈ idsOf below →
      c ∈ seen ∨ c ∈ id :: (idsOf below ++ idsOf behind) := by
    intro c hc
    simp only [List.mem_cons, List.mem_append] at hc ⊢
    tauto
  have hseen' : ∀ {c}, c ∈ (idsOf below).reverse ++ id :: seen ∨ c ∈ idsOf behind →
      c ∈ seen ∨ c ∈ id :: (idsOf below ++ idsOf behind) := by
    intro c hc
    simp only [List.mem_cons, List.mem_append, List.mem_reverse] at hc ⊢
    tauto
  have hlater : ∀ x ∈ idsOf behind, x ∉ id :: seen ∧ x ∉ idsOf below := by
    intro x hx
    have hunseen := hbehind.unseen x hx
    rw [List.mem_append, List.mem_reverse] at hunseen
    exact ⟨fun h => hunseen (.inr h), fun h => hunseen (.inl h)⟩
  constructor
  case known =>
    rw [idsOf_cons_append]
    exact List.forall_mem_cons.2 ⟨⟨p, hget⟩, List.forall_mem_append.2 ⟨hbelow.known, hbehind.known⟩⟩
  case descends =>
    rw [idsOf_cons_append]
    refine List.forall_mem_cons.2 ⟨⟨id, List.mem_cons_self, .refl⟩,
      List.forall_mem_append.2 ⟨fun x hx => ?_, fun x hx => ?_⟩⟩
    · obtain ⟨c, hc, hdescends⟩ := hbelow.descends x hx
      exact ⟨id, List.mem_cons_self, .head (hchildren ▸ hc) hdescends⟩
    · obtain ⟨y, hy, hdescends⟩ := hbehind.descends x hx
      exact ⟨y, List.mem_cons_of_mem id hy, hdescends⟩
  case unseen =>
    rw [idsOf_cons_append]
    refine List.forall_mem_cons.2 ⟨hnew, List.forall_mem_append.2 ⟨fun x hx => ?_, fun x hx => ?_⟩⟩
    · exact List.not_mem_of_not_mem_cons (hbelow.unseen x hx)
    · exact List.not_mem_of_not_mem_cons (hlater x hx).1
  case once =>
    rw [idsOf_cons_append]
    refine List.nodup_cons.2 ⟨fun hmem => ?_, List.nodup_append'.2 ⟨hbelow.once, hbehind.once, ?_⟩⟩
    · rcases List.mem_append.1 hmem with hx | hx
      · exact hbelow.unseen id hx List.mem_cons_self
      · exact (hlater id hx).1 List.mem_cons_self
    · exact fun x hx hx' => (hlater x hx').2 hx
  case visited =>
    rw [idsOf_cons_append]
    refine List.forall_mem_cons.2 ⟨fun _ => .inr List.mem_cons_self, fun x hx hknown => ?_⟩
    exact hseen' (hbehind.visited x hx hknown)
  case closed =>
    rw [idsOf_cons_append]
    refine List.forall_mem_cons.2 ⟨fun c hc hknown => ?_,
      List.forall_mem_append.2 ⟨fun x hx c hc hknown => ?_, fun x hx c hc hknown => ?_⟩⟩
    · exact hseen (hbelow.visited c (hchildren ▸ hc) hknown)
    · exact hseen (hbelow.closed x hx c hc hknown)
    · exact hseen' (hbehind.closed x hx c hc hknown)

theorem Preorder.walked (h : Preorder r seen level ids order) : Walked r seen ids order := by
  induction h with
  | nil =>
    exact ⟨List.forall_mem_nil _, List.forall_mem_nil _, List.forall_mem_nil _, List.nodup_nil,
      List.forall_mem_nil _, List.forall_mem_nil _⟩
  | skip hskip _ ih =>
    refine { ih with descends := fun x hx => ?_, visited := ?_ }
    · obtain ⟨y, hy, hdescends⟩ := ih.descends x hx
      exact ⟨y, List.mem_cons_of_mem _ hy, hdescends⟩
    · exact List.forall_mem_cons.2 ⟨fun hknown => .inl (hskip hknown), ih.visited⟩
  | list hget hnew _ _ ihbelow ihbehind => exact ihbelow.list hget hnew ihbehind

/-- The founder and the descendants are in the order, and nobody else. -/
theorem Preorder.mem_iff (h : Preorder r [] level [id] order) :
    x ∈ idsOf order ↔ r.Knows x ∧ r.Descends id x := by
  have hwalked := h.walked
  constructor
  · intro hmem
    obtain ⟨y, hy, hdescends⟩ := hwalked.descends x hmem
    obtain rfl := List.mem_singleton.1 hy
    exact ⟨hwalked.known x hmem, hdescends⟩
  · rintro ⟨hknown, hdescends⟩
    induction hdescends with
    | refl => exact (hwalked.visited _ List.mem_cons_self hknown).resolve_left List.not_mem_nil
    | tail _ hchild ih =>
      have hparent := ih (Roster.knows_of_mem_childrenOf hchild)
      exact (hwalked.closed _ hparent _ hchild hknown).resolve_left List.not_mem_nil

/-! ## Trees -/

/-- The ids of some lines. -/
def listed (lines : List (Nat × Person)) : List PersonId := lines.map fun e => e.2.id

/-- Whether a person has a line in the tree. -/
def HasLine (d : Dynasty) (r : Roster) (x : PersonId) : Prop := x ∈ listed (d.descent r)

/-- When every person has the id of the place, the lines of known persons have their ids. -/
theorem listed_linesOf (hr : r.Numbered) (hknown : ∀ x ∈ idsOf order, r.Knows x) :
    listed (linesOf r order) = idsOf order := by
  induction order with
  | nil => rfl
  | cons e order ih =>
    obtain ⟨level, id⟩ := e
    obtain ⟨⟨p, hget⟩, hrest⟩ := List.forall_mem_cons.1 hknown
    rw [linesOf_cons hget]
    unfold listed idsOf at *
    rw [List.map_cons, List.map_cons, ih hrest, hr.id_eq hget]

/-- The persons of the tree are the founder and the descendants. -/
theorem hasLine_iff (hr : r.Numbered) :
    d.HasLine r x ↔ r.Knows x ∧ r.Descends d.founder x := by
  obtain ⟨order, horder, hlines⟩ := exists_descent d r
  unfold HasLine
  rw [hlines, listed_linesOf hr horder.walked.known, horder.mem_iff]

/-! ## Lines with a crown -/

/-- The text of some lines. -/
def textOf (r : Roster) (lines : List (Nat × Person)) : String :=
  String.join (lines.map fun e => treeLine r e.1 e.2 ++ "\n")

/-- The indentation of a level, with the branch to the parent. -/
def indent (level : Nat) : String :=
  String.join (List.replicate level "  ") ++ (if 0 < level then "├── " else "")

/-- The partners at the end of a line. -/
def partnersText (r : Roster) (p : Person) : String :=
  if (p.partners.filterMap r.get?).isEmpty then ""
  else " ⚭ " ++ String.intercalate ", " ((p.partners.filterMap r.get?).map describeMember)

theorem treeLine_of_wasMonarch (h : p.wasMonarch = true) (r : Roster) (level : Nat) :
    treeLine r level p = indent level ++ "♛ " ++ describeMember p ++ partnersText r p := by
  unfold treeLine
  rw [h]
  rfl

/-- Whether a person has a line of the tree for itself, one and no more, with a crown in front of
the person. -/
def CrownedLine (d : Dynasty) (r : Roster) (x : PersonId) : Prop :=
  ∃ (level : Nat) (p : Person) (before behind : List (Nat × Person)),
    r.get? x = some p ∧ d.descent r = before ++ (level, p) :: behind ∧
    (∀ e ∈ before ++ behind, e.2.id ≠ x) ∧
    d.renderTree r = "Family tree of " ++ d.name ++ ":\n" ++ textOf r before ++
      (indent level ++ "♛ " ++ describeMember p ++ partnersText r p ++ "\n") ++ textOf r behind

/-- Those who have reigned have a line with a crown, if they have one. -/
theorem crownedLine_iff (hr : r.Numbered) (hreigned : r.hasReigned x = true) :
    d.CrownedLine r x ↔ d.HasLine r x := by
  obtain ⟨order, horder, hlines⟩ := exists_descent d r
  have hlisted : listed (d.descent r) = idsOf order := by
    rw [hlines, listed_linesOf hr horder.walked.known]
  constructor
  · rintro ⟨level, p, before, behind, hget, hsplit, -⟩
    unfold HasLine listed
    rw [hsplit]
    exact List.mem_map.2 ⟨(level, p), List.mem_append_right _ List.mem_cons_self, hr.id_eq hget⟩
  · intro hline
    obtain ⟨⟨level, p⟩, he, rfl⟩ := List.mem_map.1 hline
    have hget : r.get? p.id = some p := by
      rw [hlines] at he
      obtain ⟨⟨_, id⟩, -, hsome⟩ := List.mem_filterMap.1 he
      obtain ⟨q, hq, heq⟩ := Option.map_eq_some_iff.1 hsome
      cases heq
      rw [hr.id_eq hq]
      exact hq
    have hcrown : p.wasMonarch = true := by
      unfold Roster.hasReigned at hreigned
      rw [hget] at hreigned
      exact hreigned
    obtain ⟨before, behind, hsplit⟩ := List.append_of_mem he
    have honce := horder.walked.once
    rw [← hlisted] at honce
    unfold listed at honce
    rw [hsplit, List.map_append, List.map_cons] at honce
    obtain ⟨hnew, -⟩ := List.nodup_cons.1 (List.nodup_middle.1 honce)
    have hothers : ∀ e ∈ before ++ behind, e.2.id ≠ p.id := by
      intro e hmem heq
      refine hnew ?_
      rw [← List.map_append, ← heq]
      exact List.mem_map_of_mem hmem
    refine ⟨level, p, before, behind, hget, hsplit, hothers, ?_⟩
    unfold renderTree
    rw [hsplit, List.map_append, List.map_cons, String.join_append, String.join_cons,
      treeLine_of_wasMonarch hcrown, ← String.append_assoc, ← String.append_assoc]
    rfl

end Dynasty

end Annals
