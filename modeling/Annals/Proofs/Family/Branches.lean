import Annals.Proofs.Family.Descent
/-!
# The order of a family tree

Whatever the lists of children and partners say, with circles, repetitions and unknown ids in them,
a tree has one line for each known descendant of the founder. Which line comes next can be told from
the lines before it alone: one looks for the latest person who has a child without a line.

* `Dynasty.nextLine?`: the line that is to come after some lines.
* `Dynasty.Follows`: every line is the one that is to come after those before it.
* `Dynasty.Preorder.follows`: depth-first order is of this kind.
* `Dynasty.lineText`: a line as text, with the partners at its end.
* `Dynasty.descendants_listed_once`: who has a line in a tree, where, and on which level.
-/

namespace Annals.Dynasty

variable {r : Roster} {d : Dynasty} {seen ids : List PersonId} {level : Nat} {id x : PersonId}
  {prior order before behind : List (Nat × PersonId)} {line : Nat × PersonId}

/-! ## The next line -/

/-- The first known child of a person who is not among some ids. -/
def nextChild? (r : Roster) (ids : List PersonId) (x : PersonId) : Option PersonId :=
  (r.childrenOf x).find? fun c => (r.get? c).isSome && !ids.contains c

/-- The line that is to come after some lines. It begins with the founder. Then it is the turn of
the latest person who has a known child without a line: the first such child is next, a level
deeper. -/
def nextLine? (d : Dynasty) (r : Roster) (lines : List (Nat × PersonId)) :
    Option (Nat × PersonId) :=
  if lines.isEmpty then if (r.get? d.founder).isSome then some (0, d.founder) else none
  else lines.reverse.findSome? fun e =>
    (nextChild? r (idsOf lines) e.2).map fun child => (e.1 + 1, child)

/-- All known children of a person are among some ids. -/
def Finished (r : Roster) (ids : List PersonId) (x : PersonId) : Prop :=
  ∀ c ∈ r.childrenOf x, r.Knows c → c ∈ ids

theorem nextChild?_eq_none_iff : nextChild? r ids x = none ↔ Finished r ids x := by
  unfold nextChild? Finished
  simp [Roster.Knows, Option.isSome_iff_exists]

/-- The children in front of the next one are unknown or are among the ids. -/
theorem nextChild?_eq_some {done rest : List PersonId}
    (hchildren : r.childrenOf x = done ++ id :: rest)
    (hdone : ∀ c ∈ done, r.Knows c → c ∈ ids) (hknown : r.Knows id) (hnew : id ∉ ids) :
    nextChild? r ids x = some id := by
  have hsome : (r.get? id).isSome = true := Option.isSome_iff_exists.2 hknown
  have hskip : done.find? (fun c => (r.get? c).isSome && !ids.contains c) = none := by
    simpa [Roster.Knows, Option.isSome_iff_exists] using hdone
  unfold nextChild?
  rw [hchildren, List.find?_append, hskip, Option.none_or]
  exact List.find?_cons_of_pos (by simp [hsome, hnew])

/-! ## Lines that follow each other -/

/-- Every line is the one that is to come after all lines before it, those of `prior` among them. -/
def Follows (d : Dynasty) (r : Roster) (prior : List (Nat × PersonId)) :
    List (Nat × PersonId) → Prop
  | [] => True
  | line :: order => d.nextLine? r prior = some line ∧ Follows d r (prior ++ [line]) order

theorem follows_append :
    Follows d r prior (before ++ behind) ↔
      Follows d r prior before ∧ Follows d r (prior ++ before) behind := by
  induction before generalizing prior with
  | nil => simp [Follows]
  | cons line before ih => simp [Follows, ih, and_assoc]

/-- In the middle of a tree: below some line of `prior`, of a person of this level, the ids are the
children that have not been gone through, and everybody in the lines behind it is finished. -/
def Pending (r : Roster) (prior : List (Nat × PersonId)) (level : Nat) (ids : List PersonId) :
    Prop :=
  ∃ outer parent inner done, prior = outer ++ (level, parent) :: inner ∧
    r.childrenOf parent = done ++ ids ∧ (∀ c ∈ done, r.Knows c → c ∈ idsOf prior) ∧
    ∀ e ∈ inner, Finished r (idsOf prior) e.2

namespace Pending

/-- The first id that is known and has no line is next. -/
theorem nextLine? (h : Pending r prior level (id :: ids)) (hknown : r.Knows id)
    (hnew : id ∉ idsOf prior) : d.nextLine? r prior = some (level + 1, id) := by
  obtain ⟨outer, parent, inner, done, hprior, hchildren, hdone, hinner⟩ := h
  have hnext := nextChild?_eq_some hchildren hdone hknown hnew
  have hskip : inner.reverse.findSome? (fun e =>
      (nextChild? r (idsOf prior) e.2).map fun child => (e.1 + 1, child)) = none := by
    simp only [List.findSome?_eq_none_iff, List.mem_reverse, Option.map_eq_none_iff,
      nextChild?_eq_none_iff]
    exact hinner
  have hne : prior.isEmpty = false := by
    rw [hprior]
    simp
  have hreverse : prior.reverse = inner.reverse ++ (level, parent) :: outer.reverse := by
    rw [hprior]
    simp
  unfold Dynasty.nextLine?
  rw [hne, hreverse, List.findSome?_append, hskip, List.findSome?_cons, hnext]
  rfl

/-- An id that is unknown or has a line is passed over. -/
theorem skip (h : Pending r prior level (id :: ids)) (hskip : r.Knows id → id ∈ idsOf prior) :
    Pending r prior level ids := by
  obtain ⟨outer, parent, inner, done, hprior, hchildren, hdone, hinner⟩ := h
  refine ⟨outer, parent, inner, done ++ [id], hprior, ?_, ?_, hinner⟩
  · rw [hchildren, List.append_assoc]
    rfl
  · exact List.forall_mem_append.2 ⟨hdone, List.forall_mem_singleton.2 hskip⟩

/-- Lines of which everybody is finished do not change whose turn it is. -/
theorem append (h : Pending r prior level ids) {lines : List (Nat × PersonId)}
    (hlines : ∀ e ∈ lines, Finished r (idsOf (prior ++ lines)) e.2) :
    Pending r (prior ++ lines) level ids := by
  obtain ⟨outer, parent, inner, done, hprior, hchildren, hdone, hinner⟩ := h
  have hmore : ∀ {c}, c ∈ idsOf prior → c ∈ idsOf (prior ++ lines) := by
    intro c hc
    unfold idsOf at hc ⊢
    rw [List.map_append]
    exact List.mem_append_left _ hc
  refine ⟨outer, parent, inner ++ lines, done, ?_, hchildren, ?_, ?_⟩
  · rw [hprior, List.append_assoc]
    rfl
  · exact fun c hc hknown => hmore (hdone c hc hknown)
  · exact List.forall_mem_append.2
      ⟨fun e he c hc hknown => hmore (hinner e he c hc hknown), hlines⟩

/-- After a new line it is the turn of the person in it. -/
theorem enter {p : Person} (prior : List (Nat × PersonId)) (hget : r.get? id = some p) :
    Pending r (prior ++ [(level, id)]) level p.children :=
  ⟨prior, id, [], [], rfl, Roster.childrenOf_of_get? hget, List.forall_mem_nil _,
    List.forall_mem_nil _⟩

end Pending

theorem idsOf_append (before behind : List (Nat × PersonId)) :
    idsOf (before ++ behind) = idsOf before ++ idsOf behind := List.map_append

/-- Everybody in the lines of those who have been gone through is finished. -/
theorem Walked.finished (h : Walked r ((idsOf prior).reverse) ids order) :
    ∀ x ∈ idsOf order, Finished r (idsOf (prior ++ order)) x := by
  intro x hx c hc hknown
  rw [idsOf_append, List.mem_append]
  exact (h.closed x hx c hc hknown).imp_left List.mem_reverse.1

/-- In depth-first order each line is the one that is to come. -/
theorem Preorder.follows (h : Preorder r seen level ids order) {above : Nat}
    (hlevel : level = above + 1) (hseen : seen = (idsOf prior).reverse)
    (hpending : Pending r prior above ids) : Follows d r prior order := by
  induction h generalizing above prior with
  | nil => trivial
  | skip hskip _ ih =>
    subst hseen
    exact ih hlevel rfl (hpending.skip fun hknown => List.mem_reverse.1 (hskip hknown))
  | @list seen ids level id p below behind hget hnew hbelow hbehind ihbelow ihbehind =>
    subst hseen
    have hnew' : id ∉ idsOf prior := fun hmem => hnew (List.mem_reverse.2 hmem)
    have hnext : d.nextLine? r prior = some (level, id) := by
      rw [hlevel]
      exact hpending.nextLine? ⟨p, hget⟩ hnew'
    have hseenBelow : id :: (idsOf prior).reverse = (idsOf (prior ++ [(level, id)])).reverse := by
      simp [idsOf]
    have hseenBehind : (idsOf below).reverse ++ id :: (idsOf prior).reverse =
        (idsOf (prior ++ (level, id) :: below)).reverse := by
      simp [idsOf]
    have hsame : prior ++ [(level, id)] ++ below = prior ++ (level, id) :: below := by simp
    -- Behind the lines below the new one, it is the turn of the same parent again.
    have hfinished : ∀ e ∈ (level, id) :: below,
        Finished r (idsOf (prior ++ (level, id) :: below)) e.2 := by
      have hwalked := hbelow.walked
      rw [hseenBelow] at hwalked
      rw [← hsame]
      refine List.forall_mem_cons.2 ⟨fun c hc hknown => ?_, fun e he => ?_⟩
      · rw [Roster.childrenOf_of_get? hget] at hc
        rw [idsOf_append, List.mem_append]
        exact (hwalked.visited c hc hknown).imp_left List.mem_reverse.1
      · exact hwalked.finished e.2 (List.mem_map_of_mem he)
    have hlisted : id ∈ idsOf (prior ++ (level, id) :: below) := by simp [idsOf]
    have hrest : Pending r (prior ++ (level, id) :: below) above ids :=
      (hpending.append hfinished).skip fun _ => hlisted
    refine ⟨hnext, follows_append.2 ⟨ihbelow rfl hseenBelow (Pending.enter prior hget), ?_⟩⟩
    rw [hsame]
    exact ihbehind hlevel hseenBehind hrest

/-- A tree begins with the founder, and each further line is the one that is to come. -/
theorem Preorder.follows_founder (h : Preorder r [] 0 [d.founder] order) :
    Follows d r [] order := by
  cases h with
  | skip hskip hrest =>
    cases hrest
    trivial
  | list hget hnew hbelow hbehind =>
    cases hbehind
    have hfounder : d.nextLine? r [] = some (0, d.founder) := by
      simp [nextLine?, hget]
    rw [List.append_nil]
    exact ⟨hfounder, hbelow.follows rfl rfl (Pending.enter [] hget)⟩

/-- A tree goes on as long as there is a line to come. -/
theorem Preorder.nextLine?_eq_none (h : Preorder r [] 0 [d.founder] order) :
    d.nextLine? r order = none := by
  have hwalked := h.walked
  unfold nextLine?
  split
  case isTrue hempty =>
    -- Without lines, the founder is unknown.
    obtain rfl := List.isEmpty_iff.1 hempty
    refine if_neg fun hsome => ?_
    have hknown : r.Knows d.founder := Option.isSome_iff_exists.1 hsome
    exact (hwalked.visited _ List.mem_cons_self hknown).elim List.not_mem_nil List.not_mem_nil
  case isFalse =>
    simp only [List.findSome?_eq_none_iff, List.mem_reverse, Option.map_eq_none_iff,
      nextChild?_eq_none_iff]
    intro e he c hc hknown
    exact (hwalked.closed e.2 (List.mem_map_of_mem he) c hc hknown).resolve_left List.not_mem_nil

/-! ## Texts -/

/-- A line of a person in the roster: the indentation of the level, a crown for monarchs, the
person, and behind the person the partners, in the order of the marriages. -/
def lineText (r : Roster) (line : Nat × PersonId) : String :=
  ((r.get? line.2).map fun p => indent line.1 ++ (if p.wasMonarch then "♛ " else "") ++
    describeMember p ++ partnersText r p ++ "\n").getD ""

theorem textOf_linesOf (hknown : ∀ x ∈ idsOf order, r.Knows x) :
    textOf r (linesOf r order) = String.join (order.map (lineText r)) := by
  induction order with
  | nil => rfl
  | cons e order ih =>
    obtain ⟨level, id⟩ := e
    obtain ⟨⟨p, hget⟩, hrest⟩ := List.forall_mem_cons.1 hknown
    have htext : lineText r (level, id) = treeLine r level p ++ "\n" := by
      unfold lineText
      rw [hget]
      rfl
    have hlater := ih hrest
    unfold textOf at hlater ⊢
    rw [linesOf_cons hget, List.map_cons, List.map_cons, String.join_cons, String.join_cons, hlater,
      htext]

/-! ## Trees -/

/-- A family tree lists each descendant once, whatever the lists of children and partners hold. Its
lines come in depth-first order from the founder. Each line is the one that is to come after those
before it: that of the first known child without a line of the latest person who has one, a level
deeper than that person's. The tree ends when no line is to come, and then exactly the known
descendants of the founder have one, each of them one. The text is a title and these lines, and a
partner stands only at the end of such a line. -/
theorem descendants_listed_once (d : Dynasty) (r : Roster) :
    ∃ order : List (Nat × PersonId),
      Preorder r [] 0 [d.founder] order ∧
      (∀ before line behind, order = before ++ line :: behind →
        d.nextLine? r before = some line) ∧
      d.nextLine? r order = none ∧
      (∀ x, x ∈ idsOf order ↔ r.Knows x ∧ r.Descends d.founder x) ∧
      (idsOf order).Nodup ∧
      d.renderTree r = "Family tree of " ++ d.name ++ ":\n" ++
        String.join (order.map (lineText r)) := by
  obtain ⟨order, horder, hlines⟩ := exists_descent d r
  have hwalked := horder.walked
  refine ⟨order, horder, ?_, horder.nextLine?_eq_none, fun _ => horder.mem_iff, hwalked.once, ?_⟩
  · rintro before line behind rfl
    obtain ⟨-, hnext, -⟩ := follows_append.1 horder.follows_founder
    exact hnext
  · rw [← textOf_linesOf hwalked.known, ← hlines]
    rfl

end Annals.Dynasty
