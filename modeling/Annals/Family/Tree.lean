import Annals.Family.Dynasty
import Annals.Family.Roster
/-!
# Family trees

The descendants of a dynasty's founder, each on a line of its own, a level deeper than the parent
under whom it is found first.

* `Dynasty.descent`: the lines of the tree, found by always going on with the first child.
* `Dynasty.renderTree`: the tree as text.
-/

namespace Annals

namespace Roster

/-- The places of the roster that are not in a list of ids. -/
def unseen (r : Roster) (seen : List PersonId) : List Nat :=
  (List.range r.size).filter fun i => !seen.contains { index := UInt32.ofNat i }

/-- A person of the roster who is seen for the first time leaves fewer unseen ones. -/
theorem length_unseen_lt {r : Roster} {seen : List PersonId} {id : PersonId} {p : Person}
    (hget : r.get? id = some p) (hseen : seen.contains id = false) :
    (r.unseen (id :: seen)).length < (r.unseen seen).length := by
  have hlt : id.index.toNat < r.size := by
    obtain ⟨h, -⟩ := Array.getElem?_eq_some_iff.1 hget
    exact h
  have hsub : r.unseen (id :: seen) =
      (r.unseen seen).filter fun i => !({ index := UInt32.ofNat i : PersonId } == id) := by
    simp only [unseen, List.filter_filter]
    refine List.filter_congr fun i _ => ?_
    simp only [List.contains_cons, Bool.not_or]
  have hmem : id ∉ seen := by simpa using hseen
  rw [hsub]
  refine List.length_filter_lt_length_iff_exists.2 ⟨id.index.toNat, ?_, ?_⟩
  · simpa [unseen, hlt] using hmem
  · simp

end Roster

namespace Dynasty

/-- Walks through the persons that are to be visited, each with its level. Unknown persons and
persons who have a line already are passed over; any other is listed, and then the children come
before everybody else. -/
def walk (r : Roster) (seen : List PersonId) : List (Nat × PersonId) → List (Nat × Person)
  | [] => []
  | (level, id) :: rest =>
    match _hget : r.get? id, _hseen : seen.contains id with
    | some p, false =>
      (level, p) :: walk r (id :: seen) (p.children.map (fun child => (level + 1, child)) ++ rest)
    | some _, true => walk r seen rest
    | none, _ => walk r seen rest
termination_by visits => ((r.unseen seen).length, visits.length)
decreasing_by
  · exact Prod.Lex.left _ _ (Roster.length_unseen_lt _hget _hseen)
  · exact Prod.Lex.right _ (Nat.lt_succ_self _)
  · exact Prod.Lex.right _ (Nat.lt_succ_self _)

/-- The founder and all descendants with their levels. -/
def descent (d : Dynasty) (r : Roster) : List (Nat × Person) := walk r [] [(0, d.founder)]

/-- A person in a tree. -/
def describeMember (p : Person) : String :=
  p.gender.sign ++ " " ++ p.name ++ " (" ++ (if p.isAlive then "alive" else "†") ++ ", " ++
    p.lifespan ++ ")"

/-- The line of a person: a branch below the founder, a crown for monarchs, and the partners. -/
def treeLine (r : Roster) (level : Nat) (p : Person) : String :=
  let partners := p.partners.filterMap r.get?
  String.join (List.replicate level "  ") ++ (if 0 < level then "├── " else "") ++
    (if p.wasMonarch then "♛ " else "") ++ describeMember p ++
    (if partners.isEmpty then ""
      else " ⚭ " ++ String.intercalate ", " (partners.map describeMember))

/-- The tree as text, each line ended by a line break. -/
def renderTree (d : Dynasty) (r : Roster) : String :=
  "Family tree of " ++ d.name ++ ":\n" ++
    String.join ((d.descent r).map fun e => treeLine r e.1 e.2 ++ "\n")

end Dynasty

end Annals
