import Mathlib.Data.List.Chain
import Annals.Proofs.Family.Throne
/-!
# Reigns

The events of a dynasty tell who wore the crown. A handover is told right behind the death of the
old monarch, each one begins where the one before has ended, and none follows the end of the line.

* `FamilyDeed.handover?`: what an event tells of the crown.
* `Reign`: the events between two monarchs.
* `House.Passed`: what turns in a row do to a house, as far as the crown is concerned.
* `House.passed_passYear`: a dynasty's year is of this kind.
-/

namespace Annals

/-! ## The log -/

/-- The old monarch, and the new one if there is any. -/
def FamilyDeed.handover? : FamilyDeed → Option (String × Option String)
  | .succession oldMonarch newMonarch _ _ => some (oldMonarch, some newMonarch)
  | .noSuccessor monarch _ => some (monarch, none)
  | _ => none

/-- Events that lead from one monarch, if there is any, to another. -/
inductive Reign : Option String → List FamilyDeed → Option String → Prop
  | done (monarch : Option String) : Reign monarch [] monarch
  /-- Something happens that does not touch the crown. -/
  | aside {first last : Option String} {deed : FamilyDeed} {rest : List FamilyDeed}
      (hdeed : deed.handover? = none) (hrest : Reign first rest last) :
      Reign first (deed :: rest) last
  /-- The monarch dies, and it is told at once where the crown goes. -/
  | handover {monarch : String} {age : Int32} {deed : FamilyDeed} {next last : Option String}
      {rest : List FamilyDeed} (hdeed : deed.handover? = some (monarch, next))
      (hrest : Reign next rest last) :
      Reign (some monarch) (.death monarch age :: deed :: rest) last

namespace Reign

variable {first middle last : Option String} {deeds more : List FamilyDeed}

theorem append (h : Reign first deeds middle) (h' : Reign middle more last) :
    Reign first (deeds ++ more) last := by
  induction h with
  | done monarch => exact h'
  | aside hdeed hrest ih => exact .aside hdeed (ih h')
  | handover hdeed hrest ih => exact .handover hdeed (ih h')

/-- Events that do not touch the crown leave the monarch in place. -/
theorem of_aside {monarch : Option String} (h : ∀ deed ∈ deeds, deed.handover? = none) :
    Reign monarch deeds monarch := by
  induction deeds with
  | nil => exact .done monarch
  | cons deed rest ih =>
    rw [List.forall_mem_cons] at h
    exact .aside h.1 (ih h.2)

/-- A handover is told right behind the death of the old monarch. -/
theorem death_before (h : Reign first deeds last) {before behind : List FamilyDeed}
    {deed : FamilyDeed} {monarch : String} {next : Option String}
    (hsplit : deeds = before ++ deed :: behind) (hdeed : deed.handover? = some (monarch, next)) :
    ∃ init age, before = init ++ [.death monarch age] := by
  induction h generalizing before with
  | done =>
    rw [List.nil_eq, List.append_eq_nil_iff] at hsplit
    cases hsplit.2
  | aside haside hrest ih =>
    cases before with
    | nil =>
      -- The first event would be the handover.
      cases hsplit
      rw [haside] at hdeed
      cases hdeed
    | cons d before =>
      cases hsplit
      obtain ⟨init, age, hbefore⟩ := ih rfl
      exact ⟨_ :: init, age, by rw [hbefore]; rfl⟩
  | handover hfirst hrest ih =>
    -- In a pair the handover is the second one, behind the death it belongs to.
    match before with
    | [] =>
      cases hsplit
      cases hdeed
    | [d] =>
      cases hsplit
      rw [hfirst] at hdeed
      cases hdeed
      exact ⟨[], _, rfl⟩
    | d :: d' :: before =>
      cases hsplit
      obtain ⟨init, age, hbefore⟩ := ih rfl
      exact ⟨_ :: _ :: init, age, by rw [hbefore]; rfl⟩

/-- One handover begins where the other has ended. -/
def Follows (a b : String × Option String) : Prop := a.2 = some b.1

/-- The handovers follow one another from the first monarch on. -/
theorem chain (h : Reign first deeds last) (old : String) :
    List.IsChain Follows ((old, first) :: deeds.filterMap FamilyDeed.handover?) := by
  induction h generalizing old with
  | done => exact List.isChain_singleton _
  | aside hdeed hrest ih =>
    rw [List.filterMap_cons_none hdeed]
    exact ih old
  | @handover monarch age deed next last rest hdeed hrest ih =>
    have hdeath : (FamilyDeed.death monarch age).handover? = none := rfl
    rw [List.filterMap_cons_none hdeath, List.filterMap_cons_some hdeed, List.isChain_cons_cons]
    exact ⟨rfl, ih monarch⟩

/-- Nothing follows the end of the line. -/
theorem eq_nil_of_end {earlier later : List (String × Option String)} {monarch : String}
    (h : List.IsChain Follows (earlier ++ (monarch, none) :: later)) : later = [] := by
  have hend := (List.isChain_append.1 h).2.1
  cases later with
  | nil => rfl
  | cons next rest =>
    have hfollows := (List.isChain_cons_cons.1 hend).1
    cases hfollows

end Reign

/-! ## Those who have reigned -/

namespace Roster

variable {r : Roster}

/-- Whether an id belongs to somebody who is or has been a monarch. -/
def hasReigned (r : Roster) (id : PersonId) : Bool := (r.get? id).any (·.wasMonarch)

theorem exists_of_hasReigned {id : PersonId} (h : r.hasReigned id = true) :
    ∃ p, r.get? id = some p := by
  cases hp : r.get? id with
  | none =>
    unfold hasReigned at h
    rw [hp] at h
    cases h
  | some p => exact ⟨p, rfl⟩

theorem hasReigned_update {f : Person → Person} (hf : ∀ p, (f p).wasMonarch = p.wasMonarch)
    (r : Roster) (id x : PersonId) : (r.update id f).hasReigned x = r.hasReigned x :=
  update_frame (fun o => o.any Person.wasMonarch) hf r id x

theorem hasReigned_spawn (r : Roster) (a : Arrival) (x : PersonId) :
    (r.spawn a).2.hasReigned x = r.hasReigned x := by
  unfold hasReigned
  rcases get?_spawn_cases r a x with hsame | ⟨-, hold, hnew⟩
  · rw [hsame]
  · rw [hold, hnew]
    rfl

theorem hasReigned_marry (r : Roster) (a b x : PersonId) :
    (r.marry a b).hasReigned x = r.hasReigned x :=
  marry_frame (fun o => o.any Person.wasMonarch) (fun _ _ => rfl) r a b x

theorem hasReigned_bear (r : Roster) (a : Arrival) (mother father x : PersonId) :
    (r.bear a mother father).hasReigned x = r.hasReigned x := by
  have hlinked := addChild_frame (fun o => o.any Person.wasMonarch) (fun _ _ _ => rfl)
    (r.spawn a).2 mother father r.nextId x
  exact hlinked.trans (hasReigned_spawn r a x)

theorem hasReigned_crown {id : PersonId} {p : Person} (h : r.get? id = some p) (x : PersonId) :
    (r.crown id).hasReigned x = true ↔ r.hasReigned x = true ∨ x = id := by
  unfold crown hasReigned
  rw [get?_update]
  split
  case isTrue heq =>
    rw [heq, h]
    exact ⟨fun _ => .inr rfl, fun _ => rfl⟩
  case isFalse hne =>
    constructor
    · exact .inl
    · rintro (hold | heq)
      · exact hold
      · exact absurd heq hne

/-- Of a founding couple the first is crowned. -/
theorem hasReigned_withCouple (r : Roster) (king queen : Arrival) (x : PersonId) :
    (r.withCouple king queen).hasReigned x = true ↔ r.hasReigned x = true ∨ x = r.nextId := by
  obtain ⟨p, hp⟩ := r.exists_nextId king
  have hlater := (Continues.spawn (r.spawn king).2 queen).trans
    (.marry _ r.nextId (r.spawn king).2.nextId)
  obtain ⟨q, hq, -⟩ := hlater.stays hp
  unfold withCouple
  rw [hasReigned_crown hq, hasReigned_marry, hasReigned_spawn, hasReigned_spawn]

end Roster

end Annals
