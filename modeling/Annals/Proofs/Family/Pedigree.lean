import Mathlib.Data.List.Chain
import Annals.Proofs.Family.Fates
import Annals.Proofs.Family.Succession
/-!
# Pedigrees of monarchs

Heirs are found through the parents that are noted for a monarch, and family trees through lists of
children. Whatever happens in families, children are listed with the parents noted for them, and
nobody is struck off such a list. So it can be told from the lists of children, at any later time,
how two monarchs in a row were related.

* `Roster.Registered`: parents list their children.
* `Roster.Kin`: children, and persons with a parent in common.
* `Roster.Begets`: what every move of family life does to lists of children.
* `House.Followed`, `House.followed_passMembers`: monarchs follow one another as kin.
-/

namespace Annals

/-! ## Children and parents -/

namespace Roster

variable {r r' r'' : Roster} {id child mother father x : PersonId}

/-- Whoever has parents is among the children of both. -/
def Registered (r : Roster) : Prop :=
  ∀ c mother father, r.parentsOf c = some (mother, father) →
    c ∈ r.childrenOf mother ∧ c ∈ r.childrenOf father

/-- Whether the second is a child of the first or has a parent in common with the first. -/
def Kin (r : Roster) (a b : PersonId) : Prop :=
  b ∈ r.childrenOf a ∨ ∃ q, a ∈ r.childrenOf q ∧ b ∈ r.childrenOf q

/-- A change that takes no child from anybody and registers children with their parents. -/
structure Begets (r r' : Roster) : Prop where
  children : ∀ x, r.childrenOf x ⊆ r'.childrenOf x
  registered : r.Registered → r'.Registered

namespace Begets

theorem refl (r : Roster) : r.Begets r := ⟨fun _ => List.Subset.refl _, fun h => h⟩

theorem trans (h : r.Begets r') (h' : r'.Begets r'') : r.Begets r'' :=
  ⟨fun x => List.Subset.trans (h.children x) (h'.children x),
    fun hr => h'.registered (h.registered hr)⟩

theorem kin (h : r.Begets r') {a b : PersonId} (hkin : r.Kin a b) : r'.Kin a b := by
  rcases hkin with hchild | ⟨q, ha, hb⟩
  · exact .inl (h.children a hchild)
  · exact .inr ⟨q, h.children q ha, h.children q hb⟩

/-- What leaves children and parents alone registers nobody. -/
theorem of_same (hchildren : ∀ x, r'.childrenOf x = r.childrenOf x)
    (hparents : ∀ x, r'.parentsOf x = r.parentsOf x) : r.Begets r' := by
  constructor
  · intro x
    rw [hchildren]
    exact List.Subset.refl _
  · intro hr c mother father hc
    rw [hparents] at hc
    rw [hchildren, hchildren]
    exact hr c mother father hc

theorem of_sameLinks (h : r.SameLinks r') : r.Begets r' := of_same h.children h.parents

theorem marry (r : Roster) (a b : PersonId) : r.Begets (r.marry a b) :=
  of_same (childrenOf_marry r a b) (parentsOf_marry r a b)

end Begets

theorem subset_childrenOf_withChild (r : Roster) (id child x : PersonId) :
    r.childrenOf x ⊆ (r.update id (withChild child)).childrenOf x := by
  unfold childrenOf
  rw [get?_update]
  split
  · cases r.get? x with
    | none => exact List.Subset.refl _
    | some p => exact List.subset_append_left _ _
  · exact List.Subset.refl _

theorem mem_childrenOf_withChild (h : r.Knows id) :
    child ∈ (r.update id (withChild child)).childrenOf id := by
  obtain ⟨p, hp⟩ := h
  have hget : (r.update id (withChild child)).get? id = some (withChild child p) := by
    rw [get?_update_self, hp]
    rfl
  rw [childrenOf_of_get? hget]
  exact List.mem_append_right _ List.mem_cons_self

/-- The parents that are noted for a child are registered, whoever the child is. -/
theorem Begets.addChild (hmother : r.Knows mother) (hfather : r.Knows father) (child : PersonId) :
    r.Begets (r.addChild mother father child) := by
  have hknown : (r.update mother (withChild child)).Knows father :=
    (Continues.update (becomes_withChild child) r mother).knows hfather
  have hchildren : ∀ x, (r.addChild mother father child).childrenOf x =
      ((r.update mother (withChild child)).update father (withChild child)).childrenOf x := fun x =>
    update_frame (f := withParents mother father) (fun o => (o.map Person.children).getD [])
      (fun _ => rfl) _ child x
  have hold : ∀ x, r.childrenOf x ⊆ (r.addChild mother father child).childrenOf x := by
    intro x
    rw [hchildren]
    exact List.Subset.trans (subset_childrenOf_withChild r mother child x)
      (subset_childrenOf_withChild _ father child x)
  refine ⟨hold, fun hr c mother' father' hc => ?_⟩
  have hparents : ∀ x, ((r.update mother (withChild child)).update father
      (withChild child)).parentsOf x = r.parentsOf x := fun x =>
    (update_frame (f := withChild child) (fun o => o.bind Person.parents) (fun _ => rfl) _ father
      x).trans (update_frame (f := withChild child) (fun o => o.bind Person.parents)
        (fun _ => rfl) r mother x)
  by_cases hnew : c = child
  · subst hnew
    cases hp : ((r.update mother (withChild c)).update father (withChild c)).get? c with
    | none =>
      -- Nothing is noted for an unknown child.
      unfold parentsOf at hc
      rw [addChild_eq, get?_update_self, hp] at hc
      cases hc
    | some p =>
      unfold parentsOf at hc
      rw [addChild_eq, get?_update_self, hp] at hc
      cases hc
      rw [hchildren, hchildren]
      exact ⟨subset_childrenOf_withChild _ father c mother (mem_childrenOf_withChild hmother),
        mem_childrenOf_withChild hknown⟩
  · have hbefore : r.parentsOf c = some (mother', father') := by
      rw [← hparents, ← hc]
      unfold parentsOf
      rw [addChild_eq, get?_update_ne hnew]
    obtain ⟨hm, hf⟩ := hr c mother' father' hbefore
    exact ⟨hold mother' hm, hold father' hf⟩

theorem Begets.bear (a : Arrival) (hmother : r.Knows mother) (hfather : r.Knows father) :
    r.Begets (r.bear a mother father) := by
  have hspawned := Continues.spawn r a
  exact (of_sameLinks (.spawn r a)).trans
    (.addChild (hspawned.knows hmother) (hspawned.knows hfather) _)

theorem Begets.withCouple (r : Roster) (king queen : Arrival) :
    r.Begets (r.withCouple king queen) := by
  have hspawned := (of_sameLinks (.spawn r king)).trans (of_sameLinks (.spawn _ queen))
  exact (hspawned.trans (.marry ..)).trans (of_sameLinks (.crown ..))

theorem registered_empty : empty.Registered := by
  intro c mother father hc
  cases hc

end Roster

/-! ## Turns -/

namespace House

variable {σ : Type} {s : FamilySettings} {year : Year} {id : PersonId} {h h' h'' : House σ}
  {events : List FamilyEvent} {heirs later : List PersonId}

theorem Turned.begets [Dice σ] (hturned : Turned s year id h events h') :
    h.roster.Begets h'.roster := by
  cases hturned with
  | gone hdead => exact .refl _
  | @aged p loss dice _ _ hget halive hfared =>
    have haged : h.roster.Begets (h.roster.weaken id loss) := .of_sameLinks (.weaken ..)
    have hburied := haged.trans (.of_sameLinks (.kill _ id year))
    cases hfared with
    | quiet dice => exact haged
    | died hother => exact hburied
    | succeeded isKing hmonarch hheir => exact hburied.trans (.of_sameLinks (.crown ..))
    | ended isKing hmonarch hheir => exact hburied
    | married dice hgrown hsingle hpartner => exact haged.trans (.marry ..)
    | bore drawn dice hfertile hfather arrival harrival =>
      have hfather' := Roster.knows_of_isAlive (Roster.livingPartner?_mem hfather).2
      exact haged.trans (.bear arrival ⟨p, hget⟩ hfather')

/-- After a turn the monarch is the same, or the monarch has died and is followed by kin, if by
anybody. -/
theorem Turned.followed [Dice σ] (hturned : Turned s year id h events h')
    (hr : h.roster.Numbered) (hregistered : h.roster.Registered) :
    h'.dynasty.monarch = h.dynasty.monarch ∨
      h.dynasty.monarch = some id ∧
        ∀ x, h'.dynasty.monarch = some x → h'.roster.Kin id x := by
  cases hturned with
  | gone hdead => exact .inl rfl
  | @aged p loss dice _ _ hget halive hfared =>
    have hburied : h.roster.Begets ((h.roster.weaken id loss).kill id year) :=
      (Roster.Begets.of_sameLinks (.weaken ..)).trans (.of_sameLinks (.kill _ id year))
    cases hfared with
    | quiet dice => exact .inl rfl
    | died hother => exact .inl rfl
    | @succeeded isKing heir kinship hmonarch hheir =>
      refine .inr ⟨hmonarch, fun x hx => ?_⟩
      cases hx
      refine (Roster.Begets.of_sameLinks (.crown _ heir)).kin ?_
      obtain ⟨-, hchild | ⟨mother, father, q, hparents, hq, hchild⟩⟩ :=
        Roster.heir?_kin ((hr.weaken id loss).kill id year) hheir
      · exact .inl hchild
      · -- The parent through whom the crown comes has both as children.
        obtain ⟨hm, hf⟩ := hburied.registered hregistered id mother father hparents
        rcases hq with rfl | rfl
        · exact .inr ⟨q, hm, hchild⟩
        · exact .inr ⟨q, hf, hchild⟩
    | ended isKing hmonarch hheir =>
      refine .inr ⟨hmonarch, fun x hx => ?_⟩
      cases hx
    | married dice hgrown hsingle hpartner => exact .inl (Dynasty.monarch_join ..)
    | bore drawn dice hfertile hfather arrival harrival => exact .inl (Dynasty.monarch_join ..)

/-! ## Lists of monarchs -/

section Lists

variable {α : Type} {R : α → α → Prop} {monarch : Option α} {earlier heirs : List α}

/-- The heirs of the last one of a list go on with it. -/
theorem isChain_append_heirs (hlast : ∀ x, monarch = some x → earlier.getLast? = some x)
    (hended : monarch = none → heirs = []) (hearlier : List.IsChain R earlier)
    (hheirs : List.IsChain R (monarch.toList ++ heirs)) : List.IsChain R (earlier ++ heirs) := by
  cases monarch with
  | none =>
    rw [hended rfl, List.append_nil]
    exact hearlier
  | some x =>
    obtain ⟨hfirst, hrest⟩ := List.isChain_cons.1 hheirs
    refine List.isChain_append.2 ⟨hearlier, hrest, fun y hy => ?_⟩
    rw [hlast x rfl] at hy
    cases hy
    exact hfirst

theorem getLast?_append_heirs (hlast : ∀ x, monarch = some x → earlier.getLast? = some x)
    (hmonarch : monarch ≠ none) :
    (earlier ++ heirs).getLast? = (monarch.toList ++ heirs).getLast? := by
  cases monarch with
  | none => exact absurd rfl hmonarch
  | some x =>
    rw [List.getLast?_append, List.getLast?_append, hlast x rfl]
    rfl

end Lists

/-- The heirs of turns in a row: kin follow the monarch, and nobody follows a lost crown. -/
structure Followed (h : House σ) (heirs : List PersonId) (h' : House σ) : Prop where
  numbered : h'.roster.Numbered
  begets : h.roster.Begets h'.roster
  chain : List.IsChain h'.roster.Kin (h.dynasty.monarch.toList ++ heirs)
  last : ∀ x, h'.dynasty.monarch = some x →
    (h.dynasty.monarch.toList ++ heirs).getLast? = some x
  ended : h.dynasty.monarch = none → heirs = [] ∧ h'.dynasty.monarch = none

theorem Followed.of_same (hnumbered : h'.roster.Numbered) (hbegets : h.roster.Begets h'.roster)
    (hmonarch : h'.dynasty.monarch = h.dynasty.monarch) : Followed h [] h' where
  numbered := hnumbered
  begets := hbegets
  chain := by
    cases h.dynasty.monarch with
    | none => exact List.isChain_nil
    | some x => exact List.isChain_singleton x
  last := by
    intro x hx
    rw [← hmonarch, hx]
    rfl
  ended := fun hnone => ⟨rfl, hmonarch.trans hnone⟩

theorem Followed.trans (hf : Followed h heirs h') (hf' : Followed h' later h'') :
    Followed h (heirs ++ later) h'' where
  numbered := hf'.numbered
  begets := hf.begets.trans hf'.begets
  chain := by
    rw [← List.append_assoc]
    exact isChain_append_heirs hf.last (fun hnone => (hf'.ended hnone).1)
      (hf.chain.imp fun _ _ => hf'.begets.kin) hf'.chain
  last := by
    intro x hx
    have hsome : h'.dynasty.monarch ≠ none := by
      intro hnone
      rw [(hf'.ended hnone).2] at hx
      cases hx
    rw [← List.append_assoc, getLast?_append_heirs hf.last hsome]
    exact hf'.last x hx
  ended := by
    intro hnone
    obtain ⟨hnobody, hnone'⟩ := hf.ended hnone
    obtain ⟨hnobody', hnone''⟩ := hf'.ended hnone'
    rw [hnobody, hnobody']
    exact ⟨rfl, hnone''⟩

theorem followed_turn [Dice σ] (hturned : Turned s year id h events h')
    (hr : h.roster.Numbered) (hregistered : h.roster.Registered) :
    Followed h (h.newMonarch h') h' := by
  have hnumbered := hturned.numbered hr
  unfold newMonarch
  split
  case isTrue hsame => exact .of_same hnumbered hturned.begets hsame
  case isFalse hchanged =>
    obtain ⟨hmonarch, hkin⟩ := (hturned.followed hr hregistered).resolve_left hchanged
    rw [hmonarch] at hchanged
    constructor
    case numbered => exact hnumbered
    case begets => exact hturned.begets
    case chain =>
      rw [hmonarch]
      cases hnext : h'.dynasty.monarch with
      | none => exact List.isChain_singleton id
      | some x => exact List.isChain_pair.2 (hkin x hnext)
    case last =>
      intro x hx
      rw [hx, hmonarch]
      rfl
    case ended =>
      intro hnone
      rw [hmonarch] at hnone
      cases hnone

theorem followed_passMembers [Dice σ] (s : FamilySettings) (year : Year) (ids : List PersonId)
    (hr : h.roster.Numbered) (hregistered : h.roster.Registered) :
    Followed h (successors s year ids h) (h.passMembers s year ids).2 := by
  induction ids generalizing h with
  | nil => exact .of_same hr (.refl _) rfl
  | cons id rest ih =>
    have hturn := followed_turn (turned s year id h) hr hregistered
    exact hturn.trans (ih hturn.numbered (hturn.begets.registered hregistered))

end House

end Annals
