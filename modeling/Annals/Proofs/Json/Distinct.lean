import Annals.Json.Basic
import Mathlib.Data.List.Nodup
/-!
# Values with one member per name

* `Json.Distinct`: no object of a value has two members of one name.
* `Json.distinct_distinct`: members of one name have been merged by `Json.distinct`.
-/

namespace Annals.Json

/-- No object has two members of one name. -/
inductive Distinct : Json → Prop where
  | null : Distinct .null
  | bool (value : Bool) : Distinct (.bool value)
  | int (value : Int) : Distinct (.int value)
  | float (value : Float) : Distinct (.float value)
  | str (value : String) : Distinct (.str value)
  | arr {items : List Json} (hitems : ∀ j ∈ items, Distinct j) : Distinct (.arr items)
  | obj {members : List (String × Json)} (hnames : (members.map (·.1)).Nodup)
      (hvalues : ∀ m ∈ members, Distinct m.2) : Distinct (.obj members)

/-- A member is put in the place of one of its name, else at the end. -/
theorem map_fst_put (name : String) (value : Json) (members : List (String × Json)) :
    (put name value members).map (·.1) =
      if name ∈ members.map (·.1) then members.map (·.1) else members.map (·.1) ++ [name] := by
  induction members with
  | nil => rfl
  | cons member rest ih =>
    obtain ⟨key, old⟩ := member
    unfold put
    by_cases hkey : key = name
    · simp [hkey]
    · rw [if_neg hkey, List.map_cons, ih]
      by_cases hrest : name ∈ rest.map (·.1)
      · simp [hrest]
      · simp [hrest, Ne.symm hkey]

theorem nodup_put {members : List (String × Json)} (h : (members.map (·.1)).Nodup) (name : String)
    (value : Json) : ((put name value members).map (·.1)).Nodup := by
  rw [map_fst_put]
  split
  case isTrue => exact h
  case isFalse hnew => exact List.nodup_append'.2 ⟨h, List.nodup_singleton _, by simpa using hnew⟩

theorem mem_put {name : String} {value : Json} {members : List (String × Json)}
    {m : String × Json} (h : m ∈ put name value members) : m.2 = value ∨ m ∈ members := by
  induction members with
  | nil =>
    cases List.mem_singleton.1 h
    exact .inl rfl
  | cons member rest ih =>
    obtain ⟨key, old⟩ := member
    unfold put at h
    split at h
    · rcases List.mem_cons.1 h with rfl | h
      · exact .inl rfl
      · exact .inr (List.mem_cons_of_mem _ h)
    · rcases List.mem_cons.1 h with rfl | h
      · exact .inr List.mem_cons_self
      · exact (ih h).imp_right (List.mem_cons_of_mem _)

/-- Members that are put one after the other make an object with one member per name. -/
theorem Distinct.foldl_put {members out : List (String × Json)}
    (hmembers : ∀ m ∈ members, m.2.Distinct) (hout : Distinct (.obj out)) :
    Distinct (.obj (members.foldl (fun out m => put m.1 m.2 out) out)) := by
  induction members generalizing out with
  | nil => exact hout
  | cons m rest ih =>
    obtain ⟨hfirst, hrest⟩ := List.forall_mem_cons.1 hmembers
    cases hout with
    | obj hnames hvalues =>
      refine ih hrest (.obj (nodup_put hnames m.1 m.2) fun e he => ?_)
      rcases mem_put he with hvalue | he
      · rw [hvalue]
        exact hfirst
      · exact hvalues e he

mutual

/-- Members of one name have been merged. -/
theorem distinct_distinct : ∀ j : Json, j.distinct.Distinct
  | .null => .null
  | .bool value => .bool value
  | .int value => .int value
  | .float value => .float value
  | .str value => .str value
  | .arr items => .arr (distinct_distinctItems items)
  | .obj members => .foldl_put (distinct_distinctMembers members)
      (.obj List.nodup_nil (List.forall_mem_nil _))

theorem distinct_distinctItems : ∀ items : List Json, ∀ j ∈ distinctItems items, j.Distinct
  | [] => List.forall_mem_nil _
  | item :: rest =>
    List.forall_mem_cons.2 ⟨distinct_distinct item, distinct_distinctItems rest⟩

theorem distinct_distinctMembers :
    ∀ members : List (String × Json), ∀ m ∈ distinctMembers members, m.2.Distinct
  | [] => List.forall_mem_nil _
  | (_, value) :: rest =>
    List.forall_mem_cons.2 ⟨distinct_distinct value, distinct_distinctMembers rest⟩

end

end Annals.Json
