import Annals.Proofs.Json.Tokens
/-!
# Texts of values

A text spells a value when it is one of the forms in which a value can be written: with blanks in
front of items, members and values or without, and in front of the closing bracket. Doubles are left
out: what they read back as depends on the decimal that was chosen for them.

* `Spelled`: the texts of a value, with a bound for its depth.
* `Spelled.reads`: such a text is read as the value, whatever may stand behind it.
* `parse?_of_spelled`: it is read as a whole text.
* `parse?_plain`: an object of nothing but fields is read as a record.
-/

namespace Annals.Json

/-! ## Spellings -/

mutual

/-- A text of a value without doubles, whose integers fit 64 bits and whose arrays and objects nest
at most so deep. -/
inductive Spelled : Nat → Json → List Char → Prop where
  | null {d : Nat} : Spelled d .null "null".toList
  | bool {d : Nat} (b : Bool) : Spelled d (.bool b) (compactChars (.bool b))
  | int {d : Nat} {n : Int} (hlow : Int64.minValue.toInt ≤ n) (hhigh : n < UInt64.size) :
      Spelled d (.int n) (Text.intChars n)
  | str {d : Nat} (s : String) : Spelled d (.str s) (strChars s)
  | emptyArr {d : Nat} : Spelled (d + 1) (.arr []) ['[', ']']
  | arr {d : Nat} {items : List Json} {blanks cs : List Char} (hblanks : Blank blanks)
      (hitems : SpelledItems d items cs) : Spelled (d + 1) (.arr items) ('[' :: (blanks ++ cs))
  | emptyObj {d : Nat} : Spelled (d + 1) (.obj []) ['{', '}']
  | obj {d : Nat} {members : List (String × Json)} {blanks cs : List Char} (hblanks : Blank blanks)
      (hmembers : SpelledMembers d members cs) :
      Spelled (d + 1) (.obj members) ('{' :: (blanks ++ cs))

/-- A text of some items, up to the closing bracket. -/
inductive SpelledItems : Nat → List Json → List Char → Prop where
  | last {d : Nat} {j : Json} {cs blanks : List Char} (hitem : Spelled d j cs)
      (hblanks : Blank blanks) : SpelledItems d [j] (cs ++ (blanks ++ [']']))
  | cons {d : Nat} {j : Json} {items : List Json} {cs blanks more : List Char}
      (hitem : Spelled d j cs) (hblanks : Blank blanks) (hitems : SpelledItems d items more) :
      SpelledItems d (j :: items) (cs ++ ',' :: (blanks ++ more))

/-- A text of some members, up to the closing brace. -/
inductive SpelledMembers : Nat → List (String × Json) → List Char → Prop where
  | last {d : Nat} (key : String) {j : Json} {gap cs blanks : List Char} (hgap : Blank gap)
      (hvalue : Spelled d j cs) (hblanks : Blank blanks) :
      SpelledMembers d [(key, j)] (strChars key ++ ':' :: (gap ++ (cs ++ (blanks ++ ['}']))))
  | cons {d : Nat} (key : String) {j : Json} {members : List (String × Json)}
      {gap cs blanks more : List Char} (hgap : Blank gap) (hvalue : Spelled d j cs)
      (hblanks : Blank blanks) (hmembers : SpelledMembers d members more) :
      SpelledMembers d ((key, j) :: members)
        (strChars key ++ ':' :: (gap ++ (cs ++ ',' :: (blanks ++ more))))

end

variable {d : Nat} {j : Json} {cs rest : List Char}

/-! ## The first character -/

/-- A value starts with a character that is no blank and does not close an array. -/
theorem Spelled.exists_cons (h : Spelled d j cs) :
    ∃ c tail, cs = c :: tail ∧ isBlank c = false ∧ c ≠ ']' := by
  cases h with
  | null => exact ⟨'n', _, rfl, rfl, by decide⟩
  | bool b =>
    cases b with
    | true => exact ⟨'t', _, rfl, rfl, by decide⟩
    | false => exact ⟨'f', _, rfl, rfl, by decide⟩
  | @int _ n hlow hhigh =>
    cases n with
    | negSucc n => exact ⟨'-', _, rfl, rfl, by decide⟩
    | ofNat n =>
      obtain ⟨c, tail, hcs, hc⟩ := exists_toDigits_eq_cons n
      have hc := fun k => ne_of_isDigit (k := k) hc
      refine ⟨c, tail, hcs, ?_, hc _ rfl⟩
      simp [isBlank, hc ' ' rfl, hc '\t' rfl, hc '\n' rfl, hc '\r' rfl]
  | str s => exact ⟨'"', _, rfl, rfl, by decide⟩
  | emptyArr => exact ⟨'[', _, rfl, rfl, by decide⟩
  | arr => exact ⟨'[', _, rfl, rfl, by decide⟩
  | emptyObj => exact ⟨'{', _, rfl, rfl, by decide⟩
  | obj => exact ⟨'{', _, rfl, rfl, by decide⟩

theorem SpelledItems.exists_cons {items : List Json} (h : SpelledItems d items cs) :
    ∃ c tail, cs = c :: tail ∧ isBlank c = false ∧ c ≠ ']' := by
  cases h with
  | last hitem =>
    obtain ⟨c, tail, rfl, hc⟩ := hitem.exists_cons
    exact ⟨c, _, List.cons_append, hc⟩
  | cons hitem =>
    obtain ⟨c, tail, rfl, hc⟩ := hitem.exists_cons
    exact ⟨c, _, List.cons_append, hc⟩

theorem SpelledMembers.exists_cons {members : List (String × Json)}
    (h : SpelledMembers d members cs) : ∃ tail, cs = '"' :: tail := by
  cases h with
  | last => exact ⟨_, rfl⟩
  | cons => exact ⟨_, rfl⟩

/-- There are no blanks in front of a value. -/
theorem Spelled.skipBlanks (h : Spelled d j cs) (rest : List Char) :
    Json.skipBlanks (cs ++ rest) = cs ++ rest := by
  obtain ⟨c, tail, rfl, hblank, -⟩ := h.exists_cons
  simp [Json.skipBlanks, hblank]

/-- A numeral is what is read when no other kind of value starts. -/
theorem value?_intChars (n : Int) (d : Nat) (outline : Outline) :
    value? d outline (Text.intChars n ++ rest) = number? (Text.intChars n ++ rest) := by
  cases n with
  | negSucc n =>
    rw [Text.intChars, List.cons_append, value?] <;> simp
  | ofNat n =>
    -- No other kind of value starts with a digit.
    obtain ⟨c, cs, hcs, hc⟩ := exists_toDigits_eq_cons n
    have hc := fun k => ne_of_isDigit (k := k) hc
    rw [Text.intChars, hcs, List.cons_append, value?]
    all_goals simp [hc '"' rfl, hc '[' rfl, hc '{' rfl, hc 'n' rfl, hc 't' rfl, hc 'f' rfl]

/-! ## Reading -/

/-- Items take as many characters at least. -/
theorem SpelledItems.length_le {items : List Json} (h : SpelledItems d items cs) :
    items.length ≤ cs.length := by
  induction items generalizing cs with
  | nil => exact Nat.zero_le _
  | cons item items ih =>
    cases h with
    | last =>
      simp only [List.length_append, List.length_cons, List.length_nil]
      omega
    | cons hitem hblanks hitems =>
      have hmore := ih hitems
      simp only [List.length_cons, List.length_append]
      omega

theorem SpelledMembers.length_le {members : List (String × Json)}
    (h : SpelledMembers d members cs) : members.length ≤ cs.length := by
  induction members generalizing cs with
  | nil => exact Nat.zero_le _
  | cons m members ih =>
    cases h with
    | last => simp [strChars]
    | cons key hgap hvalue hblanks hmembers =>
      have hmore := ih hmembers
      simp only [List.length_cons, List.length_append]
      omega

/-- A reader of values finds a value at the front of a text, whatever may stand behind it. -/
def Reads (item? : Outline → List Char → Option (Json × List Char)) (j : Json) (cs : List Char) :
    Prop :=
  ∀ rest, Closed rest → item? .whole (cs ++ rest) = some (j, rest)

/-- An object is read as its members are, in an outline that wants them. -/
theorem value?_obj {members : List (String × Json)} {blanks : List Char} {outline : Outline}
    (hblanks : Blank blanks) (hmembers : SpelledMembers d members cs)
    (hread : ∀ fuel, members.length ≤ fuel →
      membersRest (value? d) fuel outline (cs ++ rest) = some (members, rest)) :
    value? (d + 1) outline ('{' :: (blanks ++ cs) ++ rest) = some (.obj members, rest) := by
  have hlength := hmembers.length_le
  -- A member starts with the quote of its name.
  obtain ⟨tail, rfl⟩ := hmembers.exists_cons
  rw [List.length_cons] at hlength
  have hmembers' := hread (tail.length + rest.length + 1 + 1) (by omega)
  have hquote : isBlank '"' = false := rfl
  rw [List.cons_append, List.append_assoc, value?, skipBlanks_append hblanks]
  simp only [List.cons_append, skipBlanks, hquote] at hmembers' ⊢
  simp [hmembers']

mutual

/-- A text of a value is read up to where it ends. -/
theorem Spelled.reads : ∀ {d : Nat} {j : Json} {cs : List Char}, Spelled d j cs →
    Reads (value? d) j cs
  | _, _, _, .null => by
    intro rest _
    change value? _ _ ('n' :: ("ull".toList ++ rest)) = _
    rw [value?, afterWord?_append]
    rfl
  | _, _, _, .bool true => by
    intro rest _
    change value? _ _ ('t' :: ("rue".toList ++ rest)) = _
    rw [value?, afterWord?_append]
    rfl
  | _, _, _, .bool false => by
    intro rest _
    change value? _ _ ('f' :: ("alse".toList ++ rest)) = _
    rw [value?, afterWord?_append]
    rfl
  | _, _, _, .int hlow hhigh => by
    intro rest hrest
    rw [value?_intChars]
    exact number?_intChars hlow hhigh hrest
  | _, _, _, .str s => by
    intro rest _
    obtain ⟨cs, hcs, hs⟩ := string?_strChars s rest
    rw [hcs, value?, hs]
    rfl
  | _, _, _, .emptyArr => fun _ _ => rfl
  | _, _, _, .arr hblanks hitems => by
    intro rest _
    have hread := fun fuel hfuel => hitems.reads fuel rest hfuel [] (List.forall_mem_nil _)
    have hlength := hitems.length_le
    -- An item does not start like the end of an array, so this is not read as the empty one.
    obtain ⟨c, tail, rfl, hblank, hc⟩ := hitems.exists_cons
    rw [List.length_cons] at hlength
    have hitems' := hread (tail.length + rest.length + 1 + 1) (by omega)
    rw [List.cons_append, List.append_assoc, value?, skipBlanks_append hblanks]
    simp only [List.nil_append, List.cons_append, skipBlanks, hblank] at hitems' ⊢
    simp [hc, hitems']
  | _, _, _, .emptyObj => fun _ _ => rfl
  | _, _, _, .obj hblanks hmembers => fun rest _ =>
    value?_obj hblanks hmembers fun fuel hfuel =>
      hmembers.reads .whole (fun _ _ => rfl) fuel rest hfuel [] (List.forall_mem_nil _)

/-- The items of an array are read one by one. -/
theorem SpelledItems.reads : ∀ {d : Nat} {items : List Json} {cs : List Char},
    SpelledItems d items cs → ∀ fuel rest, items.length ≤ fuel → ∀ blanks, Blank blanks →
      itemsRest (value? d) fuel .whole (blanks ++ (cs ++ rest)) = some (items, rest)
  | _, _, _, .last hitem hbehind => by
    intro fuel rest hfuel blanks hblanks
    obtain ⟨fuel, rfl⟩ := Nat.exists_eq_add_one.2 hfuel
    have hread := hitem.reads _ ((closed_bracket rest).blanks hbehind)
    have hfirst : Outline.first .whole = .whole := rfl
    have hend : skipBlanks (']' :: rest) = ']' :: rest := rfl
    simp [itemsRest, skipBlanks_append hblanks, hitem.skipBlanks, hfirst, hread,
      skipBlanks_append hbehind, hend]
  | _, _, _, @SpelledItems.cons _ _ _ _ between more hitem hbetween hitems => by
    intro fuel rest hfuel blanks hblanks
    obtain ⟨fuel, rfl⟩ := Nat.exists_eq_add_one.2 (Nat.zero_lt_of_lt hfuel)
    have hread := hitem.reads _ (closed_comma (between ++ (more ++ rest)))
    have hmore := hitems.reads fuel rest (Nat.le_of_succ_le_succ hfuel) _ hbetween
    have hfirst : Outline.first .whole = .whole := rfl
    have hlater : Outline.later .whole = .whole := rfl
    simp [itemsRest, skipBlanks_append hblanks, hitem.skipBlanks, hfirst, hread, skipBlanks,
      isBlank, hlater, hmore]

/-- The members of an object are read one by one, in an outline that wants them whole. -/
theorem SpelledMembers.reads : ∀ {d : Nat} {members : List (String × Json)} {cs : List Char},
    SpelledMembers d members cs → ∀ outline : Outline,
      (∀ m ∈ members, outline.member? m.1 = some .whole) →
        ∀ fuel rest, members.length ≤ fuel → ∀ blanks, Blank blanks →
          membersRest (value? d) fuel outline (blanks ++ (cs ++ rest)) = some (members, rest)
  | _, _, _, @SpelledMembers.last _ key _ gap cs behind hgap hvalue hbehind => by
    intro outline hwanted fuel rest hfuel blanks hblanks
    obtain ⟨fuel, rfl⟩ := Nat.exists_eq_add_one.2 hfuel
    have hwhole := hwanted _ List.mem_cons_self
    have hread := hvalue.reads _ ((closed_brace rest).blanks hbehind)
    obtain ⟨text, htext, hkey⟩ :=
      string?_strChars key (':' :: (gap ++ (cs ++ (behind ++ '}' :: rest))))
    simp [membersRest, memberRest, skipBlanks_append hblanks, htext, hkey, skipBlanks, isBlank,
      skipBlanks_append hgap, hvalue.skipBlanks, hwhole, hread, skipBlanks_append hbehind]
  | _, _, _, @SpelledMembers.cons _ key _ _ gap cs between more hgap hvalue hbetween hmembers => by
    intro outline hwanted fuel rest hfuel blanks hblanks
    obtain ⟨fuel, rfl⟩ := Nat.exists_eq_add_one.2 (Nat.zero_lt_of_lt hfuel)
    obtain ⟨hwhole, hwanted⟩ := List.forall_mem_cons.1 hwanted
    have hread := hvalue.reads _ (closed_comma (between ++ (more ++ rest)))
    have hmore := hmembers.reads outline hwanted fuel rest (Nat.le_of_succ_le_succ hfuel) _ hbetween
    obtain ⟨text, htext, hkey⟩ :=
      string?_strChars key (':' :: (gap ++ (cs ++ ',' :: (between ++ (more ++ rest)))))
    simp [membersRest, memberRest, skipBlanks_append hblanks, htext, hkey, skipBlanks, isBlank,
      skipBlanks_append hgap, hvalue.skipBlanks, hwhole, hread, hmore]

end

/-! ## Whole texts -/

/-- A text of a value is read as the value. -/
theorem parse?_of_spelled (h : Spelled maxDepth j cs) : parse? (String.ofList cs) = some j := by
  have hblank := h.skipBlanks []
  have hread := h.reads [] closed_nil
  rw [List.append_nil] at hblank hread
  simp [parse?, hblank, hread, skipBlanks]

/-- A name that a record has is wanted whole. -/
theorem Outline.member?_plain {name : String} {names : List String} (h : name ∈ names) :
    (plain names).member? name = some .whole := by
  change (names.map fun name => (name, whole)).lookup name = some .whole
  induction names with
  | nil => cases h
  | cons first names ih =>
    by_cases hname : name = first
    · rw [hname, List.map_cons, List.lookup_cons_self]
    · rw [List.map_cons, List.lookup_cons, beq_eq_false_iff_ne.2 hname]
      exact ih ((List.mem_cons.1 h).resolve_left hname)

/-- An object of nothing but fields is read as a record. -/
theorem parse?_plain {members : List (String × Json)} {names : List String}
    (hnames : ∀ m ∈ members, m.1 ∈ names) (h : Spelled maxDepth (.obj members) cs) :
    parse? (String.ofList cs) (.plain names) = some (.obj members) := by
  have hblank := h.skipBlanks []
  have hread : value? maxDepth (.plain names) (cs ++ []) = some (.obj members, []) := by
    cases h with
    | emptyObj => rfl
    | obj hblanks hmembers =>
      refine value?_obj hblanks hmembers fun fuel hfuel => ?_
      exact hmembers.reads _ (fun m hm => Outline.member?_plain (hnames m hm)) fuel [] hfuel []
        (List.forall_mem_nil _)
  rw [List.append_nil] at hblank hread
  simp [parse?, hblank, hread, skipBlanks]

end Annals.Json
