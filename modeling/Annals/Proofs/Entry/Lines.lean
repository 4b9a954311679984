import Annals.Proofs.Entry.Encoding
/-!
# Lines of entries read back

An entry is one line: it has no line break, and it reads back as that entry. So the text of many
entries comes apart at its line breaks into the lines of the entries, with nothing behind the last
one.

* `Entry.ofLine?_line`, `Entry.newline_not_mem_line`: one entry.
* `Entry.split_lines`: the lines of a text of entries.
* `Entry.lines_decode`: the entries that are written are the entries that are read.
-/

namespace Annals.Entry

/-- The line of an entry reads back as the entry. -/
theorem ofLine?_line (e : Entry) : ofLine? e.line = some e := by
  have hexact : Json.Exact Json.maxDepth e.toJson := exact_toJson e
  rw [ofLine?, line, Json.parse?_compact hexact, Option.bind_some, ofJson?_toJson]

/-- An entry is written on one line. -/
theorem newline_not_mem_line (e : Entry) : '\n' ∉ e.line.toList := by
  have hexact : Json.Exact Json.maxDepth e.toJson := exact_toJson e
  rw [line, Json.compact, String.toList_ofList]
  exact Json.newline_not_mem_compactChars hexact

theorem lines_cons (e : Entry) (es : List Entry) :
    (lines (e :: es)).toList = e.line.toList ++ '\n' :: (lines es).toList := by
  simp [lines, String.toList_join]

/-- The text of many entries comes apart into their lines. -/
theorem split_lines (es : List Entry) :
    ((lines es).split '\n').toList.map (·.copy) = es.map line ++ [""] := by
  rw [String.toList_split_char]
  induction es with
  | nil => rfl
  | cons e es ih =>
    -- The first line break of the text is the one behind the first line, which has none itself.
    rw [lines_cons, List.splitOn_append_cons_self_of_not_mem (newline_not_mem_line e),
      List.map_cons, ih, String.ofList_toList]
    rfl

/-- Every entry is written on one line that reads back as this entry. The text of any number of
entries comes apart at its line breaks into lines, with nothing behind the last line break, and the
lines read back as exactly these entries in their order. -/
theorem lines_decode :
    (∀ e : Entry, '\n' ∉ e.line.toList ∧ ofLine? e.line = some e) ∧
      ∀ es : List Entry, ∃ pieces : List String,
        ((lines es).split '\n').toList.map (·.copy) = pieces ++ [""] ∧
          pieces.mapM ofLine? = some es := by
  refine ⟨fun e => ⟨newline_not_mem_line e, ofLine?_line e⟩, fun es => ?_⟩
  exact ⟨es.map line, split_lines es, Json.mapM_map_eq_some ofLine?_line es⟩

end Annals.Entry
