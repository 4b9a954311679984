import Annals.Cli.Disk
import Annals.Proofs.Catalog.Grammar
/-!
# Files that are written

A file that has been written is found again where it was written, and it can be written once more:
only directories that are there already lie on the way to it.

* `Disk.follow_setFile`, `Disk.locate_setFile`: a path that leads to a place for a file leads to the
  file.
* `Disk.locate_output`: where a path leads to does not depend on what has been printed.
* `Disk.Written`: a path leads to a file with a text.
* `Disk.written_of_writeText`, `Disk.Written.writeText`: writing for the first time and once more.
* `Disk.output_makeDirectories`: making directories prints nothing.
-/

namespace Annals.Cli.Disk

variable {d d' : Disk} {here parts : List String} {content : ByteArray} {path text : String}

/-! ## Directories -/

/-- The working directory is there. -/
theorem isDirectory_home : d.isDirectory d.home = true := by
  unfold isDirectory
  rw [List.isPrefixOf_iff_prefix.2 (List.prefix_refl d.home)]
  rfl

/-- The directories around a directory are there. -/
theorem isDirectory_of_isPrefix {p q : List String} (h : p <+: q) (hq : d.isDirectory q = true) :
    d.isDirectory p = true := by
  unfold isDirectory at *
  simp only [Bool.or_eq_true, List.any_eq_true, Bool.and_eq_true, List.isPrefixOf_iff_prefix,
    decide_eq_true_eq] at *
  rcases hq with (hhome | ⟨other, hother, hbelow⟩) | ⟨f, hf, hbelow, hne⟩
  · exact .inl (.inl (h.trans hhome))
  · exact .inl (.inr ⟨other, hother, h.trans hbelow⟩)
  · refine .inr ⟨f, hf, h.trans hbelow, ?_⟩
    intro heq
    -- A prefix of the directory that were the file would make the two equal.
    exact hne (hbelow.eq_of_length (Nat.le_antisymm hbelow.length_le (heq ▸ h.length_le)))

/-- Every path is followed from a directory that is there. -/
theorem isDirectory_start (path : String) : d.isDirectory (d.start path) = true := by
  refine isDirectory_of_isPrefix ?_ isDirectory_home
  unfold start startOf
  split
  case isTrue => exact List.nil_prefix
  case isFalse => exact List.prefix_refl d.home

/-! ## Places -/

/-- A place where a text can be put: a file that is there, or nothing yet. -/
inductive Place.Writable (parts : List String) : Place → Prop where
  | file (content : ByteArray) : Writable parts (.file parts content)
  | free : Writable parts (.free parts)

/-- Every part of a place but the last is the name of a directory that is there. -/
def Reached (d : Disk) (parts : List String) : Prop :=
  ∀ p, p <+: parts → p ≠ parts → d.isDirectory p = true

/-- A path to a place leads through directories. -/
theorem reached_of_follow {place : Place} (hplace : place.Writable parts) {rest : List String}
    (hhere : d.isDirectory here = true) (h : d.follow here rest = .ok place) :
    d.Reached parts := by
  induction rest generalizing here with
  | nil => cases h; cases hplace
  | cons part rest ih =>
    unfold follow at h
    split at h
    case isTrue => exact ih (isDirectory_of_isPrefix (List.dropLast_prefix here) hhere) h
    split at h
    case isTrue => cases h
    dsimp only at h
    split at h
    case isTrue hnext => exact ih hnext h
    have hlast : parts = here ++ [part] := by
      split at h <;> cases h <;> cases hplace <;> rfl
    intro p hp hne
    rw [hlast] at hp hne
    rcases List.prefix_concat_iff.1 hp with heq | hshorter
    · exact absurd heq hne
    · exact isDirectory_of_isPrefix hshorter hhere

/-- A file at a place that can be reached makes no new directory. -/
theorem isDirectory_setFile (h : d.Reached parts) (p : List String) :
    (d.setFile parts content).isDirectory p = d.isDirectory p := by
  rw [Bool.eq_iff_iff]
  constructor
  · intro hnew
    by_cases hbelow : p <+: parts ∧ p ≠ parts
    · exact h p hbelow.1 hbelow.2
    · unfold isDirectory setFile at *
      simp only [Bool.or_eq_true, List.any_cons, List.any_eq_true, Bool.and_eq_true,
        List.isPrefixOf_iff_prefix, decide_eq_true_eq, hbelow, false_or] at *
      rcases hnew with hother | ⟨f, hf, hfile⟩
      · exact .inl hother
      · exact .inr ⟨f, (List.mem_filter.1 hf).1, hfile⟩
  · intro hold
    unfold isDirectory setFile at *
    simp only [Bool.or_eq_true, List.any_cons, List.any_eq_true, Bool.and_eq_true,
      List.isPrefixOf_iff_prefix, decide_eq_true_eq] at *
    rcases hold with hother | ⟨f, hf, hfile⟩
    · exact .inl hother
    · by_cases heq : f.1 = parts
      · exact .inr (.inl (heq ▸ hfile))
      · exact .inr (.inr ⟨f, List.mem_filter.2 ⟨hf, by simpa using heq⟩, hfile⟩)

theorem file?_setFile : (d.setFile parts content).file? parts = some content := by
  unfold file? setFile
  exact List.lookup_cons_self

/-- A path to a place for a file leads to the file that has been put there. -/
theorem follow_setFile {place : Place} (hplace : place.Writable parts) {rest : List String}
    (hreached : d.Reached parts) (h : d.follow here rest = .ok place) :
    (d.setFile parts content).follow here rest = .ok (.file parts content) := by
  induction rest generalizing here with
  | nil => cases h; cases hplace
  | cons part rest ih =>
    unfold follow at h ⊢
    split at h
    case isTrue hup =>
      rw [if_pos hup]
      exact ih h
    case isFalse hdown =>
    rw [if_neg hdown]
    split at h
    case isTrue => cases h
    case isFalse hshort =>
    rw [if_neg hshort]
    dsimp only at h ⊢
    rw [isDirectory_setFile hreached]
    split at h
    case isTrue hnext =>
      rw [if_pos hnext]
      exact ih h
    case isFalse hnext =>
    rw [if_neg hnext]
    -- Here the path ends, at the place itself.
    have hend : here ++ [part] = parts ∧ rest = [] := by
      split at h <;> cases h <;> cases hplace <;> exact ⟨rfl, rfl⟩
    obtain ⟨rfl, rfl⟩ := hend
    rw [file?_setFile]

/-! ## Paths -/

/-- What a path to a place for a file goes through. -/
theorem follow_of_locate {place : Place} (hplace : place.Writable parts)
    (h : d.locate path = .ok place) :
    checkPath path = .ok () ∧ path.isEmpty = false ∧ Path.endsInPoint path = false ∧
      d.follow (d.start path) (Path.parts path) = .ok place := by
  unfold locate at h
  obtain ⟨⟨⟩, hcheck, h⟩ := bind_eq_ok.1 h
  split at h
  case isTrue => cases h
  case isFalse hsome =>
  obtain ⟨found, hfollow, h⟩ := bind_eq_ok.1 h
  split at h
  case isTrue =>
    -- A path that ends in a point leads to directories only.
    cases found <;> cases h
    cases hplace
  case isFalse hname =>
    cases h
    exact ⟨hcheck, by simpa using hsome, by simpa using hname, hfollow⟩

theorem locate_setFile {place : Place} (hplace : place.Writable parts)
    (h : d.locate path = .ok place) :
    (d.setFile parts content).locate path = .ok (.file parts content) := by
  obtain ⟨hcheck, hsome, hname, hfollow⟩ := follow_of_locate hplace h
  have hreached : d.Reached parts := reached_of_follow hplace (isDirectory_start path) hfollow
  have hagain : (d.setFile parts content).follow ((d.setFile parts content).start path)
      (Path.parts path) = .ok (.file parts content) := follow_setFile hplace hreached hfollow
  unfold locate
  rw [hcheck, hsome, hname, hagain]
  rfl

theorem follow_output (printed : String) (rest : List String) :
    follow { d with output := printed } here rest = d.follow here rest := by
  induction rest generalizing here with
  | nil => rfl
  | cons part rest ih =>
    unfold follow
    rw [ih]
    dsimp only
    rw [ih]
    rfl

/-- Where a path leads to has nothing to do with what has been printed. -/
theorem locate_output (printed path : String) :
    locate { d with output := printed } path = d.locate path := by
  unfold locate
  rw [follow_output]
  rfl

/-! ## Writing -/

/-- A path leads to a file with a text, and the file can be written again. -/
structure Written (d : Disk) (path text : String) : Prop where
  located : ∃ parts, d.locate path = .ok (.file parts text.toUTF8)
  named : Path.endsInNameAndSlash path = false

/-- A text that has been written is in the file. -/
theorem written_of_writeText (h : d.writeText path text = .ok d') :
    d'.Written path text ∧ d'.output = d.output := by
  unfold writeText at h
  obtain ⟨-, -, h⟩ := bind_eq_ok.1 h
  split at h
  case isTrue =>
    obtain ⟨outer, -, h⟩ := bind_eq_ok.1 h
    obtain ⟨-, -, h⟩ := bind_eq_ok.1 h
    cases h
  case isFalse hname =>
    obtain ⟨place, hplace, h⟩ := bind_eq_ok.1 h
    cases place with
    | directory parts => cases h
    | file parts content =>
      cases h
      exact ⟨⟨⟨parts, locate_setFile (.file content) hplace⟩, by simpa using hname⟩, rfl⟩
    | free parts =>
      cases h
      exact ⟨⟨⟨parts, locate_setFile .free hplace⟩, by simpa using hname⟩, rfl⟩

/-- What has been written once can be written again. -/
theorem Written.writeText (h : d.Written path text) (text' : String) :
    ∃ d', d.writeText path text' = .ok d' := by
  obtain ⟨parts, hlocated⟩ := h.located
  obtain ⟨hcheck, -⟩ := follow_of_locate (.file text.toUTF8) hlocated
  refine ⟨d.setFile parts text'.toUTF8, ?_⟩
  unfold Disk.writeText
  rw [hcheck, h.named, hlocated]
  rfl

/-! ## Directories that are made -/

theorem output_makeFrom {made : Bool} {rest : List String}
    (h : d.makeFrom here made rest = .ok d') : d'.output = d.output := by
  induction rest generalizing d here made with
  | nil => cases h; rfl
  | cons part rest ih =>
    unfold makeFrom at h
    split at h
    case isTrue => exact ih h
    split at h
    case isTrue => cases h
    dsimp only at h
    split at h
    case isTrue => exact ih h
    split at h
    case isTrue => cases h
    case isFalse => exact (ih h).trans rfl

theorem output_makeDirectories (h : d.makeDirectories path = .ok d') : d'.output = d.output := by
  unfold makeDirectories at h
  obtain ⟨-, -, h⟩ := bind_eq_ok.1 h
  exact output_makeFrom h

end Annals.Cli.Disk
