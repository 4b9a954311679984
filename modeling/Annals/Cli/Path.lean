/-!
# Paths of files

A path is a list of parts with slashes between them; parts that are empty or a single point do not
count, but a slash at the end demands a directory.
-/

namespace Annals.Cli.Path

/-- The parts of a path, including those that do not count. -/
def split (path : List Char) : List (List Char) :=
  match path with
  | [] => [[]]
  | c :: rest =>
    if c = '/' then [] :: split rest
    else
      match split rest with
      | part :: parts => (c :: part) :: parts
      | [] => [[c]]

/-- The parts of a path as texts, including those that do not count. -/
def allParts (path : String) : List String := (split path.toList).map String.ofList

/-- Whether a part counts. -/
def counts (part : String) : Bool := part ≠ "" && part ≠ "."

/-- The parts that count. -/
def parts (path : String) : List String := (allParts path).filter counts

/-- Whether a path begins at the root of the file system. -/
def isAbsolute (path : String) : Bool := path.toList.head? = some '/'

/-- Whether a path ends with a slash or with a point as its last part, so that only a directory
fits. -/
def demandsDirectory (path : String) : Bool :=
  match (allParts path).getLast? with
  | some last => !counts last
  | none => false

/-- The last part of a path, slashes at the end aside. -/
def last? (path : String) : Option String := ((allParts path).filter (· ≠ "")).getLast?

/-- Whether the last part of a path is a point, so that the part before it has to be a directory
that is there. -/
def endsInPoint (path : String) : Bool := last? path = some "."

/-- Whether a path ends in a name with a slash behind it. The points that stand for a directory and
for the one around it are no names. -/
def endsInNameAndSlash (path : String) : Bool :=
  (allParts path).getLast? = some "" && (last? path).any fun part => part ≠ "." && part ≠ ".."

/-- The most bytes of a part. -/
def maxPart : Nat := 255

/-- The most bytes of a path. -/
def maxLength : Nat := 4095

/-- Parts without those at the end that do not count. -/
def trimmed (parts : List String) : List String := (parts.reverse.dropWhile (!counts ·)).reverse

/-- The directory that a path lies in, as the path writes it; nothing for a single part and for the
root. -/
def parent? (path : String) : Option String :=
  match trimmed (trimmed (allParts path)).dropLast with
  | [] => none
  | outer => some (String.intercalate "/" outer)

end Annals.Cli.Path
