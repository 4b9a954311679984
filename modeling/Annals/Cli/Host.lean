/-!
# What the program needs of its surroundings

The program reads and writes files and prints. It is written against a class of monads, so that
the same definition runs on the real file system and on a model of one.
-/

namespace Annals.Cli

/-- Why a file cannot be used. -/
inductive FileFault where
  | notFound
  | alreadyExists
  | notDirectory
  | isDirectory
  /-- A part of the path, or all of it, has too many bytes. -/
  | nameTooLong
  /-- The path has a character that ends it for the system. -/
  | badName
  /-- The bytes of the file are not UTF-8. -/
  | notText
  /-- Anything else, in the words of the system. -/
  | other (message : String)
deriving DecidableEq, Repr

/-- The wording of the system, with its error numbers. -/
def FileFault.message : FileFault → String
  | .notFound => "No such file or directory (os error 2)"
  | .alreadyExists => "File exists (os error 17)"
  | .notDirectory => "Not a directory (os error 20)"
  | .isDirectory => "Is a directory (os error 21)"
  | .nameTooLong => "File name too long (os error 36)"
  | .badName => "file name contained an unexpected NUL byte"
  | .notText => "stream did not contain valid UTF-8"
  | .other message => message

/-- A place to run the program. -/
class Host (m : Type → Type) where
  /-- The text of a file. -/
  readText (path : String) : m (Except FileFault String)
  /-- Whether there is anything at a path. -/
  isPresent (path : String) : m Bool
  /-- Makes a directory and those around it, as far as they are missing. -/
  makeDirectories (path : String) : m (Except FileFault Unit)
  /-- Replaces the content of a file, which is made when it is missing. -/
  writeText (path text : String) : m (Except FileFault Unit)
  /-- Prints a text. -/
  print (text : String) : m Unit

end Annals.Cli
