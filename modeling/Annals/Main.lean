import Annals.Cli.Program
/-!
# The command

The program on the real file system.
-/

namespace Annals.Cli

/-- The fault behind an error of the system. -/
def FileFault.ofError (e : IO.Error) : FileFault :=
  let numbered (code : UInt32) (details : String) : FileFault :=
    if code = 20 then .notDirectory
    else if code = 21 then .isDirectory
    else .other (details ++ " (os error " ++ Text.ofNat code.toNat ++ ")")
  match e with
  | .noFileOrDirectory .. => .notFound
  | .alreadyExists .. => .alreadyExists
  | .inappropriateType _ code details => numbered code details
  | .permissionDenied _ code details => numbered code details
  | .invalidArgument _ code details => numbered code details
  | .resourceExhausted _ code details => numbered code details
  | .otherError code details => numbered code details
  | e => .other (toString e)

/-- The result of an action on files, or its fault. -/
def guarded {α : Type} (action : IO α) : IO (Except FileFault α) := do
  match ← action.toBaseIO with
  | .ok value => return .ok value
  | .error e => return .error (.ofError e)

/-- Makes the directory of a path, if it is not there. A path that is there is a directory when the
point inside it is there as well. -/
def makeDirectory (path : String) : IO (Except FileFault Unit) := do
  match ← guarded (IO.FS.createDir path) with
  | .error .alreadyExists =>
    match ← guarded (IO.FS.createDir (path ++ "/.")) with
    | .error .notDirectory => return .error .alreadyExists
    | _ => return .ok ()
  | result => return result

/-- Makes a directory below a root, given by its parts from the last to the first. When the one
around it is missing, that one is made first. -/
def makeAllBelow (root : String) : List String → IO (Except FileFault Unit)
  | [] => return .ok ()
  | part :: before => do
    let path := root ++ String.intercalate "/" (part :: before).reverse
    match ← makeDirectory path with
    | .error .notFound =>
      match ← makeAllBelow root before with
      | .ok () => makeDirectory path
      | .error fault => return .error fault
    | result => return result

instance : Host IO where
  readText path := do
    match ← guarded (IO.FS.readBinFile path) with
    | .error fault => return .error fault
    | .ok bytes =>
      match String.fromUTF8? bytes with
      | some text => return .ok text
      | none => return .error .notText
  isPresent path := do
    match ← guarded (IO.FS.Handle.mk path .read) with
    | .ok _ => return true
    | .error _ => return false
  makeDirectories path := do
    match ← makeDirectory path with
    | .error .notFound =>
      makeAllBelow (if Path.isAbsolute path then "/" else "") (Path.parts path).reverse
    | result => return result
  writeText path text := guarded (IO.FS.writeFile path text)
  print text := IO.print text

end Annals.Cli

/-- Runs the program and reports a fault on the error output. -/
def main (args : List String) : IO UInt32 := do
  let status ← (Annals.Cli.runProgram args : IO Annals.Cli.ExitStatus)
  match status.message? with
  | some message => IO.eprintln message
  | none => pure ()
  return status.code
