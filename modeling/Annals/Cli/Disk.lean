import Annals.Cli.Host
import Annals.Cli.Path
/-!
# A model of the file system

A disk holds files and directories, by their parts from the root, and what has been printed. A path
that begins with a slash is followed from the root, any other one from the working directory. Two
points stand for the directory around one, and nothing is around the root. The working directory and
those around it are there.

* `Disk.start`: where a path is followed from.
* `Disk.locate`: what a path leads to, or why it leads nowhere.
* The instance of `Host` for states over a disk.
-/

namespace Annals.Cli

/-- The working directory, the files and the directories, all by their parts from the root, and the
printed text. A directory is there also when a file or a directory lies in it. -/
structure Disk where
  home : List String
  files : List (List String × ByteArray)
  directories : List (List String)
  output : String

namespace Disk

/-- Where a path is followed from. -/
def startOf (home : List String) (path : String) : List String :=
  if Path.isAbsolute path then [] else home

/-- The working directory of a disk that is made for a run. -/
def workplace : List String := ["chronicle"]

/-- A disk with files at the given paths and nothing else. -/
def ofFiles (files : List (String × ByteArray)) : Disk :=
  { home := workplace
    files := files.map fun f => (startOf workplace f.1 ++ Path.parts f.1, f.2)
    directories := [], output := "" }

/-- Where a path is followed from on a disk. -/
def start (d : Disk) (path : String) : List String := startOf d.home path

/-- What a path leads to. -/
inductive Place where
  | file (parts : List String) (content : ByteArray)
  | directory (parts : List String)
  /-- Nothing yet, in a directory that is there. -/
  | free (parts : List String)

/-- The content of a file. -/
def file? (d : Disk) (parts : List String) : Option ByteArray := d.files.lookup parts

/-- Whether there is a directory. -/
def isDirectory (d : Disk) (parts : List String) : Bool :=
  parts.isPrefixOf d.home || d.directories.any (parts.isPrefixOf ·) ||
    d.files.any fun f => parts.isPrefixOf f.1 && parts ≠ f.1

/-- Follows the parts of a path from a directory that is there. -/
def follow (d : Disk) (here : List String) : List String → Except FileFault Place
  | [] => .ok (.directory here)
  | part :: rest =>
    if part = ".." then follow d here.dropLast rest
    else if Path.maxPart < part.utf8ByteSize then .error .nameTooLong
    else
      let next := here ++ [part]
      if d.isDirectory next then follow d next rest
      else
        match d.file? next, rest with
        | some content, [] => .ok (.file next content)
        | some _, _ :: _ => .error .notDirectory
        | none, [] => .ok (.free next)
        | none, _ :: _ => .error .notFound

/-- What is left of a place when its path ends in a point: a directory only. -/
def Place.inside : Place → Except FileFault Place
  | .file .. => .error .notDirectory
  | .free _ => .error .notFound
  | .directory parts => .ok (.directory parts)

/-- Refuses a path that is not looked up at all. -/
def checkPath (path : String) : Except FileFault Unit :=
  if path.toList.contains '\x00' then .error .badName
  else if Path.maxLength < path.utf8ByteSize then .error .nameTooLong
  else .ok ()

/-- What a path leads to. -/
def locate (d : Disk) (path : String) : Except FileFault Place := do
  checkPath path
  if path.isEmpty then throw .notFound
  else
    let place ← d.follow (d.start path) (Path.parts path)
    if Path.endsInPoint path then place.inside else return place

/-- The text of a file. -/
def readText (d : Disk) (path : String) : Except FileFault String :=
  match d.locate path with
  | .error fault => .error fault
  | .ok (.free _) => .error .notFound
  | .ok (.directory _) => .error .isDirectory
  | .ok (.file _ content) =>
    if Path.demandsDirectory path then .error .notDirectory
    else
      match String.fromUTF8? content with
      | some text => .ok text
      | none => .error .notText

/-- Whether there is anything at a path. -/
def isPresent (d : Disk) (path : String) : Bool :=
  match d.locate path with
  | .ok (.file ..) => !Path.demandsDirectory path
  | .ok (.directory _) => true
  | _ => false

/-- Puts a directory on the disk. The directories around it are there with it and need no entries
of their own. -/
def addDirectory (d : Disk) (parts : List String) : Disk :=
  { d with directories := parts :: d.directories.filter fun other => !other.isPrefixOf parts }

/-- Follows the parts of a path from a directory that is there and makes those that are missing. A
file in the way is no directory to follow; once a directory had to be made, each part is made on its
own and the file is there already. -/
def makeFrom (d : Disk) (here : List String) (made : Bool) : List String → Except FileFault Disk
  | [] => .ok d
  | part :: rest =>
    if part = ".." then makeFrom d here.dropLast made rest
    else if Path.maxPart < part.utf8ByteSize then .error .nameTooLong
    else
      let next := here ++ [part]
      if d.isDirectory next then makeFrom d next made rest
      else if (d.file? next).isSome then
        .error (if made || rest.isEmpty then .alreadyExists else .notDirectory)
      else makeFrom (d.addDirectory next) next true rest

/-- Makes a directory and those around it, as far as they are missing. -/
def makeDirectories (d : Disk) (path : String) : Except FileFault Disk := do
  checkPath path
  d.makeFrom (d.start path) false (Path.parts path)

/-- Replaces the content of a file. -/
def setFile (d : Disk) (parts : List String) (content : ByteArray) : Disk :=
  { d with files := (parts, content) :: d.files.filter fun f => f.1 ≠ parts }

/-- Writes a text to a file. No file can have a slash behind its name; then the name is not looked
up, only the directory around it. -/
def writeText (d : Disk) (path text : String) : Except FileFault Disk := do
  checkPath path
  if Path.endsInNameAndSlash path then
    let place ← d.locate ((Path.parent? path).getD ".")
    let _ ← place.inside
    throw .isDirectory
  else
    match ← d.locate path with
    | .directory _ => throw .isDirectory
    | .file parts _ | .free parts => return d.setFile parts text.toUTF8

/-- Makes a change, or leaves the disk as it is. -/
def attempt (change : Disk → Except FileFault Disk) : StateM Disk (Except FileFault Unit) :=
  fun d =>
    match change d with
    | .ok d => (.ok (), d)
    | .error fault => (.error fault, d)

instance : Host (StateM Disk) where
  readText path := fun d => (d.readText path, d)
  isPresent path := fun d => (d.isPresent path, d)
  makeDirectories path := attempt fun d => d.makeDirectories path
  writeText path text := attempt fun d => d.writeText path text
  print text := fun d => ((), { d with output := d.output ++ text })

end Disk

end Annals.Cli
