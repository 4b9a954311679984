import Annals.Toml.Number
import Annals.Toml.Text
/-!
# TOML documents

A document becomes one JSON value: tables are objects, arrays of tables are arrays, dates are
objects with their text.

Tables are defined once. A table that only stands between others is implicit and may still get its
header; one that a dotted key has made can be extended by dotted keys of the same header only; a
table in braces is closed.

* `Node.descend`: the way to a table through the tables around it.
* `parse?`: a whole document.
-/

namespace Annals.Toml

/-! ## Tables under construction -/

/-- A part of a document. -/
inductive Node where
  | value (value : Json)
  /-- A table; `implicit` without a header of its own, `dotted` when a dotted key has made it. -/
  | table (implicit dotted : Bool) (entries : List (String × Node))
  | tables (items : List (List (String × Node)))
deriving Inhabited

/-- The entries of a table. -/
abbrev Entries := List (String × Node)

/-- Replaces the entry of a key, or adds it. -/
def Entries.put (key : String) (node : Node) : Entries → Entries
  | [] => [(key, node)]
  | (k, old) :: rest => if k = key then (k, node) :: rest else (k, old) :: Entries.put key node rest

mutual

/-- The value of a node. -/
def Node.toJson : Node → Json
  | .value j => j
  | .table _ _ entries => .obj (membersToJson entries)
  | .tables items => .arr (tablesToJson items)

/-- The values of the entries of a table. -/
def membersToJson : List (String × Node) → List (String × Json)
  | [] => []
  | (key, node) :: rest => (key, node.toJson) :: membersToJson rest

/-- The values of an array of tables. -/
def tablesToJson : List (List (String × Node)) → List Json
  | [] => []
  | entries :: rest => .obj (membersToJson entries) :: tablesToJson rest

end

variable {β : Type}

/-- Changes the table at the end of a path, making the tables on the way that are missing. An array
of tables stands for its last table. A dotted path does not enter a table that has a header. -/
def descend (dotted : Bool) (change : Bool → Entries → Option (Entries × β)) :
    List String → Bool → Entries → Option (Entries × β)
  | [], isDotted, entries => change isDotted entries
  | key :: path, _, entries =>
    match entries.lookup key with
    | none => do
      let (inner, result) ← descend dotted change path dotted []
      return (entries ++ [(key, .table true dotted inner)], result)
    | some (.value _) => none
    | some (.tables items) =>
      match items.reverse with
      | [] => none
      | last :: before => do
        let (inner, result) ← descend dotted change path false last
        return (Entries.put key (.tables (before.reverse ++ [inner])) entries, result)
    | some (.table implicit isDotted inner) =>
      if dotted && !implicit then none
      else do
        let (inner, result) ← descend dotted change path isDotted inner
        return (Entries.put key (.table implicit isDotted inner) entries, result)

/-- Sets a key of a table. The path in front of it leads through dotted tables only, and a key is
set once. -/
def setKey (key : List String) (value : Json) (entries : Entries) : Option Entries := do
  let last ← key.getLast?
  let path := key.dropLast
  let (entries, _) ← descend true (fun isDotted (entries : Entries) =>
    if isDotted == path.isEmpty || (entries.lookup last).isSome then none
    else some (entries ++ [(last, .value value)], ())) path false entries
  return entries

/-! ## Values -/

/-- Items of an array after the opening bracket; a comma may follow the last item. -/
def arrayRest (value? : List Char → Option (Json × List Char)) :
    Nat → List Char → Option (List Json × List Char)
  | 0, _ => none
  | fuel + 1, cs =>
    match skipLines (cs.length + 1) cs with
    | ']' :: rest => some ([], rest)
    | cs => do
      let (item, rest) ← value? cs
      match skipLines (rest.length + 1) rest with
      | ',' :: rest =>
        let (items, rest) ← arrayRest value? fuel rest
        return (item :: items, rest)
      | ']' :: rest => return ([item], rest)
      | _ => none

/-- A key and its value, with blanks around them. -/
def keyValue? (value? : List Char → Option (Json × List Char)) (cs : List Char) :
    Option ((List String × Json) × List Char) := do
  let (key, rest) ← key? cs
  match skipBlanks rest with
  | '=' :: rest =>
    let (value, rest) ← value? (skipBlanks rest)
    return ((key, value), rest)
  | _ => none

/-- Entries of a table in braces, with at least one to come. -/
def bracedRest (value? : List Char → Option (Json × List Char)) :
    Nat → Entries → List Char → Option (Entries × List Char)
  | 0, _, _ => none
  | fuel + 1, entries, cs => do
    let ((key, value), rest) ← keyValue? value? cs
    let entries ← setKey key value entries
    match skipBlanks rest with
    | ',' :: rest => bracedRest value? fuel entries rest
    | '}' :: rest => return (entries, rest)
    | _ => none

/-- The value at the front of a text, read while the depth lasts. -/
def value? : Nat → List Char → Option (Json × List Char)
  | 0, '[' :: _ => none
  | 0, '{' :: _ => none
  | depth + 1, '[' :: rest =>
    (arrayRest (value? depth) (rest.length + 1) rest).map fun (items, rest) => (.arr items, rest)
  | depth + 1, '{' :: rest =>
    match skipBlanks rest with
    | '}' :: rest => some (.obj [], rest)
    | rest => (bracedRest (value? depth) (rest.length + 1) [] rest).map fun (entries, rest) =>
        (.obj (membersToJson entries), rest)
  | _, '"' :: rest => (string? ('"' :: rest)).map fun (s, rest) => (.str s, rest)
  | _, '\'' :: rest => (string? ('\'' :: rest)).map fun (s, rest) => (.str s, rest)
  | _, 't' :: rest => (Json.afterWord? "rue".toList rest).map fun rest => (.bool true, rest)
  | _, 'f' :: rest => (Json.afterWord? "alse".toList rest).map fun rest => (.bool false, rest)
  | _, cs => number? cs

/-! ## Documents -/

/-- A document under construction: the tables so far, and the one whose header was read last. -/
structure Draft where
  root : Entries
  current : Entries
  path : List String
  isArray : Bool

namespace Draft

/-- Puts the current table into its place. -/
def close (d : Draft) : Option Entries :=
  match d.path.getLast? with
  | none => some d.current
  | some last => do
    let (root, _) ← descend false (fun _ (entries : Entries) =>
      if d.isArray then
        match entries.lookup last with
        | some (.tables items) =>
          some (Entries.put last (.tables (items ++ [d.current])) entries, ())
        | _ => none
      else some (entries ++ [(last, .table false false d.current)], ()))
      d.path.dropLast false d.root
    return root

/-- Begins a table. Only an implicit table that no dotted key has made may be there already. -/
def openTable (d : Draft) (path : List String) : Option Draft := do
  let root ← d.close
  let last ← path.getLast?
  let (root, current) ← descend false (fun _ (entries : Entries) =>
    match entries.lookup last with
    | none => some (entries, ([] : Entries))
    | some (.table true false inner) => some (entries.filter (·.1 ≠ last), inner)
    | some _ => none) path.dropLast false root
  return { root, current, path, isArray := false }

/-- Begins the next table of an array of tables. -/
def openArray (d : Draft) (path : List String) : Option Draft := do
  let root ← d.close
  let last ← path.getLast?
  let (root, _) ← descend false (fun _ (entries : Entries) =>
    match entries.lookup last with
    | none => some (entries ++ [(last, .tables [])], ())
    | some (.tables _) => some (entries, ())
    | some _ => none) path.dropLast false root
  return { root, current := [], path, isArray := true }

/-- The header of a table or of an array of tables, after its first bracket. -/
def header? (d : Draft) (cs : List Char) : Option (Draft × List Char) :=
  match cs with
  | '[' :: rest => do
    let (path, rest) ← key? rest
    match skipBlanks rest with
    | ']' :: ']' :: rest => return (← d.openArray path, ← lineEnd? rest)
    | _ => none
  | _ => do
    let (path, rest) ← key? cs
    match skipBlanks rest with
    | ']' :: rest => return (← d.openTable path, ← lineEnd? rest)
    | _ => none

/-- Reads lines to the end of the text. The bound is met by its length. -/
def lines : Nat → Draft → List Char → Option Draft
  | 0, _, _ => none
  | fuel + 1, d, cs =>
    match skipBlanks cs with
    | [] => some d
    | '#' :: rest => do lines fuel d (← lineEnd? ('#' :: rest))
    | '\n' :: rest => lines fuel d rest
    | '\r' :: '\n' :: rest => lines fuel d rest
    | '[' :: rest => do
      let (d, rest) ← d.header? rest
      lines fuel d rest
    | cs => do
      let ((key, value), rest) ← keyValue? (value? (depthLimit - 1)) cs
      let current ← setKey key value d.current
      lines fuel { d with current } (← lineEnd? rest)

end Draft

/-- Reads a document. A byte order mark at its front does not count. -/
def parse? (text : String) : Option Json := do
  let cs := match text.toList with
    | '\uFEFF' :: rest => rest
    | cs => cs
  let start : Draft := { root := [], current := [], path := [], isArray := false }
  let d ← Draft.lines (cs.length + 1) start cs
  let entries ← d.close
  return .obj (membersToJson entries)

end Annals.Toml
