import TapeReduction.Source.Reading

/-!
# Tables in folders

A folder tree holds the texts of tables.  A table is loaded from a file, or all
two-tape tables of a folder at once, which are the files with a certain
extension.  A file that cannot be loaded does not keep the others from being
loaded.
-/

namespace TapeReduction

/-- A file or a folder. -/
inductive Node where
  | file (bytes : ByteArray)
  | folder (entries : List (String × Node))

namespace Node

/-- The entry of a folder with a name. -/
def lookup (name : String) (entries : List (String × Node)) : Option Node :=
  (entries.find? fun e => e.1 == name).map Prod.snd

/-- The entries of a folder with one of them put in its place or added. -/
def put (name : String) (node : Node) (entries : List (String × Node)) :
    List (String × Node) :=
  if (lookup name entries).isSome then
    entries.map fun e => if e.1 == name then (name, node) else e
  else
    entries ++ [(name, node)]

/-- A node with a file or an empty folder put below it, and the folders on the way.  An
empty folder takes the place of nothing that is there already. -/
def insert (leaf : Node) : List String → Node → Node
  | [], old =>
    match leaf with
    | .folder [] => old
    | _ => leaf
  | name :: rest, .folder entries =>
    .folder (put name (insert leaf rest ((lookup name entries).getD (.folder []))) entries)
  | _ :: _, .file bytes => .file bytes

/-- The longest name of an entry, in bytes. -/
def maxNameBytes : Nat :=
  255

/-- The node at the end of a path of names from a node; `above` are the folders around it,
the nearest first.  From the outermost folder the way up leads nowhere else. -/
def walk (above : List Node) (here : Node) : List String → Except Obstacle Node
  | [] => .ok here
  | name :: rest =>
    match here with
    | .file _ => .error .notFolder
    | .folder entries =>
      if name = "" || name = "." then walk above here rest
      else if name = ".." then
        match above with
        | [] => walk [] here rest
        | outer :: more => walk more outer rest
      else if maxNameBytes < name.utf8ByteSize then .error .tooLong
      else
        match lookup name entries with
        | some node => walk (here :: above) node rest
        | none => .error .missing

end Node

/-- A place on a disk, by the names that lead straight to it from the tree or from the
folder around the tree. -/
inductive Place where
  | inside (names : List String)
  | around (names : List String)

namespace Place

/-- The place that a name in a path leads to from a place.  There is no way back by name
from the folder around the tree, since the name of the tree is not known there. -/
def enter (place : Place) (name : String) : Place :=
  if name = "" || name = "." then place
  else if name = ".." then
    match place with
    | .inside [] => .around []
    | .inside names => .inside names.dropLast
    | .around names => .around names.dropLast
  else
    match place with
    | .inside names => .inside (names ++ [name])
    | .around names => .around (names ++ [name])

end Place

/-- A folder tree and the path it is at, with what is known of the folder around it. -/
structure Disk where
  base : String
  root : Node := .folder []
  around : Node := .folder []

namespace Disk

/-- A path in the tree with the path of the tree before it. -/
def fullPath (d : Disk) (path : String) : String :=
  if path.isEmpty then d.base else d.base ++ "/" ++ path

/-- A disk with a file or an empty folder put at a place. -/
def put (d : Disk) (leaf : Node) : Place → Disk
  | .inside names => { d with root := Node.insert leaf names d.root }
  | .around names => { d with around := Node.insert leaf names d.around }

/-- A disk with a file or an empty folder put at the end of a path of names from a place,
and with the folders that the path leads through. -/
def putAlong (d : Disk) (leaf : Node) (place : Place) : List String → Disk
  | [] => d.put leaf place
  | name :: rest => (d.put (.folder []) place).putAlong leaf (place.enter name) rest

/-- A disk with a file or an empty folder put at a path. -/
def insert (d : Disk) (path : String) (leaf : Node) : Disk :=
  d.putAlong leaf (.inside []) (path.splitOn "/")

/-- The length from which a path is too long, in bytes. -/
def pathLimit : Nat :=
  4096

/-- The node at a path. -/
def find (d : Disk) (path : String) : Except Obstacle Node :=
  if path.contains (Char.ofNat 0) then .error .nullChar
  else if pathLimit ≤ (d.fullPath path).utf8ByteSize then .error .tooLong
  else d.root.walk [d.around] (path.splitOn "/")

/-- The text of the file at a path. -/
def readText (d : Disk) (path : String) : Except Fault String :=
  let unread (obstacle : Obstacle) := .error (.fileUnread (d.fullPath path) obstacle)
  match d.find path with
  | .error obstacle => unread obstacle
  | .ok (.folder _) => unread .isFolder
  | .ok (.file bytes) =>
    match String.fromUTF8? bytes with
    | some text => .ok text
    | none => unread .notText

/-- The table in the file at a path. -/
def load {κ δ : Type} [DecidableEq κ] [Alphabet κ] [Glyphs κ]
    [Source.Legible κ] [Source.Legible δ] (d : Disk) (path : String) :
    Except Fault (Table κ δ) := do
  Table.parse (← d.readText path)

/-- The extension of the files that hold two-tape tables. -/
def twoTapeExtension : String :=
  "tm2"

/-- What follows the last dot of a name that does not start with it. -/
def extension? (name : String) : Option String :=
  match (name.splitOn ".").reverse with
  | last :: before :: more =>
    if more.isEmpty && before.isEmpty then none else some last
  | _ => none

/-- A path of a folder with a name behind it. -/
def join (path name : String) : String :=
  if path.isEmpty || path.endsWith "/" then path ++ name else path ++ "/" ++ name

/-- Whether a file can be reached at a path. -/
def isFile (d : Disk) (path : String) : Bool :=
  match d.find path with
  | .ok (.file _) => true
  | _ => false

/-- The paths of the files that hold two-tape tables in the folder at a path, in ascending
order of their names.  A file whose path is too long is not among them. -/
def tablePaths (d : Disk) (path : String) (entries : List (String × Node)) : List String :=
  let names := (entries.map Prod.fst).filter fun name =>
    extension? name = some twoTapeExtension
  ((names.mergeSort fun a b => !decide (b < a)).map (join path)).filter d.isFile

/-- The two-tape table in the file at a path, with the full path. -/
def loadNamed (d : Disk) (path : String) : Except Fault (String × TwoTapeTable) :=
  match d.load path with
  | .ok table => .ok (d.fullPath path, table)
  | .error cause => .error (.tableUnloaded (d.fullPath path) cause)

/-- All two-tape tables in the folder at a path, in ascending order of their names. -/
def loadFolder (d : Disk) (path : String) : List (Except Fault (String × TwoTapeTable)) :=
  match d.find path with
  | .error obstacle => [.error (.folderUnread (d.fullPath path) obstacle)]
  | .ok (.file _) => [.error (.folderUnread (d.fullPath path) .notFolder)]
  | .ok (.folder entries) => (d.tablePaths path entries).map d.loadNamed

end Disk

end TapeReduction
