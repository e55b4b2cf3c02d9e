-- Making, linking and removing files and folders of a tree, and the tree that a session
-- starts with.
import Spacing.Tree

namespace Spacing

namespace Tree

/-! ## Places -/

/-- A fault for a node that cannot be edited this way, unless its folder cannot be changed
at all. -/
def refuse (t : Tree) (folder : NodeId) (f : Fault) : Except Fault Tree :=
  match t.editFolder folder (fun entries => entries) with
  | .error g => .error g
  | .ok _ => .error f

/-- Where a new name goes. A name that is taken is refused, also that of a link. Only a
folder's name may have a slash after it. -/
def vacancy (t : Tree) (path : Bytes) (forFolder : Bool) : Except Fault Place :=
  match t.locate .name path with
  | .error f => .error f
  | .ok place =>
    if place.node?.isSome then .error .occupied
    else if place.slash && !forFolder then .error .notFound
    else .ok place

/-! ## Edits -/

/-- The nodes before the working folder are the system's, and keep their modes. -/
def setMode (t : Tree) (id : NodeId) (mode : Nat) : Except Fault Tree :=
  if id < t.here then
    .error .notPermitted
  else
    match t.node? id with
    | some (.file _ data) => .ok (t.setNode id (.file mode data))
    | some (.folder _ parent entries) => .ok (t.setNode id (.folder mode parent entries))
    | _ => .error .notPermitted

/-- Sets the mode of the file or folder that a path leads to. -/
def chmod (t : Tree) (path : Bytes) (mode : Nat) : Except Fault Tree :=
  match t.resolve path with
  | .error f => .error f
  | .ok id => t.setMode id (mode % 0o10000)

/-- Creates a file or replaces its bytes. Its mode is then 644. -/
def put (t : Tree) (path : Bytes) (data : ByteArray) : Except Fault Tree :=
  match t.overwrite path data with
  | .error w => .error w.fault
  | .ok u => u.chmod path 0o644

def makeFolder (t : Tree) (path : Bytes) : Except Fault Tree :=
  match t.vacancy path true with
  | .error f => .error f
  | .ok place => t.create place (.folder 0o755 place.folder [])

/-- What is wrong with two paths before the second one is followed. A zero byte in either
comes first. -/
def pairFault? (first second : Bytes) : Option Fault :=
  if second.contains 0 then some .zeroByte else Path.fault? first

def makeLink (t : Tree) (target path : Bytes) : Except Fault Tree :=
  match pairFault? target path with
  | some f => .error f
  | none =>
    match t.vacancy path false with
    | .error f => .error f
    | .ok place => t.create place (.link target)

/-- Gives a node one more name at a place. A folder has only one, and a file of the system
is not reached from other folders. -/
def addName (t : Tree) (place : Place) (id : NodeId) : Except Fault Tree :=
  match t.node? id with
  | some .null | some (.system _) => .error .otherDevice
  | some (.folder _ _ _) => t.refuse place.folder .notPermitted
  | _ => t.editFolder place.folder (insertEntry place.name id)

/-- Gives a file one more name. A link is not followed: the new name is then one of the
link itself. -/
def makeName (t : Tree) (target path : Bytes) : Except Fault Tree :=
  match pairFault? target path with
  | some f => .error f
  | none =>
    match t.locate .node target with
    | .error f => .error f
    | .ok source =>
      match source.node? with
      | none => .error .notFound
      | some id =>
        match t.vacancy path false with
        | .error f => .error f
        | .ok place => t.addName place id

/-- Takes a name away. A link is not followed, and a folder is not removed. -/
def remove (t : Tree) (path : Bytes) : Except Fault Tree :=
  match t.locate .name path with
  | .error f => .error f
  | .ok place =>
    match place.node?.bind t.node? with
    | none => .error .notFound
    | some (.folder _ _ _) =>
      if place.slash || !Path.isEntry place.name then .error .isFolder
      else t.refuse place.folder .isFolder
    | some _ =>
      if place.slash then .error .notFolder
      else t.editFolder place.folder (·.filter (·.1 != place.name))

/-! ## The start -/

/-- System folders of which nothing but the names is known. -/
def systemFolders : List String := ["bin", "etc", "home", "lib", "sys", "tmp", "usr", "var"]

/-- An empty working folder, beside the system's folders with the null device and the text
that names the system's version. -/
def start : Tree :=
  let others := systemFolders.map Bytes.ofString
  let names := (Bytes.ofString "dev", 1) :: (Bytes.ofString "proc", 2) :: others.zipIdx 5
  { here := 5 + others.length
    nodes :=
      [.folder 0o555 root (names.foldl (fun entries e => insertEntry e.1 e.2 entries) []),
        .folder 0o555 root [(Bytes.ofString "null", 3)],
        .folder 0o555 root [(Bytes.ofString "version", 4)],
        .null,
        .system "Linux version\n".toUTF8] ++
      others.map (fun _ => .folder 0o555 root []) ++ [.folder 0o755 root []] }

end Tree

end Spacing
