-- A tree of files: folders, files that can have several names, and symbolic links. This
-- module holds how a path is followed, and how the file that it leads to is read and
-- written anew, on a storage that may fail in the middle of a write. All files and folders
-- belong to the user of the program, except for the system's own.
import Spacing.Bytes
import Spacing.Fault

namespace Spacing

/-! ## Nodes -/

/-- A node is known by its place in the list of nodes, and two names of one file lead to the
same node. -/
abbrev NodeId := Nat

inductive Node
  | file (mode : Nat) (data : ByteArray)
  /-- The entries are in the order of their names. -/
  | folder (mode : Nat) (parent : NodeId) (entries : List (Bytes × NodeId))
  | link (target : Bytes)
  /-- The null device reads as empty, and what is written to it is gone. -/
  | null
  /-- A file of the system: everyone may read it and no one may write it. -/
  | system (data : ByteArray)

/-- The mode holds a right. -/
def holdsRight (right mode : Nat) : Bool := mode &&& right != 0

/-- The owner's right to read, in the mode of a file or folder. -/
def mayRead (mode : Nat) : Bool := holdsRight 0o400 mode

/-- The owner's right to write. -/
def mayWrite (mode : Nat) : Bool := holdsRight 0o200 mode

/-- The owner's right to look names up in a folder. -/
def maySearch (mode : Nat) : Bool := holdsRight 0o100 mode

/-- The mode of a file after a write. The right to run as the file's owner is lost, and so
is the right to run as its group if the group may run it. -/
def modeAfterWrite (mode : Nat) : Nat :=
  if mode &&& 0o2010 == 0o2010 then mode &&& 0o1777 else mode &&& 0o3777

/-- The rights to read, write and search stay. -/
theorem holdsRight_modeAfterWrite {right : Nat} (h : right < 0o1000) (mode : Nat) :
    holdsRight right (modeAfterWrite mode) = holdsRight right mode := by
  have hkept : ∀ n, 9 ≤ n → (2 ^ n - 1) &&& right = right := by
    intro n hn
    have hpow : 2 ^ 9 ≤ 2 ^ n := Nat.pow_le_pow_right Nat.two_pos hn
    rw [Nat.and_comm, Nat.and_two_pow_sub_one_eq_mod, Nat.mod_eq_of_lt (Nat.lt_of_lt_of_le h hpow)]
  have hboth : 0o1777 &&& right = right := hkept 10 (by decide)
  have howner : 0o3777 &&& right = right := hkept 11 (by decide)
  unfold holdsRight modeAfterWrite
  split
  · rw [Nat.and_assoc, hboth]
  · rw [Nat.and_assoc, howner]

/-- What keeps a storage from taking all bytes of a file: it takes a number of them, and then
fails. -/
structure Shortage where
  bytes : Nat
  fault : Fault
deriving Repr, DecidableEq

structure Tree where
  nodes : List Node
  /-- The folder that relative paths start from. -/
  here : NodeId
  /-- What the storage lacks for a file, if it does not take all that is written to it. -/
  shortage? : NodeId → Option Shortage := fun _ => none

/-! ## Paths -/

namespace Path

def slash : UInt8 := 0x2F

/-- The name of a folder in itself. -/
def self : Bytes := [0x2E]

/-- The name of a folder's parent in it. -/
def up : Bytes := [0x2E, 0x2E]

/-- The name is one of an entry, and not of the folder itself or its parent. -/
def isEntry (name : Bytes) : Bool := !name.isEmpty && name != self && name != up

/-- The longest name that a folder can hold. -/
def maxName : Nat := 255

/-- The length at which a path is refused as a whole. -/
def maxPath : Nat := 4096

/-- The names on a path. A slash at the end adds an empty name, which asks that the node
before it is a folder, and for no right there. -/
def names (path : Bytes) : List Bytes :=
  (path.splitOn slash).filter (!·.isEmpty) ++ if path.getLast? == some slash then [[]] else []

/-- What is wrong with a path before it is followed. -/
def fault? (path : Bytes) : Option Fault :=
  if path.contains 0 then some .zeroByte
  else if path.isEmpty then some .notFound
  else if maxPath ≤ path.length then some .nameTooLong
  else none

end Path

namespace Tree

/-- The root is the first node. -/
def root : NodeId := 0

def node? (t : Tree) (id : NodeId) : Option Node := t.nodes[id]?

def setNode (t : Tree) (id : NodeId) (n : Node) : Tree := { t with nodes := t.nodes.set id n }

/-! ## Following a path -/

/-- What a path is followed for. -/
inductive Aim
  /-- A file or folder that is there. -/
  | open
  /-- A file that may be new. Its path does not end with a slash. -/
  | create
  /-- The node of a name, which may be a link. -/
  | node
  /-- A name, which may be new. A slash after it is not followed. -/
  | name
deriving Repr, DecidableEq

namespace Aim

/-- A link at the end of the path is followed. -/
def followsLast : Aim → Bool
  | .open | .create => true
  | .node | .name => false

end Aim

/-- Where a path leads: the last folder, the name that was looked up there, the node of
that name if there is one, and whether a slash stands after the name. -/
structure Place where
  folder : NodeId
  name : Bytes
  node? : Option NodeId
  slash : Bool := false
deriving Repr, DecidableEq

/-- Looks one name up in a folder. -/
def lookUp (t : Tree) (id : NodeId) (name : Bytes) : Except Fault (Option NodeId) :=
  match t.node? id with
  | some (.folder mode parent entries) =>
    if name.isEmpty then .ok (some id)
    else if !maySearch mode then .error .denied
    else if name == Path.self then .ok (some id)
    else if name == Path.up then .ok (some parent)
    else if Path.maxName < name.length then .error .nameTooLong
    else .ok (entries.lookup name)
  | _ => .error .notFolder

def linkTarget? (t : Tree) (id : NodeId) : Option Bytes :=
  match t.node? id with
  | some (.link target) => some target
  | _ => none

/-- Where a path starts, seen from a folder. -/
def startOf (id : NodeId) (path : Bytes) : NodeId :=
  if path.head? == some Path.slash then root else id

/-- Looks a name up that other names follow. A new file is refused before its name is
looked up if only a slash follows. -/
def lookUpFor (t : Tree) (aim : Aim) (id : NodeId) (name : Bytes) (rest : List Bytes) :
    Except Fault (Option NodeId) :=
  if aim == .create && rest == [[]] then
    match t.lookUp id Path.self with
    | .error f => .error f
    | .ok _ => .error .isFolder
  else
    t.lookUp id name

/-- Nothing on the path is followed after this name. -/
def isLast (aim : Aim) (rest : List Bytes) : Bool :=
  rest.isEmpty || (aim == .name && rest == [[]])

/-- Follows names from a folder, up to the first symbolic link. There the walk is handed on,
with the names of the link's target in front of those still ahead. -/
def walkWith (t : Tree) (aim : Aim) (onLink : NodeId → List Bytes → Except Fault Place) :
    NodeId → List Bytes → Except Fault Place
  | id, [] => .ok { folder := id, name := Path.self, node? := some id }
  | id, name :: rest =>
    match t.lookUpFor aim id name rest with
    | .error f => .error f
    | .ok found? =>
      let place : Place := { folder := id, name, node? := found?, slash := !rest.isEmpty }
      match found?.bind t.linkTarget? with
      | some target =>
        if isLast aim rest && !aim.followsLast then
          .ok place
        else
          onLink (startOf id target) (Path.names target ++ rest)
      | none =>
        if isLast aim rest then
          .ok place
        else
          match found? with
          | none => .error .notFound
          | some next => walkWith t aim onLink next rest

/-- Follows names from a folder, through a number of symbolic links at most. -/
def walk (t : Tree) (aim : Aim) : Nat → NodeId → List Bytes → Except Fault Place
  | 0 => t.walkWith aim fun _ _ => .error .linkLoop
  | links + 1 => t.walkWith aim (walk t aim links)

/-- The most symbolic links that one path is followed through. -/
def maxLinks : Nat := 40

/-- Where a path leads. -/
def locate (t : Tree) (aim : Aim) (path : Bytes) : Except Fault Place :=
  match Path.fault? path with
  | some f => .error f
  | none => t.walk aim maxLinks (startOf t.here path) (Path.names path)

/-- The node that a path leads to, through all links. -/
def resolve (t : Tree) (path : Bytes) : Except Fault NodeId :=
  match t.locate .open path with
  | .error f => .error f
  | .ok place =>
    match place.node? with
    | some id => .ok id
    | none => .error .notFound

/-! ## Reading -/

def readNode : Node → Except Fault ByteArray
  | .file mode data => if mayRead mode then .ok data else .error .denied
  | .folder mode _ _ => if mayRead mode then .error .isFolder else .error .denied
  | .link _ => .error .linkLoop
  | .null => .ok ByteArray.empty
  | .system data => .ok data

/-- The bytes of the file that a path leads to. -/
def read (t : Tree) (path : Bytes) : Except Fault ByteArray :=
  match t.resolve path with
  | .error f => .error f
  | .ok id =>
    match t.node? id with
    | some n => readNode n
    | none => .error .notFound

/-! ## Entries -/

/-- Puts an entry at its place in the order of the names. -/
def insertEntry (name : Bytes) (id : NodeId) : List (Bytes × NodeId) → List (Bytes × NodeId)
  | [] => [(name, id)]
  | e :: rest => if name < e.1 then (name, id) :: e :: rest else e :: insertEntry name id rest

/-- Changes the entries of a folder, if its owner may. -/
def editFolder (t : Tree) (id : NodeId)
    (edit : List (Bytes × NodeId) → List (Bytes × NodeId)) : Except Fault Tree :=
  match t.node? id with
  | some (.folder mode parent entries) =>
    if mayWrite mode && maySearch mode then
      .ok (t.setNode id (.folder mode parent (edit entries)))
    else
      .error .denied
  | _ => .error .notFolder

/-- Adds a new node under the name that a path ends with. -/
def create (t : Tree) (place : Place) (n : Node) : Except Fault Tree :=
  match t.editFolder place.folder (insertEntry place.name t.nodes.length) with
  | .error f => .error f
  | .ok u => .ok { u with nodes := u.nodes ++ [n] }

/-! ## Writing

To write a file anew it is opened, which takes all of its bytes from it, and then filled. A
path that leads to nothing makes a new file. -/

/-- The node after it is opened to be written anew. -/
def emptied : Node → Except Fault Node
  | .file mode _ =>
    if mayWrite mode then .ok (.file (modeAfterWrite mode) ByteArray.empty) else .error .denied
  | .folder _ _ _ => .error .isFolder
  | .link _ => .error .linkLoop
  | .null => .ok .null
  | .system _ => .error .denied

/-- A node that is open, in the tree by then. -/
structure Opened where
  tree : Tree
  id : NodeId

/-- Opens the file that a path leads to, to write it anew. -/
def openAnew (t : Tree) (path : Bytes) : Except Fault Opened :=
  match t.locate .create path with
  | .error f => .error f
  | .ok place =>
    match place.node? with
    | none =>
      match t.create place (.file 0o644 ByteArray.empty) with
      | .error f => .error f
      | .ok u => .ok { tree := u, id := t.nodes.length }
    | some id =>
      match t.node? id with
      | none => .error .notFound
      | some n =>
        match emptied n with
        | .error f => .error f
        | .ok n' => .ok { tree := t.setNode id n', id }

/-- A write that failed, and the tree that it left. -/
structure BrokenWrite where
  fault : Fault
  tree : Tree

/-- Writes bytes to a node that is open. A file that the storage does not take as a whole is
left with the part that it takes. The null device takes all. -/
def Opened.fill (o : Opened) (data : ByteArray) : Except BrokenWrite Tree :=
  match o.tree.node? o.id with
  | some (.file mode _) =>
    match (o.tree.shortage? o.id).filter (·.bytes < data.size) with
    | none => .ok (o.tree.setNode o.id (.file mode data))
    | some s =>
      .error { fault := s.fault
               tree := o.tree.setNode o.id (.file mode (data.extract 0 s.bytes)) }
  | _ => .ok o.tree

/-- Writes bytes to the file that a path leads to, in place of those that it holds. -/
def overwrite (t : Tree) (path : Bytes) (data : ByteArray) : Except BrokenWrite Tree :=
  match t.openAnew path with
  | .error f => .error { fault := f, tree := t }
  | .ok o => o.fill data

/-- The regular file that a write to a path opens, if it opens one. -/
def opened? (t : Tree) (path : Bytes) : Option NodeId :=
  match t.openAnew path with
  | .error _ => none
  | .ok o =>
    match o.tree.node? o.id with
    | some (.file _ _) => some o.id
    | _ => none

end Tree

end Spacing
