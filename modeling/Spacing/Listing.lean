-- The listing of a tree: every path below the working folder with the node that it
-- leads to. Names are in the order of their bytes, and the entries of a folder follow it.
import Spacing.Tree

namespace Spacing

/-- One line of a listing. -/
structure Listed where
  path : Bytes
  id : NodeId
  node : Node

namespace Tree

/-- The listing of a folder, to a depth. `before` stands in front of every name. A folder
that may not be read shows no entries. -/
def listFrom (t : Tree) : Nat → Bytes → NodeId → List Listed
  | 0, _, _ => []
  | depth + 1, before, id =>
    match t.node? id with
    | some (.folder mode _ entries) =>
      if mayRead mode && maySearch mode then
        entries.flatMap fun (name, child) =>
          match t.node? child with
          | none => []
          | some node =>
            let path := before ++ name
            { path, id := child, node } :: listFrom t depth (path ++ [Path.slash]) child
      else
        []
    | _ => []

/-- The listing of the working folder. Folders cannot be nested deeper than there are
nodes. -/
def listing (t : Tree) : List Listed := t.listFrom t.nodes.length [] t.here

/-- All paths of a node below the working folder, links aside. -/
def pathsOf (t : Tree) (id : NodeId) : List Bytes :=
  (t.listing.filter (·.id == id)).map (·.path)

end Tree

end Spacing
