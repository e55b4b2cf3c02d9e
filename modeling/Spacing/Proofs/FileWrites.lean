-- Writing a file anew. A path that a file can be read from leads a write to that file, so the
-- write makes nothing new. It moves no name, and the file then holds what was written, or the part
-- that the storage took.
import Spacing.Document

namespace Spacing

namespace Tree

/-! ## Trees with the same names -/

/-- Every name and every link lead to the same node in both trees. -/
structure SameNames (t u : Tree) : Prop where
  here : t.here = u.here
  lookUp : ∀ id name, t.lookUp id name = u.lookUp id name
  linkTarget? : ∀ id, t.linkTarget? id = u.linkTarget? id

namespace SameNames

variable {t u : Tree}

theorem lookUpFor (h : SameNames t u) (aim : Aim) (id : NodeId) (name : Bytes)
    (rest : List Bytes) : t.lookUpFor aim id name rest = u.lookUpFor aim id name rest := by
  simp only [Tree.lookUpFor, h.lookUp]

theorem walkWith (h : SameNames t u) (aim : Aim)
    (onLink : NodeId → List Bytes → Except Fault Place) (id : NodeId) (names : List Bytes) :
    t.walkWith aim onLink id names = u.walkWith aim onLink id names := by
  have hlink : t.linkTarget? = u.linkTarget? := funext h.linkTarget?
  induction names generalizing id with
  | nil => rfl
  | cons name rest ih => simp only [Tree.walkWith, h.lookUpFor, hlink, ih]

theorem walk (h : SameNames t u) (aim : Aim) (links : Nat) :
    t.walk aim links = u.walk aim links := by
  induction links with
  | zero => exact funext fun id => funext fun names => h.walkWith aim _ id names
  | succ links ih =>
    funext id names
    rw [Tree.walk, Tree.walk, ih]
    exact h.walkWith aim _ id names

theorem locate (h : SameNames t u) (aim : Aim) (path : Bytes) :
    t.locate aim path = u.locate aim path := by
  simp only [Tree.locate, h.walk, h.here]

theorem resolve (h : SameNames t u) (path : Bytes) : t.resolve path = u.resolve path := by
  simp only [Tree.resolve, h.locate]

end SameNames

/-! ## One node replaced -/

end Tree

/-- The node holds no names and is no link. -/
def Node.IsLeaf : Node → Prop
  | .file _ _ | .null | .system _ => True
  | .folder _ _ _ | .link _ => False

namespace Tree

theorem node?_setNode {t : Tree} {id : NodeId} {old : Node} (h : t.node? id = some old) (n : Node)
    (i : NodeId) : (t.setNode id n).node? i = if id = i then some n else t.node? i := by
  have hlt : id < t.nodes.length := (List.getElem?_eq_some_iff.mp h).1
  simp only [node?, setNode, List.getElem?_set, hlt, if_true]

theorem lookUp_leaf {t : Tree} {id : NodeId} {n : Node} (h : t.node? id = some n) (hn : n.IsLeaf)
    (name : Bytes) : t.lookUp id name = .error .notFolder := by
  unfold lookUp
  rw [h]
  cases n with
  | file | null | system => rfl
  | folder | link => exact hn.elim

theorem linkTarget?_leaf {t : Tree} {id : NodeId} {n : Node} (h : t.node? id = some n)
    (hn : n.IsLeaf) : t.linkTarget? id = none := by
  unfold linkTarget?
  rw [h]
  cases n with
  | file | null | system => rfl
  | folder | link => exact hn.elim

theorem sameNames_setNode {t : Tree} {id : NodeId} {old n : Node} (h : t.node? id = some old)
    (hold : old.IsLeaf) (hn : n.IsLeaf) : SameNames (t.setNode id n) t := by
  have hnode := node?_setNode h n
  have hnew : (t.setNode id n).node? id = some n := by rw [hnode, if_pos rfl]
  refine ⟨rfl, ?_, ?_⟩
  · intro i name
    by_cases hi : id = i
    · subst hi
      rw [lookUp_leaf hnew hn, lookUp_leaf h hold]
    · unfold lookUp
      rw [hnode, if_neg hi]
  · intro i
    by_cases hi : id = i
    · subst hi
      rw [linkTarget?_leaf hnew hn, linkTarget?_leaf h hold]
    · unfold linkTarget?
      rw [hnode, if_neg hi]

/-- Of two nodes put in one place the second stays. -/
theorem setNode_setNode (t : Tree) (id : NodeId) (m n : Node) :
    (t.setNode id m).setNode id n = t.setNode id n := by
  simp only [setNode, List.set_set]

theorem setNode_self {t : Tree} {id : NodeId} {n : Node} (h : t.node? id = some n) :
    t.setNode id n = t := by
  obtain ⟨hlt, hget⟩ := List.getElem?_eq_some_iff.mp h
  subst hget
  rw [setNode, List.set_getElem_self]

/-! ## Where a write leads

A path is followed alike to read a file and to write it anew, but for a slash at its end. There a
write is refused at once, and what is there to read is a folder. -/

/-- The place is that of a folder. -/
def Place.IsFolder (t : Tree) (p : Place) : Prop :=
  ∃ id mode parent entries, p.node? = some id ∧ t.node? id = some (.folder mode parent entries)

/-- Names with an empty one at the end are followed to folders only. -/
def EndsInFolder (t : Tree) (walk : NodeId → List Bytes → Except Fault Place) : Prop :=
  ∀ id names place, names.getLast? = some [] → walk id names = .ok place → place.IsFolder t

/-- What is found without the last step into a folder is found by both. -/
def AgreeOnFiles (t : Tree) (walk walk' : NodeId → List Bytes → Except Fault Place) : Prop :=
  ∀ id names place, walk id names = .ok place → ¬ place.IsFolder t → walk' id names = .ok place

variable {t : Tree}

theorem lookUp_nil {id : NodeId} {found? : Option NodeId} (h : t.lookUp id [] = .ok found?) :
    found? = some id ∧ ∃ mode parent entries, t.node? id = some (.folder mode parent entries) := by
  unfold lookUp at h
  split at h
  · rename_i mode parent entries hnode
    cases h
    exact ⟨rfl, mode, parent, entries, hnode⟩
  · cases h

theorem lookUpFor_open (t : Tree) (id : NodeId) (name : Bytes) (rest : List Bytes) :
    t.lookUpFor .open id name rest = t.lookUp id name := rfl

theorem lookUpFor_create {rest : List Bytes} (h : rest ≠ [[]]) (t : Tree) (id : NodeId)
    (name : Bytes) : t.lookUpFor .create id name rest = t.lookUp id name := by
  rw [lookUpFor, if_neg (by simp [h])]

theorem isLast_eq_isEmpty {aim : Aim} (h : aim ≠ .name) (rest : List Bytes) :
    isLast aim rest = rest.isEmpty := by
  simp [isLast, h]

theorem endsInFolder_walkWith {onLink : NodeId → List Bytes → Except Fault Place}
    (hlink : t.EndsInFolder onLink) : t.EndsInFolder (t.walkWith .open onLink) := by
  intro id names place hlast h
  induction names generalizing id with
  | nil => cases hlast
  | cons name rest ih =>
    rw [walkWith, lookUpFor_open] at h
    cases hfound : t.lookUp id name with
    | error f =>
      rw [hfound] at h
      cases h
    | ok found? =>
      simp only [hfound, isLast_eq_isEmpty (show Aim.open ≠ .name by decide)] at h
      cases rest with
      | nil =>
        obtain rfl : name = [] := Option.some.inj hlast
        obtain ⟨rfl, mode, parent, entries, hnode⟩ := lookUp_nil hfound
        have hnone : t.linkTarget? id = none := by rw [linkTarget?, hnode]
        simp only [Option.bind_some, hnone] at h
        cases h
        exact ⟨id, mode, parent, entries, rfl, hnode⟩
      | cons name' rest =>
        rw [List.getLast?_cons_cons] at hlast
        cases hbind : found?.bind t.linkTarget? with
        | some target =>
          rw [hbind] at h
          refine hlink _ _ place ?_ h
          rw [List.getLast?_append, hlast]
          rfl
        | none =>
          rw [hbind] at h
          cases found? with
          | none => cases h
          | some next => exact ih next hlast h

theorem endsInFolder_walk (t : Tree) (links : Nat) : t.EndsInFolder (t.walk .open links) := by
  induction links with
  | zero => exact endsInFolder_walkWith nofun
  | succ links ih => exact endsInFolder_walkWith ih

theorem agreeOnFiles_walkWith {onLink onLink' : NodeId → List Bytes → Except Fault Place}
    (hfolder : t.EndsInFolder onLink) (hlink : t.AgreeOnFiles onLink onLink') :
    t.AgreeOnFiles (t.walkWith .open onLink) (t.walkWith .create onLink') := by
  intro id names place h hfile
  induction names generalizing id with
  | nil => exact h
  | cons name rest ih =>
    have hrest : rest ≠ [[]] := by
      rintro rfl
      exact hfile (endsInFolder_walkWith hfolder id _ place rfl h)
    rw [walkWith, lookUpFor_open] at h
    rw [walkWith, lookUpFor_create hrest]
    cases hfound : t.lookUp id name with
    | error f =>
      rw [hfound] at h
      cases h
    | ok found? =>
      simp only [hfound, isLast_eq_isEmpty (show Aim.open ≠ .name by decide),
        isLast_eq_isEmpty (show Aim.create ≠ .name by decide)] at h ⊢
      cases hbind : found?.bind t.linkTarget? with
      | some target =>
        rw [hbind] at h
        simp only [Aim.followsLast, Bool.not_true, Bool.and_false] at h ⊢
        exact hlink _ _ place h hfile
      | none =>
        rw [hbind] at h
        cases rest with
        | nil => exact h
        | cons name' rest =>
          cases found? with
          | none => cases h
          | some next => exact ih next h

theorem agreeOnFiles_walk (t : Tree) (links : Nat) :
    t.AgreeOnFiles (t.walk .open links) (t.walk .create links) := by
  induction links with
  | zero => exact agreeOnFiles_walkWith nofun nofun
  | succ links ih => exact agreeOnFiles_walkWith (endsInFolder_walk t links) ih

variable {path : Bytes} {id : NodeId} {n : Node}

/-- A node that a path leads to, and that is no folder, is the one that is opened for a write. -/
theorem openAnew_eq (hid : t.resolve path = .ok id) (hnode : t.node? id = some n)
    (hleaf : n.IsLeaf) :
    t.openAnew path = (emptied n).map fun n' => { tree := t.setNode id n', id } := by
  unfold resolve at hid
  cases hplace : t.locate .open path with
  | error f =>
    rw [hplace] at hid
    cases hid
  | ok place =>
    have hfound : place.node? = some id := by
      rw [hplace] at hid
      dsimp only at hid
      split at hid
      · rename_i i hi
        rw [hi, Except.ok.inj hid]
      · cases hid
    have hfile : ¬ place.IsFolder t := by
      rintro ⟨i, mode, parent, entries, hi, hfolder⟩
      obtain rfl : id = i := Option.some.inj (hfound.symm.trans hi)
      obtain rfl : n = .folder mode parent entries := Option.some.inj (hnode.symm.trans hfolder)
      exact hleaf
    have hcreate : t.locate .create path = .ok place := by
      unfold locate at hplace ⊢
      split at hplace
      · cases hplace
      · exact agreeOnFiles_walk t maxLinks _ _ place hplace hfile
    simp only [openAnew, hcreate, hfound, hnode]
    cases emptied n <;> rfl

/-! ## Overwriting -/

theorem openAnew_file {mode : Nat} {before : ByteArray} (hid : t.resolve path = .ok id)
    (hnode : t.node? id = some (.file mode before)) :
    t.openAnew path =
      if mayWrite mode then
        .ok { tree := t.setNode id (.file (modeAfterWrite mode) ByteArray.empty), id }
      else
        .error .denied := by
  rw [openAnew_eq hid hnode trivial, emptied]
  split <;> rfl

/-- A write to a file that its owner may write stores all bytes, or those that the storage takes. -/
theorem overwrite_file {mode : Nat} {before : ByteArray} (hid : t.resolve path = .ok id)
    (hnode : t.node? id = some (.file mode before)) (hmay : mayWrite mode = true)
    (data : ByteArray) :
    t.opened? path = some id ∧
      t.overwrite path data =
        match (t.shortage? id).filter (·.bytes < data.size) with
        | none => .ok (t.setNode id (.file (modeAfterWrite mode) data))
        | some s => .error
            { fault := s.fault
              tree := t.setNode id (.file (modeAfterWrite mode) (data.extract 0 s.bytes)) } := by
  have hopen := openAnew_file hid hnode
  have hempty : (t.setNode id (.file (modeAfterWrite mode) ByteArray.empty)).node? id =
      some (.file (modeAfterWrite mode) ByteArray.empty) := by
    rw [node?_setNode hnode, if_pos rfl]
  rw [if_pos hmay] at hopen
  constructor
  · simp only [opened?, hopen, hempty]
  · simp only [overwrite, hopen, Opened.fill, hempty, setNode_setNode]
    rfl

theorem overwrite_of_room {mode : Nat} {before : ByteArray} (hid : t.resolve path = .ok id)
    (hnode : t.node? id = some (.file mode before)) (hmay : mayWrite mode = true)
    (hroom : t.shortage? id = none) (data : ByteArray) :
    t.overwrite path data = .ok (t.setNode id (.file (modeAfterWrite mode) data)) := by
  rw [(overwrite_file hid hnode hmay data).2, hroom, Option.filter_none]

/-- What a write to a path comes to, if a file with some bytes can be read there. -/
inductive Overwritten (t : Tree) (path : Bytes) (before data : ByteArray) : Prop
  /-- The file cannot be opened. -/
  | refused {f : Fault} (opened : t.opened? path = none)
      (write : t.overwrite path data = .error { fault := f, tree := t })
  /-- The bytes are gone in the null device. -/
  | gone (opened : t.opened? path = none) (write : t.overwrite path data = .ok t)
  | stored {id : NodeId} {mode : Nat} (leads : t.resolve path = .ok id)
      (node : t.node? id = some (.file mode before)) (opened : t.opened? path = some id)
      (write : t.overwrite path data = .ok (t.setNode id (.file (modeAfterWrite mode) data)))
  /-- The storage takes a part of the bytes. -/
  | broken {id : NodeId} {mode : Nat} {s : Shortage} (leads : t.resolve path = .ok id)
      (node : t.node? id = some (.file mode before)) (opened : t.opened? path = some id)
      (short : t.shortage? id = some s ∧ s.bytes < data.size)
      (write : t.overwrite path data = .error
        { fault := s.fault
          tree := t.setNode id (.file (modeAfterWrite mode) (data.extract 0 s.bytes)) })

theorem exists_node_of_read {data : ByteArray} (h : t.read path = .ok data) :
    ∃ id n, t.resolve path = .ok id ∧ t.node? id = some n ∧ readNode n = .ok data := by
  unfold read at h
  split at h
  · cases h
  · rename_i id hid
    split at h
    · rename_i n hnode
      exact ⟨id, n, hid, hnode, h⟩
    · cases h

theorem overwritten {before : ByteArray} (h : t.read path = .ok before) (data : ByteArray) :
    t.Overwritten path before data := by
  obtain ⟨id, n, hid, hnode, hread⟩ := exists_node_of_read h
  cases n with
  | file mode bytes =>
    have hmayRead : mayRead mode = true ∧ bytes = before := by
      simp only [readNode] at hread
      split at hread
      · rename_i hmay
        exact ⟨hmay, Except.ok.inj hread⟩
      · cases hread
    obtain ⟨-, rfl⟩ := hmayRead
    cases hmay : mayWrite mode with
    | false =>
      have hopen := openAnew_file hid hnode
      rw [hmay] at hopen
      exact .refused (by rw [opened?, hopen]; rfl) (by rw [overwrite, hopen]; rfl)
    | true =>
      obtain ⟨hopened, hwrite⟩ := overwrite_file hid hnode hmay data
      cases hshort : (t.shortage? id).filter (·.bytes < data.size) with
      | none => exact .stored hid hnode hopened (by rw [hwrite, hshort])
      | some s =>
        have hs := Option.filter_eq_some_iff.mp hshort
        exact .broken hid hnode hopened ⟨hs.1, by simpa using hs.2⟩ (by rw [hwrite, hshort])
  | null =>
    have hopen : t.openAnew path = .ok { tree := t, id } := by
      rw [openAnew_eq hid hnode trivial, emptied, Except.map, setNode_self hnode]
    refine .gone ?_ ?_
    · simp only [opened?, hopen, hnode]
    · simp only [overwrite, hopen, Opened.fill, hnode]
  | system bytes =>
    have hopen := openAnew_eq hid hnode trivial
    exact .refused (by rw [opened?, hopen]; rfl) (by rw [overwrite, hopen]; rfl)
  | folder mode parent entries =>
    simp only [readNode] at hread
    split at hread <;> cases hread
  | link target => cases hread

/-- A file that is written anew leaves every name and every link as they are. -/
theorem sameNames_file {mode mode' : Nat} {before data : ByteArray}
    (h : t.node? id = some (.file mode before)) :
    SameNames (t.setNode id (.file mode' data)) t :=
  sameNames_setNode h trivial trivial

theorem mayRead_of_read {mode : Nat} {before data : ByteArray} (hid : t.resolve path = .ok id)
    (hnode : t.node? id = some (.file mode before)) (h : t.read path = .ok data) :
    mayRead mode = true := by
  simp only [read, hid, hnode, readNode] at h
  split at h
  · assumption
  · cases h

/-- A file that can be read gives back the bytes that were written to it. -/
theorem read_setNode {mode : Nat} {before : ByteArray} (hid : t.resolve path = .ok id)
    (hnode : t.node? id = some (.file mode before)) (hread : t.read path = .ok before)
    (data : ByteArray) :
    (t.setNode id (.file (modeAfterWrite mode) data)).read path = .ok data := by
  have hnew : (t.setNode id (.file (modeAfterWrite mode) data)).node? id =
      some (.file (modeAfterWrite mode) data) := by
    rw [node?_setNode hnode, if_pos rfl]
  have hstill : mayRead (modeAfterWrite mode) = true :=
    (holdsRight_modeAfterWrite (by decide) mode).trans (mayRead_of_read hid hnode hread)
  rw [read, (sameNames_file hnode).resolve, hid]
  simp only [hnew, readNode, hstill, if_true]

end Tree

/-! ## Texts in files -/

theorem Document.fromUTF8?_encode (t : Text) :
    String.fromUTF8? (encode t) = some (String.ofList t) := by
  have hvalid : (encode t).IsValidUTF8 := (String.ofList t).isValidUTF8
  rw [String.fromUTF8?, dif_pos hvalid]
  rfl

end Spacing
