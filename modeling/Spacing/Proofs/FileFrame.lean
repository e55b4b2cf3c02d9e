-- What a run leaves as it was: it opens one regular file at most to write it, the one that its path
-- leads to, and only with a text that was read, formatted and meant for that file. All else in the
-- tree stays, and so does all of it if the call fails before the file is open.
import Spacing.Proofs.CheckRun

namespace Spacing

open Formatter

/-! ## Rights -/

/-- The rights after a write. Of the twelve bits of a mode, the one that runs the file as its
owner is gone, and so is the one that runs it as its group, if the group may run it. -/
def RightsAfterWrite (before after : Nat) : Prop :=
  ∀ bit < 12, after.testBit bit =
    (before.testBit bit && bit != 11 && !(bit == 10 && before.testBit 3))

theorem and_groupRun_eq_iff {mode : Nat} :
    mode &&& 0o2010 = 0o2010 ↔ mode.testBit 10 = true ∧ mode.testBit 3 = true := by
  have hbits : ∀ i, Nat.testBit 0o2010 i = (decide (10 = i) || decide (3 = i)) := by
    intro i
    rw [show 0o2010 = 2 ^ 10 ||| 2 ^ 3 by decide, Nat.testBit_or, Nat.testBit_two_pow,
      Nat.testBit_two_pow]
  constructor
  · intro h
    have hboth : ∀ i, (mode.testBit i && Nat.testBit 0o2010 i) = Nat.testBit 0o2010 i := by
      intro i
      rw [← Nat.testBit_and, h]
    have h10 := hboth 10
    have h3 := hboth 3
    simp only [hbits, decide_true, Bool.true_or, Bool.or_true, Bool.and_true] at h10 h3
    exact ⟨h10, h3⟩
  · rintro ⟨h10, h3⟩
    apply Nat.eq_of_testBit_eq
    intro i
    rw [Nat.testBit_and, hbits]
    by_cases hi : 10 = i ∨ 3 = i
    · obtain rfl | rfl := hi
      · rw [h10, Bool.true_and]
      · rw [h3, Bool.true_and]
    · rw [not_or] at hi
      simp [hi]

theorem rightsAfterWrite (mode : Nat) : RightsAfterWrite mode (modeAfterWrite mode) := by
  have hboth : ∀ bit < 12, Nat.testBit 0o1777 bit = (bit != 11 && bit != 10) := by decide
  have howner : ∀ bit < 12, Nat.testBit 0o3777 bit = (bit != 11) := by decide
  intro bit hbit
  unfold modeAfterWrite
  simp only [beq_iff_eq, and_groupRun_eq_iff]
  split
  · rename_i h
    rw [Nat.testBit_and, hboth bit hbit, h.2, Bool.and_true, Bool.and_assoc]
    rfl
  · rename_i h
    rw [Nat.testBit_and, howner bit hbit]
    by_cases h10 : bit = 10
    · subst h10
      rw [not_and] at h
      cases hrun : mode.testBit 10 with
      | false => rfl
      | true => simp [h hrun]
    · simp [h10]

/-! ## The frame -/

namespace Tree

/-- What cannot be read fails with the reason for that, in every mode. -/
theorem changed_of_read_error {T : Tree} {path : Bytes} {f : Fault} (h : T.read path = .error f)
    (mode : WriteMode) : (T.formatFile path mode).call.changed = .error (.read path f) := by
  rw [formatFile, h]
  rfl

/-- The bytes of a regular file. -/
def fileBytes? (T : Tree) (id : NodeId) : Option ByteArray :=
  match T.node? id with
  | some (.file _ data) => some data
  | _ => none

/-- The tree after one file at most was opened for a write: no node is new, gone or moved, each
other node is the same, and the file is one still and keeps its other rights. -/
structure Frame (T U : Tree) (opened? : Option NodeId) : Prop where
  here : U.here = T.here
  size : U.nodes.length = T.nodes.length
  others : ∀ i, opened? ≠ some i → U.node? i = T.node? i
  file : ∀ i, opened? = some i → ∃ rights before rights' after,
    T.node? i = some (.file rights before) ∧ U.node? i = some (.file rights' after) ∧
      RightsAfterWrite rights rights'

/-- A write: the path leads to the file, the file held a text, and it holds the formatted text
now. -/
structure Stored (T : Tree) (path : Bytes) (mode : WriteMode) (U : Tree) (id : NodeId) : Prop where
  inPlace : mode = .inPlace
  leads : T.resolve path = .ok id
  text : ∃ t v, T.fileBytes? id = some (Document.encode t) ∧ format t = .ok v ∧
    U.fileBytes? id = some (Document.encode v)

theorem frame_self (T : Tree) : T.Frame T none := ⟨rfl, rfl, fun _ _ => rfl, nofun⟩

theorem frame_setNode {T : Tree} {id : NodeId} {rights : Nat} {before : ByteArray}
    (h : T.node? id = some (.file rights before)) (after : ByteArray) :
    T.Frame (T.setNode id (.file (modeAfterWrite rights) after)) (some id) := by
  have hnodes := node?_setNode h (.file (modeAfterWrite rights) after)
  refine ⟨rfl, List.length_set, ?_, ?_⟩
  · intro i hi
    rw [hnodes, if_neg (fun heq => hi (congrArg some heq))]
  · rintro i hi
    cases hi
    exact ⟨_, _, _, _, h, by rw [hnodes, if_pos rfl], rightsAfterWrite rights⟩

theorem formatFile_frame (T : Tree) (path : Bytes) (mode : WriteMode) :
    T.Frame (T.formatFile path mode).tree (T.formatFile path mode).opened? := by
  cases T.callEffect path mode with
  | untouched opened written tree =>
    rw [opened, tree]
    exact T.frame_self
  | stored file opened written changed tree | broken file opened written changed tree =>
    rw [opened, tree]
    exact frame_setNode file.node _

theorem formatFile_stored {T : Tree} {path : Bytes} {mode : WriteMode} {id : NodeId}
    (h : (T.formatFile path mode).written? = some id) :
    T.Stored path mode (T.formatFile path mode).tree id := by
  obtain ⟨rights, t, v, file, -, htree⟩ := formatFile_written h
  refine ⟨file.inPlace, file.leads, t, v, ?_, file.formatted, ?_⟩
  · rw [fileBytes?, file.node]
  · rw [fileBytes?, htree, node?_setNode file.node, if_pos rfl]

end Tree

/-! ## The laws -/

namespace Program

/-- A call, and so a run, opens one regular file at most for a write, the one that its path leads
to, and only in place and with the formatted text of the one that the file holds. All else in the
tree stays, except that the file loses the right to run as its owner, and the right to run as its
group if the group may run it. A call that goes well has written all of the text to the file that
it opened. One that fails prints nothing, and if it fails before the file is open, the whole tree
stays. -/
theorem a_run_writes_at_most_the_formatted_text_to_its_file (T : Tree) :
    (∀ path mode,
      let r := T.formatFile path mode
      T.Frame r.tree r.opened? ∧
      (∀ id, r.opened? = some id → ∃ rights t v, T.Opens path mode id rights t v) ∧
      (∀ changed, r.call.changed = .ok changed →
        ∀ id, r.opened? = some id → r.written? = some id ∧ T.Stored path mode r.tree id) ∧
      ∀ e, r.call.changed = .error e →
        r.call.printed = [] ∧ r.written? = none ∧
          ((∀ f, e ≠ .write path f) ∨ r.opened? = none → r.tree = T ∧ r.opened? = none)) ∧
    ∀ arguments setting,
      let r := run T arguments setting
      T.Frame r.tree r.opened? ∧
      (∀ id, r.opened? = some id →
        ∃ a path, Arguments.parse arguments = .ok a ∧ a.path? = some path ∧
          (∃ rights t v, T.Opens path (writeMode a) id rights t v) ∧
          ∀ changed, (T.formatFile path (writeMode a)).call.changed = .ok changed →
            r.written? = some id ∧ T.Stored path (writeMode a) r.tree id) ∧
      ∀ a path e, Arguments.parse arguments = .ok a → a.path? = some path →
        (T.formatFile path (writeMode a)).call.changed = .error e →
          r.written? = none ∧
            ((∀ f, e ≠ .write path f) ∨ r.opened? = none → r.tree = T ∧ r.opened? = none) := by
  have hwell : ∀ path mode changed, (T.formatFile path mode).call.changed = .ok changed →
      ∀ id, (T.formatFile path mode).opened? = some id →
        (T.formatFile path mode).written? = some id ∧
          T.Stored path mode (T.formatFile path mode).tree id := by
    intro path mode changed hchanged id hopened
    have hwritten := (Tree.written_of_ok hchanged).trans hopened
    exact ⟨hwritten, Tree.formatFile_stored hwritten⟩
  have hfails : ∀ path mode e, (T.formatFile path mode).call.changed = .error e →
      (T.formatFile path mode).written? = none ∧
        ((∀ f, e ≠ .write path f) ∨ (T.formatFile path mode).opened? = none →
          (T.formatFile path mode).tree = T ∧ (T.formatFile path mode).opened? = none) := by
    intro path mode e he
    refine ⟨Tree.unwritten_of_error he, fun hearly => ?_⟩
    have hopened : (T.formatFile path mode).opened? = none := by
      obtain hkind | hopened := hearly
      · exact Tree.unopened_of_error he hkind
      · exact hopened
    exact ⟨Tree.formatFile_unopened hopened, hopened⟩
  refine ⟨fun path mode => ⟨T.formatFile_frame path mode, fun id => Tree.opens_of_opened,
    hwell path mode, fun e he => ⟨Tree.printed_of_error he, hfails path mode e he⟩⟩, ?_⟩
  intro arguments setting
  cases hjob : job arguments setting with
  | error a =>
    rw [run_of_answer hjob]
    exact ⟨T.frame_self, nofun, fun _ _ _ _ _ _ => ⟨rfl, fun _ => ⟨rfl, rfl⟩⟩⟩
  | ok j =>
    obtain ⟨a, hfrom⟩ := comesFrom_of_job hjob
    rw [run_of_job hjob, hfrom.mode]
    refine ⟨T.formatFile_frame j.path (writeMode a), ?_, ?_⟩
    · intro id hid
      exact ⟨a, j.path, hfrom.parse, hfrom.path, Tree.opens_of_opened hid,
        fun changed hchanged => hwell j.path (writeMode a) changed hchanged id hid⟩
    · intro a' path e ha' hpath' he
      obtain rfl : a = a' := Except.ok.inj (hfrom.parse.symm.trans ha')
      obtain rfl : j.path = path := Option.some.inj (hfrom.path.symm.trans hpath')
      exact hfails j.path (writeMode a) e he

/-- A run writes the comparison with its blanks to the one file there is. A call and a run for a
file that is missing leave the tree as it was. -/
theorem a_run_writes_a_comparison_to_the_file_f :
    let T := oneFile "a==b".toList
    (run T [[0x66]] []).written? = some 1 ∧
      T.Stored [0x66] .inPlace (run T [[0x66]] []).tree 1 ∧
      (T.formatFile [0x67] .inPlace).call.changed = .error (.read [0x67] .notFound) ∧
      (T.formatFile [0x67] .inPlace).tree = T ∧ (run T [[0x67]] []).tree = T := by
  intro T
  have hformat : format "a==b".toList = .ok "a == b".toList := by decide
  have hparse : Arguments.parse [[0x66]] = .ok { path? := some [0x66] } := by decide +kernel
  obtain ⟨j, hj, hpath, hmode⟩ := job_of_parse hparse rfl (by decide) LogFilter.crashes_nil
  have hcallWritten : (T.formatFile [0x66] .inPlace).written? = some 1 :=
    Tree.written_of_format rfl rfl (by decide) (by decide) rfl hformat
  obtain ⟨_, _, _, -, hcallChanged, -⟩ := Tree.formatFile_written hcallWritten
  have hopened : (run T [[0x66]] []).opened? = some 1 := by
    rw [run_of_job hj, hpath, hmode]
    exact (Tree.written_of_ok hcallChanged).symm.trans hcallWritten
  have hmissing := Tree.changed_of_read_error (rfl : T.read [0x67] = .error .notFound) .inPlace
  have hlaw := a_run_writes_at_most_the_formatted_text_to_its_file T
  obtain ⟨a, path, ha, hpath, -, hstored⟩ := (hlaw.2 [[0x66]] []).2.1 1 hopened
  obtain rfl : { path? := some [0x66] } = a := Except.ok.inj (hparse.symm.trans ha)
  cases hpath
  obtain ⟨hwritten, hstored⟩ := hstored _ hcallChanged
  obtain ⟨-, -, hcall⟩ := (hlaw.1 [0x67] .inPlace).2.2.2 _ hmissing
  have hparse' : Arguments.parse [[0x67]] = .ok { path? := some [0x67] } := by decide +kernel
  obtain ⟨-, hrun⟩ := (hlaw.2 [[0x67]] []).2.2 _ [0x67] _ hparse' rfl hmissing
  have hread : ∀ f, FormatError.read [0x67] .notFound ≠ .write [0x67] f := nofun
  exact ⟨hwritten, hstored, hmissing, (hcall (Or.inl hread)).1, (hrun (Or.inl hread)).1⟩

/-- A working folder with one file, whose name is the letter f and which runs as its owner. -/
def ownerRunFile (t : Text) : Tree :=
  { here := Tree.root
    nodes := [.folder 0o755 Tree.root [([0x66], 1)], .file 0o4644 (Document.encode t)] }

def noSpace : Fault := .other "No space left on device" 28

/-- The same folder with its file, on a storage that takes a number of bytes. -/
def fullStorage (t : Text) (bytes : Nat) : Tree :=
  { ownerRunFile t with shortage? := fun _ => some { bytes, fault := noSpace } }

/-- Not all modes stay: the file that is written loses the right to run as its owner. Nor do all
bytes stay if a call fails: on a storage that takes two bytes the file is left with these two. -/
theorem a_write_takes_rights_and_a_broken_one_takes_bytes :
    let T := ownerRunFile "a=b".toList
    let full := fullStorage "a=b".toList 2
    (T.node? 1 = some (.file 0o4644 (Document.encode "a=b".toList)) ∧
      (T.formatFile [0x66] .inPlace).tree.node? 1 =
        some (.file 0o644 (Document.encode "a = b".toList))) ∧
      full.fileBytes? 1 = some (Document.encode "a=b".toList) ∧
      (full.formatFile [0x66] .inPlace).call.changed = .error (.write [0x66] noSpace) ∧
      (full.formatFile [0x66] .inPlace).tree.fileBytes? 1 =
        some (Document.encode "a ".toList) := by
  intro T full
  have hformat : format "a=b".toList = .ok "a = b".toList := by decide
  have hsize : 2 < (Document.encode "a = b".toList).size := by decide +kernel
  have hpart : (Document.encode "a = b".toList).extract 0 2 = Document.encode "a ".toList := by
    decide +kernel
  have hnode : T.node? 1 = some (.file 0o4644 (Document.encode "a=b".toList)) := rfl
  have hleads : T.resolve [0x66] = .ok 1 := rfl
  have hleadsFull : full.resolve [0x66] = .ok 1 := rfl
  have hwrite := Tree.overwrite_of_room hleads hnode (by decide) rfl
    (Document.encode "a = b".toList)
  have hbroken := (Tree.overwrite_file hleadsFull hnode (by decide)
    (Document.encode "a = b".toList)).2
  have hshort : (full.shortage? 1).filter (·.bytes < (Document.encode "a = b".toList).size) =
      some { bytes := 2, fault := noSpace } :=
    Option.filter_eq_some_iff.mpr ⟨rfl, by simpa using hsize⟩
  rw [hshort] at hbroken
  dsimp only at hbroken
  rw [hpart] at hbroken
  rw [Tree.formatFile_inPlace (T := T) rfl hformat, hwrite,
    Tree.formatFile_inPlace (T := full) rfl hformat, hbroken]
  exact ⟨⟨hnode, rfl⟩, rfl, rfl, rfl⟩

end Program

end Spacing
