-- A check right after a run in place. It is silent exactly if a second run changes nothing,
-- so the signs that a run joins and the next one tears again are what a check finds.
import Spacing.Proofs.FileCalls
import Spacing.Proofs.Jobs
import Spacing.Proofs.SecondRun

namespace Spacing

open Formatter

/-! ## Calls on a text -/

namespace Tree

theorem formatFile_check {T : Tree} {path : Bytes} {t : Text}
    (h : T.read path = .ok (Document.encode t)) :
    ∃ events, (T.formatFile path .check).call =
      { events, changed := match format t with
          | .error e => .error (.rule e)
          | .ok v => .ok (v != t) } := by
  rw [formatFile, h, Document.plan_encode]
  cases hf : format t with
  | error e => exact ⟨_, by rw [Document.planText_of_error hf]⟩
  | ok v => exact ⟨_, by rw [Document.planText_of_ok hf, Plan.ofMode]⟩

/-- A text in a file that was written in place could be read and formatted, and the result
is what was written. -/
theorem formatted_of_written {T : Tree} {path : Bytes} {id : NodeId} {mode : Nat} {t : Text}
    (hnode : T.node? id = some (.file mode (Document.encode t)))
    (h : (T.formatFile path .inPlace).written? = some id) :
    ∃ v, format t = .ok v ∧
      (T.formatFile path .inPlace).tree.read path = .ok (Document.encode v) := by
  obtain ⟨rights, t', v, file, -, htree⟩ := formatFile_written h
  have hdata := (Node.file.inj (Option.some.inj (hnode.symm.trans file.node))).2
  obtain rfl := Document.encode_inj.mp hdata
  refine ⟨v, file.formatted, ?_⟩
  rw [htree, read_setNode file.leads file.node file.read]

/-- A file that may be read and written is written, if its text can be formatted and stored. -/
theorem written_of_format {T : Tree} {path : Bytes} {id : NodeId} {mode : Nat} {t v : Text}
    (hid : T.resolve path = .ok id) (hnode : T.node? id = some (.file mode (Document.encode t)))
    (hmayRead : mayRead mode = true) (hmayWrite : mayWrite mode = true)
    (hroom : T.shortage? id = none) (h : format t = .ok v) :
    (T.formatFile path .inPlace).written? = some id := by
  have hread : T.read path = .ok (Document.encode t) := by
    simp only [read, hid, hnode, readNode, hmayRead, if_true]
  have hopened := (overwrite_file hid hnode hmayWrite (Document.encode v)).1
  rw [formatFile_inPlace hread h, overwrite_of_room hid hnode hmayWrite hroom, hopened]
  rfl

end Tree

/-! ## The two runs -/

namespace Program

/-- The run printed nothing and signals no change and no failure. -/
def Silent (a : Answer) : Prop := a.exit = 0 ∧ a.stdout = []

theorem silent_answer_iff {j : Job} {c : Call} (hmode : j.mode = .check)
    (hprinted : c.printed = []) : Silent (answer j c) ↔ c.changed = .ok false := by
  unfold Silent answer
  cases hc : c.changed with
  | error e => simp
  | ok changed => cases changed <;> simp [hmode, hprinted]

/-- A check of a file that holds a text is silent exactly if the text is formatted. -/
theorem silent_check_iff {T : Tree} {arguments : List Bytes} {setting : Text} {j : Job}
    (hjob : job arguments setting = .ok j) (hmode : j.mode = .check) {t : Text}
    (hread : T.read j.path = .ok (Document.encode t)) :
    Silent (run T arguments setting).answer ↔ format t = .ok t := by
  obtain ⟨events, hcall⟩ := Tree.formatFile_check hread
  rw [run_of_job hjob, hmode, hcall, silent_answer_iff hmode rfl]
  cases format t with
  | error e => simp
  | ok v => simp

/-- The formatted text stays as it is in a second run exactly if all its runs of equal signs
are settled and the second run stays within the limit. Exactly then a check of a file is
silent right after the file was formatted in place. -/
theorem a_check_after_a_run_is_silent_exactly_on_settled_texts (t v : Text)
    (h : format t = .ok v) :
    (format v = .ok v ↔ (∀ r ∈ equalRuns v, r.Settled) ∧ price v ≤ maxBacktracks) ∧
    ∀ (T : Tree) (id : NodeId) (mode : Nat) (arguments checkArguments : List Bytes)
      (setting checkSetting : Text) (j k : Job),
      T.node? id = some (.file mode (Document.encode t)) →
      job arguments setting = .ok j → j.mode = .inPlace →
      (run T arguments setting).written? = some id →
      job checkArguments checkSetting = .ok k → k.mode = .check → k.path = j.path →
      (Silent (run (run T arguments setting).tree checkArguments checkSetting).answer ↔
        (∀ r ∈ equalRuns v, r.Settled) ∧ price v ≤ maxBacktracks) := by
  refine ⟨format_format_eq_iff h, ?_⟩
  intro T id mode arguments checkArguments setting checkSetting j k hnode hj hjmode hwritten hk
    hkmode hpath
  rw [run_of_job hj, hjmode] at hwritten ⊢
  obtain ⟨v', hv', hread⟩ := Tree.formatted_of_written hnode hwritten
  obtain rfl : v = v' := Except.ok.inj (h.symm.trans hv')
  rw [← hpath] at hread
  rw [← hpath, silent_check_iff hk hkmode hread]
  exact format_format_eq_iff h

/-- A working folder with one file, whose name is the letter f. -/
def oneFile (t : Text) : Tree :=
  { here := Tree.root
    nodes := [.folder 0o755 Tree.root [([0x66], 1)], .file 0o644 (Document.encode t)] }

/-- The first run leaves three signs in a row, and the check finds that a second one would
tear them. -/
theorem a_check_after_a_run_finds_three_signs_in_a_row :
    format "a===b".toList = .ok "a === b".toList ∧
      (run (oneFile "a===b".toList) [[0x66]] []).written? = some 1 ∧
      ¬ Silent (run (run (oneFile "a===b".toList) [[0x66]] []).tree
        [Bytes.ofString "--check", [0x66]] []).answer := by
  have hformat : format "a===b".toList = .ok "a === b".toList := by decide
  have hparse : Arguments.parse [[0x66]] = .ok { path? := some [0x66] } := by decide +kernel
  have hparseCheck : Arguments.parse [Bytes.ofString "--check", [0x66]] =
      .ok { flags := [.check], path? := some [0x66] } := by decide +kernel
  obtain ⟨j, hj, hpath, hmode⟩ := job_of_parse hparse rfl (by decide) LogFilter.crashes_nil
  obtain ⟨k, hk, hcheckPath, hcheckMode⟩ :=
    job_of_parse hparseCheck rfl (by decide) LogFilter.crashes_nil
  have hnode : (oneFile "a===b".toList).node? 1 =
      some (.file 0o644 (Document.encode "a===b".toList)) := rfl
  have hwritten : (run (oneFile "a===b".toList) [[0x66]] []).written? = some 1 := by
    rw [run_of_job hj, hpath, hmode]
    exact Tree.written_of_format rfl hnode (by decide) (by decide) rfl hformat
  refine ⟨hformat, hwritten, ?_⟩
  have hlaw := a_check_after_a_run_is_silent_exactly_on_settled_texts _ _ hformat
  have hcheck := hlaw.2 _ _ _ _ _ _ _ j k hnode hj hmode hwritten hk hcheckMode
    (hcheckPath.trans hpath.symm)
  rw [hcheck]
  rintro ⟨hsettled, -⟩
  exact absurd hsettled (by decide)

end Program

end Spacing
