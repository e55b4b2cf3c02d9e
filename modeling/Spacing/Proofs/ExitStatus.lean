-- What the exit status says: 2 that the command line was refused, 101 that the setting of the log
-- ended the program, 1 that no file was named or that a check found a change, and 0 all else. A
-- call that fails exits with 0 like one that went well, and only its message tells the two apart.
import Spacing.Proofs.FileFrame
import Spacing.Proofs.SettingCrashes

namespace Spacing

open Formatter

/-! ## Checks -/

namespace Tree

/-- A check goes well exactly on a file that can be read, is a text and can be formatted. -/
theorem formatFile_check_eq_ok_iff {T : Tree} {path : Bytes} {changed : Bool} :
    (T.formatFile path .check).call.changed = .ok changed ↔
      ∃ t v, T.read path = .ok (Document.encode t) ∧ format t = .ok v ∧ changed = (v != t) := by
  constructor
  · intro h
    obtain ⟨events, e, hplan⟩ | ⟨t, v, events, hread, hformat, hplan⟩ :=
      Document.plan_cases path .check (T.read path)
    · rw [formatFile, hplan] at h
      cases h
    · rw [formatFile, hplan] at h
      cases h
      exact ⟨t, v, hread, hformat, rfl⟩
  · rintro ⟨t, v, hread, hformat, rfl⟩
    obtain ⟨events, hcall⟩ := formatFile_check hread
    rw [hcall, hformat]

theorem formatFile_check_printed (T : Tree) (path : Bytes) :
    (T.formatFile path .check).call.printed = [] := by
  obtain ⟨events, e, hplan⟩ | ⟨t, v, events, -, -, hplan⟩ :=
    Document.plan_cases path .check (T.read path)
  · rw [formatFile, hplan]
  · rw [formatFile, hplan, Plan.ofMode]

end Tree

/-! ## Answers -/

/-- The command line has no path, or an empty one, which counts as none. -/
def Arguments.NamesNoFile (a : Arguments) : Prop := a.path? = none ∨ a.path? = some []

namespace Program

theorem exit_stopped_eq_two_iff {stop : UsageStop} :
    (stopped stop).exit = 2 ↔ stop ≠ .help ∧ stop ≠ .version := by
  cases stop <;> simp [stopped]

theorem exit_stopped_ne_one (stop : UsageStop) : (stopped stop).exit ≠ 1 := by
  cases stop <;> simp [stopped]

theorem exit_stopped_le_two (stop : UsageStop) : (stopped stop).exit ≤ 2 := by
  cases stop <;> simp [stopped]

/-- The condition under which an answer signals a change. -/
theorem signals_iff {mode : WriteMode} {changed : Bool} :
    (mode == .check && changed) = true ↔ mode = .check ∧ changed = true := by
  rw [Bool.and_eq_true, beq_iff_eq]

theorem exit_answer_eq_one_iff {j : Job} {c : Call} :
    (answer j c).exit = 1 ↔ j.mode = .check ∧ c.changed = .ok true := by
  unfold answer
  cases c.changed with
  | error e => simp
  | ok changed =>
    dsimp only
    split
    · rename_i h
      rw [signals_iff] at h
      simp [h]
    · rename_i h
      rw [signals_iff] at h
      simpa using h

theorem exit_answer_le_one (j : Job) (c : Call) : (answer j c).exit ≤ 1 := by
  unfold answer
  cases c.changed with
  | error e => exact Nat.zero_le 1
  | ok changed =>
    dsimp only
    split
    · exact Nat.le_refl 1
    · exact Nat.zero_le 1

theorem answer_error {j : Job} {c : Call} {e : FormatError} (h : c.changed = .error e) :
    (answer j c).exit = 0 ∧ (answer j c).stdout = c.printed ++ (e.message ++ "\n").toList := by
  simp only [answer, h, and_self]

theorem writeMode_eq_check_iff {a : Arguments} : writeMode a = .check ↔ a.has .check = true := by
  unfold writeMode
  split
  · rename_i h
    simp [h]
  · rename_i h
    split
    · simp [h]
    · simp [h]

/-- A setting that ends the program does so before the file is looked at. -/
theorem run_of_crash {arguments : List Bytes} {a : Arguments}
    (hparse : Arguments.parse arguments = .ok a) {setting : Text}
    (hsetting : LogFilter.crashes setting = true) (T : Tree) :
    run T arguments setting = { answer := crashed setting, tree := T } := by
  apply run_of_answer
  simp only [job, hparse, hsetting, if_true]

/-- Without a file the answer is the same on every tree. -/
theorem run_of_namesNoFile {arguments : List Bytes} {a : Arguments}
    (hparse : Arguments.parse arguments = .ok a) (hfile : a.NamesNoFile) (T : Tree)
    {setting : Text} (hsetting : LogFilter.crashes setting = false) :
    run T arguments setting =
      { answer := { exit := 1, stdout := usageLine.toList,
                    stderr := LogFilter.linesOf (LogFilter.complaints setting) }
        tree := T } := by
  apply run_of_answer
  have hnone : a.path?.filter (!·.isEmpty) = none := by
    obtain h | h := hfile
    all_goals rw [h]; rfl
  simp only [job, hparse, hsetting, hnone]
  rfl

/-- What a run can be. -/
inductive RunEffect (T : Tree) (arguments : List Bytes) (setting : Text) : Prop
  | refused {stop : UsageStop} (parse : Arguments.parse arguments = .error stop)
      (run : run T arguments setting = { answer := stopped stop, tree := T })
  | crashed {a : Arguments} (parse : Arguments.parse arguments = .ok a)
      (crashes : LogFilter.crashes setting = true)
      (run : run T arguments setting = { answer := crashed setting, tree := T })
  | usage {a : Arguments} (parse : Arguments.parse arguments = .ok a)
      (reads : LogFilter.crashes setting = false) (file : a.NamesNoFile)
  | call {a : Arguments} {j : Job} (parse : Arguments.parse arguments = .ok a)
      (reads : LogFilter.crashes setting = false) (file : ¬ a.NamesNoFile)
      (path : a.path? = some j.path) (mode : j.mode = writeMode a)
      (answer : (run T arguments setting).answer = answer j (T.formatFile j.path j.mode).call)

theorem runEffect (T : Tree) (arguments : List Bytes) (setting : Text) :
    RunEffect T arguments setting := by
  cases hparse : Arguments.parse arguments with
  | error stop =>
    refine .refused hparse (run_of_answer ?_)
    rw [job, hparse]
  | ok a =>
    cases hsetting : LogFilter.crashes setting with
    | true => exact .crashed hparse hsetting (run_of_crash hparse hsetting T)
    | false =>
      by_cases hfile : a.NamesNoFile
      · exact .usage hparse hsetting hfile
      · obtain ⟨hnone, hempty⟩ := not_or.mp hfile
        obtain ⟨path, hpath⟩ := Option.ne_none_iff_exists'.mp hnone
        have hne : path ≠ [] := fun h => hempty (h ▸ hpath)
        obtain ⟨j, hj, rfl, hmode⟩ := job_of_parse hparse hpath hne hsetting
        exact .call hparse hsetting hfile hpath hmode (by rw [run_of_job hj])

/-! ## Exit statuses -/

/-- The file of the command line can be read, is a text, and its formatted text is another one. -/
def FindsChange (T : Tree) (a : Arguments) : Prop :=
  ∃ path t v, a.path? = some path ∧ T.read path = .ok (Document.encode t) ∧ format t = .ok v ∧
    v ≠ t

variable {T : Tree} {arguments : List Bytes} {setting : Text}

theorem exit_eq_two_iff :
    (run T arguments setting).answer.exit = 2 ↔
      ∃ stop, Arguments.parse arguments = .error stop ∧ stop ≠ .help ∧ stop ≠ .version := by
  cases runEffect T arguments setting with
  | refused hparse hrun => simp [hparse, hrun, exit_stopped_eq_two_iff]
  | crashed hparse hsetting hrun => simp [hparse, hrun, crashed]
  | usage hparse hsetting hfile => simp [hparse, run_of_namesNoFile hparse hfile T hsetting]
  | @call a j hparse hsetting hfile hpath hmode hanswer =>
    have hle := exit_answer_le_one j (T.formatFile j.path j.mode).call
    simp only [hanswer, hparse, reduceCtorEq, false_and, exists_false, iff_false]
    omega

theorem exit_eq_crash_iff :
    (run T arguments setting).answer.exit = 101 ↔
      LogFilter.crashes setting = true ∧ ∃ a, Arguments.parse arguments = .ok a := by
  cases runEffect T arguments setting with
  | @refused stop hparse hrun =>
    have hle : (stopped stop).exit ≤ 2 := exit_stopped_le_two stop
    simp only [hrun, hparse, reduceCtorEq, exists_false, and_false, iff_false]
    omega
  | crashed hparse hsetting hrun => simp [hparse, hsetting, hrun, crashed]
  | usage hparse hsetting hfile =>
    simp [hsetting, run_of_namesNoFile hparse hfile T hsetting]
  | @call a j hparse hsetting hfile hpath hmode hanswer =>
    have hle := exit_answer_le_one j (T.formatFile j.path j.mode).call
    simp only [hanswer, hsetting, Bool.false_eq_true, false_and, iff_false]
    omega

theorem exit_eq_one_iff :
    (run T arguments setting).answer.exit = 1 ↔
      LogFilter.crashes setting = false ∧ ∃ a, Arguments.parse arguments = .ok a ∧
        (a.NamesNoFile ∨ a.has .check = true ∧ FindsChange T a) := by
  cases runEffect T arguments setting with
  | refused hparse hrun => simp [hparse, hrun, exit_stopped_ne_one]
  | crashed hparse hsetting hrun => simp [hsetting, hrun, crashed]
  | usage hparse hsetting hfile =>
    simp [hparse, hsetting, run_of_namesNoFile hparse hfile T hsetting, hfile]
  | @call a j hparse hsetting hfile hpath hmode hanswer =>
    rw [hanswer, exit_answer_eq_one_iff]
    constructor
    · rintro ⟨hcheck, hchanged⟩
      rw [hcheck, Tree.formatFile_check_eq_ok_iff] at hchanged
      obtain ⟨t, v, hread, hformat, hdiffer⟩ := hchanged
      have hflag := writeMode_eq_check_iff.mp (hmode ▸ hcheck)
      refine ⟨hsetting, a, hparse, Or.inr ⟨hflag, ?_⟩⟩
      exact ⟨j.path, t, v, hpath, hread, hformat, bne_iff_ne.mp hdiffer.symm⟩
    · rintro ⟨-, a', ha', hcase⟩
      obtain rfl : a = a' := Except.ok.inj (hparse.symm.trans ha')
      obtain hnone | ⟨hcheck, path, t, v, hpath', hread, hformat, hdiffer⟩ := hcase
      · exact absurd hnone hfile
      · obtain rfl : j.path = path := Option.some.inj (hpath.symm.trans hpath')
        have hmodeCheck : j.mode = .check := hmode.trans (writeMode_eq_check_iff.mpr hcheck)
        refine ⟨hmodeCheck, ?_⟩
        rw [hmodeCheck, Tree.formatFile_check_eq_ok_iff]
        exact ⟨t, v, hread, hformat, (bne_iff_ne.mpr hdiffer).symm⟩

theorem exit_le_two_or_crash :
    (run T arguments setting).answer.exit ≤ 2 ∨ (run T arguments setting).answer.exit = 101 := by
  cases runEffect T arguments setting with
  | @refused stop hparse hrun =>
    rw [hrun]
    exact Or.inl (exit_stopped_le_two stop)
  | crashed hparse hsetting hrun =>
    rw [hrun]
    exact Or.inr rfl
  | usage hparse hsetting hfile =>
    rw [run_of_namesNoFile hparse hfile T hsetting]
    exact Or.inl (Nat.le_succ 1)
  | @call a j hparse hsetting hfile hpath hmode hanswer =>
    rw [hanswer]
    exact Or.inl (Nat.le_succ_of_le (exit_answer_le_one j _))

/-- The answer of a check, told by its call. -/
theorem answer_of_check {a : Arguments} {path : Bytes}
    (hparse : Arguments.parse arguments = .ok a) (hcheck : a.has .check = true)
    (hpath : a.path? = some path) (hne : path ≠ []) (T : Tree) {setting : Text}
    (hsetting : LogFilter.crashes setting = false) :
    ∃ j, j.mode = .check ∧
      (run T arguments setting).answer = answer j (T.formatFile path .check).call := by
  obtain ⟨j, hj, hjpath, hmode⟩ := job_of_parse hparse hpath hne hsetting
  rw [writeMode_eq_check_iff.mpr hcheck] at hmode
  exact ⟨j, hmode, by rw [run_of_job hj, hjpath, hmode]⟩

/-- A check that exits with 0 prints something exactly if its call failed. -/
theorem noisy_answer_iff {j : Job} {c : Call} (hmode : j.mode = .check)
    (hprinted : c.printed = []) :
    (answer j c).exit = 0 ∧ (answer j c).stdout ≠ [] ↔ ∃ e, c.changed = .error e := by
  cases hc : c.changed with
  | error e =>
    obtain ⟨hexit, hstdout⟩ := answer_error (j := j) hc
    simp [hexit, hstdout]
  | ok changed =>
    cases changed with
    | false => simp [answer, hc, hprinted]
    | true => simp [answer, hc, hmode]

/-! ## The law -/

end Program

end Spacing
