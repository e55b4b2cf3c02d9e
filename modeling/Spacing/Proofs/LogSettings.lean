-- When the log interferes. Neither its setting nor the flag that makes it say more changes what a
-- run prints, how it ends, or what it leaves in the tree, unless the setting ends the program.
import Spacing.Proofs.PreviewRuns
import Spacing.Proofs.ExitStatus

namespace Spacing

/-! ## The flag for more of the log -/

namespace Arguments

/-- A flag for more of the log in front of a command line adds itself and no more. -/
theorem read_verbose_cons {arguments : List Bytes} {a : Arguments}
    (h : read {} arguments = .ok a) (hnew : .verbose ∉ a.flags) :
    read {} (Spelling.shortVerbose.bytes :: arguments) =
      .ok { a with flags := .verbose :: a.flags } := by
  have hnodup := nodup_flags_of_read h List.nodup_nil
  have hread : (reading [] []).read arguments = .ok a := h
  obtain ⟨w, rfl, rfl⟩ := exists_bytes_of_read hread
  exact read_bytes { w with front := .shortVerbose :: w.front } (List.nodup_cons.mpr ⟨hnew, hnodup⟩)

theorem parse_verbose_cons {arguments : List Bytes} {a : Arguments}
    (h : parse arguments = .ok a) (hquiet : a.has .verbose = false) :
    parse (Spelling.shortVerbose.bytes :: arguments) =
      .ok { a with flags := .verbose :: a.flags } := by
  obtain ⟨hread, hconflict⟩ := parse_eq_ok_iff.mp h
  have hnew : .verbose ∉ a.flags := by simpa [has] using hquiet
  exact parse_eq_ok_iff.mpr ⟨read_verbose_cons hread hnew, hconflict⟩

end Arguments

namespace Program

theorem writeMode_verbose_cons (a : Arguments) :
    writeMode { a with flags := .verbose :: a.flags } = writeMode a := by
  simp [writeMode, Arguments.has]

/-! ## Runs that differ in their log -/

/-- The two runs end alike: with the same status, the same output, the same tree, and after a write
to the same file. Only their logs may differ. -/
structure SameWork (r s : Run) : Prop where
  exit : r.answer.exit = s.answer.exit
  stdout : r.answer.stdout = s.answer.stdout
  tree : r.tree = s.tree
  opened? : r.opened? = s.opened?
  written? : r.written? = s.written?

/-- Of a job, an answer shows the path and the mode beside the log. -/
theorem answer_log_free {j k : Job} (hpath : j.path = k.path) (hmode : j.mode = k.mode) (c : Call) :
    (answer j c).exit = (answer k c).exit ∧ (answer j c).stdout = (answer k c).stdout := by
  unfold answer
  rw [hpath, hmode]
  cases c.changed with
  | error e => exact ⟨rfl, rfl⟩
  | ok changed =>
    dsimp only
    split
    · exact ⟨rfl, rfl⟩
    · exact ⟨rfl, rfl⟩

section

variable {T : Tree} {arguments arguments' : List Bytes} {a b : Arguments} {setting setting' : Text}

/-- Two command lines with the same path and the same mode do the same work, whatever their logs
are told, as long as both settings can be read. -/
theorem sameWork_of_parse (ha : Arguments.parse arguments = .ok a)
    (hb : Arguments.parse arguments' = .ok b) (hpath : a.path? = b.path?)
    (hmode : writeMode a = writeMode b) (hsetting : LogFilter.crashes setting = false)
    (hsetting' : LogFilter.crashes setting' = false) :
    SameWork (run T arguments setting) (run T arguments' setting') := by
  by_cases hfile : a.NamesNoFile
  · have hfile' : b.NamesNoFile := by rwa [Arguments.NamesNoFile, ← hpath]
    rw [run_of_namesNoFile ha hfile T hsetting, run_of_namesNoFile hb hfile' T hsetting']
    exact ⟨rfl, rfl, rfl, rfl, rfl⟩
  · obtain ⟨hnone, hempty⟩ := not_or.mp hfile
    obtain ⟨path, hapath⟩ := Option.ne_none_iff_exists'.mp hnone
    have hne : path ≠ [] := fun h => hempty (h ▸ hapath)
    obtain ⟨j, hj, hjpath, hjmode⟩ := job_of_parse ha hapath hne hsetting
    obtain ⟨k, hk, hkpath, hkmode⟩ := job_of_parse hb (hpath ▸ hapath) hne hsetting'
    have hsamePath : j.path = k.path := hjpath.trans hkpath.symm
    have hsameMode : j.mode = k.mode := hjmode.trans (hmode.trans hkmode.symm)
    have hanswer := answer_log_free hsamePath hsameMode (T.formatFile j.path j.mode).call
    rw [run_of_job hj, run_of_job hk, ← hsamePath, ← hsameMode]
    exact ⟨hanswer.1, hanswer.2, rfl, rfl, rfl⟩

/-- They do the same work exactly if the setting ends both or neither. -/
theorem sameWork_iff_of_parse (ha : Arguments.parse arguments = .ok a)
    (hb : Arguments.parse arguments' = .ok b) (hpath : a.path? = b.path?)
    (hmode : writeMode a = writeMode b) :
    SameWork (run T arguments setting) (run T arguments' setting') ↔
      LogFilter.crashes setting = LogFilter.crashes setting' := by
  constructor
  · intro h
    have hcrash : (run T arguments setting).answer.exit = 101 ↔
        (run T arguments' setting').answer.exit = 101 := by rw [h.exit]
    rw [exit_eq_crash_iff, exit_eq_crash_iff, and_iff_left ⟨a, ha⟩, and_iff_left ⟨b, hb⟩] at hcrash
    exact Bool.eq_iff_iff.mpr hcrash
  · intro hsame
    cases hsetting : LogFilter.crashes setting with
    | true =>
      have hsetting' := hsame.symm.trans hsetting
      rw [run_of_crash ha hsetting, run_of_crash hb hsetting']
      exact ⟨rfl, rfl, rfl, rfl, rfl⟩
    | false => exact sameWork_of_parse ha hb hpath hmode hsetting (hsame.symm.trans hsetting)

end

/-! ## The law -/

end Program

end Spacing
