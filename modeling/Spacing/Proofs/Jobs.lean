-- How a run comes to the file that it formats. It needs a command line that is accepted and names a
-- file, and a setting of the log that can be read. All else is answered at once.
import Spacing.Program

namespace Spacing

namespace Program

/-! ## Runs -/

/-- A run without a file to format leaves the tree as it is. -/
theorem run_of_answer {T : Tree} {arguments : List Bytes} {setting : Text} {a : Answer}
    (h : job arguments setting = .error a) :
    run T arguments setting = { answer := a, tree := T } := by
  rw [run, h]

theorem run_of_job {T : Tree} {arguments : List Bytes} {setting : Text} {j : Job}
    (h : job arguments setting = .ok j) :
    run T arguments setting =
      { answer := answer j (T.formatFile j.path j.mode).call
        tree := (T.formatFile j.path j.mode).tree
        opened? := (T.formatFile j.path j.mode).opened?
        written? := (T.formatFile j.path j.mode).written? } := by
  rw [run, h]

/-! ## Where a job comes from -/

section

variable {arguments : List Bytes} {a : Arguments} {path : Bytes} {setting : Text} {j : Job}

theorem job_eq (h : Arguments.parse arguments = .ok a) (hpath : a.path? = some path)
    (hne : path ≠ []) (hsetting : LogFilter.crashes setting = false) :
    job arguments setting = .ok
      { path, mode := writeMode a, filter := LogFilter.ofRun setting (a.has .verbose)
        complaints := LogFilter.complaints setting, ignored := a.rest.length } := by
  have hfilter : a.path?.filter (!·.isEmpty) = some path := by simp [hpath, hne]
  simp only [job, h, hsetting, hfilter]
  rfl

theorem job_of_parse (h : Arguments.parse arguments = .ok a) (hpath : a.path? = some path)
    (hne : path ≠ []) (hsetting : LogFilter.crashes setting = false) :
    ∃ j, job arguments setting = .ok j ∧ j.path = path ∧ j.mode = writeMode a :=
  ⟨_, job_eq h hpath hne hsetting, rfl, rfl⟩

/-- Where a job comes from: the file to format is the path of the command line, it is formatted as
the flags say, and the setting of the log was read by then. -/
structure ComesFrom (arguments : List Bytes) (setting : Text) (a : Arguments) (j : Job) : Prop where
  parse : Arguments.parse arguments = .ok a
  path : a.path? = some j.path
  reads : LogFilter.crashes setting = false
  mode : j.mode = writeMode a
  filter : j.filter = LogFilter.ofRun setting (a.has .verbose)

theorem comesFrom_of_job (h : job arguments setting = .ok j) :
    ∃ a, ComesFrom arguments setting a j := by
  unfold job at h
  split at h
  · cases h
  · rename_i a ha
    dsimp only at h
    split at h
    · cases h
    · rename_i hsetting
      split at h
      · cases h
      · rename_i path hpath
        cases h
        rw [Option.filter_eq_some_iff] at hpath
        exact ⟨a, ha, hpath.1, Bool.eq_false_iff.mpr hsetting, rfl, rfl⟩

end

end Program

end Spacing
