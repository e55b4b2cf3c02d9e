-- Which level decides about an event. A run adds a directive of its own for all events, and this
-- takes the place of the one in the setting of the log. So the level that the setting names for all
-- events has no effect, and only its directives for some targets have.
import Spacing.Proofs.FileFrame

namespace Spacing

theorem Event.level_eq_error_or_debug (e : Event) : e.level = .error ∨ e.level = .debug := by
  cases e with
  | failed message path => exact .inl rfl
  | ignoringArguments _ | readDocument _ _ | changedText _ | wroteDocument _ _ => exact .inr rfl

namespace LogFilter

/-! ## Directives of a setting -/

/-- The directives in a setting, in the order in which they stand. -/
def directives (setting : Text) : List Directive :=
  (pieces setting).filterMap fun p => (Directive.read p).toOption

theorem ofText_eq (setting : Text) : ofText setting = (directives setting).foldl add [] := rfl

theorem mem_add {f : LogFilter} {d d' : Directive} (h : d' ∈ add f d) : d' ∈ f ∨ d' = d := by
  unfold add at h
  rcases List.mem_append.mp h with hf | hd
  · exact .inl (List.mem_of_mem_filter hf)
  · exact .inr (List.mem_singleton.mp hd)

theorem mem_foldl_add {f : LogFilter} {ds : List Directive} {d : Directive}
    (h : d ∈ ds.foldl add f) : d ∈ f ∨ d ∈ ds := by
  induction ds generalizing f with
  | nil => exact .inl h
  | cons d' ds ih =>
    rcases ih h with hf | hds
    · rcases mem_add hf with hf | rfl
      · exact .inl hf
      · exact .inr List.mem_cons_self
    · exact .inr (List.mem_cons_of_mem d' hds)

theorem mem_directives_of_mem_ofText {setting : Text} {d : Directive} (h : d ∈ ofText setting) :
    d ∈ directives setting := by
  rw [ofText_eq] at h
  rcases mem_foldl_add h with hnil | hd
  · cases hnil
  · exact hd

/-! ## The deciding directive -/

theorem covers_all (e : Event) : Scope.covers {} e = true := by
  simp [Scope.covers]

/-- A directive for all events decides if no other directive has the event in its scope. -/
theorem deciding?_add {f : LogFilter} {level : Level} {e : Event}
    (h : ∀ d ∈ f, d.scope ≠ {} → d.scope.covers e = false) :
    (add f { scope := {}, level }).deciding? e = some { scope := {}, level } := by
  have hothers : (f.filter (·.scope != {})).filter (·.scope.covers e) = [] := by
    rw [List.filter_eq_nil_iff]
    intro d hd
    obtain ⟨hf, hscope⟩ := List.mem_filter.mp hd
    simp [h d hf (bne_iff_ne.mp hscope)]
  simp [deciding?, add, hothers, covers_all, narrower]

/-- The level of the directive that a run adds. -/
def runLevel (verbose : Bool) : Level := if verbose then .debug else .warn

theorem shows_ofRun {setting : Text} {verbose : Bool} {e : Event}
    (h : ∀ d ∈ directives setting, d.scope ≠ {} → d.scope.covers e = false) :
    (ofRun setting verbose).shows e = true ↔ e.level.rank ≤ (runLevel verbose).rank := by
  have hdecides : (ofRun setting verbose).deciding? e =
      some { scope := {}, level := runLevel verbose } :=
    deciding?_add fun d hd => h d (mem_directives_of_mem_ofText hd)
  rw [shows, hdecides, decide_eq_true_eq]

theorem not_covers_of_target {s : Scope} {target : Text} (hs : s.target? = some target) {e : Event}
    (h : target.isPrefixOf e.target.toList = false) : s.covers e = false := by
  simp [Scope.covers, hs, h]

end LogFilter

namespace Program

/-- A setting that names one level for all events names it without effect: an event outside the
targets of its other directives is shown exactly within the level of the run. So the level of the
setting is kept only where it says the same: for each event that it shows under the flag for more of
the log, and otherwise for an error unless it is off, and for the rest if it is below theirs. -/
theorem the_level_of_a_run_takes_the_place_of_that_of_the_setting (setting : Text) (L : Level)
    (arguments : List Bytes) (a : Arguments) (j : Job) (e : Event)
    (hplain : (LogFilter.directives setting).filter (·.scope.target?.isNone) =
      [{ scope := {}, level := L }])
    (hother : ∀ d ∈ LogFilter.directives setting, ∀ target, d.scope.target? = some target →
      target.isPrefixOf e.target.toList = false)
    (hparse : Arguments.parse arguments = .ok a) (hjob : job arguments setting = .ok j) :
    (j.filter.shows e = true ↔
      e.level.rank ≤ (LogFilter.runLevel (a.has .verbose)).rank) ∧
    ((j.filter.shows e = true ↔ e.level.rank ≤ L.rank) ↔
      if a.has .verbose then e.level.rank ≤ L.rank
      else e.level = .error ∧ L ≠ .off ∨ e.level = .debug ∧ L.rank < Level.debug.rank) := by
  have hoverall : ∀ d ∈ LogFilter.directives setting, d.scope ≠ {} → d.scope.covers e = false := by
    intro d hd hscope
    cases htarget : d.scope.target? with
    | some target => exact LogFilter.not_covers_of_target htarget (hother d hd target htarget)
    | none =>
      have hmem : d ∈ (LogFilter.directives setting).filter (·.scope.target?.isNone) :=
        List.mem_filter.mpr ⟨hd, by rw [htarget, Option.isNone_none]⟩
      rw [hplain, List.mem_singleton] at hmem
      exact absurd (congrArg Directive.scope hmem) hscope
  have hshows : j.filter.shows e = true ↔
      e.level.rank ≤ (LogFilter.runLevel (a.has .verbose)).rank := by
    obtain ⟨a', hfrom⟩ := comesFrom_of_job hjob
    obtain rfl : a = a' := Except.ok.inj (hparse.symm.trans hfrom.parse)
    rw [hfrom.filter, LogFilter.shows_ofRun hoverall]
  refine ⟨hshows, ?_⟩
  rw [hshows]
  cases a.has .verbose with
  | true =>
    -- The flag shows every event.
    have hall : e.level.rank ≤ (LogFilter.runLevel true).rank := by
      rcases e.level_eq_error_or_debug with h | h <;> rw [h] <;> decide
    simp [hall]
  | false =>
    rcases e.level_eq_error_or_debug with h | h <;> rw [h] <;> cases L <;> decide

/-- The log is turned off but for the file, and an error of the program is shown all the same. -/
theorem a_log_that_is_off_shows_that_a_file_is_missing :
    let T := oneFile "a==b".toList
    let setting := "off,opspace::file=trace".toList
    let message := "could not read g: No such file or directory (os error 2)"
    let error := Event.failed message [0x67]
    ∃ j, job [[0x67]] setting = .ok j ∧
      (LogFilter.directives setting).filter (·.scope.target?.isNone) =
        [{ scope := {}, level := .off }] ∧
      j.filter.shows error = true ∧ ¬ error.level.rank ≤ Level.off.rank ∧
      (run T [[0x67]] setting).answer.stderr =
        ["ERROR opspace::cli: " ++ message ++ " path=g"] := by
  intro T setting message error
  have hparse : Arguments.parse [[0x67]] = .ok { path? := some [0x67] } := by decide +kernel
  have hsetting : LogFilter.crashes setting = false := by decide +kernel
  obtain ⟨j, hj, -, -⟩ := job_of_parse hparse rfl (by decide) hsetting
  have hplain : (LogFilter.directives setting).filter (·.scope.target?.isNone) =
      [{ scope := {}, level := .off }] := by decide +kernel
  have hother : ∀ d ∈ LogFilter.directives setting, ∀ target ∈ d.scope.target?,
      target.isPrefixOf error.target.toList = false := by decide +kernel
  obtain ⟨hshows, -⟩ := the_level_of_a_run_takes_the_place_of_that_of_the_setting setting .off
    [[0x67]] _ j error hplain hother hparse hj
  refine ⟨j, hj, hplain, hshows.mpr (by decide), by decide, ?_⟩
  decide +kernel

end Program

end Spacing
