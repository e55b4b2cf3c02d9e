-- What the log of a run tells when it shows all events. It is an account of the run: which
-- arguments were ignored, what was read, which rules changed the text, what was written and what
-- failed, in this order and nothing else.
import Spacing.Proofs.ExitStatus
import Spacing.Proofs.LogPrecedence

namespace Spacing

open Formatter

/-! ## The account of a run -/

/-- The text of the file that a path leads to, if it can be read and holds one. -/
def Tree.text? (T : Tree) (path : Bytes) : Option Text :=
  match T.read path with
  | .error _ => none
  | .ok data => (String.fromUTF8? data).map String.toList

namespace Formatter

/-- The rules that change a text, each on what the one before it left, up to the first one that
fails. -/
def turnEvents : List Rule → Text → List Event
  | [], _ => []
  | r :: rules, t =>
    match r.apply t with
    | .error _ => []
    | .ok u => (if u = t then [] else [.changedText r.name]) ++ turnEvents rules u

end Formatter

namespace Program

/-- The size of the text that was read, and the rules that changed it. -/
def readEvents (T : Tree) (path : Bytes) : List Event :=
  match T.text? path with
  | none => []
  | some t => .readDocument path (Document.encode t).size :: turnEvents Rule.table t

/-- A write that went well, with the change that the call gives back. -/
def wroteEvents (path : Bytes) : WriteMode → Except FormatError Bool → List Event
  | .inPlace, .ok changed => [.wroteDocument path changed]
  | _, _ => []

/-- The failure of the call, with its message. -/
def failureEvents (path : Bytes) : Except FormatError Bool → List Event
  | .error e => [.failed e.message path]
  | .ok _ => []

/-- What the outcome of a run for a file is. -/
def outcome (T : Tree) (a : Arguments) (path : Bytes) : Except FormatError Bool :=
  (T.formatFile path (writeMode a)).call.changed

/-- The account of a run for a file. -/
def account (T : Tree) (a : Arguments) (path : Bytes) : List Event :=
  (if a.rest = [] then [] else [.ignoringArguments a.rest.length]) ++
    readEvents T path ++
    wroteEvents path (writeMode a) (outcome T a path) ++
    failureEvents path (outcome T a path)

end Program

/-! ## Turns -/

namespace Formatter

theorem turnEvents_cons_error {r : Rule} {rules : List Rule} {t : Text} {e : RuleError}
    (h : r.apply t = .error e) : turnEvents (r :: rules) t = [] := by
  simp only [turnEvents, h]

theorem turnEvents_cons_ok {r : Rule} {rules : List Rule} {t u : Text} (h : r.apply t = .ok u) :
    turnEvents (r :: rules) t =
      (if u = t then [] else [.changedText r.name]) ++ turnEvents rules u := by
  simp only [turnEvents, h]

theorem mem_turnEvents_cons_ok {r : Rule} {rules : List Rule} {t u : Text} {e : Event}
    (h : r.apply t = .ok u) :
    e ∈ turnEvents (r :: rules) t ↔ u ≠ t ∧ e = .changedText r.name ∨ e ∈ turnEvents rules u := by
  rw [turnEvents_cons_ok h, List.mem_append]
  by_cases hsame : u = t
  · simp [hsame]
  · simp [hsame]

theorem changes_run (rules : List Rule) (t : Text) :
    Document.changes (Chain.run Rule.apply rules t).stages = turnEvents rules t := by
  induction rules generalizing t with
  | nil => rfl
  | cons r rules ih =>
    simp only [Chain.run, turnEvents]
    cases r.apply t with
    | error e => rfl
    | ok u =>
      have hrest := ih u
      simp only [Document.changes] at hrest ⊢
      by_cases hsame : u = t
      · rw [if_pos hsame, ← hrest, List.filter_cons_of_neg (by simp [Stage.changed, hsame])]
        rfl
      · rw [if_neg hsame, ← hrest, List.filter_cons_of_pos (by simp [Stage.changed, hsame])]
        rfl

/-- Only a rule of the list is told. -/
theorem exists_rule_of_mem_turnEvents {rules : List Rule} {t : Text} {e : Event}
    (h : e ∈ turnEvents rules t) : ∃ r ∈ rules, e = .changedText r.name := by
  induction rules generalizing t with
  | nil => cases h
  | cons r rules ih =>
    cases hr : r.apply t with
    | error _ =>
      rw [turnEvents_cons_error hr] at h
      cases h
    | ok u =>
      rcases (mem_turnEvents_cons_ok hr).mp h with ⟨-, he⟩ | hlater
      · exact ⟨r, List.mem_cons_self, he⟩
      · obtain ⟨r', hr', he⟩ := ih hlater
        exact ⟨r', List.mem_cons_of_mem r hr', he⟩

/-- The second operator pass has nothing to do, so it is never told. -/
theorem leadingSpace_not_mem_turnEvents (t : Text) :
    .changedText Rule.operatorLeadingSpace.name ∉ turnEvents Rule.table t := by
  intro h
  cases hfirst : Rule.operatorSpacing.apply t with
  | error _ =>
    rw [Rule.table, turnEvents_cons_error hfirst] at h
    cases h
  | ok u =>
    rw [Rule.table, mem_turnEvents_cons_ok hfirst] at h
    obtain ⟨-, rfl⟩ := Rule.apply_eq_ok_iff.mp hfirst
    -- What the first pass leaves has no operator between solid characters.
    have hsecond :=
      Rule.apply_of_absent (r := Rule.operatorLeadingSpace) rfl (absent_after_spacing t)
    rcases h with ⟨-, hname⟩ | h
    · exact absurd hname (by decide)
    · split at hsecond
      · rw [turnEvents_cons_error hsecond] at h
        cases h
      · rcases (mem_turnEvents_cons_ok hsecond).mp h with ⟨hne, -⟩ | hlater
        · exact hne rfl
        · obtain ⟨r, hr, hname⟩ := exists_rule_of_mem_turnEvents hlater
          have hothers : ∀ r ∈ [Rule.commaSpacing, Rule.commaLineEnd, Rule.doubleEqualsRepair],
              Event.changedText Rule.operatorLeadingSpace.name ≠ .changedText r.name := by decide
          exact hothers r hr hname

/-- If no rule changed the text, it is the same after all turns. -/
theorem eq_of_turnEvents_eq_nil {rules : List Rule} {t v : Text} (h : applyAll rules t = .ok v)
    (hnone : turnEvents rules t = []) : v = t := by
  induction rules generalizing t with
  | nil => exact (Except.ok.inj h).symm
  | cons r rules ih =>
    cases hr : r.apply t with
    | error e =>
      rw [applyAll_cons_error hr] at h
      cases h
    | ok u =>
      rw [applyAll_cons_ok hr] at h
      rw [turnEvents_cons_ok hr, List.append_eq_nil_iff] at hnone
      obtain ⟨hhere, hlater⟩ := hnone
      have hsame : u = t := by
        by_contra hne
        rw [if_neg hne] at hhere
        cases hhere
      exact (ih h hlater).trans hsame

end Formatter

/-! ## Calls -/

namespace Document

theorem changes_trace (t : Text) : changes (trace t).stages = turnEvents Rule.table t :=
  changes_run Rule.table t

end Document

namespace Tree

theorem text?_eq_some_iff {T : Tree} {path : Bytes} {t : Text} :
    T.text? path = some t ↔ T.read path = .ok (Document.encode t) := by
  unfold text?
  cases T.read path with
  | error f => simp
  | ok data =>
    rw [Except.ok.injEq, Option.map_eq_some_iff]
    constructor
    · rintro ⟨s, hs, rfl⟩
      exact Document.eq_encode_of_fromUTF8? hs
    · rintro rfl
      exact ⟨_, Document.fromUTF8?_encode t, String.toList_ofList⟩

/-- Without a text nothing is planned but the report of a failure. -/
theorem plan_of_text?_eq_none {T : Tree} {path : Bytes} (h : T.text? path = none)
    (mode : WriteMode) :
    ∃ e, Document.plan path mode (T.read path) =
      .finish { events := [], changed := .error e } := by
  unfold text? at h
  unfold Document.plan
  cases hread : T.read path with
  | error f => exact ⟨_, rfl⟩
  | ok data =>
    rw [hread] at h
    have hs : String.fromUTF8? data = none := Option.map_eq_none_iff.mp h
    simp only [hs]
    exact ⟨_, rfl⟩

section

variable {T : Tree} {path : Bytes} {t v : Text}

theorem plan_of_format_error {e : RuleError} (htext : T.text? path = some t)
    (hf : format t = .error e) (mode : WriteMode) :
    Document.plan path mode (T.read path) =
      .finish { events := Program.readEvents T path, changed := .error (.rule e) } := by
  rw [text?_eq_some_iff.mp htext, Document.plan_encode, Document.planText_of_error hf,
    Document.changes_trace, Program.readEvents, htext]

theorem plan_of_format_ok (htext : T.text? path = some t) (hf : format t = .ok v)
    (mode : WriteMode) :
    Document.plan path mode (T.read path) =
      .ofMode (Program.readEvents T path) (v != t) v mode := by
  rw [text?_eq_some_iff.mp htext, Document.plan_encode, Document.planText_of_ok hf,
    Document.changes_trace, Program.readEvents, htext]

/-- The call in place for a text that can be formatted ends with its write. -/
theorem formatFile_inPlace_of_text (htext : T.text? path = some t) (hf : format t = .ok v) :
    T.formatFile path .inPlace =
      .ofWrite path (Program.readEvents T path) (v != t) (T.opened? path)
        (T.overwrite path (Document.encode v)) := by
  rw [formatFile_inPlace (text?_eq_some_iff.mp htext) hf, Document.changes_trace,
    Program.readEvents, htext]

end

/-- The events of a call: what was read and changed, and what was written. -/
theorem events_formatFile (T : Tree) (path : Bytes) (mode : WriteMode) :
    (T.formatFile path mode).call.events = Program.readEvents T path ++
      Program.wroteEvents path mode (T.formatFile path mode).call.changed := by
  cases htext : T.text? path with
  | none =>
    have hnone : Program.readEvents T path = [] := by rw [Program.readEvents, htext]
    obtain ⟨e, hplan⟩ := plan_of_text?_eq_none htext mode
    rw [formatFile, hplan, hnone]
    cases mode <;> rfl
  | some t =>
    cases hf : format t with
    | error e =>
      rw [formatFile, plan_of_format_error htext hf]
      cases mode <;> exact (List.append_nil _).symm
    | ok v =>
      cases mode with
      | inPlace =>
        rw [formatFile_inPlace_of_text htext hf]
        cases T.overwrite path (Document.encode v) with
        | error w => exact (List.append_nil _).symm
        | ok U => rfl
      | stdout | check =>
        rw [formatFile, plan_of_format_ok htext hf]
        exact (List.append_nil _).symm

/-- A call that goes well read a text and formatted it. -/
theorem exists_text_of_changed_eq_ok {T : Tree} {path : Bytes} {mode : WriteMode} {changed : Bool}
    (h : (T.formatFile path mode).call.changed = .ok changed) :
    ∃ t v, T.text? path = some t ∧ format t = .ok v ∧ changed = (v != t) := by
  obtain ⟨events, e, hplan⟩ | ⟨t, v, events, hread, hf, hplan⟩ :=
    Document.plan_cases path mode (T.read path)
  · rw [formatFile, hplan] at h
    cases h
  · refine ⟨t, v, text?_eq_some_iff.mpr hread, hf, ?_⟩
    rw [formatFile, hplan] at h
    cases mode with
    | stdout | check => exact (Except.ok.inj h).symm
    | inPlace =>
      simp only [Plan.ofMode] at h
      cases hover : T.overwrite path (Document.encode v) with
      | error w =>
        rw [hover] at h
        cases h
      | ok U =>
        rw [hover] at h
        exact (Except.ok.inj h).symm

/-- A call in place goes well exactly if the file holds a text that can be formatted, and the
formatted text can be written to it. -/
theorem formatFile_inPlace_eq_ok_iff {T : Tree} {path : Bytes} {changed : Bool} :
    (T.formatFile path .inPlace).call.changed = .ok changed ↔
      ∃ t v U, T.text? path = some t ∧ format t = .ok v ∧
        T.overwrite path (Document.encode v) = .ok U ∧ changed = (v != t) := by
  constructor
  · intro h
    obtain ⟨t, v, htext, hf, hchanged⟩ := exists_text_of_changed_eq_ok h
    rw [formatFile_inPlace_of_text htext hf] at h
    cases hover : T.overwrite path (Document.encode v) with
    | error w =>
      rw [hover] at h
      cases h
    | ok U => exact ⟨t, v, U, htext, hf, hover, hchanged⟩
  · rintro ⟨t, v, U, htext, hf, hover, rfl⟩
    rw [formatFile_inPlace_of_text htext hf, hover]
    rfl

end Tree

/-! ## Runs -/

/-- The event names a rule: as the one that changed the text, or in its message. -/
def Event.Names (e : Event) (rule : String) : Prop :=
  e = .changedText rule ∨ rule.toList <:+: e.message.toList

namespace Program

theorem stderr_answer (j : Job) (c : Call) :
    (answer j c).stderr = LogFilter.linesOf (j.complaints ++ j.filter.texts (events j c)) := by
  unfold answer
  cases c.changed with
  | error e => rfl
  | ok changed =>
    dsimp only
    split
    · rfl
    · rfl

/-- With the flag for more of the log and no setting, every event is shown. -/
theorem texts_ofRun_verbose (es : List Event) :
    (LogFilter.ofRun [] true).texts es = es.map Event.text := by
  have hshows : ∀ e : Event, (LogFilter.ofRun [] true).shows e = true := by
    intro e
    have hnone : LogFilter.directives [] = [] := by decide
    rw [LogFilter.shows_ofRun (by rw [hnone]; nofun)]
    rcases e.level_eq_error_or_debug with h | h
    · rw [h]
      decide
    · rw [h]
      decide
  rw [LogFilter.texts, List.filter_eq_self.mpr fun e _ => hshows e]

theorem events_eq (j : Job) (c : Call) :
    events j c = ignoring j.ignored ++ c.events ++ failureEvents j.path c.changed := by
  unfold events
  cases c.changed with
  | error e => rfl
  | ok changed => rfl

theorem ignoring_length (rest : List Bytes) :
    ignoring rest.length = if rest = [] then [] else [.ignoringArguments rest.length] := by
  cases rest <;> rfl

section

variable {T : Tree} {arguments : List Bytes} {a : Arguments} {path : Bytes}

/-- The log of a run with the flag for more of it is the account of the run. -/
theorem stderr_eq_account (hparse : Arguments.parse arguments = .ok a)
    (hverbose : a.has .verbose = true) (hpath : a.path? = some path) (hne : path ≠ []) :
    (run T arguments []).answer.stderr =
      LogFilter.linesOf ((account T a path).map Event.text) := by
  have hcomplaints : LogFilter.complaints [] = [] := by decide
  rw [run_of_job (job_eq hparse hpath hne LogFilter.crashes_nil), stderr_answer, hcomplaints,
    hverbose, texts_ofRun_verbose, events_eq, ignoring_length, T.events_formatFile,
    List.nil_append, account, outcome, List.append_assoc _ (readEvents T path)]

/-- A run that fails prints the message of the failure. -/
theorem stdout_of_failure (hparse : Arguments.parse arguments = .ok a)
    (hpath : a.path? = some path) (hne : path ≠ []) {setting : Text}
    (hsetting : LogFilter.crashes setting = false) {e : FormatError}
    (he : outcome T a path = .error e) :
    (run T arguments setting).answer.stdout = (e.message ++ "\n").toList := by
  rw [run_of_job (job_eq hparse hpath hne hsetting)]
  dsimp only
  rw [(answer_error he).2, Tree.printed_of_error he, List.nil_append]

/-- The rules that are told are those that changed the text. -/
theorem changedText_mem_account_iff {rule : String} :
    .changedText rule ∈ account T a path ↔
      ∃ t, T.text? path = some t ∧ .changedText rule ∈ turnEvents Rule.table t := by
  have hignored : .changedText rule ∉
      (if a.rest = [] then [] else [Event.ignoringArguments a.rest.length]) := by
    split <;> simp
  have hwrote : .changedText rule ∉ wroteEvents path (writeMode a) (outcome T a path) := by
    unfold wroteEvents
    split <;> simp
  have hfailed : .changedText rule ∉ failureEvents path (outcome T a path) := by
    unfold failureEvents
    split <;> simp
  simp only [account, List.mem_append, hignored, hwrote, hfailed, false_or, or_false, readEvents]
  cases T.text? path with
  | none => simp
  | some t => simp

/-- Only an error can name the second operator pass. -/
theorem level_of_names_leadingSpace {e : Event} (he : e ∈ account T a path)
    (hnames : e.Names Rule.operatorLeadingSpace.name) : e.level = .error := by
  have hfixed : ∀ message ∈ ["ignoring arguments after the path", "read document",
      "rule rewrote text", "wrote document"],
      ¬ Rule.operatorLeadingSpace.name.toList <:+: message.toList := by decide +kernel
  rcases hnames with rfl | hmessage
  · obtain ⟨t, -, ht⟩ := changedText_mem_account_iff.mp he
    exact absurd ht (leadingSpace_not_mem_turnEvents t)
  · cases e with
    | failed message path => rfl
    | ignoringArguments _ | readDocument _ _ | changedText _ | wroteDocument _ _ =>
      exact absurd hmessage (hfixed _ (by simp [Event.message]))

theorem outcome_of_format_error {t : Text} {e : RuleError} (htext : T.text? path = some t)
    (hf : format t = .error e) : outcome T a path = .error (.rule e) := by
  rw [outcome, Tree.formatFile, Tree.plan_of_format_error htext hf]

/-- A failure is told, with its message. -/
theorem failed_mem_account {e : FormatError} (h : outcome T a path = .error e) :
    .failed e.message path ∈ account T a path := by
  rw [account, h, failureEvents]
  exact List.mem_append_right _ List.mem_cons_self

/-- A run that finds a change tells a rule that made it. -/
theorem exists_changedText_of_changed (h : outcome T a path = .ok true) :
    ∃ rule, .changedText rule ∈ account T a path := by
  obtain ⟨t, v, htext, hf, hchanged⟩ := Tree.exists_text_of_changed_eq_ok h
  have hsome : turnEvents Rule.table t ≠ [] := by
    intro hnone
    obtain rfl := eq_of_turnEvents_eq_nil hf hnone
    simp at hchanged
  obtain ⟨e, he⟩ := List.exists_mem_of_ne_nil _ hsome
  obtain ⟨r, -, rfl⟩ := exists_rule_of_mem_turnEvents he
  exact ⟨r.name, changedText_mem_account_iff.mpr ⟨t, htext, he⟩⟩

end

theorem text?_oneFile (t : Text) : (oneFile t).text? [0x66] = some t :=
  Tree.text?_eq_some_iff.mpr rfl

/-! ## The law -/

/-- With the flag for more of the log and no setting, the log of a run for a file is the account of
the run, in order and with nothing else. A run in place tells of a write exactly if the write went
well. A run that fails tells the message that it prints. The second operator pass is named by no
event but that of a failure, and where a change is found a rule is told that made it. -/
theorem the_log_of_a_verbose_run_is_its_account (T : Tree) (arguments : List Bytes)
    (a : Arguments) (path : Bytes) (hparse : Arguments.parse arguments = .ok a)
    (hverbose : a.has .verbose = true) (hpath : a.path? = some path) (hne : path ≠ []) :
    (run T arguments []).answer.stderr =
      LogFilter.linesOf ((account T a path).map Event.text) ∧
    (writeMode a = .inPlace → ∀ changed, outcome T a path = .ok changed ↔
      ∃ t v U, T.text? path = some t ∧ format t = .ok v ∧
        T.overwrite path (Document.encode v) = .ok U ∧ changed = (v != t)) ∧
    (∀ e, outcome T a path = .error e →
      (run T arguments []).answer.stdout = (e.message ++ "\n").toList) ∧
    (∀ e ∈ account T a path, e.Names Rule.operatorLeadingSpace.name → e.level = .error) ∧
    (outcome T a path = .ok true → ∃ rule, .changedText rule ∈ account T a path) := by
  refine ⟨stderr_eq_account hparse hverbose hpath hne, ?_, ?_, ?_, exists_changedText_of_changed⟩
  · intro hmode changed
    rw [outcome, hmode]
    exact Tree.formatFile_inPlace_eq_ok_iff
  · intro e he
    exact stdout_of_failure hparse hpath hne LogFilter.crashes_nil he
  · intro e he
    exact level_of_names_leadingSpace he

/-- A run in place of four signs in a row, with one more argument. The first pass tears the signs
and the repair joins them again, so two rules are told and no change. -/
theorem two_rules_that_undo_each_other_are_both_told :
    let T := oneFile "a ==== b".toList
    let arguments := [Bytes.ofString "-v", [0x66], [0x67]]
    let a : Arguments := { flags := [.verbose], path? := some [0x66], rest := [[0x67]] }
    Arguments.parse arguments = .ok a ∧ a.has .verbose = true ∧
      outcome T a [0x66] = .ok false ∧
      (run T arguments []).answer.stderr =
        ["DEBUG opspace::cli: ignoring arguments after the path count=1",
          "DEBUG opspace::file: read document path=f bytes=8",
          "DEBUG opspace::format: rule rewrote text rule=\"operator-spacing\"",
          "DEBUG opspace::format: rule rewrote text rule=\"double-equals-repair\"",
          "DEBUG opspace::file: wrote document path=f changed=false"] := by
  intro T arguments a
  have hparse : Arguments.parse arguments = .ok a := by decide +kernel
  obtain ⟨hlog, hwrites, -⟩ :=
    the_log_of_a_verbose_run_is_its_account T arguments a [0x66] hparse rfl rfl (by decide)
  have hformat : format "a ==== b".toList = .ok "a ==== b".toList := by decide
  have houtcome : outcome T a [0x66] = .ok false :=
    (hwrites rfl false).mpr ⟨_, _, _, rfl, hformat, rfl, by decide⟩
  refine ⟨hparse, rfl, houtcome, ?_⟩
  rw [hlog]
  decide +kernel

/-! ## A failure of the second pass -/

/-- An assignment with a word of letters behind its sign. -/
def assignment (n : Nat) : Text := 'a' :: '=' :: 'a' :: List.replicate n 'a'

theorem textCost_assignment (n : Nat) : textCost (assignment n) = 7 * (n + 3) := by
  have hsolid : ∀ c ∈ assignment n, isSolid c = true := by
    intro c hc
    simp only [assignment, List.mem_cons, List.mem_replicate] at hc
    rcases hc with rfl | rfl | rfl | ⟨-, rfl⟩ <;> decide
  rw [textCost_of_solid hsolid]
  simp [assignment]

theorem operator_hits_assignment (n : Nat) : Pattern.operator.hits (assignment n) ≠ [] := by
  have hbefore : (Pattern.operator.attempt none (assignment n)).hit? = none := rfl
  have hletter : Option.any isSolid (some 'a') = true := by decide
  have hsign : Operator.at? (Operator.assign.text ++ 'a' :: List.replicate n 'a') =
      some .assign := rfl
  have hfound := Pattern.operator_hitsFrom_found hletter hsign
  rw [assignment] at hbefore ⊢
  rw [Pattern.hits_eq_hitsFrom, Pattern.hitsFrom_pass Pattern.neverEmpty_operator hbefore]
  exact fun hnone => List.cons_ne_nil _ _ (hfound.symm.trans hnone)

/-- A failure of the second operator pass names it. The text is just cheap enough for the first
pass, and the two blanks make it too dear for the second one. -/
theorem a_failure_names_the_second_operator_pass :
    let T := oneFile (assignment 142854)
    let arguments := [Bytes.ofString "-v", [0x66]]
    let a : Arguments := { flags := [.verbose], path? := some [0x66] }
    let error := Event.failed
      ("rule `operator-leading-space` failed to match: " ++
        "Error executing regex: Max limit for backtracking count exceeded") [0x66]
    Arguments.parse arguments = .ok a ∧ a.has .verbose = true ∧
      (run T arguments []).answer.stderr =
        LogFilter.linesOf ((account T a [0x66]).map Event.text) ∧
      error ∈ account T a [0x66] ∧ error.Names Rule.operatorLeadingSpace.name := by
  intro T arguments a error
  have hparse : Arguments.parse arguments = .ok a := by decide +kernel
  have hcost : 1 + textCost (assignment 142854) = maxBacktracks := by
    rw [textCost_assignment]
    rfl
  have hformat := format_of_full_cost hcost (operator_hits_assignment 142854)
  have houtcome : outcome T a [0x66] = _ := outcome_of_format_error (text?_oneFile _) hformat
  have htold := failed_mem_account houtcome
  have hnames : error.Names Rule.operatorLeadingSpace.name := Or.inr (by decide +kernel)
  exact ⟨hparse, rfl, stderr_eq_account hparse rfl rfl (by decide), htold, hnames⟩

end Program

end Spacing
