-- One file formatted in place again and again. It holds what as many turns of the formatter make
-- of its text, or the first of these texts that cannot be formatted, and then it stays so. What is
-- shown or compared in between makes no difference.
import Mathlib.Data.List.Induction
import Spacing.Proofs.WriteModes
import Spacing.Proofs.PreviewRuns
import Spacing.Proofs.ExitStatus

namespace Spacing

open Formatter

/-! ## Turns in a row -/

theorem Formatter.iterate_zero (t : Text) : (iterate 0 t).result t = .ok t := rfl

/-- One more turn at the end of a chain. -/
theorem Formatter.iterate_succ {times : Nat} {t u v : Text} (h : (iterate times t).result t = .ok u)
    (hf : format u = .ok v) : (iterate (times + 1) t).result t = .ok v := by
  rw [iterate, Chain.result_run] at h ⊢
  rw [List.replicate_succ', List.foldlM_append, h]
  change [()].foldlM (fun u _ => format u) u = _
  rw [List.foldlM_cons, hf]
  rfl

/-! ## Commands -/

namespace Program

/-- One start of the program: its arguments, and the setting of its log. -/
structure Command where
  arguments : List Bytes
  setting : Text := []

namespace Command

/-- The command line, if it is accepted. -/
def parsed? (c : Command) : Option Arguments := (Arguments.parse c.arguments).toOption

/-- The command asks for a write, and the setting of its log can be read. -/
def isInPlace (c : Command) : Bool :=
  !LogFilter.crashes c.setting && c.parsed?.any (writeMode · == .inPlace)

/-- The path that the command names. -/
def path? (c : Command) : Option Bytes := c.parsed?.bind Arguments.path?

def run (c : Command) (T : Tree) : Run := Program.run T c.arguments c.setting

theorem parsed?_eq_some_iff {c : Command} {a : Arguments} :
    c.parsed? = some a ↔ Arguments.parse c.arguments = .ok a := by
  unfold parsed?
  cases Arguments.parse c.arguments <;> simp [Except.toOption]

/-- A command that does not ask for a write leaves the tree as it was. -/
theorem tree_of_not_inPlace {c : Command} (h : c.isInPlace = false) (T : Tree) :
    (c.run T).tree = T := by
  refine (unopened_of_ne_inPlace ?_ T).2.2
  intro j hj hmode
  obtain ⟨a, hfrom⟩ := comesFrom_of_job hj
  rw [isInPlace, hfrom.reads, parsed?_eq_some_iff.mpr hfrom.parse] at h
  simp [← hfrom.mode, hmode] at h

theorem exists_job {c : Command} {path : Bytes} (h : c.isInPlace = true)
    (hpath : c.path? = some path) (hne : path ≠ []) :
    ∃ j, job c.arguments c.setting = .ok j ∧ j.path = path ∧ j.mode = .inPlace := by
  obtain ⟨a, ha, hapath⟩ := Option.bind_eq_some_iff.mp hpath
  have hwrites : LogFilter.crashes c.setting = false ∧ writeMode a = .inPlace := by
    simpa [isInPlace, ha] using h
  rw [← hwrites.2]
  exact job_of_parse (parsed?_eq_some_iff.mp ha) hapath hne hwrites.1

end Command

end Program

/-! ## One run in place -/

namespace Tree.Ordinary

variable {T : Tree} {path : Bytes} {id : NodeId} {t : Text}

/-- No file is reached by an empty path. -/
theorem path_ne_nil {data : ByteArray} (h : T.Ordinary path id data) : path ≠ [] := by
  rintro rfl
  cases h.leads

theorem run_inPlace (h : T.Ordinary path id (Document.encode t)) {v : Text} (hf : format t = .ok v)
    {c : Program.Command} (hc : c.isInPlace = true) (hpath : c.path? = some path) :
    (c.run T).tree.Ordinary path id (Document.encode v) := by
  obtain ⟨j, hj, rfl, hmode⟩ := c.exists_job hc hpath h.path_ne_nil
  rw [Program.Command.run, Program.run_of_job hj, hmode]
  exact (h.formatFile_inPlace hf).2 _ h.leads

/-- The answer to a command that fails on the text of its file. -/
theorem run_inPlace_error (h : T.Ordinary path id (Document.encode t)) {e : RuleError}
    (he : format t = .error e) {c : Program.Command} (hc : c.isInPlace = true)
    (hpath : c.path? = some path) :
    (c.run T).tree = T ∧ (c.run T).answer.exit = 0 ∧
      (c.run T).answer.stdout = ((FormatError.rule e).message ++ "\n").toList := by
  obtain ⟨j, hj, rfl, hmode⟩ := c.exists_job hc hpath h.path_ne_nil
  have hchanged := h.changed_of_refused (.rule rfl he) j.mode
  have hunopened := unopened_of_error hchanged nofun
  obtain ⟨hexit, hstdout⟩ := Program.answer_error (j := j) hchanged
  rw [Program.Command.run, Program.run_of_job hj]
  refine ⟨formatFile_unopened hunopened, hexit, ?_⟩
  rw [hstdout, printed_of_error hchanged, List.nil_append]

end Tree.Ordinary

/-! ## Many runs -/

namespace Program

/-- The tree after some commands, one after another. -/
def afterAll (T : Tree) (commands : List Command) : Tree :=
  commands.foldl (fun U c => (c.run U).tree) T

theorem afterAll_concat (T : Tree) (commands : List Command) (c : Command) :
    afterAll T (commands ++ [c]) = (c.run (afterAll T commands)).tree := by
  rw [afterAll, List.foldl_append]
  rfl

/-- The file holds the text that a number of turns make of `t`. If these are fewer than the runs in
place, no turn is possible on that text. -/
structure Holds (t : Text) (path : Bytes) (id : NodeId) (runs : Nat) (U : Tree) (turns : Nat)
    (u : Text) : Prop where
  reached : (iterate turns t).result t = .ok u
  file : U.Ordinary path id (Document.encode u)
  settled : turns = runs ∨ turns < runs ∧ ∃ e, format u = .error e

variable {t u : Text} {path : Bytes} {id : NodeId} {runs turns : Nat} {U : Tree}

theorem Holds.run_inPlace (h : Holds t path id runs U turns u) {c : Command}
    (hc : c.isInPlace = true) (hpath : c.path? = some path) :
    ∃ turns' u', Holds t path id (runs + 1) (c.run U).tree turns' u' := by
  cases hf : format u with
  | error e =>
    have hle : turns ≤ runs := by
      obtain heq | ⟨hlt, -⟩ := h.settled
      · exact Nat.le_of_eq heq
      · exact Nat.le_of_lt hlt
    rw [(h.file.run_inPlace_error hf hc hpath).1]
    exact ⟨turns, u, h.reached, h.file, Or.inr ⟨Nat.lt_succ_of_le hle, e, hf⟩⟩
  | ok v =>
    obtain rfl : turns = runs := by
      obtain heq | ⟨-, e, he⟩ := h.settled
      · exact heq
      · rw [hf] at he
        cases he
    exact ⟨turns + 1, v, iterate_succ h.reached hf, h.file.run_inPlace hf hc hpath, Or.inl rfl⟩

/-- All commands that ask for a write name this path. -/
def WriteOnlyTo (path : Bytes) (commands : List Command) : Prop :=
  ∀ c ∈ commands, c.isInPlace = true → c.path? = some path

theorem holds_afterAll {T : Tree} (h : T.Ordinary path id (Document.encode t))
    {commands : List Command} (hcommands : WriteOnlyTo path commands) :
    ∃ turns u, Holds t path id (commands.countP Command.isInPlace)
      (afterAll T commands) turns u := by
  induction commands using List.reverseRecOn with
  | nil => exact ⟨0, t, iterate_zero t, h, Or.inl rfl⟩
  | append_singleton commands c ih =>
    obtain ⟨turns, u, hholds⟩ := ih fun d hd => hcommands d (List.mem_append_left _ hd)
    rw [afterAll_concat, List.countP_append, List.countP_singleton]
    cases hc : c.isInPlace with
    | false =>
      rw [c.tree_of_not_inPlace hc]
      exact ⟨turns, u, hholds⟩
    | true => exact hholds.run_inPlace hc (hcommands c (by simp) hc)

/-- A text that cannot be formatted stays, whatever is tried. -/
theorem afterAll_of_error (h : U.Ordinary path id (Document.encode u)) {e : RuleError}
    (he : format u = .error e) {commands : List Command} (hcommands : WriteOnlyTo path commands) :
    afterAll U commands = U := by
  induction commands using List.reverseRecOn with
  | nil => rfl
  | append_singleton commands c ih =>
    rw [afterAll_concat, ih fun d hd => hcommands d (List.mem_append_left _ hd)]
    cases hc : c.isInPlace with
    | false => exact c.tree_of_not_inPlace hc U
    | true => exact (h.run_inPlace_error he hc (hcommands c (by simp) hc)).1

/-! ## The law -/

/-- After any commands of which only those on this path ask for a write, the file holds what as
many turns of the formatter make of its text, or the first of these texts that cannot be
formatted. From then on nothing changes it any more, and every further run in place exits with 0
and prints the same message. -/
theorem runs_in_place_follow_the_turns_of_the_formatter (T : Tree) (path : Bytes) (id : NodeId)
    (t : Text) (h : T.Ordinary path id (Document.encode t)) (commands : List Command)
    (hcommands : WriteOnlyTo path commands) :
    ∃ turns u,
      (iterate turns t).result t = .ok u ∧
      (afterAll T commands).Ordinary path id (Document.encode u) ∧
      (turns = commands.countP Command.isInPlace ∨
        turns < commands.countP Command.isInPlace ∧ ∃ e, format u = .error e) ∧
      ∀ e, format u = .error e → ∀ later, WriteOnlyTo path later →
        afterAll (afterAll T commands) later = afterAll T commands ∧
        ∀ c : Command, c.isInPlace = true → c.path? = some path →
          let r := c.run (afterAll (afterAll T commands) later)
          r.tree = afterAll T commands ∧ r.answer.exit = 0 ∧
            r.answer.stdout = ((FormatError.rule e).message ++ "\n").toList := by
  obtain ⟨turns, u, hholds⟩ := holds_afterAll h hcommands
  refine ⟨turns, u, hholds.reached, hholds.file, hholds.settled, ?_⟩
  intro e he later hlater
  have hsame := afterAll_of_error hholds.file he hlater
  refine ⟨hsame, fun c hc hpath => ?_⟩
  rw [hsame]
  exact hholds.file.run_inPlace_error he hc hpath

/-- Two runs in place with a check of another file between them: the file holds the second turn. -/
theorem two_runs_in_place_take_two_turns :
    let T := oneFile "a===b".toList
    let commands : List Command := [⟨[[0x66]], []⟩,
      ⟨[Bytes.ofString "--check", [0x67]], []⟩, ⟨[Bytes.ofString "-v", [0x66]], []⟩]
    T.Ordinary [0x66] 1 (Document.encode "a===b".toList) ∧
      (afterAll T commands).read [0x66] = .ok (Document.encode "a == = b".toList) := by
  intro T commands
  have hfile : T.Ordinary [0x66] 1 (Document.encode "a===b".toList) :=
    ⟨rfl, ⟨0o644, rfl, by decide, by decide⟩, rfl⟩
  have hcommands : WriteOnlyTo [0x66] commands := by
    unfold WriteOnlyTo
    decide +kernel
  have hcount : commands.countP Command.isInPlace = 2 := by decide +kernel
  have hfirst : format "a===b".toList = .ok "a === b".toList := by decide
  have hsecond : format "a === b".toList = .ok "a == = b".toList := by decide
  obtain ⟨turns, u, hreached, hheld, hturns, -⟩ :=
    runs_in_place_follow_the_turns_of_the_formatter T [0x66] 1 _ hfile commands hcommands
  rw [hcount] at hturns
  have hnone := iterate_zero "a===b".toList
  have hone := iterate_succ hnone hfirst
  have htwo := iterate_succ hone hsecond
  obtain rfl | ⟨hfewer, e, he⟩ := hturns
  · obtain rfl := Except.ok.inj (htwo.symm.trans hreached)
    exact ⟨hfile, hheld.read⟩
  · obtain rfl | rfl : turns = 0 ∨ turns = 1 := by omega
    · obtain rfl := Except.ok.inj (hnone.symm.trans hreached)
      rw [hfirst] at he
      cases he
    · obtain rfl := Except.ok.inj (hone.symm.trans hreached)
      rw [hsecond] at he
      cases he

end Program

end Spacing
