-- The runs of equal signs in a text, and which of them a run of the formatter leaves as they
-- are.
import Spacing.Proofs.EqualSigns

namespace Spacing

abbrev equals (n : Nat) : Text := List.replicate n '='

theorem equals_succ_append (n : Nat) (t : Text) : equals (n + 1) ++ t = '=' :: (equals n ++ t) :=
  rfl

theorem equals_append_sign (n : Nat) (t : Text) :
    equals n ++ '=' :: t = equals (n + 1) ++ t := by
  simp [equals, List.replicate_succ']

/-! ## Runs -/

/-- A run of equal signs: the character before it, the number of its signs, and the text
after it. -/
structure EqualRun where
  behind : Option Char
  size : Nat
  ahead : Text
deriving Repr, DecidableEq

namespace EqualRun

/-- A run that is the last of its chain is a lone sign with a gap on one side at least, or an
even number of signs with a gap on both sides. A run that blanks part from another run is an
even number of four signs or more, with a gap before it. -/
def Settled (r : EqualRun) : Prop :=
  if tornAhead r.ahead = true then
    r.behind.any isSolid = false ∧ 4 ≤ r.size ∧ r.size % 2 = 0
  else
    r.size = 1 ∧ (r.behind.any isSolid && solidAhead r.ahead) = false ∨
      r.size % 2 = 0 ∧ r.behind.any isSolid = false ∧ solidAhead r.ahead = false

instance (r : EqualRun) : Decidable r.Settled := by
  unfold Settled
  infer_instance

/-- The run that ends before a text, if it has a sign. -/
def ending (behind : Option Char) (size : Nat) (ahead : Text) : List EqualRun :=
  if size = 0 then [] else [{ behind, size, ahead }]

end EqualRun

/-- The runs of a text, when `size` signs of a run were passed already. -/
def equalRunsFrom (behind : Option Char) (size : Nat) : Text → List EqualRun
  | [] => EqualRun.ending behind size []
  | c :: t =>
    if c = '=' then equalRunsFrom behind (size + 1) t
    else EqualRun.ending behind size (c :: t) ++ equalRunsFrom (some c) 0 t

/-- The runs of equal signs in a text, from left to right. -/
def equalRuns (t : Text) : List EqualRun := equalRunsFrom none 0 t

theorem equalRunsFrom_other {behind : Option Char} {c : Char} (hc : c ≠ '=') (t : Text) :
    equalRunsFrom behind 0 (c :: t) = equalRunsFrom (some c) 0 t := by
  simp [equalRunsFrom, hc, EqualRun.ending]

theorem equalRunsFrom_run (behind : Option Char) (n size : Nat) {t : Text}
    (ht : t.head? ≠ some '=') (hpos : n + size ≠ 0) :
    equalRunsFrom behind size (equals n ++ t) =
      { behind, size := n + size, ahead := t } :: equalRunsFrom (some '=') 0 t := by
  induction n generalizing size with
  | zero =>
    rw [Nat.zero_add] at hpos ⊢
    cases t with
    | nil => simp [equalRunsFrom, EqualRun.ending, hpos]
    | cons c t =>
      have hc : c ≠ '=' := by simpa using ht
      simp [equalRunsFrom, EqualRun.ending, hc, hpos]
  | succ n ih =>
    rw [equals_succ_append, equalRunsFrom, if_pos rfl, ih (size + 1) (by omega)]
    simp [Nat.add_assoc, Nat.add_comm 1 size]

/-- Induction from run to run. -/
theorem run_induction {motive : Option Char → Text → Prop} (nil : ∀ behind, motive behind [])
    (other : ∀ behind c t, c ≠ '=' → motive (some c) t → motive behind (c :: t))
    (run : ∀ behind n t, t.head? ≠ some '=' → motive (some '=') t →
      motive behind (equals (n + 1) ++ t))
    (behind : Option Char) (t : Text) : motive behind t := by
  induction hn : t.length using Nat.strongRecOn generalizing behind t with
  | _ n ih =>
    subst hn
    obtain ⟨m, rest, rfl, hrest⟩ := exists_replicate_append '=' t
    cases m with
    | succ m =>
      exact run behind m rest hrest (ih rest.length (length_lt_cons_append '=' _ rest) _ rest rfl)
    | zero =>
      cases rest with
      | nil => exact nil behind
      | cons c rest =>
        exact other behind c rest (by simpa using hrest) (ih rest.length (by simp) _ rest rfl)

theorem mem_equalRunsFrom {behind : Option Char} {t : Text}
    (hb : behind = some '=' → t.head? ≠ some '=') {r : EqualRun} :
    r ∈ equalRunsFrom behind 0 t ↔
      ∃ front, t = front ++ (equals r.size ++ r.ahead) ∧ r.behind = front.getLast?.or behind ∧
        r.behind ≠ some '=' ∧ r.size ≠ 0 ∧ r.ahead.head? ≠ some '=' := by
  induction behind, t using run_induction with
  | nil behind =>
    simp only [equalRunsFrom, EqualRun.ending, if_true, List.not_mem_nil, false_iff]
    rintro ⟨front, heq, -, -, hsize, -⟩
    have hnil := (List.append_eq_nil_iff.mp (List.append_eq_nil_iff.mp heq.symm).2).1
    exact hsize (by simpa using hnil)
  | other behind c t hc ih =>
    have hc' : (some c = some '=' → t.head? ≠ some '=') := fun h => absurd (Option.some.inj h) hc
    rw [equalRunsFrom_other hc, ih hc']
    constructor
    · rintro ⟨front, rfl, hbehind, hrest⟩
      exact ⟨c :: front, rfl, by rw [hbehind, getLast?_cons_or], hrest⟩
    · rintro ⟨front, heq, hbehind, hne, hsize, hahead⟩
      cases front with
      | nil =>
        obtain ⟨m, hm⟩ := Nat.exists_eq_succ_of_ne_zero hsize
        rw [hm] at heq
        exact absurd (List.cons.inj heq).1 hc
      | cons d front =>
        obtain ⟨rfl, rfl⟩ := List.cons.inj heq
        exact ⟨front, rfl, by rw [hbehind, getLast?_cons_or], hne, hsize, hahead⟩
  | run behind n t ht ih =>
    have hlast : (equals (n + 1)).getLast? = some '=' := by simp [List.getLast?_replicate]
    have hgap : behind ≠ some '=' := fun h => hb h rfl
    rw [equalRunsFrom_run behind (n + 1) 0 ht (by omega), List.mem_cons, ih fun _ => ht]
    constructor
    · rintro (rfl | ⟨front, rfl, hbehind, hrest⟩)
      · exact ⟨[], rfl, rfl, hgap, by simp, ht⟩
      · refine ⟨equals (n + 1) ++ front, by simp, ?_, hrest⟩
        rw [hbehind, List.getLast?_append, hlast]
        cases front.getLast? <;> rfl
    · rintro ⟨front, heq, hbehind, hne, hsize, hahead⟩
      rcases List.append_eq_append_iff.mp heq with ⟨between, rfl, hrest⟩ | ⟨signs, hsigns, hrest⟩
      · right
        refine ⟨between, hrest, ?_, hne, hsize, hahead⟩
        rw [hbehind, List.getLast?_append, hlast]
        cases between.getLast? <;> rfl
      · -- What stands before the run is no sign, so the run is the first one.
        left
        obtain rfl : front = [] := by
          by_contra hfront
          have hmem : front.getLast hfront ∈ equals (n + 1) := by
            rw [hsigns]
            exact List.mem_append_left signs (List.getLast_mem hfront)
          rw [List.getLast?_eq_some_getLast hfront, List.eq_of_mem_replicate hmem] at hbehind
          exact hne hbehind
        obtain ⟨behind', size, ahead⟩ := r
        obtain ⟨rfl, rfl⟩ := replicate_append_inj ht hahead heq
        obtain rfl : behind' = behind := hbehind
        rfl

/-- The runs of a text are its stretches of signs that no sign stands next to. -/
theorem mem_equalRuns {t : Text} {r : EqualRun} :
    r ∈ equalRuns t ↔
      ∃ front, t = front ++ (equals r.size ++ r.ahead) ∧ r.behind = front.getLast? ∧
        r.behind ≠ some '=' ∧ r.size ≠ 0 ∧ r.ahead.head? ≠ some '=' := by
  rw [equalRuns, mem_equalRunsFrom (by simp)]
  simp only [Option.or_none]

end Spacing
