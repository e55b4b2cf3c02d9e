-- The gaps of a text. A mark is a character that is no blank, and a gap is the run of blanks,
-- maybe of none, between two marks or at an end of the text. A rule that only puts in and
-- takes out blanks keeps the marks, so what it does is said gap by gap.
import Mathlib.Data.List.Forall2
import Spacing.Proofs.BlankRuns

namespace Spacing

/-- The marks of a text, without the blanks. -/
def marks (t : Text) : Text := t.filter fun c => !isBlank c

@[simp]
theorem marks_append (t u : Text) : marks (t ++ u) = marks t ++ marks u := List.filter_append t u

theorem marks_cons {c : Char} (hc : c ≠ ' ') (t : Text) : marks (c :: t) = c :: marks t :=
  List.filter_cons_of_pos (by simpa [isBlank] using hc)

@[simp]
theorem marks_blanks (n : Nat) : marks (blanks n) = [] := by
  simp [marks, isBlank]

/-- The first character is the first mark, unless it is a blank. -/
theorem head?_marks {t : Text} (h : t.head? ≠ some ' ') : (marks t).head? = t.head? := by
  cases t with
  | nil => rfl
  | cons c t =>
    rw [marks_cons (by simpa using h)]
    rfl

/-- A gap: the mark before it, the number of its blanks, and the mark after it. -/
structure Gap where
  behind : Option Char
  size : Nat
  ahead : Option Char
deriving Repr, DecidableEq

/-- The gaps of a text, when `size` blanks were passed since the mark behind. -/
def gapsFrom (behind : Option Char) (size : Nat) : Text → List Gap
  | [] => [{ behind, size, ahead := none }]
  | c :: t =>
    if c = ' ' then gapsFrom behind (size + 1) t
    else { behind, size, ahead := some c } :: gapsFrom (some c) 0 t

/-- The gaps of a text, from left to right: one before each mark, and one at the end. -/
def gaps (t : Text) : List Gap := gapsFrom none 0 t

/-! ## Reading the gaps of a text -/

theorem gapsFrom_blank (behind : Option Char) (size : Nat) (t : Text) :
    gapsFrom behind size (' ' :: t) = gapsFrom behind (size + 1) t := rfl

theorem gapsFrom_mark {c : Char} (hc : c ≠ ' ') (behind : Option Char) (size : Nat) (t : Text) :
    gapsFrom behind size (c :: t) =
      { behind, size, ahead := some c } :: gapsFrom (some c) 0 t := by
  rw [gapsFrom, if_neg hc]

theorem gapsFrom_blanks (behind : Option Char) (size n : Nat) (t : Text) :
    gapsFrom behind size (blanks n ++ t) = gapsFrom behind (size + n) t := by
  induction n generalizing size with
  | zero => rfl
  | succ n ih => rw [blanks_succ_append, gapsFrom_blank, ih, Nat.add_assoc, Nat.add_comm 1 n]

/-- The gaps after the first one do not hang on what stands before the text. -/
theorem exists_gapsFrom_eq_cons {t : Text} (h : t.head? ≠ some ' ') :
    ∃ later, ∀ behind size,
      gapsFrom behind size t = { behind, size, ahead := t.head? } :: later := by
  cases t with
  | nil => exact ⟨[], fun _ _ => rfl⟩
  | cons c t => exact ⟨gapsFrom (some c) 0 t, fun _ _ => gapsFrom_mark (by simpa using h) _ _ t⟩

/-- Every mark stands after its gap. -/
theorem marks_eq_filterMap (behind : Option Char) (size : Nat) (t : Text) :
    marks t = (gapsFrom behind size t).filterMap Gap.ahead := by
  induction t generalizing behind size with
  | nil => rfl
  | cons c t ih =>
    by_cases hc : c = ' '
    · subst hc
      exact ih behind (size + 1)
    · rw [gapsFrom_mark hc, marks_cons hc]
      exact congrArg (c :: ·) (ih (some c) 0)

/-- The blanks of a gap and the mark after it. -/
def Gap.text (g : Gap) : Text := blanks g.size ++ g.ahead.toList

/-- A text is put together from its gaps. -/
theorem flatMap_gapsFrom (behind : Option Char) (size : Nat) (t : Text) :
    (gapsFrom behind size t).flatMap Gap.text = blanks size ++ t := by
  induction t generalizing behind size with
  | nil => simp [gapsFrom, Gap.text]
  | cons c t ih =>
    by_cases hc : c = ' '
    · rw [hc, gapsFrom_blank, ih, blanks_append_blank]
    · rw [gapsFrom_mark hc, List.flatMap_cons, ih]
      simp [Gap.text]

theorem eq_of_gaps_eq {t u : Text} (h : gaps t = gaps u) : t = u :=
  calc t = (gaps t).flatMap Gap.text := (flatMap_gapsFrom none 0 t).symm
    _ = (gaps u).flatMap Gap.text := by rw [h]
    _ = u := flatMap_gapsFrom none 0 u

/-! ## Texts with the same marks -/

/-- The second gap stands between the same marks as the first one, and its size is one that
`P` allows for the first one. -/
structure Gap.Becomes (P : Gap → Nat → Prop) (g h : Gap) : Prop where
  behind : h.behind = g.behind
  ahead : h.ahead = g.ahead
  size : P g h.size

/-- Two texts with the same marks, where each gap of the first one gets a size that `P`
allows. -/
def Regapped (P : Gap → Nat → Prop) (t u : Text) : Prop :=
  List.Forall₂ (Gap.Becomes P) (gaps t) (gaps u)

namespace Regapped

variable {P Q R : Gap → Nat → Prop} {t u v : Text}

theorem mono (h : ∀ g n, P g n → Q g n) (htu : Regapped P t u) : Regapped Q t u :=
  htu.imp fun _ _ hg => ⟨hg.behind, hg.ahead, h _ _ hg.size⟩

theorem refl (h : ∀ g, P g g.size) (t : Text) : Regapped P t t :=
  List.forall₂_same.mpr fun g _ => ⟨rfl, rfl, h g⟩

theorem trans (h : ∀ g n m, P g n → Q { g with size := n } m → R g m) (htu : Regapped P t u)
    (huv : Regapped Q u v) : Regapped R t v := by
  unfold Regapped at *
  generalize gaps t = l, gaps u = l', gaps v = l'' at htu huv ⊢
  induction htu generalizing l'' with
  | nil =>
    cases huv
    exact .nil
  | @cons g g' l l' hg _ ih =>
    cases huv with
    | @cons _ g'' _ l'' hg' hrest =>
      refine .cons ?_ (ih _ hrest)
      obtain ⟨behind, size, ahead⟩ := g'
      obtain ⟨rfl, rfl, hsize⟩ := hg
      exact ⟨hg'.behind, hg'.ahead, h _ _ _ hsize hg'.size⟩

theorem marks_eq (h : Regapped P t u) : marks u = marks t := by
  rw [marks_eq_filterMap none 0 t, marks_eq_filterMap none 0 u]
  unfold Regapped gaps at h
  generalize gapsFrom none 0 t = l, gapsFrom none 0 u = l' at h
  induction h with
  | nil => rfl
  | cons hg _ ih => rw [List.filterMap_cons, List.filterMap_cons, hg.ahead, ih]

/-- With no size changed, it is the same text. -/
theorem eq_of_forall_size (h : Regapped P t u) (hsize : ∀ g ∈ gaps t, ∀ n, P g n → n = g.size) :
    u = t := by
  apply eq_of_gaps_eq
  unfold Regapped at h
  generalize gaps t = l, gaps u = l' at h hsize ⊢
  induction h with
  | nil => rfl
  | @cons g g' l l' hg _ ih =>
    obtain ⟨hhere, hlater⟩ := List.forall_mem_cons.mp hsize
    obtain ⟨behind, size, ahead⟩ := g'
    obtain ⟨rfl, rfl, hg⟩ := hg
    obtain rfl := hhere size hg
    rw [ih hlater]

end Regapped

end Spacing
