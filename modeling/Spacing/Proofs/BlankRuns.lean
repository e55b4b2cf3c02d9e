-- Runs of blanks, and what the comma rules and the repair do where one stands between two
-- marks. These rules do not look at what stands before a mark.
import Spacing.Proofs.ScanSteps

namespace Spacing

/-! ## Runs of blanks -/

abbrev blanks (n : Nat) : Text := List.replicate n ' '

theorem blanks_succ_append (n : Nat) (t : Text) : blanks (n + 1) ++ t = ' ' :: (blanks n ++ t) :=
  rfl

theorem blanks_append_blank (n : Nat) (t : Text) : blanks n ++ ' ' :: t = blanks (n + 1) ++ t := by
  simp [blanks, List.replicate_succ']

/-- A text is split where its first run of a character ends. -/
theorem exists_replicate_append (c : Char) (t : Text) :
    ∃ n rest, t = List.replicate n c ++ rest ∧ rest.head? ≠ some c := by
  induction t with
  | nil => exact ⟨0, [], rfl, by simp⟩
  | cons d t ih =>
    by_cases hd : d = c
    · obtain ⟨n, rest, rfl, hrest⟩ := ih
      exact ⟨n + 1, rest, by rw [hd]; rfl, hrest⟩
    · exact ⟨0, d :: t, rfl, by simpa using hd⟩

theorem replicate_append_inj {c : Char} {t u : Text} (ht : t.head? ≠ some c)
    (hu : u.head? ≠ some c) {n m : Nat}
    (h : List.replicate n c ++ t = List.replicate m c ++ u) : n = m ∧ t = u := by
  induction n generalizing m with
  | zero =>
    cases m with
    | zero => exact ⟨rfl, h⟩
    | succ m =>
      rw [List.replicate_zero, List.nil_append] at h
      exact absurd (by rw [h]; rfl) ht
  | succ n ih =>
    cases m with
    | zero =>
      rw [List.replicate_zero, List.nil_append] at h
      exact absurd (by rw [← h]; rfl) hu
    | succ m =>
      obtain ⟨rfl, rfl⟩ := ih (List.cons.inj h).2
      exact ⟨rfl, rfl⟩

theorem exists_blanks_append (t : Text) :
    ∃ n rest, t = blanks n ++ rest ∧ rest.head? ≠ some ' ' :=
  exists_replicate_append ' ' t

theorem leadingBlanks_blanks_append (n : Nat) {rest : Text} (h : rest.head? ≠ some ' ') :
    leadingBlanks (blanks n ++ rest) = n := by
  induction n with
  | zero =>
    cases rest with
    | nil => rfl
    | cons c rest =>
      have hc : isBlank c = false := by simpa [isBlank] using h
      simp [leadingBlanks_cons, hc]
  | succ n ih =>
    rw [blanks_succ_append, leadingBlanks_cons, if_pos (by decide), ih]

theorem drop_leadingBlanks (n : Nat) {rest : Text} (h : rest.head? ≠ some ' ') :
    (blanks n ++ rest).drop (leadingBlanks (blanks n ++ rest)) = rest := by
  rw [leadingBlanks_blanks_append n h]
  exact List.drop_left' List.length_replicate

theorem blanks_append_cancel {n : Nat} {t u : Text} : blanks n ++ t = blanks n ++ u ↔ t = u :=
  List.append_right_inj _

theorem length_lt_cons_append (c : Char) (t rest : Text) :
    rest.length < (c :: (t ++ rest)).length := by
  rw [List.length_cons, List.length_append]
  omega

/-- Induction from mark to mark, each with the blanks after it. -/
theorem mark_induction (mark : Char) {motive : Text → Prop} (nil : motive [])
    (other : ∀ c t, c ≠ mark → motive t → motive (c :: t))
    (marked : ∀ n rest, rest.head? ≠ some ' ' → motive rest →
      motive (mark :: (blanks n ++ rest)))
    (t : Text) : motive t := by
  induction hn : t.length using Nat.strongRecOn generalizing t with
  | _ n ih =>
    subst hn
    cases t with
    | nil => exact nil
    | cons c t =>
      by_cases hc : c = mark
      · obtain ⟨n, rest, rfl, hrest⟩ := exists_blanks_append t
        rw [hc]
        exact marked n rest hrest (ih rest.length (length_lt_cons_append c _ rest) rest rfl)
      · exact other c t hc (ih t.length (by simp) t rfl)

/-! ## Tries at a mark -/

theorem tryAcrossBlanks_of_ne {first last c : Char} (h : c ≠ first) (t : Text) :
    Pattern.tryAcrossBlanks first last (c :: t) = none := by
  have : (c == first) = false := by simpa using h
  simp [Pattern.tryAcrossBlanks, this]

theorem tryAcrossBlanks_hit (first : Char) {last : Char} (h : last ≠ ' ') (n : Nat) (t : Text) :
    Pattern.tryAcrossBlanks first last (first :: (blanks (n + 1) ++ last :: t)) =
      some (Hit.lastBlank first (n + 1) [last]) := by
  have hlast : (last :: t).head? ≠ some ' ' := by simpa using h
  simp only [Pattern.tryAcrossBlanks]
  rw [drop_leadingBlanks _ hlast, leadingBlanks_blanks_append _ hlast]
  simp

theorem tryAcrossBlanks_none (first : Char) {last : Char} {n : Nat} {rest : Text}
    (hrest : rest.head? ≠ some ' ') (h : n = 0 ∨ rest.head? ≠ some last) :
    Pattern.tryAcrossBlanks first last (first :: (blanks n ++ rest)) = none := by
  simp only [Pattern.tryAcrossBlanks]
  rw [drop_leadingBlanks _ hrest, leadingBlanks_blanks_append _ hrest]
  rcases h with h | h <;> simp [h]

theorem tryCommaBlanks_of_ne {c : Char} (h : c ≠ ',') (t : Text) :
    (Pattern.tryCommaBlanks (c :: t)).hit? = none := by
  unfold Pattern.tryCommaBlanks
  split
  · rename_i heq
    cases heq
    exact absurd rfl h
  · rfl

/-- The blanks that the comma pattern takes, of those after a comma. -/
def takenBlanks (n : Nat) (next : Option Char) : Nat := if next = some '\n' then n - 1 else n

theorem tryCommaBlanks_eq (n : Nat) {rest : Text} (hrest : rest.head? ≠ some ' ') :
    (Pattern.tryCommaBlanks (',' :: (blanks n ++ rest))).hit? =
      if takenBlanks n rest.head? == 0 then none
      else some (Hit.lastBlank ',' (takenBlanks n rest.head?) []) := by
  simp only [Pattern.tryCommaBlanks]
  rw [drop_leadingBlanks _ hrest, leadingBlanks_blanks_append _ hrest]
  by_cases hnl : rest.head? = some '\n'
  · rw [hnl, takenBlanks, if_pos rfl]
    rcases n with _ | _ | n
    · rfl
    · rfl
    · rfl
  · have hnl' : (rest.head? == some '\n') = false := by simpa using hnl
    rw [hnl', takenBlanks, if_neg hnl]
    cases n with
    | zero => rfl
    | succ n => rfl

/-! ## Rules that do not look behind -/

/-- What the pattern finds does not hang on the character behind. -/
def Pattern.Ahead (p : Pattern) : Prop := ∀ behind t, p.attempt behind t = p.attempt none t

theorem Pattern.ahead_commaBlanks : commaBlanks.Ahead := fun _ _ => rfl

theorem Pattern.ahead_commaLineEnd : commaLineEnd.Ahead := fun _ _ => rfl

theorem Pattern.ahead_tornEquals : tornEquals.Ahead := fun _ _ => rfl

namespace Rule

theorem replaceFrom_eq_replaceAll {r : Rule} (ha : r.pattern.Ahead) (behind : Option Char)
    (t : Text) : r.replaceFrom behind t = r.replaceAll t := by
  rw [replaceAll_eq_replaceFrom, replaceFrom, replaceFrom]
  congr 1
  cases t <;> simp only [Pattern.scan, ha behind]

variable {r : Rule} (hp : r.pattern.NeverEmpty)
include hp

theorem replaceAll_nil : r.replaceAll [] = [] := by
  rw [replaceAll_eq_replaceFrom, replaceFrom_nil hp]

theorem replaceAll_pass (ha : r.pattern.Ahead) {c : Char} {t : Text}
    (hh : (r.pattern.attempt none (c :: t)).hit? = none) :
    r.replaceAll (c :: t) = c :: r.replaceAll t := by
  rw [replaceAll_eq_replaceFrom, replaceFrom_pass hp hh, replaceFrom_eq_replaceAll ha]

theorem replaceAll_hit (ha : r.pattern.Ahead) {h : Hit} {t : Text}
    (hh : (r.pattern.attempt none (h.whole ++ t)).hit? = some h) :
    r.replaceAll (h.whole ++ t) = r.replacement.fill h ++ r.replaceAll t := by
  rw [replaceAll_eq_replaceFrom, replaceFrom_hit hp hh, replaceFrom_eq_replaceAll ha]

end Rule

end Spacing
