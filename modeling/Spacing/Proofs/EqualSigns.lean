-- The repair of torn equal signs, and the runs of equal signs in a text.
import Spacing.Proofs.BlankRuns

namespace Spacing

/-! ## The repair -/

/-- The text goes on with one or more blanks and an equal sign. -/
def tornAhead (t : Text) : Bool :=
  leadingBlanks t != 0 && (t.drop (leadingBlanks t)).head? == some '='

theorem tornAhead_blanks (n : Nat) {rest : Text} (h : rest.head? ≠ some ' ') :
    tornAhead (blanks n ++ rest) = (n != 0 && rest.head? == some '=') := by
  rw [tornAhead, drop_leadingBlanks n h, leadingBlanks_blanks_append n h]

theorem tornAhead_iff {t : Text} :
    tornAhead t = true ↔ ∃ n rest, t = blanks (n + 1) ++ '=' :: rest := by
  constructor
  · intro ht
    obtain ⟨n, rest, rfl, hrest⟩ := exists_blanks_append t
    rw [tornAhead_blanks n hrest, Bool.and_eq_true, bne_iff_ne, beq_iff_eq] at ht
    obtain ⟨m, rfl⟩ := Nat.exists_eq_succ_of_ne_zero ht.1
    exact ⟨m, rest.tail, by rw [List.cons_head?_tail ht.2]⟩
  · rintro ⟨n, rest, rfl⟩
    rw [tornAhead_blanks (n + 1) (by simp)]
    rfl

namespace Rule

theorem repair_other {c : Char} (hc : c ≠ '=') (t : Text) :
    doubleEqualsRepair.replaceAll (c :: t) = c :: doubleEqualsRepair.replaceAll t :=
  replaceAll_pass (r := doubleEqualsRepair) Pattern.neverEmpty_tornEquals
    Pattern.ahead_tornEquals (tryAcrossBlanks_of_ne hc t)

theorem repair_blank (t : Text) :
    doubleEqualsRepair.replaceAll (' ' :: t) = ' ' :: doubleEqualsRepair.replaceAll t :=
  repair_other (by decide) t

theorem repair_nil : doubleEqualsRepair.replaceAll [] = [] :=
  replaceAll_nil (r := doubleEqualsRepair) Pattern.neverEmpty_tornEquals

theorem repair_whole {t : Text} (h : tornAhead t = false) :
    doubleEqualsRepair.replaceAll ('=' :: t) = '=' :: doubleEqualsRepair.replaceAll t := by
  refine replaceAll_pass (r := doubleEqualsRepair) Pattern.neverEmpty_tornEquals
    Pattern.ahead_tornEquals ?_
  obtain ⟨n, rest, rfl, hrest⟩ := exists_blanks_append t
  refine tryAcrossBlanks_none '=' hrest ?_
  rw [tornAhead_blanks n hrest] at h
  simpa [imp_iff_not_or] using h

theorem repair_torn (n : Nat) (t : Text) :
    doubleEqualsRepair.replaceAll ('=' :: (blanks (n + 1) ++ '=' :: t)) =
      '=' :: '=' :: doubleEqualsRepair.replaceAll t := by
  have htry : (doubleEqualsRepair.pattern.attempt none
      ('=' :: (blanks (n + 1) ++ '=' :: t))).hit? = some (Hit.lastBlank '=' (n + 1) ['=']) :=
    tryAcrossBlanks_hit '=' (by decide) n t
  have hsame : '=' :: (blanks (n + 1) ++ '=' :: t) =
      (Hit.lastBlank '=' (n + 1) ['=']).whole ++ t := by
    rw [Hit.whole_lastBlank]
    simp
  rw [hsame] at htry ⊢
  exact replaceAll_hit (r := doubleEqualsRepair) Pattern.neverEmpty_tornEquals
    Pattern.ahead_tornEquals htry

theorem repair_torn_blank (n : Nat) (t : Text) :
    doubleEqualsRepair.replaceAll ('=' :: (blanks n ++ ' ' :: '=' :: t)) =
      '=' :: '=' :: doubleEqualsRepair.replaceAll t := by
  rw [blanks_append_blank, repair_torn]

theorem repair_blanks (n : Nat) (t : Text) :
    doubleEqualsRepair.replaceAll (blanks n ++ t) =
      blanks n ++ doubleEqualsRepair.replaceAll t := by
  induction n with
  | zero => rfl
  | succ n ih =>
    rw [blanks_succ_append, repair_blank, ih, blanks_succ_append]

/-- Induction along the repair. -/
theorem repair_induction {motive : Text → Prop} (nil : motive [])
    (other : ∀ c t, c ≠ '=' → motive t → motive (c :: t))
    (whole : ∀ t, tornAhead t = false → motive t → motive ('=' :: t))
    (torn : ∀ n t, motive t → motive ('=' :: (blanks (n + 1) ++ '=' :: t)))
    (t : Text) : motive t := by
  induction hn : t.length using Nat.strongRecOn generalizing t with
  | _ n ih =>
    subst hn
    cases t with
    | nil => exact nil
    | cons c t =>
      by_cases hc : c = '='
      · subst hc
        cases ht : tornAhead t with
        | false => exact whole t ht (ih t.length (by simp) t rfl)
        | true =>
          obtain ⟨n, rest, rfl⟩ := tornAhead_iff.mp ht
          have hlt : rest.length < ('=' :: (blanks (n + 1) ++ '=' :: rest)).length := by
            simp only [List.length_cons, List.length_append]
            omega
          exact torn n rest (ih rest.length hlt rest rfl)
      · exact other c t hc (ih t.length (by simp) t rfl)

theorem head?_repair (t : Text) : (doubleEqualsRepair.replaceAll t).head? = t.head? := by
  cases t using repair_induction with
  | nil => rw [repair_nil]
  | other c t hc => rw [repair_other hc]; rfl
  | whole t h => rw [repair_whole h]; rfl
  | torn n t => rw [repair_torn]; rfl

end Rule

end Spacing
