-- A second run of the formatter. The comma rules leave its text alone, so what it changes is
-- up to the operator pass and the repair: it changes nothing exactly if every run of equal
-- signs is settled.
import Spacing.Proofs.FormatOutcome
import Spacing.Proofs.CommaOrder
import Spacing.Proofs.Respelling

namespace Spacing

open Rule

/-! ## What a run leaves -/

namespace Formatter

theorem finish_eq (t : Text) : finish t = doubleEqualsRepair.replaceAll (recount tidyCount t) := by
  rw [finish, commaLineEnd_commaSpacing]

/-- The comma rules may come last. -/
theorem rewrite_eq_recount (t : Text) : rewrite t = recount tidyCount (respell none t) := by
  rw [rewrite, finish_eq, replaceAll_eq_replaceFrom operatorSpacing, repair_recount, respell]

/-- The comma rules may come first. -/
theorem rewrite_eq_respell (t : Text) : rewrite t = respell none (recount tidyCount t) := by
  rw [rewrite_eq_recount, respell, respell, spacing_recount keepsGaps_tidyCount, repair_recount]

theorem recount_rewrite (t : Text) : recount tidyCount (rewrite t) = rewrite t := by
  rw [rewrite_eq_recount, recount_idem tidyCount_tidyCount]

/-- The comma rules have nothing to do in a second run. -/
theorem rewrite_rewrite (t : Text) : rewrite (rewrite t) = respell none (rewrite t) := by
  rw [rewrite_eq_respell (rewrite t), recount_rewrite]

end Formatter

/-! ## What a second run costs -/

theorem textCost_recount_le {count : Nat → Option Char → Nat} (h : ∀ n next, count n next ≤ n)
    (t : Text) : textCost (recount count t) ≤ textCost t := by
  induction t using mark_induction ',' with
  | nil => exact Nat.le_refl 0
  | other c t hc ih =>
    rw [recount_cons hc, textCost_cons, textCost_cons]
    omega
  | marked n rest hrest ih =>
    have := h n rest.head?
    simp only [recount_comma n hrest, textCost_cons, textCost_append, textCost_blanks]
    omega

theorem textCost_repair_le (t : Text) :
    textCost (doubleEqualsRepair.replaceAll t) ≤ textCost t := by
  induction t using repair_induction with
  | nil => exact Nat.le_of_eq (by rw [repair_nil])
  | other c t hc ih =>
    rw [repair_other hc, textCost_cons, textCost_cons]
    omega
  | whole t ht ih =>
    rw [repair_whole ht, textCost_cons, textCost_cons]
    omega
  | torn n t ih =>
    simp only [repair_torn, textCost_cons, textCost_append, textCost_blanks]
    omega

/-- The comma rules and the repair make no text dearer. -/
theorem Formatter.textCost_rewrite_le (t : Text) : 1 + textCost (rewrite t) ≤ price t := by
  have hrepair := textCost_repair_le (recount tidyCount (operatorSpacing.replaceAll t))
  have hcomma := textCost_recount_le tidyCount_le (operatorSpacing.replaceAll t)
  rw [price_eq, rewrite, finish_eq]
  omega

/-! ## Arithmetic operators stay apart -/

theorem arithmeticSpaced_of_absent {behind : Option Char} {t : Text}
    (h : Pattern.operator.AbsentFrom behind t) : ArithmeticSpaced behind t := by
  induction t generalizing behind with
  | nil => trivial
  | cons c t ih =>
    refine ⟨?_, ih h.2⟩
    intro hc
    cases hb : behind.any isSolid with
    | false => rfl
    | true =>
      have hfits := Pattern.operator_no_hit_iff.mp h.1 hb
      have hop : ∀ op : Operator, op.text = [c] → solidAhead t = false := by
        intro op hop
        by_contra hsolid
        have hfit : op.fits (c :: t) = true :=
          Operator.fits_iff.mpr ⟨t, by rw [hop]; rfl, Bool.not_eq_false _ ▸ hsolid⟩
        rw [hfits op] at hfit
        cases hfit
      simp only [arithmetic, List.mem_cons, List.not_mem_nil, or_false] at hc
      rcases hc with rfl | rfl | rfl | rfl
      · exact hop .plus rfl
      · exact hop .minus rfl
      · exact hop .times rfl
      · exact hop .divide rfl

theorem ArithmeticSpaced.repair {behind : Option Char} {t : Text}
    (h : ArithmeticSpaced behind t) :
    ArithmeticSpaced behind (doubleEqualsRepair.replaceAll t) := by
  have hequal : '=' ∉ arithmetic := by decide
  induction t using repair_induction generalizing behind with
  | nil => rwa [repair_nil]
  | other c t hc ih =>
    rw [repair_other hc]
    refine ⟨?_, ih h.2⟩
    rw [solidAhead, head?_repair]
    exact h.1
  | whole t ht ih =>
    rw [repair_whole ht]
    exact ⟨fun hc => absurd hc hequal, ih h.2⟩
  | torn n t ih =>
    rw [repair_torn]
    exact ⟨fun hc => absurd hc hequal, fun hc => absurd hc hequal, ih h.2.of_append_cons⟩

/-! ## The second run -/

namespace Formatter

theorem arithmeticSpaced_rewrite (t : Text) : ArithmeticSpaced none (rewrite t) := by
  rw [rewrite_eq_respell]
  exact (arithmeticSpaced_of_absent (absentFrom_spacing none _)).repair

theorem rewrite_rewrite_eq_iff (t : Text) :
    rewrite (rewrite t) = rewrite t ↔ ∀ r ∈ equalRuns (rewrite t), r.Settled := by
  rw [rewrite_rewrite]
  exact respell_eq_self_iff (arithmeticSpaced_rewrite t)

/-- The formatted text is the same after a second run exactly if all its runs of equal signs
are settled and the second run stays within the limit. -/
theorem format_format_eq_iff {t v : Text} (h : format t = .ok v) :
    format v = .ok v ↔ (∀ r ∈ equalRuns v, r.Settled) ∧ price v ≤ maxBacktracks := by
  obtain ⟨-, rfl⟩ := format_eq_ok_iff.mp h
  rw [format_eq_ok_iff, ← rewrite_rewrite_eq_iff, and_comm, eq_comm]

end Formatter

end Spacing
