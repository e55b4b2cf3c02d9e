-- The turns of the two comma rules. Together they tidy the blanks after commas and leave all else
-- as it is. They may come at any point among the turns of the other rules, which keep their order.
import Mathlib.Data.List.Permutation
import Spacing.Proofs.GapChanges

namespace Spacing

open Rule

/-! ## Both comma rules -/

namespace Rule

/-- The rules that look at the blanks after commas. -/
def commaRules : List Rule := [commaSpacing, commaLineEnd]

/-- The texts of some rules in turn, limits aside. -/
def replaceInTurn (rules : List Rule) (t : Text) : Text := rules.foldl (fun u r => r.replaceAll u) t

theorem exists_recount_of_mem {r : Rule} (hr : r ∈ commaRules) :
    ∃ count, KeepsGaps count ∧ (∀ n next, count n next ≤ n) ∧
      ∀ t, r.replaceAll t = recount count t := by
  rcases List.mem_pair.mp hr with rfl | rfl
  · exact ⟨spacingCount, keepsGaps_spacingCount, spacingCount_le, commaSpacing_eq_recount⟩
  · exact ⟨lineEndCount, keepsGaps_lineEndCount, lineEndCount_le, commaLineEnd_eq_recount⟩

/-- The comma rules tidy a text in either order. -/
theorem replaceInTurn_of_perm {rules : List Rule} (h : rules.Perm commaRules) (t : Text) :
    replaceInTurn rules t = recount tidyCount t := by
  have horders : rules = [commaSpacing, commaLineEnd] ∨ rules = [commaLineEnd, commaSpacing] := by
    simpa [commaRules, List.permutations'] using List.mem_permutations'.mpr h
  rcases horders with rfl | rfl
  · exact commaLineEnd_commaSpacing t
  · change commaSpacing.replaceAll (commaLineEnd.replaceAll t) = _
    rw [commaSpacing_eq_recount, commaLineEnd_eq_recount, recount_recount]
    simp only [spacingCount_lineEndCount]

end Rule

namespace Formatter

/-- The two comma rules in turn leave one blank of those after a comma, or none before a newline.
They change no other gap and no mark. -/
theorem the_comma_rules_in_turn_tidy_the_blanks_after_commas (t u : Text)
    (h : commaSpacing.apply t = .ok u) :
    commaLineEnd.apply u = .ok (recount tidyCount t) ∧
      gaps (recount tidyCount t) = (gaps t).map (Gap.recounted tidyCount) := by
  obtain ⟨-, rfl⟩ := apply_eq_ok_iff.mp h
  refine ⟨?_, gaps_recount tidyCount t⟩
  rw [apply_of_not_looksAround (r := commaLineEnd) rfl, commaLineEnd_commaSpacing]

theorem the_comma_rules_tidy_a_list_over_two_lines :
    commaSpacing.apply "a,   \n b,,  c,d,  ".toList = .ok "a,  \n b,, c,d, ".toList ∧
      commaLineEnd.apply "a,  \n b,, c,d, ".toList = .ok "a,\n b,, c,d, ".toList ∧
      gaps "a,\n b,, c,d, ".toList =
        (gaps "a,   \n b,,  c,d,  ".toList).map (Gap.recounted tidyCount) := by
  have hspacing : commaSpacing.apply "a,   \n b,,  c,d,  ".toList =
      .ok "a,  \n b,, c,d, ".toList := by decide
  have htidy : recount tidyCount "a,   \n b,,  c,d,  ".toList = "a,\n b,, c,d, ".toList := by decide
  have hlaw := the_comma_rules_in_turn_tidy_the_blanks_after_commas _ _ hspacing
  rw [htidy] at hlaw
  exact ⟨hspacing, hlaw⟩

end Formatter

/-! ## Comma rules at any point -/

/-- The rules that are still due, comma rules aside, and what those before them make of a text. -/
inductive Due : List Rule → (Text → Text) → Prop
  | all : Due [operatorSpacing, operatorLeadingSpace, doubleEqualsRepair] id
  | leadingSpace : Due [operatorLeadingSpace, doubleEqualsRepair] operatorSpacing.replaceAll
  | repair : Due [doubleEqualsRepair] operatorSpacing.replaceAll
  | nothing : Due [] (respell none)

namespace Due

variable {r : Rule} {rules : List Rule} {made : Text → Text}

theorem step (h : Due (r :: rules) made) :
    ∃ made', Due rules made' ∧ ∀ t, r.replaceAll (made t) = made' t := by
  cases h with
  | all => exact ⟨_, .leadingSpace, fun _ => rfl⟩
  | leadingSpace =>
    refine ⟨_, .repair, fun t => ?_⟩
    rw [replaceAll_eq_replaceFrom operatorLeadingSpace]
    exact replaceFrom_of_absent (r := operatorLeadingSpace) Pattern.neverEmpty_operator
      (Formatter.absent_after_spacing t)
  | repair =>
    refine ⟨_, .nothing, fun t => ?_⟩
    rw [respell, replaceAll_eq_replaceFrom operatorSpacing]

/-- A comma rule may come before the rules that had their turns. -/
theorem recount_made (h : Due rules made) {count : Nat → Option Char → Nat}
    (hcount : KeepsGaps count) (t : Text) : recount count (made t) = made (recount count t) := by
  cases h with
  | all => rfl
  | leadingSpace | repair =>
    rw [replaceAll_eq_replaceFrom, replaceAll_eq_replaceFrom, spacing_recount hcount]
  | nothing => rw [respell, respell, spacing_recount hcount, repair_recount]

theorem textCost_made_le (h : Due rules made) (t : Text) :
    textCost (made t) ≤ textCost (operatorSpacing.replaceAll t) := by
  cases h with
  | all =>
    rw [replaceAll_eq_replaceFrom, textCost_spacing]
    exact Nat.le_add_right _ _
  | leadingSpace | repair => exact Nat.le_refl _
  | nothing =>
    rw [respell, ← replaceAll_eq_replaceFrom]
    exact textCost_repair_le _

end Due

theorem textCost_spacing_recount_le {count : Nat → Option Char → Nat} (hcount : KeepsGaps count)
    (hle : ∀ n next, count n next ≤ n) (t : Text) :
    textCost (operatorSpacing.replaceAll (recount count t)) ≤
      textCost (operatorSpacing.replaceAll t) := by
  rw [← Due.leadingSpace.recount_made hcount]
  exact textCost_recount_le hle _

namespace Formatter

/-- In a chain of rules the comma rules may have their turns first. -/
theorem applyAll_of_due {due rules : List Rule} {made : Text → Text} (hdue : Due due made)
    (htable : ∀ r ∈ rules, r ∈ table) (hrules : rules.filter (· ∉ commaRules) = due) {t : Text}
    (hcost : 1 + textCost (operatorSpacing.replaceAll t) ≤ maxBacktracks) :
    applyAll rules (made t) =
      .ok (respell none (replaceInTurn (rules.filter (· ∈ commaRules)) t)) := by
  induction rules generalizing due made t with
  | nil =>
    subst hrules
    cases hdue
    rfl
  | cons r rules ih =>
    obtain ⟨hr, htable⟩ := List.forall_mem_cons.mp htable
    have hmade := hdue.textCost_made_le t
    rw [applyAll_cons_ok (apply_of_mem_table hr (by omega))]
    by_cases hcomma : r ∈ commaRules
    · obtain ⟨count, hcount, hle, hreplace⟩ := exists_recount_of_mem hcomma
      have hless := textCost_spacing_recount_le hcount hle t
      rw [List.filter_cons_of_neg (by simpa using hcomma)] at hrules
      rw [List.filter_cons_of_pos (by simpa using hcomma), hreplace, hdue.recount_made hcount,
        ih hdue htable hrules (by omega), replaceInTurn, replaceInTurn, List.foldl_cons, hreplace]
    · rw [List.filter_cons_of_pos (by simpa using hcomma)] at hrules
      subst hrules
      obtain ⟨made', hdue', hstep⟩ := hdue.step
      rw [List.filter_cons_of_neg (by simpa using hcomma), hstep]
      exact ih hdue' htable rfl hcost

/-- The comma rules may have their turns at any point and in either order, as long as the other
rules keep their order: whenever a text is formatted, every such chain goes well and gives the same
text. -/
theorem the_comma_rules_may_come_at_any_point (rules : List Rule) (t v : Text)
    (hrules : rules.Perm Rule.table)
    (horder : [operatorSpacing, operatorLeadingSpace, doubleEqualsRepair].Sublist rules)
    (h : format t = .ok v) : applyAll rules t = .ok v := by
  have hothers : rules.filter (· ∉ commaRules) =
      [operatorSpacing, operatorLeadingSpace, doubleEqualsRepair] := by
    have hsub := horder.filter (· ∉ commaRules)
    have hlength := (hrules.filter (· ∉ commaRules)).length_eq
    exact (hsub.eq_of_length (by rw [hlength]; decide)).symm
  have hcommas : (rules.filter (· ∈ commaRules)).Perm commaRules :=
    hrules.filter (· ∈ commaRules)
  obtain ⟨hprice, rfl⟩ := format_eq_ok_iff.mp h
  rw [price_eq] at hprice
  have hturns := applyAll_of_due .all (fun _ hr => hrules.subset hr) hothers hprice
  rwa [replaceInTurn_of_perm hcommas, ← rewrite_eq_respell] at hturns

theorem the_comma_rules_may_come_last_in_reverse :
    ([operatorSpacing, operatorLeadingSpace, doubleEqualsRepair, commaLineEnd, commaSpacing].Perm
        Rule.table ∧
      [operatorSpacing, operatorLeadingSpace, doubleEqualsRepair].Sublist
        [operatorSpacing, operatorLeadingSpace, doubleEqualsRepair, commaLineEnd, commaSpacing] ∧
      format "f(a,-b,   \nc)= =d".toList = .ok "f(a, - b,\nc)==d".toList) ∧
    applyAll [operatorSpacing, operatorLeadingSpace, doubleEqualsRepair, commaLineEnd, commaSpacing]
      "f(a,-b,   \nc)= =d".toList = .ok "f(a, - b,\nc)==d".toList := by
  have hrules : [operatorSpacing, operatorLeadingSpace, doubleEqualsRepair, commaLineEnd,
      commaSpacing].Perm Rule.table := by decide
  have horder : [operatorSpacing, operatorLeadingSpace, doubleEqualsRepair].Sublist
      [operatorSpacing, operatorLeadingSpace, doubleEqualsRepair, commaLineEnd, commaSpacing] := by
    decide
  have hformat : format "f(a,-b,   \nc)= =d".toList = .ok "f(a, - b,\nc)==d".toList := by decide
  exact ⟨⟨hrules, horder, hformat⟩,
    the_comma_rules_may_come_at_any_point _ _ _ hrules horder hformat⟩

end Formatter

end Spacing
