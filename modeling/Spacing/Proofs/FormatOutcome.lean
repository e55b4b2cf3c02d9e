-- What formatting gives: the text of four replacements in turn, exactly if the text's price
-- is within the limit. The second operator pass only adds to the price.
import Spacing.Proofs.SearchCost

namespace Spacing

/-! ## One turn -/

theorem Pattern.overrun?_steps {p : Pattern} (h : p.looksAround = true) (t : Text) :
    p.overrun? (p.steps t) = overrunFrom 0 (p.scan false none 0 t) := by
  rw [overrun?, if_pos h, steps_eq]

namespace Rule

theorem apply_eq_ok_iff {r : Rule} {t u : Text} :
    r.apply t = .ok u ↔
      r.pattern.overrun? (r.pattern.steps t) = none ∧ u = r.replaceAll t := by
  rw [apply_eq]
  cases r.pattern.overrun? (r.pattern.steps t) <;> simp [eq_comm]

theorem apply_of_not_looksAround {r : Rule} (h : r.pattern.looksAround = false) (t : Text) :
    r.apply t = .ok (r.replaceAll t) := by
  simp [apply_eq_ok_iff, Pattern.overrun?, h]

theorem operator_overrun_of_absent {t : Text} (h : Pattern.operator.AbsentFrom none t) :
    Pattern.operator.overrun? (Pattern.operator.steps t) =
      if maxBacktracks < 1 + textCost t then some .backtracks else none := by
  have hhits := (Pattern.absentFrom_iff_hitsFrom Pattern.neverEmpty_operator none t).mp h
  have hcost := Pattern.operator_backtracksOf_of_absent h
  have hpass : passCost none = 1 := rfl
  rw [Pattern.overrun?_steps rfl,
    overrunFrom_of_no_hit (Pattern.operator_shallow none t) hhits (Nat.zero_le _), hcost,
    hpass, Nat.zero_add]

/-- Where no operator fits, an operator pass gives the text back or goes over the limit. -/
theorem apply_of_absent {r : Rule} (hr : r.pattern = .operator) {t : Text}
    (h : Pattern.operator.AbsentFrom none t) :
    r.apply t = if maxBacktracks < 1 + textCost t then
      .error { rule := r.name, overrun := .backtracks } else .ok t := by
  have hsame : r.replaceAll t = t := by
    rw [replaceAll_eq_replaceFrom, replaceFrom_of_absent] <;> rw [hr]
    · exact Pattern.neverEmpty_operator
    · exact h
  rw [apply_eq, hsame, hr, operator_overrun_of_absent h]
  by_cases hlt : maxBacktracks < 1 + textCost t
  · rw [if_pos hlt, if_pos hlt]
  · rw [if_neg hlt, if_neg hlt]

/-- An operator pass goes over the limit only if the whole text is too dear. -/
theorem apply_of_operator {r : Rule} (hr : r.pattern = .operator) {t : Text}
    (h : 1 + textCost t ≤ maxBacktracks) : r.apply t = .ok (r.replaceAll t) := by
  have hcost := Pattern.operator_backtracksOf_le none t
  have hpass : passCost none = 1 := rfl
  rw [apply_eq_ok_iff]
  refine ⟨?_, rfl⟩
  rw [hr, Pattern.overrun?_steps rfl]
  exact overrunFrom_eq_none (Pattern.operator_shallow none t) (by omega)

theorem operatorSpacing_apply_error {t : Text} {e : RuleError}
    (h : operatorSpacing.apply t = .error e) :
    e = { rule := operatorSpacing.name, overrun := .backtracks } := by
  rw [apply_eq] at h
  split at h
  · rename_i o ho
    cases h
    change Pattern.operator.overrun? (Pattern.operator.steps t) = some o at ho
    rw [Pattern.overrun?_steps rfl] at ho
    rw [eq_backtracks_of_overrunFrom (Pattern.operator_shallow none t) ho]
  · cases h

theorem commaSpacing_apply {t : Text} (h : 1 + textCost t ≤ maxBacktracks) :
    commaSpacing.apply t = .ok (commaSpacing.replaceAll t) := by
  have hcost := Pattern.comma_backtracksOf_le none t
  have hdepth : textCost t < maxDepth := Nat.lt_of_lt_of_le (by omega) (Nat.le_refl maxBacktracks)
  rw [apply_eq_ok_iff]
  refine ⟨?_, rfl⟩
  change Pattern.commaBlanks.overrun? (Pattern.commaBlanks.steps t) = none
  rw [Pattern.overrun?_steps rfl]
  exact overrunFrom_eq_none (Pattern.comma_shallow hdepth none) (by omega)

/-- No rule of the table goes over the limit on a text that is not too dear. -/
theorem apply_of_mem_table {r : Rule} (hr : r ∈ table) {t : Text}
    (h : 1 + textCost t ≤ maxBacktracks) : r.apply t = .ok (r.replaceAll t) := by
  simp only [table, List.mem_cons, List.not_mem_nil, or_false] at hr
  rcases hr with rfl | rfl | rfl | rfl | rfl
  · exact apply_of_operator rfl h
  · exact apply_of_operator rfl h
  · exact commaSpacing_apply h
  · exact apply_of_not_looksAround rfl t
  · exact apply_of_not_looksAround rfl t

end Rule

/-! ## All turns -/

namespace Formatter

open Rule

theorem applyAll_cons_ok {r : Rule} {rules : List Rule} {t u : Text} (h : r.apply t = .ok u) :
    applyAll (r :: rules) t = applyAll rules u := by
  rw [applyAll, List.foldlM_cons, h]
  rfl

theorem applyAll_cons_error {r : Rule} {rules : List Rule} {t : Text} {e : RuleError}
    (h : r.apply t = .error e) : applyAll (r :: rules) t = .error e := by
  rw [applyAll, List.foldlM_cons, h]
  rfl

/-- What the comma rules and the repair make of a text. -/
def finish (t : Text) : Text :=
  doubleEqualsRepair.replaceAll (commaLineEnd.replaceAll (commaSpacing.replaceAll t))

/-- The formatted text, limits aside. -/
def rewrite (t : Text) : Text := finish (operatorSpacing.replaceAll t)

/-- What it costs to format a text: the search of the second operator pass. -/
def price (t : Text) : Nat :=
  1 + 7 * t.countP isSolid + t.countP isSpace + 2 * (Pattern.operator.hits t).length

theorem price_eq (t : Text) : price t = 1 + textCost (operatorSpacing.replaceAll t) := by
  rw [price, replaceAll_eq_replaceFrom, textCost_spacing, textCost_eq, Pattern.hits_eq_hitsFrom]
  omega

theorem absent_after_spacing (t : Text) :
    Pattern.operator.AbsentFrom none (operatorSpacing.replaceAll t) := by
  rw [replaceAll_eq_replaceFrom]
  exact absentFrom_spacing none t

theorem finish_turns {t : Text} (h : 1 + textCost t ≤ maxBacktracks) :
    applyAll [commaSpacing, commaLineEnd, doubleEqualsRepair] t = .ok (finish t) := by
  rw [applyAll_cons_ok (commaSpacing_apply h),
    applyAll_cons_ok (apply_of_not_looksAround (r := commaLineEnd) rfl _),
    applyAll_cons_ok (apply_of_not_looksAround (r := doubleEqualsRepair) rfl _)]
  rfl

theorem operatorSpacing_apply_of_price {t : Text} (h : price t ≤ maxBacktracks) :
    operatorSpacing.apply t = .ok (operatorSpacing.replaceAll t) := by
  apply apply_of_operator rfl
  rw [price] at h
  rw [textCost_eq]
  omega

theorem format_of_price_le {t : Text} (h : price t ≤ maxBacktracks) :
    format t = .ok (rewrite t) := by
  have habs := absent_after_spacing t
  have hsecond : operatorLeadingSpace.apply (operatorSpacing.replaceAll t) =
      .ok (operatorSpacing.replaceAll t) := by
    rw [apply_of_absent rfl habs, if_neg (by rw [← price_eq]; omega)]
  rw [format, table, applyAll_cons_ok (operatorSpacing_apply_of_price h),
    applyAll_cons_ok hsecond, finish_turns (by rw [← price_eq]; exact h)]
  rfl

/-- The second operator pass fails on a dear text, if the first one does not. -/
theorem format_of_second_pass {t u : Text} (hfirst : operatorSpacing.apply t = .ok u)
    (h : maxBacktracks < price t) :
    format t = .error { rule := operatorLeadingSpace.name, overrun := .backtracks } := by
  obtain ⟨-, rfl⟩ := apply_eq_ok_iff.mp hfirst
  rw [format, table, applyAll_cons_ok hfirst]
  apply applyAll_cons_error
  rw [apply_of_absent rfl (absent_after_spacing t), if_pos (by rw [← price_eq]; exact h)]

/-- The blanks around operators make a text that just fits too dear for the second pass. -/
theorem format_of_full_cost {t : Text} (hcost : 1 + textCost t = maxBacktracks)
    (hhits : Pattern.operator.hits t ≠ []) :
    format t = .error { rule := operatorLeadingSpace.name, overrun := .backtracks } := by
  have hpos := List.length_pos_iff.mpr hhits
  apply format_of_second_pass (apply_of_operator rfl (Nat.le_of_eq hcost))
  rw [textCost_eq] at hcost
  rw [price]
  omega

theorem format_of_lt_price {t : Text} (h : maxBacktracks < price t) :
    ∃ r ∈ [operatorSpacing, operatorLeadingSpace],
      format t = .error { rule := r.name, overrun := .backtracks } := by
  cases hfirst : operatorSpacing.apply t with
  | error e =>
    refine ⟨operatorSpacing, by simp, ?_⟩
    rw [format, table, applyAll_cons_error hfirst, operatorSpacing_apply_error hfirst]
  | ok u => exact ⟨operatorLeadingSpace, by simp, format_of_second_pass hfirst h⟩

theorem format_eq_ok_iff {t v : Text} :
    format t = .ok v ↔ price t ≤ maxBacktracks ∧ v = rewrite t := by
  by_cases h : price t ≤ maxBacktracks
  · rw [format_of_price_le h]
    simp [h, eq_comm]
  · obtain ⟨r, -, hr⟩ := format_of_lt_price (Nat.lt_of_not_le h)
    rw [hr]
    simp [h]

/-! ## The laws -/

theorem leadingSpace_turn {t u : Text} (h : operatorSpacing.apply t = .ok u) (rules : List Rule)
    {v : Text} (hv : applyAll (operatorSpacing :: operatorLeadingSpace :: rules) t = .ok v) :
    applyAll (operatorSpacing :: rules) t = .ok v := by
  obtain ⟨-, rfl⟩ := apply_eq_ok_iff.mp h
  rw [applyAll_cons_ok h] at hv ⊢
  have hsecond := apply_of_absent (r := operatorLeadingSpace) rfl (absent_after_spacing t)
  split at hsecond
  · rw [applyAll_cons_error hsecond] at hv
    cases hv
  · rwa [applyAll_cons_ok hsecond] at hv

/-- The first operator pass leaves no operator between two solid characters. A second pass of
either kind gives the text back wherever the limit allows, and the formatter does without. -/
theorem the_second_operator_pass_is_redundant (t : Text) :
    (∀ u, operatorSpacing.apply t = .ok u →
      operatorSpacing.pattern.hits u = [] ∧
      (∀ front rest, u = front ++ rest →
        (operatorSpacing.pattern.attempt front.getLast? rest).hit? = none) ∧
      ∀ r ∈ [operatorSpacing, operatorLeadingSpace],
        r.apply u = if maxBacktracks < 1 + textCost u then
          .error { rule := r.name, overrun := .backtracks } else .ok u) ∧
    ∀ v, format t = .ok v → applyAll (table.erase operatorLeadingSpace) t = .ok v := by
  constructor
  · intro u hu
    obtain ⟨-, rfl⟩ := apply_eq_ok_iff.mp hu
    have habs := absent_after_spacing t
    refine ⟨?_, ?_, ?_⟩
    · rw [Pattern.hits_eq_hitsFrom]
      exact (Pattern.absentFrom_iff_hitsFrom Pattern.neverEmpty_operator none _).mp habs
    · intro front rest heq
      have := Pattern.absentFrom_iff_forall_append.mp habs front rest heq
      rwa [Option.or_none] at this
    · intro r hr
      refine apply_of_absent ?_ habs
      rcases List.mem_pair.mp hr with rfl | rfl <;> rfl
  · intro v hv
    have herase : table.erase operatorLeadingSpace =
        [operatorSpacing, commaSpacing, commaLineEnd, doubleEqualsRepair] := by decide
    have hprice := (format_eq_ok_iff.mp hv).1
    rw [herase]
    exact leadingSpace_turn (operatorSpacing_apply_of_price hprice) _ hv

theorem a_negated_value_needs_one_operator_pass :
    (operatorSpacing.apply "a=-b".toList = .ok "a =  - b".toList ∧
      operatorSpacing.pattern.hits "a =  - b".toList = []) ∧
    format "a=-b".toList = .ok "a =  - b".toList ∧
      applyAll (table.erase operatorLeadingSpace) "a=-b".toList = .ok "a =  - b".toList := by
  have hspaced : operatorSpacing.apply "a=-b".toList = .ok "a =  - b".toList := by decide
  have hformat : format "a=-b".toList = .ok "a =  - b".toList := by decide
  have hlaw := the_second_operator_pass_is_redundant "a=-b".toList
  exact ⟨⟨hspaced, (hlaw.1 _ hspaced).1⟩, hformat, hlaw.2 _ hformat⟩

/-- A text is formatted exactly if its price is within the limit. Only an operator pass fails,
and only over the count of steps taken back. -/
theorem a_text_is_formatted_exactly_within_the_limit (t : Text) :
    ((∃ v, format t = .ok v) ↔
      1 + 7 * t.countP isSolid + t.countP isSpace +
        2 * (operatorSpacing.pattern.hits t).length ≤ 1000000) ∧
    ∀ e, format t = .error e →
      (e.rule = "operator-spacing" ∨ e.rule = "operator-leading-space") ∧
        e.overrun = .backtracks := by
  constructor
  · simp only [format_eq_ok_iff, exists_and_left, exists_eq, and_true]
    rfl
  · intro e he
    by_cases hle : price t ≤ maxBacktracks
    · rw [format_of_price_le hle] at he
      cases he
    · obtain ⟨r, hr, herror⟩ := format_of_lt_price (Nat.lt_of_not_le hle)
      rw [herror] at he
      cases he
      rcases List.mem_pair.mp hr with rfl | rfl
      · exact ⟨.inl rfl, rfl⟩
      · exact ⟨.inr rfl, rfl⟩

theorem a_text_beyond_the_limit_fails_in_an_operator_pass :
    ∃ e, format (List.replicate 142858 'a') = .error e ∧
      (e.rule = "operator-spacing" ∨ e.rule = "operator-leading-space") := by
  have hlaw := a_text_is_formatted_exactly_within_the_limit (List.replicate 142858 'a')
  have hsolid : (List.replicate 142858 'a').countP isSolid = 142858 := by
    rw [List.countP_replicate, if_pos (by decide)]
  cases h : format (List.replicate 142858 'a') with
  | error e => exact ⟨e, rfl, (hlaw.2 e h).1⟩
  | ok v =>
    have hle := hlaw.1.mp ⟨v, h⟩
    rw [hsolid] at hle
    omega

end Formatter

end Spacing
