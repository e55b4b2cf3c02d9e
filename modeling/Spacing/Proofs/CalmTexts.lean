-- Texts whose equal signs stand alone or in plain pairs. One run of the formatter finishes
-- such a text: no rule finds anything to change in what it leaves.
import Spacing.Proofs.SecondRun

namespace Spacing

open Rule

/-! ## Calm texts -/

/-- No run of equal signs is longer than a pair, no pair stands after `!`, and no two signs
have only blanks between them. -/
structure Calm (t : Text) : Prop where
  long : ¬ ['=', '=', '='] <:+: t
  unequal : ¬ ['!', '=', '='] <:+: t
  torn : ∀ n, ¬ ('=' :: (blanks (n + 1) ++ ['='])) <:+: t

namespace Calm

theorem of_append {front t : Text} (h : Calm (front ++ t)) : Calm t where
  long hi := h.long (List.infix_append_of_infix_right hi)
  unequal hi := h.unequal (List.infix_append_of_infix_right hi)
  torn n hi := h.torn n (List.infix_append_of_infix_right hi)

theorem tornAhead_eq_false {t : Text} (h : Calm ('=' :: t)) : tornAhead t = false := by
  by_contra ht
  obtain ⟨n, rest, rfl⟩ := tornAhead_iff.mp (Bool.not_eq_false _ ▸ ht)
  exact h.torn n ⟨[], rest, by simp⟩

theorem behind_sign {n : Nat} {t : Text} (h : Calm (equals (n + 1) ++ t)) : Calm ('=' :: t) := by
  rw [← equals_append_sign] at h
  exact h.of_append

theorem size_le {n : Nat} {t : Text} (h : Calm (equals (n + 1) ++ t)) : n ≤ 1 := by
  by_contra hn
  obtain ⟨m, rfl⟩ : ∃ m, n = m + 2 := ⟨n - 2, by omega⟩
  exact h.long ⟨[], equals m ++ t, rfl⟩

theorem head?_ne_of_unequal {t : Text} (h : Calm ('!' :: '=' :: t)) : t.head? ≠ some '=' := by
  intro hhead
  obtain ⟨rest, rfl⟩ : ∃ rest, t = '=' :: rest := ⟨t.tail, (List.cons_head?_tail hhead).symm⟩
  exact h.unequal ⟨[], rest, rfl⟩

end Calm

/-! ## Finished texts -/

/-- Neither the operator pass nor the repair finds anything. -/
structure Finished (behind : Option Char) (t : Text) : Prop where
  absent : Pattern.operator.AbsentFrom behind t
  joined : doubleEqualsRepair.replaceAll t = t

theorem Operator.solidAhead_of_fits_cons {op : Operator} {c : Char} {t : Text}
    (h : op.fits (c :: t) = true) : solidAhead t = true := by
  obtain ⟨rest, heq, hsolid⟩ := Operator.fits_iff.mp h
  cases op with
  | equal | unequal =>
    cases heq
    rfl
  | plus | minus | times | divide | assign =>
    cases heq
    exact hsolid

namespace Finished

theorem nil (behind : Option Char) : Finished behind [] :=
  ⟨Pattern.no_hit_nil Pattern.neverEmpty_operator behind, repair_nil⟩

theorem other {behind : Option Char} {c : Char} {t : Text} (hc : c ≠ '=')
    (hh : (Pattern.operator.attempt behind (c :: t)).hit? = none) (h : Finished (some c) t) :
    Finished behind (c :: t) :=
  ⟨⟨hh, h.absent⟩, by rw [repair_other hc, h.joined]⟩

theorem blank {behind : Option Char} {t : Text} (h : Finished behind t)
    (behind' : Option Char) : Finished behind' (' ' :: t) :=
  other (by decide) (Pattern.operator_no_hit_at_blank behind' t)
    ⟨Pattern.operator_absentFrom_blank h.absent, h.joined⟩

theorem equalSign {behind : Option Char} {t : Text} (h : Finished (some '=') t)
    (htorn : tornAhead t = false) (hgap : behind.any isSolid = true → solidAhead t = false) :
    Finished behind ('=' :: t) := by
  refine ⟨⟨?_, h.absent⟩, ?_⟩
  · rw [Pattern.operator_no_hit_iff]
    intro hb op
    by_contra hfits
    have hsolid := Operator.solidAhead_of_fits_cons (Bool.not_eq_false _ ▸ hfits)
    rw [hgap hb] at hsolid
    cases hsolid
  · rw [repair_whole htorn, h.joined]

theorem padded {c : Char} {t : Text} (hc : c ≠ '=') (h : Finished (some c) t)
    (behind : Option Char) : Finished behind (' ' :: c :: t) :=
  (other hc (Pattern.operator_no_hit_behind_space (by decide) _) h : Finished (some ' ') _).blank
    behind

/-- A lone sign with a blank on both sides says nothing about what is before it. -/
theorem of_padded {behind : Option Char} {t : Text} (h : Finished behind (' ' :: '=' :: ' ' :: t))
    (htorn : tornAhead (' ' :: t) = false) : Finished (some ' ') t := by
  refine ⟨h.absent.2.2.2, ?_⟩
  have hjoined := h.joined
  rw [repair_blank, repair_whole htorn, repair_blank] at hjoined
  simpa using hjoined

end Finished

/-! ## The two passes on a calm text -/

theorem solidAhead_of_respell {behind : Option Char} {t : Text}
    (h : solidAhead (respell behind t) = true) : solidAhead t = true := by
  unfold respell solidAhead at h
  rw [head?_repair] at h
  exact solidAhead_of_spacing h

theorem solidAhead_respell_of_gap {t : Text} (ht : solidAhead t = false)
    (behind : Option Char) : solidAhead (respell behind t) = false := by
  by_contra hsolid
  rw [solidAhead_of_respell (Bool.not_eq_false _ ▸ hsolid)] at ht
  cases ht

theorem tornAhead_repair (t : Text) :
    tornAhead (doubleEqualsRepair.replaceAll t) = tornAhead t := by
  obtain ⟨n, rest, rfl, hrest⟩ := exists_blanks_append t
  rw [repair_blanks, tornAhead_blanks n hrest, tornAhead_blanks n (by rwa [head?_repair]),
    head?_repair]

theorem tornAhead_respell (behind : Option Char) {t : Text} (hne : t.head? ≠ some '=') :
    tornAhead (respell behind t) = tornAhead t := by
  unfold respell
  rw [tornAhead_repair, tornAhead_spacing_eq behind hne]

theorem head?_ne_blank_of_solidAhead {t : Text} (h : solidAhead t = true) :
    t.head? ≠ some ' ' := by
  cases t with
  | nil => simp
  | cons c t =>
    rw [solidAhead_cons] at h
    rintro ⟨⟩
    exact absurd h (by decide)

theorem tornAhead_blank_respell (behind : Option Char) {t : Text} (ht : solidAhead t = true)
    (hne : t.head? ≠ some '=') : tornAhead (' ' :: respell behind t) = false := by
  have htorn := tornAhead_spacing behind 1 (head?_ne_blank_of_solidAhead ht) hne
  rwa [← tornAhead_repair, repair_blanks] at htorn

theorem repair_before_blank {t : Text} (ht : solidAhead t = true) (hne : t.head? ≠ some '=') :
    doubleEqualsRepair.replaceAll ('=' :: ' ' :: operatorSpacing.replaceFrom (some '=') t) =
      '=' :: ' ' :: respell (some '=') t :=
  carry_zero 1 (head?_ne_blank_of_solidAhead ht) hne

theorem respell_lone {behind : Option Char} {t : Text} (hb : behind.any isSolid = true)
    (ht : solidAhead t = true) (hne : t.head? ≠ some '=') :
    respell behind ('=' :: t) = ' ' :: '=' :: ' ' :: respell (some '=') t := by
  unfold respell
  rw [spacing_single hb ht (fits_equal_of_head?_ne hne), repair_blank, repair_before_blank ht hne]
  rfl

/-- A pair gets a blank on each side where a solid character stands. -/
theorem respell_pair {behind : Option Char} {t : Text} (hne : t.head? ≠ some '=')
    (htorn : tornAhead t = false) :
    respell behind ('=' :: '=' :: t) =
      blanks (if behind.any isSolid then 1 else 0) ++ '=' :: '=' ::
        (blanks (if solidAhead t then 1 else 0) ++ respell (some '=') t) := by
  cases hb : behind.any isSolid with
  | false =>
    have hrun : respell behind ('=' :: '=' :: t) = carry 0 1 t := respell_run_behind_gap hb 1 t
    rw [hrun]
    cases ht : solidAhead t with
    | false =>
      rw [carry_zero_one ht, carry_zero_of_whole hne htorn]
      rfl
    | true =>
      rw [carry_one_of_solid 0 ht hne]
      rfl
  | true =>
    cases ht : solidAhead t with
    | false =>
      have hfits : Operator.equal.fits ('=' :: '=' :: t) = false := by
        simp [Operator.fits, Operator.text, ht]
      have hspaced := spacing_single (t := '=' :: t) hb rfl hfits
      have hcarry := carry_one_of_gap 0 ht
      unfold respell
      rw [hspaced, repair_blank]
      exact congrArg _ hcarry
    | true =>
      unfold respell
      rw [spacing_double .equal rfl hb ht, repair_blank, repair_whole rfl,
        repair_before_blank ht hne]
      rfl

theorem respell_arithmetic {behind : Option Char} {op : Operator} {c : Char} {t : Text}
    (hb : behind.any isSolid = true) (htext : op.text = [c]) (hc : c ≠ '=')
    (hop : Operator.at? (c :: t) = some op) :
    respell behind (c :: t) = ' ' :: c :: ' ' :: respell (some c) t := by
  have hlast : op.last = c := by
    have := op.getLast?_text
    rw [htext] at this
    exact (Option.some.inj this).symm
  have hspaced := spacing_found (t := t) hb (by rwa [htext])
  rw [htext, hlast] at hspaced
  unfold respell
  rw [show c :: t = [c] ++ t from rfl, hspaced, repair_blank, List.singleton_append,
    repair_other hc, repair_blank]

theorem respell_unequal {behind : Option Char} {t : Text} (hb : behind.any isSolid = true)
    (ht : solidAhead t = true) (hne : t.head? ≠ some '=') :
    respell behind ('!' :: '=' :: t) = ' ' :: '!' :: '=' :: ' ' :: respell (some '=') t := by
  unfold respell
  rw [spacing_double .unequal rfl hb ht, repair_blank, repair_other (by decide),
    repair_before_blank ht hne]
  rfl

/-! ## One run finishes a calm text -/

theorem finished_lone (behind : Option Char) {t : Text} (hne : t.head? ≠ some '=')
    (htorn : tornAhead t = false) (h : Finished (some '=') (respell (some '=') t)) :
    Finished behind (respell behind ('=' :: t)) := by
  cases hb : behind.any isSolid with
  | false =>
    have hrun : respell behind ('=' :: t) = carry 0 0 t := respell_run_behind_gap hb 0 t
    rw [hrun, carry_zero_of_whole hne htorn]
    exact h.equalSign (by rwa [tornAhead_respell _ hne]) (by simp [hb])
  | true =>
    cases ht : solidAhead t with
    | false =>
      rw [respell_lone_before_gap ht, carry_zero_of_whole hne htorn]
      exact h.equalSign (by rwa [tornAhead_respell _ hne]) fun _ => solidAhead_respell_of_gap ht _
    | true =>
      have hsign : Finished (some ' ') ('=' :: ' ' :: respell (some '=') t) :=
        (h.blank _).equalSign (tornAhead_blank_respell _ ht hne) fun _ => rfl
      rw [respell_lone hb ht hne]
      exact hsign.blank behind

theorem finished_pair (behind : Option Char) {t : Text} (hne : t.head? ≠ some '=')
    (htorn : tornAhead t = false) (h : Finished (some '=') (respell (some '=') t)) :
    Finished behind (respell behind ('=' :: '=' :: t)) := by
  rw [respell_pair hne htorn]
  generalize hu : blanks (if solidAhead t then 1 else 0) ++ respell (some '=') t = u
  -- The pair ends before a gap, the text's own or a new one.
  obtain ⟨hrest, htorn', hgap⟩ :
      Finished (some '=') u ∧ tornAhead u = false ∧ solidAhead u = false := by
    subst hu
    cases ht : solidAhead t with
    | false =>
      exact ⟨h, (tornAhead_respell _ hne).trans htorn, solidAhead_respell_of_gap ht _⟩
    | true => exact ⟨h.blank _, tornAhead_blank_respell _ ht hne, rfl⟩
  have hsecond : Finished (some '=') ('=' :: u) := hrest.equalSign htorn' fun _ => hgap
  cases hb : behind.any isSolid with
  | false => exact hsecond.equalSign rfl (by simp [hb])
  | true =>
    have hfirst : Finished (some ' ') ('=' :: '=' :: u) :=
      hsecond.equalSign rfl fun hb' => absurd hb' (by decide)
    exact hfirst.blank behind

/-- Where no operator was found before, none is found in the result. -/
theorem no_hit_respell {behind : Option Char} {c : Char} {t : Text} (hc : c ≠ '=')
    (hcalm : Calm (c :: t)) (hh : (Pattern.operator.attempt behind (c :: t)).hit? = none) :
    (Pattern.operator.attempt behind (c :: respell (some c) t)).hit? = none := by
  rw [Pattern.operator_no_hit_iff]
  intro hb op
  have hnone := Pattern.operator_no_hit_iff.mp hh hb
  by_contra hne
  have hfits := Bool.not_eq_false _ ▸ hne
  have hsolid := solidAhead_of_respell (Operator.solidAhead_of_fits_cons hfits)
  obtain ⟨rest, heq, hrest⟩ := Operator.fits_iff.mp hfits
  have hlone : op.text = [c] → False := by
    intro htext
    have hfit : op.fits (c :: t) = true :=
      Operator.fits_iff.mpr ⟨t, by rw [htext]; rfl, hsolid⟩
    rw [hnone op] at hfit
    cases hfit
  cases op with
  | plus | minus | times | divide => exact hlone (by rw [(List.cons.inj heq).1]; rfl)
  | equal | assign => exact hc (List.cons.inj heq).1
  | unequal =>
    obtain ⟨rfl, htail⟩ := List.cons.inj heq
    -- The sign after `!` stood in the text, before a gap, and the gap is still there.
    have hspaced : (operatorSpacing.replaceFrom (some '!') t).head? = some '=' := by
      rw [← head?_repair]
      exact congrArg List.head? htail
    obtain ⟨u, rfl, -⟩ := eq_cons_of_spacing_eq_cons (List.cons_head?_tail hspaced).symm (by decide)
    cases hu : solidAhead u with
    | true =>
      have hfit : Operator.unequal.fits ('!' :: '=' :: u) = true :=
        Operator.fits_iff.mpr ⟨u, rfl, hu⟩
      rw [hnone .unequal] at hfit
      cases hfit
    | false =>
      have hsign : Calm ('=' :: u) := Calm.of_append (show Calm (['!'] ++ '=' :: u) from hcalm)
      have hlast := carry_zero_of_whole hcalm.head?_ne_of_unequal hsign.tornAhead_eq_false
      change respell (some '!') ('=' :: u) = '=' :: rest at htail
      rw [respell_lone_before_gap hu, hlast] at htail
      obtain rfl := (List.cons.inj htail).2
      rw [solidAhead_of_respell hrest] at hu
      cases hu

theorem finished_respell {behind : Option Char} {t : Text} (h : Calm (behind.toList ++ t)) :
    Finished behind (respell behind t) := by
  induction behind, t using run_induction with
  | nil behind =>
    unfold respell
    rw [spacing_nil, repair_nil]
    exact Finished.nil behind
  | other behind c t hc ih =>
    have hcalm : Calm (c :: t) := h.of_append
    have hrest : Finished (some c) (respell (some c) t) := ih hcalm
    cases hh : (Pattern.operator.attempt behind (c :: t)).hit? with
    | none =>
      unfold respell
      rw [spacing_pass hh, repair_other hc]
      exact Finished.other hc (no_hit_respell hc hcalm hh) hrest
    | some hit =>
      obtain ⟨hb, op, hop, -⟩ := Pattern.operator_hit_iff.mp hh
      obtain ⟨rest, heq, hsolid⟩ := Operator.fits_iff.mp (Operator.fits_of_at? hop)
      have hlone : op.text = [c] → Finished behind (respell behind (c :: t)) := by
        intro htext
        rw [respell_arithmetic hb htext hc hop]
        exact (hrest.blank _).padded hc behind
      cases op with
      | plus | minus | times | divide => exact hlone (by rw [(List.cons.inj heq).1]; rfl)
      | equal | assign => exact absurd (List.cons.inj heq).1 hc
      | unequal =>
        obtain ⟨rfl, rfl⟩ := List.cons.inj heq
        have hne := hcalm.head?_ne_of_unequal
        have htorn := tornAhead_blank_respell (some '=') hsolid hne
        change Finished (some '!') (respell (some '!') ('=' :: rest)) at hrest
        rw [respell_lone (by decide) hsolid hne] at hrest
        change Finished behind (respell behind ('!' :: '=' :: rest))
        rw [respell_unequal hb hsolid hne]
        have hsign : Finished (some '!') ('=' :: ' ' :: respell (some '=') rest) :=
          ((hrest.of_padded htorn).blank _).equalSign htorn fun _ => rfl
        exact hsign.padded hc behind
  | run behind n t hne ih =>
    have hcalm : Calm (equals (n + 1) ++ t) := h.of_append
    have hrest := ih hcalm.behind_sign
    have htorn := hcalm.behind_sign.tornAhead_eq_false
    obtain rfl | rfl : n = 0 ∨ n = 1 := by
      have := hcalm.size_le
      omega
    · exact finished_lone behind hne htorn hrest
    · exact finished_pair behind hne htorn hrest

/-! ## No rule changes a finished text -/

theorem Finished.recount {t : Text} (h : Finished none t) :
    Finished none (recount tidyCount t) := by
  refine ⟨?_, by rw [repair_recount, h.joined]⟩
  have habs := absentFrom_spacing none (Spacing.recount tidyCount t)
  have hsame : operatorSpacing.replaceFrom none t = t :=
    replaceFrom_of_absent (r := operatorSpacing) Pattern.neverEmpty_operator h.absent
  rwa [spacing_recount keepsGaps_tidyCount, hsame] at habs

namespace Formatter

theorem applyAll_of_forall {rules : List Rule} {t : Text} (h : ∀ r ∈ rules, r.apply t = .ok t) :
    applyAll rules t = .ok t := by
  induction rules with
  | nil => rfl
  | cons r rules ih =>
    obtain ⟨hr, hrules⟩ := List.forall_mem_cons.mp h
    rw [applyAll_cons_ok hr, ih hrules]

theorem apply_of_finished {t : Text} (hfinished : Finished none t)
    (htidy : recount tidyCount t = t) (hcost : 1 + textCost t ≤ maxBacktracks) :
    ∀ r ∈ Rule.table, r.apply t = .ok t := by
  have hspacing : operatorSpacing.replaceFrom none t = t :=
    replaceFrom_of_absent (r := operatorSpacing) Pattern.neverEmpty_operator hfinished.absent
  have hleading : operatorLeadingSpace.replaceFrom none t = t :=
    replaceFrom_of_absent (r := operatorLeadingSpace) Pattern.neverEmpty_operator hfinished.absent
  intro r hr
  rw [apply_of_mem_table hr hcost]
  congr 1
  simp only [Rule.table, List.mem_cons, List.not_mem_nil, or_false] at hr
  rcases hr with rfl | rfl | rfl | rfl | rfl
  · rw [replaceAll_eq_replaceFrom, hspacing]
  · rw [replaceAll_eq_replaceFrom, hleading]
  · rw [commaSpacing_eq_recount, recount_of_tidy spacingCount_tidyCount htidy]
  · rw [commaLineEnd_eq_recount, recount_of_tidy lineEndCount_tidyCount htidy]
  · exact hfinished.joined

/-- One run finishes a calm text: a second one stays within the limit, and none of its rules
changes anything. -/
theorem one_run_finishes_a_calm_text (t v : Text) (hcalm : Calm t) (h : format t = .ok v) :
    format v = .ok v ∧ ∀ r ∈ Rule.table, r.apply v = .ok v := by
  obtain ⟨hprice, rfl⟩ := format_eq_ok_iff.mp h
  have hfinished : Finished none (rewrite t) := by
    rw [rewrite_eq_recount]
    exact (finished_respell (show Calm (Option.toList none ++ t) from hcalm)).recount
  have hcost := textCost_rewrite_le t
  have hrules := apply_of_finished hfinished (recount_rewrite t) (by omega)
  exact ⟨applyAll_of_forall hrules, hrules⟩

theorem a_comparison_is_finished_after_one_run :
    Calm "x==y,z!=w".toList ∧
      format "x==y,z!=w".toList = .ok "x == y,z != w".toList ∧
      format "x == y,z != w".toList = .ok "x == y,z != w".toList := by
  have hcalm : Calm "x==y,z!=w".toList := by
    refine ⟨by simp [List.infix_cons_iff], by simp [List.infix_cons_iff], ?_⟩
    intro n hi
    exact absurd (hi.subset (by simp : ' ' ∈ _)) (by decide)
  have hformat : format "x==y,z!=w".toList = .ok "x == y,z != w".toList := by decide
  have hfinished := one_run_finishes_a_calm_text _ _ hcalm hformat
  exact ⟨hcalm, hformat, hfinished.1⟩

end Formatter

/-! ## Operators that are left after one run -/

theorem ArithmeticSpaced.at_place {behind : Option Char} {front rest : Text} {c : Char}
    (h : ArithmeticSpaced behind (front ++ c :: rest)) (hc : c ∈ arithmetic) :
    ((front.getLast?.or behind).any isSolid && solidAhead rest) = false := by
  induction front generalizing behind with
  | nil => exact h.1 hc
  | cons d front ih =>
    rw [getLast?_cons_or]
    exact ih h.2

/-- A text is calm if no two signs stand together or have only blanks between them. -/
theorem calm_of_signs_apart {t : Text} (h : ∀ n, ¬ ('=' :: (blanks n ++ ['='])) <:+: t) :
    Calm t where
  long hi := by
    have hpair : ['=', '='] <:+: ['=', '=', '='] := ⟨[], ['='], rfl⟩
    exact h 0 (hpair.trans hi)
  unequal hi := by
    have hpair : ['=', '='] <:+: ['!', '=', '='] := ⟨['!'], [], rfl⟩
    exact h 0 (hpair.trans hi)
  torn n := h (n + 1)

namespace Formatter

theorem finished_rewrite {t : Text} (h : Calm t) : Finished none (rewrite t) := by
  have hcalm : Calm (Option.toList none ++ t) := h
  rw [rewrite_eq_recount]
  exact (finished_respell hcalm).recount

/-- A run leaves no `+`, `-`, `*` or `/` between two solid characters. If no two equal signs of the
text stand together or have only blanks between them, it leaves no operator at all that the operator
pass would find. -/
theorem a_run_leaves_no_arithmetic_operator_between_solid_characters (t v : Text)
    (h : format t = .ok v) :
    (∀ p c q, v = p ++ c :: q → c ∈ arithmetic →
      ¬ (p.getLast?.any isSolid = true ∧ solidAhead q = true)) ∧
    ((∀ n, ¬ ('=' :: (blanks n ++ ['='])) <:+: t) →
      operatorSpacing.pattern.hits v = [] ∧
      ∀ p q, v = p ++ q → (operatorSpacing.pattern.attempt p.getLast? q).hit? = none) := by
  obtain ⟨-, rfl⟩ := format_eq_ok_iff.mp h
  constructor
  · rintro p c q heq hc ⟨hbehind, hahead⟩
    have hspaced := arithmeticSpaced_rewrite t
    rw [heq] at hspaced
    have hplace := hspaced.at_place hc
    rw [Option.or_none, hbehind, hahead] at hplace
    cases hplace
  · intro hsigns
    have habsent := (finished_rewrite (calm_of_signs_apart hsigns)).absent
    constructor
    · rw [Pattern.hits_eq_hitsFrom]
      exact (Pattern.absentFrom_iff_hitsFrom Pattern.neverEmpty_operator none _).mp habsent
    · intro p q heq
      have hplace := Pattern.absentFrom_iff_forall_append.mp habsent p q heq
      rwa [Option.or_none] at hplace

theorem a_run_leaves_no_operator_of_an_added_quotient :
    (format "a+=b/-c,  d=e".toList = .ok "a +  = b /  - c, d = e".toList ∧
      ∀ n, ¬ ('=' :: (blanks n ++ ['='])) <:+: "a+=b/-c,  d=e".toList) ∧
    (¬ ("a +  = b ".toList.getLast?.any isSolid = true ∧ solidAhead "  - c, d = e".toList = true) ∧
      operatorSpacing.pattern.hits "a +  = b /  - c, d = e".toList = []) := by
  have hformat : format "a+=b/-c,  d=e".toList = .ok "a +  = b /  - c, d = e".toList := by decide
  have hsigns : ∀ n, ¬ ('=' :: (blanks n ++ ['='])) <:+: "a+=b/-c,  d=e".toList := by
    intro n hi
    cases n with
    | zero => simp [List.infix_cons_iff] at hi
    | succ n => cases n <;> simp [List.infix_cons_iff, List.replicate_succ] at hi
  obtain ⟨harithmetic, hnone⟩ :=
    a_run_leaves_no_arithmetic_operator_between_solid_characters _ _ hformat
  exact ⟨⟨hformat, hsigns⟩, harithmetic _ '/' _ rfl (by decide), (hnone hsigns).1⟩

/-- Of three signs in a row the pass would find one again. -/
example : format "a===b".toList = .ok "a === b".toList ∧
    operatorSpacing.pattern.hits "a === b".toList ≠ [] := by decide

end Formatter

end Spacing
