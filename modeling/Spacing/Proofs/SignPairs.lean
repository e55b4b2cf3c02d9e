-- The pairs of signs, `==` and `!=`, after a run of the formatter. A pair of equal signs that
-- stands alone is never torn. An unequal sign is torn exactly behind a gap with a solid character
-- after it, and no rule joins it again.
import Spacing.Proofs.Borders
import Spacing.Proofs.CalmTexts

namespace Spacing

open Rule

/-! ## Unequal signs -/

theorem exists_repair_sign (t : Text) :
    ∃ t', doubleEqualsRepair.replaceAll ('=' :: t) = '=' :: t' :=
  List.head?_eq_some_iff.mp (head?_repair ('=' :: t))

/-- Behind a solid character an equal sign gets a blank before it, if no gap comes after it. -/
theorem exists_respell_sign {behind : Option Char} (hb : behind.any isSolid = true) (t : Text) :
    ∃ t', respell behind ('=' :: t) =
      blanks (if solidAhead t = true then 1 else 0) ++ '=' :: t' := by
  cases ht : solidAhead t with
  | false =>
    rw [respell, spacing_equals_gap ht]
    exact exists_repair_sign _
  | true =>
    have hfits : Operator.assign.fits ('=' :: t) = true := Operator.fits_iff.mpr ⟨t, rfl, ht⟩
    obtain ⟨rest, hspaced, hhead⟩ := spacing_of_fits hb hfits
    obtain ⟨later, rfl⟩ := List.head?_eq_some_iff.mp hhead
    obtain ⟨t', ht'⟩ := exists_repair_sign later
    exact ⟨t', by rw [respell, hspaced, repair_blank, ht']; rfl⟩

theorem exists_respell_unequal (behind : Option Char) (t : Text) :
    ∃ n t', respell behind ('!' :: '=' :: t) =
      blanks n ++ '!' ::
        (blanks (if behind.any isSolid = false ∧ solidAhead t = true then 1 else 0) ++
          '=' :: t') := by
  by_cases hfound : behind.any isSolid = true ∧ solidAhead t = true
  · obtain ⟨hb, ht⟩ := hfound
    obtain ⟨t', ht'⟩ := exists_repair_sign (' ' :: operatorSpacing.replaceFrom (some '=') t)
    refine ⟨1, t', ?_⟩
    rw [respell, spacing_double .unequal rfl hb ht, repair_blank, repair_other (by decide), ht',
      if_neg (by simp [hb])]
    rfl
  · -- Where `!` is passed, its equal sign is looked at by itself.
    have hh : (Pattern.operator.attempt behind ('!' :: '=' :: t)).hit? = none := by
      rw [Pattern.operator_no_hit_iff]
      intro hb op
      have ht : solidAhead t = false := by simpa [hb] using hfound
      cases op <;> simp [Operator.fits, Operator.text, ht]
    have hcondition : (behind.any isSolid = false ∧ solidAhead t = true) ↔ solidAhead t = true :=
      ⟨fun h => h.2, fun ht => ⟨by simpa [ht] using hfound, ht⟩⟩
    have hsolid : Option.any isSolid (some '!') = true := by decide
    obtain ⟨t', ht'⟩ := exists_respell_sign hsolid t
    refine ⟨0, t', ?_⟩
    rw [respell, spacing_pass hh, repair_other (by decide)]
    change '!' :: respell (some '!') ('=' :: t) = _
    simp only [ht', hcondition]
    rfl

namespace Formatter

/-- An unequal sign is torn, by one blank, exactly if white space or the start of the text stands
right before it and a solid character right after it. -/
theorem an_unequal_sign_is_torn_exactly_between_a_gap_and_a_solid_character (p q v : Text)
    (h : format (p ++ ['!', '='] ++ q) = .ok v) :
    ∃ p' q', marks p' = marks p ∧ marks q' = marks q ∧
      v = p' ++ ['!'] ++
        blanks (if p.getLast?.any isSolid = false ∧ solidAhead q = true then 1 else 0) ++
        ['='] ++ q' := by
  obtain ⟨-, rfl⟩ := format_eq_ok_iff.mp h
  have hapart : Operator.Apart p '!' := by
    intro d _ op htext
    exact absurd (Operator.eq_of_text_eq_pair htext).2 (by decide)
  obtain ⟨front, behind, hrun, hmarks, hkept⟩ :=
    exists_rewrite_append (by decide) hapart (by simp)
  obtain ⟨rfl, -⟩ := hkept (by decide)
  have hfront := hrun ('=' :: q)
  rw [recount_cons (by decide), recount_cons (by decide)] at hfront
  obtain ⟨n, later, hlater⟩ := exists_respell_unequal p.getLast? (recount tidyCount q)
  rw [solidAhead_recount] at hlater
  refine ⟨front ++ blanks n, later, by simp [hmarks], ?_, ?_⟩
  · have hmark : '!' ≠ ' ' := by decide
    have hsign : '=' ≠ ' ' := by decide
    have hrest := congrArg marks hlater
    simp only [marks_respell, marks_cons hmark, marks_cons hsign, marks_append, marks_blanks,
      marks_recount, List.nil_append, List.cons_inj_right] at hrest
    exact hrest.symm
  · rw [List.append_assoc, List.cons_append, List.cons_append, List.nil_append, hfront, hlater]
    simp

theorem an_unequal_sign_before_a_third_sign_is_torn :
    format ("a!=b ".toList ++ ['!', '='] ++ "=c".toList) = .ok "a != b ! == c".toList ∧
      ∃ p' q', marks p' = marks "a!=b ".toList ∧ marks q' = marks "=c".toList ∧
        "a != b ! == c".toList = p' ++ ['!'] ++
          blanks (if "a!=b ".toList.getLast?.any isSolid = false ∧ solidAhead "=c".toList = true
            then 1 else 0) ++ ['='] ++ q' := by
  have hformat : format ("a!=b ".toList ++ ['!', '='] ++ "=c".toList) =
      .ok "a != b ! == c".toList := by decide
  exact ⟨hformat,
    an_unequal_sign_is_torn_exactly_between_a_gap_and_a_solid_character _ _ _ hformat⟩

end Formatter

/-! ## Pairs of equal signs -/

theorem head?_ne_of_marks {t : Text} (h : (marks t).head? ≠ some '=') :
    t.head? ≠ some '=' ∧ tornAhead t = false := by
  obtain ⟨n, rest, rfl, hrest⟩ := exists_blanks_append t
  rw [marks_append, marks_blanks, List.nil_append, head?_marks hrest] at h
  rw [tornAhead_blanks n hrest]
  cases n with
  | zero => exact ⟨h, rfl⟩
  | succ n => exact ⟨by simp [List.replicate_succ], by simp [h]⟩

theorem getLast?_marks {t : Text} {c : Char} (hc : c ≠ ' ') (h : t.getLast? = some c) :
    (marks t).getLast? = some c := by
  obtain ⟨front, rfl⟩ := List.getLast?_eq_some_iff.mp h
  rw [marks_append, marks_cons hc]
  simp [marks]

theorem solidAhead_blank_respell (behind : Option Char) (t : Text) :
    solidAhead (blanks (if solidAhead t then 1 else 0) ++ respell behind t) = false := by
  cases ht : solidAhead t with
  | true => rfl
  | false => exact solidAhead_respell_of_gap ht behind

namespace Formatter

/-- A pair of equal signs stays whole and gets white space, or an end of the text, on each side,
however it was spaced, if it does not stand right after `!` and no other equal sign is next to it
or only blanks away. -/
theorem a_lone_pair_of_equal_signs_is_never_torn (p q v : Text) (hunequal : p.getLast? ≠ some '!')
    (hbehind : (marks p).getLast? ≠ some '=') (hahead : (marks q).head? ≠ some '=')
    (h : format (p ++ ['=', '='] ++ q) = .ok v) :
    ∃ p' q', marks p' = marks p ∧ marks q' = marks q ∧ v = p' ++ ['=', '='] ++ q' ∧
      p'.getLast?.any isSolid = false ∧ solidAhead q' = false := by
  obtain ⟨-, rfl⟩ := format_eq_ok_iff.mp h
  have hapart : Operator.Apart p '=' := by
    intro d hd op htext
    rcases (Operator.eq_of_text_eq_pair htext).1 with rfl | rfl
    · exact hbehind (getLast?_marks (by decide) hd)
    · exact hunequal hd
  obtain ⟨front, behind, hrun, hmarks, hkept⟩ :=
    exists_rewrite_append (by decide) hapart fun hsign => absurd hsign hbehind
  obtain ⟨rfl, hsolid⟩ := hkept (by decide)
  have hfront := hrun ('=' :: q)
  rw [recount_cons (by decide), recount_cons (by decide)] at hfront
  rw [← marks_recount tidyCount] at hahead
  obtain ⟨hne, htorn⟩ := head?_ne_of_marks hahead
  rw [respell_pair hne htorn] at hfront
  refine ⟨front ++ blanks (if p.getLast?.any isSolid then 1 else 0), _, by simp [hmarks], ?_, ?_,
    ?_, solidAhead_blank_respell (some '=') (recount tidyCount q)⟩
  · rw [marks_append, marks_blanks, marks_respell, marks_recount]
    rfl
  · rw [List.append_assoc, List.cons_append, List.cons_append, List.nil_append, hfront]
    simp
  · cases hp : p.getLast?.any isSolid with
    | true => rw [List.getLast?_append]; rfl
    | false =>
      rw [hp] at hsolid
      simpa using hsolid

theorem a_pair_before_a_blank_stays_whole :
    (("!x=-y".toList.getLast? ≠ some '!' ∧ (marks "!x=-y".toList).getLast? ≠ some '=' ∧
        (marks " z,  =w".toList).head? ≠ some '=') ∧
      format ("!x=-y".toList ++ ['=', '='] ++ " z,  =w".toList) =
        .ok "!x =  - y == z, =w".toList) ∧
      ∃ p' q', marks p' = marks "!x=-y".toList ∧ marks q' = marks " z,  =w".toList ∧
        "!x =  - y == z, =w".toList = p' ++ ['=', '='] ++ q' ∧
        p'.getLast?.any isSolid = false ∧ solidAhead q' = false := by
  have hunequal : "!x=-y".toList.getLast? ≠ some '!' := by decide
  have hbehind : (marks "!x=-y".toList).getLast? ≠ some '=' := by decide
  have hahead : (marks " z,  =w".toList).head? ≠ some '=' := by decide
  have hformat : format ("!x=-y".toList ++ ['=', '='] ++ " z,  =w".toList) =
      .ok "!x =  - y == z, =w".toList := by decide
  exact ⟨⟨⟨hunequal, hbehind, hahead⟩, hformat⟩,
    a_lone_pair_of_equal_signs_is_never_torn _ _ _ hunequal hbehind hahead hformat⟩

end Formatter

end Spacing
