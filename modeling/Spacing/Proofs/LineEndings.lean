-- Line endings. With a carriage return before every newline a text is formatted just as without
-- it, but for a comma before blanks at the end of a line. The comma rules look for a newline right
-- after the blanks, so such a comma keeps one of them.
import Spacing.Proofs.Borders

namespace Spacing

open Rule

/-! ## Carriage returns -/

/-- The text with a carriage return before every newline. -/
def withReturns (t : Text) : Text := t.flatMap fun c => if c = '\n' then ['\r', '\n'] else [c]

@[simp]
theorem withReturns_nil : withReturns [] = [] := rfl

@[simp]
theorem withReturns_newline (t : Text) :
    withReturns ('\n' :: t) = '\r' :: '\n' :: withReturns t := rfl

theorem withReturns_cons {c : Char} (hc : c ≠ '\n') (t : Text) :
    withReturns (c :: t) = c :: withReturns t := by
  simp [withReturns, hc]

@[simp]
theorem withReturns_append (t u : Text) :
    withReturns (t ++ u) = withReturns t ++ withReturns u := by
  simp [withReturns]

theorem withReturns_of_not_mem {w : Text} (h : '\n' ∉ w) : withReturns w = w := by
  induction w with
  | nil => rfl
  | cons c w ih =>
    simp only [List.mem_cons, not_or] at h
    rw [withReturns_cons (Ne.symm h.1), ih h.2]

@[simp]
theorem withReturns_blanks (n : Nat) : withReturns (blanks n) = blanks n :=
  withReturns_of_not_mem (by simp)

theorem withReturns_text (op : Operator) : withReturns op.text = op.text := by
  cases op <;> rfl

/-- Any other character stands at the head exactly where it stood before. -/
theorem head?_withReturns {k : Char} (hnewline : k ≠ '\n') (hreturn : k ≠ '\r') (t : Text) :
    (withReturns t).head? = some k ↔ t.head? = some k := by
  cases t with
  | nil => simp
  | cons c t =>
    by_cases hc : c = '\n'
    · subst hc
      simp [hnewline.symm, hreturn.symm]
    · simp [withReturns_cons hc]

theorem solidAhead_withReturns (t : Text) : solidAhead (withReturns t) = solidAhead t := by
  cases t with
  | nil => rfl
  | cons c t =>
    by_cases hc : c = '\n'
    · subst hc
      rfl
    · rw [withReturns_cons hc, solidAhead_cons, solidAhead_cons]

theorem tornAhead_withReturns (t : Text) : tornAhead (withReturns t) = tornAhead t := by
  obtain ⟨n, rest, rfl, hrest⟩ := exists_blanks_append t
  have hblank := head?_withReturns (k := ' ') (by decide) (by decide) rest
  have hsign := head?_withReturns (k := '=') (by decide) (by decide) rest
  rw [withReturns_append, withReturns_blanks, tornAhead_blanks n (hblank.not.mpr hrest),
    tornAhead_blanks n hrest, Bool.eq_iff_iff]
  simp [hsign]

theorem marks_withReturns (t : Text) : marks (withReturns t) = withReturns (marks t) := by
  induction t with
  | nil => rfl
  | cons c t ih =>
    by_cases hblank : c = ' '
    · subst hblank
      rw [withReturns_cons (by decide)]
      exact ih
    · by_cases hc : c = '\n'
      · subst hc
        have hreturn : '\r' ≠ ' ' := by decide
        rw [withReturns_newline, marks_cons hreturn, marks_cons hblank, marks_cons hblank, ih,
          withReturns_newline]
      · rw [withReturns_cons hc, marks_cons hblank, marks_cons hblank, withReturns_cons hc, ih]

/-! ## The operator pass and the repair -/

theorem eq_cons_of_withReturns_eq_cons {t y : Text} {x : Char} (h : withReturns t = x :: y)
    (hx : x ≠ '\r') : ∃ rest, t = x :: rest ∧ y = withReturns rest := by
  cases t with
  | nil => cases h
  | cons c t =>
    by_cases hc : c = '\n'
    · subst hc
      exact absurd (List.cons.inj h).1.symm hx
    · rw [withReturns_cons hc] at h
      obtain ⟨rfl, rfl⟩ := List.cons.inj h
      exact ⟨t, rfl, rfl⟩

theorem fits_withReturns (op : Operator) (t : Text) : op.fits (withReturns t) = op.fits t := by
  have hspace : ∀ {c : Char} {x : Char}, isSpace c = true → isSolid x = true → x ≠ c := by
    rintro c x hc hx rfl
    simp [isSolid, hc] at hx
  rw [Bool.eq_iff_iff]
  constructor
  · refine @Operator.fits_of_edit (fun u t => u = withReturns t) ?_ ?_ op _ _ rfl
    · intro x y t hx _ hu
      exact eq_cons_of_withReturns_eq_cons hu.symm (hspace (by decide) hx)
    · rintro y t rfl hy
      rwa [solidAhead_withReturns] at hy
  · refine @Operator.fits_of_edit (fun u t => t = withReturns u) ?_ ?_ op _ _ rfl
    · rintro x y t hx _ rfl
      exact ⟨_, withReturns_cons (hspace (by decide) hx) y, rfl⟩
    · rintro y t rfl hy
      rwa [solidAhead_withReturns]

theorem at?_withReturns (t : Text) : Operator.at? (withReturns t) = Operator.at? t := by
  simp only [Operator.at?, fits_withReturns]

theorem spacing_withReturns (behind : Option Char) (t : Text) :
    operatorSpacing.replaceFrom behind (withReturns t) =
      withReturns (operatorSpacing.replaceFrom behind t) := by
  have hblank : ' ' ≠ '\n' := by decide
  induction behind, t using Pattern.operator_induction with
  | stop behind => rw [withReturns_nil, spacing_nil, withReturns_nil]
  | pass behind c t hh ih =>
    by_cases hc : c = '\n'
    · subst hc
      rw [withReturns_newline, spacing_plain (by decide), spacing_plain (by decide), ih,
        spacing_plain (by decide), withReturns_newline]
    · have hh' : (Pattern.operator.attempt behind (c :: withReturns t)).hit? = none := by
        rw [Pattern.operator_no_hit_iff] at hh ⊢
        intro hb op
        rw [← withReturns_cons hc, fits_withReturns]
        exact hh hb op
      rw [withReturns_cons hc, spacing_pass hh', spacing_pass hh, withReturns_cons hc, ih]
  | found behind op t hb hop _ ih =>
    have hop' : Operator.at? (op.text ++ withReturns t) = some op := by
      rw [← withReturns_text, ← withReturns_append, at?_withReturns, hop]
    rw [withReturns_append, withReturns_text, spacing_found hb hop', ih, spacing_found hb hop,
      withReturns_cons hblank, withReturns_append, withReturns_text, withReturns_cons hblank]

theorem repair_withReturns (t : Text) :
    doubleEqualsRepair.replaceAll (withReturns t) =
      withReturns (doubleEqualsRepair.replaceAll t) := by
  have hsign : '=' ≠ '\n' := by decide
  induction t using repair_induction with
  | nil => rw [withReturns_nil, repair_nil, withReturns_nil]
  | other c t hc ih =>
    rw [repair_other hc]
    by_cases hnewline : c = '\n'
    · subst hnewline
      rw [withReturns_newline, repair_other (by decide), repair_other hc, ih, withReturns_newline]
    · rw [withReturns_cons hnewline, repair_other hc, ih, withReturns_cons hnewline]
  | whole t ht ih =>
    rw [withReturns_cons hsign, repair_whole (by rwa [tornAhead_withReturns]), ih, repair_whole ht,
      withReturns_cons hsign]
  | torn n t ih =>
    rw [withReturns_cons hsign, withReturns_append, withReturns_blanks, withReturns_cons hsign,
      repair_torn, ih, repair_torn, withReturns_cons hsign, withReturns_cons hsign]

theorem respell_withReturns (behind : Option Char) (t : Text) :
    respell behind (withReturns t) = withReturns (respell behind t) := by
  rw [respell, spacing_withReturns, repair_withReturns, respell]

/-! ## The comma rules -/

/-- Before a carriage return a comma keeps one blank, so the comma rules go through only where no
blanks stand between a comma and a newline. -/
theorem recount_withReturns {t : Text}
    (h : ∀ n, ¬ (',' :: (blanks (n + 1) ++ ['\n'])) <:+: t) :
    recount tidyCount (withReturns t) = withReturns (recount tidyCount t) := by
  induction t using mark_induction ',' with
  | nil => rfl
  | other c t hc ih =>
    have hlater : ∀ n, ¬ (',' :: (blanks (n + 1) ++ ['\n'])) <:+: t := fun n hi =>
      h n (List.infix_cons hi)
    rw [recount_cons hc]
    by_cases hnewline : c = '\n'
    · subst hnewline
      rw [withReturns_newline, recount_cons (by decide), recount_cons hc, ih hlater,
        withReturns_newline]
    · rw [withReturns_cons hnewline, recount_cons hc, ih hlater, withReturns_cons hnewline]
  | marked n rest hrest ih =>
    have hcomma : ',' ≠ '\n' := by decide
    have hlater : ∀ n, ¬ (',' :: (blanks (n + 1) ++ ['\n'])) <:+: rest := fun m hi =>
      h m (List.infix_cons (List.infix_append_of_infix_right hi))
    have hblank : (withReturns rest).head? ≠ some ' ' := by
      rwa [Ne, head?_withReturns (by decide) (by decide)]
    have hcount : tidyCount n (withReturns rest).head? = tidyCount n rest.head? := by
      cases rest with
      | nil => rfl
      | cons c rest =>
        by_cases hc : c = '\n'
        · subst hc
          -- There is no blank before the newline, so none is counted.
          cases n with
          | zero => rfl
          | succ n => exact absurd ⟨[], rest, by simp⟩ (h n)
        · rw [withReturns_cons hc]
          rfl
    rw [withReturns_cons hcomma, withReturns_append, withReturns_blanks, recount_comma n hblank,
      recount_comma n hrest, ih hlater, hcount, withReturns_cons hcomma, withReturns_append,
      withReturns_blanks]

theorem respell_blanks {c : Char} (hc : c ∉ Operator.signs) (behind : Option Char) (n : Nat)
    (t : Text) :
    respell behind (blanks n ++ c :: t) = blanks n ++ c :: respell (some c) t := by
  induction n generalizing behind with
  | zero => exact respell_plain hc behind t
  | succ n ih =>
    rw [blanks_succ_append, respell_plain (by decide), ih]
    rfl

namespace Formatter

/-- What a run writes for a comma and the blanks after it, up to a character that no operator
has. -/
theorem exists_rewrite_comma (front : Text) (n : Nat) {c : Char} (hc : c ∉ Operator.signs)
    (hblank : c ≠ ' ') (hcomma : c ≠ ',') (t : Text) :
    ∃ front', marks front' = marks front ∧
      rewrite (front ++ ',' :: (blanks n ++ c :: t)) =
        front' ++ ',' :: (blanks (tidyCount n (some c)) ++
          c :: respell (some c) (recount tidyCount t)) := by
  have hsign : ',' ∉ Operator.signs := by decide
  have hhead : (c :: t).head? ≠ some ' ' := by simpa using hblank
  obtain ⟨front', behind, hfront, hmarks, -⟩ :=
    exists_rewrite_append (by decide) (Operator.apart_of_not_mem_signs hsign front)
      fun _ => Operator.ne_equals_of_not_mem_signs hsign
  refine ⟨front', hmarks, ?_⟩
  rw [hfront, recount_comma n hhead, recount_cons hcomma, respell_plain hsign, respell_blanks hc]
  rfl

end Formatter

/-! ## Both kinds of line endings -/

/-- Two cuts of one text at a mark are the same if as many marks stand before them. -/
theorem eq_of_append_cons_eq {p p' q q' : Text} {c d : Char} (hc : c ≠ ' ') (hd : d ≠ ' ')
    (hmarks : marks p = marks p') (h : p ++ c :: q = p' ++ d :: q') : c :: q = d :: q' := by
  rcases List.append_eq_append_iff.mp h with ⟨w, rfl, hw⟩ | ⟨w, rfl, hw⟩
  · cases w with
    | nil => simpa using hw
    | cons e w =>
      obtain ⟨rfl, -⟩ := List.cons.inj hw
      simp [marks_cons hc] at hmarks
  · cases w with
    | nil => simpa using hw.symm
    | cons e w =>
      obtain ⟨rfl, -⟩ := List.cons.inj hw
      simp [marks_cons hd] at hmarks

namespace Formatter

/-- A comma before blanks and a newline, with and without the carriage return. -/
theorem exists_rewrites_at_line_end (p : Text) (n : Nat) (q : Text) :
    ∃ x y x' y', rewrite (p ++ ',' :: (blanks (n + 1) ++ '\n' :: q)) = x ++ [',', '\n'] ++ y ∧
      rewrite (withReturns (p ++ ',' :: (blanks (n + 1) ++ '\n' :: q))) =
        x' ++ [',', ' ', '\r', '\n'] ++ y' ∧
      marks x = marks p ∧ marks x' = marks (withReturns p) := by
  have htext : withReturns (p ++ ',' :: (blanks (n + 1) ++ '\n' :: q)) =
      withReturns p ++ ',' :: (blanks (n + 1) ++ '\r' :: '\n' :: withReturns q) := by
    rw [withReturns_append, withReturns_cons (by decide), withReturns_append, withReturns_blanks,
      withReturns_newline]
  obtain ⟨x, hx, hrun⟩ :=
    exists_rewrite_comma p (n + 1) (c := '\n') (by decide) (by decide) (by decide) q
  obtain ⟨x', hx', hrun'⟩ := exists_rewrite_comma (withReturns p) (n + 1) (c := '\r') (by decide)
    (by decide) (by decide) ('\n' :: withReturns q)
  rw [recount_cons (by decide), respell_plain (by decide)] at hrun'
  refine ⟨x, respell (some '\n') (recount tidyCount q), x',
    respell (some '\n') (recount tidyCount (withReturns q)), ?_, ?_, hx, hx'⟩
  · rw [hrun]
    simp [tidyCount]
  · rw [htext, hrun']
    simp [tidyCount]

/-- With a carriage return before every newline a text is formatted to the result with a carriage
return before every newline, exactly if no comma of it stands before blanks and a newline. Such a
comma loses its blanks before a newline alone, and keeps one of them before a carriage return. -/
theorem carriage_returns_matter_only_after_a_comma_and_blanks (t v w : Text)
    (hv : format t = .ok v) (hw : format (withReturns t) = .ok w) :
    (w = withReturns v ↔ ∀ n, ¬ (',' :: (blanks (n + 1) ++ ['\n'])) <:+: t) ∧
    ∀ p n q, t = p ++ ',' :: (blanks (n + 1) ++ '\n' :: q) →
      ∃ x y x' y', v = x ++ [',', '\n'] ++ y ∧ w = x' ++ [',', ' ', '\r', '\n'] ++ y' ∧
        marks x = marks p ∧ marks x' = marks (withReturns p) := by
  obtain ⟨-, rfl⟩ := format_eq_ok_iff.mp hv
  obtain ⟨-, rfl⟩ := format_eq_ok_iff.mp hw
  have hcommas : ∀ p n q, t = p ++ ',' :: (blanks (n + 1) ++ '\n' :: q) →
      ∃ x y x' y', rewrite t = x ++ [',', '\n'] ++ y ∧
        rewrite (withReturns t) = x' ++ [',', ' ', '\r', '\n'] ++ y' ∧
        marks x = marks p ∧ marks x' = marks (withReturns p) := by
    rintro p n q rfl
    exact exists_rewrites_at_line_end p n q
  refine ⟨⟨?_, fun h => ?_⟩, hcommas⟩
  · rintro hsame n ⟨p, q, hinfix⟩
    obtain ⟨x, y, x', y', hrun, hrun', hx, hx'⟩ := hcommas p n q (by simpa using hinfix.symm)
    have hcomma : ',' ≠ ' ' := by decide
    have hmarks : marks x' = marks (withReturns x) := by
      rw [hx', marks_withReturns, marks_withReturns, hx]
    -- The cuts at the comma agree, but one goes on with a blank and the other with a carriage return.
    rw [hrun, hrun'] at hsame
    simp only [withReturns_append, List.append_assoc] at hsame
    have htail := eq_of_append_cons_eq hcomma hcomma hmarks hsame
    cases htail
  · rw [rewrite_eq_respell, recount_withReturns h, respell_withReturns, rewrite_eq_respell]

theorem a_comma_keeps_a_blank_before_a_carriage_return :
    (format "f(a,  \n  b==c,\n".toList = .ok "f(a,\n  b == c,\n".toList ∧
      format (withReturns "f(a,  \n  b==c,\n".toList) =
        .ok "f(a, \r\n  b == c,\r\n".toList) ∧
    ("f(a, \r\n  b == c,\r\n".toList ≠ withReturns "f(a,\n  b == c,\n".toList ∧
      ∃ x y x' y', "f(a,\n  b == c,\n".toList = x ++ [',', '\n'] ++ y ∧
        "f(a, \r\n  b == c,\r\n".toList = x' ++ [',', ' ', '\r', '\n'] ++ y' ∧
        marks x = marks "f(a".toList ∧ marks x' = marks (withReturns "f(a".toList)) := by
  have hv : format "f(a,  \n  b==c,\n".toList = .ok "f(a,\n  b == c,\n".toList := by decide
  have hw : format (withReturns "f(a,  \n  b==c,\n".toList) =
      .ok "f(a, \r\n  b == c,\r\n".toList := by decide
  obtain ⟨hsame, hcommas⟩ := carriage_returns_matter_only_after_a_comma_and_blanks _ _ _ hv hw
  refine ⟨⟨hv, hw⟩, fun heq => ?_, hcommas _ 1 "  b==c,\n".toList rfl⟩
  exact hsame.mp heq 1 ⟨"f(a".toList, "  b==c,\n".toList, rfl⟩

end Formatter

end Spacing
