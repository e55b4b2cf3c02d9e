-- Where a text may be cut. What is written up to a character that no operator has does not hang
-- on the text after it. So a text is formatted line by line, and an operator that stands alone
-- between two other characters splits it.
import Spacing.Proofs.GapChanges

namespace Spacing

open Rule

/-! ## Operators before a border -/

theorem ne_blank_of_isSolid {c : Char} (h : isSolid c = true) : c ≠ ' ' := by
  rintro rfl
  exact absurd h (by decide)

theorem solidAhead_border (front : Text) (c : Char) (t : Text) :
    solidAhead (front ++ c :: t) = solidAhead (front ++ [c]) := by
  cases front <;> rfl

namespace Operator

theorem ne_equals_of_not_mem_signs {c : Char} (hc : c ∉ signs) : c ≠ '=' := by
  rintro rfl
  exact hc (by decide)

/-- An operator of two signs ends with an equal sign. -/
theorem eq_of_text_eq_pair {op : Operator} {c d : Char} (h : op.text = [c, d]) :
    (c = '=' ∨ c = '!') ∧ d = '=' := by
  cases op with
  | plus | minus | times | divide | assign => cases h
  | equal =>
    cases h
    exact ⟨.inl rfl, rfl⟩
  | unequal =>
    cases h
    exact ⟨.inr rfl, rfl⟩

/-- No operator lies across the border between a front and a character. -/
def Apart (front : Text) (c : Char) : Prop :=
  ∀ d, front.getLast? = some d → ∀ op : Operator, op.text ≠ [d, c]

theorem apart_of_not_mem_signs {c : Char} (hc : c ∉ signs) (front : Text) : Apart front c := by
  intro d _ op htext
  have hmem : c ∈ op.text := by simp [htext]
  exact hc (mem_signs_of_mem_text hmem)

namespace Apart

variable {front : Text} {c : Char}

theorem of_append {w : Text} (h : Apart (w ++ front) c) : Apart front c := by
  intro d hd
  apply h d
  rw [List.getLast?_append, hd]
  rfl

/-- An operator at the head of a text ends before the border, if it does not start there. -/
theorem exists_append (h : Apart front c) (hne : front ≠ []) {op : Operator} {t later : Text}
    (heq : front ++ c :: t = op.text ++ later) :
    ∃ rest, front = op.text ++ rest ∧ later = rest ++ c :: t := by
  rcases List.append_eq_append_iff.mp heq with ⟨beyond, htext, hbeyond⟩ | hrest
  · cases beyond with
    | nil => exact ⟨[], by simpa using htext.symm, by simpa using hbeyond.symm⟩
    | cons d beyond =>
      obtain ⟨rfl, -⟩ := List.cons.inj hbeyond
      have hlength : (front ++ c :: beyond).length ≤ 2 := by
        rw [← htext]
        cases op <;> decide
      obtain ⟨e, front, rfl⟩ := List.exists_cons_of_ne_nil hne
      rw [List.length_append, List.length_cons, List.length_cons] at hlength
      obtain rfl : front = [] := List.eq_nil_of_length_eq_zero (by omega)
      obtain rfl : beyond = [] := List.eq_nil_of_length_eq_zero (by omega)
      exact absurd htext (h e rfl op)
  · exact hrest

theorem fits_border_iff (h : Apart front c) (hne : front ≠ []) {op : Operator} {t : Text} :
    op.fits (front ++ c :: t) = true ↔
      ∃ rest, front = op.text ++ rest ∧ solidAhead (rest ++ [c]) = true := by
  rw [fits_iff]
  constructor
  · rintro ⟨later, heq, hsolid⟩
    obtain ⟨rest, rfl, rfl⟩ := h.exists_append hne heq
    exact ⟨rest, rfl, by rwa [solidAhead_border] at hsolid⟩
  · rintro ⟨rest, rfl, hsolid⟩
    exact ⟨rest ++ c :: t, List.append_assoc _ _ _, by rwa [solidAhead_border]⟩

theorem at?_border (h : Apart front c) (hne : front ≠ []) (t : Text) :
    at? (front ++ c :: t) = at? (front ++ [c]) := by
  have hfits : ∀ op : Operator, op.fits (front ++ c :: t) = op.fits (front ++ [c]) := fun op =>
    Bool.eq_iff_iff.mpr ((h.fits_border_iff hne).trans (h.fits_border_iff hne).symm)
  simp only [at?, hfits]

end Apart

end Operator

/-! ## The rules before a border -/

/-- The operator pass gets to the end of a front that no operator reaches out of. What it makes of
the front ends with a solid character only if the front does. -/
theorem exists_spacing_append {front : Text} {c : Char} (h : Operator.Apart front c)
    (behind : Option Char) :
    ∃ front', (∀ t, operatorSpacing.replaceFrom behind (front ++ c :: t) =
        front' ++ operatorSpacing.replaceFrom (front.getLast?.or behind) (c :: t)) ∧
      ((front'.getLast?.or behind).any isSolid = true →
        (front.getLast?.or behind).any isSolid = true) := by
  -- A hit takes a whole operator off the front, so the induction is on the length.
  induction hn : front.length using Nat.strongRecOn generalizing behind front with
  | _ n ih =>
    subst hn
    by_cases hnil : front = []
    · subst hnil
      exact ⟨[], fun _ => rfl, id⟩
    by_cases hfound : behind.any isSolid = true ∧ ∃ op, Operator.at? (front ++ [c]) = some op
    · obtain ⟨hb, op, hop⟩ := hfound
      obtain ⟨rest, rfl, -⟩ := (h.fits_border_iff hnil).mp (Operator.fits_of_at? hop)
      have hlt : rest.length < (op.text ++ rest).length := by
        have := List.length_pos_iff.mpr op.text_ne_nil
        rw [List.length_append]
        omega
      have hlast : (op.text ++ rest).getLast?.or behind = rest.getLast?.or (some op.last) := by
        rw [List.getLast?_append, Operator.getLast?_text, Option.or_assoc]
        rfl
      obtain ⟨front', hfront, hsolid⟩ := ih rest.length hlt h.of_append (some op.last) rfl
      refine ⟨' ' :: (op.text ++ ' ' :: front'), fun t => ?_, ?_⟩
      · have hop' : Operator.at? (op.text ++ (rest ++ c :: t)) = some op := by
          rw [← List.append_assoc, h.at?_border hnil, hop]
        rw [List.append_assoc, spacing_found hb hop', hfront, hlast]
        simp
      · -- After the operator comes a blank, so a solid character at the end is one of the rest.
        rw [hlast, getLast?_cons_or, List.getLast?_append, Option.or_assoc, getLast?_cons_or]
        cases hrest : front'.getLast? with
        | none => exact fun hblank => absurd hblank (by decide)
        | some e => rwa [hrest] at hsolid
    · obtain ⟨d, front, rfl⟩ := List.exists_cons_of_ne_nil hnil
      have hrest : Operator.Apart ([d] ++ front) c := h
      obtain ⟨front', hfront, hsolid⟩ := ih front.length (by simp) hrest.of_append (some d) rfl
      refine ⟨d :: front', fun t => ?_, by rwa [getLast?_cons_or, getLast?_cons_or]⟩
      have hh : (Pattern.operator.attempt behind (d :: (front ++ c :: t))).hit? = none := by
        by_contra hne
        obtain ⟨hit, hh⟩ := Option.ne_none_iff_exists'.mp hne
        obtain ⟨hb, op, hop, -⟩ := Pattern.operator_hit_iff.mp hh
        rw [← List.cons_append, h.at?_border hnil] at hop
        exact hfound ⟨hb, op, hop⟩
      rw [List.cons_append, spacing_pass hh, hfront, getLast?_cons_or]
      rfl

theorem spacing_plain {c : Char} (hc : c ∉ Operator.signs) (behind : Option Char) (t : Text) :
    operatorSpacing.replaceFrom behind (c :: t) = c :: operatorSpacing.replaceFrom (some c) t := by
  apply spacing_pass
  apply Pattern.operator_no_hit_of_fits
  intro op
  by_contra hne
  obtain ⟨rest, heq, -⟩ := Operator.fits_iff.mp (Bool.not_eq_false _ ▸ hne)
  obtain ⟨d, w, hd⟩ := List.exists_cons_of_ne_nil op.text_ne_nil
  have hmem : d ∈ op.text := by simp [hd]
  rw [hd] at heq
  exact hc ((List.cons.inj heq).1 ▸ Operator.mem_signs_of_mem_text hmem)

theorem exists_spacing_border {c : Char} (hc : c ∉ Operator.signs) (behind : Option Char)
    (front : Text) :
    ∃ front', ∀ t, operatorSpacing.replaceFrom behind (front ++ c :: t) =
      front' ++ c :: operatorSpacing.replaceFrom (some c) t := by
  obtain ⟨front', hfront, -⟩ :=
    exists_spacing_append (Operator.apart_of_not_mem_signs hc front) behind
  exact ⟨front', fun t => by rw [hfront, spacing_plain hc]⟩

/-- Counting blanks anew does not hang on the text after the border. Before a solid character it
leaves the last character of the front. -/
theorem exists_recount_border (count : Nat → Option Char → Nat) {c : Char} (hc : c ≠ ' ')
    (front : Text) :
    ∃ front', (∀ t, recount count (front ++ c :: t) = front' ++ recount count (c :: t)) ∧
      (KeepsGaps count → isSolid c = true → front'.getLast? = front.getLast?) := by
  induction front using mark_induction ',' with
  | nil => exact ⟨[], fun _ => rfl, fun _ _ => rfl⟩
  | other d front hd ih =>
    obtain ⟨front', hfront, hlast⟩ := ih
    refine ⟨d :: front', fun t => ?_, fun hcount hsolid => ?_⟩
    · rw [List.cons_append, recount_cons hd, hfront]
      rfl
    · rw [List.getLast?_cons, List.getLast?_cons, hlast hcount hsolid]
  | marked n rest hrest ih =>
    obtain ⟨front', hfront, hlast⟩ := ih
    refine ⟨',' :: (blanks (count n (rest ++ [c]).head?) ++ front'), fun t => ?_, ?_⟩
    · have hhead : (rest ++ c :: t).head? = (rest ++ [c]).head? := by cases rest <;> rfl
      have hmark : (rest ++ c :: t).head? ≠ some ' ' := by
        cases rest with
        | nil => simpa using hc
        | cons d rest => simpa using hrest
      rw [List.cons_append, List.append_assoc, recount_comma n hmark, hhead, hfront]
      simp
    · intro hcount hsolid
      rw [List.getLast?_cons, List.getLast?_cons, List.getLast?_append, List.getLast?_append,
        hlast hcount hsolid]
      cases rest with
      | cons d rest =>
        rw [List.getLast?_cons]
        rfl
      | nil =>
        -- The count keeps a gap before a solid character, and makes none.
        have hzero : count n (some c) = 0 ↔ n = 0 := by
          refine ⟨fun h => ?_, fun h => by rw [h, hcount.zero]⟩
          by_contra hn
          exact hcount.open_ n c hsolid hn h
        simp only [List.nil_append, List.head?_cons, List.getLast?_replicate, hzero]

theorem tornAhead_append {front t : Text}
    (h : ∀ n m rest, front = blanks n → t = blanks m ++ '=' :: rest → n + m = 0)
    (hfront : tornAhead front = false) : tornAhead (front ++ t) = false := by
  obtain ⟨n, rest, rfl, hrest⟩ := exists_blanks_append front
  cases rest with
  | nil =>
    obtain ⟨m, later, rfl, hlater⟩ := exists_blanks_append t
    rw [List.append_nil, ← List.append_assoc, ← List.replicate_add, tornAhead_blanks _ hlater]
    by_cases hsign : later.head? = some '='
    · have hzero := h n m later.tail (by simp) (by rw [List.cons_head?_tail hsign])
      rw [hzero]
      rfl
    · simp [hsign]
  | cons d rest =>
    rw [tornAhead_blanks n hrest] at hfront
    rw [List.append_assoc, List.cons_append, tornAhead_blanks n (by simpa using hrest)]
    exact hfront

/-- The repair goes on separately at a border that parts no torn sign from the one before it. -/
theorem repair_append_whole {front t : Text}
    (h : ∀ w n m rest, front = w ++ '=' :: blanks n → t = blanks m ++ '=' :: rest → n + m = 0) :
    doubleEqualsRepair.replaceAll (front ++ t) =
      doubleEqualsRepair.replaceAll front ++ doubleEqualsRepair.replaceAll t := by
  have hlater : ∀ v u : Text,
      (∀ w n m rest, v ++ u = w ++ '=' :: blanks n → t = blanks m ++ '=' :: rest → n + m = 0) →
      ∀ w n m rest, u = w ++ '=' :: blanks n → t = blanks m ++ '=' :: rest → n + m = 0 := by
    rintro v u hv w n m rest rfl
    exact hv (v ++ w) n m rest (by simp)
  induction front using repair_induction with
  | nil => rw [repair_nil]; rfl
  | other c front hc ih =>
    rw [List.cons_append, repair_other hc, ih (hlater [c] front h), repair_other hc]
    rfl
  | whole front hfront ih =>
    have htorn : tornAhead (front ++ t) = false :=
      tornAhead_append (fun n m rest hblanks => h [] n m rest (by rw [hblanks]; rfl)) hfront
    rw [List.cons_append, repair_whole htorn, ih (hlater ['='] front h), repair_whole hfront]
    rfl
  | torn n front ih =>
    have hrest := hlater ('=' :: (blanks (n + 1) ++ ['='])) front (by simpa using h)
    rw [List.cons_append, List.append_assoc, List.cons_append, repair_torn, ih hrest, repair_torn]
    rfl

/-- It does so after a front that ends with no sign, and before a text that starts with none. -/
theorem repair_append {front t : Text}
    (h : (marks front).getLast? = some '=' → (marks t).head? ≠ some '=') :
    doubleEqualsRepair.replaceAll (front ++ t) =
      doubleEqualsRepair.replaceAll front ++ doubleEqualsRepair.replaceAll t := by
  have hsign : '=' ≠ ' ' := by decide
  refine repair_append_whole ?_
  rintro w n m rest rfl rfl
  exact absurd (by simp [marks_cons hsign]) (h (by simp [marks_cons hsign]))

theorem repair_border {c : Char} (hblank : c ≠ ' ') (hsign : c ≠ '=') (front t : Text) :
    doubleEqualsRepair.replaceAll (front ++ c :: t) =
      doubleEqualsRepair.replaceAll front ++ c :: doubleEqualsRepair.replaceAll t := by
  rw [repair_append fun _ => by simpa [marks_cons hblank] using hsign, repair_other hsign]

theorem getLast?_repair (t : Text) : (doubleEqualsRepair.replaceAll t).getLast? = t.getLast? := by
  induction t using repair_induction with
  | nil => rw [repair_nil]
  | other c t hc ih => rw [repair_other hc, List.getLast?_cons, List.getLast?_cons, ih]
  | whole t ht ih => rw [repair_whole ht, List.getLast?_cons, List.getLast?_cons, ih]
  | torn n t ih =>
    simp only [repair_torn, List.getLast?_cons, List.getLast?_append, ih]
    cases t.getLast? <;> rfl

theorem respell_plain {c : Char} (hc : c ∉ Operator.signs) (behind : Option Char) (t : Text) :
    respell behind (c :: t) = c :: respell (some c) t := by
  rw [respell, spacing_plain hc, repair_other (Operator.ne_equals_of_not_mem_signs hc), respell]

/-! ## A run before a border -/

namespace Formatter

/-- A run goes on separately after a front that no operator and no torn sign reaches out of. Before
a solid character it goes on as behind the front, and what it makes of the front ends with a solid
character only if the front does. -/
theorem exists_rewrite_append {front : Text} {c : Char} (hblank : c ≠ ' ')
    (hapart : Operator.Apart front c) (hsign : (marks front).getLast? = some '=' → c ≠ '=') :
    ∃ front' behind, (∀ t, rewrite (front ++ c :: t) =
        front' ++ respell behind (recount tidyCount (c :: t))) ∧
      marks front' = marks front ∧
      (isSolid c = true → behind = front.getLast? ∧
        (front'.getLast?.any isSolid = true → front.getLast?.any isSolid = true)) := by
  obtain ⟨first, hfirst, hkept⟩ := exists_recount_border tidyCount hblank front
  -- Only an equal sign ends an operator of two signs, and before it the recount keeps the end.
  have hapart' : Operator.Apart first c := by
    intro d hd op htext
    obtain rfl := (Operator.eq_of_text_eq_pair htext).2
    rw [hkept keepsGaps_tidyCount (by decide)] at hd
    exact hapart d hd op htext
  obtain ⟨second, hsecond, hsolid⟩ := exists_spacing_append hapart' none
  have hmarks : marks second = marks front := by
    have hfirst' := congrArg marks (hfirst [])
    have hsecond' := congrArg marks (hsecond [])
    rw [marks_recount, marks_append, marks_append, marks_recount] at hfirst'
    rw [marks_spacing, marks_append, marks_append, marks_spacing] at hsecond'
    exact (List.append_cancel_right hsecond').symm.trans (List.append_cancel_right hfirst').symm
  refine ⟨doubleEqualsRepair.replaceAll second, first.getLast?, fun t => ?_,
    by rw [marks_repair, hmarks], fun hc => ?_⟩
  · obtain ⟨later, hlater⟩ : ∃ later, recount tidyCount (c :: t) = c :: later :=
      List.head?_eq_some_iff.mp (head?_recount (c :: t))
    rw [rewrite_eq_respell, hfirst, hlater, respell, hsecond, Option.or_none, repair_append,
      respell]
    rw [hmarks, marks_spacing, marks_cons hblank]
    simpa using hsign
  · have hlast := hkept keepsGaps_tidyCount hc
    rw [Option.or_none, Option.or_none, hlast] at hsolid
    exact ⟨hlast, by rwa [getLast?_repair]⟩

/-- What is written up to the border does not hang on the text after it. -/
theorem exists_rewrite_border {c : Char} (hsign : c ∉ Operator.signs) (hblank : c ≠ ' ')
    (front : Text) :
    ∃ front', rewrite (front ++ [c]) = front' ++ [c] ∧
      ∀ t, (c = ',' → t.head? ≠ some ' ') →
        rewrite (front ++ c :: t) = front' ++ c :: respell (some c) (recount tidyCount t) := by
  obtain ⟨front', behind, hfront, -, -⟩ :=
    exists_rewrite_append hblank (Operator.apart_of_not_mem_signs hsign front)
      fun _ => Operator.ne_equals_of_not_mem_signs hsign
  have hrewrite : ∀ t, (c = ',' → t.head? ≠ some ' ') → rewrite (front ++ c :: t) =
      front' ++ c :: respell (some c) (recount tidyCount t) := by
    intro t ht
    have hborder : recount tidyCount (c :: t) = c :: recount tidyCount t := by
      by_cases hcomma : c = ','
      · subst hcomma
        exact recount_comma_of_head keepsGaps_tidyCount (ht rfl)
      · exact recount_cons hcomma t
    rw [hfront, hborder, respell_plain hsign]
  refine ⟨front', ?_, hrewrite⟩
  rw [hrewrite [] (by simp), recount_nil, respell, spacing_nil, repair_nil]

/-- The price is paid on both sides of the border. -/
theorem price_border {c : Char} (hsign : c ∉ Operator.signs) (front t : Text) :
    price (front ++ c :: t) =
      price (front ++ [c]) + textCost (operatorSpacing.replaceFrom (some c) t) := by
  obtain ⟨front', hfront⟩ := exists_spacing_border hsign none front
  simp only [price_eq, replaceAll_eq_replaceFrom operatorSpacing, hfront, spacing_nil,
    textCost_append, textCost_cons, textCost_nil]
  omega

/-- A text splits at a border if what is written after the border ends with the rewriting of a
text of its own, which is no dearer. -/
theorem format_border {c : Char} (hsign : c ∉ Operator.signs) (hblank : c ≠ ' ')
    {front t between back v : Text} (hhead : c = ',' → t.head? ≠ some ' ')
    (hback : respell (some c) (recount tidyCount t) = between ++ rewrite back)
    (hcost : textCost (operatorSpacing.replaceAll back) ≤
      textCost (operatorSpacing.replaceFrom (some c) t))
    (h : format (front ++ c :: t) = .ok v) :
    ∃ x y, format (front ++ [c]) = .ok x ∧ format back = .ok y ∧ v = x ++ between ++ y := by
  obtain ⟨hprice, rfl⟩ := format_eq_ok_iff.mp h
  obtain ⟨front', hfront, hrewrite⟩ := exists_rewrite_border hsign hblank front
  have hfirst : 1 ≤ price (front ++ [c]) := by
    rw [price_eq]
    omega
  have hlast := price_eq back
  rw [price_border hsign] at hprice
  refine ⟨rewrite (front ++ [c]), rewrite back, format_of_price_le (by omega),
    format_of_price_le (by omega), ?_⟩
  rw [hrewrite t hhead, hback, hfront]
  simp

end Formatter

/-! ## Lines -/

/-- White space behind does as well as the start of a text. -/
theorem spacing_behind_start {c : Char} (hc : isSpace c = true) (t : Text) :
    operatorSpacing.replaceFrom (some c) t = operatorSpacing.replaceFrom none t := by
  have hb : Option.any isSolid (some c) = false := by simp [isSolid, hc]
  cases t with
  | nil => rw [spacing_nil, spacing_nil]
  | cons d t => rw [spacing_behind_space hb, spacing_behind_space rfl]

theorem not_mem_signs_of_isSpace {c : Char} (hc : isSpace c = true) : c ∉ Operator.signs := by
  intro hmem
  have hsolid := Operator.isSolid_of_mem_signs hmem
  simp [isSolid, hc] at hsolid

namespace Formatter

/-- A text is formatted line by line: a cut right after white space that is no blank, such as a
newline, makes no difference. -/
theorem lines_are_formatted_one_by_one (a b v : Text) (c : Char) (hlast : a.getLast? = some c)
    (hspace : isSpace c = true) (hblank : c ≠ ' ') (h : format (a ++ b) = .ok v) :
    ∃ x y, format a = .ok x ∧ format b = .ok y ∧ v = x ++ y := by
  obtain ⟨front, rfl⟩ := List.getLast?_eq_some_iff.mp hlast
  have hsign := not_mem_signs_of_isSpace hspace
  have hcomma : c ≠ ',' := by
    rintro rfl
    exact absurd hspace (by decide)
  rw [List.append_assoc, List.singleton_append] at h
  have hstart := spacing_behind_start hspace
  have hback : respell (some c) (recount tidyCount b) = [] ++ rewrite b := by
    rw [List.nil_append, rewrite_eq_respell, respell, respell, hstart]
  have hcost : textCost (operatorSpacing.replaceAll b) ≤
      textCost (operatorSpacing.replaceFrom (some c) b) :=
    Nat.le_of_eq (by rw [hstart, replaceAll_eq_replaceFrom])
  obtain ⟨x, y, hx, hy, rfl⟩ :=
    format_border hsign hblank (fun heq => absurd heq hcomma) hback hcost h
  exact ⟨x, y, hx, hy, by simp⟩

theorem a_call_is_formatted_apart_from_the_next_line :
    (("f(a,  \n".toList.getLast? = some '\n' ∧ isSpace '\n' = true ∧ '\n' ≠ ' ') ∧
      format ("f(a,  \n".toList ++ "  b)==c".toList) = .ok "f(a,\n  b) == c".toList) ∧
      ∃ x y, format "f(a,  \n".toList = .ok x ∧ format "  b)==c".toList = .ok y ∧
        "f(a,\n  b) == c".toList = x ++ y := by
  have hlast : "f(a,  \n".toList.getLast? = some '\n' := by decide
  have hspace : isSpace '\n' = true := by decide
  have hblank : '\n' ≠ ' ' := by decide
  have hformat : format ("f(a,  \n".toList ++ "  b)==c".toList) =
      .ok "f(a,\n  b) == c".toList := by decide
  exact ⟨⟨⟨hlast, hspace, hblank⟩, hformat⟩,
    lines_are_formatted_one_by_one _ _ _ '\n' hlast hspace hblank hformat⟩

end Formatter

/-! ## Operators that stand alone -/

theorem Operator.at?_alone (op : Operator) {c : Char} (hsolid : isSolid c = true)
    (hc : c ∉ Operator.signs) (t : Text) : Operator.at? (op.text ++ c :: t) = some op := by
  have hequals : '=' ≠ c := (Operator.ne_equals_of_not_mem_signs hc).symm
  cases op <;>
    simp [Operator.at?, Operator.all, Operator.fits, Operator.text, solidAhead_cons, hsolid,
      hequals]

/-- An operator that stands alone gets a blank on each side, and the text after it is written as
if it stood alone, too. -/
theorem spacing_alone (op : Operator) {a b : Char} (ha : isSolid a = true) (hb : isSolid b = true)
    (hsign : b ∉ Operator.signs) (t : Text) :
    operatorSpacing.replaceFrom (some a) (op.text ++ b :: t) =
      ' ' :: (op.text ++ ' ' :: operatorSpacing.replaceFrom none (b :: t)) := by
  have hbehind : Option.any isSolid (some a) = true := ha
  rw [spacing_found hbehind (op.at?_alone hb hsign t), spacing_plain hsign, spacing_plain hsign]

theorem respell_alone (op : Operator) {a b : Char} (ha : isSolid a = true) (hb : isSolid b = true)
    (hsign : b ∉ Operator.signs) (t : Text) :
    respell (some a) (op.text ++ b :: t) = ' ' :: (op.text ++ ' ' :: respell none (b :: t)) := by
  have hequals : b ≠ '=' := Operator.ne_equals_of_not_mem_signs hsign
  have hrepair : doubleEqualsRepair.replaceAll (' ' :: (op.text ++ [' '])) =
      ' ' :: (op.text ++ [' ']) := by
    cases op <;> decide
  have hspaced : ' ' :: (op.text ++ ' ' :: operatorSpacing.replaceFrom none (b :: t)) =
      ' ' :: (op.text ++ [' ']) ++ b :: operatorSpacing.replaceFrom (some b) t := by
    simp [spacing_plain hsign]
  rw [respell, spacing_alone op ha hb hsign, hspaced,
    repair_border (ne_blank_of_isSolid hb) hequals, hrepair, respell, spacing_plain hsign,
    repair_other hequals]
  simp

namespace Formatter

/-- An operator that stands alone between two solid characters, neither of them a sign of an
operator, gets a blank on each side. The texts before and after it are formatted as if each stood
alone. -/
theorem an_operator_that_stands_alone_splits_the_text (p q v : Text) (op : Operator) (a b : Char)
    (ha : isSolid a = true) (ha' : a ∉ Operator.signs) (hb : isSolid b = true)
    (hb' : b ∉ Operator.signs) (h : format (p ++ [a] ++ op.text ++ [b] ++ q) = .ok v) :
    ∃ x y, format (p ++ [a]) = .ok x ∧ format ([b] ++ q) = .ok y ∧
      v = x ++ [' '] ++ op.text ++ [' '] ++ y := by
  have htext : p ++ [a] ++ op.text ++ [b] ++ q = p ++ a :: (op.text ++ b :: q) := by simp
  rw [htext] at h
  have hhead : (op.text ++ b :: q).head? ≠ some ' ' := by cases op <;> simp [Operator.text]
  have hback : respell (some a) (recount tidyCount (op.text ++ b :: q)) =
      (' ' :: op.text ++ [' ']) ++ rewrite (b :: q) := by
    obtain ⟨q', hq⟩ : ∃ q', recount tidyCount (b :: q) = b :: q' :=
      List.head?_eq_some_iff.mp (head?_recount (b :: q))
    rw [recount_op, hq, respell_alone op ha hb hb', rewrite_eq_respell, hq]
    simp
  have hcost : textCost (operatorSpacing.replaceAll (b :: q)) ≤
      textCost (operatorSpacing.replaceFrom (some a) (op.text ++ b :: q)) := by
    rw [spacing_alone op ha hb hb', replaceAll_eq_replaceFrom]
    simp only [textCost_cons, textCost_append]
    omega
  obtain ⟨x, y, hx, hy, rfl⟩ :=
    format_border ha' (ne_blank_of_isSolid ha) (fun _ => hhead) hback hcost h
  exact ⟨x, y, hx, hy, by simp⟩

theorem a_comparison_after_a_comma_splits_the_text :
    ((isSolid ',' = true ∧ ',' ∉ Operator.signs) ∧ (isSolid 'b' = true ∧ 'b' ∉ Operator.signs)) ∧
      format ("x=-y".toList ++ [','] ++ Operator.equal.text ++ ['b'] ++ "= =c".toList) =
        .ok "x =  - y, == b==c".toList ∧
      ∃ x y, format ("x=-y".toList ++ [',']) = .ok x ∧ format (['b'] ++ "= =c".toList) = .ok y ∧
        "x =  - y, == b==c".toList = x ++ [' '] ++ Operator.equal.text ++ [' '] ++ y := by
  have hcomma : isSolid ',' = true ∧ ',' ∉ Operator.signs := by decide
  have hword : isSolid 'b' = true ∧ 'b' ∉ Operator.signs := by decide
  have hformat : format ("x=-y".toList ++ [','] ++ Operator.equal.text ++ ['b'] ++
      "= =c".toList) = .ok "x =  - y, == b==c".toList := by decide
  exact ⟨⟨hcomma, hword⟩, hformat, an_operator_that_stands_alone_splits_the_text _ _ _ .equal ',' 'b'
    hcomma.1 hcomma.2 hword.1 hword.2 hformat⟩

end Formatter

end Spacing
