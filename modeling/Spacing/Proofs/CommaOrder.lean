-- The blanks after commas are no concern of the other rules: counting them anew may come
-- before the operators are spaced or after, and before the repair or after.
import Spacing.Proofs.OperatorPass
import Spacing.Proofs.CommaPass
import Spacing.Proofs.EqualSigns

namespace Spacing

/-! ## Counts that keep gaps -/

/-- The count makes no gap, and before a solid character it closes none and keeps one blank. -/
structure KeepsGaps (count : Nat → Option Char → Nat) : Prop where
  zero : ∀ next, count 0 next = 0
  one : ∀ c, isSolid c = true → count 1 (some c) = 1
  open_ : ∀ n c, isSolid c = true → n ≠ 0 → count n (some c) ≠ 0

theorem keepsGaps_of_min {count : Nat → Option Char → Nat} (zero : ∀ next, count 0 next = 0)
    (h : ∀ n next, next ≠ some '\n' → count n next = n ∨ count n next = min n 1) :
    KeepsGaps count := by
  have hline : ∀ c, isSolid c = true → some c ≠ some '\n' := by
    rintro c hc ⟨⟩
    exact absurd hc (by decide)
  refine ⟨zero, fun c hc => ?_, fun n c hc hn => ?_⟩
  · rcases h 1 (some c) (hline c hc) with heq | heq <;> omega
  · rcases h n (some c) (hline c hc) with heq | heq <;> omega

theorem keepsGaps_spacingCount : KeepsGaps spacingCount :=
  keepsGaps_of_min (by simp [spacingCount]) fun n next h => .inr (by rw [spacingCount, if_neg h])

theorem keepsGaps_lineEndCount : KeepsGaps lineEndCount :=
  keepsGaps_of_min (by simp [lineEndCount]) fun n next h => .inl (by rw [lineEndCount, if_neg h])

theorem keepsGaps_tidyCount : KeepsGaps tidyCount :=
  keepsGaps_of_min (by simp [tidyCount]) fun n next h => .inr (by rw [tidyCount, if_neg h])

/-! ## Operators -/

section Operators

variable {count : Nat → Option Char → Nat}

theorem solidAhead_recount (t : Text) : solidAhead (recount count t) = solidAhead t := by
  rw [solidAhead, head?_recount, solidAhead]

theorem eq_cons_of_recount_eq_cons {t y : Text} {x : Char} (h : recount count t = x :: y)
    (hx : x ≠ ',') : ∃ rest, t = x :: rest ∧ y = recount count rest := by
  cases t with
  | nil => cases h
  | cons c t =>
    have hhead : (recount count (c :: t)).head? = some c := head?_recount (c :: t)
    rw [h] at hhead
    cases hhead
    rw [recount_cons hx] at h
    cases h
    exact ⟨t, rfl, rfl⟩

theorem fits_recount (op : Operator) (t : Text) : op.fits (recount count t) = op.fits t := by
  rw [Bool.eq_iff_iff]
  constructor
  · refine @Operator.fits_of_edit (fun u t => u = recount count t) ?_ ?_ op _ _ rfl
    · rintro x y t - hx hu
      exact eq_cons_of_recount_eq_cons hu.symm hx
    · rintro y t rfl hy
      rwa [solidAhead_recount] at hy
  · refine @Operator.fits_of_edit (fun u t => t = recount count u) ?_ ?_ op _ _ rfl
    · rintro x y t - hx rfl
      exact ⟨_, recount_cons hx y, rfl⟩
    · rintro y t rfl hy
      rwa [solidAhead_recount]

theorem at?_recount (t : Text) : Operator.at? (recount count t) = Operator.at? t := by
  simp only [Operator.at?, fits_recount]

theorem operator_no_hit_recount {behind : Option Char} {t : Text} :
    (Pattern.operator.attempt behind (recount count t)).hit? = none ↔
      (Pattern.operator.attempt behind t).hit? = none := by
  simp only [Pattern.operator_no_hit_iff, fits_recount]

theorem recount_op (op : Operator) (t : Text) :
    recount count (op.text ++ t) = op.text ++ recount count t := by
  have hread : ∀ w : Text, (∀ c ∈ w, c ∈ op.text) →
      recount count (w ++ t) = w ++ recount count t := by
    intro w
    induction w with
    | nil => exact fun _ => rfl
    | cons c w ih =>
      intro hw
      have hc := Operator.ne_comma_of_mem_text (hw c List.mem_cons_self)
      rw [List.cons_append, recount_cons hc, ih fun d hd => hw d (List.mem_cons_of_mem c hd)]
      rfl
  exact hread op.text fun _ hc => hc

theorem recount_comma_of_head (hcount : KeepsGaps count) {t : Text} (h : t.head? ≠ some ' ') :
    recount count (',' :: t) = ',' :: recount count t := by
  have hrecount : recount count (',' :: t) =
      ',' :: (blanks (count 0 t.head?) ++ recount count t) := recount_comma 0 h
  rwa [hcount.zero] at hrecount

theorem head?_op (op : Operator) (t : Text) :
    ∃ c, (op.text ++ t).head? = some c ∧ isSolid c = true := by
  cases op <;> exact ⟨_, rfl, by decide⟩

/-- The one blank that an operator got after a comma is kept. -/
theorem recount_comma_spacing (hcount : KeepsGaps count) {behind : Option Char} {t : Text}
    (h : t.head? ≠ some ' ') :
    recount count (',' :: Rule.operatorSpacing.replaceFrom behind t) =
      ',' :: recount count (Rule.operatorSpacing.replaceFrom behind t) := by
  cases behind, t using Pattern.operator_induction with
  | stop behind =>
    rw [Rule.spacing_nil]
    exact recount_comma_of_head hcount (by simp)
  | pass behind c t hh =>
    rw [Rule.spacing_pass hh]
    exact recount_comma_of_head hcount (by simpa using h)
  | found behind op t hb hop =>
    rw [Rule.spacing_found hb hop]
    obtain ⟨c, hhead, hc⟩ := head?_op op (' ' :: Rule.operatorSpacing.replaceFrom (some op.last) t)
    generalize op.text ++ ' ' :: Rule.operatorSpacing.replaceFrom (some op.last) t = u at hhead ⊢
    have hne : u.head? ≠ some ' ' := by
      rw [hhead]
      rintro ⟨⟩
      exact absurd hc (by decide)
    have hone : recount count (',' :: ' ' :: u) =
        ',' :: (blanks (count 1 u.head?) ++ recount count u) := recount_comma 1 hne
    rw [hhead, hcount.one c hc] at hone
    rw [hone, recount_cons (by decide)]
    rfl

/-- The blanks after commas may be counted anew before the operators are spaced or after. -/
theorem spacing_recount (hcount : KeepsGaps count) (behind : Option Char) (t : Text) :
    Rule.operatorSpacing.replaceFrom behind (recount count t) =
      recount count (Rule.operatorSpacing.replaceFrom behind t) := by
  induction behind, t using Pattern.operator_induction with
  | stop behind => simp only [recount_nil, Rule.spacing_nil]
  | found behind op t hb hop _ ih =>
    rw [recount_op, Rule.spacing_found hb (by rwa [← recount_op, at?_recount]), ih,
      Rule.spacing_found hb hop, recount_cons (by decide), recount_op, recount_cons (by decide)]
  | pass behind c t hh ih =>
    have hh' : (Pattern.operator.attempt behind (recount count (c :: t))).hit? = none :=
      operator_no_hit_recount.mpr hh
    rw [Rule.spacing_pass hh]
    by_cases hc : c = ','
    · subst hc
      obtain ⟨n, rest, rfl, hrest⟩ := exists_blanks_append t
      rw [recount_comma n hrest] at hh' ⊢
      rw [Rule.spacing_pass hh']
      cases n with
      | zero =>
        rw [hcount.zero]
        rw [show blanks 0 ++ rest = rest from rfl] at ih ⊢
        rw [recount_comma_spacing hcount hrest, ← ih]
        rfl
      | succ n =>
        rw [recount_blanks, Rule.spacing_blanks_succ, Rule.spacing_blanks_succ, recount_blanks,
          blanks_append_cancel] at ih
        have hclosed : count (n + 1) rest.head? = 0 → solidAhead (recount count rest) = false := by
          intro hzero
          rw [solidAhead_recount]
          cases rest with
          | nil => rfl
          | cons d rest =>
            rw [solidAhead_cons]
            by_contra hd
            exact hcount.open_ (n + 1) d (by simpa using hd) (Nat.succ_ne_zero n) hzero
        have hhead := Rule.head?_spacing_blank rest
        rw [Rule.spacing_blanks hclosed, Rule.spacing_blanks_succ, recount_comma, hhead, ih]
        rwa [hhead]
    · rw [recount_cons hc] at hh' ⊢
      rw [Rule.spacing_pass hh', recount_cons hc, ih]

end Operators

/-! ## The repair -/

/-- The blanks after commas may be counted anew before the repair or after. -/
theorem repair_recount (count : Nat → Option Char → Nat) (t : Text) :
    Rule.doubleEqualsRepair.replaceAll (recount count t) =
      recount count (Rule.doubleEqualsRepair.replaceAll t) := by
  have hequals : '=' ≠ ',' := by decide
  induction t using Rule.repair_induction with
  | nil => simp only [recount_nil, Rule.repair_nil]
  | other c t hc ih =>
    rw [Rule.repair_other hc]
    by_cases hcomma : c = ','
    · subst hcomma
      obtain ⟨n, rest, rfl, hrest⟩ := exists_blanks_append t
      rw [recount_blanks, Rule.repair_blanks, Rule.repair_blanks, recount_blanks,
        blanks_append_cancel] at ih
      rw [recount_comma n hrest, Rule.repair_other hc, Rule.repair_blanks, Rule.repair_blanks, ih,
        recount_comma n (by rwa [Rule.head?_repair]), Rule.head?_repair]
    · rw [recount_cons hcomma, Rule.repair_other hc, recount_cons hcomma, ih]
  | whole t ht ih =>
    have ht' : tornAhead (recount count t) = false := by
      obtain ⟨n, rest, rfl, hrest⟩ := exists_blanks_append t
      have hrest' : (recount count rest).head? ≠ some ' ' := by rwa [head?_recount]
      rw [recount_blanks, tornAhead_blanks n hrest', head?_recount]
      rwa [tornAhead_blanks n hrest] at ht
    rw [recount_cons hequals, Rule.repair_whole ht', Rule.repair_whole ht, recount_cons hequals, ih]
  | torn n t ih =>
    rw [recount_cons hequals, recount_blanks, recount_cons hequals, Rule.repair_torn,
      Rule.repair_torn, recount_cons hequals, recount_cons hequals, ih]

end Spacing
