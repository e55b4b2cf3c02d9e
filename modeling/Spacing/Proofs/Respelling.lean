-- What the operator pass and the repair make of a run of equal signs. The pass tears a run
-- into pairs and the repair joins most of them again, and only a settled run comes out as it
-- went in.
import Mathlib.Data.Nat.Init
import Spacing.Proofs.OperatorPass
import Spacing.Proofs.EqualRuns

namespace Spacing

open Rule

/-! ## Equal signs and the operator pass -/

namespace Rule

theorem spacing_behind_space {behind : Option Char} (hb : behind.any isSolid = false) (c : Char)
    (t : Text) :
    operatorSpacing.replaceFrom behind (c :: t) = c :: operatorSpacing.replaceFrom (some c) t := by
  apply spacing_pass
  rw [Pattern.operator_no_hit_iff]
  intro hb'
  rw [hb] at hb'
  cases hb'

/-- An operator of two characters is spaced before a solid character. Each ends in an equal sign. -/
theorem spacing_double (op : Operator) {first : Char} (hop : op.text = [first, '='])
    {behind : Option Char} {t : Text} (hb : behind.any isSolid = true)
    (ht : solidAhead t = true) :
    operatorSpacing.replaceFrom behind (first :: '=' :: t) =
      ' ' :: first :: '=' :: ' ' :: operatorSpacing.replaceFrom (some '=') t := by
  have hat : Operator.at? (op.text ++ t) = some op := by
    cases op with
    | equal | unequal => simp [Operator.at?, Operator.all, Operator.fits, Operator.text, ht]
    | plus | minus | times | divide | assign => cases hop
  have hlast : op.last = '=' := by simp [Operator.last, hop]
  have hspaced := spacing_found hb hat
  rwa [hop, hlast] at hspaced

theorem spacing_single {behind : Option Char} {t : Text} (hb : behind.any isSolid = true)
    (ht : solidAhead t = true) (hne : Operator.equal.fits ('=' :: t) = false) :
    operatorSpacing.replaceFrom behind ('=' :: t) =
      ' ' :: '=' :: ' ' :: operatorSpacing.replaceFrom (some '=') t := by
  have hop : Operator.at? (Operator.assign.text ++ t) = some .assign := by
    change Operator.at? ('=' :: t) = some .assign
    simp only [Operator.at?, Operator.all, List.find?_cons, hne]
    simp [Operator.fits, Operator.text, List.isPrefixOf, ht]
  exact spacing_found hb hop

theorem fits_equal_of_head?_ne {t : Text} (hne : t.head? ≠ some '=') :
    Operator.equal.fits ('=' :: t) = false := by
  cases t with
  | nil => rfl
  | cons c t =>
    have hc : c ≠ '=' := by simpa using hne
    simp [Operator.fits, Operator.text, Ne.symm hc]

theorem spacing_equals_gap {t : Text} (ht : solidAhead t = false) (behind : Option Char) :
    operatorSpacing.replaceFrom behind ('=' :: t) =
      '=' :: operatorSpacing.replaceFrom (some '=') t := by
  apply spacing_pass
  apply Pattern.operator_no_hit_of_fits
  intro op
  cases op with
  | assign | plus | minus | times | divide => simp [Operator.fits, Operator.text, ht]
  | equal | unequal =>
    cases t with
    | nil => rfl
    | cons c t =>
      have hc : c ≠ '=' := by
        rintro rfl
        rw [solidAhead_cons] at ht
        exact absurd ht (by decide)
      simp [Operator.fits, Operator.text, Ne.symm hc]

end Rule

/-! ## Both passes over a run -/

/-- The text with its operators spaced and its torn signs joined. -/
def respell (behind : Option Char) (t : Text) : Text :=
  doubleEqualsRepair.replaceAll (operatorSpacing.replaceFrom behind t)

/-- What comes of an equal sign with `gap` blanks after it, when a text and before it `n` more
signs follow. -/
def carry (gap n : Nat) (t : Text) : Text :=
  doubleEqualsRepair.replaceAll
    ('=' :: (blanks gap ++ operatorSpacing.replaceFrom (some '=') (equals n ++ t)))

theorem solid_equals : Option.any isSolid (some '=') = true := by decide

theorem carry_pair (gap : Nat) {n : Nat} {t : Text} (h : n ≠ 0 ∨ solidAhead t = true) :
    carry gap (n + 2) t = '=' :: '=' :: carry 1 n t := by
  have hsolid : solidAhead (equals n ++ t) = true := by
    cases n with
    | zero => exact h.resolve_left (fun hne => hne rfl)
    | succ n => exact solidAhead_cons '=' (equals n ++ t)
  have hspaced := spacing_double .equal rfl solid_equals hsolid
  unfold carry
  change doubleEqualsRepair.replaceAll ('=' :: (blanks gap ++
    operatorSpacing.replaceFrom (some '=') ('=' :: '=' :: (equals n ++ t)))) = _
  rw [hspaced, repair_torn_blank]
  rfl

theorem carry_one_of_solid (gap : Nat) {t : Text} (ht : solidAhead t = true)
    (hne : t.head? ≠ some '=') :
    carry gap 1 t = '=' :: '=' :: ' ' :: respell (some '=') t := by
  have hspaced := spacing_single solid_equals ht (fits_equal_of_head?_ne hne)
  unfold carry
  change doubleEqualsRepair.replaceAll ('=' :: (blanks gap ++
    operatorSpacing.replaceFrom (some '=') ('=' :: t))) = _
  rw [hspaced, repair_torn_blank, repair_blank]
  rfl

theorem carry_one_of_gap (gap : Nat) {t : Text} (ht : solidAhead t = false) :
    carry (gap + 1) 1 t = '=' :: '=' :: respell (some '=') t := by
  have hspaced := spacing_equals_gap ht (some '=')
  unfold carry
  change doubleEqualsRepair.replaceAll ('=' :: (blanks (gap + 1) ++
    operatorSpacing.replaceFrom (some '=') ('=' :: t))) = _
  rw [hspaced, repair_torn]
  rfl

theorem carry_two_of_gap (gap : Nat) {t : Text} (ht : solidAhead t = false) :
    carry gap 2 t = '=' :: '=' :: ' ' :: carry 0 0 t := by
  have hfits : Operator.equal.fits ('=' :: '=' :: t) = false := by
    simp [Operator.fits, Operator.text, ht]
  have hspaced := spacing_single (t := '=' :: t) solid_equals rfl hfits
  rw [spacing_equals_gap ht] at hspaced
  unfold carry
  change doubleEqualsRepair.replaceAll ('=' :: (blanks gap ++
    operatorSpacing.replaceFrom (some '=') ('=' :: '=' :: t))) = _
  rw [hspaced, repair_torn_blank, repair_blank]
  rfl

/-- The first character that is no blank stays the first that is none. -/
theorem exists_blanks_spacing (behind : Option Char) {t : Text} (h : t.head? ≠ some ' ') :
    ∃ n rest, operatorSpacing.replaceFrom behind t = blanks n ++ rest ∧
      rest.head? = t.head? := by
  cases behind, t using Pattern.operator_induction with
  | stop behind => exact ⟨0, [], by rw [spacing_nil]; rfl, rfl⟩
  | pass behind c t hh => exact ⟨0, _, spacing_pass hh, rfl⟩
  | found behind op t hb hop =>
    refine ⟨1, _, spacing_found hb hop, ?_⟩
    cases op <;> rfl

/-- A sign is torn from no text that starts with another character. -/
theorem tornAhead_spacing (behind : Option Char) (gap : Nat) {t : Text}
    (hblank : t.head? ≠ some ' ') (hne : t.head? ≠ some '=') :
    tornAhead (blanks gap ++ operatorSpacing.replaceFrom behind t) = false := by
  obtain ⟨n, rest, heq, hhead⟩ := exists_blanks_spacing behind hblank
  rw [heq, ← List.append_assoc, ← List.replicate_add, tornAhead_blanks _ (by rwa [hhead]), hhead]
  simp [hne]

theorem carry_zero (gap : Nat) {t : Text} (hblank : t.head? ≠ some ' ')
    (hne : t.head? ≠ some '=') :
    carry gap 0 t = '=' :: (blanks gap ++ respell (some '=') t) := by
  have htorn := tornAhead_spacing (some '=') gap hblank hne
  change doubleEqualsRepair.replaceAll
    ('=' :: (blanks gap ++ operatorSpacing.replaceFrom (some '=') t)) = _
  rw [repair_whole htorn, repair_blanks]
  rfl

/-- Before a solid text that is no sign, a run with a gap before it comes out as it went in
only if it is a lone sign. -/
theorem carry_eq_iff_of_solid {t : Text} (ht : solidAhead t = true) (hne : t.head? ≠ some '=')
    (gap n : Nat) :
    carry gap n t = equals (n + 1) ++ t ↔ n = 0 ∧ gap = 0 ∧ respell (some '=') t = t := by
  obtain ⟨c, t, rfl⟩ : ∃ c t', t = c :: t' := by
    cases t with
    | nil => cases ht
    | cons c t => exact ⟨c, t, rfl⟩
  have hc : c ≠ ' ' := by
    rintro rfl
    rw [solidAhead_cons] at ht
    exact absurd ht (by decide)
  induction n using Nat.twoStepInduction generalizing gap with
  | zero =>
    rw [carry_zero gap (by simpa using hc) hne]
    cases gap with
    | zero => simp
    | succ gap => simp [List.replicate_succ, Ne.symm hc]
  | one =>
    rw [carry_one_of_solid gap ht hne]
    simp [List.replicate_succ, Ne.symm hc]
  | more n ih _ =>
    rw [carry_pair gap (.inr ht)]
    rw [equals_succ_append (n + 2), equals_succ_append (n + 1), List.cons_inj_right,
      List.cons_inj_right]
    exact (ih 1).trans (by simp)

theorem tornAhead_spacing_eq (behind : Option Char) {t : Text} (hne : t.head? ≠ some '=') :
    tornAhead (operatorSpacing.replaceFrom behind t) = tornAhead t := by
  obtain ⟨n, rest, rfl, hrest⟩ := exists_blanks_append t
  cases n with
  | zero =>
    have hspaced := tornAhead_spacing behind 0 hrest hne
    have hplain := tornAhead_blanks 0 hrest
    simp_all
  | succ n =>
    rw [spacing_blanks_succ, tornAhead_blanks _ hrest,
      tornAhead_blanks _ (by rwa [head?_spacing_blank]), head?_spacing_blank]

theorem carry_zero_of_whole {t : Text} (hne : t.head? ≠ some '=') (ht : tornAhead t = false) :
    carry 0 0 t = '=' :: respell (some '=') t := by
  change doubleEqualsRepair.replaceAll ('=' :: operatorSpacing.replaceFrom (some '=') t) = _
  rw [repair_whole (by rwa [tornAhead_spacing_eq _ hne])]
  rfl

/-- A lone sign stays if no sign was torn from it. -/
theorem carry_zero_eq_iff {t : Text} (hne : t.head? ≠ some '=') :
    carry 0 0 t = '=' :: t ↔ tornAhead t = false ∧ respell (some '=') t = t := by
  cases ht : tornAhead t with
  | false =>
    rw [carry_zero_of_whole hne ht, List.cons_inj_right]
    simp
  | true =>
    obtain ⟨n, rest, rfl⟩ := tornAhead_iff.mp ht
    change doubleEqualsRepair.replaceAll
      ('=' :: operatorSpacing.replaceFrom (some '=') (blanks (n + 1) ++ '=' :: rest)) = _ ↔ _
    rw [spacing_blanks_succ, spacing_behind_space (by decide), repair_torn]
    simp [List.replicate_succ]

theorem carry_zero_one {t : Text} (ht : solidAhead t = false) :
    carry 0 1 t = '=' :: carry 0 0 t := by
  have hcarry : carry 0 1 t = doubleEqualsRepair.replaceAll
      ('=' :: operatorSpacing.replaceFrom (some '=') ('=' :: t)) := rfl
  rw [hcarry, spacing_equals_gap ht, repair_whole rfl]
  rfl

/-- Before a gap an odd number of signs that follow a sign are all joined. -/
theorem carry_odd_eq_iff {t : Text} (ht : solidAhead t = false) (gap m : Nat) :
    carry (gap + 1) (2 * m + 1) t = equals (2 * m + 2) ++ t ↔ respell (some '=') t = t := by
  induction m generalizing gap with
  | zero =>
    change carry (gap + 1) 1 t = '=' :: '=' :: t ↔ _
    rw [carry_one_of_gap gap ht, List.cons_inj_right, List.cons_inj_right]
  | succ m ih =>
    change carry (gap + 1) (2 * m + 1 + 2) t = '=' :: '=' :: (equals (2 * m + 2) ++ t) ↔ _
    rw [carry_pair _ (.inl (by omega)), List.cons_inj_right, List.cons_inj_right]
    exact ih 0

/-- Before a gap the last of an even number of signs that follow a sign is torn. -/
theorem carry_even_ne {t : Text} (ht : solidAhead t = false) (gap m : Nat) :
    carry gap (2 * m + 2) t ≠ equals (2 * m + 3) ++ t := by
  induction m generalizing gap with
  | zero =>
    change carry gap 2 t ≠ '=' :: '=' :: '=' :: t
    rw [carry_two_of_gap gap ht]
    simp
  | succ m ih =>
    change carry gap (2 * m + 2 + 2) t ≠ '=' :: '=' :: (equals (2 * m + 3) ++ t)
    rw [carry_pair _ (.inl (by omega)), Ne, List.cons_inj_right, List.cons_inj_right]
    exact ih 1

/-- A run behind a gap, with a gap after it. -/
theorem carry_zero_eq_iff_of_gap {t : Text} (ht : solidAhead t = false)
    (hne : t.head? ≠ some '=') (n : Nat) :
    carry 0 n t = equals (n + 1) ++ t ↔
      (if tornAhead t = true then 4 ≤ n + 1 ∧ (n + 1) % 2 = 0 else n = 0 ∨ (n + 1) % 2 = 0) ∧
        respell (some '=') t = t := by
  obtain ⟨m, rfl | rfl⟩ : ∃ m, n = 2 * m ∨ n = 2 * m + 1 := ⟨n / 2, by omega⟩
  · cases m with
    | zero =>
      change carry 0 0 t = '=' :: t ↔ _
      rw [carry_zero_eq_iff hne]
      cases tornAhead t <;> simp
    | succ m =>
      have hfalse := carry_even_ne ht 0 m
      have hodd : (2 * (m + 1) + 1) % 2 ≠ 0 := by omega
      simp only [hodd]
      exact ⟨fun h => absurd h hfalse, fun h => by split at h <;> simp at h⟩
  · cases m with
    | zero =>
      change carry 0 1 t = '=' :: '=' :: t ↔ _
      rw [carry_zero_one ht, List.cons_inj_right, carry_zero_eq_iff hne]
      cases tornAhead t <;> simp
    | succ m =>
      change carry 0 (2 * m + 1 + 2) t = '=' :: '=' :: (equals (2 * m + 2) ++ t) ↔ _
      rw [carry_pair _ (.inl (by omega)), List.cons_inj_right, List.cons_inj_right]
      refine (carry_odd_eq_iff ht 0 m).trans ?_
      have hfour : 4 ≤ 2 * (m + 1) + 1 + 1 := by omega
      have heven : (2 * (m + 1) + 1 + 1) % 2 = 0 := by omega
      simp [hfour, heven]

theorem respell_run_behind_gap {behind : Option Char} (hb : behind.any isSolid = false) (n : Nat)
    (t : Text) : respell behind ('=' :: (equals n ++ t)) = carry 0 n t := by
  unfold respell
  rw [spacing_behind_space hb]
  rfl

theorem respell_lone_before_gap {t : Text} (ht : solidAhead t = false) (behind : Option Char) :
    respell behind ('=' :: t) = carry 0 0 t := by
  unfold respell
  rw [spacing_equals_gap ht]
  rfl

/-- Both passes keep a run, and all that follows it, exactly if the run is settled. -/
theorem respell_run_eq_iff (behind : Option Char) (n : Nat) {t : Text}
    (hne : t.head? ≠ some '=') :
    respell behind (equals (n + 1) ++ t) = equals (n + 1) ++ t ↔
      (EqualRun.mk behind (n + 1) t).Settled ∧ respell (some '=') t = t := by
  rw [equals_succ_append]
  cases hb : behind.any isSolid with
  | false =>
    rw [respell_run_behind_gap hb, ← equals_succ_append]
    cases ht : solidAhead t with
    | false =>
      rw [carry_zero_eq_iff_of_gap ht hne, EqualRun.Settled]
      simp [hb, ht]
    | true =>
      have htorn : tornAhead t = false := by
        by_contra h
        obtain ⟨m, rest, rfl⟩ := tornAhead_iff.mp (Bool.not_eq_false _ ▸ h)
        rw [blanks_succ_append, solidAhead_cons] at ht
        exact absurd ht (by decide)
      rw [carry_eq_iff_of_solid ht hne, EqualRun.Settled]
      simp [hb, ht, htorn]
  | true =>
    by_cases hlone : n = 0 ∧ solidAhead t = false
    · obtain ⟨rfl, ht⟩ := hlone
      change respell behind ('=' :: t) = '=' :: t ↔ _
      rw [respell_lone_before_gap ht, carry_zero_eq_iff hne, EqualRun.Settled]
      cases tornAhead t <;> simp [hb, ht]
    · -- The first sign is taken for an operator, so a blank comes before it.
      have hsolid : solidAhead (equals n ++ t) = true := by
        cases n with
        | zero => simpa using hlone
        | succ n => rfl
      have hfits : Operator.assign.fits ('=' :: (equals n ++ t)) = true :=
        Operator.fits_iff.mpr ⟨_, rfl, hsolid⟩
      obtain ⟨rest, hspaced, -⟩ := spacing_of_fits hb hfits
      constructor
      · intro h
        unfold respell at h
        rw [hspaced, repair_blank] at h
        cases h
      · rintro ⟨h, -⟩
        rw [EqualRun.Settled] at h
        exfalso
        split at h
        · simp [hb] at h
        · rcases h with ⟨hsize, hgap⟩ | ⟨-, hgap, -⟩
          · refine hlone ⟨by simpa using hsize, ?_⟩
            simpa [hb] using hgap
          · simp [hb] at hgap

/-! ## A whole text -/

/-- The operators of one character that no repair joins. -/
def arithmetic : List Char := ['+', '-', '*', '/']

/-- No such operator stands between two solid characters. -/
def ArithmeticSpaced (behind : Option Char) : Text → Prop
  | [] => True
  | c :: t =>
    (c ∈ arithmetic → (behind.any isSolid && solidAhead t) = false) ∧ ArithmeticSpaced (some c) t

theorem ArithmeticSpaced.of_append_cons {behind : Option Char} {w t : Text} {c : Char}
    (h : ArithmeticSpaced behind (w ++ c :: t)) : ArithmeticSpaced (some c) t := by
  induction w generalizing behind with
  | nil => exact h.2
  | cons d w ih => exact ih h.2

theorem respell_other_eq_iff {behind : Option Char} {c : Char} {t : Text} (hc : c ≠ '=')
    (ha : ArithmeticSpaced behind (c :: t)) :
    respell behind (c :: t) = c :: t ↔ respell (some c) t = t := by
  cases hh : (Pattern.operator.attempt behind (c :: t)).hit? with
  | none => rw [respell, spacing_pass hh, repair_other hc, List.cons_inj_right, respell]
  | some h =>
    obtain ⟨hb, op, hop, -⟩ := Pattern.operator_hit_iff.mp hh
    have hfits := Operator.fits_of_at? hop
    obtain ⟨rest, hspaced, -⟩ := spacing_of_fits hb hfits
    obtain ⟨rest', heq, hsolid⟩ := Operator.fits_iff.mp hfits
    have hlone : ∀ d, d ∈ arithmetic → c :: t = d :: rest' → False := by
      rintro d hd ⟨⟩
      have := ha.1 hd
      rw [hb, hsolid] at this
      cases this
    -- Only an unequal sign is left, and then the run of its equal sign is not settled.
    have hunequal : c = '!' ∧ t = '=' :: rest' := by
      cases op with
      | plus | minus | times | divide => exact (hlone _ (by decide) heq).elim
      | equal | assign =>
        cases heq
        exact absurd rfl hc
      | unequal =>
        cases heq
        exact ⟨rfl, rfl⟩
    obtain ⟨rfl, rfl⟩ := hunequal
    have hassign : Operator.assign.fits ('=' :: rest') = true :=
      Operator.fits_iff.mpr ⟨rest', rfl, hsolid⟩
    have hsolid' : Option.any isSolid (some '!') = true := by decide
    obtain ⟨rest'', hnext, -⟩ := spacing_of_fits hsolid' hassign
    unfold respell
    rw [hspaced, hnext, repair_blank, repair_blank]
    simp

/-- Both passes give a text back exactly if all its runs of equal signs are settled. -/
theorem respell_eq_self_iff {behind : Option Char} {t : Text} (ha : ArithmeticSpaced behind t) :
    respell behind t = t ↔ ∀ r ∈ equalRunsFrom behind 0 t, r.Settled := by
  induction behind, t using run_induction with
  | nil behind =>
    unfold respell
    rw [spacing_nil, repair_nil]
    simp [equalRunsFrom, EqualRun.ending]
  | other behind c t hc ih => rw [respell_other_eq_iff hc ha, equalRunsFrom_other hc, ih ha.2]
  | run behind n t ht ih =>
    rw [respell_run_eq_iff behind n ht, ih (equals_append_sign n t ▸ ha).of_append_cons,
      equalRunsFrom_run behind (n + 1) 0 ht (by omega), List.forall_mem_cons]

end Spacing
