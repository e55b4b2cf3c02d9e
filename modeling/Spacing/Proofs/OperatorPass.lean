-- The pass that puts blanks around operators. It leaves no operator between two solid
-- characters, so a second pass over its result has nothing to do.
import Spacing.Formatter
import Spacing.Proofs.BlankRuns

namespace Spacing

/-! ## Where an operator fits -/

namespace Operator

theorem fits_iff {op : Operator} {t : Text} :
    op.fits t = true ↔ ∃ rest, t = op.text ++ rest ∧ solidAhead rest = true := by
  rw [fits, Bool.and_eq_true, List.isPrefixOf_iff_prefix]
  constructor
  · rintro ⟨⟨rest, rfl⟩, hsolid⟩
    exact ⟨rest, rfl, by simpa using hsolid⟩
  · rintro ⟨rest, rfl, hsolid⟩
    exact ⟨List.prefix_append _ _, by simpa using hsolid⟩

theorem at?_eq_none_iff {t : Text} : at? t = none ↔ ∀ op : Operator, op.fits t = false := by
  simp only [at?, List.find?_eq_none, Bool.not_eq_true]
  exact ⟨fun h op => h op (mem_all op), fun h op _ => h op⟩

/-- The character that an operator ends with. -/
def last (op : Operator) : Char := op.text.getLast op.text_ne_nil

theorem getLast?_text (op : Operator) : op.text.getLast? = some op.last :=
  List.getLast?_eq_some_getLast op.text_ne_nil

theorem isSolid_of_mem_text {op : Operator} {c : Char} (h : c ∈ op.text) : isSolid c = true := by
  cases op <;> simp only [text, List.mem_cons, List.not_mem_nil, or_false] at h <;>
    rcases h with rfl | rfl <;> decide

theorem ne_comma_of_mem_text {op : Operator} {c : Char} (h : c ∈ op.text) : c ≠ ',' := by
  cases op <;> simp only [text, List.mem_cons, List.not_mem_nil, or_false] at h <;>
    rcases h with rfl | rfl <;> decide

/-- The characters that operators are written with. -/
def signs : List Char := ['+', '-', '*', '/', '=', '!']

/-- The characters that operators end with. -/
def endings : List Char := ['+', '-', '*', '/', '=']

theorem mem_signs_of_mem_text {op : Operator} {c : Char} (h : c ∈ op.text) : c ∈ signs := by
  cases op <;> simp only [text, List.mem_cons, List.not_mem_nil, or_false] at h <;>
    rcases h with rfl | rfl <;> decide

theorem isSolid_of_mem_signs {c : Char} (h : c ∈ signs) : isSolid c = true := by
  simp only [signs, List.mem_cons, List.not_mem_nil, or_false] at h
  rcases h with rfl | rfl | rfl | rfl | rfl | rfl <;> decide

theorem last_mem_endings (op : Operator) : op.last ∈ endings := by cases op <;> decide

theorem endings_subset_signs : endings ⊆ signs := by decide

/-- An operator that fits after an edit fits before it, if the edit keeps the solid characters
at the head of a text, commas aside. -/
theorem fits_of_edit {edit : Text → Text → Prop}
    (hhead : ∀ x y t, isSolid x = true → x ≠ ',' → edit (x :: y) t →
      ∃ rest, t = x :: rest ∧ edit y rest)
    (hsolid : ∀ y t, edit y t → solidAhead y = true → solidAhead t = true)
    {op : Operator} {u t : Text} (h : edit u t) (hfits : op.fits u = true) :
    op.fits t = true := by
  obtain ⟨y, rfl, hy⟩ := fits_iff.mp hfits
  have hread : ∀ (w : Text) u, (∀ c ∈ w, c ∈ op.text) → edit (w ++ y) u →
      ∃ rest, u = w ++ rest ∧ edit y rest := by
    intro w
    induction w with
    | nil => exact fun u _ hu => ⟨u, rfl, hu⟩
    | cons c w ih =>
      intro u hw hu
      have hc := hw c List.mem_cons_self
      obtain ⟨u', rfl, hu'⟩ := hhead c _ u (isSolid_of_mem_text hc) (ne_comma_of_mem_text hc) hu
      obtain ⟨rest, rfl, hrest⟩ := ih u' (fun d hd => hw d (List.mem_cons_of_mem c hd)) hu'
      exact ⟨rest, rfl, hrest⟩
  obtain ⟨rest, rfl, hrest⟩ := hread op.text t (fun _ hc => hc) h
  exact fits_iff.mpr ⟨rest, rfl, hsolid y rest hrest hy⟩

theorem fits_space (op : Operator) {c : Char} (hc : isSolid c = false) (t : Text) :
    op.fits (c :: t) = false := by
  by_contra hne
  obtain ⟨rest, heq, -⟩ := fits_iff.mp (Bool.not_eq_false _ ▸ hne)
  obtain ⟨d, w, hd⟩ := List.exists_cons_of_ne_nil op.text_ne_nil
  rw [hd] at heq
  cases heq
  have hsolid : isSolid c = true := isSolid_of_mem_text (by rw [hd]; exact List.mem_cons_self)
  rw [hsolid] at hc
  cases hc

theorem fits_blank (op : Operator) (t : Text) : op.fits (' ' :: t) = false :=
  op.fits_space (by decide) t

end Operator

namespace Pattern

theorem operator_hit_iff {behind : Option Char} {t : Text} {h : Hit} :
    (operator.attempt behind t).hit? = some h ↔
      behind.any isSolid = true ∧ ∃ op, Operator.at? t = some op ∧ h = Hit.all op.text := by
  simp only [attempt, tryOperator]
  split
  · rename_i hb
    simp [hb, eq_comm]
  · rename_i hb
    simp [hb]

theorem operator_no_hit_iff {behind : Option Char} {t : Text} :
    (operator.attempt behind t).hit? = none ↔
      (behind.any isSolid = true → ∀ op : Operator, op.fits t = false) := by
  rw [← Operator.at?_eq_none_iff]
  simp only [attempt, tryOperator]
  split <;> simp_all

theorem operator_no_hit_of_fits {behind : Option Char} {t : Text}
    (h : ∀ op : Operator, op.fits t = false) : (operator.attempt behind t).hit? = none := by
  rw [operator_no_hit_iff]
  intro _
  exact h

theorem operator_no_hit_at_blank (behind : Option Char) (t : Text) :
    (operator.attempt behind (' ' :: t)).hit? = none :=
  operator_no_hit_of_fits fun op => op.fits_blank t

theorem operator_no_hit_behind_space {c : Char} (hc : isSolid c = false) (t : Text) :
    (operator.attempt (some c) t).hit? = none := by
  rw [operator_no_hit_iff]
  intro hb
  simp [hc] at hb

/-- Induction along the scan for operators. -/
theorem operator_induction {motive : Option Char → Text → Prop}
    (stop : ∀ behind, motive behind [])
    (pass : ∀ behind c t, (operator.attempt behind (c :: t)).hit? = none → motive (some c) t →
      motive behind (c :: t))
    (found : ∀ behind (op : Operator) t, behind.any isSolid = true →
      Operator.at? (op.text ++ t) = some op → solidAhead t = true → motive (some op.last) t →
      motive behind (op.text ++ t))
    (behind : Option Char) (t : Text) : motive behind t := by
  induction behind, t using scan_induction neverEmpty_operator with
  | stop behind => exact stop behind
  | pass behind c t hh ih => exact pass behind c t hh ih
  | hit behind h t hh ih =>
    obtain ⟨hb, op, hop, rfl⟩ := operator_hit_iff.mp hh
    rw [Hit.whole_all] at hop ih ⊢
    rw [Operator.getLast?_text] at ih
    obtain ⟨rest, heq, hsolid⟩ := Operator.fits_iff.mp (Operator.fits_of_at? hop)
    obtain rfl : t = rest := List.append_cancel_left heq
    exact found behind op t hb hop hsolid ih

theorem operator_hit_of_found {behind : Option Char} {op : Operator} {t : Text}
    (hb : behind.any isSolid = true) (hop : Operator.at? (op.text ++ t) = some op) :
    (operator.attempt behind ((Hit.all op.text).whole ++ t)).hit? = some (Hit.all op.text) :=
  operator_hit_iff.mpr ⟨hb, op, by rwa [Hit.whole_all], rfl⟩

theorem operator_hitsFrom_found {behind : Option Char} {op : Operator} {t : Text}
    (hb : behind.any isSolid = true) (hop : Operator.at? (op.text ++ t) = some op) :
    operator.hitsFrom behind (op.text ++ t) =
      Hit.all op.text :: operator.hitsFrom (some op.last) t := by
  have := hitsFrom_hit neverEmpty_operator (operator_hit_of_found hb hop)
  rwa [Hit.whole_all, Operator.getLast?_text] at this

/-- A blank behind allows no more than what was behind before. -/
theorem operator_absentFrom_blank {behind : Option Char} {t : Text}
    (h : operator.AbsentFrom behind t) : operator.AbsentFrom (some ' ') t := by
  cases t with
  | nil => exact no_hit_nil neverEmpty_operator _
  | cons c t => exact ⟨operator_no_hit_behind_space rfl _, h.2⟩

end Pattern

/-! ## Blanks around operators -/

namespace Rule

theorem spacing_nil (behind : Option Char) : operatorSpacing.replaceFrom behind [] = [] :=
  replaceFrom_nil (r := operatorSpacing) Pattern.neverEmpty_operator behind

theorem spacing_pass {behind : Option Char} {c : Char} {t : Text}
    (hh : (Pattern.operator.attempt behind (c :: t)).hit? = none) :
    operatorSpacing.replaceFrom behind (c :: t) =
      c :: operatorSpacing.replaceFrom (some c) t :=
  replaceFrom_pass Pattern.neverEmpty_operator hh

theorem spacing_found {behind : Option Char} {op : Operator} {t : Text}
    (hb : behind.any isSolid = true) (hop : Operator.at? (op.text ++ t) = some op) :
    operatorSpacing.replaceFrom behind (op.text ++ t) =
      ' ' :: (op.text ++ ' ' :: operatorSpacing.replaceFrom (some op.last) t) := by
  have := replaceFrom_hit (r := operatorSpacing) Pattern.neverEmpty_operator
    (Pattern.operator_hit_of_found hb hop)
  rw [Hit.whole_all, Operator.getLast?_text] at this
  rw [this]
  simp [operatorSpacing, Replacement.fill, Hit.all]

/-- No operator is found on the way over blanks. -/
theorem spacing_blanks_succ (behind : Option Char) (n : Nat) (t : Text) :
    operatorSpacing.replaceFrom behind (blanks (n + 1) ++ t) =
      blanks (n + 1) ++ operatorSpacing.replaceFrom (some ' ') t := by
  induction n generalizing behind with
  | zero => exact spacing_pass (Pattern.operator_no_hit_at_blank behind t)
  | succ n ih =>
    rw [blanks_succ_append, spacing_pass (Pattern.operator_no_hit_at_blank _ _), ih]
    rfl

/-- What stands behind matters only to an operator, and an operator is solid. -/
theorem spacing_behind {t : Text} (h : solidAhead t = false) (behind behind' : Option Char) :
    operatorSpacing.replaceFrom behind t = operatorSpacing.replaceFrom behind' t := by
  cases t with
  | nil =>
    rw [spacing_nil, spacing_nil]
  | cons c t =>
    rw [solidAhead_cons] at h
    have hfits : ∀ op : Operator, op.fits (c :: t) = false := fun op => op.fits_space h t
    rw [spacing_pass (Pattern.operator_no_hit_of_fits hfits),
      spacing_pass (Pattern.operator_no_hit_of_fits hfits)]

theorem spacing_blanks {behind : Option Char} {n : Nat} {t : Text}
    (h : n = 0 → solidAhead t = false) :
    operatorSpacing.replaceFrom behind (blanks n ++ t) =
      blanks n ++ operatorSpacing.replaceFrom (some ' ') t := by
  cases n with
  | zero => exact spacing_behind (h rfl) behind (some ' ')
  | succ n => exact spacing_blanks_succ behind n t

/-- Behind a blank the first character stays the first. -/
theorem head?_spacing_blank (t : Text) :
    (operatorSpacing.replaceFrom (some ' ') t).head? = t.head? := by
  cases t with
  | nil => rw [spacing_nil]
  | cons c t =>
    rw [spacing_pass (Pattern.operator_no_hit_behind_space (by decide) _)]
    rfl

theorem spacing_of_fits {behind : Option Char} {op : Operator} {t : Text}
    (hb : behind.any isSolid = true) (hfits : op.fits t = true) :
    ∃ rest, operatorSpacing.replaceFrom behind t = ' ' :: rest ∧ rest.head? = t.head? := by
  cases behind, t using Pattern.operator_induction with
  | stop behind => cases op <;> cases hfits
  | pass behind c t hh =>
    rw [Pattern.operator_no_hit_iff.mp hh hb op] at hfits
    cases hfits
  | found behind op' t hb' hop => exact ⟨_, spacing_found hb' hop, by cases op' <;> rfl⟩

/-- A character of the result that is no blank stood in the text, and was passed. -/
theorem eq_cons_of_spacing_eq_cons {behind : Option Char} {t y : Text} {x : Char}
    (h : operatorSpacing.replaceFrom behind t = x :: y) (hx : x ≠ ' ') :
    ∃ rest, t = x :: rest ∧ y = operatorSpacing.replaceFrom (some x) rest := by
  cases behind, t using Pattern.operator_induction with
  | stop behind =>
    rw [spacing_nil] at h
    cases h
  | pass behind c t hh =>
    rw [spacing_pass hh] at h
    cases h
    exact ⟨t, rfl, rfl⟩
  | found behind op t hb hop =>
    rw [spacing_found hb hop] at h
    cases h
    exact absurd rfl hx

theorem solidAhead_of_spacing {behind : Option Char} {t : Text}
    (h : solidAhead (operatorSpacing.replaceFrom behind t) = true) : solidAhead t = true := by
  cases hs : operatorSpacing.replaceFrom behind t with
  | nil => simp [hs, solidAhead] at h
  | cons x y =>
    rw [hs, solidAhead_cons] at h
    have hx : x ≠ ' ' := by
      rintro rfl
      exact absurd h (by decide)
    obtain ⟨rest, rfl, -⟩ := eq_cons_of_spacing_eq_cons hs hx
    rwa [solidAhead_cons]

/-- Blanks further on make no operator fit. -/
theorem fits_of_fits_spacing {op : Operator} {c : Char} {t : Text}
    (h : op.fits (c :: operatorSpacing.replaceFrom (some c) t) = true) :
    op.fits (c :: t) = true := by
  let edit : Text → Text → Prop := fun u t =>
    (∃ behind, u = operatorSpacing.replaceFrom behind t) ∨
      ∃ c rest, t = c :: rest ∧ u = c :: operatorSpacing.replaceFrom (some c) rest
  have hedit : edit (c :: operatorSpacing.replaceFrom (some c) t) (c :: t) :=
    .inr ⟨c, t, rfl, rfl⟩
  refine Operator.fits_of_edit ?_ ?_ hedit h
  · rintro x y t hx - (⟨behind, hu⟩ | ⟨c, rest, rfl, hu⟩)
    · have hne : x ≠ ' ' := by
        rintro rfl
        exact absurd hx (by decide)
      obtain ⟨rest, rfl, rfl⟩ := eq_cons_of_spacing_eq_cons hu.symm hne
      exact ⟨rest, rfl, .inl ⟨_, rfl⟩⟩
    · cases hu
      exact ⟨rest, rfl, .inl ⟨_, rfl⟩⟩
  · rintro y t (⟨behind, rfl⟩ | ⟨c, rest, rfl, rfl⟩) hy
    · exact solidAhead_of_spacing hy
    · exact hy

/-- No operator fits between the blanks that an operator got. -/
theorem absentFrom_blank_op_blank (op : Operator) {behind : Option Char} {t : Text}
    (h : Pattern.operator.AbsentFrom (some ' ') t) :
    Pattern.operator.AbsentFrom behind (' ' :: (op.text ++ ' ' :: t)) := by
  have hblank : ∀ behind, Pattern.operator.AbsentFrom behind (' ' :: t) := fun _ =>
    ⟨Pattern.operator_no_hit_at_blank _ _, h⟩
  have hequals : ∀ op : Operator, op.fits ('=' :: ' ' :: t) = false := by
    intro op
    cases op <;> simp [Operator.fits, Operator.text, solidAhead, isSolid, isSpace]
  have hspace : isSolid ' ' = false := by decide
  refine ⟨Pattern.operator_no_hit_at_blank _ _, ?_⟩
  cases op with
  | plus | minus | times | divide | assign =>
    exact ⟨Pattern.operator_no_hit_behind_space hspace _, hblank _⟩
  | equal | unequal =>
    exact ⟨Pattern.operator_no_hit_behind_space hspace _,
      Pattern.operator_no_hit_of_fits hequals, hblank _⟩

theorem absentFrom_spacing (behind : Option Char) (t : Text) :
    Pattern.operator.AbsentFrom behind (operatorSpacing.replaceFrom behind t) := by
  induction behind, t using Pattern.operator_induction with
  | stop behind =>
    rw [spacing_nil]
    exact Pattern.no_hit_nil Pattern.neverEmpty_operator behind
  | pass behind c t hh ih =>
    rw [spacing_pass hh]
    refine ⟨?_, ih⟩
    rw [Pattern.operator_no_hit_iff]
    intro hb op
    by_contra hfits
    rw [Bool.not_eq_false] at hfits
    have := Pattern.operator_no_hit_iff.mp hh hb op
    rw [fits_of_fits_spacing hfits] at this
    cases this
  | found behind op t hb hop _ ih =>
    rw [spacing_found hb hop]
    exact absentFrom_blank_op_blank op (Pattern.operator_absentFrom_blank ih)

end Rule

end Spacing
