-- What the rules do to the gaps of a text. The operator pass opens gaps of no blank next to
-- operators, the comma rules count blanks after commas anew, and the repair closes gaps between
-- equal signs. No other gap changes, in one run or in many.
import Spacing.Proofs.Gaps
import Spacing.Proofs.SecondRun

namespace Spacing

open Rule

/-! ## Gaps that may change -/

namespace Gap

/-- Blanks after a comma. -/
def AfterComma (g : Gap) : Prop := g.behind = some ',' ∧ 1 ≤ g.size

/-- The gap between two equal signs. -/
def BetweenEquals (g : Gap) : Prop := g.behind = some '=' ∧ g.ahead = some '='

/-- A place without a blank between two solid characters, where an operator may end or start. -/
def AtOperator (g : Gap) : Prop :=
  g.size = 0 ∧ g.behind.any isSolid = true ∧ g.ahead.any isSolid = true ∧
    (g.behind.any Operator.endings.contains = true ∨ g.ahead.any Operator.signs.contains = true)

/-- A gap that a run of the formatter may change. -/
def Loose (g : Gap) : Prop := g.AfterComma ∨ g.BetweenEquals ∨ g.AtOperator

instance (g : Gap) : Decidable g.Loose := by
  unfold Loose AfterComma BetweenEquals AtOperator
  infer_instance

theorem Loose.behind_ne_none {g : Gap} (h : g.Loose) : g.behind ≠ none := by
  intro hnone
  rcases h with ⟨hbehind, -⟩ | ⟨hbehind, -⟩ | ⟨-, hbehind, -⟩ <;> rw [hnone] at hbehind <;>
    cases hbehind

theorem Loose.ahead_ne_none {g : Gap} (h : g.Loose) (hsize : g.size = 0) : g.ahead ≠ none := by
  intro hnone
  rcases h with ⟨-, hpos⟩ | ⟨-, hahead⟩ | ⟨-, -, hahead, -⟩
  · omega
  · rw [hnone] at hahead
    cases hahead
  · rw [hnone] at hahead
    cases hahead

/-- A gap at an end of the text or next to white space such as a newline, or blanks that no
equal sign comes after, where no comma stands behind. -/
def Plain (g : Gap) : Prop :=
  g.behind ≠ some ',' ∧
    ((g.behind.any isSolid && g.ahead.any isSolid) = false ∨ 1 ≤ g.size ∧ g.ahead ≠ some '=')

theorem Plain.not_loose {g : Gap} (h : g.Plain) : ¬ g.Loose := by
  obtain ⟨hcomma, hplain⟩ := h
  rintro (⟨hbehind, -⟩ | ⟨hbehind, hahead⟩ | ⟨hsize, hbehind, hahead, -⟩)
  · exact hcomma hbehind
  · rcases hplain with hspace | ⟨-, hne⟩
    · rw [hbehind, hahead] at hspace
      exact absurd hspace (by decide)
    · exact hne hahead
  · rcases hplain with hspace | ⟨hpos, -⟩
    · simp [hbehind, hahead] at hspace
    · omega

/-- The size of a gap after the operator pass. -/
def SpacedTo (g : Gap) (n : Nat) : Prop := n = g.size ∨ g.AtOperator ∧ n ≤ 2

/-- The size of a gap after the repair. -/
def JoinedTo (g : Gap) (n : Nat) : Prop := n = g.size ∨ g.BetweenEquals ∧ n = 0

/-- The gap with its blanks counted anew, if it stands after a comma. -/
def recounted (count : Nat → Option Char → Nat) (g : Gap) : Gap :=
  if g.behind = some ',' then { g with size := count g.size g.ahead } else g

end Gap

/-! ## The operator pass -/

/-- The marks of an operator stand close together. -/
theorem exists_gapsFrom_op (op : Operator) :
    ∃ c ∈ Operator.signs, ∃ inner, ∀ behind size t,
      gapsFrom behind size (op.text ++ t) =
        { behind, size, ahead := some c } :: (inner ++ gapsFrom (some op.last) 0 t) := by
  cases op with
  | plus => exact ⟨'+', by decide, [], fun _ _ _ => rfl⟩
  | minus => exact ⟨'-', by decide, [], fun _ _ _ => rfl⟩
  | times => exact ⟨'*', by decide, [], fun _ _ _ => rfl⟩
  | divide => exact ⟨'/', by decide, [], fun _ _ _ => rfl⟩
  | assign => exact ⟨'=', by decide, [], fun _ _ _ => rfl⟩
  | equal => exact ⟨'=', by decide, [{ behind := some '=', size := 0, ahead := some '=' }],
      fun _ _ _ => rfl⟩
  | unequal => exact ⟨'!', by decide, [{ behind := some '!', size := 0, ahead := some '=' }],
      fun _ _ _ => rfl⟩

/-- What the pass has written for the blanks that it passed since the last mark: just as many, or
one for none, if the mark ends an operator and a solid character comes next. -/
def Written (mark : Option Char) (passed written : Nat) (t : Text) : Prop :=
  written = passed ∨
    passed = 0 ∧ written = 1 ∧ solidAhead t = true ∧ ∃ c ∈ Operator.endings, mark = some c

theorem forall₂_gapsFrom_spacing {behind mark : Option Char} {passed written : Nat} {t : Text}
    (hb : behind = if passed = 0 then mark else some ' ') (hw : Written mark passed written t) :
    List.Forall₂ (Gap.Becomes Gap.SpacedTo) (gapsFrom mark passed t)
      (gapsFrom mark written (operatorSpacing.replaceFrom behind t)) := by
  induction behind, t using Pattern.operator_induction generalizing mark passed written with
  | stop behind =>
    obtain rfl : written = passed := hw.resolve_right fun h => by simp [solidAhead] at h
    rw [spacing_nil]
    exact .cons ⟨rfl, rfl, .inl rfl⟩ .nil
  | pass behind c t hh ih =>
    rw [spacing_pass hh]
    by_cases hc : c = ' '
    · subst hc
      obtain rfl : written = passed := hw.resolve_right fun h => Bool.false_ne_true h.2.2.1
      rw [gapsFrom_blank, gapsFrom_blank]
      exact ih rfl (.inl rfl)
    · rw [gapsFrom_mark hc, gapsFrom_mark hc]
      refine .cons ⟨rfl, rfl, ?_⟩ (ih rfl (.inl rfl))
      rcases hw with rfl | ⟨rfl, rfl, hsolid, x, hx, rfl⟩
      · exact .inl rfl
      · have hx' := Operator.isSolid_of_mem_signs (Operator.endings_subset_signs hx)
        exact .inr ⟨⟨rfl, hx', hsolid, .inl (List.contains_iff_mem.mpr hx)⟩, by simp⟩
  | found behind op t hsolid hop ht ih =>
    have hpassed : passed = 0 := by
      by_contra hne
      rw [hb, if_neg hne] at hsolid
      exact absurd hsolid (by decide)
    subst hpassed
    obtain rfl : behind = mark := hb
    obtain ⟨c, hc, inner, hgaps⟩ := exists_gapsFrom_op op
    rw [spacing_found hsolid hop, gapsFrom_blank, hgaps, hgaps, gapsFrom_blank]
    refine .cons ⟨rfl, rfl, .inr ⟨⟨rfl, hsolid, Operator.isSolid_of_mem_signs hc,
      .inr (List.contains_iff_mem.mpr hc)⟩, ?_⟩⟩ ?_
    · show written + 1 ≤ 2
      rcases hw with rfl | ⟨-, rfl, -⟩ <;> omega
    · refine List.rel_append (List.forall₂_same.mpr fun g _ => ⟨rfl, rfl, .inl rfl⟩) ?_
      exact ih rfl (.inr ⟨rfl, rfl, ht, op.last, op.last_mem_endings, rfl⟩)

theorem regapped_spacing (t : Text) :
    Regapped Gap.SpacedTo t (operatorSpacing.replaceAll t) := by
  rw [replaceAll_eq_replaceFrom]
  exact forall₂_gapsFrom_spacing rfl (.inl rfl)

theorem marks_spacing (behind : Option Char) (t : Text) :
    marks (operatorSpacing.replaceFrom behind t) = marks t := by
  induction behind, t using Pattern.operator_induction with
  | stop behind => rw [spacing_nil]
  | pass behind c t hh ih =>
    rw [spacing_pass hh, ← List.singleton_append, marks_append, ih, ← marks_append]
    rfl
  | found behind op t hb hop _ ih =>
    have hspaced : ' ' :: (op.text ++ ' ' :: operatorSpacing.replaceFrom (some op.last) t) =
        blanks 1 ++ op.text ++ blanks 1 ++ operatorSpacing.replaceFrom (some op.last) t := by simp
    rw [spacing_found hb hop, hspaced]
    simp only [marks_append, marks_blanks, ih, List.nil_append, List.append_nil]

/-! ## The comma rules -/

theorem gapsFrom_recount (count : Nat → Option Char → Nat) {behind : Option Char}
    (hb : behind ≠ some ',') (size : Nat) (t : Text) :
    gapsFrom behind size (recount count t) =
      (gapsFrom behind size t).map (Gap.recounted count) := by
  induction t using mark_induction ',' generalizing behind size with
  | nil => simp [gapsFrom, Gap.recounted, hb]
  | other c t hc ih =>
    rw [recount_cons hc]
    by_cases hblank : c = ' '
    · subst hblank
      rw [gapsFrom_blank, gapsFrom_blank, ih hb]
    · rw [gapsFrom_mark hblank, gapsFrom_mark hblank, ih (by simpa using hc), List.map_cons,
        Gap.recounted, if_neg hb]
  | marked n rest h ih =>
    have h' : (recount count rest).head? ≠ some ' ' := by rwa [head?_recount]
    obtain ⟨later, hlater⟩ := exists_gapsFrom_eq_cons h
    obtain ⟨later', hlater'⟩ := exists_gapsFrom_eq_cons h'
    have hrest : later' = later.map (Gap.recounted count) := by
      have hnone : (none : Option Char) ≠ some ',' := by simp
      have hmap := ih hnone 0
      rw [hlater, hlater', List.map_cons] at hmap
      exact (List.cons.inj hmap).2
    have hcomma : ',' ≠ ' ' := by decide
    rw [recount_comma n h, gapsFrom_mark hcomma, gapsFrom_mark hcomma, gapsFrom_blanks,
      gapsFrom_blanks, hlater, hlater', hrest, head?_recount]
    simp [Gap.recounted, hb]

theorem gaps_recount (count : Nat → Option Char → Nat) (t : Text) :
    gaps (recount count t) = (gaps t).map (Gap.recounted count) :=
  gapsFrom_recount count (by simp) 0 t

theorem regapped_recount (count : Nat → Option Char → Nat) (t : Text) :
    Regapped (fun g n => n = (g.recounted count).size) t (recount count t) := by
  rw [Regapped, gaps_recount, List.forall₂_map_right_iff, List.forall₂_same]
  intro g _
  refine ⟨?_, ?_, rfl⟩ <;> unfold Gap.recounted <;> split <;> rfl

theorem marks_recount (count : Nat → Option Char → Nat) (t : Text) :
    marks (recount count t) = marks t :=
  (regapped_recount count t).marks_eq

/-! ## The repair -/

theorem forall₂_gapsFrom_repair (behind : Option Char) (size : Nat) (t : Text) :
    List.Forall₂ (Gap.Becomes Gap.JoinedTo) (gapsFrom behind size t)
      (gapsFrom behind size (doubleEqualsRepair.replaceAll t)) := by
  have hsign : '=' ≠ ' ' := by decide
  induction t using repair_induction generalizing behind size with
  | nil =>
    rw [repair_nil]
    exact .cons ⟨rfl, rfl, .inl rfl⟩ .nil
  | other c t hc ih =>
    rw [repair_other hc]
    by_cases hblank : c = ' '
    · subst hblank
      rw [gapsFrom_blank, gapsFrom_blank]
      exact ih _ _
    · rw [gapsFrom_mark hblank, gapsFrom_mark hblank]
      exact .cons ⟨rfl, rfl, .inl rfl⟩ (ih _ _)
  | whole t ht ih =>
    rw [repair_whole ht, gapsFrom_mark hsign, gapsFrom_mark hsign]
    exact .cons ⟨rfl, rfl, .inl rfl⟩ (ih _ _)
  | torn n t ih =>
    rw [repair_torn, gapsFrom_mark hsign, gapsFrom_mark hsign, gapsFrom_blanks,
      gapsFrom_mark hsign, gapsFrom_mark hsign]
    exact .cons ⟨rfl, rfl, .inl rfl⟩
      (.cons ⟨rfl, rfl, .inr ⟨⟨rfl, rfl⟩, rfl⟩⟩ (ih _ _))

theorem regapped_repair (t : Text) :
    Regapped Gap.JoinedTo t (doubleEqualsRepair.replaceAll t) :=
  forall₂_gapsFrom_repair none 0 t

theorem marks_repair (t : Text) : marks (doubleEqualsRepair.replaceAll t) = marks t :=
  (regapped_repair t).marks_eq

theorem marks_respell (behind : Option Char) (t : Text) : marks (respell behind t) = marks t := by
  rw [respell, marks_repair, marks_spacing]

/-! ## One run -/

/-- The size of a gap after a run of the formatter. -/
structure Gap.FormattedTo (g : Gap) (n : Nat) : Prop where
  framed : ¬ g.Loose → n = g.size
  bounded : n ≤ g.size ∨ g.size = 0 ∧ n ≤ 2

theorem Gap.formattedTo_of_recounted {g : Gap} {n m : Nat} (hn : g.SpacedTo n)
    (hm : m = (Gap.recounted tidyCount { g with size := n }).size) : g.FormattedTo m := by
  have hle := tidyCount_le n g.ahead
  have hcomma : g.behind = some ',' ∧ m ≤ n ∨ m = n := by
    unfold Gap.recounted at hm
    split at hm
    · rename_i hbehind
      exact .inl ⟨hbehind, by rw [hm]; exact hle⟩
    · exact .inr hm
  constructor
  · intro hloose
    obtain rfl := hn.resolve_right fun h => hloose (.inr (.inr h.1))
    rcases hcomma with ⟨hbehind, hmn⟩ | rfl
    · have hsize : ¬ 1 ≤ g.size := fun hsize => hloose (.inl ⟨hbehind, hsize⟩)
      omega
    · rfl
  · rcases hn with rfl | ⟨hat, hn⟩
    · exact .inl (by omega)
    · exact .inr ⟨hat.1, by omega⟩

theorem Gap.FormattedTo.joined {g : Gap} {n m : Nat} (hn : g.FormattedTo n)
    (hm : Gap.JoinedTo { g with size := n } m) : g.FormattedTo m := by
  rcases hm with rfl | ⟨hbetween, rfl⟩
  · exact hn
  · exact ⟨fun hloose => absurd (.inr (.inl hbetween)) hloose, .inl (Nat.zero_le _)⟩

namespace Formatter

theorem regapped_rewrite (t : Text) : Regapped Gap.FormattedTo t (rewrite t) := by
  have hrecount := regapped_recount tidyCount (operatorSpacing.replaceAll t)
  have htidied : Regapped Gap.FormattedTo t
      (recount tidyCount (operatorSpacing.replaceAll t)) :=
    (regapped_spacing t).trans (fun _ _ _ => Gap.formattedTo_of_recounted) hrecount
  rw [rewrite, finish_eq]
  exact htidied.trans (fun _ _ _ => Gap.FormattedTo.joined) (regapped_repair _)

theorem regapped_of_format {t v : Text} (h : format t = .ok v) : Regapped Gap.FormattedTo t v := by
  obtain ⟨-, rfl⟩ := format_eq_ok_iff.mp h
  exact regapped_rewrite t

/-- One run keeps the marks and every gap that is not loose. So the gaps at the start of a line
or around white space stay, and so do the blanks between words, unless a comma stands before
them. -/
theorem one_run_leaves_every_gap_that_is_not_loose (t v : Text) (h : format t = .ok v) :
    Regapped (fun g n => (¬ g.Loose → n = g.size) ∧ (g.Plain → n = g.size)) t v :=
  (regapped_of_format h).mono fun _ _ hg =>
    ⟨hg.framed, fun hplain => hg.framed hplain.not_loose⟩

theorem a_run_leaves_the_indentation_of_a_call :
    format "  f(a,   b)=c\n\tx  y".toList = .ok "  f(a, b) = c\n\tx  y".toList ∧
      Regapped (fun g n => (¬ g.Loose → n = g.size) ∧ (g.Plain → n = g.size))
        "  f(a,   b)=c\n\tx  y".toList "  f(a, b) = c\n\tx  y".toList := by
  have hformat : format "  f(a,   b)=c\n\tx  y".toList = .ok "  f(a, b) = c\n\tx  y".toList := by
    decide
  exact ⟨hformat, one_run_leaves_every_gap_that_is_not_loose _ _ hformat⟩

/-- A text without loose gaps is left as it is. -/
theorem eq_of_format_of_no_loose_gap {t v : Text} (h : format t = .ok v)
    (hloose : ∀ g ∈ gaps t, ¬ g.Loose) : v = t :=
  (regapped_of_format h).eq_of_forall_size fun g hg _ hn => hn.framed (hloose g hg)

example : ∀ g ∈ gaps "x = a + b;\n  f(y)".toList, ¬ g.Loose := by decide

end Formatter

/-! ## Many runs -/

/-- The size of a gap after any number of runs: the same at the start of the text, no more at its
end, and never more than it was or two blanks. -/
structure Gap.RunTo (g : Gap) (n : Nat) : Prop where
  atStart : g.behind = none → n = g.size
  atEnd : g.ahead = none → n ≤ g.size
  width : n ≤ max g.size 2

theorem Gap.FormattedTo.runTo {g : Gap} {n : Nat} (h : g.FormattedTo n) : g.RunTo n where
  atStart hnone := h.framed fun hloose => hloose.behind_ne_none hnone
  atEnd hnone := by
    rcases h.bounded with hle | ⟨hsize, -⟩
    · exact hle
    · exact Nat.le_of_eq (h.framed fun hloose => hloose.ahead_ne_none hsize hnone)
  width := by
    rcases h.bounded with hle | ⟨hsize, hle⟩ <;> omega

theorem Gap.RunTo.trans {g : Gap} {n m : Nat} (hn : g.RunTo n)
    (hm : Gap.RunTo { g with size := n } m) : g.RunTo m where
  atStart hnone := (hm.atStart hnone).trans (hn.atStart hnone)
  atEnd hnone := Nat.le_trans (hm.atEnd hnone) (hn.atEnd hnone)
  width := by
    have hfirst := hn.width
    have hsecond : m ≤ max n 2 := hm.width
    omega

namespace Formatter

/-- Induction over the runs of a chain, the first one first. -/
theorem iterate_induction {motive : Text → Text → Prop} (stop : ∀ t, motive t t)
    (run : ∀ t u v, format t = .ok u → motive u v → motive t v) {times : Nat} {t v : Text}
    (h : (iterate times t).result t = .ok v) : motive t v := by
  rw [iterate, Chain.result_run] at h
  induction times generalizing t with
  | zero =>
    obtain rfl : t = v := Except.ok.inj h
    exact stop t
  | succ times ih =>
    rw [List.replicate_succ, List.foldlM_cons] at h
    cases hformat : format t with
    | error e =>
      rw [hformat] at h
      cases h
    | ok u =>
      rw [hformat] at h
      exact run t u v hformat (ih h)

/-- However often a text is formatted, its marks stay, the blanks before the first one stay, the
blanks after the last one get no more, and no gap grows beyond two blanks. -/
theorem any_number_of_runs_keeps_the_marks_and_bounds_the_gaps (times : Nat) (t v : Text)
    (h : (iterate times t).result t = .ok v) :
    marks v = marks t ∧ Regapped Gap.RunTo t v := by
  have hregap : Regapped Gap.RunTo t v := by
    refine iterate_induction ?_ ?_ h
    · exact Regapped.refl fun g => ⟨fun _ => rfl, fun _ => Nat.le_refl _, Nat.le_max_left _ _⟩
    · intro t u v hformat hrest
      have hfirst : Regapped Gap.RunTo t u :=
        (regapped_of_format hformat).mono fun _ _ => Gap.FormattedTo.runTo
      exact hfirst.trans (fun _ _ _ => Gap.RunTo.trans) hrest
  exact ⟨hregap.marks_eq, hregap⟩

theorem two_runs_keep_the_marks_of_three_signs_in_a_row :
    (iterate 2 "  a===-b,   ".toList).result "  a===-b,   ".toList =
        .ok "  a == =  - b, ".toList ∧
      marks "  a == =  - b, ".toList = marks "  a===-b,   ".toList ∧
      Regapped Gap.RunTo "  a===-b,   ".toList "  a == =  - b, ".toList := by
  have hruns : (iterate 2 "  a===-b,   ".toList).result "  a===-b,   ".toList =
      .ok "  a == =  - b, ".toList := by decide
  exact ⟨hruns, any_number_of_runs_keeps_the_marks_and_bounds_the_gaps 2 _ _ hruns⟩

end Formatter

end Spacing
