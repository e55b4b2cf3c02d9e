-- How a scan moves over a text when no hit is empty: it stops at the end, passes a
-- character, or takes a hit and goes on right after it. The laws of the rules follow these
-- three moves.
import Mathlib.Data.List.Basic
import Mathlib.Data.Option.Basic
import Spacing.Rule

namespace Spacing

/-- The character behind the place at the end of a stretch. -/
theorem getLast?_cons_or (c : Char) (t : Text) (behind : Option Char) :
    (c :: t).getLast?.or behind = t.getLast?.or (some c) := by
  rw [List.getLast?_cons]
  cases t.getLast? <;> rfl

/-! ## What a try finds -/

theorem replicate_leadingBlanks_prefix (t : Text) :
    List.replicate (leadingBlanks t) ' ' <+: t := by
  rw [← take_leadingBlanks]
  exact List.take_prefix _ _

namespace Pattern

theorem whole_prefix_of_tryOperator {behind : Option Char} {t : Text} {h : Hit}
    (hh : (tryOperator behind t).hit? = some h) : h.whole <+: t := by
  unfold tryOperator at hh
  split at hh
  · obtain ⟨op, hop, rfl⟩ := Option.map_eq_some_iff.mp hh
    have hfits := Operator.fits_of_at? hop
    rw [Operator.fits, Bool.and_eq_true, List.isPrefixOf_iff_prefix] at hfits
    rw [Hit.whole_all]
    exact hfits.1
  · cases hh

theorem whole_prefix_of_tryCommaBlanks {t : Text} {h : Hit}
    (hh : (tryCommaBlanks t).hit? = some h) : h.whole <+: t := by
  unfold tryCommaBlanks at hh
  split at hh
  · rename_i rest
    have hpre := replicate_leadingBlanks_prefix rest
    dsimp only at hh
    split at hh
    · cases hh
    · rename_i n hn _
      cases hh
      rw [Hit.whole_lastBlank, List.append_nil, List.cons_prefix_cons]
      rw [hn] at hpre
      exact ⟨rfl, hpre⟩
    · cases hh
    · rename_i n hn _
      cases hh
      rw [Hit.whole_lastBlank, List.append_nil, List.cons_prefix_cons]
      rw [hn] at hpre
      exact ⟨rfl, List.IsPrefix.trans ⟨[' '], by rw [← List.replicate_succ']⟩ hpre⟩
  · cases hh

theorem whole_prefix_of_tryAcrossBlanks {first last : Char} {t : Text} {h : Hit}
    (hh : tryAcrossBlanks first last t = some h) : h.whole <+: t := by
  unfold tryAcrossBlanks at hh
  split at hh
  · cases hh
  · rename_i c rest
    dsimp only at hh
    split at hh
    · rename_i hc
      simp only [Bool.and_eq_true, beq_iff_eq, bne_iff_ne] at hc
      obtain ⟨⟨rfl, hn⟩, hlast⟩ := hc
      cases hh
      obtain ⟨n, hn⟩ : ∃ n, leadingBlanks rest = n + 1 := Nat.exists_eq_succ_of_ne_zero hn
      have htake := take_leadingBlanks rest
      rw [hn] at hlast htake ⊢
      rw [Hit.whole_lastBlank, List.cons_prefix_cons]
      refine ⟨rfl, (rest.drop (n + 1)).tail, ?_⟩
      calc _ = rest.take (n + 1) ++ rest.drop (n + 1) := by
            rw [htake, ← List.cons_head?_tail hlast]; simp
        _ = rest := List.take_append_drop _ _
    · cases hh

/-- What a try finds stands at the head of the text. -/
theorem whole_prefix_of_hit {p : Pattern} {behind : Option Char} {t : Text} {h : Hit}
    (hh : (p.attempt behind t).hit? = some h) : h.whole <+: t := by
  cases p with
  | operator => exact whole_prefix_of_tryOperator hh
  | commaBlanks => exact whole_prefix_of_tryCommaBlanks hh
  | commaLineEnd => exact whole_prefix_of_tryAcrossBlanks hh
  | tornEquals => exact whole_prefix_of_tryAcrossBlanks hh
  | literals alternatives =>
    obtain ⟨w, hw, rfl⟩ := Option.map_eq_some_iff.mp hh
    have := List.find?_some hw
    rw [Hit.whole_all]
    exact List.isPrefixOf_iff_prefix.mp this

theorem exists_append_of_hit {p : Pattern} {behind : Option Char} {t : Text} {h : Hit}
    (hh : (p.attempt behind t).hit? = some h) : ∃ rest, t = h.whole ++ rest := by
  obtain ⟨rest, hrest⟩ := whole_prefix_of_hit hh
  exact ⟨rest, hrest.symm⟩

/-- No hit of the pattern is empty. -/
def NeverEmpty (p : Pattern) : Prop :=
  ∀ behind t h, (p.attempt behind t).hit? = some h → h.whole ≠ []

theorem whole_lastBlank_ne_nil (c : Char) (n : Nat) (trail : Text) :
    (Hit.lastBlank c n trail).whole ≠ [] := by
  simp [Hit.lastBlank, Hit.whole]

theorem neverEmpty_operator : operator.NeverEmpty := by
  intro behind t h hh
  simp only [attempt, tryOperator] at hh
  split at hh
  · obtain ⟨op, -, rfl⟩ := Option.map_eq_some_iff.mp hh
    rw [Hit.whole_all]
    exact op.text_ne_nil
  · cases hh

theorem neverEmpty_commaBlanks : commaBlanks.NeverEmpty := by
  intro behind t h hh
  simp only [attempt, tryCommaBlanks] at hh
  split at hh
  · split at hh <;> cases hh <;> exact whole_lastBlank_ne_nil _ _ _
  · cases hh

theorem whole_ne_nil_of_tryAcrossBlanks {first last : Char} {t : Text} {h : Hit}
    (hh : tryAcrossBlanks first last t = some h) : h.whole ≠ [] := by
  unfold tryAcrossBlanks at hh
  split at hh
  · cases hh
  · dsimp only at hh
    split at hh
    · cases hh
      exact whole_lastBlank_ne_nil _ _ _
    · cases hh

theorem neverEmpty_commaLineEnd : commaLineEnd.NeverEmpty :=
  fun _ _ _ hh => whole_ne_nil_of_tryAcrossBlanks hh

theorem neverEmpty_tornEquals : tornEquals.NeverEmpty :=
  fun _ _ _ hh => whole_ne_nil_of_tryAcrossBlanks hh

/-! ## The three moves -/

/-- The scan is over with a hit after as many characters as it has. -/
theorem scan_over (p : Pattern) (afterHit : Bool) (behind : Option Char) (w t : Text) :
    p.scan afterHit behind w.length (w ++ t) = p.scan afterHit (w.getLast?.or behind) 0 t := by
  induction w generalizing behind with
  | nil => simp
  | cons c w ih => simp only [List.length_cons, List.cons_append, scan, ih, getLast?_cons_or]

theorem taken_eq_hit {p : Pattern} (hp : p.NeverEmpty) (behind : Option Char) (t : Text)
    (afterHit : Bool) : (p.attempt behind t).taken afterHit = (p.attempt behind t).hit? := by
  unfold Attempt.taken
  cases hh : (p.attempt behind t).hit? with
  | none => rfl
  | some h => simp [Option.filter, hp behind t h hh]

/-- It makes no difference whether a hit ends here. -/
theorem scan_afterHit {p : Pattern} (hp : p.NeverEmpty) (afterHit : Bool) (behind : Option Char)
    (t : Text) : p.scan afterHit behind 0 t = p.scan false behind 0 t := by
  cases t <;> simp only [scan, taken_eq_hit hp]

theorem no_hit_nil {p : Pattern} (hp : p.NeverEmpty) (behind : Option Char) :
    (p.attempt behind []).hit? = none := by
  by_contra hne
  obtain ⟨h, hh⟩ := Option.ne_none_iff_exists'.mp hne
  exact hp _ _ _ hh (List.prefix_nil.mp (whole_prefix_of_hit hh))

theorem scan_nil {p : Pattern} (hp : p.NeverEmpty) (behind : Option Char) :
    p.scan false behind 0 [] = [.stop (p.attempt behind []).effort] := by
  simp only [scan, taken_eq_hit hp, no_hit_nil hp]

theorem scan_pass {p : Pattern} (hp : p.NeverEmpty) {behind : Option Char} {c : Char} {t : Text}
    (hh : (p.attempt behind (c :: t)).hit? = none) :
    p.scan false behind 0 (c :: t) =
      .pass (p.attempt behind (c :: t)).effort c :: p.scan false (some c) 0 t := by
  simp only [scan, taken_eq_hit hp, hh]

/-- After a hit that is not empty the scan goes on right behind it. -/
theorem scan_taken {p : Pattern} {afterHit : Bool} {behind : Option Char} {h : Hit} {t : Text}
    (ht : (p.attempt behind (h.whole ++ t)).taken afterHit = some h) (hne : h.whole ≠ []) :
    p.scan afterHit behind 0 (h.whole ++ t) =
      .hit (p.attempt behind (h.whole ++ t)).effort h ::
        p.scan true h.whole.getLast? 0 t := by
  obtain ⟨c, w, hw⟩ := List.exists_cons_of_ne_nil hne
  have hlast : h.whole.getLast? = w.getLast?.or (some c) := by
    rw [hw, List.getLast?_cons]
    cases w.getLast? <;> rfl
  rw [hlast]
  rw [hw] at ht ⊢
  simp only [List.cons_append] at ht ⊢
  simp only [scan, ht, hw, List.length_cons, scan_over]

theorem scan_hit {p : Pattern} (hp : p.NeverEmpty) {behind : Option Char} {h : Hit} {t : Text}
    (hh : (p.attempt behind (h.whole ++ t)).hit? = some h) :
    p.scan false behind 0 (h.whole ++ t) =
      .hit (p.attempt behind (h.whole ++ t)).effort h ::
        p.scan false h.whole.getLast? 0 t := by
  rw [scan_taken ((taken_eq_hit hp _ _ _).trans hh) (hp _ _ _ hh), scan_afterHit hp]

/-- Induction along a scan. -/
theorem scan_induction {p : Pattern} (hp : p.NeverEmpty) {motive : Option Char → Text → Prop}
    (stop : ∀ behind, motive behind [])
    (pass : ∀ behind c t, (p.attempt behind (c :: t)).hit? = none → motive (some c) t →
      motive behind (c :: t))
    (hit : ∀ behind h t, (p.attempt behind (h.whole ++ t)).hit? = some h →
      motive h.whole.getLast? t → motive behind (h.whole ++ t))
    (behind : Option Char) (t : Text) : motive behind t := by
  induction hn : t.length using Nat.strongRecOn generalizing behind t with
  | _ n ih =>
    subst hn
    cases hh : (p.attempt behind t).hit? with
    | none =>
      cases t with
      | nil => exact stop behind
      | cons c t => exact pass behind c t hh (ih t.length (by simp) (some c) t rfl)
    | some h =>
      obtain ⟨rest, rfl⟩ := exists_append_of_hit hh
      have := List.length_pos_iff.mpr (hp _ _ _ hh)
      exact hit behind h rest hh (ih rest.length (by rw [List.length_append]; omega) _ rest rfl)

/-! ## Hits -/

/-- The hits from a place on. -/
def hitsFrom (p : Pattern) (behind : Option Char) (t : Text) : List Hit :=
  (p.scan false behind 0 t).filterMap Step.hit?

theorem hits_eq_hitsFrom (p : Pattern) (t : Text) : p.hits t = p.hitsFrom none t := by
  rw [hits, steps_eq, hitsFrom]

theorem hitsFrom_nil {p : Pattern} (hp : p.NeverEmpty) (behind : Option Char) :
    p.hitsFrom behind [] = [] := by
  rw [hitsFrom, scan_nil hp]
  rfl

theorem hitsFrom_pass {p : Pattern} (hp : p.NeverEmpty) {behind : Option Char} {c : Char}
    {t : Text} (hh : (p.attempt behind (c :: t)).hit? = none) :
    p.hitsFrom behind (c :: t) = p.hitsFrom (some c) t := by
  rw [hitsFrom, scan_pass hp hh]
  rfl

theorem hitsFrom_hit {p : Pattern} (hp : p.NeverEmpty) {behind : Option Char} {h : Hit}
    {t : Text} (hh : (p.attempt behind (h.whole ++ t)).hit? = some h) :
    p.hitsFrom behind (h.whole ++ t) = h :: p.hitsFrom h.whole.getLast? t := by
  rw [hitsFrom, scan_hit hp hh]
  rfl

/-- The pattern finds nothing at any place of the text. -/
def AbsentFrom (p : Pattern) (behind : Option Char) : Text → Prop
  | [] => (p.attempt behind []).hit? = none
  | c :: t => (p.attempt behind (c :: t)).hit? = none ∧ p.AbsentFrom (some c) t

theorem AbsentFrom.head {p : Pattern} {behind : Option Char} {t : Text}
    (h : p.AbsentFrom behind t) : (p.attempt behind t).hit? = none := by
  cases t with
  | nil => exact h
  | cons c t => exact h.1

theorem absentFrom_iff_forall_append {p : Pattern} {behind : Option Char} {t : Text} :
    p.AbsentFrom behind t ↔ ∀ front rest, t = front ++ rest →
      (p.attempt (front.getLast?.or behind) rest).hit? = none := by
  induction t generalizing behind with
  | nil =>
    constructor
    · intro h front rest heq
      obtain ⟨rfl, rfl⟩ := List.append_eq_nil_iff.mp heq.symm
      exact h
    · intro h
      exact h [] [] rfl
  | cons c t ih =>
    rw [AbsentFrom, ih]
    constructor
    · rintro ⟨h, hrest⟩ front rest heq
      cases front with
      | nil =>
        cases heq
        exact h
      | cons d front =>
        cases heq
        rw [getLast?_cons_or]
        exact hrest front rest rfl
    · intro h
      refine ⟨h [] (c :: t) rfl, ?_⟩
      rintro front rest rfl
      have := h (c :: front) rest rfl
      rwa [getLast?_cons_or] at this

theorem absentFrom_iff_hitsFrom {p : Pattern} (hp : p.NeverEmpty) (behind : Option Char)
    (t : Text) : p.AbsentFrom behind t ↔ p.hitsFrom behind t = [] := by
  induction behind, t using scan_induction hp with
  | stop behind => simp [AbsentFrom, no_hit_nil hp, hitsFrom_nil hp]
  | pass behind c t hh ih => simp [AbsentFrom, hh, ih, hitsFrom_pass hp hh]
  | hit behind h t hh ih =>
    rw [hitsFrom_hit hp hh]
    constructor
    · intro habs
      rw [habs.head] at hh
      cases hh
    · intro hnil
      cases hnil

end Pattern

/-! ## Replacing -/

namespace Rule

/-- The text from a place on with every hit replaced. -/
def replaceFrom (r : Rule) (behind : Option Char) (t : Text) : Text :=
  (r.pattern.scan false behind 0 t).flatMap r.replacement.write

theorem replaceAll_eq_replaceFrom (r : Rule) (t : Text) :
    r.replaceAll t = r.replaceFrom none t := by
  rw [replaceAll, Pattern.steps_eq, replaceFrom]

variable {r : Rule} (hp : r.pattern.NeverEmpty)
include hp

theorem replaceFrom_nil (behind : Option Char) : r.replaceFrom behind [] = [] := by
  rw [replaceFrom, Pattern.scan_nil hp]
  rfl

theorem replaceFrom_pass {behind : Option Char} {c : Char} {t : Text}
    (hh : (r.pattern.attempt behind (c :: t)).hit? = none) :
    r.replaceFrom behind (c :: t) = c :: r.replaceFrom (some c) t := by
  rw [replaceFrom, Pattern.scan_pass hp hh]
  rfl

theorem replaceFrom_hit {behind : Option Char} {h : Hit} {t : Text}
    (hh : (r.pattern.attempt behind (h.whole ++ t)).hit? = some h) :
    r.replaceFrom behind (h.whole ++ t) =
      r.replacement.fill h ++ r.replaceFrom h.whole.getLast? t := by
  rw [replaceFrom, Pattern.scan_hit hp hh]
  rfl

theorem replaceFrom_of_absent {behind : Option Char} {t : Text}
    (h : r.pattern.AbsentFrom behind t) : r.replaceFrom behind t = t := by
  induction t generalizing behind with
  | nil => exact replaceFrom_nil hp behind
  | cons c t ih => rw [replaceFrom_pass hp h.1, ih h.2]

end Rule

end Spacing
