-- What the metered searches cost. The second operator pass finds nothing, so it is one
-- search over its whole text, and no other search of the formatter costs more.
import Spacing.Proofs.OperatorPass

namespace Spacing

/-! ## Metered scans -/

/-- The steps taken back on a stretch of a scan. -/
def backtracksOf : List Step → Nat
  | [] => 0
  | s :: rest => s.effort.backtracks + backtracksOf rest

theorem backtracksOf_cons (s : Step) (rest : List Step) :
    backtracksOf (s :: rest) = s.effort.backtracks + backtracksOf rest := rfl

/-- No place of a scan holds as many open choices as are refused. -/
def Shallow (steps : List Step) : Prop := ∀ s ∈ steps, s.effort.depth < maxDepth

theorem overrunFrom_eq_none {steps : List Step} (hd : Shallow steps) {spent : Nat}
    (hle : spent + backtracksOf steps ≤ maxBacktracks) : overrunFrom spent steps = none := by
  induction steps generalizing spent with
  | nil => rfl
  | cons s steps ih =>
    have hs := hd s List.mem_cons_self
    have hrest : Shallow steps := fun x hx => hd x (List.mem_cons_of_mem s hx)
    rw [backtracksOf_cons] at hle
    rw [overrunFrom, if_neg (by omega), if_neg (by omega)]
    split
    · exact ih hrest (by omega)
    · exact ih hrest (by omega)

theorem eq_backtracks_of_overrunFrom {steps : List Step} (hd : Shallow steps) {spent : Nat}
    {o : Overrun} (h : overrunFrom spent steps = some o) : o = .backtracks := by
  induction steps generalizing spent with
  | nil => cases h
  | cons s steps ih =>
    have hs := hd s List.mem_cons_self
    rw [overrunFrom, if_neg (by omega)] at h
    split at h
    · exact (Option.some.inj h).symm
    · exact ih (fun x hx => hd x (List.mem_cons_of_mem s hx)) h

/-- Without a hit the count is never set back. -/
theorem overrunFrom_of_no_hit {steps : List Step} (hd : Shallow steps)
    (hh : steps.filterMap Step.hit? = []) {spent : Nat} (hle : spent ≤ maxBacktracks) :
    overrunFrom spent steps =
      if maxBacktracks < spent + backtracksOf steps then some .backtracks else none := by
  induction steps generalizing spent with
  | nil => simp [overrunFrom, backtracksOf, Nat.not_lt.mpr hle]
  | cons s steps ih =>
    have hs := hd s List.mem_cons_self
    have hrest : Shallow steps := fun x hx => hd x (List.mem_cons_of_mem s hx)
    rw [List.filterMap_eq_nil_iff] at hh
    have hnone := hh s List.mem_cons_self
    have hnones := List.filterMap_eq_nil_iff.mpr fun x hx => hh x (List.mem_cons_of_mem s hx)
    rw [backtracksOf_cons, overrunFrom, if_neg (by omega), hnone]
    by_cases hlt : maxBacktracks < spent + s.effort.backtracks
    · rw [if_pos hlt, if_pos (by omega)]
    · rw [if_neg hlt, ih hrest hnones (by simpa using hlt)]
      simp [Nat.add_assoc]

/-- A scan is shallow if every try at a place of its text is. -/
theorem Pattern.shallow_scan {p : Pattern} (hp : p.NeverEmpty) {behind : Option Char} {t : Text}
    (hd : ∀ front rest, t = front ++ rest → ∀ behind,
      (p.attempt behind rest).effort.depth < maxDepth) :
    Shallow (p.scan false behind 0 t) := by
  have hhere := hd [] t rfl behind
  induction behind, t using scan_induction hp with
  | stop behind =>
    rw [scan_nil hp]
    exact List.forall_mem_singleton.mpr hhere
  | pass behind c t hh ih =>
    have hrest : ∀ front rest, t = front ++ rest → ∀ behind,
        (p.attempt behind rest).effort.depth < maxDepth :=
      fun front rest heq => hd (c :: front) rest (by rw [heq]; rfl)
    rw [scan_pass hp hh]
    exact List.forall_mem_cons.mpr ⟨hhere, ih hrest (hrest [] t rfl _)⟩
  | hit behind h t hh ih =>
    have hrest : ∀ front rest, t = front ++ rest → ∀ behind,
        (p.attempt behind rest).effort.depth < maxDepth :=
      fun front rest heq => hd (h.whole ++ front) rest (by rw [heq, List.append_assoc])
    rw [scan_hit hp hh]
    exact List.forall_mem_cons.mpr ⟨hhere, ih hrest (hrest [] t rfl _)⟩

/-! ## The price of a text -/

/-- What it costs to find no operator after a character, or at the start of a text. -/
def passCost (behind : Option Char) : Nat := if behind.any isSolid then 7 else 1

/-- What it costs to find no operator after any character of a text. -/
def textCost : Text → Nat
  | [] => 0
  | c :: t => passCost (some c) + textCost t

@[simp]
theorem textCost_nil : textCost [] = 0 := rfl

@[simp]
theorem textCost_cons (c : Char) (t : Text) : textCost (c :: t) = passCost (some c) + textCost t :=
  rfl

@[simp]
theorem textCost_append (t u : Text) : textCost (t ++ u) = textCost t + textCost u := by
  induction t with
  | nil => simp
  | cons c t ih => rw [List.cons_append, textCost_cons, ih, textCost_cons, Nat.add_assoc]

@[simp]
theorem passCost_blank : passCost (some ' ') = 1 := by decide

theorem passCost_pos (behind : Option Char) : 1 ≤ passCost behind := by
  unfold passCost
  split <;> omega

theorem textCost_eq (t : Text) : textCost t = 7 * t.countP isSolid + t.countP isSpace := by
  induction t with
  | nil => rfl
  | cons c t ih =>
    rw [textCost_cons, ih, List.countP_cons, List.countP_cons]
    cases hc : isSpace c <;> simp [passCost, isSolid, hc] <;> omega

theorem textCost_of_solid {t : Text} (h : ∀ c ∈ t, isSolid c = true) :
    textCost t = 7 * t.length := by
  have hsolid : t.countP isSolid = t.length := List.countP_eq_length.mpr h
  have hspace : t.countP isSpace = 0 := by
    rw [List.countP_eq_zero]
    intro c hc
    simpa [isSolid] using h c hc
  rw [textCost_eq, hsolid, hspace, Nat.add_zero]

theorem textCost_blanks (n : Nat) : textCost (blanks n) = n := by
  induction n with
  | zero => rfl
  | succ n ih => rw [blanks, List.replicate_succ, textCost_cons, ih, passCost_blank, Nat.add_comm]

/-! ## Searches for an operator -/

namespace Pattern

theorem operator_backtracks_of_no_hit {behind : Option Char} {t : Text}
    (hh : (operator.attempt behind t).hit? = none) :
    (operator.attempt behind t).effort.backtracks = passCost behind := by
  unfold passCost
  simp only [attempt, tryOperator] at hh ⊢
  split at hh
  · rename_i hb
    rw [if_pos hb, if_pos hb]
    exact Operator.misses_of_at?_eq_none (Option.map_eq_none_iff.mp hh)
  · rename_i hb
    rw [if_neg hb, if_neg hb]

theorem operator_backtracks_le (behind : Option Char) (t : Text) :
    (operator.attempt behind t).effort.backtracks ≤ passCost behind := by
  unfold passCost
  simp only [attempt, tryOperator]
  split
  · exact List.findIdx_le_length
  · exact Nat.le_refl 1

theorem operator_depth (behind : Option Char) (t : Text) :
    (operator.attempt behind t).effort.depth = 0 := by
  simp only [attempt, tryOperator]
  split <;> rfl

theorem operator_backtracksOf_le (behind : Option Char) (t : Text) :
    backtracksOf (operator.scan false behind 0 t) ≤ passCost behind + textCost t := by
  have hle := operator_backtracks_le
  induction behind, t using scan_induction neverEmpty_operator with
  | stop behind =>
    have := hle behind []
    simpa [scan_nil neverEmpty_operator, backtracksOf, Step.effort] using this
  | pass behind c t hh ih =>
    have := hle behind (c :: t)
    simp only [scan_pass neverEmpty_operator hh, backtracksOf, Step.effort, textCost_cons] at ih ⊢
    omega
  | hit behind h t hh ih =>
    have hhere := hle behind (h.whole ++ t)
    -- The cost of the place after the hit is paid by the last character of the hit.
    have hlast : passCost h.whole.getLast? ≤ textCost h.whole := by
      obtain ⟨w, c, hw⟩ := List.eq_nil_or_concat h.whole |>.resolve_left
        (neverEmpty_operator _ _ _ hh)
      simp [hw]
    simp only [scan_hit neverEmpty_operator hh, backtracksOf, Step.effort, textCost_append] at ih ⊢
    omega

theorem operator_backtracksOf_of_absent {behind : Option Char} {t : Text}
    (h : operator.AbsentFrom behind t) :
    backtracksOf (operator.scan false behind 0 t) = passCost behind + textCost t := by
  induction t generalizing behind with
  | nil =>
    have := operator_backtracks_of_no_hit h
    simpa [scan_nil neverEmpty_operator, backtracksOf, Step.effort] using this
  | cons c t ih =>
    have := operator_backtracks_of_no_hit h.1
    have hrest := ih h.2
    rw [scan_pass neverEmpty_operator h.1, backtracksOf_cons, textCost_cons, hrest]
    simp only [Step.effort]
    omega

theorem operator_shallow (behind : Option Char) (t : Text) :
    Shallow (operator.scan false behind 0 t) := by
  apply shallow_scan neverEmpty_operator
  intro front rest _ behind
  rw [operator_depth]
  decide

/-! ## Searches for a comma and blanks -/

theorem comma_backtracks_nil (behind : Option Char) :
    (commaBlanks.attempt behind []).effort.backtracks = 1 := rfl

theorem comma_backtracks_le (behind : Option Char) (c : Char) (t : Text) :
    (commaBlanks.attempt behind (c :: t)).effort.backtracks ≤ passCost (some c) := by
  simp only [attempt]
  unfold tryCommaBlanks
  split
  · rename_i heq
    cases heq
    have : passCost (some ',') = 7 := by decide
    dsimp only
    split <;> dsimp only <;> omega
  · exact passCost_pos _

theorem length_le_textCost (t : Text) : t.length ≤ textCost t := by
  induction t with
  | nil => exact Nat.le_refl 0
  | cons c t ih =>
    have := passCost_pos (some c)
    rw [List.length_cons, textCost_cons]
    omega

theorem comma_depth_le (behind : Option Char) (t : Text) :
    (commaBlanks.attempt behind t).effort.depth ≤ textCost t := by
  simp only [attempt]
  unfold tryCommaBlanks
  split
  · rename_i rest
    have hblanks : leadingBlanks rest ≤ rest.length := (List.takeWhile_prefix _).length_le
    have := length_le_textCost rest
    rw [textCost_cons]
    dsimp only
    split <;> dsimp only <;> omega
  · exact Nat.zero_le _

theorem comma_backtracksOf_le (behind : Option Char) (t : Text) :
    backtracksOf (commaBlanks.scan false behind 0 t) ≤ 1 + textCost t := by
  induction behind, t using scan_induction neverEmpty_commaBlanks with
  | stop behind =>
    simp [scan_nil neverEmpty_commaBlanks, backtracksOf, Step.effort, comma_backtracks_nil]
  | pass behind c t hh ih =>
    have := comma_backtracks_le behind c t
    rw [scan_pass neverEmpty_commaBlanks hh, backtracksOf_cons, textCost_cons]
    simp only [Step.effort]
    omega
  | hit behind h t hh ih =>
    obtain ⟨c, w, hw⟩ := List.exists_cons_of_ne_nil (neverEmpty_commaBlanks _ _ _ hh)
    have := comma_backtracks_le behind c (w ++ t)
    rw [← List.cons_append, ← hw] at this
    have hwhole : passCost (some c) ≤ textCost h.whole := by simp [hw]
    rw [scan_hit neverEmpty_commaBlanks hh, backtracksOf_cons, textCost_append]
    simp only [Step.effort]
    omega

theorem comma_shallow {t : Text} (hlt : textCost t < maxDepth) (behind : Option Char) :
    Shallow (commaBlanks.scan false behind 0 t) := by
  apply shallow_scan neverEmpty_commaBlanks
  intro front rest heq behind
  have := comma_depth_le behind rest
  rw [heq, textCost_append] at hlt
  omega

end Pattern

/-! ## Turns that stay within the limit -/

namespace Rule

/-- Every operator that is found brings two blanks. -/
theorem textCost_spacing (behind : Option Char) (t : Text) :
    textCost (operatorSpacing.replaceFrom behind t) =
      textCost t + 2 * (Pattern.operator.hitsFrom behind t).length := by
  induction behind, t using Pattern.operator_induction with
  | stop behind =>
    rw [spacing_nil, Pattern.hitsFrom_nil Pattern.neverEmpty_operator]
    rfl
  | pass behind c t hh ih =>
    rw [spacing_pass hh, Pattern.hitsFrom_pass Pattern.neverEmpty_operator hh, textCost_cons, ih,
      textCost_cons, Nat.add_assoc]
  | found behind op t hb hop _ ih =>
    rw [spacing_found hb hop, Pattern.operator_hitsFrom_found hb hop]
    simp only [textCost_cons, textCost_append, passCost_blank, ih, List.length_cons]
    omega

end Rule

end Spacing
