-- The formatter sees the classes of characters and not the characters. A renaming that keeps the
-- classes goes through every rule: the same hits, at the same cost, and so the renamed text or the
-- same failure.
import Spacing.Proofs.FormatOutcome

namespace Spacing

/-! ## Renamings -/

/-- The characters that the rules know by name. -/
def knownChars : List Char := Operator.signs ++ [',', ' ', '\n']

/-- The renaming leaves the known characters alone, and makes of any other one a character of the
same kind that is not known either. -/
structure KeepsClasses (s : Char → Char) : Prop where
  known : ∀ c ∈ knownChars, s c = c
  solid : ∀ c ∉ knownChars, isSolid c = true → isSolid (s c) = true ∧ s c ∉ knownChars
  space : ∀ c ∉ knownChars, isSpace c = true → isSpace (s c) = true ∧ s c ∉ knownChars

theorem map_eq_self_of_forall {s : Char → Char} {w : Text} (h : ∀ c ∈ w, s c = c) : w.map s = w :=
  (List.map_congr_left h).trans (List.map_id w)

namespace KeepsClasses

variable {s : Char → Char} (hs : KeepsClasses s)
include hs

theorem isSolid_eq (c : Char) : isSolid (s c) = isSolid c := by
  by_cases hc : c ∈ knownChars
  · rw [hs.known c hc]
  · cases hsolid : isSolid c with
    | true => exact (hs.solid c hc hsolid).1
    | false =>
      have hspace : isSpace c = true := by simpa [isSolid] using hsolid
      simp [isSolid, (hs.space c hc hspace).1]

theorem not_known {c : Char} (hc : c ∉ knownChars) : s c ∉ knownChars := by
  cases hsolid : isSolid c with
  | true => exact (hs.solid c hc hsolid).2
  | false => exact (hs.space c hc (by simpa [isSolid] using hsolid)).2

/-- A known character comes from itself alone. -/
theorem eq_known_iff {k : Char} (hk : k ∈ knownChars) (c : Char) : s c = k ↔ c = k := by
  constructor
  · intro h
    by_cases hc : c ∈ knownChars
    · rw [← h, hs.known c hc]
    · exact absurd (h ▸ hk) (hs.not_known hc)
  · rintro rfl
    exact hs.known c hk

theorem map_known {w : Text} (hw : w ⊆ knownChars) : w.map s = w :=
  map_eq_self_of_forall fun c hc => hs.known c (hw hc)

/-! ## What the tries look at -/

theorem isPrefixOf_map {w : Text} (hw : w ⊆ knownChars) (t : Text) :
    w.isPrefixOf (t.map s) = w.isPrefixOf t := by
  induction w generalizing t with
  | nil => rfl
  | cons k w ih =>
    obtain ⟨hk, hw⟩ := List.cons_subset.mp hw
    cases t with
    | nil => rfl
    | cons c t =>
      have hhead : (k == s c) = (k == c) := by
        rw [Bool.eq_iff_iff, beq_iff_eq, beq_iff_eq, eq_comm, hs.eq_known_iff hk, eq_comm]
      simp only [List.map_cons, List.isPrefixOf_cons_cons, hhead, ih hw]

theorem solidAhead_map (t : Text) : solidAhead (t.map s) = solidAhead t := by
  cases t with
  | nil => rfl
  | cons c t => rw [List.map_cons, solidAhead_cons, solidAhead_cons, hs.isSolid_eq]

theorem leadingBlanks_map (t : Text) : leadingBlanks (t.map s) = leadingBlanks t := by
  induction t with
  | nil => rfl
  | cons c t ih =>
    have hblank : isBlank (s c) = isBlank c := by
      rw [Bool.eq_iff_iff, isBlank, isBlank, beq_iff_eq, beq_iff_eq, hs.eq_known_iff (by decide)]
    rw [List.map_cons, leadingBlanks_cons, leadingBlanks_cons, hblank, ih]

/-- A known character stands after some others exactly where it stood before. -/
theorem head?_drop_map {k : Char} (hk : k ∈ knownChars) (n : Nat) (t : Text) :
    (((t.map s).drop n).head? == some k) = ((t.drop n).head? == some k) := by
  rw [← List.map_drop]
  cases t.drop n with
  | nil => rfl
  | cons c rest =>
    rw [Bool.eq_iff_iff, beq_iff_eq, beq_iff_eq, List.map_cons, List.head?_cons, List.head?_cons,
      Option.some_inj, Option.some_inj, hs.eq_known_iff hk]

theorem fits_map (op : Operator) (t : Text) : op.fits (t.map s) = op.fits t := by
  have hknown : op.text ⊆ knownChars := fun c hc =>
    List.mem_append_left _ (Operator.mem_signs_of_mem_text hc)
  rw [Operator.fits, Operator.fits, hs.isPrefixOf_map hknown, ← List.map_drop, hs.solidAhead_map]

end KeepsClasses

/-! ## The tries -/

namespace Pattern

theorem tryCommaBlanks_other {c : Char} (h : c ≠ ',') (t : Text) :
    tryCommaBlanks (c :: t) = { effort := { backtracks := 1 }, hit? := none } := by
  unfold tryCommaBlanks
  split
  · rename_i heq
    cases heq
    exact absurd rfl h
  · rfl

theorem eq_lastBlank_of_tryCommaBlanks {t : Text} {h : Hit}
    (hh : (tryCommaBlanks t).hit? = some h) : ∃ n, h = Hit.lastBlank ',' n [] := by
  unfold tryCommaBlanks at hh
  split at hh
  · dsimp only at hh
    split at hh
    all_goals cases hh
    all_goals exact ⟨_, rfl⟩
  · cases hh

theorem eq_lastBlank_of_tryAcrossBlanks {first last : Char} {t : Text} {h : Hit}
    (hh : tryAcrossBlanks first last t = some h) : ∃ n, h = Hit.lastBlank first n [last] := by
  unfold tryAcrossBlanks at hh
  split at hh
  · cases hh
  · dsimp only at hh
    split at hh
    · cases hh
      exact ⟨_, rfl⟩
    · cases hh

/-- The pattern tries the same on a renamed text, and what it finds is made of characters that the
renaming leaves alone. -/
structure SeesClasses (p : Pattern) (s : Char → Char) : Prop where
  neverEmpty : p.NeverEmpty
  attempt_map : ∀ behind t, p.attempt (behind.map s) (t.map s) = p.attempt behind t
  fixed : ∀ behind t h, (p.attempt behind t).hit? = some h → ∀ c ∈ h.whole, s c = c

end Pattern

namespace KeepsClasses

variable {s : Char → Char} (hs : KeepsClasses s)
include hs

theorem operator : Pattern.operator.SeesClasses s where
  neverEmpty := Pattern.neverEmpty_operator
  attempt_map behind t := by
    have hbehind : (behind.map s).any isSolid = behind.any isSolid := by
      cases behind with
      | none => rfl
      | some c => exact hs.isSolid_eq c
    simp only [Pattern.attempt, Pattern.tryOperator, Operator.at?, Operator.misses, hbehind,
      hs.fits_map]
  fixed behind t h hh := by
    obtain ⟨-, op, -, rfl⟩ := Pattern.operator_hit_iff.mp hh
    rw [Hit.whole_all]
    exact fun c hc => hs.known c (List.mem_append_left _ (Operator.mem_signs_of_mem_text hc))

theorem fixed_lastBlank {first : Char} (hfirst : first ∈ knownChars) {trail : Text}
    (htrail : trail ⊆ knownChars) (n : Nat) :
    ∀ c ∈ (Hit.lastBlank first n trail).whole, s c = c := by
  intro c hc
  apply hs.known
  have hblank : ' ' ∈ knownChars := by decide
  simp only [Hit.whole, Hit.lastBlank, List.mem_append, List.mem_cons, List.mem_replicate,
    List.not_mem_nil, or_false] at hc
  obtain ((rfl | ⟨-, rfl⟩) | rfl) | hc := hc
  · exact hfirst
  · exact hblank
  · exact hblank
  · exact htrail hc

theorem commaBlanks : Pattern.commaBlanks.SeesClasses s where
  neverEmpty := Pattern.neverEmpty_commaBlanks
  attempt_map behind t := by
    simp only [Pattern.attempt]
    cases t with
    | nil => rfl
    | cons c t =>
      have hcomma := hs.eq_known_iff (k := ',') (by decide) c
      by_cases hc : c = ','
      · subst hc
        simp only [List.map_cons, hcomma.mpr rfl, Pattern.tryCommaBlanks, hs.leadingBlanks_map,
          hs.head?_drop_map (k := '\n') (by decide)]
      · have hc' : s c ≠ ',' := fun h => hc (hcomma.mp h)
        rw [List.map_cons, Pattern.tryCommaBlanks_other hc, Pattern.tryCommaBlanks_other hc']
  fixed behind t h hh := by
    obtain ⟨n, rfl⟩ := Pattern.eq_lastBlank_of_tryCommaBlanks hh
    exact hs.fixed_lastBlank (by decide) (by simp) n

theorem tryAcrossBlanks_map {first last : Char} (hfirst : first ∈ knownChars)
    (hlast : last ∈ knownChars) (t : Text) :
    Pattern.tryAcrossBlanks first last (t.map s) = Pattern.tryAcrossBlanks first last t := by
  cases t with
  | nil => rfl
  | cons c t =>
    have hhead : (s c == first) = (c == first) := by
      rw [Bool.eq_iff_iff, beq_iff_eq, beq_iff_eq, hs.eq_known_iff hfirst]
    simp only [List.map_cons, Pattern.tryAcrossBlanks, hhead, hs.leadingBlanks_map,
      hs.head?_drop_map hlast]

theorem acrossBlanks {p : Pattern} {first last : Char} (hfirst : first ∈ knownChars)
    (hlast : last ∈ knownChars)
    (hp : ∀ behind t, p.attempt behind t = { hit? := Pattern.tryAcrossBlanks first last t }) :
    p.SeesClasses s where
  neverEmpty behind t h hh := by
    rw [hp] at hh
    exact Pattern.whole_ne_nil_of_tryAcrossBlanks hh
  attempt_map behind t := by rw [hp, hp, hs.tryAcrossBlanks_map hfirst hlast]
  fixed behind t h hh := by
    rw [hp] at hh
    obtain ⟨n, rfl⟩ := Pattern.eq_lastBlank_of_tryAcrossBlanks hh
    exact hs.fixed_lastBlank hfirst (by simpa using hlast) n

end KeepsClasses

/-! ## The searches -/

theorem overrunFrom_congr {a b : Step} {as bs : List Step} (heffort : a.effort = b.effort)
    (hhit : a.hit?.isSome = b.hit?.isSome)
    (hrest : ∀ spent, overrunFrom spent as = overrunFrom spent bs) (spent : Nat) :
    overrunFrom spent (a :: as) = overrunFrom spent (b :: bs) := by
  simp only [overrunFrom, heffort, hhit, hrest]

namespace Pattern.SeesClasses

variable {p : Pattern} {s : Char → Char} (hp : p.SeesClasses s) {behind : Option Char}
include hp

theorem no_hit_map {c : Char} {t : Text} (hh : (p.attempt behind (c :: t)).hit? = none) :
    (p.attempt (behind.map s) (s c :: t.map s)).hit? = none := by
  rw [← List.map_cons, hp.attempt_map, hh]

variable {h : Hit} {t : Text} (hh : (p.attempt behind (h.whole ++ t)).hit? = some h)
include hh

theorem map_whole : h.whole.map s = h.whole := map_eq_self_of_forall (hp.fixed _ _ _ hh)

theorem map_whole_append : (h.whole ++ t).map s = h.whole ++ t.map s := by
  rw [List.map_append, hp.map_whole hh]

theorem map_getLast? : h.whole.getLast?.map s = h.whole.getLast? := by
  rw [← List.getLast?_map, hp.map_whole hh]

/-- A hit is found again in the renamed text. -/
theorem attempt_whole : p.attempt (behind.map s) (h.whole ++ t.map s) =
    p.attempt behind (h.whole ++ t) := by
  rw [← hp.map_whole_append hh, hp.attempt_map]

end Pattern.SeesClasses

/-- The search of a renamed text costs the same, place by place. -/
theorem Pattern.SeesClasses.overrunFrom_map {p : Pattern} {s : Char → Char} (hp : p.SeesClasses s)
    (spent : Nat) (behind : Option Char) (t : Text) :
    overrunFrom spent (p.scan false (behind.map s) 0 (t.map s)) =
      overrunFrom spent (p.scan false behind 0 t) := by
  have hne := hp.neverEmpty
  induction behind, t using Pattern.scan_induction hne generalizing spent with
  | stop behind =>
    have hsame : p.attempt (behind.map s) [] = p.attempt behind [] := hp.attempt_map behind []
    rw [List.map_nil, scan_nil hne, scan_nil hne, hsame]
  | pass behind c t hh ih =>
    have hsame := hp.attempt_map behind (c :: t)
    rw [List.map_cons, scan_pass hne hh, scan_pass hne (hp.no_hit_map hh)]
    refine overrunFrom_congr ?_ ?_ ih spent
    · exact congrArg Attempt.effort hsame
    · rfl
  | hit behind h t hh ih =>
    have hsame := hp.attempt_whole hh
    rw [hp.map_getLast? hh] at ih
    rw [hp.map_whole_append hh, scan_hit hne hh, scan_hit hne (hsame ▸ hh)]
    refine overrunFrom_congr ?_ ?_ ih spent
    · exact congrArg Attempt.effort hsame
    · rfl

/-! ## The turns -/

/-- The characters that a replacement adds to what is kept. -/
def Replacement.added : Replacement → Text
  | wrap before after => before ++ after
  | literal text => text

theorem KeepsClasses.fill_map {s : Char → Char} (hs : KeepsClasses s) {r : Replacement}
    (hr : r.added ⊆ knownChars) {h : Hit} (hh : ∀ c ∈ h.kept, s c = c) :
    (r.fill h).map s = r.fill h := by
  cases r with
  | wrap before after =>
    obtain ⟨hbefore, hafter⟩ := List.append_subset.mp hr
    rw [Replacement.fill, List.map_append, List.map_append, hs.map_known hbefore,
      hs.map_known hafter, map_eq_self_of_forall hh]
  | literal text => exact hs.map_known hr

namespace Rule

/-- The rule tries the same on a renamed text, and what it writes for a hit is not renamed. -/
structure SeesClasses (r : Rule) (s : Char → Char) : Prop where
  pattern : r.pattern.SeesClasses s
  fill_map : ∀ h : Hit, (∀ c ∈ h.kept, s c = c) →
    (r.replacement.fill h).map s = r.replacement.fill h

variable {r : Rule} {s : Char → Char}

theorem replaceFrom_map (hr : r.SeesClasses s) (behind : Option Char) (t : Text) :
    r.replaceFrom (behind.map s) (t.map s) = (r.replaceFrom behind t).map s := by
  have hp := hr.pattern
  have hne := hp.neverEmpty
  induction behind, t using Pattern.scan_induction hne with
  | stop behind => rw [List.map_nil, replaceFrom_nil hne, replaceFrom_nil hne, List.map_nil]
  | pass behind c t hh ih =>
    rw [List.map_cons, replaceFrom_pass hne hh, replaceFrom_pass hne (hp.no_hit_map hh),
      List.map_cons, ← ih, Option.map_some]
  | hit behind h t hh ih =>
    have hkept : ∀ c ∈ h.kept, s c = c := fun c hc =>
      hp.fixed _ _ _ hh c (List.mem_append_left _ (List.mem_append_right _ hc))
    rw [hp.map_getLast? hh] at ih
    rw [hp.map_whole_append hh, replaceFrom_hit hne hh,
      replaceFrom_hit hne ((hp.attempt_whole hh).symm ▸ hh), List.map_append,
      hr.fill_map h hkept, ih]

/-- A turn on a renamed text gives the renamed text, or fails alike. -/
theorem apply_map (hr : r.SeesClasses s) (t : Text) :
    r.apply (t.map s) = (r.apply t).map (List.map s) := by
  have hover : r.pattern.overrun? (r.pattern.steps (t.map s)) =
      r.pattern.overrun? (r.pattern.steps t) := by
    unfold Pattern.overrun?
    rw [Pattern.steps_eq, Pattern.steps_eq]
    split
    · exact hr.pattern.overrunFrom_map 0 none t
    · rfl
  have htext : r.replaceAll (t.map s) = (r.replaceAll t).map s := by
    rw [replaceAll_eq_replaceFrom, replaceAll_eq_replaceFrom]
    exact replaceFrom_map hr none t
  rw [apply_eq, apply_eq, hover, htext]
  cases r.pattern.overrun? (r.pattern.steps t) <;> rfl

end Rule

namespace Formatter

theorem applyAll_map {s : Char → Char} {rules : List Rule} (h : ∀ r ∈ rules, r.SeesClasses s)
    (t : Text) : applyAll rules (t.map s) = (applyAll rules t).map (List.map s) := by
  induction rules generalizing t with
  | nil => rfl
  | cons r rules ih =>
    obtain ⟨hr, hrules⟩ := List.forall_mem_cons.mp h
    have hturn := Rule.apply_map hr t
    cases happly : r.apply t with
    | error e =>
      rw [happly] at hturn
      rw [applyAll_cons_error happly, applyAll_cons_error hturn]
      rfl
    | ok u =>
      rw [happly] at hturn
      rw [applyAll_cons_ok happly, applyAll_cons_ok hturn, ih hrules]

end Formatter

theorem KeepsClasses.table {s : Char → Char} (hs : KeepsClasses s) :
    ∀ r ∈ Rule.table, r.SeesClasses s := by
  have hadded : ∀ r ∈ Rule.table, r.replacement.added ⊆ knownChars := by decide
  have hpatterns : ∀ r ∈ Rule.table,
      r.pattern ∈ [.operator, .commaBlanks, .commaLineEnd, .tornEquals] := by decide
  intro r hr
  refine ⟨?_, fun h hh => hs.fill_map (hadded r hr) hh⟩
  have hpattern := hpatterns r hr
  simp only [List.mem_cons, List.not_mem_nil, or_false] at hpattern
  obtain hp | hp | hp | hp := hpattern
  all_goals rw [hp]
  · exact hs.operator
  · exact hs.commaBlanks
  · exact hs.acrossBlanks (by decide) (by decide) fun _ _ => rfl
  · exact hs.acrossBlanks (by decide) (by decide) fun _ _ => rfl

namespace Formatter

/-- The formatter sees classes of characters only. If a renaming leaves the operators' characters,
the comma, the blank and the newline alone and keeps what is solid and what is white space, then
a renamed text is formatted to the renamed result, or fails in the same rule for the same reason. -/
theorem a_renaming_that_keeps_the_classes_goes_through (s : Char → Char) (hs : KeepsClasses s)
    (t : Text) : format (t.map s) = (format t).map (List.map s) :=
  applyAll_map hs.table t

/-- Makes the next-line control of the letter x, and the byte order mark of a tab. -/
def strange (c : Char) : Char := if c = 'x' then '\x85' else if c = '\t' then '\ufeff' else c

theorem keepsClasses_strange : KeepsClasses strange where
  known c hc := by
    have hall : knownChars.all (fun c => strange c == c) = true := by decide
    exact beq_iff_eq.mp (List.all_eq_true.mp hall c hc)
  solid c hc hsolid := by
    unfold strange
    split
    · decide
    · split
      · subst c
        cases hsolid
      · exact ⟨hsolid, hc⟩
  space c hc hspace := by
    unfold strange
    split
    · subst c
      cases hspace
    · split
      · decide
      · exact ⟨hspace, hc⟩

/-- The letter, the tab and what stands for them are treated alike beside an operator. -/
theorem strange_characters_are_spaced_like_a_letter_and_a_tab :
    KeepsClasses strange ∧
      format "x==a,  x\n\t-x".toList = .ok "x == a, x\n\t-x".toList ∧
      format "\x85==a,  \x85\n\ufeff-\x85".toList =
        .ok "\x85 == a, \x85\n\ufeff-\x85".toList := by
  have hformat : format "x==a,  x\n\t-x".toList = .ok "x == a, x\n\t-x".toList := by decide
  have htext : "x==a,  x\n\t-x".toList.map strange =
      "\x85==a,  \x85\n\ufeff-\x85".toList := by decide
  have hresult : "x == a, x\n\t-x".toList.map strange =
      "\x85 == a, \x85\n\ufeff-\x85".toList := by decide
  have hlaw := a_renaming_that_keeps_the_classes_goes_through strange keepsClasses_strange
    "x==a,  x\n\t-x".toList
  rw [hformat, htext] at hlaw
  exact ⟨keepsClasses_strange, hformat, hlaw.trans (congrArg Except.ok hresult)⟩

end Formatter

end Spacing
