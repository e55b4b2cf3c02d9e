-- Which settings of the log end the program. The parts of a directive are cut out at places that
-- were found without the white space in front of it. So a setting is safe if no directive in it has
-- white space in front, and also if each of its characters is a single byte.
import Spacing.LogFilter

namespace Spacing

namespace Directive

/-! ## Places to cut at -/

@[simp]
theorem size_append (a b : Text) : size (a ++ b) = size a + size b := by
  induction a with
  | nil => simp [size]
  | cons c a ih => simp only [List.cons_append, size, ih, Nat.add_assoc]

theorem size_eq_zero {t : Text} (h : size t = 0) : t = [] := by
  cases t with
  | nil => rfl
  | cons c t =>
    have := c.utf8Size_pos
    simp only [size] at h
    omega

/-- A place behind a character is not inside it, and it is left behind in one step. -/
theorem exists_size_cons (c : Char) (front : Text) :
    ∃ n, size (c :: front) = n + 1 ∧ ¬ n + 1 < c.utf8Size ∧ n + 1 - c.utf8Size = size front := by
  have hpos := c.utf8Size_pos
  refine ⟨size (c :: front) - 1, ?_⟩
  simp only [size]
  omega

theorem fromPlace_size (front rest : Text) : fromPlace (size front) (front ++ rest) = .ok rest := by
  induction front with
  | nil => cases rest <;> rfl
  | cons c front ih =>
    obtain ⟨n, hplace, hbehind, hnext⟩ := exists_size_cons c front
    rw [hplace, List.cons_append, fromPlace, if_neg hbehind, hnext, ih]

theorem upTo_size (front rest : Text) : upTo (size front) (front ++ rest) = .ok front := by
  induction front with
  | nil => cases rest <;> rfl
  | cons c front ih =>
    obtain ⟨n, hplace, hbehind, hnext⟩ := exists_size_cons c front
    rw [hplace, List.cons_append, upTo, if_neg hbehind, hnext, ih]
    rfl

/-- The place is at an end of the text or between two of its characters. -/
def IsBorder (t : Text) (place : Nat) : Prop :=
  ∃ front rest, t = front ++ rest ∧ size front = place

theorem IsBorder.exists_fromPlace {t : Text} {place : Nat} (h : IsBorder t place) :
    ∃ rest, fromPlace place t = .ok rest := by
  obtain ⟨front, rest, rfl, rfl⟩ := h
  exact ⟨rest, fromPlace_size front rest⟩

theorem exists_cut {t : Text} {first last : Nat} (hfirst : IsBorder t first)
    (hlast : IsBorder t last) (hle : first ≤ last) : ∃ part, cut t first last = .ok part := by
  obtain ⟨front, rest, rfl, rfl⟩ := hfirst
  obtain ⟨front', rest', heq, rfl⟩ := hlast
  have hpart : ∃ part, rest = part ++ rest' ∧ size front' = size front + size part := by
    obtain ⟨part, rfl, rfl⟩ | ⟨back, rfl, rfl⟩ := List.append_eq_append_iff.mp heq
    · exact ⟨part, rfl, size_append front part⟩
    · rw [size_append] at hle
      obtain rfl := size_eq_zero (t := back) (by omega)
      exact ⟨[], rfl, by simp [size]⟩
  obtain ⟨part, rfl, hsize⟩ := hpart
  have hlength : size front' - size front = size part := by omega
  refine ⟨part, ?_⟩
  rw [cut, fromPlace_size, hlength]
  exact upTo_size part rest'

/-- The rest of the form from a place on. -/
def NextAt (form : Text) (place : Nat) (ahead : Text) : Prop :=
  ∃ front, form = front ++ ahead ∧ size front = place

theorem nextAt_zero (form : Text) : NextAt form 0 form := ⟨[], rfl, rfl⟩

theorem NextAt.skip {form rest : Text} {place : Nat} (part : Text)
    (h : NextAt form place (part ++ rest)) : NextAt form (place + size part) rest := by
  obtain ⟨front, rfl, rfl⟩ := h
  exact ⟨front ++ part, (List.append_assoc front part rest).symm, size_append front part⟩

/-- What is skipped ends at a mark. -/
theorem NextAt.mark {form ahead rest : Text} {place : Nat} {p : Char → Bool} {mark : Char}
    (h : NextAt form place ahead) (hrest : ahead.dropWhile p = mark :: rest) :
    NextAt form place (ahead.takeWhile p ++ ([mark] ++ rest)) ∧ p mark = false := by
  constructor
  · rwa [List.singleton_append, ← hrest, List.takeWhile_append_dropWhile]
  · have := List.head?_dropWhile_not p ahead
    rw [hrest] at this
    simpa using this

/-! ## Readings that survive

Each reader is given a place of the form and what comes next there. Where the places of the form
are places of the whole text, none of its cuts is inside a character. -/

/-- The reading does not end the program. -/
def Survives {α : Type} (r : Except DirectiveStop α) : Prop := r ≠ .error .crash

theorem Survives.bind {α β : Type} {r : Except DirectiveStop α} {f : α → Except DirectiveStop β}
    (hr : Survives r) (hf : ∀ a, Survives (f a)) : Survives (r.bind f) := by
  cases r with
  | error stop => exact fun h => hr (congrArg Except.error (Except.error.inj h))
  | ok a => exact hf a

theorem survives_of_ok {α : Type} {r : Except DirectiveStop α} (h : ∃ a, r = .ok a) :
    Survives r := by
  obtain ⟨a, rfl⟩ := h
  exact nofun

theorem survives_withLevel (s : Scope) (t : Text) : Survives (withLevel s t) := by
  unfold withLevel
  split
  · exact nofun
  · split
    · exact nofun
    · exact nofun

theorem survives_withField (s : Scope) (field : Text) : Survives (withField s field) := by
  unfold withField
  dsimp only
  split
  · exact nofun
  · split
    · exact nofun
    · exact nofun

/-- At each place of the form the whole text can be cut. -/
def Aligned (whole form : Text) : Prop :=
  ∀ place ahead, NextAt form place ahead → IsBorder whole place

section

variable {whole form : Text} {place : Nat} (h : Aligned whole form)

include h

theorem survives_fromPlace {ahead : Text} (hat : NextAt form place ahead) :
    Survives (fromPlace place whole) :=
  survives_of_ok (h place ahead hat).exists_fromPlace

theorem survives_cut {part rest : Text} (hat : NextAt form place (part ++ rest)) :
    Survives (cut whole place (place + size part)) :=
  survives_of_ok (exists_cut (h place _ hat) (h _ rest (hat.skip part)) (Nat.le_add_right _ _))

theorem survives_afterBracket (s : Scope) {ahead : Text} (hat : NextAt form place ahead) :
    Survives (afterBracket s whole ahead place) := by
  unfold afterBracket
  split
  · exact nofun
  · have hnext := hat.skip ['=']
    exact (survives_fromPlace h hnext).bind (survives_withLevel s)
  · exact nofun

theorem survives_afterBrace (s : Scope) {ahead : Text} (hat : NextAt form place ahead) :
    Survives (afterBrace s whole ahead place) := by
  unfold afterBrace
  dsimp only
  split
  · exact nofun
  · rename_i brace rest hrest
    obtain ⟨hfield, hbrace⟩ := hat.mark hrest
    obtain rfl : brace = '\x7d' := by simpa using hbrace
    refine ((survives_cut h hfield).bind (survives_withField s)).bind fun s => ?_
    split
    · exact survives_afterBracket h s ((hfield.skip _).skip ['\x7d', ']'])
    · exact nofun

theorem survives_afterTarget (s : Scope) {ahead : Text} (hat : NextAt form place ahead) :
    Survives (afterTarget s whole ahead place) := by
  unfold afterTarget
  dsimp only
  split
  · exact nofun
  · rename_i mark rest hrest
    obtain ⟨hspan, hmark⟩ := hat.mark hrest
    refine (survives_cut h hspan).bind fun span => ?_
    obtain rfl | rfl : mark = ']' ∨ mark = '\x7b' := by
      rw [Bool.and_eq_false_iff] at hmark
      simpa using hmark
    · exact survives_afterBracket h _ ((hspan.skip _).skip [']'])
    · exact survives_afterBrace h _ ((hspan.skip _).skip ['\x7b'])

theorem survives_withTarget : Survives (withTarget whole form) := by
  unfold withTarget
  dsimp only
  split
  · split
    · exact nofun
    · exact nofun
  · rename_i mark rest hrest
    obtain ⟨htarget, hmark⟩ := (nextAt_zero form).mark hrest
    have hcut := survives_cut h htarget
    rw [Nat.zero_add] at hcut
    have hnext := (htarget.skip _).skip [mark]
    rw [Nat.zero_add] at hnext
    refine hcut.bind fun target => ?_
    obtain rfl | rfl : mark = '=' ∨ mark = '[' := by
      rw [Bool.and_eq_false_iff] at hmark
      simpa using hmark
    · exact (survives_fromPlace h hnext).bind (survives_withLevel _)
    · exact survives_afterTarget h _ hnext

end

theorem survives_read {t : Text} (h : Aligned t (trim t)) : Survives (read t) := by
  unfold read
  split
  · exact nofun
  · rename_i c rest htrim
    rw [htrim] at h
    split
    · rename_i hc
      obtain rfl : c = '[' := by simpa using hc
      exact survives_afterTarget h _ ((nextAt_zero _).skip ['['])
    · split
      · exact nofun
      · exact survives_withTarget h

theorem crashes_eq_false {t : Text} (h : Survives (read t)) : crashes t = false := by
  unfold crashes
  split
  · rename_i hcrash
    exact absurd hcrash h
  · rfl

/-! ## Texts without a risk -/

/-- White space is taken away at both ends. -/
theorem exists_trim (t : Text) : ∃ tail, t = t.takeWhile isWhiteSpace ++ (trim t ++ tail) := by
  let rest := t.dropWhile isWhiteSpace
  refine ⟨(rest.reverse.takeWhile isWhiteSpace).reverse, ?_⟩
  have hrest : trim t ++ (rest.reverse.takeWhile isWhiteSpace).reverse = rest := by
    rw [trim, ← List.reverse_append, List.takeWhile_append_dropWhile, List.reverse_reverse]
  rw [hrest, List.takeWhile_append_dropWhile]

/-- Without white space in front, a directive is cut at the places of its form. -/
theorem aligned_of_head {t : Text} (h : t.head?.any isWhiteSpace = false) : Aligned t (trim t) := by
  rintro place ahead ⟨front, hform, hplace⟩
  obtain ⟨tail, ht⟩ := exists_trim t
  have hlead : t.takeWhile isWhiteSpace = [] := by
    cases t with
    | nil => rfl
    | cons c t =>
      have hc : isWhiteSpace c = false := by simpa using h
      simp [hc]
  refine ⟨front, ahead ++ tail, ?_, hplace⟩
  rw [ht, hlead, hform, List.nil_append, List.append_assoc]

theorem size_eq_length {t : Text} (h : ∀ c ∈ t, c.utf8Size = 1) : size t = t.length := by
  induction t with
  | nil => rfl
  | cons c t ih =>
    rw [size, h c List.mem_cons_self, ih fun d hd => h d (List.mem_cons_of_mem c hd),
      List.length_cons, Nat.add_comm]

/-- A text of single bytes can be cut at any place. -/
theorem aligned_of_single {t : Text} (h : ∀ c ∈ t, c.utf8Size = 1) : Aligned t (trim t) := by
  rintro place ahead ⟨front, hform, hplace⟩
  obtain ⟨tail, ht⟩ := exists_trim t
  rw [hform] at ht
  have hfront : size front = front.length := by
    refine size_eq_length fun c hc => h c ?_
    rw [ht]
    simp [hc]
  have hle : front.length ≤ t.length := by
    rw [ht]
    simp only [List.length_append]
    omega
  refine ⟨t.take front.length, t.drop front.length, (List.take_append_drop _ t).symm, ?_⟩
  rw [size_eq_length fun c hc => h c (List.mem_of_mem_take hc), List.length_take_of_le hle,
    ← hfront, hplace]

end Directive

namespace LogFilter

/-- A piece of the setting has white space in front and a character of several bytes. -/
def Risky (setting : Text) : Prop :=
  ∃ piece ∈ pieces setting, piece.head?.any isWhiteSpace = true ∧ ∃ c ∈ piece, c.utf8Size ≠ 1

theorem risky_of_crashes {setting : Text} (h : crashes setting = true) : Risky setting := by
  obtain ⟨piece, hmem, hcrash⟩ := List.any_eq_true.mp h
  -- A piece that crashes is not aligned, so it fails both conditions for that.
  have hbroken : ¬ Directive.Aligned piece (Directive.trim piece) := by
    intro haligned
    rw [Directive.crashes_eq_false (Directive.survives_read haligned)] at hcrash
    cases hcrash
  refine ⟨piece, hmem, ?_, ?_⟩
  · rw [← Bool.not_eq_false]
    exact fun hhead => hbroken (Directive.aligned_of_head hhead)
  · refine Classical.byContradiction fun hnone => ?_
    refine hbroken (Directive.aligned_of_single fun c hc => ?_)
    exact Decidable.byContradiction fun hsize => hnone ⟨c, hc, hsize⟩

end LogFilter

end Spacing
