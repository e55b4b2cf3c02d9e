-- Where the hits of a scan stand in the text. They stand one behind the other, each inside the text
-- and with its kept part inside it, so a turn of a rule is a splice: the slices of the text between
-- the hits stay, and each hit is replaced at its place.
import Spacing.Proofs.FormatOutcome

namespace Spacing

/-! ## Spans

A place of a text is the number of characters before it. -/

/-- A stretch of a text, from one place up to another. -/
structure Span where
  start : Nat
  stop : Nat
deriving Repr, DecidableEq

namespace Span

/-- The characters of a text in the stretch. -/
def slice (s : Span) (t : Text) : Text := (t.drop s.start).take (s.stop - s.start)

/-- The place is one of the characters of the stretch. -/
def Holds (s : Span) (place : Nat) : Prop := s.start ≤ place ∧ place < s.stop

theorem slice_append (a b c : Text) :
    (Span.mk a.length (a.length + b.length)).slice (a ++ (b ++ c)) = b := by
  simp [slice]

theorem slice_self (place : Nat) (t : Text) : (Span.mk place place).slice t = [] := by
  simp [slice]

theorem slice_append_slice {i j k : Nat} (hij : i ≤ j) (hjk : j ≤ k) (t : Text) :
    (Span.mk i j).slice t ++ (Span.mk j k).slice t = (Span.mk i k).slice t := by
  have hdrop : t.drop j = (t.drop i).drop (j - i) := by
    rw [List.drop_drop, Nat.add_sub_cancel' hij]
  have hlength : k - i = (j - i) + (k - j) := by omega
  simp only [slice]
  rw [hdrop, hlength, List.take_add]

theorem slice_append_drop {i j : Nat} (hij : i ≤ j) (t : Text) :
    (Span.mk i j).slice t ++ t.drop j = t.drop i := by
  have hdrop : t.drop j = (t.drop i).drop (j - i) := by
    rw [List.drop_drop, Nat.add_sub_cancel' hij]
  simp only [slice]
  rw [hdrop, List.take_append_drop]

end Span

/-! ## Spots -/

/-- Where a hit stands in a text: the whole stretch, and the part of it that is kept. -/
structure Spot where
  whole : Span
  kept : Span
deriving Repr, DecidableEq

namespace Spot

/-- The spot of a hit that starts at a place. -/
def ofHit (place : Nat) (h : Hit) : Spot :=
  let keptStart := place + h.lead.length
  { whole := ⟨place, place + h.whole.length⟩
    kept := ⟨keptStart, keptStart + h.kept.length⟩ }

/-- The hit at a spot, cut out of the text. -/
def hit (s : Spot) (t : Text) : Hit :=
  { lead := (Span.mk s.whole.start s.kept.start).slice t
    kept := s.kept.slice t
    trail := (Span.mk s.kept.stop s.whole.stop).slice t }

/-- The spot lies in the text, and its kept part in the whole stretch. -/
structure Inside (s : Spot) (t : Text) : Prop where
  start_le : s.whole.start ≤ s.kept.start
  kept_le : s.kept.start ≤ s.kept.stop
  le_stop : s.kept.stop ≤ s.whole.stop
  stop_le : s.whole.stop ≤ t.length

/-- The first spot starts before the second one and has no character of it. -/
def Before (a b : Spot) : Prop := a.whole.start < b.whole.start ∧ a.whole.stop ≤ b.whole.start

theorem Inside.whole_le {s : Spot} {t : Text} (h : s.Inside t) : s.whole.start ≤ s.whole.stop :=
  Nat.le_trans h.start_le (Nat.le_trans h.kept_le h.le_stop)

theorem Inside.whole_hit {s : Spot} {t : Text} (h : s.Inside t) :
    (s.hit t).whole = s.whole.slice t := by
  simp only [hit, Hit.whole]
  rw [Span.slice_append_slice h.start_le h.kept_le,
    Span.slice_append_slice (Nat.le_trans h.start_le h.kept_le) h.le_stop]

theorem hit_ofHit (front : Text) (h : Hit) (rest : Text) :
    (ofHit front.length h).hit (front ++ (h.whole ++ rest)) = h := by
  have hlead := Span.slice_append front h.lead (h.kept ++ (h.trail ++ rest))
  have hkept := Span.slice_append (front ++ h.lead) h.kept (h.trail ++ rest)
  have htrail := Span.slice_append (front ++ (h.lead ++ h.kept)) h.trail rest
  simp only [List.length_append, List.append_assoc, Nat.add_assoc] at hlead hkept htrail
  simp only [hit, ofHit, Hit.whole, List.length_append, List.append_assoc, Nat.add_assoc, hlead,
    hkept, htrail]

theorem inside_ofHit (front : Text) (h : Hit) (rest : Text) :
    (ofHit front.length h).Inside (front ++ (h.whole ++ rest)) := by
  constructor
  all_goals
    simp only [ofHit, Hit.whole, List.length_append]
    omega

/-- The spots of the hits among some steps, the first of which is at a place. -/
def ofSteps (place : Nat) : List Step → List Spot
  | [] => []
  | s :: steps =>
    (s.hit?.map (ofHit place)).toList ++ ofSteps (place + s.text.length) steps

end Spot

/-! ## Splices -/

/-- The text with a replacement at every spot, from a place on. The cursor goes from the end of one
spot to the start of the next. -/
def splice (fill : Spot → Text) (t : Text) (place : Nat) : List Spot → Text
  | [] => t.drop place
  | s :: spots =>
    (Span.mk place s.whole.start).slice t ++ fill s ++ splice fill t s.whole.stop spots

/-- What is written at a spot: the kept slice with a text on each side, or a literal text. -/
def Replacement.atSpot (r : Replacement) (t : Text) (s : Spot) : Text :=
  match r with
  | .wrap before after => before ++ s.kept.slice t ++ after
  | .literal text => text

theorem Replacement.fill_hit (r : Replacement) (t : Text) (s : Spot) :
    r.fill (s.hit t) = r.atSpot t s := by
  cases r <;> rfl

/-- A character that no spot holds stays. -/
theorem splice_cons (fill : Spot → Text) (front : Text) (c : Char) (rest : Text)
    {spots : List Spot} (h : ∀ s ∈ spots, front.length + 1 ≤ s.whole.start) :
    splice fill (front ++ c :: rest) front.length spots =
      c :: splice fill (front ++ c :: rest) (front.length + 1) spots := by
  have hone : (front ++ c :: rest).drop (front.length + 1) = rest := by simp
  cases spots with
  | nil =>
    rw [splice, splice, hone]
    simp
  | cons s spots =>
    have hs := h s List.mem_cons_self
    have hslice := Span.slice_append_slice (Nat.le_succ front.length) hs (front ++ c :: rest)
    have hchar := Span.slice_append front [c] rest
    rw [splice, splice, ← hslice]
    simp only [List.singleton_append, List.length_singleton] at hchar
    rw [hchar]
    rfl

/-- Spots in order, all of them from a place on. -/
structure InOrder (t : Text) (place : Nat) (spots : List Spot) : Prop where
  inside : ∀ s ∈ spots, s.Inside t
  ahead : ∀ s ∈ spots, place ≤ s.whole.start
  ordered : spots.Pairwise Spot.Before

/-- The slices at the spots and between them are the text. -/
theorem splice_whole {t : Text} {place : Nat} {spots : List Spot} (h : InOrder t place spots) :
    splice (fun s => s.whole.slice t) t place spots = t.drop place := by
  induction spots generalizing place with
  | nil => rfl
  | cons s spots ih =>
    obtain ⟨hs, hspots⟩ := List.forall_mem_cons.mp h.inside
    obtain ⟨hfirst, hordered⟩ := List.pairwise_cons.mp h.ordered
    have hstart := h.ahead s List.mem_cons_self
    have hrest : InOrder t s.whole.stop spots := ⟨hspots, fun b hb => (hfirst b hb).2, hordered⟩
    rw [splice, ih hrest, Span.slice_append_slice hstart hs.whole_le,
      Span.slice_append_drop (Nat.le_trans hstart hs.whole_le)]

/-! ## The scan as a splice -/

namespace Pattern

/-- What a pattern finds at a place of a text. -/
def hitAt? (p : Pattern) (t : Text) (place : Nat) : Option Hit :=
  (p.attempt (t.take place).getLast? (t.drop place)).hit?

theorem hitAt?_append (p : Pattern) (front rest : Text) :
    p.hitAt? (front ++ rest) front.length = (p.attempt front.getLast? rest).hit? := by
  simp [hitAt?]

/-- The spots of a pattern in a text. -/
def spots (p : Pattern) (t : Text) : List Spot := Spot.ofSteps 0 (p.steps t)

/-- The steps go over the text from a place on: their hits are those of the pattern at spots in
order, and a place that they pass over holds no hit but an empty one at the end of the hit before
it. `afterHit` says that such an end is at the place itself. -/
structure GoesOver (p : Pattern) (t : Text) (afterHit : Bool) (place : Nat)
    (steps : List Step) : Prop where
  inOrder : InOrder t place (Spot.ofSteps place steps)
  found : ∀ s ∈ Spot.ofSteps place steps, p.hitAt? t s.whole.start = some (s.hit t)
  hits : steps.filterMap Step.hit? = (Spot.ofSteps place steps).map (·.hit t)
  written : ∀ r : Replacement,
    steps.flatMap r.write = splice (r.atSpot t) t place (Spot.ofSteps place steps)
  passed : ∀ i, place ≤ i → i ≤ t.length →
    (∀ s ∈ Spot.ofSteps place steps, ¬ s.whole.Holds i) → ∀ h, p.hitAt? t i = some h →
    h.whole = [] ∧
      (afterHit = true ∧ i = place ∨ ∃ s ∈ Spot.ofSteps place steps, s.whole.stop = i)

/-- No hit is taken: the pattern finds none, or an empty one at the end of the hit before it. -/
theorem taken_eq_none_iff {a : Attempt} {afterHit : Bool} :
    a.taken afterHit = none ↔ ∀ h, a.hit? = some h → h.whole = [] ∧ afterHit = true := by
  unfold Attempt.taken
  cases a.hit? with
  | none => simp
  | some h => cases afterHit <;> simp [Option.filter]

theorem taken_eq_some {a : Attempt} {afterHit : Bool} {h : Hit} (ht : a.taken afterHit = some h) :
    a.hit? = some h :=
  (Option.filter_eq_some_iff.mp ht).1

variable {p : Pattern} {afterHit : Bool} {front rest : Text} {steps : List Step}

/-- At the end of the text no step is left. -/
theorem goesOver_nil (h : (p.attempt front.getLast? []).taken afterHit = none) :
    p.GoesOver front afterHit front.length [] := by
  refine ⟨⟨nofun, nofun, List.Pairwise.nil⟩, nofun, rfl, fun r => ?_, ?_⟩
  · simp [splice, Spot.ofSteps]
  · intro i hle hlength _ h' hh'
    obtain rfl : i = front.length := Nat.le_antisymm hlength hle
    have hhere := p.hitAt?_append front []
    rw [List.append_nil] at hhere
    obtain ⟨hempty, hafter⟩ := taken_eq_none_iff.mp h h' (hhere ▸ hh')
    exact ⟨hempty, Or.inl ⟨hafter, rfl⟩⟩

theorem goesOver_stop (e : Effort) (h : (p.attempt front.getLast? []).taken afterHit = none) :
    p.GoesOver front afterHit front.length [.stop e] :=
  let ⟨inOrder, found, hits, written, passed⟩ := goesOver_nil h
  ⟨inOrder, found, hits, written, passed⟩

theorem goesOver_pass {c : Char} (e : Effort)
    (h : (p.attempt front.getLast? (c :: rest)).taken afterHit = none)
    (hrest : p.GoesOver (front ++ c :: rest) false (front.length + 1) steps) :
    p.GoesOver (front ++ c :: rest) afterHit front.length (.pass e c :: steps) := by
  have hspots : Spot.ofSteps front.length (.pass e c :: steps) =
      Spot.ofSteps (front.length + 1) steps := rfl
  have hahead := hrest.inOrder.ahead
  refine ⟨?_, ?_, ?_, fun r => ?_, ?_⟩
  · rw [hspots]
    exact ⟨hrest.inOrder.inside, fun s hs => Nat.le_of_succ_le (hahead s hs),
      hrest.inOrder.ordered⟩
  · rw [hspots]
    exact hrest.found
  · rw [hspots, ← hrest.hits]
    rfl
  · rw [hspots, splice_cons _ _ _ _ hahead, ← hrest.written]
    rfl
  · intro i hle hlength hfree h' hh'
    rw [hspots] at hfree ⊢
    rcases Nat.eq_or_lt_of_le hle with rfl | hlt
    · rw [hitAt?_append] at hh'
      obtain ⟨hempty, hafter⟩ := taken_eq_none_iff.mp h h' hh'
      exact ⟨hempty, Or.inl ⟨hafter, rfl⟩⟩
    · obtain ⟨hempty, ⟨hfalse, -⟩ | hstop⟩ := hrest.passed i hlt hlength hfree h' hh'
      · cases hfalse
      · exact ⟨hempty, Or.inr hstop⟩

theorem goesOver_hit {h : Hit} (e : Effort)
    (hh : (p.attempt front.getLast? (h.whole ++ rest)).hit? = some h)
    (hrest : p.GoesOver (front ++ (h.whole ++ rest)) true (front.length + h.whole.length) steps)
    (hahead : ∀ s ∈ Spot.ofSteps (front.length + h.whole.length) steps,
      front.length < s.whole.start) :
    p.GoesOver (front ++ (h.whole ++ rest)) afterHit front.length (.hit e h :: steps) := by
  have hspots : Spot.ofSteps front.length (.hit e h :: steps) =
      Spot.ofHit front.length h :: Spot.ofSteps (front.length + h.whole.length) steps := rfl
  have hhit := Spot.hit_ofHit front h rest
  refine ⟨?_, ?_, ?_, fun r => ?_, ?_⟩
  · rw [hspots]
    refine ⟨?_, ?_, List.pairwise_cons.mpr ⟨fun s hs => ⟨hahead s hs, ?_⟩, hrest.inOrder.ordered⟩⟩
    · exact List.forall_mem_cons.mpr ⟨Spot.inside_ofHit front h rest, hrest.inOrder.inside⟩
    · exact List.forall_mem_cons.mpr ⟨Nat.le_refl _, fun s hs => Nat.le_of_lt (hahead s hs)⟩
    · exact hrest.inOrder.ahead s hs
  · rw [hspots]
    refine List.forall_mem_cons.mpr ⟨?_, hrest.found⟩
    rw [hhit]
    exact (p.hitAt?_append front _).trans hh
  · rw [hspots, List.map_cons, hhit, ← hrest.hits]
    rfl
  · have hfill := r.fill_hit (front ++ (h.whole ++ rest)) (Spot.ofHit front.length h)
    rw [hhit] at hfill
    rw [hspots, splice, ← hfill, List.flatMap_cons, hrest.written]
    simp only [Spot.ofHit, Span.slice_self, List.nil_append]
    rfl
  · intro i hle hlength hfree h' hh'
    rw [hspots] at hfree ⊢
    obtain ⟨hhere, hlater⟩ := List.forall_mem_cons.mp hfree
    have hpast : front.length + h.whole.length ≤ i := by
      by_contra hlt
      exact hhere ⟨hle, Nat.lt_of_not_le hlt⟩
    obtain ⟨hempty, hends⟩ := hrest.passed i hpast hlength hlater h' hh'
    refine ⟨hempty, Or.inr ?_⟩
    obtain ⟨-, rfl⟩ | ⟨s, hs, hstop⟩ := hends
    · exact ⟨_, List.mem_cons_self, rfl⟩
    · exact ⟨s, List.mem_cons_of_mem _ hs, hstop⟩

theorem goesOver_empty {h : Hit} (e : Effort) (hempty : h.whole = [])
    (hh : (p.attempt front.getLast? rest).hit? = some h)
    (hrest : p.GoesOver (front ++ rest) true front.length steps)
    (hahead : ∀ s ∈ Spot.ofSteps front.length steps, front.length < s.whole.start) :
    p.GoesOver (front ++ rest) afterHit front.length (.hit e h :: steps) := by
  have heq : h.whole ++ rest = rest := by rw [hempty, List.nil_append]
  have hlength : front.length + h.whole.length = front.length := by
    rw [hempty, List.length_nil, Nat.add_zero]
  rw [← heq] at hh hrest ⊢
  refine goesOver_hit e hh ?_ ?_
  · rwa [hlength]
  · rwa [hlength]

/-- After an empty hit nothing is taken at its place. -/
theorem taken_after_empty {a : Attempt} {h : Hit} (hh : a.hit? = some h) (hempty : h.whole = []) :
    a.taken true = none := by
  rw [taken_eq_none_iff]
  rintro h' hh'
  obtain rfl : h = h' := Option.some.inj (hh.symm.trans hh')
  exact ⟨hempty, rfl⟩

theorem goesOver_scan (p : Pattern) (afterHit : Bool) (front rest : Text) :
    p.GoesOver (front ++ rest) afterHit front.length
      (p.scan afterHit front.getLast? 0 rest) := by
  -- On the length of what is left: a hit takes several characters at once.
  induction hn : rest.length using Nat.strongRecOn generalizing afterHit front rest with
  | _ n ih =>
    subst hn
    -- A character further on, where no hit ends.
    have hnext : ∀ c rest', rest = c :: rest' →
        p.GoesOver (front ++ rest) false (front.length + 1) (p.scan false (some c) 0 rest') := by
      rintro c rest' rfl
      have := ih rest'.length (by simp) false (front ++ [c]) rest' rfl
      simpa using this
    cases ht : (p.attempt front.getLast? rest).taken afterHit with
    | none =>
      cases rest with
      | nil =>
        simp only [scan, ht, List.append_nil]
        exact goesOver_stop _ ht
      | cons c rest =>
        simp only [scan, ht]
        exact goesOver_pass _ ht (hnext c rest rfl)
    | some h =>
      have hh := taken_eq_some ht
      obtain ⟨rest', rfl⟩ := exists_append_of_hit hh
      by_cases hw : h.whole = []
      · have hnone := taken_after_empty hh hw
        rw [hw, List.nil_append] at hh ht hnone hnext ⊢
        cases rest' with
        | nil =>
          simp only [scan, ht]
          refine goesOver_empty _ hw hh ?_ (List.forall_mem_nil _)
          rw [List.append_nil]
          exact goesOver_nil hnone
        | cons c rest' =>
          have hlater := hnext c rest' rfl
          simp only [scan, ht, hw, List.length_nil]
          exact goesOver_empty _ hw hh (goesOver_pass {} hnone hlater) hlater.inOrder.ahead
      · have hpos := List.length_pos_iff.mpr hw
        have hlast : (front ++ h.whole).getLast? = h.whole.getLast? := by
          rw [List.getLast?_append_of_ne_nil _ hw]
        have hlater := ih rest'.length (by rw [List.length_append]; omega) true
          (front ++ h.whole) rest' rfl
        rw [List.append_assoc, List.length_append, hlast] at hlater
        rw [scan_taken ht hw]
        refine goesOver_hit _ hh hlater fun s hs => ?_
        have := hlater.inOrder.ahead s hs
        omega

theorem goesOver_steps (p : Pattern) (t : Text) : p.GoesOver t false 0 (p.steps t) := by
  rw [steps_eq]
  exact p.goesOver_scan false [] t

/-! ## Patterns that keep all of a hit -/

/-- All that the pattern finds is kept. -/
def KeepsAll (p : Pattern) : Prop :=
  ∀ behind t h, (p.attempt behind t).hit? = some h → h.kept = h.whole

theorem keepsAll_operator : operator.KeepsAll := by
  intro behind t h hh
  obtain ⟨-, op, -, rfl⟩ := operator_hit_iff.mp hh
  exact (Hit.whole_all op.text).symm

theorem keepsAll_literals (alternatives : List Text) : (literals alternatives).KeepsAll := by
  intro behind t h hh
  obtain ⟨w, -, rfl⟩ := Option.map_eq_some_iff.mp hh
  exact (Hit.whole_all w).symm

end Pattern

/-! ## Turns -/

theorem splice_congr {fill fill' : Spot → Text} {spots : List Spot}
    (h : ∀ s ∈ spots, fill s = fill' s) (t : Text) (place : Nat) :
    splice fill t place spots = splice fill' t place spots := by
  induction spots generalizing place with
  | nil => rfl
  | cons s spots ih =>
    obtain ⟨hs, hspots⟩ := List.forall_mem_cons.mp h
    rw [splice, splice, hs, ih hspots]

namespace Rule

theorem replaceAll_eq_splice (r : Rule) (t : Text) :
    r.replaceAll t = splice (r.replacement.atSpot t) t 0 (r.pattern.spots t) :=
  (r.pattern.goesOver_steps t).written r.replacement

/-- With nothing put around what is kept, a rule that keeps all changes nothing. -/
theorem replaceAll_of_keepsAll {r : Rule} (hp : r.pattern.KeepsAll)
    (hr : r.replacement = .wrap [] []) (t : Text) : r.replaceAll t = t := by
  have hover := r.pattern.goesOver_steps t
  have hkept : ∀ s ∈ r.pattern.spots t, r.replacement.atSpot t s = s.whole.slice t := by
    intro s hs
    have hall : (s.hit t).kept = (s.hit t).whole := hp _ _ _ (hover.found s hs)
    rw [hr, ← (hover.inOrder.inside s hs).whole_hit, ← hall]
    simp [Replacement.atSpot, Spot.hit]
  rw [replaceAll_eq_splice, splice_congr hkept]
  exact splice_whole hover.inOrder

/-- A turn of a rule cuts its hits out of the text, one behind the other, each inside the text with
the kept part inside the whole, and puts the replacement of each in its place. What it passes over
holds no further hit, an empty one aside that stands right at the end of a hit. With nothing put
around the kept part, literal patterns and the search for operators give the text back. -/
theorem a_turn_replaces_its_hits_in_place (t : Text) :
    (∀ (r : Rule) (u : Text), r.apply t = .ok u →
      let spots := r.pattern.spots t
      r.pattern.hits t = spots.map (·.hit t) ∧
      (∀ s ∈ spots, s.Inside t) ∧ spots.Pairwise Spot.Before ∧
      (∀ s ∈ spots, r.pattern.hitAt? t s.whole.start = some (s.hit t)) ∧
      splice (fun s => s.whole.slice t) t 0 spots = t ∧
      splice (r.replacement.atSpot t) t 0 spots = u ∧
      ∀ place ≤ t.length, (∀ s ∈ spots, ¬ s.whole.Holds place) →
        ∀ h, r.pattern.hitAt? t place = some h →
          h.whole = [] ∧ ∃ s ∈ spots, s.whole.stop = place) ∧
    ∀ r : Rule, r.replacement = .wrap [] [] →
      (∀ alternatives, r.pattern = .literals alternatives → r.apply t = .ok t) ∧
      (r.pattern = .operator → ∀ u, r.apply t = .ok u → u = t) := by
  constructor
  · intro r u hu
    have hover := r.pattern.goesOver_steps t
    refine ⟨hover.hits, hover.inOrder.inside, hover.inOrder.ordered, hover.found,
      splice_whole hover.inOrder, ?_, ?_⟩
    · rw [eq_replaceAll_of_apply hu, replaceAll_eq_splice]
    · intro place hle hfree h hh
      obtain ⟨hempty, ⟨hfalse, -⟩ | hends⟩ :=
        hover.passed place (Nat.zero_le place) hle hfree h hh
      · cases hfalse
      · exact ⟨hempty, hends⟩
  · intro r hr
    constructor
    · intro alternatives hp
      have hkeeps : r.pattern.KeepsAll := hp ▸ Pattern.keepsAll_literals alternatives
      rw [apply_of_not_looksAround (by rw [hp]; rfl), replaceAll_of_keepsAll hkeeps hr]
    · intro hp u hu
      have hkeeps : r.pattern.KeepsAll := hp ▸ Pattern.keepsAll_operator
      rw [eq_replaceAll_of_apply hu, replaceAll_of_keepsAll hkeeps hr]

/-- A letter or nothing is marked. Nothing is found before the text and after it, but not between
the letter and the comma, where the hit before it ends. -/
theorem a_letter_or_nothing_is_marked_in_place :
    let r : Rule :=
      { name := "custom", pattern := .literals [['b'], []], replacement := .wrap ['['] [']'] }
    let bare : Rule := { r with replacement := .wrap [] [] }
    let t := "abb,".toList
    r.apply t = .ok "[]a[b][b],[]".toList ∧
      splice (r.replacement.atSpot t) t 0 (r.pattern.spots t) = "[]a[b][b],[]".toList ∧
      r.pattern.hitAt? t 3 = some (Hit.all []) ∧
      (∃ s ∈ r.pattern.spots t, s.whole.stop = 3) ∧
      bare.apply t = .ok t := by
  intro r bare t
  have happly : r.apply t = .ok "[]a[b][b],[]".toList := by decide
  have hthere : r.pattern.hitAt? t 3 = some (Hit.all []) := by decide
  obtain ⟨hturn, hbare⟩ := a_turn_replaces_its_hits_in_place t
  obtain ⟨-, -, -, -, -, hsplice, hpassed⟩ := hturn r _ happly
  have hfree : ∀ s ∈ r.pattern.spots t, ¬ (s.whole.start ≤ 3 ∧ 3 < s.whole.stop) := by decide
  obtain ⟨-, hends⟩ := hpassed 3 (by decide) hfree _ hthere
  exact ⟨happly, hsplice, hthere, hends, (hbare bare rfl).1 _ rfl⟩

end Rule

end Spacing
