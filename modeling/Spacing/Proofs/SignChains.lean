-- Chains of equal signs, where blanks alone part each sign from the next one. The repair joins
-- the signs of a chain in pairs: it closes every other run of blanks and changes nothing else. A
-- chain of three signs or more still holds a torn sign afterwards.
import Mathlib.Data.List.Induction
import Spacing.Proofs.Borders
import Spacing.Proofs.CalmTexts

namespace Spacing

open Rule

/-! ## Chains -/

/-- Equal signs with these numbers of blanks between them. There is one sign more than there are
numbers. -/
def signsApart (widths : List Nat) : Text := '=' :: widths.flatMap fun n => blanks n ++ ['=']

theorem signsApart_cons (n : Nat) (widths : List Nat) :
    signsApart (n :: widths) = '=' :: (blanks n ++ signsApart widths) := by
  simp [signsApart]

theorem signsApart_concat (widths : List Nat) (n : Nat) :
    signsApart (widths ++ [n]) = signsApart widths ++ (blanks n ++ ['=']) := by
  simp [signsApart]

/-- A place for a chain in a text: the text before it, the runs of blanks between its signs, and
the text after it. -/
structure SignChain where
  front : Text
  widths : List Nat
  back : Text
deriving Repr, DecidableEq

namespace SignChain

/-- The number of equal signs. -/
def signs (c : SignChain) : Nat := c.widths.length + 1

/-- The chain stands in the text: it has two signs or more, one or more blanks part each from the
next, and it is as long as it can be, because no sign before it or after it is parted from it by
blanks alone. -/
structure StandsIn (c : SignChain) (t : Text) : Prop where
  text : t = c.front ++ signsApart c.widths ++ c.back
  two : 2 ≤ c.signs
  parted : ∀ n ∈ c.widths, n ≠ 0
  first : ∀ w n, c.front ≠ w ++ '=' :: blanks (n + 1)
  last : ∀ n w, c.back ≠ blanks (n + 1) ++ '=' :: w

end SignChain

theorem tornAhead_eq_false_iff {t : Text} :
    tornAhead t = false ↔ ∀ n w, t ≠ blanks (n + 1) ++ '=' :: w := by
  rw [← Bool.not_eq_true, tornAhead_iff]
  simp only [not_exists]

/-- A chain goes on to its last sign. -/
theorem exists_chain_end (widths : List Nat) (back : Text) :
    ∃ more rest, signsApart widths ++ back = signsApart (widths ++ more) ++ rest ∧
      (∀ n ∈ more, n ≠ 0) ∧ tornAhead rest = false := by
  induction hn : back.length using Nat.strongRecOn generalizing widths back with
  | _ n ih =>
    subst hn
    cases htorn : tornAhead back with
    | false => exact ⟨[], back, by simp, by simp, htorn⟩
    | true =>
      obtain ⟨n, w, rfl⟩ := tornAhead_iff.mp htorn
      have hlt : w.length < (blanks (n + 1) ++ '=' :: w).length := by
        simp only [List.length_append, List.length_cons]
        omega
      obtain ⟨more, rest, heq, hparted, hrest⟩ := ih w.length hlt (widths ++ [n + 1]) w rfl
      refine ⟨(n + 1) :: more, rest, ?_, by simpa using hparted, hrest⟩
      rw [signsApart_concat] at heq
      simpa using heq

theorem exists_chain_start (front : Text) (widths : List Nat) :
    ∃ rest more, front ++ signsApart widths = rest ++ signsApart (more ++ widths) ∧
      (∀ n ∈ more, n ≠ 0) ∧ ∀ w n, rest ≠ w ++ '=' :: blanks (n + 1) := by
  induction hn : front.length using Nat.strongRecOn generalizing front widths with
  | _ n ih =>
    subst hn
    by_cases htorn : ∃ w n, front = w ++ '=' :: blanks (n + 1)
    · obtain ⟨w, n, rfl⟩ := htorn
      have hlt : w.length < (w ++ '=' :: blanks (n + 1)).length := by
        rw [List.length_append, List.length_cons]
        omega
      obtain ⟨rest, more, heq, hparted, hrest⟩ := ih w.length hlt w ((n + 1) :: widths) rfl
      refine ⟨rest, more ++ [n + 1], ?_, ?_, hrest⟩
      · rw [signsApart_cons] at heq
        simpa using heq
      · intro m hm
        rcases List.mem_append.mp hm with hm | hm
        · exact hparted m hm
        · rw [List.mem_singleton.mp hm]
          exact Nat.succ_ne_zero n
    · exact ⟨front, [], by simp, by simp, fun w n h => htorn ⟨w, n, h⟩⟩

/-- Signs that blanks part stand in a chain of at least as many signs. -/
theorem exists_chain {t : Text} {widths : List Nat} (hne : widths ≠ [])
    (hparted : ∀ n ∈ widths, n ≠ 0) (h : signsApart widths <:+: t) :
    ∃ c : SignChain, c.StandsIn t ∧ widths.length < c.signs := by
  obtain ⟨front, back, rfl⟩ := h
  obtain ⟨front', before, hfront, hbefore, hfirst⟩ := exists_chain_start front widths
  obtain ⟨after, back', hback, hafter, hlast⟩ := exists_chain_end (before ++ widths) back
  have hpos := List.length_pos_iff.mpr hne
  refine ⟨⟨front', before ++ widths ++ after, back'⟩, ⟨?_, ?_, ?_, hfirst, ?_⟩, ?_⟩
  · rw [hfront, List.append_assoc, hback]
    simp
  · simp only [SignChain.signs, List.length_append]
    omega
  · simp only [List.mem_append]
    rintro n ((hn | hn) | hn)
    · exact hbefore n hn
    · exact hparted n hn
    · exact hafter n hn
  · exact tornAhead_eq_false_iff.mp hlast
  · simp only [SignChain.signs, List.length_append]
    omega

/-! ## The repair of a chain -/

/-- The first run of blanks closed, the third, the fifth and so on, and those between them kept. -/
def closeEveryOther (widths : List Nat) : List Nat :=
  widths.mapIdx fun i n => if i % 2 = 0 then 0 else n

theorem closeEveryOther_cons_cons (n m : Nat) (widths : List Nat) :
    closeEveryOther (n :: m :: widths) = 0 :: m :: closeEveryOther widths := by
  simp [closeEveryOther, Nat.add_assoc]

namespace Rule

/-- The repair goes on separately at a sign that no blanks part from one before it. -/
theorem repair_append_sign {front : Text} (h : ∀ w n, front ≠ w ++ '=' :: blanks (n + 1))
    (t : Text) :
    doubleEqualsRepair.replaceAll (front ++ '=' :: t) =
      doubleEqualsRepair.replaceAll front ++ doubleEqualsRepair.replaceAll ('=' :: t) := by
  refine repair_append_whole ?_
  rintro w n m rest rfl hhead
  cases m with
  | succ m => exact absurd (List.cons.inj hhead).1 (by decide)
  | zero =>
    cases n with
    | zero => rfl
    | succ n => exact absurd rfl (h w n)

/-- The signs of a chain are joined in pairs, from the first one on. -/
theorem repair_signsApart {widths : List Nat} (hparted : ∀ n ∈ widths, n ≠ 0) {back : Text}
    (hback : tornAhead back = false) :
    doubleEqualsRepair.replaceAll (signsApart widths ++ back) =
      signsApart (closeEveryOther widths) ++ doubleEqualsRepair.replaceAll back := by
  induction widths using List.twoStepInduction with
  | nil => exact repair_whole hback
  | singleton n =>
    obtain ⟨k, rfl⟩ := Nat.exists_eq_succ_of_ne_zero (hparted n (by simp))
    rw [signsApart_cons]
    simpa [signsApart, closeEveryOther] using repair_torn k back
  | cons_cons n m widths ih _ =>
    obtain ⟨k, rfl⟩ := Nat.exists_eq_succ_of_ne_zero (hparted n (by simp))
    have hrest : ∀ n ∈ widths, n ≠ 0 := fun n hn =>
      hparted n (List.mem_cons_of_mem _ (List.mem_cons_of_mem m hn))
    have htext : signsApart ((k + 1) :: m :: widths) ++ back =
        '=' :: (blanks (k + 1) ++ '=' :: (blanks m ++ (signsApart widths ++ back))) := by
      simp [signsApart_cons]
    rw [htext, repair_torn, repair_blanks, ih hrest, closeEveryOther_cons_cons]
    simp [signsApart_cons]

theorem repair_chain {c : SignChain} {t : Text} (h : c.StandsIn t) :
    doubleEqualsRepair.replaceAll t =
      doubleEqualsRepair.replaceAll c.front ++ signsApart (closeEveryOther c.widths) ++
        doubleEqualsRepair.replaceAll c.back := by
  have hlast := tornAhead_eq_false_iff.mpr h.last
  have hsigns : signsApart c.widths ++ c.back =
      '=' :: ((c.widths.flatMap fun n => blanks n ++ ['=']) ++ c.back) := rfl
  rw [h.text, List.append_assoc, hsigns, repair_append_sign h.first, ← hsigns,
    repair_signsApart h.parted hlast, List.append_assoc]

/-- A sign that is still torn was the third of its chain, or a later one. -/
theorem three_signs_of_torn_repair {n : Nat} {t : Text}
    (h : ('=' :: (blanks (n + 1) ++ ['='])) <:+: doubleEqualsRepair.replaceAll t) :
    ∃ a b, signsApart [a + 1, b + 1] <:+: t := by
  have htorn : ∀ u, blanks (n + 1) ++ ['='] <+: doubleEqualsRepair.replaceAll u →
      tornAhead u = true := by
    rintro u ⟨rest, hrest⟩
    rw [← tornAhead_repair, ← hrest]
    exact tornAhead_iff.mpr ⟨n, rest, by simp⟩
  have hlater : ∀ w u : Text, (∃ a b, signsApart [a + 1, b + 1] <:+: u) →
      ∃ a b, signsApart [a + 1, b + 1] <:+: w ++ u := by
    rintro w u ⟨a, b, hab⟩
    exact ⟨a, b, List.infix_append_of_infix_right hab⟩
  induction t using repair_induction with
  | nil =>
    rw [repair_nil, List.infix_nil] at h
    cases h
  | other c t hc ih =>
    rw [repair_other hc, List.infix_cons_iff, List.cons_prefix_cons] at h
    rcases h with ⟨heq, -⟩ | h
    · exact absurd heq.symm hc
    · exact hlater [c] t (ih h)
  | whole t ht ih =>
    rw [repair_whole ht, List.infix_cons_iff, List.cons_prefix_cons] at h
    rcases h with ⟨-, hpre⟩ | h
    · rw [htorn t hpre] at ht
      cases ht
    · exact hlater ['='] t (ih h)
  | torn m t ih =>
    have hne : ¬ blanks (n + 1) ++ ['='] <+: '=' :: doubleEqualsRepair.replaceAll t := by
      rw [blanks_succ_append, List.cons_prefix_cons]
      exact fun h => absurd h.1 (by decide)
    rw [repair_torn, List.infix_cons_iff, List.infix_cons_iff, List.cons_prefix_cons,
      List.cons_prefix_cons] at h
    rcases h with ⟨-, hpre⟩ | ⟨-, hpre⟩ | h
    · exact absurd hpre hne
    · obtain ⟨k, rest, rfl⟩ := tornAhead_iff.mp (htorn t hpre)
      exact ⟨m, k, [], rest, by simp [signsApart]⟩
    · have := hlater ('=' :: (blanks (m + 1) ++ ['='])) t (ih h)
      simpa using this

/-- The repair joins every other pair of a chain: it closes the first, third and fifth run of blanks
and so on, keeps the runs between them, and goes on separately before and after the chain. No other
gap changes. What it leaves holds a torn sign exactly if the text had a chain of three signs or
more. -/
theorem the_repair_joins_every_other_pair_of_a_chain (t : Text) :
    ∃ u, doubleEqualsRepair.apply t = .ok u ∧
      (∀ c : SignChain, c.StandsIn t → ∃ front back,
        doubleEqualsRepair.apply c.front = .ok front ∧
        doubleEqualsRepair.apply c.back = .ok back ∧
        marks front = marks c.front ∧ marks back = marks c.back ∧
        u = front ++ signsApart (closeEveryOther c.widths) ++ back) ∧
      Regapped Gap.JoinedTo t u ∧
      ((∃ n, ('=' :: (blanks (n + 1) ++ ['='])) <:+: u) ↔
        ∃ c : SignChain, c.StandsIn t ∧ 3 ≤ c.signs) := by
  have happly : ∀ t, doubleEqualsRepair.apply t = .ok (doubleEqualsRepair.replaceAll t) :=
    apply_of_not_looksAround rfl
  refine ⟨_, happly t, fun c hc => ?_, regapped_repair t, ?_, ?_⟩
  · exact ⟨_, _, happly c.front, happly c.back, marks_repair c.front, marks_repair c.back,
      repair_chain hc⟩
  · rintro ⟨n, hn⟩
    obtain ⟨a, b, hab⟩ := three_signs_of_torn_repair hn
    exact exists_chain (by simp) (by simp) hab
  · rintro ⟨⟨front, widths, back⟩, hc, hsigns⟩
    obtain ⟨n, m, widths, rfl⟩ : ∃ n m rest, widths = n :: m :: rest := by
      match widths, hsigns with
      | n :: m :: rest, _ => exact ⟨n, m, rest, rfl⟩
    obtain ⟨k, rfl⟩ := Nat.exists_eq_succ_of_ne_zero (hc.parted m (by simp))
    refine ⟨k, ?_⟩
    rw [repair_chain hc, closeEveryOther_cons_cons]
    refine ⟨doubleEqualsRepair.replaceAll front ++ ['='],
      (closeEveryOther widths).flatMap (fun n => blanks n ++ ['=']) ++
        doubleEqualsRepair.replaceAll back, ?_⟩
    simp [signsApart]

/-- A chain of three signs that another chain follows at once. Its second run of blanks stays. -/
theorem a_chain_before_another_one_keeps_its_second_run :
    let c : SignChain := { front := "x".toList, widths := [1, 2], back := "= =".toList }
    (c.StandsIn "x= =  == =".toList ∧ c.signs = 3) ∧
      doubleEqualsRepair.apply "x= =  == =".toList = .ok "x==  ===".toList ∧
      (∃ front back,
        doubleEqualsRepair.apply c.front = .ok front ∧
        doubleEqualsRepair.apply c.back = .ok back ∧
        marks front = marks c.front ∧ marks back = marks c.back ∧
        "x==  ===".toList = front ++ signsApart (closeEveryOther c.widths) ++ back) ∧
      Regapped Gap.JoinedTo "x= =  == =".toList "x==  ===".toList ∧
      ∃ n, ('=' :: (blanks (n + 1) ++ ['='])) <:+: "x==  ===".toList := by
  intro c
  have hfirst : ∀ w n, c.front ≠ w ++ '=' :: blanks (n + 1) := by
    intro w n h
    have hsign : '=' ∈ c.front := by simp [h]
    exact absurd hsign (by decide)
  have hc : c.StandsIn "x= =  == =".toList :=
    ⟨rfl, by decide, by decide, hfirst, tornAhead_eq_false_iff.mp rfl⟩
  have hrun : doubleEqualsRepair.apply "x= =  == =".toList = .ok "x==  ===".toList := by decide
  obtain ⟨u, happly, hchains, hgaps, htorn⟩ :=
    the_repair_joins_every_other_pair_of_a_chain "x= =  == =".toList
  obtain rfl : "x==  ===".toList = u := Except.ok.inj (hrun.symm.trans happly)
  exact ⟨⟨hc, rfl⟩, hrun, hchains c hc, hgaps, htorn.mpr ⟨c, hc, by decide⟩⟩

end Rule

end Spacing
