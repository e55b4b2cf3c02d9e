-- The two comma rules. Each counts the blanks after every comma anew and leaves all else as
-- it is, and together they leave one blank, or none before a newline.
import Spacing.Proofs.BlankRuns

namespace Spacing

/-! ## Blanks counted anew -/

/-- The text with the blanks after each comma counted anew. `count` gives their new number
from the old one and the character after them. `held` is the number of blanks since a comma
that are not written yet. -/
def recountFrom (count : Nat → Option Char → Nat) (held : Option Nat) : Text → Text
  | [] =>
    match held with
    | none => []
    | some n => blanks (count n none)
  | c :: t =>
    let after := if c = ',' then some 0 else none
    match held with
    | none => c :: recountFrom count after t
    | some n =>
      if c = ' ' then recountFrom count (some (n + 1)) t
      else blanks (count n (some c)) ++ c :: recountFrom count after t

/-- The text with the blanks after each comma counted anew. -/
def recount (count : Nat → Option Char → Nat) (t : Text) : Text := recountFrom count none t

variable {count : Nat → Option Char → Nat}

@[simp]
theorem recount_nil : recount count [] = [] := rfl

theorem recount_cons {c : Char} (hc : c ≠ ',') (t : Text) :
    recount count (c :: t) = c :: recount count t := by
  simp [recount, recountFrom, hc]

theorem recountFrom_held (n m : Nat) {rest : Text} (h : rest.head? ≠ some ' ') :
    recountFrom count (some m) (blanks n ++ rest) =
      blanks (count (m + n) rest.head?) ++ recount count rest := by
  induction n generalizing m with
  | zero =>
    cases rest with
    | nil => simp [recountFrom]
    | cons c rest =>
      have hc : c ≠ ' ' := by simpa using h
      simp [recount, recountFrom, hc]
  | succ n ih =>
    rw [blanks_succ_append, recountFrom, if_pos rfl, ih, Nat.add_assoc, Nat.add_comm 1 n]

theorem recount_comma (n : Nat) {rest : Text} (h : rest.head? ≠ some ' ') :
    recount count (',' :: (blanks n ++ rest)) =
      ',' :: (blanks (count n rest.head?) ++ recount count rest) := by
  change ',' :: recountFrom count (some 0) (blanks n ++ rest) = _
  rw [recountFrom_held n 0 h, Nat.zero_add]

theorem recount_blanks (n : Nat) (t : Text) :
    recount count (blanks n ++ t) = blanks n ++ recount count t := by
  induction n with
  | zero => rfl
  | succ n ih =>
    rw [blanks_succ_append, recount_cons (by decide), ih, blanks_succ_append]

theorem head?_recount (t : Text) : (recount count t).head? = t.head? := by
  cases t with
  | nil => rfl
  | cons c t => by_cases hc : c = ',' <;> simp [recount, recountFrom]

theorem recount_recount (count' : Nat → Option Char → Nat) (t : Text) :
    recount count' (recount count t) = recount (fun n c => count' (count n c) c) t := by
  induction t using mark_induction ',' with
  | nil => rfl
  | other c t hc ih => simp only [recount_cons hc, ih]
  | marked n rest h ih =>
    have h' : (recount count rest).head? ≠ some ' ' := by rwa [head?_recount]
    rw [recount_comma n h, recount_comma n h, recount_comma _ h', head?_recount, ih]

/-- A count that changes nothing of its own result leaves a recounted text as it is. -/
theorem recount_idem (h : ∀ n c, count (count n c) c = count n c) (t : Text) :
    recount count (recount count t) = recount count t := by
  rw [recount_recount]
  simp only [h]

/-! ## The counts of the rules -/

/-- The count of the rule for commas: one blank, and before a newline at most two. -/
def spacingCount (n : Nat) (next : Option Char) : Nat :=
  if next = some '\n' then min n 2 else min n 1

/-- The count of the rule for line ends: no blank before a newline. -/
def lineEndCount (n : Nat) (next : Option Char) : Nat := if next = some '\n' then 0 else n

/-- The count of both rules: one blank, and none before a newline. -/
def tidyCount (n : Nat) (next : Option Char) : Nat := if next = some '\n' then 0 else min n 1

theorem lineEndCount_spacingCount (n : Nat) (next : Option Char) :
    lineEndCount (spacingCount n next) next = tidyCount n next := by
  unfold lineEndCount spacingCount tidyCount
  split <;> rfl

theorem spacingCount_lineEndCount (n : Nat) (next : Option Char) :
    spacingCount (lineEndCount n next) next = tidyCount n next := by
  unfold lineEndCount spacingCount tidyCount
  split <;> rfl

theorem takenBlanks_le (n : Nat) (next : Option Char) : takenBlanks n next ≤ n := by
  unfold takenBlanks
  split <;> omega

/-- One blank stands for all that are taken. -/
theorem spacingCount_eq (n : Nat) (next : Option Char) :
    spacingCount n next =
      if takenBlanks n next = 0 then n else 1 + (n - takenBlanks n next) := by
  unfold spacingCount takenBlanks
  split <;> split <;> omega

theorem tidyCount_tidyCount (n : Nat) (next : Option Char) :
    tidyCount (tidyCount n next) next = tidyCount n next := by
  unfold tidyCount
  split <;> omega

/-- A tidied text is left as it is by a rule that changes no tidied count. -/
theorem recount_of_tidy (h : ∀ n next, count (tidyCount n next) next = tidyCount n next) {t : Text}
    (ht : recount tidyCount t = t) : recount count t = t := by
  rw [← ht, recount_recount]
  simp only [h]

theorem spacingCount_tidyCount (n : Nat) (next : Option Char) :
    spacingCount (tidyCount n next) next = tidyCount n next := by
  unfold spacingCount tidyCount
  split <;> omega

theorem lineEndCount_tidyCount (n : Nat) (next : Option Char) :
    lineEndCount (tidyCount n next) next = tidyCount n next := by
  unfold lineEndCount tidyCount
  split <;> rfl

theorem tidyCount_le (n : Nat) (next : Option Char) : tidyCount n next ≤ n := by
  unfold tidyCount
  split <;> omega

theorem spacingCount_le (n : Nat) (next : Option Char) : spacingCount n next ≤ n := by
  unfold spacingCount
  split <;> omega

theorem lineEndCount_le (n : Nat) (next : Option Char) : lineEndCount n next ≤ n := by
  unfold lineEndCount
  split <;> omega

namespace Rule

/-- A rule that puts another number of blanks after a comma counts them anew. -/
theorem replaceAll_eq_recount {r : Rule} (hp : r.pattern.NeverEmpty) (ha : r.pattern.Ahead)
    (hother : ∀ c t, c ≠ ',' → (r.pattern.attempt none (c :: t)).hit? = none)
    (hcomma : ∀ n rest, rest.head? ≠ some ' ' →
      r.replaceAll (',' :: (blanks n ++ rest)) =
        ',' :: (blanks (count n rest.head?) ++ r.replaceAll rest))
    (t : Text) : r.replaceAll t = recount count t := by
  induction t using mark_induction ',' with
  | nil => rw [replaceAll_nil hp, recount_nil]
  | other c t hc ih => rw [replaceAll_pass hp ha (hother c t hc), recount_cons hc, ih]
  | marked n rest h ih => rw [hcomma n rest h, recount_comma n h, ih]

theorem replaceAll_blanks {r : Rule} (hp : r.pattern.NeverEmpty) (ha : r.pattern.Ahead)
    (hblank : ∀ t, (r.pattern.attempt none (' ' :: t)).hit? = none) (n : Nat) (t : Text) :
    r.replaceAll (blanks n ++ t) = blanks n ++ r.replaceAll t := by
  induction n with
  | zero => rfl
  | succ n ih =>
    rw [blanks_succ_append, replaceAll_pass hp ha (hblank _), ih, blanks_succ_append]

theorem commaSpacing_comma (n : Nat) {rest : Text} (h : rest.head? ≠ some ' ') :
    commaSpacing.replaceAll (',' :: (blanks n ++ rest)) =
      ',' :: (blanks (spacingCount n rest.head?) ++ commaSpacing.replaceAll rest) := by
  have hp : commaSpacing.pattern.NeverEmpty := Pattern.neverEmpty_commaBlanks
  have ha : commaSpacing.pattern.Ahead := Pattern.ahead_commaBlanks
  have hblank : ∀ t, (commaSpacing.pattern.attempt none (' ' :: t)).hit? = none :=
    tryCommaBlanks_of_ne (by decide)
  have htry : (commaSpacing.pattern.attempt none (',' :: (blanks n ++ rest))).hit? = _ :=
    tryCommaBlanks_eq n h
  have hcount := spacingCount_eq n rest.head?
  have hle := takenBlanks_le n rest.head?
  cases hm : takenBlanks n rest.head? with
  | zero =>
    rw [hm] at htry hcount
    rw [replaceAll_pass hp ha htry, replaceAll_blanks hp ha hblank, hcount, if_pos rfl]
  | succ m =>
    rw [hm] at htry hcount hle
    obtain ⟨k, rfl⟩ := Nat.exists_eq_add_of_le hle
    have hsame : ',' :: (blanks (m + 1 + k) ++ rest) =
        (Hit.lastBlank ',' (m + 1) []).whole ++ (blanks k ++ rest) := by
      rw [Hit.whole_lastBlank]
      simp [List.replicate_add]
    rw [hsame] at htry ⊢
    rw [replaceAll_hit hp ha htry, replaceAll_blanks hp ha hblank, hcount,
      if_neg (Nat.succ_ne_zero m), Nat.add_sub_cancel_left, Nat.add_comm 1 k]
    rfl

theorem commaLineEnd_comma (n : Nat) {rest : Text} (h : rest.head? ≠ some ' ') :
    commaLineEnd.replaceAll (',' :: (blanks n ++ rest)) =
      ',' :: (blanks (lineEndCount n rest.head?) ++ commaLineEnd.replaceAll rest) := by
  have hp : commaLineEnd.pattern.NeverEmpty := Pattern.neverEmpty_commaLineEnd
  have ha : commaLineEnd.pattern.Ahead := Pattern.ahead_commaLineEnd
  have hother : ∀ c t, c ≠ ',' → (commaLineEnd.pattern.attempt none (c :: t)).hit? = none :=
    fun _ t hc => tryAcrossBlanks_of_ne hc t
  by_cases hpass : n = 0 ∨ rest.head? ≠ some '\n'
  · have hcount : lineEndCount n rest.head? = n := by
      unfold lineEndCount
      split
      · rename_i hnl
        rcases hpass with rfl | hne
        · rfl
        · exact absurd hnl hne
      · rfl
    rw [replaceAll_pass hp ha (tryAcrossBlanks_none ',' h hpass),
      replaceAll_blanks hp ha fun t => hother ' ' t (by decide), hcount]
  · rw [not_or, not_not] at hpass
    obtain ⟨hn, hnl⟩ := hpass
    obtain ⟨m, rfl⟩ := Nat.exists_eq_succ_of_ne_zero hn
    obtain ⟨tail, rfl⟩ : ∃ tail, rest = '\n' :: tail := ⟨rest.tail, (List.cons_head?_tail hnl).symm⟩
    have htry : (commaLineEnd.pattern.attempt none (',' :: (blanks (m + 1) ++ '\n' :: tail))).hit? =
        some (Hit.lastBlank ',' (m + 1) ['\n']) := tryAcrossBlanks_hit ',' (by decide) m tail
    have hsame : ',' :: (blanks (m + 1) ++ '\n' :: tail) =
        (Hit.lastBlank ',' (m + 1) ['\n']).whole ++ tail := by
      rw [Hit.whole_lastBlank]
      simp
    rw [hsame] at htry ⊢
    rw [replaceAll_hit hp ha htry, replaceAll_pass hp ha (hother '\n' tail (by decide))]
    rfl

theorem commaSpacing_eq_recount (t : Text) : commaSpacing.replaceAll t = recount spacingCount t :=
  replaceAll_eq_recount (r := commaSpacing) Pattern.neverEmpty_commaBlanks Pattern.ahead_commaBlanks
    (fun _ t hc => tryCommaBlanks_of_ne hc t) (fun n _ h => commaSpacing_comma n h) t

theorem commaLineEnd_eq_recount (t : Text) : commaLineEnd.replaceAll t = recount lineEndCount t :=
  replaceAll_eq_recount (r := commaLineEnd) Pattern.neverEmpty_commaLineEnd
    Pattern.ahead_commaLineEnd (fun _ t hc => tryAcrossBlanks_of_ne hc t)
    (fun n _ h => commaLineEnd_comma n h) t

/-- The comma rules together leave one blank after a comma, and none before a newline. -/
theorem commaLineEnd_commaSpacing (t : Text) :
    commaLineEnd.replaceAll (commaSpacing.replaceAll t) = recount tidyCount t := by
  rw [commaSpacing_eq_recount, commaLineEnd_eq_recount, recount_recount]
  simp only [lineEndCount_spacingCount]

end Rule

end Spacing
