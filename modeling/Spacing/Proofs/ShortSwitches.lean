-- The letters behind one dash, told from their bytes. A byte below 80 is a character of its
-- own, and no byte from 80 on starts the letter of a switch, so a cluster that is read as flags
-- is the letter v alone.
import Spacing.Arguments

namespace Spacing

/-! ## Longer characters -/

/-- The open character will not be one of the first 128, whatever bytes it is still owed. -/
def OpenChar.Wide (o : OpenChar) : Prop :=
  (o.owed = 1 ∧ 2 ≤ o.code) ∨ (o.owed = 2 ∧ (1 ≤ o.code ∨ 0xA0 ≤ o.low)) ∨
    (o.owed = 3 ∧ (1 ≤ o.code ∨ 0x90 ≤ o.low))

namespace OpenChar

theorem le_toNat_sub {mark low b : UInt8} (hmark : mark ≤ low) (hlow : low ≤ b) :
    (low - mark).toNat ≤ (b - mark).toNat := by
  rw [UInt8.le_iff_toNat_le] at hmark hlow
  rw [UInt8.toNat_sub_of_le _ _ (by rwa [UInt8.le_iff_toNat_le]),
    UInt8.toNat_sub_of_le _ _ (by rw [UInt8.le_iff_toNat_le]; omega)]
  omega

theorem wide_of_start {b : UInt8} {o : OpenChar} (h : start? b = some o) : o.Wide := by
  simp only [start?, Bool.and_eq_true, decide_eq_true_eq, beq_iff_eq] at h
  unfold Wide
  split at h
  · rename_i hb
    cases h
    have hcode : (0xC2 - 0xC0 : UInt8).toNat ≤ (b - 0xC0).toNat := le_toNat_sub (by decide) hb.1
    exact Or.inl ⟨rfl, hcode⟩
  split at h
  · cases h
    exact Or.inr (Or.inl ⟨rfl, Or.inr (UInt8.le_refl _)⟩)
  split at h
  · rename_i hb
    cases h
    subst hb
    exact Or.inr (Or.inl ⟨rfl, Or.inl (by decide)⟩)
  split at h
  · rename_i hb
    cases h
    have hcode : (0xE1 - 0xE0 : UInt8).toNat ≤ (b - 0xE0).toNat := le_toNat_sub (by decide) hb.1
    exact Or.inr (Or.inl ⟨rfl, Or.inl hcode⟩)
  split at h
  · cases h
    exact Or.inr (Or.inr ⟨rfl, Or.inr (UInt8.le_refl _)⟩)
  split at h
  · rename_i hb
    cases h
    have hcode : (0xF1 - 0xF0 : UInt8).toNat ≤ (b - 0xF0).toNat := le_toNat_sub (by decide) hb.1
    exact Or.inr (Or.inr ⟨rfl, Or.inl hcode⟩)
  split at h
  · rename_i hb
    cases h
    subst hb
    exact Or.inr (Or.inr ⟨rfl, Or.inl (by decide)⟩)
  · cases h

/-- The last byte makes a character from 80 on, and any byte before it leaves one open. -/
theorem wide_push {o : OpenChar} {b : UInt8} (h : o.Wide) (hb : o.accepts b = true) :
    ((o.push b).owed = 0 ∧ 0x80 ≤ (o.push b).code) ∨ ((o.push b).owed ≠ 0 ∧ (o.push b).Wide) := by
  simp only [accepts, Bool.and_eq_true, decide_eq_true_eq] at hb
  simp only [Wide, push]
  obtain ⟨howed, hcode⟩ | ⟨howed, hcode | hlow⟩ | ⟨howed, hcode | hlow⟩ := h
  · exact Or.inl (by omega)
  · exact Or.inr ⟨by omega, Or.inl (by omega)⟩
  · have hlast : (0xA0 - 0x80 : UInt8).toNat ≤ (b - 0x80).toNat :=
      le_toNat_sub (by decide) (UInt8.le_trans hlow hb.1)
    rw [show (0xA0 - 0x80 : UInt8).toNat = 32 from rfl] at hlast
    exact Or.inr ⟨by omega, Or.inl (by omega)⟩
  · exact Or.inr ⟨by omega, Or.inr (Or.inl ⟨by omega, Or.inl (by omega)⟩)⟩
  · have hlast : (0x90 - 0x80 : UInt8).toNat ≤ (b - 0x80).toNat :=
      le_toNat_sub (by decide) (UInt8.le_trans hlow hb.1)
    rw [show (0x90 - 0x80 : UInt8).toNat = 16 from rfl] at hlast
    exact Or.inr ⟨by omega, Or.inr (Or.inl ⟨by omega, Or.inl (by omega)⟩)⟩

end OpenChar

/-! ## Letters of switches -/

/-- The bytes of the letters that switches have. -/
def Switch.letters : List UInt8 := [0x76, 0x68, 0x56]

theorem Switch.ofLetter?_ofNat {n : Nat} (h : 0x80 ≤ n) : ofLetter? (Char.ofNat n) = none := by
  by_cases hvalid : n.isValidChar
  · have hnat : (Char.ofNat n).toNat = n := by
      rw [Char.ofNat, dif_pos hvalid]
      rfl
    have hne : ∀ c : Char, c.toNat < 0x80 → Char.ofNat n ≠ c := by
      rintro _ hlt rfl
      omega
    unfold ofLetter?
    split
    · exact absurd ‹_› (hne 'v' (by decide))
    · exact absurd ‹_› (hne 'h' (by decide))
    · exact absurd ‹_› (hne 'V' (by decide))
    · rfl
  · rw [Char.ofNat, dif_neg hvalid]
    rfl

namespace Arguments

/-- An open character ends as a stray or as a character that is no letter of a switch. -/
theorem exists_piecesFrom_open (bytes : Bytes) {o : OpenChar} (h : o.Wide) :
    ∃ p ps, piecesFrom (some o) bytes = p :: ps ∧ isSwitchLetter p = false := by
  induction bytes generalizing o with
  | nil => exact ⟨_, _, rfl, rfl⟩
  | cons b rest ih =>
    by_cases hb : o.accepts b = true
    · obtain ⟨howed, hcode⟩ | ⟨howed, hwide⟩ := OpenChar.wide_push h hb
      · refine ⟨.char (Char.ofNat (o.push b).code), piecesFrom none rest, ?_, ?_⟩
        · simp [piecesFrom, nextByte, hb, howed]
        · simp [isSwitchLetter, Switch.ofLetter?_ofNat hcode]
      · have hnext : piecesFrom (some o) (b :: rest) = piecesFrom (some (o.push b)) rest := by
          simp [piecesFrom, nextByte, hb, howed]
        rw [hnext]
        exact ih hwide
    · exact ⟨.stray o.bytes, _, by simp only [piecesFrom, nextByte, hb]; rfl, rfl⟩

theorem pieces_cons {b : UInt8} (h : b < 0x80) (rest : Bytes) :
    Bytes.pieces (b :: rest) = .char (Char.ofNat b.toNat) :: Bytes.pieces rest := by
  simp [Bytes.pieces, piecesFrom, nextByte, firstByte, h]

theorem exists_pieces_cons {b : UInt8} (h : ¬ b < 0x80) (rest : Bytes) :
    ∃ p ps, Bytes.pieces (b :: rest) = p :: ps ∧ isSwitchLetter p = false := by
  unfold Bytes.pieces
  cases hstart : OpenChar.start? b with
  | none =>
    refine ⟨.stray [b], piecesFrom none rest, ?_, rfl⟩
    simp [piecesFrom, nextByte, firstByte, h, hstart]
  | some o =>
    have hopen : piecesFrom none (b :: rest) = piecesFrom (some o) rest := by
      simp [piecesFrom, nextByte, firstByte, h, hstart]
    rw [hopen]
    exact exists_piecesFrom_open rest (OpenChar.wide_of_start hstart)

theorem mem_letters_iff {b : UInt8} (h : b < 0x80) :
    b ∈ Switch.letters ↔ isSwitchLetter (.char (Char.ofNat b.toNat)) = true := by
  have hall : ∀ n < 0x80, UInt8.ofNat n ∈ Switch.letters ↔
      isSwitchLetter (.char (Char.ofNat n)) = true := by decide
  have := hall b.toNat (UInt8.lt_iff_toNat_lt.mp h)
  rwa [UInt8.ofNat_toNat] at this

theorem mem_letters_cases {b : UInt8} (h : b ∈ Switch.letters) :
    b = 0x76 ∨ b = 0x68 ∨ b = 0x56 := by
  simpa only [Switch.letters, List.mem_cons, List.not_mem_nil, or_false] using h

theorem lt_of_mem_letters {b : UInt8} (h : b ∈ Switch.letters) : b < 0x80 := by
  obtain rfl | rfl | rfl := mem_letters_cases h
  all_goals decide

/-- All pieces are letters of switches exactly if all bytes are. -/
theorem all_isSwitchLetter_iff (letters : Bytes) :
    letters.pieces.all isSwitchLetter = true ↔ ∀ b ∈ letters, b ∈ Switch.letters := by
  induction letters with
  | nil => simp [Bytes.pieces, piecesFrom]
  | cons b rest ih =>
    by_cases hb : b < 0x80
    · rw [pieces_cons hb, List.all_cons, Bool.and_eq_true, ih, ← mem_letters_iff hb,
        List.forall_mem_cons]
    · obtain ⟨p, ps, hp, hletter⟩ := exists_pieces_cons hb rest
      have hnot : b ∉ Switch.letters := fun hmem => hb (lt_of_mem_letters hmem)
      simp [hp, hletter, hnot]

theorem pieces_eq_nil_iff {letters : Bytes} : letters.pieces = [] ↔ letters = [] := by
  cases letters with
  | nil => simp [Bytes.pieces, piecesFrom]
  | cons b rest =>
    by_cases hb : b < 0x80
    · simp [pieces_cons hb]
    · obtain ⟨p, ps, hp, -⟩ := exists_pieces_cons hb rest
      simp [hp]

theorem pieces_eq_v_iff {letters : Bytes} : letters.pieces = [.char 'v'] ↔ letters = [0x76] := by
  constructor
  · intro h
    have hall : ∀ b ∈ letters, b ∈ Switch.letters := by
      rw [← all_isSwitchLetter_iff, h]
      rfl
    cases letters with
    | nil => simp [Bytes.pieces, piecesFrom] at h
    | cons b rest =>
      have hb := hall b List.mem_cons_self
      rw [pieces_cons (lt_of_mem_letters hb), List.cons.injEq, pieces_eq_nil_iff] at h
      obtain ⟨hchar, rfl⟩ := h
      obtain rfl | rfl | rfl := mem_letters_cases hb
      · rfl
      · exact absurd hchar (by decide)
      · exact absurd hchar (by decide)
  · rintro rfl
    rfl

end Arguments

end Spacing
