-- Runs that only show or compare. A flag that asks for one is a flag wherever it stands before
-- two dashes alone: it is neither taken for the path nor ignored behind it, so such a run writes
-- nothing, whatever the other arguments are.
import Spacing.Proofs.CommandLine
import Spacing.Proofs.FileFrame

namespace Spacing

/-! ## Flags among the words -/

namespace Spelling

theorem flag_eq_of_bytes_eq {s : Spelling} {f : Flag} (h : s.bytes = (long f).bytes) :
    s.flag = f := by
  have hall : ∀ f g : Flag, (long f).bytes = (long g).bytes → f = g := by
    rintro f g
    cases f <;> cases g <;> decide +kernel
  have hshort : ∀ f : Flag, shortVerbose.bytes ≠ (long f).bytes := by
    rintro f
    cases f <;> decide +kernel
  cases s with
  | long g => exact hall g f h
  | shortVerbose => exact absurd h (hshort f)

theorem bytes_ne_doubleDash (s : Spelling) : s.bytes ≠ doubleDash := by
  obtain (_ | _ | _) | _ := s
  all_goals decide +kernel

end Spelling

theorem not_isPlain_doubleDash : ¬ IsPlain doubleDash := by
  rintro (h | h | h)
  · cases h
  · cases h
  · exact h rfl

theorem not_leadsPath_doubleDash : ¬ LeadsPath doubleDash := by
  rintro (⟨rest, h, ⟨hne, -⟩, -⟩ | ⟨letter, rest, h, hletter, -⟩)
  · cases h
    exact hne rfl
  · cases h
    exact hletter rfl

/-- A flag that is spelled out is no operand. -/
theorem not_isPlain_long (f : Flag) : ¬ IsPlain (Spelling.long f).bytes := by
  rintro (h | h | h)
  · cases h
  · cases h
  · exact h rfl

/-- A flag that is spelled out is not taken for the path. -/
theorem not_leadsPath_long (f : Flag) : ¬ LeadsPath (Spelling.long f).bytes := by
  rintro (⟨rest, h, ⟨-, hno⟩, -⟩ | ⟨letter, rest, h, hletter, -⟩)
  · cases h
    exact hno (.flag f) (Flag.name_spelled f).2.1
  · cases h
    exact hletter rfl

namespace Words

theorem canBePath_of_mem_path {Leads : Bytes → Prop} {w : Words Leads} {word : Bytes}
    (h : word ∈ w.path) : IsPlain word ∨ Leads word := by
  rw [path, Option.mem_toList, Option.map_eq_some_iff] at h
  obtain ⟨p, -, rfl⟩ := h
  exact p.1.property

/-- What stands before two dashes alone. -/
theorem takeWhile_bytes (w : Words LeadsPath) :
    w.bytes.takeWhile (· != doubleDash) =
      w.front.map Spelling.bytes ++ w.path ++ w.behindPath.map Word.bytes := by
  have hbefore : ∀ b ∈ w.front.map Spelling.bytes ++ w.path ++ w.behindPath.map Word.bytes,
      (b != doubleDash) = true := by
    intro b hb
    rw [bne_iff_ne]
    simp only [List.mem_append, List.mem_map] at hb
    obtain (⟨s, -, rfl⟩ | hpath) | ⟨word, -, rfl⟩ := hb
    · exact s.bytes_ne_doubleDash
    · rintro rfl
      obtain hplain | hleads := canBePath_of_mem_path hpath
      · exact not_isPlain_doubleDash hplain
      · exact not_leadsPath_doubleDash hleads
    · cases word with
      | flag s => exact s.bytes_ne_doubleDash
      | operand word plain =>
        rintro rfl
        exact not_isPlain_doubleDash plain
  rw [Words.bytes, List.takeWhile_append_of_pos hbefore]
  cases w.tail? with
  | none => simp
  | some tail => simp

/-- A flag that is spelled out before two dashes alone is given. -/
theorem mem_flags_of_mem_bytes {w : Words LeadsPath} {f : Flag}
    (h : (Spelling.long f).bytes ∈ w.bytes.takeWhile (· != doubleDash)) : f ∈ w.flags := by
  rw [takeWhile_bytes] at h
  simp only [List.mem_append, List.mem_map] at h
  rw [Words.flags, List.mem_append]
  obtain (⟨s, hs, hbytes⟩ | hpath) | ⟨word, hword, hbytes⟩ := h
  · exact Or.inl (List.mem_map.mpr ⟨s, hs, Spelling.flag_eq_of_bytes_eq hbytes⟩)
  · obtain hplain | hleads := canBePath_of_mem_path hpath
    · exact absurd hplain (not_isPlain_long f)
    · exact absurd hleads (not_leadsPath_long f)
  · cases word with
    | flag s =>
      refine Or.inr (List.mem_filterMap.mpr ⟨.flag s, hword, ?_⟩)
      exact congrArg some (Spelling.flag_eq_of_bytes_eq hbytes)
    | operand word plain =>
      obtain rfl : word = (Spelling.long f).bytes := hbytes
      exact absurd plain (not_isPlain_long f)

end Words

/-! ## The law -/

namespace Program

theorem writeMode_eq_inPlace_iff {a : Arguments} :
    writeMode a = .inPlace ↔ .check ∉ a.flags ∧ .stdout ∉ a.flags := by
  unfold writeMode Arguments.has
  by_cases hcheck : .check ∈ a.flags
  · simp [hcheck]
  · by_cases hstdout : .stdout ∈ a.flags
    · simp [hcheck, hstdout]
    · simp [hcheck, hstdout]

/-- An accepted command line that spells one of the two flags out before two dashes alone does not
ask for a write. -/
theorem writeMode_ne_inPlace {arguments : List Bytes} {a : Arguments} {f : Flag}
    (h : Arguments.parse arguments = .ok a) (hf : f = .check ∨ f = .stdout)
    (hmem : (Spelling.long f).bytes ∈ arguments.takeWhile (· != doubleDash)) :
    writeMode a ≠ .inPlace := by
  obtain ⟨hread, -⟩ := Arguments.parse_eq_ok_iff.mp h
  obtain ⟨w, rfl, rfl⟩ := Arguments.exists_bytes_of_read hread
  have hgiven : f ∈ w.flags := Words.mem_flags_of_mem_bytes hmem
  rw [ne_eq, writeMode_eq_inPlace_iff]
  rintro ⟨hcheck, hstdout⟩
  obtain rfl | rfl := hf
  · exact hcheck hgiven
  · exact hstdout hgiven

/-- A plan that is not in place stores nothing, whatever the file holds. -/
theorem finish_of_ne_inPlace {mode : WriteMode} (h : mode ≠ .inPlace) (path : Bytes)
    (content : Except Fault ByteArray) :
    ∃ call, Document.plan path mode content = .finish call := by
  cases hplan : Document.plan path mode content with
  | finish call => exact ⟨call, rfl⟩
  | store events changed v => exact absurd (Document.plan_eq_store hplan).1 h

/-- A run that is not in place opens no file to write it. -/
theorem unopened_of_ne_inPlace {arguments : List Bytes} {setting : Text}
    (h : ∀ j, job arguments setting = .ok j → j.mode ≠ .inPlace) (T : Tree) :
    (run T arguments setting).opened? = none ∧ (run T arguments setting).written? = none ∧
      (run T arguments setting).tree = T := by
  cases hjob : job arguments setting with
  | error a =>
    rw [run_of_answer hjob]
    exact ⟨rfl, rfl, rfl⟩
  | ok j =>
    obtain ⟨call, hplan⟩ := finish_of_ne_inPlace (h j hjob) j.path (T.read j.path)
    rw [run_of_job hjob, Tree.formatFile, hplan]
    exact ⟨rfl, rfl, rfl⟩

/-- If `--check` or `--stdout` stands before two dashes alone, nothing is written: not to the file
of the path, nor to any other one, nor the same bytes again. No file is even opened for it. -/
theorem a_preview_flag_before_two_dashes_prevents_every_write (T : Tree) (arguments : List Bytes)
    (setting : Text)
    (h : Bytes.ofString "--check" ∈ arguments.takeWhile (· != doubleDash) ∨
      Bytes.ofString "--stdout" ∈ arguments.takeWhile (· != doubleDash)) :
    (run T arguments setting).opened? = none ∧ (run T arguments setting).written? = none ∧
      (run T arguments setting).tree = T ∧
      ∀ j, job arguments setting = .ok j → ∀ content,
        ∃ call, Document.plan j.path j.mode content = .finish call := by
  have hflag : ∃ f : Flag, (f = .check ∨ f = .stdout) ∧
      (Spelling.long f).bytes ∈ arguments.takeWhile (· != doubleDash) := by
    obtain hcheck | hstdout := h
    · have hbytes : Bytes.ofString "--check" = (Spelling.long .check).bytes := by decide +kernel
      exact ⟨.check, Or.inl rfl, hbytes ▸ hcheck⟩
    · have hbytes : Bytes.ofString "--stdout" = (Spelling.long .stdout).bytes := by decide +kernel
      exact ⟨.stdout, Or.inr rfl, hbytes ▸ hstdout⟩
  obtain ⟨f, hf, hmem⟩ := hflag
  have hmode : ∀ j, job arguments setting = .ok j → j.mode ≠ .inPlace := by
    intro j hj
    obtain ⟨a, hfrom⟩ := comesFrom_of_job hj
    rw [hfrom.mode]
    exact writeMode_ne_inPlace hfrom.parse hf hmem
  obtain ⟨hopened, hwritten, htree⟩ := unopened_of_ne_inPlace hmode T
  exact ⟨hopened, hwritten, htree, fun j hj => finish_of_ne_inPlace (hmode j hj) j.path⟩

/-- The flag stands behind the path and a word that is ignored, and nothing is written. -/
theorem a_flag_behind_the_path_prevents_the_write :
    let arguments := [[0x66], [0x67], Bytes.ofString "--stdout"]
    let T := oneFile "a=b".toList
    Bytes.ofString "--stdout" ∈ arguments.takeWhile (· != doubleDash) ∧
      (run T arguments []).written? = none ∧ (run T arguments []).tree = T := by
  intro arguments T
  have hmem : Bytes.ofString "--stdout" ∈ arguments.takeWhile (· != doubleDash) := by
    decide +kernel
  obtain ⟨-, hwritten, htree, -⟩ :=
    a_preview_flag_before_two_dashes_prevents_every_write T arguments [] (Or.inr hmem)
  exact ⟨hmem, hwritten, htree⟩

end Program

end Spacing
