-- The grammar of the command line: flags, then the path with flags and further operands behind
-- it, then anything behind two dashes alone. Reading accepts exactly the command lines that the
-- grammar writes, and reads each as it was written.
import Mathlib.Data.List.Nodup
import Spacing.Proofs.ShortSwitches

namespace Spacing

/-! ## The grammar -/

/-- A flag as it is spelled. Only one flag has a short spelling. -/
inductive Spelling
  | long (f : Flag)
  | shortVerbose

namespace Spelling

def flag : Spelling → Flag
  | long f => f
  | shortVerbose => .verbose

def bytes : Spelling → Bytes
  | long f => Form.dash :: Form.dash :: Bytes.ofString f.name
  | shortVerbose => [Form.dash, 0x76]

end Spelling

/-- An operand wherever it stands: an empty word, a lone dash, or a word without a dash in
front. -/
def IsPlain (word : Bytes) : Prop :=
  word = [] ∨ word = [Form.dash] ∨ word.head? ≠ some Form.dash

/-- A word behind the path. -/
inductive Word
  | flag (s : Spelling)
  | operand (word : Bytes) (plain : IsPlain word)

namespace Word

def bytes : Word → Bytes
  | flag s => s.bytes
  | operand word _ => word

def flag? : Word → Option Flag
  | flag s => some s.flag
  | operand _ _ => none

def operand? : Word → Option Bytes
  | flag _ => none
  | operand word _ => some word

def flags (ws : List Word) : List Flag := ws.filterMap flag?

def operands (ws : List Word) : List Bytes := ws.filterMap operand?

@[simp]
theorem flags_nil : flags [] = [] := rfl

@[simp]
theorem operands_nil : operands [] = [] := rfl

@[simp]
theorem flags_flag (s : Spelling) (ws : List Word) : flags (flag s :: ws) = s.flag :: flags ws :=
  rfl

@[simp]
theorem flags_operand (word : Bytes) (plain : IsPlain word) (ws : List Word) :
    flags (operand word plain :: ws) = flags ws := rfl

@[simp]
theorem operands_flag (s : Spelling) (ws : List Word) : operands (flag s :: ws) = operands ws := rfl

@[simp]
theorem operands_operand (word : Bytes) (plain : IsPlain word) (ws : List Word) :
    operands (operand word plain :: ws) = word :: operands ws := rfl

@[simp]
theorem flags_map_flag (front : List Spelling) :
    flags (front.map flag) = front.map Spelling.flag := by
  induction front with
  | nil => rfl
  | cons s front ih => rw [List.map_cons, flags_flag, ih, List.map_cons]

@[simp]
theorem operands_map_flag (front : List Spelling) : operands (front.map flag) = [] := by
  induction front with
  | nil => rfl
  | cons s front ih => rw [List.map_cons, operands_flag, ih]

end Word

/-- Two dashes alone. -/
def doubleDash : Bytes := [Form.dash, Form.dash]

/-- The words of a command line. `Leads` tells which words can be the path although a dash
stands in front. -/
structure Words (Leads : Bytes → Prop) where
  front : List Spelling
  /-- The path, and what stands between it and the terminator. -/
  path? : Option ({word : Bytes // IsPlain word ∨ Leads word} × List Word)
  /-- What stands behind the terminator. -/
  tail? : Option (List Bytes)

namespace Words

variable {Leads : Bytes → Prop}

def behindPath (w : Words Leads) : List Word := (w.path?.map Prod.snd).getD []

def path (w : Words Leads) : List Bytes := (w.path?.map fun p => p.1.val).toList

/-- The words as they are written. -/
def bytes (w : Words Leads) : List Bytes :=
  w.front.map Spelling.bytes ++ w.path ++ w.behindPath.map Word.bytes ++
    (w.tail?.map (doubleDash :: ·)).getD []

def flags (w : Words Leads) : List Flag :=
  w.front.map Spelling.flag ++ Word.flags w.behindPath

/-- The operands in their order: the first of them is the path that is read. -/
def positionals (w : Words Leads) : List Bytes :=
  w.path ++ Word.operands w.behindPath ++ w.tail?.getD []

end Words

/-- What is read from flags and positionals. -/
def Arguments.reading (flags : List Flag) (positionals : List Bytes) : Arguments :=
  { flags, path? := positionals.head?, rest := positionals.tail }

/-- A command line: no flag is given twice, and the two flags that exclude each other are not
both given. -/
structure CommandLine (Leads : Bytes → Prop) extends Words Leads where
  once : toWords.flags.Nodup
  apart : ¬ (.check ∈ toWords.flags ∧ .stdout ∈ toWords.flags)

/-- The name in a word behind its two dashes: all before the first equal sign. -/
def nameOf (rest : Bytes) : Bytes := rest.takeWhile (· != Form.equalSign)

/-- Two dashes and more, where the name is that of no switch. -/
def NamesNoSwitch (rest : Bytes) : Prop :=
  rest ≠ [] ∧ ∀ s : Switch, nameOf rest ≠ Bytes.ofString s.name

/-- One dash and more, where some byte is the letter of no switch. -/
def HasOtherLetter (word : Bytes) : Prop :=
  ∃ letter rest, word = Form.dash :: letter :: rest ∧ letter ≠ Form.dash ∧
    ∃ b ∈ letter :: rest, b ∉ Switch.letters

/-- A word with a dash in front that can be the path: two dashes and a name that is a text and no
switch, or one dash and letters that are not all switches. -/
def LeadsPath (word : Bytes) : Prop :=
  (∃ rest, word = Form.dash :: Form.dash :: rest ∧ NamesNoSwitch rest ∧
    (nameOf rest).isText = true) ∨ HasOtherLetter word

/-! ## Forms -/

/-- What an argument can look like. -/
inductive Form.View : Bytes → Prop
  | doubleDash : View doubleDash
  | plain (word : Bytes) : IsPlain word → View word
  | long (rest : Bytes) : rest ≠ [] → View (dash :: dash :: rest)
  | cluster (letter : UInt8) (rest : Bytes) : letter ≠ dash → View (dash :: letter :: rest)

namespace Form

theorem view (word : Bytes) : View word := by
  match word with
  | [] => exact .plain [] (Or.inl rfl)
  | a :: rest =>
    by_cases ha : a = dash
    · subst ha
      match rest with
      | [] => exact .plain [dash] (Or.inr (Or.inl rfl))
      | b :: rest =>
        by_cases hb : b = dash
        · subst hb
          cases rest with
          | nil => exact .doubleDash
          | cons c rest => exact .long (c :: rest) (List.cons_ne_nil _ _)
        · exact .cluster b rest hb
    · exact .plain _ (Or.inr (Or.inr (by simpa using ha)))

theorem of_plain {word : Bytes} (h : IsPlain word) : of word = .operand := by
  obtain rfl | rfl | h := h
  · rfl
  · rfl
  · match word with
    | [] => rfl
    | [a] => rfl
    | a :: b :: rest =>
      have ha : a ≠ dash := by simpa using h
      simp [of, ha]

theorem of_long {rest : Bytes} (h : rest ≠ []) :
    of (dash :: dash :: rest) = .long (nameOf rest) (rest.dropWhile (· != equalSign)).tail? := by
  cases rest with
  | nil => exact absurd rfl h
  | cons c rest => rfl

theorem of_cluster {letter : UInt8} (h : letter ≠ dash) (rest : Bytes) :
    of (dash :: letter :: rest) = .cluster (letter :: rest) := by
  simp [of, h]

end Form

/-! ## One argument -/

theorem Switch.mem_all (s : Switch) : s ∈ all := by
  obtain (_ | _ | _) | _ | _ := s
  all_goals decide

theorem Switch.named?_eq_some_iff {name : Bytes} {s : Switch} :
    named? name = some s ↔ name = Bytes.ofString s.name := by
  constructor
  · intro h
    rw [named?] at h
    have hname := List.find?_some h
    exact (beq_iff_eq.mp hname).symm
  · rintro rfl
    have hall : ∀ s ∈ all, named? (Bytes.ofString s.name) = some s := by decide +kernel
    exact hall s s.mem_all

theorem Switch.named?_eq_none_iff {name : Bytes} :
    named? name = none ↔ ∀ s : Switch, name ≠ Bytes.ofString s.name := by
  rw [Option.eq_none_iff_forall_ne_some]
  simp only [ne_eq, named?_eq_some_iff]

theorem Flag.name_spelled (f : Flag) : Bytes.ofString f.name ≠ [] ∧
    nameOf (Bytes.ofString f.name) = Bytes.ofString f.name ∧
    ((Bytes.ofString f.name).dropWhile (· != Form.equalSign)).tail? = none := by
  cases f
  all_goals decide +kernel

namespace Arguments

/-- A flag is added behind those that were given before. -/
def flagged (a : Arguments) (f : Flag) : Arguments := { a with flags := a.flags ++ [f] }

/-- What one argument does to what was read before it, if it is not refused. -/
inductive Takes (a : Arguments) : Bytes → Arguments → Prop
  | flag (s : Spelling) : s.flag ∉ a.flags → Takes a s.bytes (a.flagged s.flag)
  | plain (word : Bytes) : IsPlain word → Takes a word (a.operand word)
  | path (word : Bytes) : a.path? = none → LeadsPath word → Takes a word (a.operand word)

theorem switchOn_eq_ok_iff {a b : Arguments} {s : Switch} :
    a.switchOn s = .ok b ↔ ∃ f, s = .flag f ∧ f ∉ a.flags ∧ b = a.flagged f := by
  cases s with
  | help | version => simp [switchOn]
  | flag f =>
    by_cases hf : f ∈ a.flags
    · simp [switchOn, has, hf]
    · simp [switchOn, has, hf, flagged, eq_comm]

/-- A switch with a letter that is no request for a text is the flag v. -/
theorem letters_cons_ok {a b : Arguments} {p : Piece} {ps : List Piece}
    (h : a.letters (p :: ps) = .ok b) :
    p = .char 'v' ∧ .verbose ∉ a.flags ∧ (a.flagged .verbose).letters ps = .ok b := by
  cases p with
  | stray bytes => simp [letters] at h
  | char c =>
    rw [letters] at h
    split at h
    · rename_i s hs
      split at h
      · rename_i next hnext
        obtain ⟨f, rfl, hf, rfl⟩ := switchOn_eq_ok_iff.mp hnext
        unfold Switch.ofLetter? at hs
        split at hs
        · cases hs
          exact ⟨rfl, hf, h⟩
        all_goals cases hs
      · cases h
    · cases h

theorem letters_eq_ok_iff {a b : Arguments} {ps : List Piece} (hne : ps ≠ []) :
    a.letters ps = .ok b ↔
      ps = [.char 'v'] ∧ .verbose ∉ a.flags ∧ b = a.flagged .verbose := by
  constructor
  · intro h
    cases ps with
    | nil => exact absurd rfl hne
    | cons p ps =>
      obtain ⟨rfl, hnew, hrest⟩ := letters_cons_ok h
      cases ps with
      | nil =>
        cases hrest
        exact ⟨rfl, hnew, rfl⟩
      | cons q qs =>
        -- a second letter would give the flag v again
        obtain ⟨-, hagain, -⟩ := letters_cons_ok hrest
        exact absurd (List.mem_append_right _ List.mem_cons_self) hagain
  · rintro ⟨rfl, hnew, rfl⟩
    have hon : a.switchOn (.flag .verbose) = .ok (a.flagged .verbose) :=
      switchOn_eq_ok_iff.mpr ⟨_, rfl, hnew, rfl⟩
    simp [letters, Switch.ofLetter?, hon]

theorem cluster_eq_ok_iff {a b : Arguments} {argument letters : Bytes} (hne : letters ≠ []) :
    a.cluster argument letters = .ok b ↔
      (letters = [0x76] ∧ .verbose ∉ a.flags ∧ b = a.flagged .verbose) ∨
        (a.path? = none ∧ (∃ l ∈ letters, l ∉ Switch.letters) ∧ b = a.operand argument) := by
  have hpieces : letters.pieces ≠ [] := by rwa [ne_eq, pieces_eq_nil_iff]
  have hother : letters.pieces.all isSwitchLetter = false ↔ ∃ l ∈ letters, l ∉ Switch.letters := by
    rw [← Bool.not_eq_true, all_isSwitchLetter_iff]
    simp
  have hv : letters = [0x76] → ¬ ∃ l ∈ letters, l ∉ Switch.letters := by
    rintro rfl
    decide
  rw [cluster]
  split
  · rename_i hpath
    simp only [Bool.and_eq_true, Option.isNone_iff_eq_none, Bool.not_eq_true'] at hpath
    obtain ⟨hnone, hletter⟩ := hpath
    rw [hother] at hletter
    constructor
    · intro h
      cases h
      exact Or.inr ⟨hnone, hletter, rfl⟩
    · rintro (⟨hshort, -, -⟩ | ⟨-, -, rfl⟩)
      · exact absurd hletter (hv hshort)
      · rfl
  · rename_i hpath
    simp only [Bool.and_eq_true, Option.isNone_iff_eq_none, Bool.not_eq_true'] at hpath
    rw [letters_eq_ok_iff hpieces, pieces_eq_v_iff]
    constructor
    · exact Or.inl
    · rintro (h | ⟨hnone, hletter, -⟩)
      · exact h
      · exact absurd ⟨hnone, hother.mpr hletter⟩ hpath

theorem long_eq_ok_iff {a b : Arguments} {argument name : Bytes} {value? : Option Bytes} :
    a.long argument name value? = .ok b ↔
      (∃ f : Flag, name = Bytes.ofString f.name ∧ value? = none ∧ f ∉ a.flags ∧ b = a.flagged f) ∨
        (a.path? = none ∧ (∀ s : Switch, name ≠ Bytes.ofString s.name) ∧ name.isText = true ∧
          b = a.operand argument) := by
  have hflag : ∀ f : Flag, name = Bytes.ofString f.name ↔ Switch.named? name = some (.flag f) := by
    intro f
    rw [Switch.named?_eq_some_iff, Switch.name]
  simp only [← Switch.named?_eq_none_iff, hflag]
  cases hname : Switch.named? name with
  | none =>
    by_cases hpath : a.path? = none ∧ name.isText = true
    · simp [long, hname, hpath, eq_comm]
    · simp only [long, hname, Bool.and_eq_true, Option.isNone_iff_eq_none, hpath, if_false]
      simp only [reduceCtorEq, false_and, exists_false, true_and, false_or, false_iff]
      exact fun ⟨hnone, htext, _⟩ => hpath ⟨hnone, htext⟩
  | some s =>
    cases value? with
    | some value => simp [long, hname]
    | none => simp [long, hname, switchOn_eq_ok_iff]

theorem read_doubleDash (a : Arguments) (rest : List Bytes) :
    a.read (doubleDash :: rest) = .ok (rest.foldl operand a) := rfl

theorem nameOf_eq_of_no_value {rest : Bytes}
    (h : (rest.dropWhile (· != Form.equalSign)).tail? = none) : nameOf rest = rest := by
  have hnil : rest.dropWhile (· != Form.equalSign) = [] := by
    cases hdrop : rest.dropWhile (· != Form.equalSign) with
    | nil => rfl
    | cons c cs => simp [hdrop] at h
  have hsplit : nameOf rest ++ rest.dropWhile (· != Form.equalSign) = rest :=
    List.takeWhile_append_dropWhile
  rwa [hnil, List.append_nil] at hsplit

/-- An argument that is not refused is a flag, an operand or the path. -/
theorem takes_of_read {a b : Arguments} {argument : Bytes} {rest : List Bytes}
    (hne : argument ≠ doubleDash) (h : a.read (argument :: rest) = .ok b) :
    ∃ next, Takes a argument next ∧ next.read rest = .ok b := by
  cases Form.view argument with
  | doubleDash => exact absurd rfl hne
  | plain _ hplain =>
    rw [read, Form.of_plain hplain] at h
    exact ⟨_, .plain argument hplain, h⟩
  | long name hname =>
    rw [read, Form.of_long hname] at h
    dsimp only at h
    split at h
    · rename_i next hlong
      obtain ⟨f, hf, hvalue, hnew, rfl⟩ | ⟨hpath, hno, htext, rfl⟩ := long_eq_ok_iff.mp hlong
      · rw [nameOf_eq_of_no_value hvalue] at hf
        subst hf
        exact ⟨_, .flag (.long f) hnew, h⟩
      · exact ⟨_, .path _ hpath (Or.inl ⟨name, rfl, ⟨hname, hno⟩, htext⟩), h⟩
    · cases h
  | cluster letter letters hletter =>
    rw [read, Form.of_cluster hletter] at h
    dsimp only at h
    split at h
    · rename_i next hcluster
      obtain ⟨hv, hnew, rfl⟩ | ⟨hpath, hother, rfl⟩ :=
        (cluster_eq_ok_iff (List.cons_ne_nil _ _)).mp hcluster
      · rw [hv]
        exact ⟨_, .flag .shortVerbose hnew, h⟩
      · exact ⟨_, .path _ hpath (Or.inr ⟨letter, letters, rfl, hletter, hother⟩), h⟩
    · cases h

theorem read_long {a next : Arguments} {name : Bytes} (hne : name ≠ []) (rest : List Bytes)
    (h : a.long (Form.dash :: Form.dash :: name) (nameOf name)
      (name.dropWhile (· != Form.equalSign)).tail? = .ok next) :
    a.read ((Form.dash :: Form.dash :: name) :: rest) = next.read rest := by
  simp only [read, Form.of_long hne, h]

theorem read_cluster {a next : Arguments} {letter : UInt8} {letters : Bytes}
    (hne : letter ≠ Form.dash) (rest : List Bytes)
    (h : a.cluster (Form.dash :: letter :: letters) (letter :: letters) = .ok next) :
    a.read ((Form.dash :: letter :: letters) :: rest) = next.read rest := by
  simp only [read, Form.of_cluster hne, h]

/-- An argument of the grammar is read as what it is. -/
theorem read_cons_of_takes {a next : Arguments} {argument : Bytes} (h : Takes a argument next)
    (rest : List Bytes) : a.read (argument :: rest) = next.read rest := by
  cases h with
  | flag s hnew =>
    cases s with
    | long f =>
      obtain ⟨hne, hname, hvalue⟩ := Flag.name_spelled f
      apply read_long hne
      rw [hname, hvalue]
      exact long_eq_ok_iff.mpr (Or.inl ⟨f, rfl, rfl, hnew, rfl⟩)
    | shortVerbose =>
      apply read_cluster (by decide)
      exact (cluster_eq_ok_iff (by decide)).mpr (Or.inl ⟨rfl, hnew, rfl⟩)
  | plain _ hplain => rw [read, Form.of_plain hplain]
  | path _ hpath hleads =>
    obtain ⟨name, rfl, ⟨hname, hno⟩, htext⟩ | ⟨letter, letters, rfl, hletter, hother⟩ := hleads
    · exact read_long hname rest (long_eq_ok_iff.mpr (Or.inr ⟨hpath, hno, htext, rfl⟩))
    · apply read_cluster hletter
      exact (cluster_eq_ok_iff (List.cons_ne_nil _ _)).mpr (Or.inr ⟨hpath, hother, rfl⟩)

/-! ## All arguments -/

@[simp]
theorem flags_operand (a : Arguments) (word : Bytes) : (a.operand word).flags = a.flags := by
  unfold operand
  split
  all_goals rfl

theorem flags_foldl_operand (a : Arguments) (words : List Bytes) :
    (words.foldl operand a).flags = a.flags := by
  induction words generalizing a with
  | nil => rfl
  | cons word words ih => rw [List.foldl_cons, ih, flags_operand]

theorem operand_reading (flags : List Flag) (ps : List Bytes) (word : Bytes) :
    (reading flags ps).operand word = reading flags (ps ++ [word]) := by
  cases ps with
  | nil => rfl
  | cons p ps => rfl

theorem flagged_reading (flags : List Flag) (ps : List Bytes) (f : Flag) :
    (reading flags ps).flagged f = reading (flags ++ [f]) ps := rfl

theorem foldl_operand_reading (flags : List Flag) (ps rest : List Bytes) :
    rest.foldl operand (reading flags ps) = reading flags (ps ++ rest) := by
  induction rest generalizing ps with
  | nil => rw [List.append_nil, List.foldl_nil]
  | cons word rest ih => rw [List.foldl_cons, operand_reading, ih, List.append_assoc]; rfl

theorem read_tail (flags : List Flag) (ps : List Bytes) (tail? : Option (List Bytes)) :
    (reading flags ps).read ((tail?.map (doubleDash :: ·)).getD []) =
      .ok (reading flags (ps ++ tail?.getD [])) := by
  cases tail? with
  | none => rw [Option.getD_none, List.append_nil]; rfl
  | some rest => exact (read_doubleDash _ rest).trans (congrArg _ (foldl_operand_reading ..))

/-- No step gives a flag twice, so no run does. -/
theorem nodup_flags_of_read {a b : Arguments} {arguments : List Bytes}
    (h : a.read arguments = .ok b) (hnodup : a.flags.Nodup) : b.flags.Nodup := by
  induction arguments generalizing a with
  | nil =>
    cases h
    exact hnodup
  | cons argument rest ih =>
    by_cases hdash : argument = doubleDash
    · subst hdash
      cases h
      rwa [flags_foldl_operand]
    · obtain ⟨next, htakes, hrest⟩ := takes_of_read hdash h
      refine ih hrest ?_
      cases htakes with
      | flag s hnew => exact List.nodup_append.mpr ⟨hnodup, List.nodup_singleton _, by
          rintro f hf g hg rfl
          exact hnew (List.mem_singleton.mp hg ▸ hf)⟩
      | plain | path => rwa [flags_operand]

/-- Words that may stand behind the path are read as they are. -/
theorem read_words {flags : List Flag} {ws : List Word} (ps rest : List Bytes)
    (h : (flags ++ Word.flags ws).Nodup) :
    (reading flags ps).read (ws.map Word.bytes ++ rest) =
      (reading (flags ++ Word.flags ws) (ps ++ Word.operands ws)).read rest := by
  induction ws generalizing flags ps with
  | nil => simp
  | cons w ws ih =>
    cases w with
    | flag s =>
      rw [Word.flags_flag, List.append_cons] at h
      have hnew : s.flag ∉ flags := by
        have hfront := (List.nodup_append.mp h).1
        exact fun hmem => (List.nodup_append.mp hfront).2.2 _ hmem _ List.mem_cons_self rfl
      rw [List.map_cons, List.cons_append, Word.bytes, read_cons_of_takes (.flag s hnew),
        flagged_reading, ih ps h, Word.flags_flag, Word.operands_flag, ← List.append_cons]
    | operand word plain =>
      rw [List.map_cons, List.cons_append, Word.bytes, read_cons_of_takes (.plain word plain),
        operand_reading, ih _ h, List.append_assoc]
      rfl

/-- What stands behind the path is words, and then perhaps two dashes alone. -/
theorem exists_words_of_read {flags : List Flag} {ps arguments : List Bytes} {a : Arguments}
    (hps : ps ≠ []) (h : (reading flags ps).read arguments = .ok a) :
    ∃ (ws : List Word) (tail? : Option (List Bytes)),
      arguments = ws.map Word.bytes ++ (tail?.map (doubleDash :: ·)).getD [] ∧
      a = reading (flags ++ Word.flags ws)
        (ps ++ Word.operands ws ++ tail?.getD []) := by
  induction arguments generalizing flags ps with
  | nil =>
    cases h
    exact ⟨[], none, rfl, by simp⟩
  | cons argument rest ih =>
    by_cases hdash : argument = doubleDash
    · subst hdash
      rw [read_doubleDash, foldl_operand_reading] at h
      cases h
      exact ⟨[], some rest, rfl, by simp⟩
    · obtain ⟨next, htakes, hrest⟩ := takes_of_read hdash h
      cases htakes with
      | flag s hnew =>
        rw [flagged_reading] at hrest
        obtain ⟨ws, tail?, rfl, rfl⟩ := ih hps hrest
        exact ⟨.flag s :: ws, tail?, rfl, by simp⟩
      | plain _ hplain =>
        rw [operand_reading] at hrest
        obtain ⟨ws, tail?, rfl, rfl⟩ := ih (by simp) hrest
        exact ⟨.operand argument hplain :: ws, tail?, rfl, by simp⟩
      | path _ hpath =>
        have hhead : ps.head? = none := hpath
        exact absurd (List.head?_eq_none_iff.mp hhead) hps

/-- Where the path is missing, only what stands behind two dashes alone is positional. -/
theorem reading_of_no_path (flags : List Flag) (tail? : Option (List Bytes)) :
    let w : Words LeadsPath := ⟨[], none, tail?⟩
    reading flags (tail?.getD []) = reading (flags ++ w.flags) w.positionals := by
  intro w
  have hflags : w.flags = [] := rfl
  rw [hflags, List.append_nil]
  rfl

/-- A command line starts with flags. The first operand is the path. -/
theorem exists_bytes_of_read {flags : List Flag} {arguments : List Bytes} {a : Arguments}
    (h : (reading flags []).read arguments = .ok a) :
    ∃ w : Words LeadsPath, w.bytes = arguments ∧ a = reading (flags ++ w.flags) w.positionals := by
  induction arguments generalizing flags with
  | nil =>
    cases h
    exact ⟨⟨[], none, none⟩, rfl, reading_of_no_path flags none⟩
  | cons argument rest ih =>
    by_cases hdash : argument = doubleDash
    · subst hdash
      rw [read_doubleDash, foldl_operand_reading] at h
      cases h
      exact ⟨⟨[], none, some rest⟩, rfl, reading_of_no_path flags (some rest)⟩
    · obtain ⟨next, htakes, hrest⟩ := takes_of_read hdash h
      have hpath : ∀ p : {word : Bytes // IsPlain word ∨ LeadsPath word}, p.val = argument →
          next = (reading flags []).operand argument →
          ∃ w : Words LeadsPath, w.bytes = argument :: rest ∧
            a = reading (flags ++ w.flags) w.positionals := by
        rintro p rfl rfl
        rw [operand_reading] at hrest
        obtain ⟨ws, tail?, rfl, rfl⟩ := exists_words_of_read (by simp) hrest
        exact ⟨⟨[], some (p, ws), tail?⟩, rfl, rfl⟩
      cases htakes with
      | flag s hnew =>
        rw [flagged_reading] at hrest
        obtain ⟨w, rfl, rfl⟩ := ih hrest
        refine ⟨{ w with front := s :: w.front }, rfl, ?_⟩
        have hflags : Words.flags { w with front := s :: w.front } = s.flag :: w.flags := rfl
        rw [hflags, List.append_assoc]
        rfl
      | plain _ hplain => exact hpath ⟨argument, Or.inl hplain⟩ rfl rfl
      | path _ _ hleads => exact hpath ⟨argument, Or.inr hleads⟩ rfl rfl

/-- What can be the path is read as the path, if there is none before it. -/
theorem takes_path {flags : List Flag} {word : Bytes} (h : IsPlain word ∨ LeadsPath word) :
    Takes (reading flags []) word (reading flags [word]) := by
  obtain hplain | hleads := h
  · exact .plain word hplain
  · exact .path word rfl hleads

theorem read_front {front : List Spelling} (rest : List Bytes)
    (h : (front.map Spelling.flag).Nodup) :
    (reading [] []).read (front.map Spelling.bytes ++ rest) =
      (reading (front.map Spelling.flag) []).read rest := by
  have hbytes : front.map Spelling.bytes = (front.map Word.flag).map Word.bytes := by
    rw [List.map_map]
    rfl
  rw [hbytes, read_words [] rest (by rwa [List.nil_append, Word.flags_map_flag]),
    Word.flags_map_flag, Word.operands_map_flag]
  rfl

/-- What the grammar writes is read as it was written, if it gives no flag twice. -/
theorem read_bytes (w : Words LeadsPath) (h : w.flags.Nodup) :
    (reading [] []).read w.bytes = .ok (reading w.flags w.positionals) := by
  obtain ⟨front, path?, tail?⟩ := w
  have hfront : (front.map Spelling.flag).Nodup := (List.nodup_append.mp h).1
  unfold Words.bytes
  rw [List.append_assoc, List.append_assoc, read_front _ hfront]
  cases path? with
  | none =>
    simp only [Words.flags, Words.positionals, Words.path, Words.behindPath, Option.map_none,
      Option.toList_none, Option.getD_none, List.map_nil, List.nil_append, read_tail,
      Word.flags_nil, Word.operands_nil, List.append_nil]
  | some p =>
    obtain ⟨word, ws⟩ := p
    have hpath : Words.path ⟨front, some (word, ws), tail?⟩ = [word.val] := rfl
    rw [hpath, List.singleton_append, read_cons_of_takes (takes_path word.property)]
    exact (read_words _ _ h).trans (read_tail _ _ tail?)

/-- Of a flag list without repetition, two flags exclude each other exactly if both are given. -/
theorem conflict?_eq_none_iff {a : Arguments} (h : a.flags.Nodup) :
    a.conflict? = none ↔ ¬ (.check ∈ a.flags ∧ .stdout ∈ a.flags) := by
  have hmem : ∀ f : Flag, f ∈ a.flags.filter (· != .verbose) ↔ f ∈ a.flags ∧ f ≠ .verbose := by
    intro f
    rw [List.mem_filter, bne_iff_ne]
  have hnodup : (a.flags.filter (· != .verbose)).Nodup := h.filter _
  unfold conflict?
  split
  · rename_i first second others hlist
    rw [hlist] at hmem hnodup
    have hfirst := (hmem first).mp List.mem_cons_self
    have hsecond := (hmem second).mp (List.mem_cons_of_mem _ List.mem_cons_self)
    have hdiffer : first ≠ second := fun h => by simp [h] at hnodup
    -- two different flags beside verbose are the other two
    simp only [reduceCtorEq, false_iff, not_not]
    cases first <;> cases second <;> simp_all
  · rename_i hshort
    simp only [true_iff]
    rintro ⟨hcheck, hstdout⟩
    have hc := (hmem .check).mpr ⟨hcheck, by decide⟩
    have hs := (hmem .stdout).mpr ⟨hstdout, by decide⟩
    match hlist : a.flags.filter (· != .verbose) with
    | [] => simp [hlist] at hc
    | [f] =>
      rw [hlist, List.mem_singleton] at hc hs
      rw [← hs] at hc
      cases hc
    | first :: second :: others => exact hshort first second others hlist

/-- The arguments are accepted exactly if each of them is read and no two flags exclude each
other. -/
theorem parse_eq_ok_iff {arguments : List Bytes} {a : Arguments} :
    parse arguments = .ok a ↔ read {} arguments = .ok a ∧ a.conflict? = none := by
  rw [parse]
  cases read {} arguments with
  | error stop => simp
  | ok b =>
    dsimp only
    cases hb : b.conflict? with
    | some stop =>
      simp only [reduceCtorEq, false_iff]
      rintro ⟨h, hnone⟩
      cases h
      rw [hb] at hnone
      cases hnone
    | none =>
      simp only [Except.ok.injEq]
      constructor
      · rintro rfl
        exact ⟨rfl, hb⟩
      · exact And.left

/-! ## The laws -/

/-- A list of arguments is accepted exactly if the grammar writes it, and then its flags and its
positionals are read in the order in which they stand. Of a path that starts with two dashes only
the name must be a text. -/
theorem arguments_are_accepted_exactly_by_the_grammar (arguments : List Bytes) (a : Arguments) :
    parse arguments = .ok a ↔
      ∃ c : CommandLine LeadsPath, c.bytes = arguments ∧ a = reading c.flags c.positionals := by
  rw [parse_eq_ok_iff]
  constructor
  · rintro ⟨hread, hconflict⟩
    have hnodup := nodup_flags_of_read hread List.nodup_nil
    obtain ⟨w, rfl, rfl⟩ := exists_bytes_of_read hread
    have hapart := (conflict?_eq_none_iff hnodup).mp hconflict
    exact ⟨{ w with once := hnodup, apart := hapart }, rfl, rfl⟩
  · rintro ⟨c, rfl, rfl⟩
    exact ⟨read_bytes c.toWords c.once, (conflict?_eq_none_iff c.once).mpr c.apart⟩

/-- As `LeadsPath`, but a word with two dashes in front has to be a text as a whole. -/
def LeadsTextPath (word : Bytes) : Prop :=
  (∃ rest, word = Form.dash :: Form.dash :: rest ∧ NamesNoSwitch rest ∧ word.isText = true) ∨
    HasOtherLetter word

/-- Two dashes, the letter a, an equal sign and a byte of no character. -/
def strayValue : Bytes := [Form.dash, Form.dash, 0x61, Form.equalSign, 0xFF]

/-- A path is accepted although its value is no text. -/
theorem a_path_with_a_stray_byte_in_its_value_is_accepted :
    parse [strayValue] = .ok { path? := some strayValue } ∧
      ¬ ∃ c : CommandLine LeadsTextPath, c.bytes = [strayValue] := by
  refine ⟨by decide +kernel, ?_⟩
  rintro ⟨⟨⟨front, path?, tail?⟩, once, apart⟩, hbytes⟩
  cases front with
  | cons s front =>
    have hspelled : ∀ s : Spelling, s.bytes ≠ strayValue := by
      rintro (f | _)
      · cases f
        all_goals decide +kernel
      · decide
    exact hspelled s (List.head_eq_of_cons_eq hbytes)
  | nil =>
    cases path? with
    | none =>
      cases tail? with
      | none => cases hbytes
      | some tail => exact absurd (List.head_eq_of_cons_eq hbytes) (by decide)
    | some p =>
      obtain ⟨⟨word, hword⟩, ws⟩ := p
      obtain rfl : word = strayValue := List.head_eq_of_cons_eq hbytes
      obtain (h | h | h) | ⟨-, -, -, htext⟩ | ⟨letter, rest, hcons, hletter, -⟩ := hword
      · cases h
      · cases h
      · exact h rfl
      · exact absurd htext (by decide +kernel)
      · cases hcons
        exact hletter rfl

end Arguments

end Spacing
