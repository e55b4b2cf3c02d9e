-- What a call on one file comes to. It leaves the tree alone, or it opens the file that its path
-- leads to: in place, and with a formatted text at hand. Then the file holds this text, or a part
-- of it if the storage fails.
import Spacing.Proofs.FileWrites

namespace Spacing

open Formatter

/-! ## Plans -/

namespace Document

/-- Bytes that are a text are the encoding of it. -/
theorem eq_encode_of_fromUTF8? {bytes : ByteArray} {s : String}
    (h : String.fromUTF8? bytes = some s) : bytes = encode s.toList := by
  rw [String.fromUTF8?] at h
  split at h
  · cases h
    rw [encode, String.ofList_toList]
    rfl
  · cases h

theorem encode_inj {t u : Text} : encode t = encode u ↔ t = u := by
  constructor
  · intro h
    have hread := fromUTF8?_encode t
    rw [h, fromUTF8?_encode u] at hread
    exact (String.ofList_injective (Option.some.inj hread)).symm
  · rintro rfl
    rfl

theorem plan_encode (path : Bytes) (mode : WriteMode) (t : Text) :
    plan path mode (.ok (encode t)) = planText path mode (encode t).size t := by
  simp only [plan, fromUTF8?_encode, String.toList_ofList]

theorem planText_of_error {t : Text} {e : RuleError} (h : format t = .error e) (path : Bytes)
    (mode : WriteMode) (size : Nat) :
    planText path mode size t =
      .finish { events := .readDocument path size :: changes (trace t).stages
                changed := .error (.rule e) } := by
  simp only [planText, result_trace, h]

theorem planText_of_ok {t v : Text} (h : format t = .ok v) (path : Bytes) (mode : WriteMode)
    (size : Nat) :
    planText path mode size t =
      .ofMode (.readDocument path size :: changes (trace t).stages) (v != t) v mode := by
  simp only [planText, result_trace, h]

/-- What is planned for a file: a failure that prints nothing, or what the mode asks for with a text
that was read and formatted. -/
theorem plan_cases (path : Bytes) (mode : WriteMode) (content : Except Fault ByteArray) :
    (∃ events e, plan path mode content = .finish { events, changed := .error e }) ∨
      ∃ t v events, content = .ok (encode t) ∧ format t = .ok v ∧
        plan path mode content = .ofMode events (v != t) v mode := by
  cases content with
  | error f => exact Or.inl ⟨_, _, rfl⟩
  | ok bytes =>
    cases hs : String.fromUTF8? bytes with
    | none =>
      left
      simp only [plan, hs]
      exact ⟨_, _, rfl⟩
    | some s =>
      obtain rfl := eq_encode_of_fromUTF8? hs
      rw [plan_encode]
      cases hf : format s.toList with
      | error e => exact Or.inl ⟨_, _, planText_of_error hf path mode _⟩
      | ok v => exact Or.inr ⟨_, v, _, rfl, hf, planText_of_ok hf path mode _⟩

/-- Only a text that was read and formatted is stored, and only in place. -/
theorem plan_eq_store {path : Bytes} {mode : WriteMode} {content : Except Fault ByteArray}
    {events : List Event} {changed : Bool} {v : Text}
    (h : plan path mode content = .store events changed v) :
    mode = .inPlace ∧ ∃ t, content = .ok (encode t) ∧ format t = .ok v ∧ changed = (v != t) := by
  obtain ⟨events', e, hplan⟩ | ⟨t, w, events', hcontent, hf, hplan⟩ := plan_cases path mode content
  · rw [hplan] at h
    cases h
  · rw [hplan] at h
    cases mode with
    | inPlace =>
      cases h
      exact ⟨rfl, t, hcontent, hf, rfl⟩
    | stdout | check => cases h

end Document

/-! ## Calls -/

namespace Tree

/-- A call opens a file to write it anew: it is in place, the path leads to the file, and the file
holds a text that can be formatted. -/
structure Opens (T : Tree) (path : Bytes) (mode : WriteMode) (id : NodeId) (rights : Nat)
    (t v : Text) : Prop where
  inPlace : mode = .inPlace
  leads : T.resolve path = .ok id
  node : T.node? id = some (.file rights (Document.encode t))
  read : T.read path = .ok (Document.encode t)
  formatted : format t = .ok v

/-- What a call comes to. -/
inductive CallEffect (T : Tree) (path : Bytes) (mode : WriteMode) (r : TreeCall) : Prop
  /-- No regular file is opened. -/
  | untouched (opened : r.opened? = none) (written : r.written? = none) (tree : r.tree = T)
  | stored {id : NodeId} {rights : Nat} {t v : Text} (file : T.Opens path mode id rights t v)
      (opened : r.opened? = some id) (written : r.written? = some id)
      (changed : r.call.changed = .ok (v != t))
      (tree : r.tree = T.setNode id (.file (modeAfterWrite rights) (Document.encode v)))
  /-- The storage takes a part of the text. -/
  | broken {id : NodeId} {rights : Nat} {t v : Text} {s : Shortage}
      (file : T.Opens path mode id rights t v)
      (opened : r.opened? = some id) (written : r.written? = none)
      (changed : r.call.changed = .error (.write path s.fault))
      (tree : r.tree = T.setNode id
        (.file (modeAfterWrite rights) ((Document.encode v).extract 0 s.bytes)))

theorem callEffect (T : Tree) (path : Bytes) (mode : WriteMode) :
    T.CallEffect path mode (T.formatFile path mode) := by
  cases hplan : Document.plan path mode (T.read path) with
  | finish call =>
    rw [formatFile, hplan]
    exact .untouched rfl rfl rfl
  | store events changed v =>
    obtain ⟨hmode, t, hread, hf, rfl⟩ := Document.plan_eq_store hplan
    rw [formatFile, hplan]
    cases overwritten hread (Document.encode v) with
    | refused opened write =>
      simp only [opened, write]
      exact .untouched rfl rfl rfl
    | gone opened write =>
      simp only [opened, write]
      exact .untouched rfl rfl rfl
    | stored leads node opened write =>
      simp only [opened, write]
      exact .stored ⟨hmode, leads, node, hread, hf⟩ rfl rfl rfl rfl
    | broken leads node opened short write =>
      simp only [opened, write]
      exact .broken ⟨hmode, leads, node, hread, hf⟩ rfl rfl rfl rfl

variable {T : Tree} {path : Bytes} {mode : WriteMode} {id : NodeId}

/-- A call in place for a text that can be formatted ends with its write. -/
theorem formatFile_inPlace {t v : Text} (hread : T.read path = .ok (Document.encode t))
    (hf : format t = .ok v) :
    T.formatFile path .inPlace =
      .ofWrite path
        (.readDocument path (Document.encode t).size :: Document.changes (trace t).stages)
        (v != t) (T.opened? path) (T.overwrite path (Document.encode v)) := by
  simp only [formatFile, hread, Document.plan_encode, Document.planText_of_ok hf, Plan.ofMode]

/-- A call that fails prints nothing. -/
theorem printed_of_error {e : FormatError} (h : (T.formatFile path mode).call.changed = .error e) :
    (T.formatFile path mode).call.printed = [] := by
  unfold formatFile at h ⊢
  obtain ⟨events, e', hplan⟩ | ⟨t, v, events, -, -, hplan⟩ :=
    Document.plan_cases path mode (T.read path)
  · rw [hplan]
  · cases mode with
    | inPlace =>
      simp only [hplan, Plan.ofMode]
      cases T.overwrite path (Document.encode v) <;> rfl
    | stdout | check =>
      rw [hplan] at h
      cases h

/-- A call that opens no file leaves the tree as it was. -/
theorem formatFile_unopened (h : (T.formatFile path mode).opened? = none) :
    (T.formatFile path mode).tree = T := by
  cases T.callEffect path mode with
  | untouched opened written tree => exact tree
  | stored file opened written changed tree | broken file opened written changed tree =>
    rw [opened] at h
    cases h

/-- A call opens a file in place only, and with a formatted text at hand. -/
theorem opens_of_opened (h : (T.formatFile path mode).opened? = some id) :
    ∃ rights t v, T.Opens path mode id rights t v := by
  cases T.callEffect path mode with
  | untouched opened written tree =>
    rw [opened] at h
    cases h
  | stored file opened written changed tree | broken file opened written changed tree =>
    obtain rfl := Option.some.inj (opened.symm.trans h)
    exact ⟨_, _, _, file⟩

/-- A file that was written holds the formatted text. -/
theorem formatFile_written (h : (T.formatFile path mode).written? = some id) :
    ∃ rights t v, T.Opens path mode id rights t v ∧
      (T.formatFile path mode).call.changed = .ok (v != t) ∧
      (T.formatFile path mode).tree =
        T.setNode id (.file (modeAfterWrite rights) (Document.encode v)) := by
  cases T.callEffect path mode with
  | untouched opened written tree | broken file opened written changed tree =>
    rw [written] at h
    cases h
  | stored file opened written changed tree =>
    obtain rfl := Option.some.inj (written.symm.trans h)
    exact ⟨_, _, _, file, changed, tree⟩

/-- What is opened by a call that goes well is written. -/
theorem written_of_ok {changed : Bool} (h : (T.formatFile path mode).call.changed = .ok changed) :
    (T.formatFile path mode).written? = (T.formatFile path mode).opened? := by
  cases T.callEffect path mode with
  | untouched opened written tree | stored file opened written hchanged tree => rw [opened, written]
  | broken file opened written hchanged tree =>
    rw [hchanged] at h
    cases h

theorem unwritten_of_error {e : FormatError}
    (h : (T.formatFile path mode).call.changed = .error e) :
    (T.formatFile path mode).written? = none := by
  cases T.callEffect path mode with
  | untouched opened written tree | broken file opened written changed tree => exact written
  | stored file opened written changed tree =>
    rw [changed] at h
    cases h

/-- A call that fails before the write opens no file. -/
theorem unopened_of_error {e : FormatError} (h : (T.formatFile path mode).call.changed = .error e)
    (he : ∀ f, e ≠ .write path f) : (T.formatFile path mode).opened? = none := by
  cases T.callEffect path mode with
  | untouched opened written tree => exact opened
  | stored file opened written changed tree =>
    rw [changed] at h
    cases h
  | broken file opened written changed tree =>
    rw [changed] at h
    cases h
    exact absurd rfl (he _)

end Tree

end Spacing
