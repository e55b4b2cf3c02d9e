-- The three ways to format a file. They fail alike or find the same change, what is printed is
-- what the file holds after a write, and the calls that only show or compare leave no trace.
import Spacing.Proofs.FileFrame

namespace Spacing

open Formatter

/-! ## What the bytes of a file allow -/

namespace Document

/-- The bytes cannot be formatted: they are no text, or the text is too dear. The error is the
same in every mode. -/
inductive Refused (path : Bytes) (data : ByteArray) : FormatError → Prop
  | notText (h : ∀ t, data ≠ encode t) : Refused path data (.read path .notText)
  | rule {t : Text} {e : RuleError} (ht : data = encode t) (h : format t = .error e) :
      Refused path data (.rule e)

theorem refused_or_formatted (path : Bytes) (data : ByteArray) :
    (∃ e, Refused path data e) ∨ ∃ t v, data = encode t ∧ format t = .ok v := by
  cases hs : String.fromUTF8? data with
  | none =>
    refine Or.inl ⟨_, .notText ?_⟩
    rintro t rfl
    rw [fromUTF8?_encode] at hs
    cases hs
  | some s =>
    have ht := eq_encode_of_fromUTF8? hs
    cases hf : format s.toList with
    | error e => exact Or.inl ⟨_, .rule ht hf⟩
    | ok v => exact Or.inr ⟨s.toList, v, ht, hf⟩

theorem plan_of_refused {path : Bytes} {data : ByteArray} {e : FormatError}
    (h : Refused path data e) (mode : WriteMode) :
    ∃ events, plan path mode (.ok data) = .finish { events, changed := .error e } := by
  cases h with
  | notText h =>
    cases hs : String.fromUTF8? data with
    | none =>
      simp only [plan, hs]
      exact ⟨_, rfl⟩
    | some s => exact absurd (eq_encode_of_fromUTF8? hs) (h s.toList)
  | rule ht hf =>
    subst ht
    exact ⟨_, by rw [plan_encode, planText_of_error hf]⟩

end Document

/-! ## Ordinary files -/

namespace Tree

/-- The path leads to an ordinary file with these bytes, which its owner may read and write, on a
storage with room. -/
structure Ordinary (T : Tree) (path : Bytes) (id : NodeId) (data : ByteArray) : Prop where
  leads : T.resolve path = .ok id
  file : ∃ mode, T.node? id = some (.file mode data) ∧ mayRead mode = true ∧ mayWrite mode = true
  room : T.shortage? id = none

namespace Ordinary

variable {T : Tree} {path : Bytes} {id : NodeId} {data : ByteArray}

theorem read (h : T.Ordinary path id data) : T.read path = .ok data := by
  obtain ⟨mode, hnode, hread, -⟩ := h.file
  simp only [Tree.read, h.leads, hnode, readNode, hread, if_true]

theorem fileBytes? (h : T.Ordinary path id data) : T.fileBytes? id = some data := by
  obtain ⟨mode, hnode, -, -⟩ := h.file
  simp only [Tree.fileBytes?, hnode]

/-- A write goes well, and then every name of the file leads to the new bytes. -/
theorem overwrite (h : T.Ordinary path id data) (new : ByteArray) :
    ∃ U, T.overwrite path new = .ok U ∧
      ∀ name, T.resolve name = .ok id → U.Ordinary name id new := by
  obtain ⟨mode, hnode, hread, hwrite⟩ := h.file
  refine ⟨_, overwrite_of_room h.leads hnode hwrite h.room new,
    fun name hname => ⟨?_, ⟨modeAfterWrite mode, ?_, ?_, ?_⟩, h.room⟩⟩
  · rw [(sameNames_file hnode).resolve, hname]
  · rw [node?_setNode hnode, if_pos rfl]
  · exact (holdsRight_modeAfterWrite (by decide) mode).trans hread
  · exact (holdsRight_modeAfterWrite (by decide) mode).trans hwrite

theorem changed_of_refused (h : T.Ordinary path id data) {e : FormatError}
    (he : Document.Refused path data e) (mode : WriteMode) :
    (T.formatFile path mode).call.changed = .error e := by
  obtain ⟨events, hplan⟩ := Document.plan_of_refused he mode
  rw [formatFile, h.read, hplan]

variable {t v : Text}

/-- A call in place stores the formatted text under every name of the file. -/
theorem formatFile_inPlace (h : T.Ordinary path id (Document.encode t)) (hf : format t = .ok v) :
    (T.formatFile path .inPlace).call.changed = .ok (v != t) ∧
      ∀ name, T.resolve name = .ok id →
        (T.formatFile path .inPlace).tree.Ordinary name id (Document.encode v) := by
  obtain ⟨U, hover, hnames⟩ := h.overwrite (Document.encode v)
  rw [Tree.formatFile_inPlace h.read hf, hover]
  exact ⟨rfl, hnames⟩

theorem formatFile_stdout (h : T.Ordinary path id (Document.encode t)) (hf : format t = .ok v) :
    (T.formatFile path .stdout).call.changed = .ok (v != t) ∧
      (T.formatFile path .stdout).call.printed = v := by
  rw [formatFile, h.read, Document.plan_encode, Document.planText_of_ok hf]
  exact ⟨rfl, rfl⟩

theorem changed_of_format (h : T.Ordinary path id (Document.encode t)) (hf : format t = .ok v)
    (mode : WriteMode) : (T.formatFile path mode).call.changed = .ok (v != t) := by
  cases mode with
  | inPlace => exact (h.formatFile_inPlace hf).1
  | stdout => exact (h.formatFile_stdout hf).1
  | check =>
    obtain ⟨events, hcall⟩ := formatFile_check h.read
    rw [hcall, hf]

end Ordinary

/-! ## Previews -/

theorem formatFile_preview {mode : WriteMode} (h : mode ≠ .inPlace) (T : Tree) (path : Bytes) :
    (T.formatFile path mode).tree = T := by
  apply formatFile_unopened
  cases hopened : (T.formatFile path mode).opened? with
  | none => rfl
  | some id =>
    obtain ⟨_, _, _, file⟩ := opens_of_opened hopened
    exact absurd file.inPlace h

/-- The tree after some calls, one after another. -/
def afterCalls (T : Tree) (calls : List (Bytes × WriteMode)) : Tree :=
  calls.foldl (fun U c => (U.formatFile c.1 c.2).tree) T

theorem afterCalls_previews {calls : List (Bytes × WriteMode)} (h : ∀ c ∈ calls, c.2 ≠ .inPlace)
    (T : Tree) : T.afterCalls calls = T := by
  induction calls with
  | nil => rfl
  | cons c calls ih =>
    obtain ⟨hc, hcalls⟩ := List.forall_mem_cons.mp h
    rw [afterCalls, List.foldl_cons, formatFile_preview hc]
    exact ih hcalls

/-! ## The law -/

/-- On an ordinary file the modes fail with the same error, or they find the same change. Then
what is printed is what the file holds after the call in place, under each of its names, and a
change is found exactly if that call changes the bytes. Calls that show or compare, on any paths,
leave the tree as it was, so they make no difference to any call after them. -/
theorem the_modes_agree_on_an_ordinary_file (T : Tree) (path : Bytes) (id : NodeId)
    (data : ByteArray) (h : T.Ordinary path id data) (previews : List (Bytes × WriteMode))
    (hpreviews : ∀ c ∈ previews, c.2 ≠ .inPlace) :
    T.afterCalls previews = T ∧
    ((∃ e, Document.Refused path data e ∧
        ∀ mode, (T.formatFile path mode).call.changed = .error e) ∨
      ∃ t v, data = Document.encode t ∧ format t = .ok v ∧
        (∀ mode, (T.formatFile path mode).call.changed = .ok (v != t)) ∧
        (T.formatFile path .stdout).call.printed = v ∧
        (∀ name, T.resolve name = .ok id →
          (T.formatFile path .inPlace).tree.read name = .ok (Document.encode v)) ∧
        ((v != t) = true ↔
          (T.formatFile path .inPlace).tree.fileBytes? id ≠ T.fileBytes? id)) := by
  refine ⟨afterCalls_previews hpreviews T, ?_⟩
  obtain ⟨e, he⟩ | ⟨t, v, rfl, hf⟩ := Document.refused_or_formatted path data
  · exact Or.inl ⟨e, he, h.changed_of_refused he⟩
  · obtain ⟨-, hnames⟩ := h.formatFile_inPlace hf
    refine Or.inr ⟨t, v, rfl, hf, h.changed_of_format hf, (h.formatFile_stdout hf).2,
      fun name hname => (hnames name hname).read, ?_⟩
    rw [(hnames path h.leads).fileBytes?, h.fileBytes?, bne_iff_ne, ne_eq, ne_eq,
      Option.some_inj, Document.encode_inj]

/-- A working folder with one file under the names f and g, and a link l to it. -/
def linkedFile (t : Text) : Tree :=
  { here := root
    nodes := [.folder 0o755 root [([0x66], 1), ([0x67], 1), ([0x6C], 2)],
      .file 0o644 (Document.encode t), .link [0x66]] }

/-- A comparison is formatted through the link. What was printed is read under the other name. -/
theorem a_comparison_is_written_as_it_was_shown :
    let T := linkedFile "a==b".toList
    T.Ordinary [0x6C] 1 (Document.encode "a==b".toList) ∧
      T.afterCalls [([0x66], .check), ([0x67], .stdout)] = T ∧
      (T.formatFile [0x6C] .stdout).call.printed = "a == b".toList ∧
      (T.formatFile [0x6C] .inPlace).tree.read [0x67] =
        .ok (Document.encode "a == b".toList) := by
  intro T
  have hfile : T.Ordinary [0x6C] 1 (Document.encode "a==b".toList) :=
    ⟨rfl, ⟨0o644, rfl, by decide, by decide⟩, rfl⟩
  have hformat : format "a==b".toList = .ok "a == b".toList := by decide
  have hcalls : ∀ c ∈ [(([0x66] : Bytes), WriteMode.check), ([0x67], .stdout)],
      c.2 ≠ .inPlace := by decide
  obtain ⟨hafter, ⟨e, -, he⟩ | ⟨t, v, ht, hf, -, hprinted, hnames, -⟩⟩ :=
    the_modes_agree_on_an_ordinary_file T [0x6C] 1 _ hfile _ hcalls
  · have hfail := he .check
    rw [hfile.changed_of_format hformat] at hfail
    cases hfail
  · obtain rfl := Document.encode_inj.mp ht
    obtain rfl : v = "a == b".toList := Except.ok.inj (hf.symm.trans hformat)
    exact ⟨hfile, hafter, hprinted, hnames [0x67] rfl⟩

end Tree

end Spacing
