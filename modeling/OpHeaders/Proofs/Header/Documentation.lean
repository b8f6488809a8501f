import OpHeaders.Header.Documentation
import OpHeaders.Proofs.Text.Gaps

/-! The lines of a documentation comment. There are seven kinds of them, by the text that
they show and by what stands between the marker and that text. -/
namespace OpHeaders.Schema

/-- The names and the descriptions of all entries of an operator. -/
def Operator.fields (op : Operator) : List (String × String) :=
  op.inputs.map (fun t => (t.name, t.description)) ++ op.outputs.map (fun t => (t.name, t.description)) ++
    op.graphs.map (fun g => (g.name, g.description)) ++ op.attrs.map (fun a => (a.name, a.description))

/-- All texts that an operator is documented with. -/
def Operator.documentedTexts (op : Operator) : List String :=
  op.description.toList ++ op.addedIn.toList ++ op.examples.toList ++ op.fields.flatMap fun f => [f.1, f.2]

end OpHeaders.Schema

namespace OpHeaders.Header

open Schema
open Text (trimEnd trim)

/-- The captions of the sections. -/
def captionNames : List String := ["Input", "Output", "Graph", "Attr", "Added in HiAI version", "Examples"]

/-- The first line of a field without what is behind its separator. -/
def fieldStart (name : String) : List Char := marker ++ pad fieldIndent ++ name.toList ++ separator

/-- What the further lines of a field start with. -/
def fieldMore (name : String) : List Char :=
  marker ++ pad (fieldIndent + byteLength name.toList + byteLength separator)

/-- The lines between the opening and the closing one of a comment. -/
inductive InnerLine (op : Operator) : List Char → Prop
  | paragraph {l : List Char} (h : l ∈ describedLines (op.description.getD "")) :
    InnerLine op (trimEnd (marker ++ ' ' :: l))
  | caption {name : String} (h : name ∈ captionNames) : InnerLine op (caption name)
  | field {f : String × String} (h : f ∈ op.fields) :
    InnerLine op (trimEnd (fieldStart f.1 ++ (describedLines f.2).headD []))
  | fieldMore {f : String × String} {l : List Char} (h : f ∈ op.fields)
    (hl : l ∈ (describedLines f.2).tail) : InnerLine op (trimEnd (fieldMore f.1 ++ l))
  | version {v : String} (h : op.addedIn = some v) :
    InnerLine op (marker ++ pad fieldIndent ++ trim v.toList)
  | block : InnerLine op
    (trimEnd (marker ++ pad fieldIndent ++ (describedLines (op.examples.getD "")).headD []))
  | blockMore {l : List Char} (h : l ∈ (describedLines (op.examples.getD "")).tail) :
    InnerLine op (trimEnd (marker ++ l))

theorem mem_continued {start more l : List Char} {ls : List (List Char)}
    (h : l ∈ continued start more ls) :
    l = trimEnd (start ++ ls.headD []) ∨ ∃ m ∈ ls.tail, l = trimEnd (more ++ m) := by
  unfold continued at h
  rcases List.mem_cons.1 h with h | h
  · exact .inl h
  · obtain ⟨m, hm, rfl⟩ := List.mem_map.1 h
    exact .inr ⟨m, hm, rfl⟩

theorem innerLine_of_mem_captioned {op : Operator} {name : String} {fields : List (String × String)}
    {l : List Char} (hname : name ∈ captionNames) (hfields : ∀ f ∈ fields, f ∈ op.fields)
    (h : l ∈ captioned name fields) : InnerLine op l := by
  unfold captioned at h
  split_ifs at h
  · exact absurd h List.not_mem_nil
  · rcases List.mem_cons.1 h with rfl | h
    · exact .caption hname
    · obtain ⟨f, hf, hl⟩ := List.mem_flatMap.1 h
      rcases mem_continued hl with rfl | ⟨m, hm, rfl⟩
      · exact .field (hfields f hf)
      · exact .fieldMore (hfields f hf) hm

theorem innerLine_of_mem_versionLines {op : Operator} {l : List Char} (h : l ∈ versionLines op.addedIn) :
    InnerLine op l := by
  unfold versionLines at h
  cases hv : op.addedIn with
  | none => simp [hv, trim, Text.trimStart, trimEnd] at h
  | some v =>
    split at h
    · exact absurd h List.not_mem_nil
    · rw [hv, Option.getD_some] at h
      rcases List.mem_cons.1 h with rfl | h
      · exact .caption (by decide)
      · obtain rfl := List.mem_singleton.1 h
        exact .version hv

theorem innerLine_of_mem_exampleLines {op : Operator} {l : List Char} (h : l ∈ exampleLines op.examples) :
    InnerLine op l := by
  unfold exampleLines at h
  split at h
  · exact absurd h List.not_mem_nil
  · rcases List.mem_cons.1 h with rfl | h
    · exact .caption (by decide)
    · rcases mem_continued h with rfl | ⟨m, hm, rfl⟩
      · exact .block
      · exact .blockMore hm

theorem innerLine_of_mem {op : Operator} {l : List Char} (h : l ∈ innerLines op) : InnerLine op l := by
  unfold innerLines at h
  simp only [List.mem_append] at h
  rcases h with (((((h | h) | h) | h) | h) | h) | h
  · obtain ⟨m, hm, rfl⟩ := List.mem_map.1 h
    exact .paragraph hm
  · exact innerLine_of_mem_captioned (by decide) (fun f hf => by simp [Operator.fields, hf]) h
  · exact innerLine_of_mem_captioned (by decide) (fun f hf => by simp [Operator.fields, hf]) h
  · exact innerLine_of_mem_captioned (by decide) (fun f hf => by simp [Operator.fields, hf]) h
  · exact innerLine_of_mem_captioned (by decide) (fun f hf => by simp [Operator.fields, hf]) h
  · exact innerLine_of_mem_versionLines h
  · exact innerLine_of_mem_exampleLines h

/-- Quotes are not blank, so a blank text has no lines whether quoted or not. -/
theorem describedLines_eq_nil {text : String} (h : trim text.toList = []) : describedLines text = [] :=
  Text.lines_eq_nil_iff.2 (Text.isAllBlank_unquote (Text.trim_eq_nil_iff.1 h))

/-- The further lines of the examples stand at the marker. -/
theorem mem_innerLines_of_mem_tail {op : Operator} {l : List Char}
    (h : l ∈ (describedLines (op.examples.getD "")).tail) : trimEnd (marker ++ l) ∈ innerLines op := by
  refine List.mem_append_right _ ?_
  unfold exampleLines
  split
  · next hblank =>
    rw [describedLines_eq_nil hblank] at h
    exact absurd h List.not_mem_nil
  · exact List.mem_cons_of_mem _ (List.mem_cons_of_mem _ (List.mem_map_of_mem h))

/-! ### Markers and newlines -/

theorem trimEnd_marker_append (s : List Char) : trimEnd (marker ++ s) = marker ++ trimEnd s :=
  Text.trimEnd_append_cons [' '] s (by decide)

theorem isPrefix_marker {op : Operator} {l : List Char} (h : InnerLine op l) : marker <+: l := by
  cases h with
  | paragraph => rw [trimEnd_marker_append]; exact List.prefix_append marker _
  | caption => simp only [caption, List.append_assoc]; exact List.prefix_append marker _
  | field =>
    simp only [fieldStart, List.append_assoc, trimEnd_marker_append]
    exact List.prefix_append marker _
  | fieldMore =>
    simp only [fieldMore, List.append_assoc, trimEnd_marker_append]
    exact List.prefix_append marker _
  | version => rw [List.append_assoc]; exact List.prefix_append marker _
  | block => rw [List.append_assoc, trimEnd_marker_append]; exact List.prefix_append marker _
  | blockMore => rw [trimEnd_marker_append]; exact List.prefix_append marker _

theorem newline_not_mem_headD_describedLines (text : String) : '\n' ∉ (describedLines text).headD [] :=
  Text.headD_of_forall_mem (P := fun l => '\n' ∉ l) List.not_mem_nil fun _ hl =>
    Text.newline_not_mem_of_mem_lines hl

theorem newline_not_mem_pad (n : Nat) : '\n' ∉ pad n := by simp [pad]

/-- Descriptions and examples have no part in this: only names and the version may bring a
newline into a line. -/
theorem newline_not_mem_of_innerLine {op : Operator} {l : List Char} (h : InnerLine op l)
    (hnames : ∀ f ∈ op.fields, '\n' ∉ f.1.toList) (hversion : ∀ v ∈ op.addedIn, '\n' ∉ v.toList) :
    '\n' ∉ l := by
  have htrim : ∀ s : List Char, '\n' ∉ s → '\n' ∉ trimEnd s := fun s hs hn =>
    hs ((Text.isPrefix_trimEnd s).subset hn)
  have htail : ∀ {text : String} {l : List Char}, l ∈ (describedLines text).tail → '\n' ∉ l := fun hl =>
    Text.newline_not_mem_of_mem_lines (List.mem_of_mem_tail hl)
  have hmarker : '\n' ∉ marker := by decide
  cases h with
  | paragraph hl => exact htrim _ (by simp [hmarker, Text.newline_not_mem_of_mem_lines hl])
  | @caption name hname =>
    have hall : ∀ n ∈ captionNames, '\n' ∉ caption n := by decide
    exact hall name hname
  | @field f hf =>
    have hseparator : '\n' ∉ separator := by decide
    refine htrim _ ?_
    simp only [fieldStart, List.mem_append, not_or]
    exact ⟨⟨⟨⟨hmarker, newline_not_mem_pad _⟩, hnames f hf⟩, hseparator⟩,
      newline_not_mem_headD_describedLines f.2⟩
  | fieldMore _ hl => exact htrim _ (by simp [fieldMore, hmarker, newline_not_mem_pad, htail hl])
  | @version v hv =>
    have hv : '\n' ∉ trim v.toList := fun hn => hversion v hv ((Text.isInfix_trim _).subset hn)
    simp [hmarker, newline_not_mem_pad, hv]
  | block =>
    refine htrim _ ?_
    simp only [List.mem_append, not_or]
    exact ⟨⟨hmarker, newline_not_mem_pad _⟩, newline_not_mem_headD_describedLines _⟩
  | blockMore hl => exact htrim _ (by simp [hmarker, htail hl])

theorem newline_not_mem_documentation {op : Operator} (hnames : ∀ f ∈ op.fields, '\n' ∉ f.1.toList)
    (hversion : ∀ v ∈ op.addedIn, '\n' ∉ v.toList) : ∀ l ∈ documentation op, '\n' ∉ l := by
  intro l hl
  unfold documentation at hl
  rcases List.mem_append.1 hl with hl | hl
  · rcases List.mem_cons.1 hl with rfl | hl
    · decide
    · exact newline_not_mem_of_innerLine (innerLine_of_mem hl) hnames hversion
  · obtain rfl := List.mem_singleton.1 hl
    decide

end OpHeaders.Header
