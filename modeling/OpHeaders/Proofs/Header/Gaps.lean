import OpHeaders.Proofs.Header.Layout
import OpHeaders.Proofs.Header.Margin

/-! Where a documentation comment has nothing but a marker on a line. The comment is told as a
list of passages, each with the text that it shows. A passage shows the lines of its text, so a
bare marker is a gap of that text; only examples that are a pair of quotes around blanks are shown
although they have no lines. -/
namespace OpHeaders.Header

open Schema
open Text (trimEnd trim split isAllBlank unquote IsGap IsQuotedBlank)

/-! ### Passages -/

/-- What a comment consists of. -/
inductive Passage
  | caption (name : String)
  | paragraph (text : String)
  | field (name text : String)
  | version (v : List Char)
  | block (text : String)
deriving DecidableEq

namespace Passage

def lines : Passage → List (List Char)
  | caption name => [Header.caption name]
  | paragraph text => paragraphLines text
  | field name text => fieldLines fieldIndent name text
  | version v => [marker ++ pad fieldIndent ++ v]
  | block text => blockLines fieldIndent text

/-- The description or the examples that a passage shows. -/
def text? : Passage → Option String
  | paragraph text | field _ text | block text => some text
  | caption _ | version _ => none

/-- Whether every bare marker of a passage stems from a gap of the text that the passage shows. -/
def HasGapsOnly (p : Passage) : Prop :=
  ∀ i, p.lines[i]? = some marker → ∃ text, p.text? = some text ∧ IsGap (unquote text.toList) i

end Passage

def captionedPassages (name : String) (fields : List (String × String)) : List Passage :=
  if fields.isEmpty then [] else .caption name :: fields.map fun f => .field f.1 f.2

def versionPassages (version : Option String) : List Passage :=
  if trim (version.getD "").toList = [] then []
  else [.caption "Added in HiAI version", .version (trim (version.getD "").toList)]

def examplePassages (examples : Option String) : List Passage :=
  if trim (examples.getD "").toList = [] then [] else [.caption "Examples", .block (examples.getD "")]

/-- The passages of a comment in their order. -/
def passages (op : Operator) : List Passage :=
  .paragraph (op.description.getD "") ::
    captionedPassages "Input" (op.inputs.map fun t => (t.name, t.description)) ++
    captionedPassages "Output" (op.outputs.map fun t => (t.name, t.description)) ++
    captionedPassages "Graph" (op.graphs.map fun g => (g.name, g.description)) ++
    captionedPassages "Attr" (op.attrs.map fun a => (a.name, a.description)) ++
    versionPassages op.addedIn ++
    examplePassages op.examples

theorem flatMap_captionedPassages (name : String) (fields : List (String × String)) :
    (captionedPassages name fields).flatMap Passage.lines = captioned name fields := by
  unfold captionedPassages captioned
  split_ifs
  · rfl
  · rw [List.flatMap_cons, List.flatMap_map]
    rfl

theorem flatMap_versionPassages (op : Operator) :
    (versionPassages op.addedIn).flatMap Passage.lines = versionLines op.addedIn := by
  rw [versionLines_eq, versionPassages, body]
  split_ifs <;> rfl

theorem flatMap_examplePassages (op : Operator) :
    (examplePassages op.examples).flatMap Passage.lines = exampleLines op.examples := by
  rw [exampleLines_eq, examplePassages, body]
  split_ifs
  · rfl
  · simp [Passage.lines, headed, blockLines, continued]

theorem innerLines_eq_flatMap (op : Operator) : innerLines op = (passages op).flatMap Passage.lines := by
  simp only [passages, List.flatMap_append, List.flatMap_cons, flatMap_captionedPassages,
    flatMap_versionPassages, flatMap_examplePassages]
  rfl

theorem innerRows_eq_innerLines {op : Operator} (hnames : ∀ f ∈ op.fields, '\n' ∉ f.1.toList)
    (hversion : ∀ v ∈ op.addedIn, '\n' ∉ v.toList) : innerRows op = innerLines op := by
  rw [innerRows, Text.rows_unlines_of_not_mem (newline_not_mem_documentation hnames hversion), documentation,
    List.cons_append, List.tail_cons, List.dropLast_concat]

/-! ### Bare markers -/

theorem trimEnd_marker_append_eq_marker_iff {s : List Char} :
    trimEnd (marker ++ s) = marker ↔ isAllBlank s = true := by
  rw [trimEnd_marker_append, List.append_right_eq_self, Text.trimEnd_eq_nil_iff]

theorem isAllBlank_pad (n : Nat) : isAllBlank (pad n) = true := by
  rw [Text.isAllBlank_iff]
  intro c hc
  rw [List.eq_of_mem_replicate hc]
  decide

/-- Behind a marker and spaces only an empty line of a description leaves the marker bare. -/
theorem trimEnd_marker_pad_append_eq_marker_iff {n : Nat} {l : List Char} (hl : trimEnd l = l) :
    trimEnd (marker ++ pad n ++ l) = marker ↔ l = [] := by
  rw [List.append_assoc, trimEnd_marker_append_eq_marker_iff, Text.isAllBlank_append, isAllBlank_pad,
    Bool.true_and, ← Text.trimEnd_eq_nil_iff, hl]

theorem isGap_of_trimEnd_eq_marker {text : String} {i n : Nat} {l : List Char}
    (hl : (describedLines text)[i]? = some l) (hbare : trimEnd (marker ++ pad n ++ l) = marker) :
    IsGap (unquote text.toList) i := by
  have htrim := (isTidy_describedLines text).trimEnd l (List.mem_of_getElem? hl)
  rw [trimEnd_marker_pad_append_eq_marker_iff htrim] at hbare
  exact Text.isGap_of_getElem?_lines (hbare ▸ hl)

theorem isGap_of_continued {start : List Char} {text : String} {i n : Nat}
    (hfirst : trimEnd (start ++ (describedLines text).headD []) ≠ marker)
    (h : (continued start (marker ++ pad n) (describedLines text))[i]? = some marker) :
    IsGap (unquote text.toList) i := by
  cases i with
  | zero => exact absurd (Option.some.inj h) hfirst
  | succ i =>
    rw [continued, List.getElem?_cons_succ, List.getElem?_map, Option.map_eq_some_iff] at h
    obtain ⟨l, hl, hbare⟩ := h
    rw [List.getElem?_tail] at hl
    exact isGap_of_trimEnd_eq_marker hl hbare

theorem headD_describedLines_eq_nil_iff (text : String) :
    (describedLines text).headD [] = [] ↔ isAllBlank (unquote text.toList) = true := by
  have hhead := (isTidy_describedLines text).head
  rw [← Text.lines_eq_nil_iff, ← describedLines]
  cases hlines : describedLines text with
  | nil => exact iff_of_true rfl rfl
  | cons l ls =>
    rw [hlines] at hhead
    exact iff_of_false (fun hl => hhead (congrArg some hl)) (List.cons_ne_nil l ls)

namespace Passage

theorem hasGapsOnly_caption (name : String) : (caption name).HasGapsOnly := by
  intro i h
  have hcaption := List.mem_singleton.1 (List.mem_of_getElem? h)
  have hlength := congrArg List.length hcaption
  simp [Header.caption, marker] at hlength

theorem hasGapsOnly_version (v : List Char) : (version v).HasGapsOnly := by
  intro i h
  have hversion := List.mem_singleton.1 (List.mem_of_getElem? h)
  have hlength := congrArg List.length hversion
  simp [pad, fieldIndent, marker] at hlength

theorem hasGapsOnly_paragraph (text : String) : (paragraph text).HasGapsOnly := by
  intro i h
  rw [lines, paragraphLines_eq, List.getElem?_map, Option.map_eq_some_iff] at h
  obtain ⟨l, hl, hbare⟩ := h
  exact ⟨text, rfl, isGap_of_trimEnd_eq_marker (n := 1) hl hbare⟩

/-- The separator shows behind every name. -/
theorem hasGapsOnly_field (name text : String) : (field name text).HasGapsOnly := by
  refine fun i h => ⟨text, rfl, isGap_of_continued ?_ h⟩
  simp only [List.append_assoc, ne_eq, trimEnd_marker_append_eq_marker_iff, Text.isAllBlank_append]
  have hseparator : isAllBlank separator = false := by decide
  simp [hseparator]

theorem hasGapsOnly_block_iff (text : String) :
    (block text).HasGapsOnly ↔ isAllBlank (unquote text.toList) = false := by
  have hbare : trimEnd (marker ++ pad fieldIndent ++ (describedLines text).headD []) = marker ↔
      isAllBlank (unquote text.toList) = true :=
    (trimEnd_marker_pad_append_eq_marker_iff (isTidy_describedLines text).trimEnd_headD).trans
      (headD_describedLines_eq_nil_iff text)
  rw [← Bool.not_eq_true, ← hbare]
  constructor
  · intro hgaps hfirst
    obtain ⟨t, ht, hgap⟩ := hgaps 0 (congrArg some hfirst)
    obtain rfl : text = t := Option.some.inj ht
    exact Text.not_isGap_of_isAllBlank (hbare.1 hfirst) 0 hgap
  · exact fun hfirst i h => ⟨text, rfl, isGap_of_continued (n := 0) hfirst h⟩

/-- Only a block can show a marker for a text that has no lines. -/
theorem hasGapsOnly_iff (p : Passage) :
    p.HasGapsOnly ↔ ∀ text, p = block text → isAllBlank (unquote text.toList) = false := by
  cases p with
  | caption name => exact iff_of_true (hasGapsOnly_caption name) fun _ h => by cases h
  | paragraph text => exact iff_of_true (hasGapsOnly_paragraph text) fun _ h => by cases h
  | field name text => exact iff_of_true (hasGapsOnly_field name text) fun _ h => by cases h
  | version v => exact iff_of_true (hasGapsOnly_version v) fun _ h => by cases h
  | block text =>
    rw [hasGapsOnly_block_iff]
    exact ⟨fun h t ht => block.inj ht ▸ h, fun h => h text rfl⟩

end Passage

/-! ### The examples -/

theorem mem_captionedPassages {name : String} {fields : List (String × String)} {p : Passage}
    (h : p ∈ captionedPassages name fields) : p = .caption name ∨ ∃ f ∈ fields, p = .field f.1 f.2 := by
  unfold captionedPassages at h
  split_ifs at h
  · exact absurd h List.not_mem_nil
  · rcases List.mem_cons.1 h with h | h
    · exact .inl h
    · obtain ⟨f, hf, rfl⟩ := List.mem_map.1 h
      exact .inr ⟨f, hf, rfl⟩

theorem mem_examplePassages_iff {examples : Option String} {p : Passage} : p ∈ examplePassages examples ↔
    isAllBlank (examples.getD "").toList = false ∧
      (p = .caption "Examples" ∨ p = .block (examples.getD "")) := by
  have htrim := Text.trim_eq_nil_iff (s := (examples.getD "").toList)
  unfold examplePassages
  split_ifs with h
  · simp [htrim.1 h]
  · rw [htrim, Bool.not_eq_true] at h
    simp [h]

/-- Blocks and the caption of the examples are for the examples only. -/
theorem mem_passages_iff {op : Operator} {p : Passage} (hp : p = .caption "Examples" ∨ ∃ text, p = .block text) :
    p ∈ passages op ↔ p ∈ examplePassages op.examples := by
  have hcaptioned : ∀ (name : String) (fields : List (String × String)), name ≠ "Examples" →
      p ∉ captionedPassages name fields := fun name fields hname hmem => by
    rcases mem_captionedPassages hmem with rfl | ⟨f, -, rfl⟩
    · simp [hname] at hp
    · simp at hp
  have hversion : p ∉ versionPassages op.addedIn := fun hmem => by
    unfold versionPassages at hmem
    split_ifs at hmem
    · exact absurd hmem List.not_mem_nil
    · rcases List.mem_pair.1 hmem with rfl | rfl <;> simp at hp
  have hparagraph : p ≠ .paragraph (op.description.getD "") := by
    rintro rfl
    simp at hp
  simp [passages, hcaptioned, hversion, hparagraph]

/-- For names and a version on one line, the examples are captioned just when one of their lines is not
blank, and all bare markers are gaps, if and only if the examples are not a pair of quotes around
blanks. -/
theorem hasGapsOnly_passages_iff (op : Operator) (hnames : ∀ f ∈ op.fields, '\n' ∉ f.1.toList)
    (hversion : ∀ v ∈ op.addedIn, '\n' ∉ v.toList) :
    innerRows op = (passages op).flatMap Passage.lines ∧
    ((.caption "Examples" ∈ passages op ↔
        ∃ l ∈ split '\n' (unquote (op.examples.getD "").toList), isAllBlank l = false) ↔
      ¬ IsQuotedBlank (op.examples.getD "").toList) ∧
    ((∀ p ∈ passages op, p.HasGapsOnly) ↔ ¬ IsQuotedBlank (op.examples.getD "").toList) := by
  refine ⟨by rw [innerRows_eq_innerLines hnames hversion, innerLines_eq_flatMap], ?_, ?_⟩
  · have hcaption : .caption "Examples" ∈ passages op ↔ isAllBlank (op.examples.getD "").toList = false :=
      (mem_passages_iff (.inl rfl)).trans (mem_examplePassages_iff.trans (and_iff_left (.inl rfl)))
    rw [hcaption, Text.exists_mem_split_iff, Text.not_isQuotedBlank_iff]
  · rw [Text.isQuotedBlank_iff]
    simp only [Passage.hasGapsOnly_iff]
    constructor
    · rintro hall ⟨hne, hblank⟩
      have hblock : .block (op.examples.getD "") ∈ passages op :=
        (mem_passages_iff (.inr ⟨_, rfl⟩)).2 (mem_examplePassages_iff.2 ⟨hne, .inr rfl⟩)
      exact absurd ((hall _ hblock _ rfl).symm.trans hblank) (by decide)
    · rintro hnot p hp text rfl
      obtain ⟨hne, htext⟩ := mem_examplePassages_iff.1 ((mem_passages_iff (.inr ⟨text, rfl⟩)).1 hp)
      obtain rfl : text = op.examples.getD "" := by simpa using htext
      rw [← Bool.not_eq_true]
      exact fun hblank => hnot ⟨hne, hblank⟩

/-- An operator with gaps, and with a field that has nothing to show. -/
def gapped (examples : String) : Operator where
  name := "Add"
  description := some "\n Adds.\n \t\n\n  Elementwise. \n\n"
  addedIn := some "1"
  examples := some examples
  inputs := [{ name := "x", types := "DT_FLOAT", description := "\"\n left\n\n right\n \"" },
    { name := "y", types := "DT_FLOAT", description := "\" \"" }]

theorem hasGapsOnly_passages_gapped :
    (∀ f ∈ (gapped "\"\n\nadd\n \n x\n\"").fields, '\n' ∉ f.1.toList) ∧
    (∀ v ∈ (gapped "\"\n\nadd\n \n x\n\"").addedIn, '\n' ∉ v.toList) ∧
    (innerRows (gapped "\"\n\nadd\n \n x\n\"")).count marker = 4 ∧
    ∀ p ∈ passages (gapped "\"\n\nadd\n \n x\n\""), p.HasGapsOnly := by
  have hnames : ∀ f ∈ (gapped "\"\n\nadd\n \n x\n\"").fields, '\n' ∉ f.1.toList := by decide
  have hversion : ∀ v ∈ (gapped "\"\n\nadd\n \n x\n\"").addedIn, '\n' ∉ v.toList := by decide
  refine ⟨hnames, hversion, by decide +kernel, ?_⟩
  exact (hasGapsOnly_passages_iff _ hnames hversion).2.2.2 (Text.not_isQuotedBlank_iff.2 (by decide +kernel))

/-- Empty quotes are captioned, and a bare marker is below the caption. -/
theorem not_hasGapsOnly_passages_gapped :
    (∀ f ∈ (gapped "\"\"").fields, '\n' ∉ f.1.toList) ∧ (∀ v ∈ (gapped "\"\"").addedIn, '\n' ∉ v.toList) ∧
    .caption "Examples" ∈ passages (gapped "\"\"") ∧
    (¬ ∃ l ∈ split '\n' (unquote "\"\"".toList), isAllBlank l = false) ∧
    ¬ ∀ p ∈ passages (gapped "\"\""), p.HasGapsOnly := by
  refine ⟨by decide, by decide, by decide +kernel, by decide, fun hall => ?_⟩
  have hblock := hall (.block "\"\"") (by decide +kernel)
  exact absurd ((Passage.hasGapsOnly_block_iff _).1 hblock) (by decide)

end OpHeaders.Header
