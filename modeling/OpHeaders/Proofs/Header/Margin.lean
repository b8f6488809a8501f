import OpHeaders.Proofs.Header.Documentation

/-! The margin of a documentation comment. Descriptions and examples are cut into their lines
before the marker is put in front, so they stay behind it, whatever they are. Only the version
is put behind one marker as a whole: its further lines stand behind a marker only if they bring
it along. -/
namespace OpHeaders.Schema

/-- An operator without its version. -/
def Operator.unversioned (op : Operator) : Operator := { op with addedIn := none }

/-- The lines of the version; a single empty one if it is absent or blank. -/
def Operator.versionRows (op : Operator) : List (List Char) :=
  Text.split '\n' (Text.trim (op.addedIn.getD "").toList)

end OpHeaders.Schema

namespace OpHeaders.Header

open Schema
open Text (trimEnd trim split rows)

/-! ### Rows -/

/-- The rows of the documentation between the opening and the closing one. -/
def innerRows (op : Operator) : List (List Char) := (rows (Text.unlines (documentation op))).tail.dropLast

theorem rows_unlines_documentation (op : Operator) : rows (Text.unlines (documentation op)) =
    "/*".toList :: (innerLines op).flatMap (split '\n') ++ [" */".toList] := by
  have hopening : split '\n' "/*".toList = ["/*".toList] := by decide
  have hclosing : split '\n' " */".toList = [" */".toList] := by decide
  rw [Text.rows_unlines, documentation, List.flatMap_append, List.flatMap_cons, List.flatMap_singleton,
    hopening, hclosing, List.singleton_append]

theorem innerRows_eq (op : Operator) : innerRows op = (innerLines op).flatMap (split '\n') := by
  rw [innerRows, rows_unlines_documentation, List.cons_append, List.tail_cons, List.dropLast_concat]

/-- Nothing but the version brings a newline into a line whose name has none. -/
theorem split_of_mem_unversioned {op : Operator} (hnames : ∀ f ∈ op.fields, '\n' ∉ f.1.toList)
    {l : List Char} (h : l ∈ innerLines op.unversioned) : split '\n' l = [l] := by
  refine Text.split_of_not_mem (newline_not_mem_of_innerLine (innerLine_of_mem h) hnames ?_)
  exact fun v hv => by cases hv

theorem mem_innerLines_iff {op : Operator} {l : List Char} :
    l ∈ innerLines op ↔ l ∈ innerLines op.unversioned ∨ l ∈ versionLines op.addedIn := by
  have hnone : versionLines none = [] := rfl
  simp only [innerLines, Operator.unversioned, List.mem_append, hnone, List.not_mem_nil, or_false]
  exact or_right_comm

/-! ### Behind the marker -/

/-- Lines that start with the marker and have no blanks at their ends. -/
structure IsMarked (l : List Char) : Prop where
  marker : Header.marker <+: l
  trimEnd : Text.trimEnd l = l

theorem isMarked_caption {name : String} (h : name ∈ captionNames) : IsMarked (caption name) := by
  have hall : ∀ n ∈ captionNames, Header.marker <+: caption n ∧ trimEnd (caption n) = caption n := by decide
  exact ⟨(hall name h).1, (hall name h).2⟩

theorem isMarked_of_innerLine {op : Operator} {l : List Char} (h : InnerLine op l)
    (hversion : op.addedIn = none) : IsMarked l := by
  refine ⟨isPrefix_marker h, ?_⟩
  cases h with
  | caption hname => exact (isMarked_caption hname).trimEnd
  | version hv => exact absurd (hv.symm.trans hversion) (Option.some_ne_none _)
  | _ => exact Text.trimEnd_trimEnd _

/-- The first line of a version is laid out as one, the others stand as they are. -/
theorem flatMap_split_versionLines {op : Operator} {c : Char} {s : List Char}
    (h : trim (op.addedIn.getD "").toList = c :: s) : ∃ l ls,
    op.versionRows = (c :: l) :: ls ∧ (versionLines op.addedIn).flatMap (split '\n') =
      caption "Added in HiAI version" :: (marker ++ pad fieldIndent ++ c :: l) :: ls := by
  have hc : c ≠ '\n' := by
    rintro rfl
    exact absurd (Text.isBlank_of_trim_eq_cons h) (by decide)
  obtain ⟨l, ls, hl⟩ := Text.exists_split_eq_cons '\n' s
  have hversion : split '\n' (c :: s) = (c :: l) :: ls := by
    rw [Text.split_cons, if_neg hc, hl, List.modifyHead_cons]
  have hmargin : '\n' ∉ marker ++ pad fieldIndent := by decide
  have hcaption : split '\n' (caption "Added in HiAI version") = [caption "Added in HiAI version"] := by decide
  refine ⟨l, ls, by rw [Operator.versionRows, h, hversion], ?_⟩
  rw [versionLines, h, List.flatMap_cons, List.flatMap_singleton, hcaption,
    Text.split_append_of_not_mem hmargin, hversion]
  rfl

theorem forall_isMarked_versionLines_iff (op : Operator) :
    (∀ l ∈ (versionLines op.addedIn).flatMap (split '\n'), IsMarked l) ↔
      (∀ v ∈ op.versionRows, trimEnd v = v) ∧ ∀ v ∈ op.versionRows.tail, marker <+: v := by
  cases h : trim (op.addedIn.getD "").toList with
  | nil =>
    have hrows : op.versionRows = [[]] := by rw [Operator.versionRows, h]; rfl
    have hnil : versionLines op.addedIn = [] := by rw [versionLines, h]
    simp [hrows, hnil, trimEnd]
  | cons c s =>
    obtain ⟨l, ls, hrows, hlines⟩ := flatMap_split_versionLines h
    have hfirst : IsMarked (marker ++ pad fieldIndent ++ c :: l) ↔ trimEnd (c :: l) = c :: l := by
      have hc := Text.isBlank_of_trim_eq_cons h
      have htrim : trimEnd (c :: l) = c :: trimEnd l := Text.trimEnd_append_cons [] l hc
      constructor
      · intro hmarked
        have heq := hmarked.trimEnd
        rw [Text.trimEnd_append_cons _ _ hc] at heq
        rw [htrim]
        exact List.append_cancel_left heq
      · refine fun heq => ⟨by rw [List.append_assoc]; exact List.prefix_append marker _, ?_⟩
        rw [Text.trimEnd_append_cons _ _ hc, ← htrim, heq]
    have hrest : (∀ m ∈ ls, IsMarked m) ↔ (∀ m ∈ ls, trimEnd m = m) ∧ ∀ m ∈ ls, marker <+: m :=
      ⟨fun hall => ⟨fun m hm => (hall m hm).trimEnd, fun m hm => (hall m hm).marker⟩,
        fun hall m hm => ⟨hall.2 m hm, hall.1 m hm⟩⟩
    rw [hlines, hrows, List.forall_mem_cons, List.forall_mem_cons, List.forall_mem_cons, List.tail_cons,
      hfirst, hrest, and_assoc, and_iff_right (isMarked_caption (by decide))]

/-- For names on one line, every row of the documentation is marked if and only if the version keeps
to the margin by itself: none of its lines has blanks at the end, and all but the first start with the
marker. -/
theorem forall_isMarked_innerRows_iff (op : Operator) (hnames : ∀ f ∈ op.fields, '\n' ∉ f.1.toList) :
    rows (Text.unlines (documentation op)) = "/*".toList :: innerRows op ++ [" */".toList] ∧
    ((∀ l ∈ innerRows op, IsMarked l) ↔
      (∀ v ∈ op.versionRows, trimEnd v = v) ∧ ∀ v ∈ op.versionRows.tail, marker <+: v) := by
  refine ⟨by rw [rows_unlines_documentation, innerRows_eq], ?_⟩
  rw [← forall_isMarked_versionLines_iff, innerRows_eq, List.forall_mem_flatMap, List.forall_mem_flatMap]
  constructor
  · exact fun hall l hl => hall l (mem_innerLines_iff.2 (.inr hl))
  · intro hversion l hl
    rcases mem_innerLines_iff.1 hl with hl | hl
    · rw [split_of_mem_unversioned hnames hl]
      simpa using isMarked_of_innerLine (innerLine_of_mem hl) rfl
    · exact hversion l hl

/-- An operator with lines of all kinds. -/
def versioned (version : String) : Operator where
  name := "Add"
  description := some "Adds. \r\n\n  REG_OP(Sub)"
  addedIn := some version
  examples := some "a\n b \n*/"
  inputs := [{ name := "x ", types := "DT_FLOAT", description := "\"left \nright\"" }]

theorem forall_isMarked_innerRows_versioned :
    (∀ f ∈ (versioned " 1\n * 2 ").fields, '\n' ∉ f.1.toList) ∧
    ∀ l ∈ innerRows (versioned " 1\n * 2 "), IsMarked l := by
  have hnames : ∀ f ∈ (versioned " 1\n * 2 ").fields, '\n' ∉ f.1.toList := by decide
  exact ⟨hnames, (forall_isMarked_innerRows_iff _ hnames).2.2 (by decide +kernel)⟩

/-- The second line of a version gets out of the margin. -/
theorem not_forall_isMarked_innerRows_versioned :
    (∀ f ∈ (versioned "1\n2").fields, '\n' ∉ f.1.toList) ∧
    ¬ ∀ l ∈ innerRows (versioned "1\n2"), IsMarked l := by
  refine ⟨by decide, fun hall => ?_⟩
  have hsecond := (hall ['2'] (by decide +kernel)).marker
  exact absurd hsecond (by decide)

end OpHeaders.Header
