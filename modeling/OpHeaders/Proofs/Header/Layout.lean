import OpHeaders.Proofs.Header.Documentation
import OpHeaders.Proofs.Text.Word

/-! Reading a documentation comment back. Captions stand one column behind the marker and
the lines below them further right, so a comment is cut into its sections where a caption
stands; a field begins where a name stands, and what is put in front of a line can be
taken away again. Only a description that has a caption among its own lines can be
mistaken for a section. -/
namespace OpHeaders.Schema

open Text (IsWord)

/-- What an operator is documented with, line by line. -/
structure Documented where
  description : List (List Char)
  inputs : List (String × List (List Char))
  outputs : List (String × List (List Char))
  graphs : List (String × List (List Char))
  attrs : List (String × List (List Char))
  addedIn : List Char
  examples : List (List Char)
deriving DecidableEq

/-- Without a description or examples there are no lines, without a version there is a blank one. -/
def Operator.documented (op : Operator) : Documented where
  description := Header.describedLines (op.description.getD "")
  inputs := op.inputs.map fun t => (t.name, Header.describedLines t.description)
  outputs := op.outputs.map fun t => (t.name, Header.describedLines t.description)
  graphs := op.graphs.map fun g => (g.name, Header.describedLines g.description)
  attrs := op.attrs.map fun a => (a.name, Header.describedLines a.description)
  addedIn := Text.trim (op.addedIn.getD "").toList
  examples := Header.describedLines (op.examples.getD "")

/-- Operators whose documentation can be read back. Nothing is asked of the descriptions of
entries and of the examples. -/
structure Operator.IsReadable (op : Operator) : Prop where
  names : ∀ f ∈ op.fields, IsWord f.1 ∧ f.1 ≠ ""
  addedIn : ∀ v ∈ op.addedIn, '\n' ∉ v.toList
  description : ∀ l ∈ Header.describedLines (op.description.getD ""),
    ∀ name ∈ Header.captionNames, l ≠ '<' :: name.toList ++ ['>']

end OpHeaders.Schema

namespace OpHeaders.Header

open Schema
open Text (trimEnd trim IsWord isWordChar IsTidy IsBlock)

/-! ### Sections -/

theorem caption_eq (name : String) : caption name = marker ++ ' ' :: ('<' :: name.toList ++ ['>']) := by
  simp [caption]

theorem caption_injective : Function.Injective caption := fun m n h => by
  rw [caption_eq, caption_eq] at h
  have hname : m.toList ++ ['>'] = n.toList ++ ['>'] :=
    (List.cons.inj (List.cons.inj (List.append_cancel_left h)).2).2
  exact String.toList_inj.1 (List.append_cancel_right hname)

/-- A section has a caption only if there is something below it. -/
def headed (name : String) (body : List (List Char)) : List (List Char) :=
  if body.isEmpty then [] else caption name :: body

theorem headed_inj {name : String} {b d : List (List Char)} (h : headed name b = headed name d) : b = d := by
  unfold headed at h
  split_ifs at h with hb hd hd
  · rw [List.isEmpty_iff.1 hb, List.isEmpty_iff.1 hd]
  · exact (List.cons.inj h).2

theorem mem_headed {name : String} {b : List (List Char)} {l : List Char} (h : l ∈ headed name b) :
    l = caption name ∨ l ∈ b := by
  unfold headed at h
  split_ifs at h
  · exact absurd h List.not_mem_nil
  · exact List.mem_cons.1 h

theorem head?_flatMap_headed {names : List String} {f : String → List (List Char)} {l : List Char}
    (h : l ∈ (names.flatMap fun n => headed n (f n)).head?) : l ∈ names.map caption := by
  induction names with
  | nil => cases h
  | cons n ns ih =>
    rw [List.flatMap_cons] at h
    unfold headed at h
    split_ifs at h
    · exact List.mem_cons_of_mem _ (ih h)
    · obtain rfl := Option.mem_some_iff.1 h
      exact List.mem_cons_self

/-- What stands in front of the sections can be told from them if no caption is in it. -/
theorem append_flatMap_headed_inj {names : List String} {f g : String → List (List Char)}
    {xs ys : List (List Char)} (hxs : ∀ n ∈ names, caption n ∉ xs) (hys : ∀ n ∈ names, caption n ∉ ys)
    (h : xs ++ names.flatMap (fun n => headed n (f n)) = ys ++ names.flatMap fun n => headed n (g n)) :
    xs = ys ∧ names.flatMap (fun n => headed n (f n)) = names.flatMap fun n => headed n (g n) := by
  have hnot : ∀ zs : List (List Char), (∀ n ∈ names, caption n ∉ zs) →
      ∀ l ∈ zs, (!(names.map caption).contains l) = true := fun zs hzs l hl => by
    simp only [Bool.not_eq_true', List.contains_eq_mem, decide_eq_false_iff_not, List.mem_map, not_exists,
      not_and]
    rintro n hn rfl
    exact hzs n hn hl
  have hhead : ∀ k : String → List (List Char), ∀ l ∈ (names.flatMap fun n => headed n (k n)).head?,
      (!(names.map caption).contains l) = false := fun k l hl => by
    simpa using head?_flatMap_headed hl
  exact Text.append_inj_of_head? (hnot xs hxs) (hnot ys hys) (hhead f) (hhead g) h

/-- Sections can be told from each other if no caption is in the body of an earlier one. -/
theorem eq_of_flatMap_headed_eq {names : List String} {f g : String → List (List Char)} (hnames : names.Nodup)
    (hf : names.Pairwise fun m n => caption n ∉ f m) (hg : names.Pairwise fun m n => caption n ∉ g m)
    (h : names.flatMap (fun n => headed n (f n)) = names.flatMap fun n => headed n (g n)) :
    ∀ n ∈ names, f n = g n := by
  induction names with
  | nil => exact fun n hn => absurd hn List.not_mem_nil
  | cons m ns ih =>
    rw [List.nodup_cons] at hnames
    rw [List.pairwise_cons] at hf hg
    have hnot : ∀ k : String → List (List Char), (∀ n ∈ ns, caption n ∉ k m) →
        ∀ n ∈ ns, caption n ∉ headed m (k m) := fun k hk n hn hmem => by
      rcases mem_headed hmem with heq | hmem
      · exact hnames.1 (caption_injective heq ▸ hn)
      · exact hk n hn hmem
    rw [List.flatMap_cons, List.flatMap_cons] at h
    obtain ⟨hfirst, hrest⟩ := append_flatMap_headed_inj (hnot f hf.1) (hnot g hg.1) h
    rw [List.forall_mem_cons]
    exact ⟨headed_inj hfirst, ih hnames.2 hf.2 hg.2 hrest⟩

/-! ### Lines behind something else -/

theorem isTidy_describedLines (text : String) : IsTidy (describedLines text) := Text.isTidy_lines _

theorem continued_inj {start more : List Char} {ls ms : List (List Char)} (hls : IsTidy ls) (hms : IsTidy ms)
    (h : continued start more ls = continued start more ms) : ls = ms := by
  obtain ⟨hhead, htail⟩ := List.cons.inj h
  have hfirst : ls.headD [] = ms.headD [] :=
    Text.trimEnd_append_inj hls.trimEnd_headD hms.trimEnd_headD hhead
  have hrest : ls.tail = ms.tail := by
    have hid := Text.map_eq_map_of_imp (g := id) (fun l hl m hm => Text.trimEnd_append_inj
      (hls.trimEnd l (List.mem_of_mem_tail hl)) (hms.trimEnd m (List.mem_of_mem_tail hm))) htail
    simpa using hid
  -- an empty first line would be no line
  cases ls with
  | nil =>
    cases ms with
    | nil => rfl
    | cons m ms => exact absurd (congrArg some hfirst.symm) hms.head
  | cons l ls =>
    cases ms with
    | nil => exact absurd (congrArg some hfirst) hls.head
    | cons m ms =>
      obtain rfl : l = m := hfirst
      obtain rfl : ls = ms := hrest
      rfl

theorem paragraphLines_eq (text : String) :
    paragraphLines text = (describedLines text).map fun l => trimEnd ((marker ++ [' ']) ++ l) := by
  simp [paragraphLines]

/-! ### Fields -/

/-- What follows the name on the first line of a field. -/
def afterName (l : List Char) : List Char := " :".toList ++ trimEnd (' ' :: l)

theorem trimEnd_fieldStart_append (name : String) (l : List Char) :
    trimEnd (fieldStart name ++ l) = marker ++ pad fieldIndent ++ (name.toList ++ afterName l) := by
  have hsplit : fieldStart name ++ l =
      (marker ++ pad fieldIndent ++ name.toList ++ [' ']) ++ ':' :: ' ' :: l := by
    simp [fieldStart, separator]
  rw [hsplit, Text.trimEnd_append_cons _ _ (by decide)]
  simp [afterName]

theorem fieldLines_inj {m n s t : String} (hm : IsWord m) (hn : IsWord n)
    (h : fieldLines fieldIndent m s = fieldLines fieldIndent n t) :
    (m, describedLines s) = (n, describedLines t) := by
  have hhead := (List.cons.inj h).1
  change trimEnd (fieldStart m ++ _) = trimEnd (fieldStart n ++ _) at hhead
  rw [trimEnd_fieldStart_append, trimEnd_fieldStart_append] at hhead
  obtain ⟨rfl, -⟩ := hm.append_inj hn (by simp [afterName]; decide) (by simp [afterName]; decide)
    (List.append_cancel_left hhead)
  rw [continued_inj (isTidy_describedLines s) (isTidy_describedLines t) h]

/-- Whether a name starts at the column of the fields. -/
def isFieldStart (l : List Char) : Bool := l[marker.length + fieldIndent]?.any isWordChar

/-- The further lines are indented more than the first one. -/
theorem exists_fieldMore_append_eq (name : String) (l : List Char) :
    ∃ rest, fieldMore name ++ l = marker ++ pad fieldIndent ++ ' ' :: rest := by
  have hsum : fieldIndent + byteLength name.toList + byteLength separator =
      fieldIndent + (1 + (byteLength name.toList + 2)) := by
    have hseparator : byteLength separator = 3 := by decide
    omega
  refine ⟨pad (byteLength name.toList + 2) ++ l, ?_⟩
  rw [fieldMore, hsum]
  simp [pad, List.replicate_add]

/-- Trimming takes from the end of a line only. -/
theorem isFieldStart_fieldMore (name : String) (l : List Char) :
    isFieldStart (trimEnd (fieldMore name ++ l)) = false := by
  obtain ⟨rest, hrest⟩ := exists_fieldMore_append_eq name l
  obtain ⟨t, ht⟩ := Text.isPrefix_trimEnd (fieldMore name ++ l)
  have hblank : (trimEnd (fieldMore name ++ l) ++ t)[marker.length + fieldIndent]? = some ' ' := by
    rw [ht, hrest]
    rfl
  unfold isFieldStart
  cases hc : (trimEnd (fieldMore name ++ l))[marker.length + fieldIndent]? with
  | none => rfl
  | some c =>
    obtain ⟨hlt, -⟩ := List.getElem?_eq_some_iff.1 hc
    rw [List.getElem?_append_left hlt, hc] at hblank
    obtain rfl := Option.some.inj hblank
    decide

theorem isBlock_fieldLines {name : String} (hname : IsWord name) (hne : name ≠ "") (text : String) :
    IsBlock isFieldStart (fieldLines fieldIndent name text) := by
  refine ⟨_, _, rfl, ?_, fun l hl => ?_⟩
  · obtain ⟨c, cs, hcs⟩ := List.exists_cons_of_ne_nil (mt String.toList_eq_nil_iff.1 hne)
    change isFieldStart (trimEnd (fieldStart name ++ _)) = true
    rw [trimEnd_fieldStart_append, hcs]
    exact hname c (hcs ▸ List.mem_cons_self)
  · obtain ⟨m, -, rfl⟩ := List.mem_map.1 hl
    exact isFieldStart_fieldMore name m

/-- The fields of a section tell their names and descriptions. -/
theorem flatMap_fieldLines_inj {fs gs : List (String × String)} (hfs : ∀ f ∈ fs, IsWord f.1 ∧ f.1 ≠ "")
    (hgs : ∀ g ∈ gs, IsWord g.1 ∧ g.1 ≠ "")
    (h : (fs.flatMap fun f => fieldLines fieldIndent f.1 f.2) =
      gs.flatMap fun g => fieldLines fieldIndent g.1 g.2) :
    fs.map (fun f => (f.1, describedLines f.2)) = gs.map fun g => (g.1, describedLines g.2) :=
  Text.map_eq_map_of_imp (fun f hf g hg => fieldLines_inj (hfs f hf).1 (hgs g hg).1)
    (Text.map_eq_map_of_flatMap_eq (fun f hf => isBlock_fieldLines (hfs f hf).1 (hfs f hf).2 f.2)
      (fun g hg => isBlock_fieldLines (hgs g hg).1 (hgs g hg).2 g.2) h)

/-! ### The body of a section -/

/-- The entries that a section lists. -/
def listed (op : Operator) : String → List (String × String)
  | "Input" => op.inputs.map fun t => (t.name, t.description)
  | "Output" => op.outputs.map fun t => (t.name, t.description)
  | "Graph" => op.graphs.map fun g => (g.name, g.description)
  | "Attr" => op.attrs.map fun a => (a.name, a.description)
  | _ => []

/-- What stands below a caption. -/
def body (op : Operator) : String → List (List Char)
  | "Added in HiAI version" =>
    if trim (op.addedIn.getD "").toList = [] then []
    else [marker ++ pad fieldIndent ++ trim (op.addedIn.getD "").toList]
  | "Examples" =>
    if trim (op.examples.getD "").toList = [] then [] else blockLines fieldIndent (op.examples.getD "")
  | name => (listed op name).flatMap fun f => fieldLines fieldIndent f.1 f.2

theorem captioned_eq (name : String) (fields : List (String × String)) :
    captioned name fields = headed name (fields.flatMap fun f => fieldLines fieldIndent f.1 f.2) := by
  cases fields with
  | nil => rfl
  | cons f fs => rfl

theorem versionLines_eq (op : Operator) :
    versionLines op.addedIn = headed "Added in HiAI version" (body op "Added in HiAI version") := by
  unfold versionLines body
  split <;> simp_all [headed]

theorem exampleLines_eq (op : Operator) :
    exampleLines op.examples = headed "Examples" (body op "Examples") := by
  unfold exampleLines body
  split <;> simp_all [headed, blockLines, continued]

theorem innerLines_eq (op : Operator) :
    innerLines op = paragraphLines (op.description.getD "") ++
      captionNames.flatMap fun name => headed name (body op name) := by
  rw [innerLines, versionLines_eq, exampleLines_eq]
  simp only [captioned_eq, captionNames, List.flatMap_cons, List.flatMap_nil, List.append_nil,
    List.append_assoc]
  rfl

/-- Lines that are indented like fields are no captions. -/
theorem caption_ne_of_isPrefix {name : String} {l rest : List Char}
    (h : l <+: marker ++ pad fieldIndent ++ rest) : caption name ≠ l := by
  rintro rfl
  rw [caption_eq, List.append_assoc, List.prefix_append_right_inj] at h
  simp [pad, fieldIndent, List.replicate_succ, List.cons_prefix_cons] at h

theorem caption_not_mem_fieldLines (m name text : String) : caption m ∉ fieldLines fieldIndent name text := by
  intro h
  rcases mem_continued h with h | ⟨l, -, h⟩
  · change caption m = trimEnd (fieldStart name ++ _) at h
    rw [trimEnd_fieldStart_append] at h
    exact caption_ne_of_isPrefix (List.prefix_refl _) h
  · obtain ⟨rest, hrest⟩ := exists_fieldMore_append_eq name l
    change caption m = trimEnd (fieldMore name ++ l) at h
    rw [hrest] at h
    exact caption_ne_of_isPrefix (Text.isPrefix_trimEnd _) h

theorem caption_not_mem_body (op : Operator) {name : String} (hname : name ≠ "Examples") (m : String) :
    caption m ∉ body op name := by
  intro h
  unfold body at h
  split at h
  · split_ifs at h
    · exact absurd h List.not_mem_nil
    · exact caption_ne_of_isPrefix (List.prefix_refl _) (List.mem_singleton.1 h)
  · exact hname rfl
  · obtain ⟨f, -, hf⟩ := List.mem_flatMap.1 h
    exact caption_not_mem_fieldLines m f.1 f.2 hf

/-- The examples may look like captions, but they come last. -/
theorem pairwise_caption_not_mem_body (op : Operator) :
    captionNames.Pairwise fun m n => caption n ∉ body op m := by
  have hlast : captionNames.Pairwise fun m _ => m ≠ "Examples" := by decide
  exact hlast.imp fun hm => caption_not_mem_body op hm _

theorem caption_not_mem_paragraphLines {op : Operator} (hop : op.IsReadable) :
    ∀ n ∈ captionNames, caption n ∉ paragraphLines (op.description.getD "") := by
  intro n hn hmem
  rw [paragraphLines_eq] at hmem
  obtain ⟨l, hl, heq⟩ := List.mem_map.1 hmem
  have hcaption : caption n = (marker ++ [' ']) ++ ('<' :: n.toList ++ ['>']) := by simp [caption]
  have htidy : trimEnd ('<' :: n.toList ++ ['>']) = '<' :: n.toList ++ ['>'] := by
    rw [Text.trimEnd_append_cons _ _ (by decide)]
    rfl
  -- trimmed captions are themselves, so the two trimmed texts are compared
  have htrim : trimEnd (caption n) = caption n := by
    rw [hcaption, Text.trimEnd_append, htidy]
    simp
  rw [← htrim, hcaption] at heq
  exact hop.description l hl n hn
    (Text.trimEnd_append_inj ((isTidy_describedLines _).trimEnd l hl) htidy heq)

/-! ### Reading back -/

theorem paragraphLines_inj {s t : String} (h : paragraphLines s = paragraphLines t) :
    describedLines s = describedLines t := by
  rw [paragraphLines_eq, paragraphLines_eq] at h
  have hid := Text.map_eq_map_of_imp (g := id) (fun l hl m hm => Text.trimEnd_append_inj
    ((isTidy_describedLines s).trimEnd l hl) ((isTidy_describedLines t).trimEnd m hm)) h
  simpa using hid

variable {op rep : Operator}

theorem isWord_of_mem_listed (hop : op.IsReadable) {name : String} :
    ∀ f ∈ listed op name, IsWord f.1 ∧ f.1 ≠ "" := by
  refine fun f hf => hop.names f ?_
  unfold listed at hf
  split at hf <;> simp_all [Operator.fields]

theorem listed_eq_of_body_eq (hop : op.IsReadable) (hrep : rep.IsReadable) {name : String}
    (hname : name ∈ ["Input", "Output", "Graph", "Attr"]) (h : body op name = body rep name) :
    (listed op name).map (fun f => (f.1, describedLines f.2)) =
      (listed rep name).map fun f => (f.1, describedLines f.2) := by
  have hbody : ∀ o, body o name = (listed o name).flatMap fun f => fieldLines fieldIndent f.1 f.2 := by
    intro o
    simp only [List.mem_cons, List.not_mem_nil, or_false] at hname
    rcases hname with rfl | rfl | rfl | rfl <;> rfl
  rw [hbody, hbody] at h
  exact flatMap_fieldLines_inj (isWord_of_mem_listed hop) (isWord_of_mem_listed hrep) h

theorem trim_eq_of_body_eq (h : body op "Added in HiAI version" = body rep "Added in HiAI version") :
    trim (op.addedIn.getD "").toList = trim (rep.addedIn.getD "").toList := by
  simp only [body] at h
  split_ifs at h with hop hrep hrep
  · rw [hop, hrep]
  · exact List.append_cancel_left (List.singleton_inj.1 h)

theorem describedLines_eq_of_body_eq (h : body op "Examples" = body rep "Examples") :
    describedLines (op.examples.getD "") = describedLines (rep.examples.getD "") := by
  simp only [body] at h
  split_ifs at h with hop hrep hrep
  · rw [describedLines_eq_nil hop, describedLines_eq_nil hrep]
  · cases h
  · cases h
  · exact continued_inj (isTidy_describedLines _) (isTidy_describedLines _) h

theorem newline_not_mem_of_isReadable (hop : op.IsReadable) : ∀ l ∈ documentation op, '\n' ∉ l :=
  newline_not_mem_documentation (fun f hf => (hop.names f hf).1.not_mem (by decide)) hop.addedIn

/-- Comments with the same text document the same. -/
theorem documented_eq_of_unlines_eq (hop : op.IsReadable) (hrep : rep.IsReadable)
    (h : Text.unlines (documentation op) = Text.unlines (documentation rep)) :
    op.documented = rep.documented := by
  have hlines : documentation op = documentation rep :=
    Text.unlines_injOn (newline_not_mem_of_isReadable hop) (newline_not_mem_of_isReadable hrep) h
  have hinner : innerLines op = innerLines rep :=
    (List.cons.inj (List.append_cancel_right hlines)).2
  rw [innerLines_eq, innerLines_eq] at hinner
  obtain ⟨hparagraph, hsections⟩ := append_flatMap_headed_inj (caption_not_mem_paragraphLines hop)
    (caption_not_mem_paragraphLines hrep) hinner
  have hbody := eq_of_flatMap_headed_eq (by decide) (pairwise_caption_not_mem_body op)
    (pairwise_caption_not_mem_body rep) hsections
  have hlisted : ∀ name ∈ ["Input", "Output", "Graph", "Attr"],
      (listed op name).map (fun f => (f.1, describedLines f.2)) =
        (listed rep name).map fun f => (f.1, describedLines f.2) := fun name hname =>
    have hcaption : name ∈ captionNames := List.mem_append_left ["Added in HiAI version", "Examples"] hname
    listed_eq_of_body_eq hop hrep hname (hbody name hcaption)
  have hinputs := hlisted "Input" (by decide)
  have houtputs := hlisted "Output" (by decide)
  have hgraphs := hlisted "Graph" (by decide)
  have hattrs := hlisted "Attr" (by decide)
  simp only [listed, List.map_map] at hinputs houtputs hgraphs hattrs
  simp only [Operator.documented, Documented.mk.injEq]
  exact ⟨paragraphLines_inj hparagraph, hinputs, houtputs, hgraphs, hattrs,
    trim_eq_of_body_eq (hbody _ (by decide)), describedLines_eq_of_body_eq (hbody _ (by decide))⟩

/-- An operator with the looks of sections and fields in its texts. -/
def imitation (description version examples : String) : Operator where
  name := "Add"
  description := some description
  addedIn := some version
  examples := some examples
  inputs := [
    { name := "x", types := "DT_FLOAT", description := "<Output>\n    y : z" },
    { name := "y", types := "" }]

theorem isReadable_imitation {description version : String} (hversion : '\n' ∉ version.toList)
    (hdescription : ∀ l ∈ describedLines description,
      ∀ name ∈ captionNames, l ≠ '<' :: name.toList ++ ['>'])
    (examples : String) : (imitation description version examples).IsReadable where
  names := (by decide : ∀ f ∈ [("x", "<Output>\n    y : z"), ("y", "")], IsWord f.1 ∧ f.1 ≠ "")
  addedIn := by simpa [imitation] using hversion
  description := hdescription

theorem documented_eq_of_imitation :
    (imitation "Adds.\n\n <Input>" "1.0 " "a\n <Examples>").IsReadable ∧
    (imitation "\"Adds. \n\n <Input>\"" "1.0" "\"a\n <Examples>\"").IsReadable ∧
    Text.unlines (documentation (imitation "Adds.\n\n <Input>" "1.0 " "a\n <Examples>")) =
      Text.unlines (documentation (imitation "\"Adds. \n\n <Input>\"" "1.0" "\"a\n <Examples>\"")) ∧
    (imitation "Adds.\n\n <Input>" "1.0 " "a\n <Examples>").documented =
      (imitation "\"Adds. \n\n <Input>\"" "1.0" "\"a\n <Examples>\"").documented := by
  have hone : (imitation "Adds.\n\n <Input>" "1.0 " "a\n <Examples>").IsReadable :=
    isReadable_imitation (by decide) (by decide +kernel) _
  have htwo : (imitation "\"Adds. \n\n <Input>\"" "1.0" "\"a\n <Examples>\"").IsReadable :=
    isReadable_imitation (by decide) (by decide +kernel) _
  have heq : documentation (imitation "Adds.\n\n <Input>" "1.0 " "a\n <Examples>") =
      documentation (imitation "\"Adds. \n\n <Input>\"" "1.0" "\"a\n <Examples>\"") := by
    decide +kernel
  exact ⟨hone, htwo, congrArg _ heq, documented_eq_of_unlines_eq hone htwo (congrArg _ heq)⟩

end OpHeaders.Header
