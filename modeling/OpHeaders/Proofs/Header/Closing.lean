import Mathlib.Data.List.Chain
import OpHeaders.Header.Text
import OpHeaders.Proofs.Header.Documentation
import OpHeaders.Proofs.Text.Quoted

/-! Where the documentation comment of an operator ends. Texts without the end of a comment
cannot bring one about: blanks keep the marker apart from what it marks. Only the further
lines of the examples follow the marker at once, so a slash at the start of one of them,
and nothing else, closes the comment too early. -/
namespace OpHeaders.Header

open Schema
open Text (trimEnd trim unescape unquote)

def commentEnd : List Char := "*/".toList

/-- Texts that do not close a comment. -/
def StaysOpen (s : List Char) : Prop := ¬ commentEnd <:+: s

/-- No star is next to a slash. -/
theorem staysOpen_iff {s : List Char} : StaysOpen s ↔ s.IsChain fun c d => ¬ (c = '*' ∧ d = '/') := by
  rw [List.isChain_iff_forall_rel_of_append_cons_cons]
  constructor
  · rintro h c d before after rfl ⟨rfl, rfl⟩
    exact h ⟨before, after, by simp [commentEnd]⟩
  · rintro h ⟨before, after, hs⟩
    exact h (by rw [← hs]; simp [commentEnd]; rfl) ⟨rfl, rfl⟩

instance (s : List Char) : Decidable (StaysOpen s) := decidable_of_iff _ staysOpen_iff.symm

namespace StaysOpen

variable {s t : List Char}

theorem of_infix (h : StaysOpen s) (ht : t <:+: s) : StaysOpen t := fun hend => h (hend.trans ht)

theorem trimEnd (h : StaysOpen s) : StaysOpen (trimEnd s) := h.of_infix (Text.isPrefix_trimEnd s).isInfix

/-- A comment may be closed where two texts meet. -/
theorem append_iff :
    StaysOpen (s ++ t) ↔ StaysOpen s ∧ StaysOpen t ∧ (s.getLast? = some '*' → t.head? ≠ some '/') := by
  simp only [staysOpen_iff, List.isChain_append]
  refine and_congr_right fun _ => and_congr_right fun _ => ⟨fun h hs ht => ?_, fun h c hc d hd => ?_⟩
  · exact h '*' hs '/' ht ⟨rfl, rfl⟩
  · rintro ⟨rfl, rfl⟩
    exact h hc hd

theorem append (hs : StaysOpen s) (ht : StaysOpen t) (h : s.getLast? ≠ some '*') : StaysOpen (s ++ t) :=
  append_iff.2 ⟨hs, ht, fun hstar => absurd hstar h⟩

theorem unlines_iff {ls : List (List Char)} : StaysOpen (Text.unlines ls) ↔ ∀ l ∈ ls, StaysOpen l := by
  have hnewline : StaysOpen ['\n'] := by decide
  induction ls with
  | nil => simpa using (by decide : StaysOpen [])
  | cons l ls ih =>
    rw [Text.unlines_cons, List.append_cons, append_iff, append_iff]
    simp [hnewline, ih]

/-! ### Descriptions -/

theorem head?_unescape (h : (unescape s).head? = some '/') : s.head? = some '/' := by
  fun_cases unescape s <;> simp_all [unescape]

theorem unescape (h : StaysOpen s) : StaysOpen (unescape s) := by
  rw [staysOpen_iff] at h ⊢
  fun_induction Text.unescape s with
  | case1 => exact h
  | case2 s ih =>
    rw [List.isChain_cons_cons, List.isChain_cons] at h
    rw [List.isChain_cons]
    exact ⟨by simp, ih h.2.2⟩
  | case3 s c _ ih =>
    rw [List.isChain_cons] at h ⊢
    refine ⟨fun d hd hcd => ?_, ih h.2⟩
    obtain ⟨rfl, rfl⟩ := hcd
    exact h.1 '/' (head?_unescape hd) ⟨rfl, rfl⟩

theorem unquote (h : StaysOpen s) : StaysOpen (unquote s) := by
  rcases Text.unquote_cases s with ⟨u, rfl, hunquote⟩ | hsame
  · rw [hunquote]
    exact (h.of_infix ⟨['"'], ['"'], rfl⟩).unescape
  · rwa [hsame]

theorem describedLines {text : String} (h : StaysOpen text.toList) {l : List Char}
    (hl : l ∈ describedLines text) : StaysOpen l :=
  h.unquote.of_infix (Text.isInfix_of_mem_lines hl)

end StaysOpen

/-! ### Lines -/

theorem staysOpen_getD {text : Option String} (h : ∀ s ∈ text, StaysOpen s.toList) :
    StaysOpen (text.getD "").toList := by
  cases text with
  | none => exact (by decide : StaysOpen [])
  | some s => exact h s rfl

theorem staysOpen_headD_describedLines {text : String} (h : StaysOpen text.toList) :
    StaysOpen ((describedLines text).headD []) :=
  Text.headD_of_forall_mem (by decide) fun _ hl => h.describedLines hl

/-- Blanks behind the marker keep it apart from any text. -/
theorem staysOpen_marker_pad_append {n : Nat} (hn : 0 < n) {s : List Char} (hs : StaysOpen s) :
    StaysOpen (marker ++ pad n ++ s) := by
  obtain ⟨n, rfl⟩ := Nat.exists_eq_succ_of_ne_zero hn.ne'
  have hpad : StaysOpen (pad (n + 1)) := fun h => by
    have hstar : '*' ∈ pad (n + 1) := h.subset (by decide)
    simp [pad] at hstar
  refine StaysOpen.append (StaysOpen.append_iff.2 ⟨by decide, hpad, fun _ => ?_⟩) hs ?_
  · simp [pad, List.replicate_succ]
  · rw [pad, List.replicate_succ', ← List.append_assoc, List.getLast?_concat]
    decide

theorem staysOpen_of_innerLine {op : Operator} {l : List Char} (h : InnerLine op l)
    (htexts : ∀ s ∈ op.documentedTexts, StaysOpen s.toList)
    (hmore : ∀ m ∈ (describedLines (op.examples.getD "")).tail, m.head? ≠ some '/') : StaysOpen l := by
  have hfields : ∀ f ∈ op.fields, StaysOpen f.1.toList ∧ StaysOpen f.2.toList := fun f hf =>
    ⟨htexts f.1 (List.mem_append_right _ (List.mem_flatMap.2 ⟨f, hf, by simp⟩)),
      htexts f.2 (List.mem_append_right _ (List.mem_flatMap.2 ⟨f, hf, by simp⟩))⟩
  have hexamples : StaysOpen (op.examples.getD "").toList :=
    staysOpen_getD fun s hs => htexts s (by simp [Operator.documentedTexts, Option.mem_def.1 hs])
  cases h with
  | paragraph hl =>
    have hdescription : StaysOpen (op.description.getD "").toList :=
      staysOpen_getD fun s hs => htexts s (by simp [Operator.documentedTexts, Option.mem_def.1 hs])
    exact (staysOpen_marker_pad_append Nat.one_pos (hdescription.describedLines hl)).trimEnd
  | @caption name hname =>
    have hall : ∀ n ∈ captionNames, StaysOpen (caption n) := by decide
    exact hall name hname
  | @field f hf =>
    -- the separator keeps the name apart from the description
    have hseparator : StaysOpen (separator ++ (describedLines f.2).headD []) :=
      StaysOpen.append (by decide) (staysOpen_headD_describedLines (hfields f hf).2) (by decide)
    have hname : StaysOpen (f.1.toList ++ (separator ++ (describedLines f.2).headD [])) :=
      StaysOpen.append_iff.2 ⟨(hfields f hf).1, hseparator, fun _ => by simp [separator]⟩
    have hindent : 0 < fieldIndent := by decide
    simpa only [fieldStart, List.append_assoc] using (staysOpen_marker_pad_append hindent hname).trimEnd
  | @fieldMore f l hf hl =>
    have hindent : 0 < fieldIndent + byteLength f.1.toList + byteLength separator := by
      unfold fieldIndent
      omega
    have hline := (hfields f hf).2.describedLines (List.mem_of_mem_tail hl)
    exact (staysOpen_marker_pad_append hindent hline).trimEnd
  | @version v hv =>
    have hversion : StaysOpen v.toList := htexts v (by simp [Operator.documentedTexts, hv])
    exact staysOpen_marker_pad_append (by decide) (hversion.of_infix (Text.isInfix_trim v.toList))
  | block =>
    exact (staysOpen_marker_pad_append (by decide) (staysOpen_headD_describedLines hexamples)).trimEnd
  | blockMore hl =>
    have hopen := hexamples.describedLines (List.mem_of_mem_tail hl)
    exact (StaysOpen.append_iff.2 ⟨by decide, hopen, fun _ => hmore _ hl⟩).trimEnd

/-! ### The end of the comment -/

/-- Whether the first place of `t` in `s` is behind `before`. -/
def IsFirst (t before s : List Char) : Prop :=
  before ++ t <+: s ∧ ∀ b, b ++ t <+: s → before.length ≤ b.length

/-- The text in front of the end of the documentation: the opening line, the lines of the
documentation and the blank of the closing line. -/
def opening (op : Operator) : List Char := Text.unlines ("/*".toList :: innerLines op) ++ [' ']

/-- The registration block follows the closing line. -/
theorem exists_operatorText_eq (op : Operator) :
    ∃ after, (operatorText op).toList = opening op ++ commentEnd ++ "\nREG_OP(".toList ++ after := by
  refine ⟨op.name.toList ++ ')' :: '\n' :: Text.unlines (registration op).tail, ?_⟩
  have hhead : registration op = call "REG_OP" op.name.toList :: (registration op).tail := rfl
  rw [operatorText, String.toList_ofList, operatorLines, documentation, hhead]
  simp [opening, commentEnd, call]

/-- A comment ends where it is closed first. -/
theorem isFirst_commentEnd_iff {before s : List Char} (h : before ++ commentEnd <+: s) :
    IsFirst commentEnd before s ↔ StaysOpen (before ++ ['*']) := by
  have hstar : before ++ ['*'] <+: s :=
    ((List.prefix_append_right_inj before).2 (by decide : ['*'] <+: commentEnd)).trans h
  constructor
  · rintro ⟨-, hfirst⟩ ⟨b, rest, hb⟩
    have hbefore : b ++ commentEnd <+: before ++ ['*'] := hb ▸ List.prefix_append (b ++ commentEnd) rest
    have hlen := hfirst b (hbefore.trans hstar)
    have hlength := congrArg List.length hb
    simp [commentEnd] at hlength
    omega
  · refine fun hopen => ⟨h, fun b hb => ?_⟩
    by_contra hlt
    have hlen : (b ++ commentEnd).length ≤ (before ++ ['*']).length := by
      simp [commentEnd]
      omega
    have hinfix := List.prefix_of_prefix_length_le hb hstar hlen
    exact hopen ((List.suffix_append b commentEnd).isInfix.trans hinfix.isInfix)

theorem staysOpen_opening_iff (op : Operator) :
    StaysOpen (opening op ++ ['*']) ↔ ∀ l ∈ innerLines op, StaysOpen l := by
  have hslash : StaysOpen ['/', '*'] := by decide
  have hend : StaysOpen [' ', '*'] := by decide
  rw [opening, List.append_assoc, StaysOpen.append_iff, StaysOpen.unlines_iff]
  simp [hslash, hend]

/-- A further line of the examples that starts with a slash closes the comment. -/
theorem exists_not_staysOpen {op : Operator} {l : List Char}
    (hl : l ∈ (describedLines (op.examples.getD "")).tail) (hslash : l.head? = some '/') :
    ∃ m ∈ innerLines op, ¬ StaysOpen m := by
  refine ⟨trimEnd (marker ++ l), mem_innerLines_of_mem_tail hl, fun hopen => ?_⟩
  obtain ⟨s, rfl⟩ : ∃ s, l = '/' :: s := ⟨l.tail, (List.cons_head?_tail hslash).symm⟩
  rw [Text.trimEnd_append_cons marker s (by decide)] at hopen
  exact (StaysOpen.append_iff.1 hopen).2.2 rfl rfl

/-- For documentation without the end of a comment in it, the first end of a comment is that
of the closing line, in front of the registration block, if and only if no line of the
examples but the first starts with a slash. -/
theorem isFirst_commentEnd_operatorText_iff (op : Operator)
    (htexts : ∀ s ∈ op.documentedTexts, StaysOpen s.toList) :
    (∃ after, (operatorText op).toList = opening op ++ commentEnd ++ "\nREG_OP(".toList ++ after) ∧
    (IsFirst commentEnd (opening op) (operatorText op).toList ↔
      ∀ l ∈ (describedLines (op.examples.getD "")).tail, l.head? ≠ some '/') := by
  obtain ⟨after, hafter⟩ := exists_operatorText_eq op
  refine ⟨⟨after, hafter⟩, ?_⟩
  rw [isFirst_commentEnd_iff (by rw [hafter, List.append_assoc]; exact List.prefix_append _ _),
    staysOpen_opening_iff]
  constructor
  · intro hopen l hl hslash
    obtain ⟨m, hm, hclosed⟩ := exists_not_staysOpen hl hslash
    exact hclosed (hopen m hm)
  · exact fun hmore l hl => staysOpen_of_innerLine (innerLine_of_mem hl) htexts hmore

/-- An operator with stars and slashes all over its documentation. -/
def starred (examples : String) : Operator where
  name := "Mul"
  description := some "/ x *"
  examples := some examples
  inputs := [{ name := "*", types := "DT_FLOAT", description := "/ y\n/ z" }]

theorem isFirst_commentEnd_starred :
    (∀ s ∈ (starred "a *\n /b").documentedTexts, StaysOpen s.toList) ∧
    IsFirst commentEnd (opening (starred "a *\n /b")) (operatorText (starred "a *\n /b")).toList := by
  have htexts : ∀ s ∈ (starred "a *\n /b").documentedTexts, StaysOpen s.toList := by decide +kernel
  exact ⟨htexts, (isFirst_commentEnd_operatorText_iff _ htexts).2.2 (by decide +kernel)⟩

/-- A slash at the start of the second line of the examples closes the comment there. -/
theorem not_isFirst_commentEnd_starred :
    (∀ s ∈ (starred "a\n/b").documentedTexts, StaysOpen s.toList) ∧
    ¬ IsFirst commentEnd (opening (starred "a\n/b")) (operatorText (starred "a\n/b")).toList := by
  refine ⟨by decide +kernel, fun h => ?_⟩
  have hlines := (staysOpen_opening_iff _).1 ((isFirst_commentEnd_iff h.1).1 h)
  have hopen := hlines " */b".toList (by decide +kernel)
  exact absurd hopen (by decide)

end OpHeaders.Header
