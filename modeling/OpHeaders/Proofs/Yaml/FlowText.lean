import OpHeaders.Proofs.Text.Printable
import OpHeaders.Yaml.Token.Lexer

/-! Documents in flow style, written on one line from single marks with a blank in front of each. Their
tokens are those of the marks, one mark after the other: no mark changes what stands before it. -/
namespace OpHeaders.Yaml

open Text (IsWord isPrintable isPrintable_of_isWordChar isWordChar)

/-- A piece of a document in flow style. Keys are announced, and all texts are in quotes. -/
inductive Mark where
  | sequence
  | sequenceEnd
  | mapping
  | mappingEnd
  | entry
  | field (name : String)
  | word (text : String)
  | anchor (name : String)
  | alias (name : String)

namespace Mark

def text : Mark → List Char
  | .sequence => [' ', '[']
  | .sequenceEnd => [' ', ']']
  | .mapping => [' ', '\x7b']
  | .mappingEnd => [' ', '\x7d']
  | .entry => [' ', ',']
  | .field name => [' ', '?', ' ', '"'] ++ name.toList ++ ['"', ' ', ':']
  | .word text => [' ', '"'] ++ text.toList ++ ['"']
  | .anchor name => [' ', '&'] ++ name.toList
  | .alias name => [' ', '*'] ++ name.toList

def tokens : Mark → List Token
  | .sequence => [.flowSequence]
  | .sequenceEnd => [.flowSequenceEnd]
  | .mapping => [.flowMapping]
  | .mappingEnd => [.flowMappingEnd]
  | .entry => [.flowEntry]
  | .field name => [.key, .scalar .quoted name, .value]
  | .word text => [.scalar .quoted text]
  | .anchor name => [.anchor name]
  | .alias name => [.alias name]

/-- Texts and names are words, names not empty. -/
def IsWritable : Mark → Prop
  | .field s | .word s => IsWord s
  | .anchor s | .alias s => IsWord s ∧ s.toList ≠ []
  | _ => True

instance : (m : Mark) → Decidable m.IsWritable
  | .field s | .word s => inferInstanceAs (Decidable (IsWord s))
  | .anchor s | .alias s => inferInstanceAs (Decidable (IsWord s ∧ s.toList ≠ []))
  | .sequence | .sequenceEnd | .mapping | .mappingEnd | .entry => isTrue trivial

/-- The number of open collections behind a mark. Outside of all only a collection may stand. -/
def depth? : Nat → Mark → Option Nat
  | depth, .sequence | depth, .mapping => some (depth + 1)
  | 0, _ => none
  | depth + 1, .sequenceEnd | depth + 1, .mappingEnd => some depth
  | depth + 1, _ => some (depth + 1)

end Mark

/-! ### Glyphs -/

/-- The glyphs of a line of printable characters are these, counted. -/
theorem placeFrom_line {cs : List Char} (h : ∀ c ∈ cs, isPrintable c = true) (i : Nat) (placed : List Glyph) :
    placeFrom i 0 i placed cs =
      placed.reverse ++ ((cs ++ [endChar]).zipIdx i).map fun c => ⟨c.1, c.2, 0, c.2⟩ := by
  induction cs generalizing i placed with
  | nil => simp [placeFrom]
  | cons c cs ih =>
    rw [List.forall_mem_cons] at h
    have hplain : c.utf8Size = 1 ∧ c ≠ '\r' ∧ c ≠ '\u0085' ∧ isBreakChar c = false :=
      Text.forall_of_isPrintable
        (P := fun c => c.utf8Size = 1 ∧ c ≠ '\r' ∧ c ≠ '\u0085' ∧ isBreakChar c = false) (by decide) h.1
    rw [placeFrom]
    · simp [hplain, ih h.2]
    · rintro s rfl
      exact absurd rfl hplain.2.1

theorem isAllowed_of_isPrintable {c : Char} (hc : isPrintable c = true) : isAllowed c = true :=
  Text.forall_of_isPrintable (P := fun c => isAllowed c = true) (by decide) hc

theorem glyphs?_line {text : String} (h : ∀ c ∈ text.toList, isPrintable c = true) :
    glyphs? text = some ((text.toList ++ [endChar]).zipIdx.map fun c => ⟨c.1, c.2, 0, c.2⟩) := by
  rw [glyphs?, if_pos (List.all_eq_true.mpr fun c hc => isAllowed_of_isPrintable (h c hc)), placeFrom_line h,
    List.reverse_nil, List.nil_append]

/-! ### Words -/

theorem isWord_of_isWordChar {g : Glyph} (h : isWordChar g.char = true) : g.isWord = true := by
  rw [isWordChar, Bool.or_eq_true] at h
  rw [Glyph.isWord, Bool.or_eq_true, Bool.or_eq_true]
  exact .inl h

/-- What is no part of a word. -/
theorem ne_of_isWordChar {g : Glyph} (h : isWordChar g.char = true) {c : Char} (hc : isWordChar c = false) :
    g.char ≠ c := by
  rintro rfl
  exact Bool.false_ne_true (hc.symm.trans h)

theorem quotedFrom_word {gs rest : List Glyph} {q : Glyph} (hgs : ∀ g ∈ gs, isWordChar g.char = true)
    (hq : q.char = '"') (text : List Char) : quotedFrom true text .word (gs ++ q :: rest) =
      some (String.ofList (text.reverse ++ chars gs), rest) := by
  induction gs generalizing text with
  | nil => simp [quotedFrom, Glyph.isEnd, Glyph.isBlank, Glyph.isBreak, isBreakChar, hq, endChar, chars]
  | cons g gs ih =>
    rw [List.forall_mem_cons] at hgs
    have hne : ∀ c, isWordChar c = false → g.char ≠ c := fun c => ne_of_isWordChar hgs.1
    have hend : g.isEnd = false := decide_eq_false (hne endChar (by decide))
    have hblank : g.isBlank = false := by
      simp [Glyph.isBlank, hne ' ' (by decide), hne '\t' (by decide)]
    have hbreak : g.isBreak = false := by
      simp [Glyph.isBreak, isBreakChar, hne '\n' (by decide), hne '\u2028' (by decide), hne '\u2029' (by decide)]
    rw [List.cons_append, quotedFrom]
    simp [hend, hblank, hbreak, hne '"' (by decide), hne '\\' (by decide), ih hgs.2, chars]

theorem isWord_of_isSeparator {g : Glyph} (h : g.isSeparator = true) : g.isWord = false := by
  simp only [Glyph.isSeparator, Glyph.isBlank, Glyph.isBreakOrEnd, Glyph.isBreak, isBreakChar, Glyph.isEnd,
    Bool.or_eq_true, decide_eq_true_eq] at h
  rcases h with (h | h) | ((h | h) | h) | h
  all_goals
    rw [Glyph.isWord, h]
    decide

theorem readName_word {gs rest : List Glyph} (hgs : ∀ g ∈ gs, isWordChar g.char = true) (hne : gs ≠ [])
    (hrest : nextSeparates rest = true) : readName (gs ++ rest) = some (String.ofList (chars gs), rest) := by
  have hword : ∀ g ∈ gs, g.isWord = true := fun g hg => isWord_of_isWordChar (hgs g hg)
  have hstop : rest.takeWhile Glyph.isWord = [] ∧ rest.dropWhile Glyph.isWord = rest := by
    cases rest with
    | nil => simp
    | cons g rest =>
      have hg : g.isWord = false := isWord_of_isSeparator hrest
      simp [hg]
  rw [readName, List.takeWhile_append_of_pos hword, List.dropWhile_append_of_pos hword, hstop.1, hstop.2]
  simp [hrest, hne]

/-! ### The lexer -/

namespace Lexer

variable {l : Lexer} {depth : Nat} {c : Char} {cs : List Char} {ts : List Token} {g : Glyph} {gs : List Glyph}

/-- In a line of flow style: `depth` collections are open, the characters in front are `cs`, and nothing
behind has to become a key. -/
structure IsInLine (l : Lexer) (depth : Nat) (cs : List Char) (ts : List Token) : Prop where
  rest : chars l.rest = cs
  column : ∀ g ∈ l.rest.tail, g.column ≠ 0
  tokens : l.tokens.toList = ts
  flowDepth : l.flowDepth = depth
  indent : l.indent = -1
  outerIndents : l.outerIndents = []
  candidates : ∀ c ∈ l.candidates, ∀ x ∈ c, x.required = false

/-- The lexer before the glyph `g`, with the candidates that are not too far before it. -/
def before (l : Lexer) (g : Glyph) (gs : List Glyph) : Lexer :=
  { l with rest := g :: gs, candidates := l.candidates.map (·.filter (!candidateIsStale g ·)) }

/-- A token may begin with the character. -/
def isStart (c : Char) : Bool :=
  !isBreakChar c && c ≠ ' ' && c ≠ '\t' && c ≠ '\ufeff' && c ≠ '#' && c ≠ endChar

theorem skipFrom_of_isStart (inFlow keyAllowed : Bool) (hg : isStart g.char = true) :
    skipFrom inFlow keyAllowed false (g :: gs) = (keyAllowed, g :: gs) := by
  simp only [isStart, Bool.and_eq_true, Bool.not_eq_true', decide_eq_true_eq, ne_eq] at hg
  obtain ⟨⟨⟨⟨⟨hbreak, hspace⟩, htab⟩, hmark⟩, hcomment⟩, -⟩ := hg
  simp [skipFrom, Glyph.isBreak, hbreak, hspace, Glyph.isTab, htab, hmark, hcomment]

theorem skipToToken_of_isStart {b : Glyph} (hrest : l.rest = b :: g :: gs) (hb : b.char = ' ')
    (hg : isStart g.char = true) : l.skipToToken = { l with rest := g :: gs } := by
  have hskip : skipFrom l.inFlow l.keyAllowed false (b :: g :: gs) = (l.keyAllowed, g :: gs) := by
    rw [skipFrom]
    simp [Glyph.isBreak, isBreakChar, hb, skipFrom_of_isStart _ _ hg]
  rw [skipToToken, hrest, hskip]

theorem IsInLine.close_eq (h : l.IsInLine depth cs ts) (column : Int) : l.close column = l := by
  rw [close, h.outerIndents]
  split_ifs
  · rfl
  · rw [closeFrom, ← h.outerIndents]

theorem IsInLine.dropStale?_eq (h : l.IsInLine depth cs ts) (g : Glyph) :
    l.dropStale? g = some { l with candidates := l.candidates.map (·.filter (!candidateIsStale g ·)) } := by
  rw [dropStale?, if_neg]
  rw [List.any_eq_true]
  rintro ⟨c, hc, hstale⟩
  cases c with
  | none => cases hstale
  | some x =>
    rw [Option.any_some, h.candidates _ hc x rfl, Bool.and_false] at hstale
    cases hstale

theorem IsInLine.keepCandidates (h : l.IsInLine depth cs ts) (g : Glyph) :
    IsInLine { l with candidates := l.candidates.map (·.filter (!candidateIsStale g ·)) } depth cs ts := by
  refine { h with candidates := fun c' hc' x hx => ?_ }
  obtain ⟨c, hc, rfl⟩ := List.mem_map.mp hc'
  exact h.candidates c hc x (Option.filter_eq_some_iff.mp hx).1

/-- A token begins with the character `c`, which is not the first of its line. -/
structure Begins (l : Lexer) (g : Glyph) (c : Char) : Prop where
  char : g.char = c
  column : g.column ≠ 0
  unmarked : ∀ c, startsDocumentMark c l.rest = false

theorem begins_before (hg : g.char = c) (hcolumn : g.column ≠ 0) (gs : List Glyph) : (l.before g gs).Begins g c := by
  refine ⟨hg, hcolumn, fun c => ?_⟩
  unfold startsDocumentMark
  split
  · next h =>
    cases h
    simp [hcolumn]
  · rfl

theorem IsInLine.before (h : l.IsInLine depth (' ' :: c :: cs) ts) (hc : isStart c = true) :
    ∃ g gs, (l.before g gs).Begins g c ∧ (l.before g gs).IsInLine depth (c :: cs) ts ∧
      ∀ k, run (k + 1) l = ((l.before g gs).token? g gs).bind (run k) := by
  obtain ⟨b, rest, hb, hbc, hrest⟩ := List.map_eq_cons_iff.mp h.rest
  obtain ⟨g, gs, rfl, hg, hgs⟩ := List.map_eq_cons_iff.mp hrest
  have hcolumn : ∀ g' ∈ g :: gs, g'.column ≠ 0 := by
    have := h.column
    rwa [hb] at this
  have hskipped : IsInLine { l with rest := g :: gs } depth (c :: cs) ts :=
    ⟨hrest, fun g' hg' => hcolumn g' (List.mem_cons_of_mem g hg'), h.tokens, h.flowDepth, h.indent,
      h.outerIndents, h.candidates⟩
  have hbefore : (l.before g gs).IsInLine depth (c :: cs) ts := hskipped.keepCandidates g
  refine ⟨g, gs, begins_before hg (hcolumn g List.mem_cons_self) gs, hbefore, fun k => ?_⟩
  have hend : g.isEnd = false := by
    simp only [isStart, Bool.and_eq_true, decide_eq_true_eq, ne_eq] at hc
    simpa [Glyph.isEnd, hg] using hc.2
  rw [run, skipToToken_of_isStart hb hbc (hg ▸ hc)]
  simp only [hskipped.dropStale?_eq]
  rw [Option.bind_eq_bind, Option.bind_some]
  change (if g.isEnd = true then _ else ((l.before g gs).close g.column).token? g gs >>= run k) = _
  rw [if_neg (by simp [hend]), hbefore.close_eq]
  rfl

/-! ### Tokens -/

theorem IsInLine.push (h : l.IsInLine depth cs ts) (t : Token) : (l.push t).IsInLine depth cs (ts ++ [t]) :=
  { h with tokens := by rw [Lexer.push, Array.toList_push, h.tokens] }

theorem IsInLine.drop (h : l.IsInLine depth (c :: cs) ts) : (l.drop 1).IsInLine depth cs ts := by
  obtain ⟨g, gs, hrest, -, hgs⟩ := List.map_eq_cons_iff.mp h.rest
  have hcolumn := h.column
  rw [hrest] at hcolumn
  refine { h with rest := ?_, column := ?_ }
  · rw [Lexer.drop, hrest]
    exact hgs
  · rw [Lexer.drop, hrest]
    exact fun g' hg' => hcolumn g' (List.mem_of_mem_tail hg')

theorem IsInLine.allowKey (h : l.IsInLine depth cs ts) (allowed : Bool) :
    (l.allowKey allowed).IsInLine depth cs ts := { h with }

theorem IsInLine.inFlow (h : l.IsInLine (depth + 1) cs ts) : l.inFlow = true := by
  rw [Lexer.inFlow, h.flowDepth]
  rfl

/-- Behind a mark for a key nothing may become a key of its own. -/
structure IsAnnounced (l : Lexer) : Prop where
  keyAllowed : l.keyAllowed = false
  candidates : ∀ c outer, l.candidates ≠ some c :: outer

theorem IsAnnounced.before (h : l.IsAnnounced) (g : Glyph) (gs : List Glyph) : (l.before g gs).IsAnnounced := by
  refine ⟨h.keyAllowed, fun c outer hcandidates => ?_⟩
  obtain ⟨c', outer', hl, hc', -⟩ := List.map_eq_cons_iff.mp hcandidates
  cases c' with
  | none => cases hc'
  | some x => exact h.candidates x outer' hl

/-- No candidate stands in the way; afterwards the innermost place is free. -/
theorem IsInLine.dropCandidate (h : l.IsInLine depth cs ts) :
    ∃ l', l.dropCandidate? = some l' ∧ l'.IsInLine depth cs ts ∧ l'.rest = l.rest ∧
      ∀ c outer, l'.candidates ≠ some c :: outer := by
  rw [dropCandidate?]
  split
  · next c outer hcandidates =>
    have hoptional := h.candidates
    rw [hcandidates, List.forall_mem_cons] at hoptional
    rw [if_neg (by simp [hoptional.1 c rfl])]
    refine ⟨_, rfl, { h with candidates := ?_ }, rfl, by simp⟩
    exact List.forall_mem_cons.mpr ⟨by simp, hoptional.2⟩
  · next hcandidates => exact ⟨l, rfl, h, rfl, hcandidates⟩

theorem IsInLine.addCandidate (h : l.IsInLine depth cs ts) (g : Glyph) :
    ∃ l', l.addCandidate? g = some l' ∧ l'.IsInLine depth cs ts ∧ l'.rest = l.rest ∧
      (l.IsAnnounced → l'.IsAnnounced) := by
  rw [addCandidate?]
  split_ifs with hallowed
  · obtain ⟨l', hl', hline, hrest, -⟩ := h.dropCandidate
    rw [hl']
    refine ⟨_, rfl, { hline with candidates := ?_ }, hrest, fun hannounced => ?_⟩
    · refine List.forall_mem_cons.mpr ⟨?_, fun c hc => hline.candidates c (List.mem_of_mem_drop hc)⟩
      rintro x ⟨⟩
      have hcolumn : (-1 : Int) ≠ (g.column : Int) := by omega
      simp [hline.indent, hcolumn]
    · exact absurd (hannounced.keyAllowed.symm.trans hallowed) Bool.false_ne_true
  · exact ⟨l, rfl, h, rfl, id⟩

theorem IsInLine.openFlow (h : l.IsInLine depth (c :: cs) ts) (g : Glyph) (t : Token) :
    ∃ l', l.openFlow? g t = some l' ∧ l'.IsInLine (depth + 1) cs (ts ++ [t]) := by
  obtain ⟨l', hl', hline, -⟩ := h.addCandidate g
  rw [openFlow?, hl']
  have hopen : IsInLine { l' with flowDepth := l'.flowDepth + 1, candidates := none :: l'.candidates }
      (depth + 1) (c :: cs) ts :=
    { hline with
      flowDepth := by rw [hline.flowDepth]
      candidates := List.forall_mem_cons.mpr ⟨by simp, hline.candidates⟩ }
  exact ⟨_, rfl, ((hopen.allowKey true).drop).push t⟩

theorem IsInLine.closeFlow (h : l.IsInLine (depth + 1) (c :: cs) ts) (t : Token) :
    ∃ l', l.closeFlow? t = some l' ∧ l'.IsInLine depth cs (ts ++ [t]) := by
  obtain ⟨l', hl', hline, -⟩ := h.dropCandidate
  rw [closeFlow?, hl', Option.bind_eq_bind, Option.bind_some, if_pos hline.inFlow]
  have hclose : IsInLine { l' with flowDepth := l'.flowDepth - 1, candidates := l'.candidates.drop 1 }
      depth (c :: cs) ts :=
    { hline with
      flowDepth := by rw [hline.flowDepth, Nat.add_sub_cancel]
      candidates := fun c hc => hline.candidates c (List.mem_of_mem_drop hc) }
  exact ⟨_, rfl, ((hclose.allowKey false).drop).push t⟩

theorem IsInLine.flowEntry (h : l.IsInLine depth (c :: cs) ts) :
    ∃ l', l.flowEntry? = some l' ∧ l'.IsInLine depth cs (ts ++ [.flowEntry]) := by
  obtain ⟨l', hl', hline, -⟩ := h.dropCandidate
  rw [ flowEntry?, hl']
  exact ⟨_, rfl, ((hline.allowKey true).drop).push .flowEntry⟩

/-- A word that is read as a token leaves what stands behind it. -/
theorem IsInLine.word {read : List Glyph → Option (Token × List Glyph)} {rest : List Glyph} {t : Token}
    (h : l.IsInLine depth cs ts) (g : Glyph) (hread : read l.rest = some (t, rest)) (hsuffix : rest <:+ l.rest.tail) :
    ∃ l', l.word? g read = some l' ∧ l'.IsInLine depth (chars rest) (ts ++ [t]) ∧
      (l.IsAnnounced → l'.IsAnnounced) := by
  obtain ⟨l', hl', hline, hrest, hannounced⟩ := h.addCandidate g
  rw [word?, hl', Option.bind_eq_bind, Option.bind_some, hrest, hread]
  have hread' : IsInLine { l' with rest } depth (chars rest) ts :=
    { hline with
      rest := rfl
      column := fun g' hg' => h.column g' (hsuffix.subset (List.mem_of_mem_tail hg')) }
  exact ⟨_, rfl, (hread'.allowKey false).push t, fun h => ⟨rfl, (hannounced h).candidates⟩⟩

/-! ### Marks -/

theorem IsInLine.step {depth' : Nat} {cs' : List Char} {ts' : List Token}
    (h : l.IsInLine depth (' ' :: c :: cs) ts) (hc : isStart c = true)
    (htoken : ∀ (l₁ : Lexer) (g : Glyph) (gs : List Glyph), l₁.IsInLine depth (c :: cs) ts → l₁.Begins g c →
      ∃ l', l₁.token? g gs = some l' ∧ l'.IsInLine depth' cs' ts') :
    ∃ l', (∀ k, run (k + 1) l = run k l') ∧ l'.IsInLine depth' cs' ts' := by
  obtain ⟨g, gs, hbegins, hbefore, hrun⟩ := h.before hc
  obtain ⟨l', hl', hline⟩ := htoken _ g gs hbefore hbegins
  refine ⟨l', fun k => ?_, hline⟩
  rw [hrun, hl', Option.bind_some]

theorem nextSeparates_of_head? (hgs : chars gs = cs) (hcs : ∀ c ∈ cs.head?, c = ' ' ∨ c = endChar) :
    nextSeparates gs = true := by
  cases gs with
  | nil => rfl
  | cons g gs =>
    have hg : g.char = ' ' ∨ g.char = endChar := hcs g.char (by rw [← hgs]; rfl)
    rw [nextSeparates]
    rcases hg with hg | hg
    all_goals
      rw [Glyph.isSeparator, Glyph.isBlank, Glyph.isBreakOrEnd, Glyph.isBreak, Glyph.isEnd, hg]
      decide

theorem IsInLine.name {name : String} (token : String → Token) (hname : IsWord name ∧ name.toList ≠ [])
    (hcs : ∀ c ∈ cs.head?, c = ' ' ∨ c = endChar) (h : l.IsInLine depth (c :: (name.toList ++ cs)) ts) (g : Glyph) :
    ∃ l', l.word? g (named? token) = some l' ∧ l'.IsInLine depth cs (ts ++ [token name]) := by
  obtain ⟨g₀, gs, hrest, -, hgs⟩ := List.map_eq_cons_iff.mp h.rest
  obtain ⟨ns, rest, rfl, hns, hrest'⟩ := List.map_eq_append_iff.mp hgs
  have hword : ∀ g ∈ ns, isWordChar g.char = true := fun g hg => hname.1 g.char (hns ▸ List.mem_map_of_mem hg)
  have hne : ns ≠ [] := by
    rintro rfl
    exact hname.2 hns.symm
  have hread : named? token l.rest = some (token name, rest) := by
    rw [named?, hrest, List.drop_one, List.tail_cons, readName_word hword hne (nextSeparates_of_head? hrest' hcs)]
    simp [chars, hns]
  obtain ⟨l', hl', hline, -⟩ := h.word g hread (by rw [hrest]; exact List.suffix_append _ _)
  exact ⟨l', hl', hrest' ▸ hline⟩

theorem IsInLine.quoted {text : String} (htext : IsWord text)
    (h : l.IsInLine depth (c :: (text.toList ++ '"' :: cs)) ts) (g : Glyph) :
    ∃ l', l.word? g (quoted? true) = some l' ∧ l'.IsInLine depth cs (ts ++ [.scalar .quoted text]) ∧
      (l.IsAnnounced → l'.IsAnnounced) := by
  obtain ⟨g₀, gs, hrest, -, hgs⟩ := List.map_eq_cons_iff.mp h.rest
  obtain ⟨ns, gs', rfl, hns, hgs'⟩ := List.map_eq_append_iff.mp hgs
  obtain ⟨q, rest, rfl, hq, hrest'⟩ := List.map_eq_cons_iff.mp hgs'
  have hword : ∀ g ∈ ns, isWordChar g.char = true := fun g hg => htext g.char (hns ▸ List.mem_map_of_mem hg)
  have hread : quoted? true l.rest = some (.scalar .quoted text, rest) := by
    rw [quoted?, hrest, List.drop_one, List.tail_cons, readQuoted, quotedFrom_word hword hq]
    simp [chars, hns]
  obtain ⟨l', hl', hline⟩ := h.word g hread (by rw [hrest]; exact ⟨ns ++ [q], by simp⟩)
  exact ⟨l', hl', hrest' ▸ hline⟩

theorem openHere_of_inFlow (h : l.inFlow = true) (column : Nat) (t : Token) : l.openHere column t = l := by
  rw [openHere, openAt, h, Bool.true_or, if_pos rfl]

theorem IsInLine.key (h : l.IsInLine (depth + 1) (c :: cs) ts) (g : Glyph) :
    ∃ l', l.key? g = some l' ∧ l'.IsInLine (depth + 1) cs (ts ++ [.key]) ∧ l'.IsAnnounced := by
  obtain ⟨l', hl', hline, -, hfree⟩ := h.dropCandidate
  rw [key?, openHere_of_inFlow h.inFlow, h.inFlow, hl', Bool.not_true, Bool.false_and, if_neg Bool.false_ne_true]
  exact ⟨_, rfl, ((hline.allowKey _).drop).push .key, congrArg not hline.inFlow, hfree⟩

theorem IsInLine.value (h : l.IsInLine (depth + 1) (c :: cs) ts) (hannounced : l.IsAnnounced) (g : Glyph) :
    ∃ l', l.value? g = some l' ∧ l'.IsInLine (depth + 1) cs (ts ++ [.value]) := by
  rw [value?]
  split
  · next c outer hcandidates => exact absurd hcandidates (hannounced.candidates c outer)
  · rw [openHere_of_inFlow h.inFlow, h.inFlow]
    exact ⟨_, rfl, ((h.allowKey false).drop).push .value⟩

variable {m : Mark} {depth' : Nat}

/-- An announced key with its text and the colon. -/
theorem IsInLine.field {name : String} (hname : IsWord name)
    (h : l.IsInLine (depth + 1) ((Mark.field name).text ++ cs) ts) :
    ∃ l', (∀ k, run (k + 3) l = run k l') ∧ l'.IsInLine (depth + 1) cs (ts ++ (Mark.field name).tokens) := by
  have htext : (Mark.field name).text ++ cs = ' ' :: '?' :: ' ' :: '"' :: (name.toList ++ '"' :: ' ' :: ':' :: cs) := by
    simp [Mark.text]
  rw [htext] at h
  obtain ⟨g₁, gs₁, hbegins₁, h₁, hrun₁⟩ := h.before (by decide)
  obtain ⟨l₁, hl₁, hline₁, hannounced₁⟩ := h₁.key g₁
  obtain ⟨g₂, gs₂, hbegins₂, h₂, hrun₂⟩ := hline₁.before (by decide)
  obtain ⟨l₂, hl₂, hline₂, hannounced₂⟩ := h₂.quoted hname g₂
  obtain ⟨g₃, gs₃, hbegins₃, h₃, hrun₃⟩ := hline₂.before (by decide)
  obtain ⟨l₃, hl₃, hline₃⟩ := h₃.value ((hannounced₂ (hannounced₁.before g₂ gs₂)).before g₃ gs₃) g₃
  refine ⟨l₃, fun k => ?_, by simpa [Mark.tokens] using hline₃⟩
  have htoken₁ : (l.before g₁ gs₁).token? g₁ gs₁ = some l₁ := by
    simp [token?, hbegins₁.column, hbegins₁.unmarked, hbegins₁.char, h₁.inFlow, hl₁]
  have htoken₂ : (l₁.before g₂ gs₂).token? g₂ gs₂ = some l₂ := by
    simp [token?, hbegins₂.column, hbegins₂.unmarked, hbegins₂.char, hl₂]
  have htoken₃ : (l₂.before g₃ gs₃).token? g₃ gs₃ = some l₃ := by
    simp [token?, hbegins₃.column, hbegins₃.unmarked, hbegins₃.char, h₃.inFlow, hl₃]
  rw [hrun₁, htoken₁, Option.bind_some, hrun₂, htoken₂, Option.bind_some, hrun₃, htoken₃, Option.bind_some]

/-- A collection may be opened anywhere. -/
theorem IsInLine.opening (h : l.IsInLine depth (m.text ++ cs) ts) (hm : m = .sequence ∨ m = .mapping) :
    ∃ l', (∀ k, run (k + m.tokens.length) l = run k l') ∧ l'.IsInLine (depth + 1) cs (ts ++ m.tokens) := by
  rcases hm with rfl | rfl
  · refine h.step (by decide) fun l₁ g gs hl₁ hbegins => ?_
    simpa [token?, Mark.tokens, hbegins.column, hbegins.unmarked, hbegins.char] using hl₁.openFlow g .flowSequence
  · refine h.step (by decide) fun l₁ g gs hl₁ hbegins => ?_
    simpa [token?, Mark.tokens, hbegins.column, hbegins.unmarked, hbegins.char] using hl₁.openFlow g .flowMapping

/-- One mark is read as its tokens. -/
theorem IsInLine.mark (h : l.IsInLine depth (m.text ++ cs) ts) (hm : m.IsWritable)
    (hdepth : Mark.depth? depth m = some depth') (hcs : ∀ c ∈ cs.head?, c = ' ' ∨ c = endChar) :
    ∃ l', (∀ k, run (k + m.tokens.length) l = run k l') ∧ l'.IsInLine depth' cs (ts ++ m.tokens) := by
  cases depth with
  | zero =>
    cases m with
    | sequence =>
      cases hdepth
      exact h.opening (.inl rfl)
    | mapping =>
      cases hdepth
      exact h.opening (.inr rfl)
    | _ => cases hdepth
  | succ depth =>
    cases m with
    | sequence =>
      cases hdepth
      exact h.opening (.inl rfl)
    | mapping =>
      cases hdepth
      exact h.opening (.inr rfl)
    | sequenceEnd =>
      cases hdepth
      refine h.step (by decide) fun l₁ g gs hl₁ hbegins => ?_
      simpa [token?, Mark.tokens, hbegins.column, hbegins.unmarked, hbegins.char] using hl₁.closeFlow .flowSequenceEnd
    | mappingEnd =>
      cases hdepth
      refine h.step (by decide) fun l₁ g gs hl₁ hbegins => ?_
      simpa [token?, Mark.tokens, hbegins.column, hbegins.unmarked, hbegins.char] using hl₁.closeFlow .flowMappingEnd
    | entry =>
      cases hdepth
      refine h.step (by decide) fun l₁ g gs hl₁ hbegins => ?_
      simpa [token?, Mark.tokens, hbegins.column, hbegins.unmarked, hbegins.char] using hl₁.flowEntry
    | field name =>
      cases hdepth
      exact h.field hm
    | word text =>
      cases hdepth
      rw [Mark.text, List.append_assoc, List.append_assoc] at h
      refine h.step (by decide) fun l₁ g gs hl₁ hbegins => ?_
      obtain ⟨l', hl', hline, -⟩ := hl₁.quoted hm g
      exact ⟨l', by simpa [token?, hbegins.column, hbegins.unmarked, hbegins.char] using hl', hline⟩
    | anchor name =>
      cases hdepth
      rw [Mark.text, List.append_assoc] at h
      refine h.step (by decide) fun l₁ g gs hl₁ hbegins => ?_
      simpa [token?, Mark.tokens, hbegins.column, hbegins.unmarked, hbegins.char] using hl₁.name .anchor hm hcs g
    | «alias» name =>
      cases hdepth
      rw [Mark.text, List.append_assoc] at h
      refine h.step (by decide) fun l₁ g gs hl₁ hbegins => ?_
      simpa [token?, Mark.tokens, hbegins.column, hbegins.unmarked, hbegins.char] using hl₁.name .alias hm hcs g

theorem head?_text (ms : List Mark) :
    ∀ c ∈ (ms.flatMap Mark.text ++ [endChar]).head?, c = ' ' ∨ c = endChar := by
  cases ms with
  | nil => simp
  | cons m ms => cases m <;> simp [Mark.text]

/-- Marks are read one after the other. -/
theorem IsInLine.marks {ms : List Mark} (h : l.IsInLine depth (ms.flatMap Mark.text ++ [endChar]) ts)
    (hms : ∀ m ∈ ms, m.IsWritable) (hdepth : ms.foldlM Mark.depth? depth = some depth') :
    ∃ l', (∀ k, run (k + (ms.flatMap Mark.tokens).length) l = run k l') ∧
      l'.IsInLine depth' [endChar] (ts ++ ms.flatMap Mark.tokens) := by
  induction ms generalizing l depth ts with
  | nil =>
    cases hdepth
    exact ⟨l, fun k => rfl, by simpa using h⟩
  | cons m ms ih =>
    rw [List.forall_mem_cons] at hms
    rw [List.foldlM_cons, Option.bind_eq_bind, Option.bind_eq_some_iff] at hdepth
    obtain ⟨depth₁, hdepth₁, hdepth⟩ := hdepth
    rw [List.flatMap_cons, List.append_assoc] at h
    obtain ⟨l₁, hrun₁, hline₁⟩ := h.mark hms.1 hdepth₁ (head?_text ms)
    obtain ⟨l', hrun, hline⟩ := ih hline₁ hms.2 hdepth
    refine ⟨l', fun k => ?_, by simpa using hline⟩
    rw [List.flatMap_cons, List.length_append, Nat.add_comm m.tokens.length, ← Nat.add_assoc, hrun₁, hrun]

theorem IsInLine.run_end (h : l.IsInLine 0 [endChar] ts) (k : Nat) :
    run (k + 1) l = some ts.toArray := by
  obtain ⟨g, gs, hrest, hg, hgs⟩ := List.map_eq_cons_iff.mp h.rest
  cases gs with
  | cons => cases hgs
  | nil =>
    have hskip : l.skipToToken = l := by
      have hfrom : skipFrom l.inFlow l.keyAllowed false [g] = (l.keyAllowed, [g]) := by
        simp [skipFrom, Glyph.isBreak, isBreakChar, Glyph.isTab, hg, endChar]
      rw [skipToToken, hrest, hfrom, ← hrest]
    have hend : g.isEnd = true := decide_eq_true hg
    obtain ⟨l', hl', hline, -⟩ := (h.keepCandidates g).dropCandidate
    rw [run, hskip]
    dsimp only
    split
    · next hnil => exact absurd (hnil.symm.trans hrest) (List.cons_ne_nil _ _).symm
    · next g' gs' hcons =>
      cases hrest.symm.trans hcons
      rw [h.dropStale?_eq, Option.bind_eq_bind, Option.bind_some, (h.keepCandidates g).close_eq, if_pos hend,
        (h.keepCandidates g).close_eq, hl', ← hline.tokens]
      rfl

end Lexer

theorem length_tokens_le (ms : List Mark) : (ms.flatMap Mark.tokens).length ≤ (ms.flatMap Mark.text).length := by
  induction ms with
  | nil => simp
  | cons m ms ih =>
    have hm : m.tokens.length ≤ m.text.length := by
      cases m <;> simp [Mark.tokens, Mark.text]
    simp only [List.flatMap_cons, List.length_append]
    omega

theorem isPrintable_text {m : Mark} (hm : m.IsWritable) : ∀ c ∈ m.text, isPrintable c = true := by
  have hword : ∀ {s : String}, IsWord s → ∀ c ∈ s.toList, isPrintable c = true :=
    fun hs c hc => isPrintable_of_isWordChar (hs c hc)
  cases m with
  | field name =>
    simp only [Mark.text, List.forall_mem_append]
    exact ⟨⟨by decide, hword hm⟩, by decide⟩
  | word text =>
    simp only [Mark.text, List.forall_mem_append]
    exact ⟨⟨by decide, hword hm⟩, by decide⟩
  | anchor name | «alias» name =>
    simp only [Mark.text, List.forall_mem_append]
    exact ⟨by decide, hword hm.1⟩
  | _ => decide

/-- The tokens of a document in flow style that is complete. -/
theorem tokens?_marks {ms : List Mark} (hms : ∀ m ∈ ms, m.IsWritable)
    (hdepth : ms.foldlM Mark.depth? 0 = some 0) :
    tokens? (String.ofList (ms.flatMap Mark.text)) = some (ms.flatMap Mark.tokens) := by
  have hprintable : ∀ c ∈ (String.ofList (ms.flatMap Mark.text)).toList, isPrintable c = true := by
    simp only [String.toList_ofList, List.mem_flatMap]
    rintro c ⟨m, hm, hc⟩
    exact isPrintable_text (hms m hm) c hc
  have hglyphs := glyphs?_line hprintable
  rw [String.toList_ofList] at hglyphs
  generalize hgs : ((ms.flatMap Mark.text ++ [endChar]).zipIdx.map fun c => (⟨c.1, c.2, 0, c.2⟩ : Glyph)) = gs
    at hglyphs
  have hline : Lexer.IsInLine { rest := gs } 0 (ms.flatMap Mark.text ++ [endChar]) [] := by
    refine ⟨?_, ?_, rfl, rfl, rfl, rfl, by simp⟩
    · simp [chars, ← hgs, Function.comp_def]
    · dsimp only
      rw [← hgs, ← List.map_tail]
      intro g hg
      obtain ⟨c, hc, rfl⟩ := List.mem_map.mp hg
      cases hcs : ms.flatMap Mark.text ++ [endChar] with
      | nil => simp [hcs] at hc
      | cons c₀ cs =>
        rw [hcs, List.zipIdx_cons, List.tail_cons] at hc
        exact Nat.ne_of_gt (List.le_snd_of_mem_zipIdx hc)
  obtain ⟨l', hrun, hline'⟩ := hline.marks hms hdepth
  have hlength : gs.length = (ms.flatMap Mark.text).length + 1 := by
    rw [← hgs]
    simp
  have hle := length_tokens_le ms
  obtain ⟨k, hk⟩ : ∃ k, gs.length + 1 = k + 1 + (ms.flatMap Mark.tokens).length :=
    ⟨gs.length - (ms.flatMap Mark.tokens).length, by omega⟩
  rw [tokens?, hglyphs, Option.bind_eq_bind, Option.bind_some, hk, hrun, hline'.run_end k]
  simp

end OpHeaders.Yaml
