import OpHeaders.Config.Loading
import OpHeaders.Proofs.Yaml.FlowText

/-! Configurations that repeat themselves by aliases: one group of one schema, the schema `m` more times
and the group `n` more times. -/
namespace OpHeaders.Config

open Yaml (Document Node Mark Token Builder Frame Properties Anchors)

/-! ### The text -/

/-- The first group up to its first schema. -/
def firstMarks : List Mark := [
  .mapping, .field "groups", .sequence, .anchor "g", .mapping,
  .field "id", .word "i", .entry, .field "source_dir", .word "s", .entry,
  .field "macro_prefix", .word "p", .entry, .field "dest_subdir", .word "d", .entry,
  .field "schemas", .sequence, .anchor "x", .word "x"]

/-- As many aliases more. -/
def aliasMarks (n : Nat) (name : String) : List Mark := (List.replicate n [Mark.entry, .alias name]).flatten

def repeatedMarks (m n : Nat) : List Mark :=
  firstMarks ++ aliasMarks m "x" ++ [.sequenceEnd, .mappingEnd] ++ aliasMarks n "g" ++ [.sequenceEnd, .mappingEnd]

def repeatedText (m n : Nat) : String := String.ofList ((repeatedMarks m n).flatMap Mark.text)

/-! ### The document -/

def wordNode (text : String) : Node := .scalar none .quoted text

/-- The first fields of the group, the last one foremost. -/
def firstEntries : List (Node × Node) := [
  (wordNode "dest_subdir", wordNode "d"), (wordNode "macro_prefix", wordNode "p"),
  (wordNode "source_dir", wordNode "s"), (wordNode "id", wordNode "i")]

def repeatedGroup (m : Nat) : Node :=
  .mapping none (firstEntries.reverse ++
    [(wordNode "schemas", .sequence none (wordNode "x" :: List.replicate m (.alias 1)))])

def repeatedRoot (m n : Nat) : Node :=
  .mapping none [(wordNode "groups", .sequence none (repeatedGroup m :: List.replicate n (.alias 0)))]

def repeatedDocument (m n : Nat) : Document where
  root := repeatedRoot m n
  anchored := [(1, wordNode "x"), (0, repeatedGroup m)]
  size := 19 + m + n

variable (handles : List (String × Yaml.Tag)) (k : Nat) (ts : List Token)

theorem run_aliases {name : String} {slot : Nat} {anchors : Anchors} (hslot : anchors.slots.lookup name = some slot)
    (p : Properties) (ns : List Node) (fs : List Frame) (size n : Nat) :
    Builder.run (k + 2 * n) { tokens := (aliasMarks n name).flatMap Mark.tokens ++ ts
                              frames := .flowItems p ns false :: fs, anchors, size, handles } =
      Builder.run k { tokens := ts, frames := .flowItems p (List.replicate n (.alias slot) ++ ns) false :: fs, anchors
                      size := size + n, handles } := by
  induction n generalizing ns size with
  | zero => rfl
  | succ n ih =>
    have hnodes : List.replicate (n + 1) (Node.alias slot) ++ ns =
        List.replicate n (.alias slot) ++ .alias slot :: ns := by
      rw [List.replicate_succ', List.append_assoc, List.singleton_append]
    have hstep : Builder.run (k + 2 * (n + 1))
        { tokens := (aliasMarks (n + 1) name).flatMap Mark.tokens ++ ts, frames := .flowItems p ns false :: fs
          anchors, size, handles } =
        ((anchors.slots.lookup name).bind fun slot => some
          { tokens := (aliasMarks n name).flatMap Mark.tokens ++ ts
            frames := .flowItems p (.alias slot :: ns) false :: fs, anchors, size := size + 1, handles }).bind
          (Builder.run (k + 2 * n)) := rfl
    rw [hstep, hslot, Option.bind_some, Option.bind_some, ih, hnodes, Nat.add_right_comm, Nat.add_assoc]

/-- The anchors before the group is complete. -/
def firstAnchors : Anchors where
  slots := [("x", 1), ("g", 0)]
  bound := [(1, 1), (0, 0)]
  nodes := [(1, wordNode "x")]
  count := 2

theorem run_first : Builder.run (k + 29) { tokens := firstMarks.flatMap Mark.tokens ++ ts, handles } =
    Builder.run k {
      tokens := ts
      frames := [.flowItems {} [wordNode "x"] false, .flowValue { anchor := some 0 } firstEntries (wordNode "schemas"),
        .flowItem {} [], .flowValue {} [] (wordNode "groups")]
      anchors := firstAnchors, size := 19, handles } := by
  rfl

theorem reverse_aliases (n slot : Nat) (first : Node) :
    (List.replicate n (Node.alias slot) ++ [first]).reverse = first :: List.replicate n (.alias slot) := by
  rw [List.reverse_append, List.reverse_replicate, List.reverse_singleton, List.singleton_append]

/-- The end of the group and of its schemas. -/
theorem run_firstEnd (m size : Nat) :
    Builder.run (k + 2) {
      tokens := .flowSequenceEnd :: .flowMappingEnd :: ts
      frames := [.flowItems {} (List.replicate m (.alias 1) ++ [wordNode "x"]) false,
        .flowValue { anchor := some 0 } firstEntries (wordNode "schemas"),
        .flowItem {} [], .flowValue {} [] (wordNode "groups")]
      anchors := firstAnchors, size, handles } =
    Builder.run k {
      tokens := ts
      frames := [.flowItems {} [repeatedGroup m] false, .flowValue {} [] (wordNode "groups")]
      anchors := firstAnchors.finish (some 0) (repeatedGroup m), size, handles } := by
  rw [repeatedGroup, ← reverse_aliases]
  rfl

/-- The end of the document and of its groups. -/
theorem run_end (m n size : Nat) (anchors : Anchors) :
    Builder.run (k + 3) {
      tokens := [.flowSequenceEnd, .flowMappingEnd]
      frames := [.flowItems {} (List.replicate n (.alias 0) ++ [repeatedGroup m]) false,
        .flowValue {} [] (wordNode "groups")]
      anchors, size, handles } =
    some { tokens := [], root := repeatedRoot m n, anchors, size, handles } := by
  rw [repeatedRoot, ← reverse_aliases]
  rfl

theorem length_aliasMarks (n : Nat) (name : String) : ((aliasMarks n name).flatMap Mark.tokens).length = 2 * n := by
  induction n with
  | zero => rfl
  | succ n ih =>
    rw [aliasMarks, List.replicate_succ, List.flatten_cons, List.flatMap_append, List.length_append, ← aliasMarks, ih]
    exact Nat.add_comm 2 (2 * n)

theorem ofTokens?_repeated (m n : Nat) :
    Document.ofTokens? ((repeatedMarks m n).flatMap Mark.tokens) = some (repeatedDocument m n) := by
  have htokens : (repeatedMarks m n).flatMap Mark.tokens =
      firstMarks.flatMap Mark.tokens ++ ((aliasMarks m "x").flatMap Mark.tokens ++
        .flowSequenceEnd :: .flowMappingEnd :: ((aliasMarks n "g").flatMap Mark.tokens ++
          [.flowSequenceEnd, .flowMappingEnd])) := by
    simp [repeatedMarks, Mark.tokens]
  have hlength : ((repeatedMarks m n).flatMap Mark.tokens).length = 37 + 2 * m + 2 * n := by
    have hfirst : (firstMarks.flatMap Mark.tokens).length = 33 := rfl
    rw [htokens]
    simp only [List.length_append, List.length_cons, List.length_nil, length_aliasMarks, hfirst]
    omega
  obtain ⟨k, hk⟩ : ∃ k, 4 * ((repeatedMarks m n).flatMap Mark.tokens).length + 4 =
      k + 3 + 2 * n + 2 + 2 * m + 29 := ⟨118 + 6 * m + 6 * n, by omega⟩
  have hbuild : ∀ ts, Document.ofTokens? (.flowMapping :: ts) = Yaml.buildDocument? [] (.flowMapping :: ts) := by
    intro ts
    simp [Document.ofTokens?, Yaml.directives?]
  have hx : firstAnchors.slots.lookup "x" = some 1 := rfl
  have hg : (firstAnchors.finish (some 0) (repeatedGroup m)).slots.lookup "g" = some 0 := rfl
  have hrun : Builder.run (4 * ((repeatedMarks m n).flatMap Mark.tokens).length + 4)
      { tokens := (repeatedMarks m n).flatMap Mark.tokens, handles := [] ++ Yaml.defaultHandles } =
      some {
        tokens := [], root := repeatedRoot m n, anchors := firstAnchors.finish (some 0) (repeatedGroup m)
        size := 19 + m + n, handles := Yaml.defaultHandles } := by
    rw [hk, htokens, run_first, run_aliases _ _ _ hx, run_firstEnd, run_aliases _ _ _ hg]
    exact run_end _ _ _ _ _ _
  have hdocument : Document.ofTokens? ((repeatedMarks m n).flatMap Mark.tokens) =
      Yaml.buildDocument? [] ((repeatedMarks m n).flatMap Mark.tokens) := by
    rw [htokens]
    exact hbuild _
  rw [hdocument, Yaml.buildDocument?, hrun]
  rfl

theorem foldlM_aliasMarks (depth n : Nat) (name : String) :
    (aliasMarks n name).foldlM Mark.depth? (depth + 1) = some (depth + 1) := by
  induction n with
  | zero => rfl
  | succ n ih => exact ih

theorem isWritable_aliasMarks {n : Nat} {name : String} (hname : (Mark.alias name).IsWritable) :
    ∀ m ∈ aliasMarks n name, m.IsWritable := by
  intro m hm
  obtain ⟨ms, hms, hm⟩ := List.mem_flatten.mp hm
  rw [List.eq_of_mem_replicate hms, List.mem_cons, List.mem_singleton] at hm
  rcases hm with rfl | rfl
  · trivial
  · exact hname

theorem ofText?_repeated (m n : Nat) : Document.ofText? (repeatedText m n) = some (repeatedDocument m n) := by
  have hwritable : ∀ mark ∈ repeatedMarks m n, mark.IsWritable := by
    simp only [repeatedMarks, List.forall_mem_append]
    exact ⟨⟨⟨⟨by decide +kernel, isWritable_aliasMarks (by decide +kernel)⟩, by decide +kernel⟩,
      isWritable_aliasMarks (by decide +kernel)⟩, by decide +kernel⟩
  have hdepth : (repeatedMarks m n).foldlM Mark.depth? 0 = some 0 := by
    have hfirst : firstMarks.foldlM Mark.depth? 0 = some 4 := rfl
    have hschemas : (aliasMarks m "x").foldlM Mark.depth? 4 = some 4 := foldlM_aliasMarks 3 m "x"
    have hgroup : [Mark.sequenceEnd, .mappingEnd].foldlM Mark.depth? 4 = some 2 := rfl
    have hgroups : (aliasMarks n "g").foldlM Mark.depth? 2 = some 2 := foldlM_aliasMarks 1 n "g"
    simp only [repeatedMarks, List.foldlM_append, hfirst, hschemas, hgroup, hgroups, Option.bind_eq_bind,
      Option.bind_some]
    rfl
  rw [Document.ofText?, repeatedText, Yaml.tokens?_marks hwritable hdepth, Option.bind_some, ofTokens?_repeated]

end OpHeaders.Config
