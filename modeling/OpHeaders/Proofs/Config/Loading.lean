import OpHeaders.Config.Loading
import OpHeaders.Proofs.Config.Overlay
import OpHeaders.Proofs.Config.Repeated

/-! Loading a configuration from a text. Whatever the document of the text says over the defaults is loaded,
unless aliases make it say too much: a configuration that repeats itself by aliases loads up to some size, and
beyond that it is refused although every part of it can be read. -/
namespace OpHeaders.Config

open Yaml (Document Node)

variable {text : String} {d : Document} {root : Node} {c : Config}

theorem ofText_eq_ok_iff : ofText text = .ok c ↔ ∃ d, Document.ofText? text = some d ∧ ofDocument? d = some c := by
  rw [← Option.bind_eq_some_iff, ofText, ofText?]
  cases (Document.ofText? text).bind ofDocument? with
  | none => exact iff_of_false (by rintro ⟨⟩) (by rintro ⟨⟩)
  | some c' => rw [Except.ok.injEq, Option.some.injEq]

theorem ofText_eq_error_iff : ofText text = .error .invalid ↔ ∀ c, ofText text ≠ .ok c := by
  rw [ofText]
  cases ofText? text with
  | none => exact iff_of_true rfl (by rintro c ⟨⟩)
  | some c => exact iff_of_false (by rintro ⟨⟩) fun h => h c rfl

theorem ofText_eq_ok_iff_saysConfig (hd : Document.ofText? text = some d) (hroot : d.root = some root)
    (h : d.IsRecord root) (hgroups : ∀ v, ("groups", v) ∈ d.fields root → d.IsRecords v) :
    ofText text = .ok c ↔ d.SaysConfig root c ∧ d.configJumps root ≤ d.maxJumps := by
  rw [ofText_eq_ok_iff, hd]
  simp only [Option.some.injEq, exists_eq_left', ofDocument?_eq_some_iff hroot h hgroups]

/-! ### Repeated configurations -/

section Repeated

variable (m n : Nat) {g : Node}

/-- What the group says, and as often as it is repeated. -/
def repeatedConfig : Config where
  groups := List.replicate (n + 1)
    { id := "i", source := ⟨"s"⟩, guardStart := "p", target := ⟨"d"⟩, schemas := List.replicate (m + 1) "x" }

theorem fields_repeatedRoot : (repeatedDocument m n).fields (repeatedRoot m n) =
    [("groups", .sequence none (repeatedGroup m :: List.replicate n (.alias 0)))] := rfl

theorem entries?_repeatedGroup (hg : (repeatedDocument m n).meant? g = some (repeatedGroup m)) :
    (repeatedDocument m n).entries? g = some (firstEntries.reverse ++
      [(wordNode "schemas", .sequence none (wordNode "x" :: List.replicate m (.alias 1)))]) := by
  rw [Document.entries?, hg]
  rfl

theorem fields_repeatedGroup (hg : (repeatedDocument m n).meant? g = some (repeatedGroup m)) :
    (repeatedDocument m n).fields g = [("id", wordNode "i"), ("source_dir", wordNode "s"),
      ("macro_prefix", wordNode "p"), ("dest_subdir", wordNode "d"),
      ("schemas", .sequence none (wordNode "x" :: List.replicate m (.alias 1)))] := by
  rw [Document.fields, entries?_repeatedGroup m n hg]
  rfl

theorem isRecord_repeatedRoot : (repeatedDocument m n).IsRecord (repeatedRoot m n) :=
  ⟨_, rfl, List.forall_mem_singleton.mpr rfl, List.nodup_singleton _⟩

theorem isRecord_repeatedGroup (hg : (repeatedDocument m n).meant? g = some (repeatedGroup m)) :
    (repeatedDocument m n).IsRecord g := by
  have hentries := entries?_repeatedGroup m n hg
  have hfields := fields_repeatedGroup m n hg
  rw [Document.fields, hentries, Option.getD_some] at hfields
  refine ⟨_, hentries, ?_, ?_⟩
  · simp only [firstEntries, List.reverse_cons, List.reverse_nil, List.nil_append, List.cons_append,
      List.forall_mem_cons]
    exact ⟨rfl, rfl, rfl, rfl, rfl, List.forall_mem_nil _⟩
  · rw [hfields]
    simp only [List.map_cons, List.map_nil]
    decide

theorem meant?_of_mem (hg : g ∈ repeatedGroup m :: List.replicate n (.alias 0)) :
    (repeatedDocument m n).meant? g = some (repeatedGroup m) := by
  rcases List.mem_cons.mp hg with rfl | hg
  · rfl
  · rw [List.eq_of_mem_replicate hg]
    rfl

theorem isRecords_repeated : ∀ v, ("groups", v) ∈ (repeatedDocument m n).fields (repeatedRoot m n) →
    (repeatedDocument m n).IsRecords v := by
  intro v hv
  rw [fields_repeatedRoot, List.mem_singleton] at hv
  cases hv
  exact ⟨_, rfl, fun g hg => isRecord_repeatedGroup m n (meant?_of_mem m n hg)⟩

theorem forall₂_replicate {α β : Type} {R : α → β → Prop} {a : α} {b : β} (h : R a b) (n : Nat) :
    List.Forall₂ R (List.replicate n a) (List.replicate n b) := by
  induction n with
  | zero => exact .nil
  | succ n ih => exact .cons h ih

theorem saysConfig_repeated : (repeatedDocument m n).SaysConfig (repeatedRoot m n) (repeatedConfig m n) := by
  have hgroup : ∀ g, (repeatedDocument m n).meant? g = some (repeatedGroup m) → (repeatedDocument m n).SaysGroup g
      { id := "i", source := ⟨"s"⟩, guardStart := "p", target := ⟨"d"⟩, schemas := List.replicate (m + 1) "x" } := by
    intro g hg
    have hfields := fields_repeatedGroup m n hg
    have hschema : (repeatedDocument m n).text? (.alias 1) = some "x" := rfl
    have hschemas : List.Forall₂ (fun m' text => (repeatedDocument m n).text? m' = some text)
        (wordNode "x" :: List.replicate m (.alias 1)) (List.replicate (m + 1) "x") :=
      .cons rfl (forall₂_replicate (R := fun v text => (repeatedDocument m n).text? v = some text) hschema m)
    constructor
    · exact ⟨wordNode "i", by simp [hfields], rfl⟩
    · exact ⟨wordNode "s", by simp [hfields], rfl⟩
    · exact ⟨wordNode "p", by simp [hfields], rfl⟩
    · exact ⟨wordNode "d", by simp [hfields], rfl⟩
    · exact ⟨.sequence none (wordNode "x" :: List.replicate m (.alias 1)), by simp [hfields], _, rfl, hschemas⟩
  have hdefault : ∀ {α : Type} (name : String) (default : α) (P : Node → α → Prop), name ≠ "groups" →
      (repeatedDocument m n).Overlays (repeatedRoot m n) name default P default := by
    intro α name default P hname
    refine ⟨fun v hv => ?_, fun _ => rfl⟩
    rw [fields_repeatedRoot, List.mem_singleton] at hv
    exact absurd (congrArg Prod.fst hv) hname
  refine ⟨hdefault _ _ _ (by decide), hdefault _ _ _ (by decide), hdefault _ _ _ (by decide), fun v hv => ?_,
    fun hnone => ?_⟩
  · rw [fields_repeatedRoot, List.mem_singleton] at hv
    cases hv
    exact ⟨_, rfl, .cons (hgroup _ rfl) (forall₂_replicate (hgroup _ rfl) n)⟩
  · exact absurd (List.mem_singleton.mpr rfl) (hnone _)

theorem groupJumps_repeated (hg : (repeatedDocument m n).meant? g = some (repeatedGroup m)) :
    (repeatedDocument m n).groupJumps g = g.jumps + m := by
  rw [Document.groupJumps, Document.keyJumps, entries?_repeatedGroup m n hg]
  simp only [Document.valueJumps, fields_repeatedGroup m n hg]
  -- only the schemas have aliases among them
  change g.jumps + 0 + (0 + (0 + (0 + (0 + (0 + (0 + ((List.replicate m (Node.alias 1)).map Node.jumps).sum)))))) = _
  simp [Node.jumps]

theorem configJumps_repeated : (repeatedDocument m n).configJumps (repeatedRoot m n) = m + n * (m + 1) := by
  have hgroups : (repeatedDocument m n).configJumps (repeatedRoot m n) = 0 + (0 + (0 + (0 + (0 +
      ((repeatedGroup m :: List.replicate n (.alias 0)).map (repeatedDocument m n).groupJumps).sum)))) := rfl
  have hfirst : (repeatedDocument m n).groupJumps (repeatedGroup m) = 0 + m := groupJumps_repeated m n rfl
  have hmore : (repeatedDocument m n).groupJumps (.alias 0) = 1 + m := groupJumps_repeated m n rfl
  rw [hgroups]
  simp [hfirst, hmore, Nat.add_comm]

/-- A repeated configuration is loaded as long as it is small. -/
theorem ofText_repeated :
    ofText (repeatedText m n) =
      if m + n * (m + 1) ≤ 100 * (19 + m + n) then .ok (repeatedConfig m n) else .error .invalid := by
  have hload : ∀ c, ofText (repeatedText m n) = .ok c ↔
      (repeatedDocument m n).SaysConfig (repeatedRoot m n) c ∧ m + n * (m + 1) ≤ 100 * (19 + m + n) := by
    intro c
    rw [ofText_eq_ok_iff_saysConfig (ofText?_repeated m n) rfl (isRecord_repeatedRoot m n) (isRecords_repeated m n),
      configJumps_repeated]
    rfl
  split_ifs with hsmall
  · exact (hload _).mpr ⟨saysConfig_repeated m n, hsmall⟩
  · exact ofText_eq_error_iff.mpr fun c hc => hsmall ((hload c).mp hc).2

end Repeated

/-! ### Over the defaults -/

/-- A configuration is loaded if every known field that it has is of its kind, every group is complete, and
no more aliases are followed than its size allows. It has the fields that are given, and otherwise the
defaults. -/
theorem ofText_overlays (hd : Document.ofText? text = some d) (hroot : d.root = some root) (h : d.IsRecord root)
    (hgroups : ∀ v, ("groups", v) ∈ d.fields root → d.IsRecords v) :
    ((∃ c, ofText text = .ok c) ↔ d.IsConfig root ∧ d.configJumps root ≤ d.maxJumps) ∧
      ∀ c, ofText text = .ok c → d.SaysConfig root c := by
  have hload : ∀ c, ofText text = .ok c ↔ d.SaysConfig root c ∧ d.configJumps root ≤ d.maxJumps :=
    fun c => ofText_eq_ok_iff_saysConfig hd hroot h hgroups
  refine ⟨?_, fun c hc => ((hload c).mp hc).1⟩
  rw [← exists_saysConfig_iff h hgroups, ← exists_and_right]
  exact exists_congr hload

/-- A configuration that follows three aliases. -/
theorem ofText_overlays_repeated :
    Document.ofText? (repeatedText 1 1) = some (repeatedDocument 1 1) ∧
      (repeatedDocument 1 1).IsRecord (repeatedRoot 1 1) ∧
      (∀ v, ("groups", v) ∈ (repeatedDocument 1 1).fields (repeatedRoot 1 1) → (repeatedDocument 1 1).IsRecords v) ∧
      ∃ c, ofText (repeatedText 1 1) = .ok c ∧ (repeatedDocument 1 1).SaysConfig (repeatedRoot 1 1) c := by
  have hrecord := isRecord_repeatedRoot 1 1
  have hrecords := isRecords_repeated 1 1
  obtain ⟨-, hsays⟩ := ofText_overlays (ofText?_repeated 1 1) rfl hrecord hrecords
  have hload : ofText (repeatedText 1 1) = .ok (repeatedConfig 1 1) :=
    (ofText_repeated 1 1).trans (if_pos (by decide))
  exact ⟨ofText?_repeated 1 1, hrecord, hrecords, _, hload, hsays _ hload⟩

/-- A configuration of 519 nodes that follows 63000 aliases is refused, although all of its parts can be
read. -/
theorem not_ofText_repeated :
    Document.ofText? (repeatedText 250 250) = some (repeatedDocument 250 250) ∧
      (repeatedDocument 250 250).root = some (repeatedRoot 250 250) ∧
      (repeatedDocument 250 250).IsRecord (repeatedRoot 250 250) ∧
      (∀ v, ("groups", v) ∈ (repeatedDocument 250 250).fields (repeatedRoot 250 250) →
        (repeatedDocument 250 250).IsRecords v) ∧
      (repeatedDocument 250 250).IsConfig (repeatedRoot 250 250) ∧ ¬∃ c, ofText (repeatedText 250 250) = .ok c := by
  have hrecord := isRecord_repeatedRoot 250 250
  have hrecords := isRecords_repeated 250 250
  refine ⟨ofText?_repeated 250 250, rfl, hrecord, hrecords,
    (exists_saysConfig_iff hrecord hrecords).mp ⟨_, saysConfig_repeated 250 250⟩, ?_⟩
  rintro ⟨c, hc⟩
  rw [ofText_repeated, if_neg (by decide)] at hc
  cases hc

end OpHeaders.Config
