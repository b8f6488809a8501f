import OpHeaders.Proofs.Config.Fields

/-! A configuration lies over the defaults. Of a record the fields with known names count, in whatever
order they stand and whatever stands beside them: a field that is given has to say something of its kind,
and one that is not given keeps its default, or is missed in a group. The list of groups replaces the
known groups, and one group that cannot be read spoils all. Reading may follow aliases only so often. -/
namespace OpHeaders

open Yaml (Document Node Expansion Reads)
open Files (FilePath)

/-! ### What a document says -/

namespace Yaml.Document

variable (d : Document) (n : Node)

/-- Every item of a list is a record. -/
def IsRecords : Prop := ∃ items, d.items? n = some items ∧ ∀ m ∈ items, d.IsRecord m

/-- The list of texts that a node says. -/
def SaysTexts (texts : List String) : Prop :=
  ∃ items, d.items? n = some items ∧ List.Forall₂ (fun m text => d.text? m = some text) items texts

/-- A group that has all of its fields. -/
structure SaysGroup (g : SchemaGroup) : Prop where
  id : ∃ v, ("id", v) ∈ d.fields n ∧ d.text? v = some g.id
  source : ∃ v, ("source_dir", v) ∈ d.fields n ∧ d.text? v = some g.source.text
  guardStart : ∃ v, ("macro_prefix", v) ∈ d.fields n ∧ d.text? v = some g.guardStart
  target : ∃ v, ("dest_subdir", v) ∈ d.fields n ∧ d.text? v = some g.target.text
  schemas : ∃ v, ("schemas", v) ∈ d.fields n ∧ d.SaysTexts v g.schemas

def SaysGroups (gs : List SchemaGroup) : Prop :=
  ∃ items, d.items? n = some items ∧ List.Forall₂ d.SaysGroup items gs

/-- What is said under a name if anything is, and otherwise the default. -/
def Overlays {α : Type} (name : String) (default : α) (Says : Node → α → Prop) (a : α) : Prop :=
  (∀ v, (name, v) ∈ d.fields n → Says v a) ∧ ((∀ v, (name, v) ∉ d.fields n) → a = default)

structure SaysConfig (c : Config) : Prop where
  extension : d.Overlays n "schema_ext" ({} : Config).extension (fun v text => d.text? v = some text) c.extension
  output : d.Overlays n "output_dir" ({} : Config).output (fun v path => d.text? v = some path.text) c.output
  copiesBack : d.Overlays n "copy_back" ({} : Config).copiesBack (fun v b => d.flag? v = some b) c.copiesBack
  groups : d.Overlays n "groups" ({} : Config).groups d.SaysGroups c.groups

/-- The values of the known fields of a configuration are of their kinds, and every group is complete. -/
structure IsConfig : Prop where
  extension : ∀ v, ("schema_ext", v) ∈ d.fields n → (d.text? v).isSome
  output : ∀ v, ("output_dir", v) ∈ d.fields n → (d.text? v).isSome
  copiesBack : ∀ v, ("copy_back", v) ∈ d.fields n → (d.flag? v).isSome
  groups : ∀ v, ("groups", v) ∈ d.fields n → ∀ items, d.items? v = some items →
    ∀ m ∈ items, ∃ g, d.SaysGroup m g

/-- The aliases that are followed to read a group. -/
def groupJumps : Nat :=
  d.keyJumps n + (d.valueJumps n "id" Node.jumps + (d.valueJumps n "source_dir" Node.jumps +
    (d.valueJumps n "macro_prefix" Node.jumps + (d.valueJumps n "dest_subdir" Node.jumps +
      d.valueJumps n "schemas" (d.listJumps · Node.jumps)))))

/-- The aliases that are followed to read a configuration. -/
def configJumps : Nat :=
  d.keyJumps n + (d.valueJumps n "schema_ext" Node.jumps + (d.valueJumps n "output_dir" Node.jumps +
    (d.valueJumps n "copy_back" Node.jumps + d.valueJumps n "groups" (d.listJumps · d.groupJumps))))

end Yaml.Document

/-! ### Reading it -/

namespace Config

variable {α : Type} {d : Document} {n : Node} {known : List String} {name : String} {read : Node → Expansion α}
  {cost : Node → Nat} {P : Node → α → Prop}

theorem reads_required (h : d.IsRecord n) (hname : name ∈ known)
    (hread : ∀ v, (name, v) ∈ d.fields n → Reads d.maxJumps (read v) (cost v) (P v)) :
    Reads d.maxJumps (required (knownFields known d n) name read) (d.valueJumps n name cost)
      fun a => ∃ v, (name, v) ∈ d.fields n ∧ P v a := by
  rw [required, lookup_knownFields h hname, Document.valueJumps]
  simp only [← lookup_fields h]
  cases hfield : (d.fields n).lookup name with
  | none => exact (Reads.failure 0).congr rfl (by simp)
  | some v => exact (hread v ((lookup_fields h).mp hfield)).congr rfl (by simp)

theorem reads_optional (h : d.IsRecord n) (hname : name ∈ known)
    (hread : ∀ v, (name, v) ∈ d.fields n → Reads d.maxJumps (read v) (cost v) (P v)) (default : α) :
    Reads d.maxJumps (optional (knownFields known d n) name default read) (d.valueJumps n name cost)
      (d.Overlays n name default P) := by
  rw [optional, lookup_knownFields h hname, Document.valueJumps]
  unfold Document.Overlays
  simp only [← lookup_fields h]
  cases hfield : (d.fields n).lookup name with
  | none => exact (Reads.pure default).congr rfl (by simp)
  | some v => exact (hread v ((lookup_fields h).mp hfield)).congr rfl (by simp)

theorem reads_readTexts (d : Document) (n : Node) :
    Reads d.maxJumps (readList (readText d) d n) (d.listJumps n Node.jumps) (d.SaysTexts n) :=
  reads_readList fun _ _ m _ => reads_readText d m

theorem reads_readGroup (h : d.IsRecord n) :
    Reads d.maxJumps (readGroup d n) (d.groupJumps n) (d.SaysGroup n) := by
  have htext (name : String) (hname : name ∈ groupFields) :=
    reads_required h hname fun v _ => reads_readText d v
  have hpath (name : String) (hname : name ∈ groupFields) :=
    reads_required h hname fun v _ => reads_readPath d v
  have hlist := reads_required h (show "schemas" ∈ groupFields by decide) fun v _ => reads_readTexts d v
  refine (reads_readFields h).bind_eq (((htext "id" (by decide)).bind fun id _ =>
    (hpath "source_dir" (by decide)).bind fun source _ =>
    (htext "macro_prefix" (by decide)).bind fun guardStart _ =>
    (hpath "dest_subdir" (by decide)).bind fun target _ =>
    hlist.bind fun schemas _ => Reads.pure (SchemaGroup.mk id source guardStart target schemas)).congr rfl
      fun g => ?_)
  constructor
  · rintro ⟨id, hid, source, hsource, guardStart, hguardStart, target, htarget, schemas, hschemas, rfl⟩
    exact ⟨hid, hsource, hguardStart, htarget, hschemas⟩
  · intro hg
    exact ⟨g.id, hg.id, g.source, hg.source, g.guardStart, hg.guardStart, g.target, hg.target,
      g.schemas, hg.schemas, rfl⟩

theorem reads_readGroups (h : d.IsRecords n) :
    Reads d.maxJumps (readList (readGroup d) d n) (d.listJumps n d.groupJumps) (d.SaysGroups n) := by
  obtain ⟨items, hitems, hrecords⟩ := h
  apply reads_readList
  intro items' hitems' m hm
  obtain rfl : items = items' := Option.some.inj (hitems.symm.trans hitems')
  exact reads_readGroup (hrecords m hm)

theorem reads_readConfig (h : d.IsRecord n) (hgroups : ∀ v, ("groups", v) ∈ d.fields n → d.IsRecords v) :
    Reads d.maxJumps (readConfig d n) (d.configJumps n) (d.SaysConfig n) := by
  have hextension := reads_optional h (show "schema_ext" ∈ configFields by decide)
    (fun v _ => reads_readText d v) ({} : Config).extension
  have houtput := reads_optional h (show "output_dir" ∈ configFields by decide)
    (fun v _ => reads_readPath d v) ({} : Config).output
  have hcopiesBack := reads_optional h (show "copy_back" ∈ configFields by decide)
    (fun v _ => reads_readBool d v) ({} : Config).copiesBack
  have hgroups := reads_optional h (show "groups" ∈ configFields by decide)
    (fun v hv => reads_readGroups (hgroups v hv)) ({} : Config).groups
  refine (reads_readFields h).bind_eq ((hextension.bind fun extension _ => houtput.bind fun output _ =>
    hcopiesBack.bind fun copiesBack _ => hgroups.bind fun groups _ =>
    Reads.pure (Config.mk extension output copiesBack groups)).congr rfl fun c => ?_)
  constructor
  · rintro ⟨extension, hextension, output, houtput, copiesBack, hcopiesBack, groups, hgroups, rfl⟩
    exact ⟨hextension, houtput, hcopiesBack, hgroups⟩
  · intro hc
    exact ⟨c.extension, hc.extension, c.output, hc.output, c.copiesBack, hc.copiesBack, c.groups, hc.groups, rfl⟩

/-! ### The configuration -/

theorem exists_overlays_iff (h : d.IsRecord n) (default : α) :
    (∃ a, d.Overlays n name default P a) ↔ ∀ v, (name, v) ∈ d.fields n → ∃ a, P v a := by
  unfold Document.Overlays
  simp only [← lookup_fields h]
  cases (d.fields n).lookup name with
  | none => simp
  | some v => simp

theorem exists_forall₂_iff {β γ : Type} {R : β → γ → Prop} {l : List β} :
    (∃ bs, List.Forall₂ R l bs) ↔ ∀ a ∈ l, ∃ b, R a b := by
  induction l with
  | nil => exact iff_of_true ⟨[], .nil⟩ (by simp)
  | cons a l ih =>
    rw [List.forall_mem_cons, ← ih]
    simp only [List.forall₂_cons_left_iff]
    constructor
    · rintro ⟨_, b, bs, hb, hbs, rfl⟩
      exact ⟨⟨b, hb⟩, bs, hbs⟩
    · rintro ⟨⟨b, hb⟩, bs, hbs⟩
      exact ⟨b :: bs, b, bs, hb, hbs, rfl⟩

theorem exists_saysGroups_iff (h : d.IsRecords n) :
    (∃ gs, d.SaysGroups n gs) ↔ ∀ items, d.items? n = some items → ∀ m ∈ items, ∃ g, d.SaysGroup m g := by
  obtain ⟨items, hitems, -⟩ := h
  unfold Document.SaysGroups
  simp only [hitems, Option.some.injEq, exists_eq_left', forall_eq', exists_forall₂_iff]

theorem exists_saysConfig_iff (h : d.IsRecord n)
    (hgroups : ∀ v, ("groups", v) ∈ d.fields n → d.IsRecords v) : (∃ c, d.SaysConfig n c) ↔ d.IsConfig n := by
  have htext : ∀ v, (∃ text, d.text? v = some text) ↔ (d.text? v).isSome :=
    fun v => Option.isSome_iff_exists.symm
  have hpath : ∀ v, (∃ path : FilePath, d.text? v = some path.text) ↔ (d.text? v).isSome := by
    intro v
    rw [← htext]
    constructor
    · rintro ⟨path, hv⟩
      exact ⟨path.text, hv⟩
    · rintro ⟨text, hv⟩
      exact ⟨⟨text⟩, hv⟩
  constructor
  · rintro ⟨c, hc⟩
    refine ⟨fun v hv => (htext v).mp ⟨_, hc.extension.1 v hv⟩, fun v hv => (hpath v).mp ⟨_, hc.output.1 v hv⟩,
      fun v hv => Option.isSome_iff_exists.mpr ⟨_, hc.copiesBack.1 v hv⟩,
      fun v hv => (exists_saysGroups_iff (hgroups v hv)).mp ⟨_, hc.groups.1 v hv⟩⟩
  · intro hc
    obtain ⟨extension, hextension⟩ := (exists_overlays_iff h _).mpr fun v hv => (htext v).mpr (hc.extension v hv)
    obtain ⟨output, houtput⟩ := (exists_overlays_iff h _).mpr fun v hv => (hpath v).mpr (hc.output v hv)
    obtain ⟨copiesBack, hcopiesBack⟩ := (exists_overlays_iff h _).mpr fun v hv =>
      Option.isSome_iff_exists.mp (hc.copiesBack v hv)
    obtain ⟨groups, hsaid⟩ := (exists_overlays_iff h _).mpr fun v hv =>
      (exists_saysGroups_iff (hgroups v hv)).mpr (hc.groups v hv)
    exact ⟨⟨extension, output, copiesBack, groups⟩, hextension, houtput, hcopiesBack, hsaid⟩

theorem ofDocument?_eq_some_iff {c : Config} (hroot : d.root = some n) (h : d.IsRecord n)
    (hgroups : ∀ v, ("groups", v) ∈ d.fields n → d.IsRecords v) :
    ofDocument? d = some c ↔ d.SaysConfig n c ∧ d.configJumps n ≤ d.maxJumps := by
  have hrun := reads_readConfig h hgroups 0 (Nat.zero_le _)
  simp only [ofDocument?, hroot, Option.map_eq_some_iff, Prod.exists, hrun, Nat.zero_add]
  simp

end Config

end OpHeaders
