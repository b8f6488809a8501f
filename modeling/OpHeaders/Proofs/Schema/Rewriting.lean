import Mathlib.Logic.Relation
import OpHeaders.Proofs.Schema.Names

/-! What does not matter in a schema. Fields are looked up by their names, so their order and all
that stands under other keys make no difference, and bodies may be tagged. This holds at
every level of a document and also if it is refused: the offence that is reported is found in
the order in which fields are looked up. What matters is the order of the operators and of
the entries that they list. -/
namespace OpHeaders.Schema

open Yaml (Value)

/-! ### Rewritings -/

def tensorNames : List String := ["tensor_types", "optional", "dynamic", "comment"]

def subgraphNames : List String := ["dynamic", "comment"]

def attributeNames : List String := ["type", "required", "default", "comment"]

/-- The fields of an operator that are texts. -/
def remarkNames : List String := ["comment", "add_version", "examples"]

/-- The fields of an operator that list entries, with the names of the fields of these. -/
def listings : List (String × List String) :=
  [("inputs", tensorNames), ("outputs", tensorNames), ("graphs", subgraphNames), ("attrs", attributeNames)]

/-- Keys other than the names that are known, be they texts or not. -/
def AreForeign (known : List String) (es : Entries) : Prop :=
  ∀ e ∈ es, ∀ name ∈ known, e.1 ≠ .string name

/-- Fields in another order, or other entries under keys that are not known. -/
inductive FieldRewrite (known : List String) : Entries → Entries → Prop where
  | permute {es es' : Entries} : Value.distinctKeys es = true → es.Perm es' → FieldRewrite known es es'
  | foreign (before after : Entries) {old new : Entries} : AreForeign known old → AreForeign known new →
    FieldRewrite known (before ++ old ++ after) (before ++ new ++ after)

/-- Another value of one entry; which one that may be depends on the key. -/
inductive ValueRewrite (R : Value → Value → Value → Prop) : Entries → Entries → Prop where
  | value (before after : Entries) {key v w : Value} : R key v w →
    ValueRewrite R (before ++ (key, v) :: after) (before ++ (key, w) :: after)

/-- A tag around a mapping, or other entries under its tags. -/
inductive MappingRewrite (S : Entries → Entries → Prop) : Value → Value → Prop where
  | wrap (tag : String) {v : Value} {es : Entries} : IsMapping v es → MappingRewrite S v (.tagged tag v)
  | under (tag : String) {v w : Value} : MappingRewrite S v w → MappingRewrite S (.tagged tag v) (.tagged tag w)
  | entries {es es' : Entries} : S es es' → MappingRewrite S (.mapping es) (.mapping es')

/-- Another body of one entry of a listing. -/
def BodyRewrite (known : List String) : Entries → Entries → Prop :=
  ValueRewrite fun _ => MappingRewrite (FieldRewrite known)

inductive ListingRewrite : Value → Value → Value → Prop where
  | bodies {name : String} {known : List String} {es es' : Entries} : (name, known) ∈ listings →
    BodyRewrite known es es' → ListingRewrite (.string name) (.mapping es) (.mapping es')

inductive OperatorRewrite : Entries → Entries → Prop where
  | fields {es es' : Entries} : FieldRewrite (remarkNames ++ listingNames) es es' → OperatorRewrite es es'
  | listing {es es' : Entries} : ValueRewrite ListingRewrite es es' → OperatorRewrite es es'

/-- The category keeps its name and its place; what follows it may be anything. -/
inductive RootRewrite : Entries → Entries → Prop where
  | category (key : Value) {ops ops' : Value} (rest : Entries) :
    MappingRewrite (ValueRewrite fun _ => MappingRewrite OperatorRewrite) ops ops' →
    RootRewrite ((key, ops) :: rest) ((key, ops') :: rest)
  | rest (first : Value × Value) (old new : Entries) : RootRewrite (first :: old) (first :: new)

/-- One rewriting, at any place of a document. -/
def DocumentRewrite : Value → Value → Prop := MappingRewrite RootRewrite

/-! ### Lookup -/

variable {es es' : Entries} {name : String} {key v w : Value} {known : List String}
  {R : Value → Value → Value → Prop} {S : Entries → Entries → Prop} {α : Type}

theorem AreForeign.field?_eq (h : AreForeign known es) (hname : name ∈ known) :
    Value.field? name es = none := by
  induction es with
  | nil => rfl
  | cons e es ih =>
    rw [AreForeign, List.forall_mem_cons] at h
    rw [Value.field?_cons_of_ne (h.1 name hname), ih h.2]

theorem FieldRewrite.field?_eq (h : FieldRewrite known es es') (hname : name ∈ known) :
    Value.field? name es = Value.field? name es' := by
  cases h with
  | permute hdistinct hperm => exact Value.field?_eq_of_perm hdistinct hperm name
  | foreign before after hold hnew =>
    simp only [Value.field?_append, hold.field?_eq hname, hnew.field?_eq hname]

theorem ValueRewrite.field?_eq (h : ValueRewrite R es es') (name : String) :
    Value.field? name es = Value.field? name es' ∨
      ∃ v w, Value.field? name es = some v ∧ Value.field? name es' = some w ∧ R (.string name) v w := by
  obtain ⟨before, after, hvalue⟩ := h
  next key v w =>
  rw [Value.field?_append, Value.field?_append]
  cases Value.field? name before with
  | some u => exact .inl rfl
  | none =>
    by_cases hkey : key = .string name
    · subst hkey
      rw [Value.field?_cons_self, Value.field?_cons_self]
      exact .inr ⟨v, w, rfl, rfl, hvalue⟩
    · rw [Value.field?_cons_of_ne hkey, Value.field?_cons_of_ne hkey]
      exact .inl rfl

/-! ### Readers -/

theorem ValueRewrite.mapM_eq {f : Value × Value → Except Malformed α} (h : ValueRewrite R es es')
    (hf : ∀ key v w, R key v w → f (key, v) = f (key, w)) : es.mapM f = es'.mapM f := by
  obtain ⟨before, after, hvalue⟩ := h
  rw [List.mapM_append, List.mapM_append, List.mapM_cons, List.mapM_cons, hf _ _ _ hvalue]

theorem MappingRewrite.exists_entries?_eq (h : MappingRewrite S v w) :
    ∃ es es', v.entries? = some es ∧ w.entries? = some es' ∧ (es = es' ∨ S es es') := by
  induction h with
  | wrap tag hv => exact ⟨_, _, hv.entries?_eq, hv.entries?_eq, .inl rfl⟩
  | under tag _ ih => exact ih
  | entries hes => exact ⟨_, _, rfl, rfl, .inr hes⟩

/-- What is done with the entries of a body is the same if the entries do not matter. -/
theorem MappingRewrite.body_bind_eq (h : MappingRewrite S v w) {f : Entries → Except Malformed α}
    (hf : ∀ es es', S es es' → f es = f es') (p : Place) (offence : Offence) :
    (body p offence v >>= f) = (body p offence w >>= f) := by
  obtain ⟨es, es', hv, hw, hes⟩ := h.exists_entries?_eq
  rw [body, body, hv, hw]
  rcases hes with rfl | hes
  · rfl
  · exact hf es es' hes

section Entries

variable (origin owner : String) (key : Value)

/-- The same for the body of an entry: its name and its place are the same. -/
theorem MappingRewrite.entry_bind_eq (h : MappingRewrite S v w) {kind : EntryKind}
    {f : String × Place × Entries → Except Malformed α}
    (hf : ∀ name p es es', S es es' → f (name, p, es) = f (name, p, es')) :
    (entry origin owner kind (key, v) >>= f) = (entry origin owner kind (key, w) >>= f) := by
  simp only [entry, bind_assoc, pure_bind]
  apply bind_congr
  intro name
  exact h.body_bind_eq (fun es es' hes => hf _ _ es es' hes) _ _

theorem Tensor.load_eq_of_rewrite (h : MappingRewrite (FieldRewrite tensorNames) v w) :
    Tensor.load origin owner (key, v) = Tensor.load origin owner (key, w) := by
  apply h.entry_bind_eq
  intro name p es es' hes
  have htypes := hes.field?_eq (show "tensor_types" ∈ tensorNames by decide)
  have hoptional := hes.field?_eq (show "optional" ∈ tensorNames by decide)
  have hdynamic := hes.field?_eq (show "dynamic" ∈ tensorNames by decide)
  have hcomment := hes.field?_eq (show "comment" ∈ tensorNames by decide)
  simp only [requiredText, text?, flag, comment, htypes, hoptional, hdynamic, hcomment]

theorem Subgraph.load_eq_of_rewrite (h : MappingRewrite (FieldRewrite subgraphNames) v w) :
    Subgraph.load origin owner (key, v) = Subgraph.load origin owner (key, w) := by
  apply h.entry_bind_eq
  intro name p es es' hes
  have hdynamic := hes.field?_eq (show "dynamic" ∈ subgraphNames by decide)
  have hcomment := hes.field?_eq (show "comment" ∈ subgraphNames by decide)
  simp only [text?, flag, comment, hdynamic, hcomment]

theorem Attribute.load_eq_of_rewrite (h : MappingRewrite (FieldRewrite attributeNames) v w) :
    Attribute.load origin owner (key, v) = Attribute.load origin owner (key, w) := by
  apply h.entry_bind_eq
  intro name p es es' hes
  have htype := hes.field?_eq (show "type" ∈ attributeNames by decide)
  have hrequired := hes.field?_eq (show "required" ∈ attributeNames by decide)
  have hdefault := hes.field?_eq (show "default" ∈ attributeNames by decide)
  have hcomment := hes.field?_eq (show "comment" ∈ attributeNames by decide)
  simp only [requiredText, text?, flag, comment, htype, hrequired, hdefault, hcomment]

end Entries

/-! ### Operators -/

/-- The entries that an operator lists in a field. -/
def listed (p : Place) (es : Entries) (name : String) (load : Value × Value → Except Malformed α) :
    Except Malformed (List α) :=
  entriesOf p es name >>= List.mapM load

/-- What is read from two bodies of an operator is the same. -/
structure ReadsAlike (origin owner : String) (es es' : Entries) : Prop where
  remarks : ∀ name ∈ remarkNames, Value.field? name es = Value.field? name es'
  inputs : listed (.operator origin owner) es "inputs" (Tensor.load origin owner) =
    listed (.operator origin owner) es' "inputs" (Tensor.load origin owner)
  outputs : listed (.operator origin owner) es "outputs" (Tensor.load origin owner) =
    listed (.operator origin owner) es' "outputs" (Tensor.load origin owner)
  graphs : listed (.operator origin owner) es "graphs" (Subgraph.load origin owner) =
    listed (.operator origin owner) es' "graphs" (Subgraph.load origin owner)
  attrs : listed (.operator origin owner) es "attrs" (Attribute.load origin owner) =
    listed (.operator origin owner) es' "attrs" (Attribute.load origin owner)

section Operators

variable {origin : String} {p : Place} {load : Value × Value → Except Malformed α}

theorem entriesOf_bind_mapM {β : Type} (k : List α → Except Malformed β) :
    (entriesOf p es name >>= fun fs => fs.mapM load >>= k) = listed p es name load >>= k :=
  (bind_assoc ..).symm

theorem ReadsAlike.loadBody_eq {owner : String} (h : ReadsAlike origin owner es es') :
    Operator.loadBody origin owner es = Operator.loadBody origin owner es' := by
  have hcomment := h.remarks "comment" (by decide)
  have hversion := h.remarks "add_version" (by decide)
  have hexamples := h.remarks "examples" (by decide)
  simp only [Operator.loadBody, entriesOf_bind_mapM, comment, text?, hcomment, hversion, hexamples, h.inputs,
    h.outputs, h.graphs, h.attrs]

theorem FieldRewrite.listed_eq (h : FieldRewrite known es es') (hname : name ∈ known) :
    listed p es name load = listed p es' name load := by
  rw [listed, listed, entriesOf, entriesOf, h.field?_eq hname]

theorem ValueRewrite.listed_eq (h : ValueRewrite ListingRewrite es es')
    (hknown : ∀ names, (name, names) ∈ listings → names = known)
    (hload : ∀ key v w, MappingRewrite (FieldRewrite known) v w → load (key, v) = load (key, w)) :
    listed p es name load = listed p es' name load := by
  rw [listed, listed, entriesOf, entriesOf]
  rcases h.field?_eq name with heq | ⟨v, w, hv, hw, hlisting⟩
  · rw [heq]
  · cases hlisting with
    | bodies hnames hbodies =>
      obtain rfl := hknown _ hnames
      rw [hv, hw]
      exact hbodies.mapM_eq hload

theorem OperatorRewrite.readsAlike (h : OperatorRewrite es es') (origin owner : String) :
    ReadsAlike origin owner es es' := by
  cases h with
  | fields h =>
    constructor
    · intro name hname
      exact h.field?_eq (List.mem_append_left _ hname)
    all_goals exact h.listed_eq (by decide)
  | listing h =>
    constructor
    · intro name hname
      rcases h.field?_eq name with heq | ⟨v, w, -, -, hlisting⟩
      · exact heq
      · cases hlisting with
        | bodies hknown =>
          -- no field that is a text lists entries
          have hapart : ∀ name ∈ remarkNames, name ∉ listingNames := by decide
          exact absurd (List.mem_map_of_mem (f := Prod.fst) hknown) (hapart name hname)
    · exact h.listed_eq (by simp [listings]) fun key _ _ => Tensor.load_eq_of_rewrite origin owner key
    · exact h.listed_eq (by simp [listings]) fun key _ _ => Tensor.load_eq_of_rewrite origin owner key
    · exact h.listed_eq (by simp [listings]) fun key _ _ => Subgraph.load_eq_of_rewrite origin owner key
    · exact h.listed_eq (by simp [listings]) fun key _ _ => Attribute.load_eq_of_rewrite origin owner key

theorem Operator.load_of_ne_null (hv : v ≠ .null) (origin : String) (key : Value) :
    Operator.load origin (key, v) = (do
      let name ← scalarText (.document origin) .key key
      body (.operator origin name) .operatorNotMapping v >>= Operator.loadBody origin name) := by
  cases v with
  | null => exact absurd rfl hv
  | bool _ | number _ | string _ | sequence _ | mapping _ | tagged _ _ => rfl

theorem MappingRewrite.ne_null (h : MappingRewrite S v w) : v ≠ .null ∧ w ≠ .null := by
  obtain ⟨es, es', hv, hw, -⟩ := h.exists_entries?_eq
  constructor
  · rintro rfl
    cases hv
  · rintro rfl
    cases hw

theorem Operator.load_eq_of_rewrite (h : MappingRewrite OperatorRewrite v w) (origin : String) (key : Value) :
    Operator.load origin (key, v) = Operator.load origin (key, w) := by
  -- a null body is no mapping, so neither of the two is taken for an operator without fields
  obtain ⟨hv, hw⟩ := h.ne_null
  rw [Operator.load_of_ne_null hv, Operator.load_of_ne_null hw]
  apply bind_congr
  intro name
  apply h.body_bind_eq
  intro es es' hes
  exact (hes.readsAlike origin name).loadBody_eq

end Operators

/-! ### Documents -/

theorem Catalog.ofValue_eq_of_rewrite (h : DocumentRewrite v w) (origin : String) :
    Catalog.ofValue origin v = Catalog.ofValue origin w := by
  apply h.body_bind_eq
  intro es es' hes
  cases hes with
  | rest first old new => rfl
  | category key rest hops =>
    apply bind_congr
    intro category
    apply hops.body_bind_eq
    intro fs fs' hfs
    rw [hfs.mapM_eq fun key _ _ h => Operator.load_eq_of_rewrite h origin key]

/-! ### Order -/

/-- The names of the operators of a document, each with the names of the entries that it lists. -/
def outlineOf (v : Value) : List (String × List (List String)) :=
  (operatorsOf v).map fun e =>
    (textOf e.1, listingNames.map fun name => (givenEntries (fieldsOf e.2) name).map fun f => textOf f.1)

def Catalog.outline (c : Catalog) : List (String × List (List String)) :=
  c.operators.map fun op => (op.name, [op.inputs.map Tensor.name, op.outputs.map Tensor.name,
    op.graphs.map Subgraph.name, op.attrs.map Attribute.name])

/-- A catalog keeps the order of the document. -/
theorem IsSchema.outline_denoted (h : IsSchema v) : (Catalog.denoted v).outline = outlineOf v := by
  cases h with
  | document hes _ hops _ =>
    rw [Catalog.denoted_eq hes hops, outlineOf, operatorsOf_eq hes hops, Catalog.outline, List.map_map]
    apply List.map_congr_left
    intro e _
    simp [Operator.denoted, Operator.withFields, listingNames, Tensor.denoted, Subgraph.denoted,
      Attribute.denoted, Function.comp_def]

/-- **Indifference.** Documents that rewritings lead to from one another give the same result, be it a
catalog or an error. The order that rewritings keep does matter: documents with the same
catalog name the same operators, with the same entries, in the same order. -/
theorem Catalog.ofValue_indifferent :
    (∀ v w, Relation.EqvGen DocumentRewrite v w → ∀ origin, ofValue origin v = ofValue origin w) ∧
    ∀ v w origin c, ofValue origin v = .ok c → ofValue origin w = .ok c → outlineOf v = outlineOf w := by
  constructor
  · intro v w h origin
    induction h with
    | rel v w h => exact ofValue_eq_of_rewrite h origin
    | refl v => rfl
    | symm v w _ ih => exact ih.symm
    | trans u v w _ _ ih ih' => exact ih.trans ih'
  · intro v w origin c hv hw
    obtain ⟨hschema, hcatalog⟩ := isSchema_of_ofValue hv
    obtain ⟨hschema', hcatalog'⟩ := isSchema_of_ofValue hw
    rw [← hschema.outline_denoted, ← hschema'.outline_denoted, ← hcatalog, hcatalog']

/-- A document with one operator that has one input. -/
def sample (fields more rest : Entries) : Value :=
  let input : Value := .mapping [(.string "x", .mapping fields)]
  .mapping ((.string "nn", .mapping [(.string "Add", .mapping ((.string "inputs", input) :: more))]) :: rest)

def sampleTypes : Value × Value := (.string "tensor_types", .string "T")

def sampleDynamic : Value × Value := (.string "dynamic", .bool true)

def plainSample : Value := sample [sampleTypes, sampleDynamic] [] []

/-- The same with its fields in the other order, and with a tag and entries that are not read. -/
def dressedSample : Value :=
  .tagged "!t" (sample [sampleDynamic, sampleTypes] [(.bool true, .null)] [(.null, .null)])

theorem ofValue_indifferent_sample :
    Relation.EqvGen DocumentRewrite plainSample dressedSample ∧
    Catalog.ofValue "o" plainSample = Catalog.ofValue "o" dressedSample ∧
    ∃ c, Catalog.ofValue "o" plainSample = .ok c ∧ Catalog.ofValue "o" dressedSample = .ok c ∧
      outlineOf plainSample = outlineOf dressedSample := by
  have hpermute : DocumentRewrite plainSample (sample [sampleDynamic, sampleTypes] [] []) := by
    refine .entries (.category _ _ (.entries (.value [] [] (.entries (.listing (.value [] [] ?_))))))
    exact .bodies List.mem_cons_self (.value [] [] (.entries (.permute rfl (.swap _ _ _))))
  have hforeign : DocumentRewrite (sample [sampleDynamic, sampleTypes] [] [])
      (sample [sampleDynamic, sampleTypes] [(.bool true, .null)] []) := by
    refine .entries (.category _ _ (.entries (.value [] [] (.entries (.fields ?_)))))
    refine @FieldRewrite.foreign _ [_] [] [] [(.bool true, .null)] ?_ ?_
    · simp [AreForeign]
    · simp [AreForeign]
  have hrest : DocumentRewrite (sample [sampleDynamic, sampleTypes] [(.bool true, .null)] [])
      (sample [sampleDynamic, sampleTypes] [(.bool true, .null)] [(.null, .null)]) :=
    .entries (.rest _ _ _)
  have hwrap : DocumentRewrite
      (sample [sampleDynamic, sampleTypes] [(.bool true, .null)] [(.null, .null)]) dressedSample :=
    .wrap "!t" (.bare _)
  have h : Relation.EqvGen DocumentRewrite plainSample dressedSample :=
    .trans _ _ _ (.rel _ _ hpermute) (.trans _ _ _ (.rel _ _ hforeign) (.trans _ _ _ (.rel _ _ hrest)
      (.rel _ _ hwrap)))
  have heq := Catalog.ofValue_indifferent.1 _ _ h "o"
  obtain ⟨c, hc⟩ : ∃ c, Catalog.ofValue "o" plainSample = .ok c := ⟨_, rfl⟩
  have hc' := heq.symm.trans hc
  exact ⟨h, heq, c, hc, hc', Catalog.ofValue_indifferent.2 _ _ "o" c hc hc'⟩

end OpHeaders.Schema
