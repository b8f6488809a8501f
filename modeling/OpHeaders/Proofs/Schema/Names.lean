import Mathlib.Data.List.Nodup
import OpHeaders.Proofs.Schema.Acceptance
import OpHeaders.Proofs.Yaml.Keys

/-! When the names of a catalog are unique. The keys of a mapping differ as values, but a
name is the text of its key, and a truth value has the same text as the string that spells
it. No other two keys share a text, so names are unique unless such a pair stands in one
mapping. -/
namespace OpHeaders.Schema

open Yaml (Value)

variable {es : Entries} {v : Value}

/-! ### Names of one mapping -/

/-- A truth value and the string that spells it are both keys. -/
def IsAmbiguous (es : Entries) : Prop :=
  ∃ b : Bool, ∃ e ∈ es, ∃ f ∈ es, e.1 = .bool b ∧ f.1 = .string (textOf (.bool b))

theorem textOf_bool_inj {a b : Bool} (h : textOf (.bool a) = textOf (.bool b)) : a = b := by
  revert h
  cases a <;> cases b <;> decide

/-- Texts that differ as values and not as texts are a truth value and its spelling. -/
theorem eq_bool_of_textOf_eq {k l : Value} (hk : IsText k) (hl : IsText l) (hsame : Value.same k l = false)
    (h : textOf k = textOf l) : ∃ b : Bool, k = .bool b ∧ l = .string (textOf (.bool b)) ∨
      l = .bool b ∧ k = .string (textOf (.bool b)) := by
  cases hk with
  | string s =>
    cases hl with
    | string t =>
      have hst : s = t := h
      simp [Value.same, hst] at hsame
    | bool b => exact ⟨b, .inr ⟨rfl, congrArg Value.string h⟩⟩
  | bool a =>
    cases hl with
    | string t => exact ⟨a, .inl ⟨rfl, congrArg Value.string h.symm⟩⟩
    | bool b => simp [Value.same, textOf_bool_inj h] at hsame

theorem nodup_textOf_iff (hdistinct : Value.distinctKeys es = true) (htext : ∀ e ∈ es, IsText e.1) :
    (es.map fun e => textOf e.1).Nodup ↔ ¬ IsAmbiguous es := by
  rw [Value.distinctKeys_iff_pairwise] at hdistinct
  constructor
  · rintro hnodup ⟨b, e, he, f, hf, hbool, hstring⟩
    have htexts : textOf e.1 = textOf f.1 := by rw [hbool, hstring]; rfl
    have hef : e = f := List.inj_on_of_nodup_map hnodup he hf htexts
    rw [hef, hstring] at hbool
    cases hbool
  · intro hambiguous
    rw [List.Nodup, List.pairwise_map]
    refine hdistinct.imp_of_mem fun {e f} he hf hsame htexts => hambiguous ?_
    obtain ⟨b, ⟨hbool, hstring⟩ | ⟨hbool, hstring⟩⟩ :=
      eq_bool_of_textOf_eq (htext e he) (htext f hf) hsame htexts
    · exact ⟨b, e, he, f, hf, hbool, hstring⟩
    · exact ⟨b, f, hf, e, he, hbool, hstring⟩

/-! ### Mappings inside of a document -/

theorem IsMapping.distinctKeys (h : IsMapping v es) (hv : v.HasDistinctKeys) :
    Value.distinctKeys es = true ∧ ∀ e ∈ es, e.2.HasDistinctKeys := by
  induction h with
  | bare es =>
    cases hv with
    | mapping hdistinct _ hvalues => exact ⟨hdistinct, hvalues⟩
  | tagged tag _ ih =>
    cases hv with
    | tagged _ hv => exact ih hv

theorem HasField.mem {name : String} (h : HasField name v es) : ∃ e ∈ es, e.2 = v := by
  induction h with
  | here es => exact ⟨_, List.mem_cons_self, rfl⟩
  | there _ _ ih =>
    obtain ⟨e, he, heq⟩ := ih
    exact ⟨e, List.mem_cons_of_mem _ he, heq⟩

theorem nodup_givenEntries_iff {P : Entries → Prop} {name : String}
    (hvalues : ∀ e ∈ es, e.2.HasDistinctKeys) (h : Allows (IsListing P) es name) :
    ((givenEntries es name).map fun e => textOf e.1).Nodup ↔ ¬ IsAmbiguous (givenEntries es name) := by
  obtain ⟨hmapping, hentries⟩ := (allows_isListing_iff es name P).mp h
  refine nodup_textOf_iff ?_ fun e he => (hentries e he).key
  rw [allows_iff] at hmapping
  rw [givenEntries]
  cases hgiven : given? es name with
  | none => rfl
  | some w =>
    obtain ⟨e, he, rfl⟩ := ((given?_eq_some_iff es name w).mp hgiven).1.mem
    obtain ⟨fs, hfs⟩ := hmapping _ hgiven
    have hkeys := hvalues e he
    rw [hfs] at hkeys
    rw [hfs]
    exact ((IsMapping.bare fs).distinctKeys hkeys).1

/-! ### Catalogs -/

structure Operator.HasUniqueNames (op : Operator) : Prop where
  inputs : (op.inputs.map Tensor.name).Nodup
  outputs : (op.outputs.map Tensor.name).Nodup
  graphs : (op.graphs.map Subgraph.name).Nodup
  attrs : (op.attrs.map Attribute.name).Nodup

structure Catalog.HasUniqueNames (c : Catalog) : Prop where
  operators : (c.operators.map Operator.name).Nodup
  entries : ∀ op ∈ c.operators, op.HasUniqueNames

theorem Catalog.hasUniqueNames_mk_iff (category : String) (operators : List Operator) :
    HasUniqueNames ⟨category, operators⟩ ↔
      (operators.map Operator.name).Nodup ∧ ∀ op ∈ operators, op.HasUniqueNames :=
  ⟨fun h => ⟨h.operators, h.entries⟩, fun h => ⟨h.1, h.2⟩⟩

/-- The fields of an operator that list entries with names. -/
def listingNames : List String := ["inputs", "outputs", "graphs", "attrs"]

/-- The operators of a document. -/
def operatorsOf (v : Value) : Entries := (fieldsOf v).head?.elim [] fun e => fieldsOf e.2

theorem operatorsOf_eq {key ops : Value} {rest : Entries} (hv : IsMapping v ((key, ops) :: rest))
    (hops : IsMapping ops es) : operatorsOf v = es := by
  rw [operatorsOf, hv.fieldsOf_eq, List.head?_cons, Option.elim_some, hops.fieldsOf_eq]

/-- The mappings of a document whose keys are names: that of the operators, and those that list the
entries of an operator. -/
def namings (v : Value) : List Entries :=
  operatorsOf v :: (operatorsOf v).flatMap fun e => listingNames.map (givenEntries (fieldsOf e.2))

theorem Operator.hasUniqueNames_denoted_iff (e : Value × Value) : (Operator.denoted e).HasUniqueNames ↔
    ∀ name ∈ listingNames, ((givenEntries (fieldsOf e.2) name).map fun f => textOf f.1).Nodup := by
  simp only [listingNames, List.forall_mem_cons, List.not_mem_nil, false_imp_iff, implies_true, and_true]
  constructor
  · rintro ⟨hinputs, houtputs, hgraphs, hattrs⟩
    simp only [denoted, withFields, List.map_map] at hinputs houtputs hgraphs hattrs
    exact ⟨hinputs, houtputs, hgraphs, hattrs⟩
  · rintro ⟨hinputs, houtputs, hgraphs, hattrs⟩
    constructor <;> simpa only [denoted, withFields, List.map_map]

/-- Where an operator lists entries, it lists them as the grammar says. -/
theorem IsOperator.allows_isListing {e : Value × Value} (he : IsOperator e) :
    ∀ name ∈ listingNames, ∃ P, Allows (IsListing P) (fieldsOf e.2) name := by
  rcases he.value with hnull | ⟨es, hes, hfields⟩
  · rw [hnull]
    exact fun name _ => ⟨fun _ => True, fun v hv => by cases hv⟩
  · rw [hes.fieldsOf_eq]
    simp only [listingNames, List.forall_mem_cons, List.not_mem_nil, false_imp_iff, implies_true, and_true]
    exact ⟨⟨_, hfields.inputs⟩, ⟨_, hfields.outputs⟩, ⟨_, hfields.graphs⟩, ⟨_, hfields.attrs⟩⟩

theorem IsOperator.hasUniqueNames_denoted_iff {e : Value × Value} (he : IsOperator e)
    (hvalue : e.2.HasDistinctKeys) : (Operator.denoted e).HasUniqueNames ↔
      ∀ name ∈ listingNames, ¬ IsAmbiguous (givenEntries (fieldsOf e.2) name) := by
  have hvalues : ∀ f ∈ fieldsOf e.2, f.2.HasDistinctKeys := by
    rcases he.value with hnull | ⟨es, hes, -⟩
    · rw [hnull]
      exact fun _ h => absurd h List.not_mem_nil
    · rw [hes.fieldsOf_eq]
      exact (hes.distinctKeys hvalue).2
  rw [Operator.hasUniqueNames_denoted_iff]
  refine forall₂_congr fun name hname => ?_
  obtain ⟨P, hlisting⟩ := he.allows_isListing name hname
  exact nodup_givenEntries_iff hvalues hlisting

theorem forall_mem_namings {P : Entries → Prop} : (∀ es ∈ namings v, P es) ↔
    P (operatorsOf v) ∧ ∀ e ∈ operatorsOf v, ∀ name ∈ listingNames, P (givenEntries (fieldsOf e.2) name) := by
  simp only [namings, List.forall_mem_cons, List.forall_mem_flatMap, List.forall_mem_map]

theorem IsSchema.hasUniqueNames_denoted_iff (h : IsSchema v) (hv : v.HasDistinctKeys) :
    (Catalog.denoted v).HasUniqueNames ↔ ∀ es ∈ namings v, ¬ IsAmbiguous es := by
  cases h with
  | @document _ ops _ es hes hkey hops hoperators =>
    have hoperatorsOf := operatorsOf_eq hes hops
    obtain ⟨hdistinct, hvalues⟩ := hops.distinctKeys ((hes.distinctKeys hv).2 _ List.mem_cons_self)
    have hnames := nodup_textOf_iff hdistinct fun e he => (hoperators e he).key
    have hentries : (∀ op ∈ es.map Operator.denoted, op.HasUniqueNames) ↔
        ∀ e ∈ es, ∀ name ∈ listingNames, ¬ IsAmbiguous (givenEntries (fieldsOf e.2) name) := by
      rw [List.forall_mem_map]
      exact forall₂_congr fun e he => (hoperators e he).hasUniqueNames_denoted_iff (hvalues e he)
    rw [forall_mem_namings, hoperatorsOf, Catalog.denoted_eq hes hops, ← hnames, ← hentries,
      Catalog.hasUniqueNames_mk_iff, List.map_map]
    rfl

/-- The names of the catalog of a text are as unique as its keys are. -/
theorem Catalog.exists_namings_of_ofText {origin text : String} {c : Catalog}
    (h : Catalog.ofText origin text = .ok c) :
    ∃ v, Value.ofText? text = some v ∧ (c.HasUniqueNames ↔ ∀ es ∈ namings v, ¬ IsAmbiguous es) := by
  unfold Catalog.ofText at h
  split at h
  · next v hv =>
    obtain ⟨hschema, rfl⟩ := Catalog.isSchema_of_ofValue h
    exact ⟨v, hv, hschema.hasUniqueNames_denoted_iff (Value.hasDistinctKeys_of_ofText? hv)⟩
  · cases h

/-- The names of a catalog are unique if and only if no mapping of names has a truth value and the
string that spells it as keys. -/
theorem Catalog.hasUniqueNames_iff {origin : String} {c : Catalog} (hv : v.HasDistinctKeys)
    (h : Catalog.ofValue origin v = .ok c) :
    c.HasUniqueNames ↔ ∀ es ∈ namings v, ¬ IsAmbiguous es := by
  obtain ⟨hschema, rfl⟩ := Catalog.isSchema_of_ofValue h
  exact hschema.hasUniqueNames_denoted_iff hv

/-- A document whose names are truth values and strings. -/
def spelled (name : String) : Value :=
  let integer : Value := .mapping [(.string "type", .string "INT")]
  let body : Value := .mapping [(.string "attrs", .mapping [(.bool true, integer), (.string "false", integer)])]
  .mapping [(.string "nn", .mapping [(.bool true, body), (.string name, .null)])]

theorem hasDistinctKeys_spelled (name : String) : (spelled name).HasDistinctKeys := by
  simp [spelled, Value.distinctKeys, Value.same]

/-- The same text names things of different kinds. -/
theorem hasUniqueNames_spelled :
    (spelled "false").HasDistinctKeys ∧
    ∃ c, Catalog.ofValue "t" (spelled "false") = .ok c ∧ c.HasUniqueNames := by
  have hkeys := hasDistinctKeys_spelled "false"
  obtain ⟨c, hc⟩ : ∃ c, Catalog.ofValue "t" (spelled "false") = .ok c := ⟨_, rfl⟩
  refine ⟨hkeys, c, hc, (Catalog.hasUniqueNames_iff hkeys hc).mpr ?_⟩
  rw [forall_mem_namings]
  simp [operatorsOf, spelled, listingNames, fieldsOf, givenEntries, given?, IsAmbiguous, Value.entries?,
    Value.field?, textOf]

/-- Two operators get the name `true`. -/
theorem not_hasUniqueNames_spelled :
    (spelled "true").HasDistinctKeys ∧
    ∃ c, Catalog.ofValue "t" (spelled "true") = .ok c ∧ ¬ c.HasUniqueNames := by
  refine ⟨hasDistinctKeys_spelled "true", _, rfl, fun h => ?_⟩
  exact absurd h.operators (by decide)

end OpHeaders.Schema
