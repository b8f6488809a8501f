import OpHeaders.Proofs.Schema.Grammar

/-! A document is accepted exactly when the grammar says that it is a schema, and its
catalog is the one that the schema denotes. Each reader is described by one equivalence:
what has to hold for it to give a result, and which result that is. -/
namespace OpHeaders.Schema

open Yaml (Value)

variable {α β : Type}

theorem bind_eq_ok_iff {x : Except Malformed α} {f : α → Except Malformed β} {b : β} :
    (x >>= f) = .ok b ↔ ∃ a, x = .ok a ∧ f a = .ok b := by
  cases x <;> simp [bind, Except.bind]

theorem pure_eq_ok_iff {a b : α} : (pure a : Except Malformed α) = .ok b ↔ b = a := by
  simp [pure, Except.pure, eq_comm]

theorem map_eq_ok_iff {f : α → β} {x : Except Malformed α} {b : β} :
    x.map f = .ok b ↔ ∃ a, x = .ok a ∧ b = f a := by
  cases x <;> simp [Except.map, eq_comm]

/-- A reader of one entry, exact on what it accepts, is exact on a list of entries. -/
theorem mapM_eq_ok_iff {f : α → Except Malformed β} {P : α → Prop} {g : α → β}
    (hf : ∀ a b, f a = .ok b ↔ P a ∧ b = g a) (l : List α) (bs : List β) :
    l.mapM f = .ok bs ↔ (∀ a ∈ l, P a) ∧ bs = l.map g := by
  induction l generalizing bs with
  | nil => simp [pure_eq_ok_iff]
  | cons a l ih =>
    simp only [List.mapM_cons, bind_eq_ok_iff, hf, ih, pure_eq_ok_iff, List.forall_mem_cons, List.map_cons]
    constructor
    · rintro ⟨_, ⟨ha, rfl⟩, _, ⟨hl, rfl⟩, rfl⟩
      exact ⟨⟨ha, hl⟩, rfl⟩
    · rintro ⟨⟨ha, hl⟩, rfl⟩
      exact ⟨g a, ⟨ha, rfl⟩, l.map g, ⟨hl, rfl⟩, rfl⟩

/-! ### Fields -/

section Fields

variable (p : Place) (part : Part) (es : Entries) (name : String)

theorem scalarText_eq_ok_iff (v : Value) (s : String) :
    scalarText p part v = .ok s ↔ IsText v ∧ s = textOf v := by
  constructor
  · intro h
    cases v with
    | string t => cases h; exact ⟨.string s, rfl⟩
    | bool b => cases h; exact ⟨.bool b, by cases b <;> rfl⟩
    | null | number _ | sequence _ | mapping _ | tagged _ _ => cases h
  · rintro ⟨h, rfl⟩
    cases h with
    | string s => rfl
    | bool b => cases b <;> rfl

theorem text?_eq : text? p es name =
    match given? es name with
    | none => .ok none
    | some v => (scalarText p (.field name) v).map some := by
  rw [text?, given?]
  cases Value.field? name es with
  | none => rfl
  | some v => cases v <;> rfl

theorem flag_eq : flag p es name =
    match given? es name with
    | none => .ok false
    | some (.bool b) => .ok b
    | some _ => .error ⟨p, .notFlag name⟩ := by
  rw [flag, given?]
  cases Value.field? name es with
  | none => rfl
  | some v => cases v <;> rfl

theorem entriesOf_eq : entriesOf p es name =
    match given? es name with
    | none => .ok []
    | some (.mapping fs) => .ok fs
    | some _ => .error ⟨p, .entriesNotMapping name⟩ := by
  rw [entriesOf, given?]
  cases Value.field? name es with
  | none => rfl
  | some v => cases v <;> rfl

theorem text?_eq_ok_iff (t? : Option String) :
    text? p es name = .ok t? ↔ Allows IsText es name ∧ t? = givenText? es name := by
  rw [text?_eq, allows_iff, givenText?]
  cases given? es name with
  | none => simp [eq_comm]
  | some v => simp [map_eq_ok_iff, scalarText_eq_ok_iff, and_assoc]

theorem requiredText_eq_ok_iff (s : String) :
    requiredText p es name = .ok s ↔
      Requires IsText es name ∧ s = (givenText? es name).getD "" := by
  have hnull : ¬IsText .null := by rintro ⟨⟩
  rw [requires_iff hnull]
  simp only [requiredText, bind_eq_ok_iff, text?_eq_ok_iff, allows_iff, givenText?]
  cases given? es name with
  | none => simp
  | some v =>
    constructor
    · rintro ⟨_, ⟨h, rfl⟩, hs⟩
      exact ⟨⟨v, rfl, h v rfl⟩, pure_eq_ok_iff.mp hs⟩
    · rintro ⟨⟨_, ⟨⟩, h⟩, rfl⟩
      refine ⟨_, ⟨?_, rfl⟩, rfl⟩
      rintro _ ⟨⟩
      exact h

theorem flag_eq_ok_iff (b : Bool) :
    flag p es name = .ok b ↔ Allows IsFlag es name ∧ b = givenFlag es name := by
  rw [flag_eq, allows_iff, givenFlag]
  cases given? es name with
  | none => simp [eq_comm]
  | some v =>
    simp only [Option.some.injEq, forall_eq', Option.elim_some]
    constructor
    · intro h
      cases v with
      | bool c => cases h; exact ⟨.bool b, rfl⟩
      | null | number _ | string _ | sequence _ | mapping _ | tagged _ _ => cases h
    · rintro ⟨⟨c⟩, rfl⟩
      rfl

theorem comment_eq_ok_iff (s : String) :
    comment p es = .ok s ↔ Allows IsText es "comment" ∧ s = remark es := by
  simp only [comment, map_eq_ok_iff, text?_eq_ok_iff, remark, and_assoc, exists_and_left, exists_eq_left]

theorem body_eq_ok_iff (offence : Offence) (v : Value) :
    body p offence v = .ok es ↔ IsMapping v es := by
  rw [isMapping_iff, body]
  cases v.entries? <;> simp

theorem entriesOf_eq_ok_iff (fs : Entries) :
    entriesOf p es name = .ok fs ↔
      Allows (fun v => ∃ fs, v = .mapping fs) es name ∧ fs = givenEntries es name := by
  rw [entriesOf_eq, allows_iff, givenEntries]
  cases given? es name with
  | none => simp [eq_comm]
  | some v =>
    simp only [Option.some.injEq, forall_eq', Option.elim_some]
    constructor
    · intro h
      cases v with
      | mapping _ => cases h; exact ⟨⟨fs, rfl⟩, rfl⟩
      | null | bool _ | number _ | string _ | sequence _ | tagged _ _ => cases h
    · rintro ⟨⟨gs, rfl⟩, rfl⟩
      rfl

theorem allows_isListing_iff (P : Entries → Prop) :
    Allows (IsListing P) es name ↔
      Allows (fun v => ∃ fs, v = .mapping fs) es name ∧ ∀ e ∈ givenEntries es name, IsEntry P e := by
  rw [allows_iff, allows_iff, givenEntries]
  cases given? es name with
  | none => simp
  | some v =>
    simp only [Option.some.injEq, forall_eq', Option.elim_some]
    constructor
    · rintro ⟨h⟩
      exact ⟨⟨_, rfl⟩, h⟩
    · rintro ⟨⟨fs, rfl⟩, h⟩
      exact .mapping h

end Fields

/-! ### Entries of an operator -/

section Entries

variable (origin owner : String) (kind : EntryKind) (e : Value × Value)

theorem isEntry_iff (P : Entries → Prop) :
    IsEntry P e ↔ (IsText e.1 ∧ ∃ es, IsMapping e.2 es) ∧ P (fieldsOf e.2) := by
  constructor
  · rintro ⟨hkey, es, hes, h⟩
    rw [hes.fieldsOf_eq]
    exact ⟨⟨hkey, es, hes⟩, h⟩
  · rintro ⟨⟨hkey, es, hes⟩, h⟩
    rw [hes.fieldsOf_eq] at h
    exact ⟨hkey, es, hes, h⟩

theorem entry_eq_ok_iff (r : String × Place × Entries) :
    entry origin owner kind e = .ok r ↔ (IsText e.1 ∧ ∃ es, IsMapping e.2 es) ∧
      r = (textOf e.1, .entry origin owner kind (textOf e.1), fieldsOf e.2) := by
  simp only [entry, bind_eq_ok_iff, scalarText_eq_ok_iff, body_eq_ok_iff, pure_eq_ok_iff]
  constructor
  · rintro ⟨_, ⟨hkey, rfl⟩, es, hes, rfl⟩
    exact ⟨⟨hkey, es, hes⟩, by rw [hes.fieldsOf_eq]⟩
  · rintro ⟨⟨hkey, es, hes⟩, rfl⟩
    exact ⟨_, ⟨hkey, rfl⟩, es, hes, by rw [hes.fieldsOf_eq]⟩

theorem Tensor.load_eq_ok_iff (t : Tensor) :
    Tensor.load origin owner e = .ok t ↔ IsEntry TensorFields e ∧ t = Tensor.denoted e := by
  simp only [Tensor.load, bind_eq_ok_iff, entry_eq_ok_iff, requiredText_eq_ok_iff, flag_eq_ok_iff,
    comment_eq_ok_iff, pure_eq_ok_iff, isEntry_iff]
  constructor
  · rintro ⟨_, ⟨hentry, rfl⟩, _, ⟨htypes, rfl⟩, _, ⟨hopt, rfl⟩, _, ⟨hdyn, rfl⟩, _, ⟨hcomment, rfl⟩, rfl⟩
    exact ⟨⟨hentry, htypes, hopt, hdyn, hcomment⟩, rfl⟩
  · rintro ⟨⟨hentry, h⟩, rfl⟩
    exact ⟨_, ⟨hentry, rfl⟩, _, ⟨h.types, rfl⟩, _, ⟨h.isOptional, rfl⟩, _, ⟨h.isDynamic, rfl⟩,
      _, ⟨h.comment, rfl⟩, rfl⟩

theorem Subgraph.load_eq_ok_iff (g : Subgraph) :
    Subgraph.load origin owner e = .ok g ↔ IsEntry SubgraphFields e ∧ g = Subgraph.denoted e := by
  simp only [Subgraph.load, bind_eq_ok_iff, entry_eq_ok_iff, flag_eq_ok_iff, comment_eq_ok_iff,
    pure_eq_ok_iff, isEntry_iff]
  constructor
  · rintro ⟨_, ⟨hentry, rfl⟩, _, ⟨hdyn, rfl⟩, _, ⟨hcomment, rfl⟩, rfl⟩
    exact ⟨⟨hentry, hdyn, hcomment⟩, rfl⟩
  · rintro ⟨⟨hentry, h⟩, rfl⟩
    exact ⟨_, ⟨hentry, rfl⟩, _, ⟨h.isDynamic, rfl⟩, _, ⟨h.comment, rfl⟩, rfl⟩

theorem Attribute.load_eq_ok_iff (a : Attribute) :
    Attribute.load origin owner e = .ok a ↔
      IsEntry AttributeFields e ∧ a = Attribute.denoted e := by
  simp only [Attribute.load, bind_eq_ok_iff, entry_eq_ok_iff, requiredText_eq_ok_iff, flag_eq_ok_iff,
    text?_eq_ok_iff, comment_eq_ok_iff, pure_eq_ok_iff, isEntry_iff]
  constructor
  · rintro ⟨_, ⟨hentry, rfl⟩, _, ⟨htype, rfl⟩, _, ⟨hreq, rfl⟩, _, ⟨hdefault, rfl⟩, _, ⟨hcomment, rfl⟩, rfl⟩
    exact ⟨⟨hentry, htype, hreq, hdefault, hcomment⟩, rfl⟩
  · rintro ⟨⟨hentry, h⟩, rfl⟩
    exact ⟨_, ⟨hentry, rfl⟩, _, ⟨h.type, rfl⟩, _, ⟨h.isRequired, rfl⟩, _, ⟨h.default?, rfl⟩,
      _, ⟨h.comment, rfl⟩, rfl⟩

end Entries

/-! ### Operators and catalogs -/

section Operators

variable (origin name : String) (e : Value × Value)

theorem Operator.loadBody_eq_ok_iff (es : Entries) (op : Operator) :
    Operator.loadBody origin name es = .ok op ↔ OperatorFields es ∧ op = .withFields name es := by
  simp only [Operator.loadBody, bind_eq_ok_iff, comment_eq_ok_iff, text?_eq_ok_iff, entriesOf_eq_ok_iff,
    mapM_eq_ok_iff (Tensor.load_eq_ok_iff origin name),
    mapM_eq_ok_iff (Subgraph.load_eq_ok_iff origin name),
    mapM_eq_ok_iff (Attribute.load_eq_ok_iff origin name), pure_eq_ok_iff]
  have hdescription : (if (remark es).isEmpty then none else some (remark es)) =
      (some (remark es)).filter (· ≠ "") := by
    simp [Option.filter_some]
  constructor
  · rintro ⟨_, ⟨hcomment, rfl⟩, _, ⟨hadded, rfl⟩, _, ⟨hexamples, rfl⟩,
      _, ⟨hin, rfl⟩, _, ⟨hins, rfl⟩, _, ⟨hout, rfl⟩, _, ⟨houts, rfl⟩,
      _, ⟨hgraph, rfl⟩, _, ⟨hgraphs, rfl⟩, _, ⟨hattr, rfl⟩, _, ⟨hattrs, rfl⟩, rfl⟩
    refine ⟨⟨hcomment, hadded, hexamples, ?_, ?_, ?_, ?_⟩, by rw [withFields, hdescription]⟩
    · exact (allows_isListing_iff es "inputs" _).mpr ⟨hin, hins⟩
    · exact (allows_isListing_iff es "outputs" _).mpr ⟨hout, houts⟩
    · exact (allows_isListing_iff es "graphs" _).mpr ⟨hgraph, hgraphs⟩
    · exact (allows_isListing_iff es "attrs" _).mpr ⟨hattr, hattrs⟩
  · rintro ⟨h, rfl⟩
    obtain ⟨hin, hins⟩ := (allows_isListing_iff es "inputs" _).mp h.inputs
    obtain ⟨hout, houts⟩ := (allows_isListing_iff es "outputs" _).mp h.outputs
    obtain ⟨hgraph, hgraphs⟩ := (allows_isListing_iff es "graphs" _).mp h.graphs
    obtain ⟨hattr, hattrs⟩ := (allows_isListing_iff es "attrs" _).mp h.attrs
    exact ⟨_, ⟨h.comment, rfl⟩, _, ⟨h.addedIn, rfl⟩, _, ⟨h.examples, rfl⟩,
      _, ⟨hin, rfl⟩, _, ⟨hins, rfl⟩, _, ⟨hout, rfl⟩, _, ⟨houts, rfl⟩,
      _, ⟨hgraph, rfl⟩, _, ⟨hgraphs, rfl⟩, _, ⟨hattr, rfl⟩, _, ⟨hattrs, rfl⟩,
      by rw [withFields, hdescription]⟩

theorem Operator.withFields_nil : Operator.withFields name [] = { name } := by
  have hremark : remark [] = "" := rfl
  simp [withFields, hremark, givenText?, givenEntries, given?_nil]

theorem Operator.load_eq_ok_iff (op : Operator) :
    Operator.load origin e = .ok op ↔ IsOperator e ∧ op = Operator.denoted e := by
  obtain ⟨key, v⟩ := e
  simp only [Operator.load, bind_eq_ok_iff, scalarText_eq_ok_iff]
  by_cases hv : v = .null
  · subst hv
    simp only [pure_eq_ok_iff]
    constructor
    · rintro ⟨_, ⟨hkey, rfl⟩, rfl⟩
      exact ⟨⟨hkey, .inl rfl⟩, (withFields_nil _).symm⟩
    · rintro ⟨h, rfl⟩
      exact ⟨_, ⟨h.key, rfl⟩, withFields_nil _⟩
  · simp only [bind_eq_ok_iff, body_eq_ok_iff, loadBody_eq_ok_iff]
    constructor
    · rintro ⟨_, ⟨hkey, rfl⟩, es, hes, h, rfl⟩
      exact ⟨⟨hkey, .inr ⟨es, hes, h⟩⟩, by rw [denoted, hes.fieldsOf_eq]⟩
    · rintro ⟨⟨hkey, hbody⟩, rfl⟩
      obtain ⟨es, hes, h⟩ := hbody.resolve_left hv
      exact ⟨_, ⟨hkey, rfl⟩, es, hes, h, by rw [denoted, hes.fieldsOf_eq]⟩

theorem Catalog.denoted_eq {v key ops : Value} {rest es : Entries} (hv : IsMapping v ((key, ops) :: rest))
    (hops : IsMapping ops es) : Catalog.denoted v = ⟨textOf key, es.map Operator.denoted⟩ := by
  rw [denoted, hv.fieldsOf_eq]
  simp only [hops.fieldsOf_eq]

theorem Catalog.isSchema_of_ofValue {origin : String} {v : Value} {c : Catalog}
    (h : Catalog.ofValue origin v = .ok c) : IsSchema v ∧ c = Catalog.denoted v := by
  simp only [Catalog.ofValue, bind_eq_ok_iff, body_eq_ok_iff] at h
  obtain ⟨es, hes, h⟩ := h
  cases es with
  | nil => cases h
  | cons first rest =>
    obtain ⟨key, ops⟩ := first
    simp only [bind_eq_ok_iff, scalarText_eq_ok_iff, body_eq_ok_iff,
      mapM_eq_ok_iff (Operator.load_eq_ok_iff origin), pure_eq_ok_iff] at h
    obtain ⟨_, ⟨hkey, rfl⟩, fs, hfs, _, ⟨hops, rfl⟩, rfl⟩ := h
    exact ⟨.document hes hkey hfs hops, (denoted_eq hes hfs).symm⟩

theorem Catalog.ofText_eq_error_iff {origin text : String} {e : Malformed} :
    Catalog.ofText origin text = .error e ↔
      Value.ofText? text = none ∧ e = ⟨.document origin, .notYaml text⟩ ∨
        ∃ v, Value.ofText? text = some v ∧ Catalog.ofValue origin v = .error e := by
  unfold Catalog.ofText
  cases Value.ofText? text <;> simp [eq_comm]

/-- **Acceptance.** A document is accepted when it is a schema and only then, and its catalog is the
one that the schema denotes. -/
theorem Catalog.ofValue_eq_ok_iff (v : Value) (c : Catalog) :
    Catalog.ofValue origin v = .ok c ↔ IsSchema v ∧ c = Catalog.denoted v := by
  refine ⟨isSchema_of_ofValue, ?_⟩
  rintro ⟨⟨hes, hkey, hfs, hops⟩, rfl⟩
  simp only [Catalog.ofValue, bind_eq_ok_iff, body_eq_ok_iff]
  refine ⟨_, hes, ?_⟩
  simp only [bind_eq_ok_iff, scalarText_eq_ok_iff, body_eq_ok_iff,
    mapM_eq_ok_iff (Operator.load_eq_ok_iff origin), pure_eq_ok_iff]
  exact ⟨_, ⟨hkey, rfl⟩, _, hfs, _, ⟨hops, rfl⟩, denoted_eq hes hfs⟩

end Operators

end OpHeaders.Schema
