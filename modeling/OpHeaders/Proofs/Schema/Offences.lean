import OpHeaders.Proofs.Schema.Rewriting

/-! Which offence of a document is reported. Operators are loaded one by one and do not depend on each
other, so the error of a document is that of its first operator that cannot be loaded alone. The context
of the error says where the offence is: in the document for the key of an operator, in an entry for what is
inside the body of this entry, and in the operator for all else. -/
namespace OpHeaders.Schema

open Yaml (Value)

/-! ### Errors -/

section Errors

variable {α β : Type} {Q Q' : Malformed → Prop} {x : Except Malformed α} {err : Malformed}

theorem bind_eq_error_iff {f : α → Except Malformed β} :
    (x >>= f) = .error err ↔ x = .error err ∨ ∃ a, x = .ok a ∧ f a = .error err := by
  cases x <;> simp [bind, Except.bind]

theorem bind_pure_eq_error_iff {f : α → β} :
    (x >>= fun a => (pure (f a) : Except Malformed β)) = .error err ↔ x = .error err := by
  cases x <;> simp [bind, Except.bind, pure, Except.pure]

/-- Readers of a list stop at the first item that cannot be read. -/
theorem mapM_eq_error_iff {f : α → Except Malformed β} {l : List α} :
    l.mapM f = .error err ↔ ∃ before a after, l = before ++ a :: after ∧
      (∀ b ∈ before, ∃ c, f b = .ok c) ∧ f a = .error err := by
  induction l with
  | nil => simp [pure, Except.pure]
  | cons a l ih =>
    rw [List.mapM_cons, bind_eq_error_iff]
    simp only [bind_pure_eq_error_iff, ih, List.cons_eq_append_iff]
    constructor
    · rintro (ha | ⟨c, ha, before, a', after, rfl, hbefore, ha'⟩)
      · exact ⟨[], a, l, .inl ⟨rfl, rfl⟩, by simp, ha⟩
      · refine ⟨a :: before, a', after, .inr ⟨before, rfl, rfl⟩, ?_, ha'⟩
        exact List.forall_mem_cons.mpr ⟨⟨c, ha⟩, hbefore⟩
    · rintro ⟨before, a', after, ⟨rfl, h⟩ | ⟨before, rfl, rfl⟩, hbefore, ha'⟩
      · obtain ⟨rfl, rfl⟩ := List.cons.inj h
        exact .inl ha'
      · obtain ⟨⟨c, ha⟩, hbefore⟩ := List.forall_mem_cons.mp hbefore
        exact .inr ⟨c, ha, before, a', after, rfl, hbefore, ha'⟩

theorem mapM_eq_ok_iff_forall₂ {f : α → Except Malformed β} {l : List α} {bs : List β} :
    l.mapM f = .ok bs ↔ List.Forall₂ (fun a b => f a = .ok b) l bs := by
  induction l generalizing bs with
  | nil => simp [pure_eq_ok_iff]
  | cons a l ih =>
    simp only [List.mapM_cons, bind_eq_ok_iff, ih, pure_eq_ok_iff, List.forall₂_cons_left_iff]
    constructor
    · rintro ⟨b, ha, bs, hl, rfl⟩
      exact ⟨b, bs, ha, hl, rfl⟩
    · rintro ⟨b, bs, ha, hl, rfl⟩
      exact ⟨b, ha, bs, hl, rfl⟩

/-- Every error is as `Q` says. -/
def Fails (Q : Malformed → Prop) (x : Except Malformed α) : Prop := ∀ err, x = .error err → Q err

namespace Fails

theorem mono (h : Fails Q x) (hQ : ∀ err, Q err → Q' err) : Fails Q' x :=
  fun err hx => hQ err (h err hx)

theorem pure (a : α) : Fails Q (pure a : Except Malformed α) := by
  intro err h
  cases h

theorem bind {f : α → Except Malformed β} (hx : Fails Q x) (hf : ∀ a, x = .ok a → Fails Q (f a)) :
    Fails Q (x >>= f) := by
  intro err h
  rcases bind_eq_error_iff.mp h with h | ⟨a, ha, h⟩
  · exact hx err h
  · exact hf a ha err h

theorem map {f : α → β} (hx : Fails Q x) : Fails Q (x.map f) := by
  intro err h
  cases hxa : x with
  | error e =>
    rw [hxa] at h
    cases h
    exact hx err hxa
  | ok a =>
    rw [hxa] at h
    cases h

theorem mapM {f : α → Except Malformed β} {l : List α} (hf : ∀ a ∈ l, Fails Q (f a)) : Fails Q (l.mapM f) := by
  intro err h
  obtain ⟨before, a, after, rfl, -, ha⟩ := mapM_eq_error_iff.mp h
  exact hf a (by simp) err ha

/-- A reader that fails does not find what it takes to succeed. -/
theorem and_not {P : Prop} {a : α} (hx : Fails Q x) (hP : ∀ b, x = .ok b ↔ P ∧ b = a) :
    Fails (fun err => Q err ∧ ¬P) x := by
  intro err h
  refine ⟨hx err h, fun hp => ?_⟩
  rw [(hP a).mpr ⟨hp, rfl⟩] at h
  cases h

end Fails

end Errors

/-! ### Fields -/

section Fields

variable (p : Place) (part : Part) (es : Entries) (name : String)

/-- Every error is at the place `p`. -/
abbrev FailsAt {α : Type} (p : Place) (x : Except Malformed α) : Prop := Fails (·.place = p) x

theorem failsAt_error {α : Type} (offence : Offence) : FailsAt p (.error ⟨p, offence⟩ : Except Malformed α) := by
  intro err h
  cases h
  rfl

theorem failsAt_scalarText (v : Value) : FailsAt p (scalarText p part v) := by
  cases v with
  | string s => exact .pure s
  | bool b => exact .pure _
  | null | number _ | sequence _ | mapping _ | tagged _ _ => exact failsAt_error p _

theorem failsAt_text? : FailsAt p (text? p es name) := by
  rw [text?_eq]
  split
  · exact .pure none
  · exact (failsAt_scalarText p _ _).map

theorem failsAt_requiredText : FailsAt p (requiredText p es name) := by
  refine (failsAt_text? p es name).bind fun s _ => ?_
  cases s with
  | none => exact failsAt_error p _
  | some s => exact .pure s

theorem failsAt_flag : FailsAt p (flag p es name) := by
  rw [flag_eq]
  split
  · exact .pure false
  · exact .pure _
  · exact failsAt_error p _

theorem failsAt_comment : FailsAt p (comment p es) := (failsAt_text? p es "comment").map

theorem failsAt_entriesOf : FailsAt p (entriesOf p es name) := by
  rw [entriesOf_eq]
  split
  · exact .pure []
  · exact .pure _
  · exact failsAt_error p _

theorem failsAt_body (offence : Offence) (v : Value) : FailsAt p (body p offence v) := by
  rw [body]
  split
  · exact .pure _
  · exact failsAt_error p _

end Fields

/-! ### Entries of an operator -/

/-- The fields that an entry should have. -/
def EntryKind.Fields : EntryKind → Entries → Prop
  | .tensor => TensorFields
  | .graph => SubgraphFields
  | .attr => AttributeFields

/-- Where the error of an entry is found. -/
inductive EntryBlames (origin owner : String) (kind : EntryKind) (f : Value × Value) : Place → Prop where
  | key : ¬IsText f.1 → EntryBlames origin owner kind f (.operator origin owner)
  | body : IsText f.1 → (∀ gs, IsMapping f.2 gs → ¬kind.Fields gs) →
    EntryBlames origin owner kind f (.entry origin owner kind (textOf f.1))

section Entries

variable {α : Type} {origin owner : String} {kind : EntryKind} {f : Value × Value}

theorem fails_entry_bind {k : String × Place × Entries → Except Malformed α} {a : α}
    (hk : ∀ name p es, FailsAt p (k (name, p, es)))
    (hok : ∀ b, (entry origin owner kind f >>= k) = .ok b ↔ IsEntry kind.Fields f ∧ b = a) :
    Fails (fun err => EntryBlames origin owner kind f err.place) (entry origin owner kind f >>= k) := by
  intro err h
  have hnot : ¬IsEntry kind.Fields f := (Fails.and_not (fun _ h => h) hok err h).2
  have hbody : IsText f.1 → EntryBlames origin owner kind f (.entry origin owner kind (textOf f.1)) := fun hkey =>
    .body hkey fun gs hgs hfields => hnot ⟨hkey, gs, hgs, hfields⟩
  rcases bind_eq_error_iff.mp h with h | ⟨⟨name, p, es⟩, hentry, h⟩
  · rcases bind_eq_error_iff.mp h with h | ⟨name, hname, h⟩
    · obtain ⟨hplace, hkey⟩ := (failsAt_scalarText _ _ _).and_not (scalarText_eq_ok_iff _ _ _) err h
      rw [hplace]
      exact .key hkey
    · obtain ⟨hkey, rfl⟩ := (scalarText_eq_ok_iff _ _ _ _).mp hname
      have hplace := (failsAt_body _ _ _).bind (fun _ _ => .pure _) err h
      rw [hplace]
      exact hbody hkey
  · obtain ⟨⟨hkey, -⟩, hr⟩ := (entry_eq_ok_iff ..).mp hentry
    cases hr
    rw [hk _ _ _ err h]
    exact hbody hkey

theorem Tensor.fails_load (f : Value × Value) :
    Fails (fun err => EntryBlames origin owner .tensor f err.place) (Tensor.load origin owner f) := by
  refine fails_entry_bind (fun name p es => ?_) (Tensor.load_eq_ok_iff origin owner f)
  refine (failsAt_requiredText p es _).bind fun types _ => ?_
  refine (failsAt_flag p es _).bind fun isOptional _ => ?_
  refine (failsAt_flag p es _).bind fun isDynamic _ => ?_
  exact (failsAt_comment p es).bind fun description _ => .pure _

theorem Subgraph.fails_load (f : Value × Value) :
    Fails (fun err => EntryBlames origin owner .graph f err.place) (Subgraph.load origin owner f) := by
  refine fails_entry_bind (fun name p es => ?_) (Subgraph.load_eq_ok_iff origin owner f)
  refine (failsAt_flag p es _).bind fun isDynamic _ => ?_
  exact (failsAt_comment p es).bind fun description _ => .pure _

theorem Attribute.fails_load (f : Value × Value) :
    Fails (fun err => EntryBlames origin owner .attr f err.place) (Attribute.load origin owner f) := by
  refine fails_entry_bind (fun name p es => ?_) (Attribute.load_eq_ok_iff origin owner f)
  refine (failsAt_requiredText p es _).bind fun type _ => ?_
  refine (failsAt_flag p es _).bind fun isRequired _ => ?_
  refine (failsAt_text? p es _).bind fun default? _ => ?_
  exact (failsAt_comment p es).bind fun description _ => .pure _

end Entries

/-! ### Operators -/

/-- The fields of an operator that list entries, with the kinds of these. -/
def sections : List (String × EntryKind) :=
  [("inputs", .tensor), ("outputs", .tensor), ("graphs", .graph), ("attrs", .attr)]

/-- The fields of an operator are not as they should be, apart from what is inside the bodies of entries. -/
inductive IsAmiss (es : Entries) : Prop where
  | remark {name : String} : name ∈ remarkNames → ¬Allows IsText es name → IsAmiss es
  | listing {name : String} {kind : EntryKind} : (name, kind) ∈ sections →
    ¬Allows (fun v => ∃ fs, v = .mapping fs) es name → IsAmiss es
  | key {name : String} {kind : EntryKind} {fs : Entries} {f : Value × Value} : (name, kind) ∈ sections →
    HasField name (.mapping fs) es → f ∈ fs → ¬IsText f.1 → IsAmiss es

/-- The contexts that an error in the body of an operator can have. -/
inductive BodyBlames (origin owner : String) (es : Entries) : String → Prop where
  | amiss : IsAmiss es → BodyBlames origin owner es (origin ++ ": operator " ++ ticked owner)
  | entry {name : String} {kind : EntryKind} {fs : Entries} {f : Value × Value} : (name, kind) ∈ sections →
    HasField name (.mapping fs) es → f ∈ fs → IsText f.1 → (∀ gs, IsMapping f.2 gs → ¬kind.Fields gs) →
    BodyBlames origin owner es
      (origin ++ ": operator " ++ ticked owner ++ ", " ++ kind.word ++ " " ++ ticked (textOf f.1))

/-- The contexts that an error of an operator can have. -/
inductive Blames (origin : String) (e : Value × Value) : String → Prop where
  | key : ¬IsText e.1 → Blames origin e origin
  | value : IsText e.1 → e.2 ≠ .null → (∀ es, ¬IsMapping e.2 es) →
    Blames origin e (origin ++ ": operator " ++ ticked (textOf e.1))
  | body {es : Entries} {context : String} : IsText e.1 → IsMapping e.2 es →
    BodyBlames origin (textOf e.1) es context → Blames origin e context

section Operators

variable {α : Type} {origin owner : String} {es : Entries} {name : String}

theorem hasField_of_entriesOf {p : Place} {fs : Entries} {f : Value × Value}
    (h : entriesOf p es name = .ok fs) (hf : f ∈ fs) : HasField name (.mapping fs) es := by
  rw [entriesOf_eq] at h
  split at h
  · cases h
    cases hf
  · next hgiven =>
    cases h
    exact ((given?_eq_some_iff es name _).mp hgiven).1
  · cases h

theorem fails_remark (hname : name ∈ remarkNames) :
    Fails (fun err => BodyBlames origin owner es err.place.text) (text? (.operator origin owner) es name) := by
  refine ((failsAt_text? _ es name).and_not (text?_eq_ok_iff _ es name)).mono ?_
  rintro err ⟨hplace, hnot⟩
  rw [hplace]
  exact .amiss (.remark hname hnot)

theorem fails_listed {kind : EntryKind} {load : Value × Value → Except Malformed α}
    (hname : (name, kind) ∈ sections)
    (hload : ∀ f, Fails (fun err => EntryBlames origin owner kind f err.place) (load f)) :
    Fails (fun err => BodyBlames origin owner es err.place.text)
      (listed (.operator origin owner) es name load) := by
  refine Fails.bind ?_ fun fs hfs => Fails.mapM fun f hf => ?_
  · refine ((failsAt_entriesOf _ es name).and_not (entriesOf_eq_ok_iff _ es name)).mono ?_
    rintro err ⟨hplace, hnot⟩
    rw [hplace]
    exact .amiss (.listing hname hnot)
  · refine (hload f).mono fun err h => ?_
    have hfield := hasField_of_entriesOf hfs hf
    generalize err.place = place at h
    cases h with
    | key hkey => exact .amiss (.key hname hfield hf hkey)
    | body hkey hnot => exact .entry hname hfield hf hkey hnot

theorem Operator.fails_loadBody : Fails (fun err => BodyBlames origin owner es err.place.text)
    (Operator.loadBody origin owner es) := by
  simp only [Operator.loadBody, entriesOf_bind_mapM]
  refine (fails_remark (by decide)).map.bind fun description _ => ?_
  refine (fails_remark (by decide)).bind fun addedIn _ => ?_
  refine (fails_remark (by decide)).bind fun examples _ => ?_
  refine (fails_listed (by simp [sections]) Tensor.fails_load).bind fun inputs _ => ?_
  refine (fails_listed (by simp [sections]) Tensor.fails_load).bind fun outputs _ => ?_
  refine (fails_listed (by simp [sections]) Subgraph.fails_load).bind fun graphs _ => ?_
  exact (fails_listed (by simp [sections]) Attribute.fails_load).bind fun attrs _ => .pure _

theorem Operator.fails_load (e : Value × Value) :
    Fails (fun err => Blames origin e err.place.text) (Operator.load origin e) := by
  obtain ⟨key, v⟩ := e
  have hname : Fails (fun err => Blames origin (key, v) err.place.text)
      (scalarText (.document origin) .key key) := by
    refine ((failsAt_scalarText _ _ key).and_not (scalarText_eq_ok_iff _ _ key)).mono ?_
    rintro err ⟨hplace, hnot⟩
    rw [hplace]
    exact .key hnot
  by_cases hv : v = .null
  · subst hv
    exact hname.bind fun name _ => .pure _
  · rw [Operator.load_of_ne_null hv]
    refine hname.bind fun name hread => ?_
    obtain ⟨hkey, rfl⟩ := (scalarText_eq_ok_iff _ _ _ _).mp hread
    refine Fails.bind ?_ fun es hes => ?_
    · intro err h
      rw [failsAt_body _ _ _ err h]
      refine .value hkey hv fun es hes => ?_
      rw [(body_eq_ok_iff _ _ _ _).mpr hes] at h
      cases h
    · exact Operator.fails_loadBody.mono fun err h => .body hkey ((body_eq_ok_iff _ _ _ _).mp hes) h

end Operators

/-! ### Documents -/

/-- The document with one operator. -/
def single (key : Value) (e : Value × Value) : Value := .mapping [(key, .mapping [e])]

section Documents

variable {origin : String} {v key ops : Value} {rest es : Entries}

theorem Catalog.ofValue_of_isMapping (hv : IsMapping v ((key, ops) :: rest)) (hkey : IsText key)
    (hops : IsMapping ops es) : Catalog.ofValue origin v =
      es.mapM (Operator.load origin) >>= fun operators => pure ⟨textOf key, operators⟩ := by
  rw [ofValue, (body_eq_ok_iff _ _ _ _).mpr hv]
  change scalarText _ _ key >>= _ = _
  rw [(scalarText_eq_ok_iff _ _ _ _).mpr ⟨hkey, rfl⟩]
  change body _ _ ops >>= _ = _
  rw [(body_eq_ok_iff _ _ _ _).mpr hops]
  rfl

theorem Catalog.ofValue_single (hkey : IsText key) (e : Value × Value) :
    Catalog.ofValue origin (single key e) =
      Operator.load origin e >>= fun op => pure ⟨textOf key, [op]⟩ := by
  rw [single, ofValue_of_isMapping (.bare _) hkey (.bare _), List.mapM_cons, bind_assoc]
  rfl

theorem Catalog.ofValue_single_eq_ok_iff (hkey : IsText key) (e : Value × Value) (c : Catalog) :
    Catalog.ofValue origin (single key e) = .ok c ↔
      ∃ op, Operator.load origin e = .ok op ∧ c = ⟨textOf key, [op]⟩ := by
  simp only [ofValue_single hkey, bind_eq_ok_iff, pure_eq_ok_iff]

theorem Catalog.ofValue_single_eq_error_iff (hkey : IsText key) (e : Value × Value) (err : Malformed) :
    Catalog.ofValue origin (single key e) = .error err ↔ Operator.load origin e = .error err := by
  rw [ofValue_single hkey, bind_pure_eq_error_iff]

theorem Catalog.forall₂_single_iff (hkey : IsText key) (cs : List Catalog) :
    List.Forall₂ (fun e c => Catalog.ofValue origin (single key e) = .ok c) es cs ↔
      ∃ ops, List.Forall₂ (fun e op => Operator.load origin e = .ok op) es ops ∧
        cs = ops.map fun op => ⟨textOf key, [op]⟩ := by
  induction es generalizing cs with
  | nil => simp
  | cons e es ih =>
    simp only [List.forall₂_cons_left_iff, ih]
    simp only [ofValue_single_eq_ok_iff hkey]
    constructor
    · rintro ⟨_, _, ⟨op, hop, rfl⟩, ⟨ops, hops, rfl⟩, rfl⟩
      exact ⟨op :: ops, ⟨op, ops, hop, hops, rfl⟩, rfl⟩
    · rintro ⟨_, ⟨op, ops, hop, hops, rfl⟩, rfl⟩
      exact ⟨_, _, ⟨op, hop, rfl⟩, ⟨ops, hops, rfl⟩, rfl⟩

/-- **Offences.** A document loads as its operators do alone, and has the error of the first that does
not. The context of this error says where the offence is. -/
theorem Catalog.ofValue_operatorwise (hv : IsMapping v ((key, ops) :: rest)) (hkey : IsText key)
    (hops : IsMapping ops es) (origin : String) :
    (∀ c, ofValue origin v = .ok c ↔
      ∃ cs, List.Forall₂ (fun e c => ofValue origin (single key e) = .ok c) es cs ∧
        c = ⟨textOf key, cs.flatMap Catalog.operators⟩) ∧
    (∀ err, ofValue origin v = .error err ↔ ∃ before e after, es = before ++ e :: after ∧
      (∀ b ∈ before, ∃ c, ofValue origin (single key b) = .ok c) ∧
      ofValue origin (single key e) = .error err) ∧
    ∀ e err, ofValue origin (single key e) = .error err → Blames origin e err.place.text := by
  have hjoined : ∀ ops : List Operator,
      (ops.map fun op => (⟨textOf key, [op]⟩ : Catalog)).flatMap Catalog.operators = ops := by
    intro ops
    rw [List.flatMap_map]
    exact List.flatMap_singleton' ops
  rw [ofValue_of_isMapping hv hkey hops]
  refine ⟨fun c => ?_, fun err => ?_, fun e err h => ?_⟩
  · simp only [bind_eq_ok_iff, mapM_eq_ok_iff_forall₂, pure_eq_ok_iff, forall₂_single_iff hkey]
    constructor
    · rintro ⟨ops, hload, rfl⟩
      exact ⟨_, ⟨ops, hload, rfl⟩, by rw [hjoined]⟩
    · rintro ⟨_, ⟨ops, hload, rfl⟩, rfl⟩
      exact ⟨ops, hload, by rw [hjoined]⟩
  · simp only [bind_pure_eq_error_iff, mapM_eq_error_iff, ofValue_single_eq_error_iff hkey,
      ofValue_single_eq_ok_iff hkey]
    have hloads : ∀ b, (∃ c : Catalog, ∃ op, Operator.load origin b = .ok op ∧ c = ⟨textOf key, [op]⟩) ↔
        ∃ op, Operator.load origin b = .ok op := by
      intro b
      rw [exists_comm]
      simp
    simp only [hloads]
  · exact Operator.fails_load e err ((ofValue_single_eq_error_iff hkey e err).mp h)

/-- An operator with an attribute that has no type. -/
def untyped : Value × Value := (.string "Mul", .mapping [(.string "attrs", .mapping [(.bool true, .mapping [])])])

/-- It stands between an operator that loads and one that does not. -/
def untypedAmong : Entries := [(.string "Add", .null), untyped, (.null, .bool true)]

def untypedDocument : Value :=
  .tagged "!t" (.mapping [(.string "nn", .mapping untypedAmong), (.null, .null)])

theorem Catalog.ofValue_untypedDocument :
    IsMapping untypedDocument [(.string "nn", .mapping untypedAmong), (.null, .null)] ∧
    IsText (.string "nn") ∧ IsMapping (.mapping untypedAmong) untypedAmong ∧
    ∃ err, ofValue "o" untypedDocument = .error err ∧ ofValue "o" (single (.string "nn") untyped) = .error err ∧
      Blames "o" untyped err.place.text ∧ err.place.text = "o: operator `Mul`, attr `true`" := by
  have hv : IsMapping untypedDocument [(.string "nn", .mapping untypedAmong), (.null, .null)] :=
    .tagged "!t" (.bare _)
  have hkey : IsText (.string "nn") := .string "nn"
  have hops : IsMapping (.mapping untypedAmong) untypedAmong := .bare untypedAmong
  have hadd : ofValue "o" (single (.string "nn") (.string "Add", .null)) =
      .ok ⟨"nn", [{ name := "Add" }]⟩ := rfl
  have huntyped : ofValue "o" (single (.string "nn") untyped) =
      .error ⟨.entry "o" "Mul" .attr "true", .missing "type"⟩ := rfl
  obtain ⟨-, herror, hblames⟩ := ofValue_operatorwise hv hkey hops "o"
  have hbefore : ∀ b ∈ [(Value.string "Add", Value.null)], ∃ c, ofValue "o" (single (.string "nn") b) = .ok c := by
    intro b hb
    rw [List.mem_singleton.mp hb]
    exact ⟨_, hadd⟩
  have hdocument := (herror _).mpr ⟨[(.string "Add", .null)], untyped, [(.null, .bool true)], rfl, hbefore, huntyped⟩
  exact ⟨hv, hkey, hops, _, hdocument, huntyped, hblames _ _ huntyped, rfl⟩

end Documents

end OpHeaders.Schema
