import OpHeaders.Proofs.Text.Word
import OpHeaders.Schema.AttrType

/-! The tag of a type denotes the type again, so types that come from tags are told apart
by theirs. Besides the blanks around it a tag may differ from that of its type in one way only,
since one type has two spellings. -/
namespace OpHeaders.Schema.AttrType

open Text (IsWord isBlank trimmed trimmed_trimmed trimmed_eq_self_iff)

/-- Only one type has a tag that may be written in another way. -/
theorem tag_ofTag (s : String) : ofTag s = .namedAttrs ∨ (ofTag s).tag = s := by
  unfold ofTag
  split <;> simp [tag]

theorem ofTag_tag_ofTag (s : String) : ofTag (ofTag s).tag = ofTag s := by
  rcases tag_ofTag s with h | h
  · rw [h]; rfl
  · rw [h]

theorem parse_inj_of_tag {s t : String} (h : (parse s).tag = (parse t).tag) : parse s = parse t := by
  unfold parse at h ⊢
  rw [← ofTag_tag_ofTag (Text.trimmed s), h, ofTag_tag_ofTag]

theorem isWord_tag_parse {s : String} (hs : IsWord s) : IsWord (parse s).tag := by
  unfold parse
  rcases tag_ofTag (Text.trimmed s) with h | h
  · rw [h]; decide
  · rw [h]; exact hs.trimmed

/-! ### Spellings -/

/-- The two spellings of one type. -/
def namedAttrsTags : List String := ["NamedAttrs", "NAMED_ATTRS"]

/-- The tags of the types with a literal form of their own, in all their spellings. -/
def dedicatedTags : List String :=
  ["STR", "INT", "FLOAT", "BOOL", "LIST", "LIST_INT", "LIST_FLOAT", "TENSOR"] ++ namedAttrsTags

theorem ofTag_eq_namedAttrs_iff {s : String} : ofTag s = .namedAttrs ↔ s ∈ namedAttrsTags := by
  unfold ofTag
  split <;> simp_all [namedAttrsTags]

theorem ofTag_eq_other_iff {s t : String} : ofTag s = .other t ↔ s = t ∧ s ∉ dedicatedTags := by
  unfold ofTag
  split <;> simp_all [dedicatedTags, namedAttrsTags]

theorem tag_ofTag_eq (s : String) : (ofTag s).tag = if s = "NAMED_ATTRS" then "NamedAttrs" else s := by
  unfold ofTag
  split <;> simp_all [tag]

theorem ofTag_eq_ofTag_iff {s t : String} :
    ofTag s = ofTag t ↔ s = t ∨ s ∈ namedAttrsTags ∧ t ∈ namedAttrsTags := by
  rw [← ofTag_eq_namedAttrs_iff, ← ofTag_eq_namedAttrs_iff]
  constructor
  · intro h
    rcases tag_ofTag s with hs | hs
    · exact .inr ⟨hs, h ▸ hs⟩
    · rcases tag_ofTag t with ht | ht
      · exact .inr ⟨h.trans ht, ht⟩
      · exact .inl (by rw [← hs, h, ht])
  · rintro (rfl | ⟨hs, ht⟩)
    · rfl
    · rw [hs, ht]

/-! ### Blanks around a tag -/

theorem parse_tag_parse (s : String) : parse (parse s).tag = parse s := by
  unfold parse
  rcases tag_ofTag (trimmed s) with h | h
  · rw [h]
    decide +kernel
  · rw [h, trimmed_trimmed]

/-- What is kept as it is has lost its blanks and is none of the tags with a meaning. -/
theorem exists_parse_eq_other_iff {t : String} :
    (∃ s, parse s = .other t) ↔ trimmed t = t ∧ t ∉ dedicatedTags := by
  constructor
  · rintro ⟨s, hs⟩
    obtain ⟨rfl, hnot⟩ := ofTag_eq_other_iff.1 hs
    exact ⟨trimmed_trimmed s, hnot⟩
  · rintro ⟨htrim, hnot⟩
    exact ⟨t, ofTag_eq_other_iff.2 ⟨htrim, htrim.symm ▸ hnot⟩⟩

/-- **Normal tags.** The tag of a type is the trimmed text it was read from, but for the one with two
spellings, and is read as the same type; so texts denote the same type if and only if they are
the same up to blanks or both spell that one. -/
theorem parse_isNormalising (s t u : String) :
    parse (parse s).tag = parse s ∧
    (parse s = parse t ↔ trimmed s = trimmed t ∨ trimmed s ∈ namedAttrsTags ∧ trimmed t ∈ namedAttrsTags) ∧
    (parse s).tag = (if trimmed s = "NAMED_ATTRS" then "NamedAttrs" else trimmed s) ∧
    ((∃ r, parse r = .other u) ↔ ((∀ c ∈ u.toList.head?, isBlank c = false) ∧
      ∀ c ∈ u.toList.getLast?, isBlank c = false) ∧ u ∉ dedicatedTags) := by
  refine ⟨parse_tag_parse s, ofTag_eq_ofTag_iff, tag_ofTag_eq (trimmed s), ?_⟩
  rw [exists_parse_eq_other_iff, trimmed_eq_self_iff]

end OpHeaders.Schema.AttrType
