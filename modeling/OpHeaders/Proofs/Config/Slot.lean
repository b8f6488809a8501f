import OpHeaders.Config.Basic

/-! The table of a configuration by the places of its schemas. The places of the selected groups
stand in the order of the table, so the n-th of them belongs to the n-th selected schema. -/
namespace OpHeaders

/-- A place for a schema: the number of its group in the table and its own in the group. -/
structure Slot where
  group : Nat
  schema : Nat

namespace SchemaGroup

/-- The group without one of its schemas. -/
def without (g : SchemaGroup) (n : Nat) : SchemaGroup := { g with schemas := g.schemas.eraseIdx n }

/-- The slots of a group with a number. -/
def slots (i : Nat) (g : SchemaGroup) : List Slot := (List.range g.schemas.length).map fun n => ⟨i, n⟩

/-- The schemas of a group under its identifier. -/
def labels (g : SchemaGroup) : List (String × String) := g.schemas.map fun base => (g.id, base)

@[simp] theorem id_without (g : SchemaGroup) (n : Nat) : (g.without n).id = g.id := rfl

theorem length_slots (i : Nat) (g : SchemaGroup) : (g.slots i).length = g.schemas.length := by
  rw [slots, List.length_map, List.length_range]

theorem getElem?_slots {i n : Nat} {g : SchemaGroup} {s : Slot} (h : (g.slots i)[n]? = some s) :
    n < g.schemas.length ∧ s = ⟨i, n⟩ := by
  obtain ⟨hn, rfl⟩ := List.getElem?_eq_some_iff.mp h
  rw [length_slots] at hn
  exact ⟨hn, by simp [slots]⟩

end SchemaGroup

/-- The slots of groups of which the first has a number. -/
def slotsFrom (i : Nat) : List SchemaGroup → List Slot
  | [] => []
  | g :: gs => g.slots i ++ slotsFrom (i + 1) gs

namespace Config

variable {c : Config} {s : Slot}

/-- The slots of one component, or of all without one, in the order of the table. -/
def slots (c : Config) : Option String → List Slot
  | none => slotsFrom 0 c.groups
  | some id => (c.group? id).elim [] fun g => g.slots (c.groups.findIdx (·.id == id))

/-- The identifier of the group and the schema in a slot. -/
def label? (c : Config) (s : Slot) : Option (String × String) :=
  c.groups[s.group]?.bind fun g => g.schemas[s.schema]?.map fun base => (g.id, base)

/-- The table without the schema in a slot. -/
def without (c : Config) (s : Slot) : Config :=
  { c with groups := c.groups.modify s.group fun g => g.without s.schema }

theorem map_label?_slots {g : SchemaGroup} {i : Nat} (h : c.groups[i]? = some g) :
    (g.slots i).map c.label? = g.labels.map some := by
  refine List.ext_getElem (by simp [SchemaGroup.slots, SchemaGroup.labels]) fun n hn _ => ?_
  rw [List.length_map, SchemaGroup.length_slots] at hn
  simp [SchemaGroup.slots, SchemaGroup.labels, label?, h, hn]

theorem map_label?_slotsFrom (before : List SchemaGroup) {gs : List SchemaGroup} (h : c.groups = before ++ gs) :
    (slotsFrom before.length gs).map c.label? = (gs.flatMap SchemaGroup.labels).map some := by
  induction gs generalizing before with
  | nil => rfl
  | cons g gs ih =>
    have hg : c.groups[before.length]? = some g := by simp [h]
    have hrest := ih (before ++ [g]) (by simp [h])
    rw [List.length_append, List.length_singleton] at hrest
    rw [slotsFrom, List.map_append, map_label?_slots hg, hrest, List.flatMap_cons, List.map_append]

/-- The group with an identifier has a number. -/
theorem exists_of_group? {id : String} {g : SchemaGroup} (h : c.group? id = some g) :
    ∃ before after, c.groups = before ++ g :: after ∧ g.id = id ∧ (∀ f ∈ before, f.id ≠ id) ∧
      c.groups.findIdx (·.id == id) = before.length := by
  obtain ⟨hid, before, after, hgroups, hbefore⟩ := List.find?_eq_some_iff_append.mp h
  have hid : g.id = id := by simpa using hid
  have hbefore : ∀ f ∈ before, f.id ≠ id := by simpa using hbefore
  refine ⟨before, after, hgroups, hid, hbefore, ?_⟩
  rw [hgroups, List.findIdx_append, if_neg (by simpa using hbefore), List.findIdx_cons]
  simp [hid]

/-- The slots belong to the schemas of the selected groups. -/
theorem map_label?_slots_eq {component : Option String} {gs : List SchemaGroup}
    (h : c.select component = .ok gs) :
    (c.slots component).map c.label? = (gs.flatMap SchemaGroup.labels).map some := by
  cases component with
  | none =>
    cases h
    exact map_label?_slotsFrom [] rfl
  | some id =>
    rw [select] at h
    split at h
    · next g hg =>
      cases h
      obtain ⟨before, after, hgroups, -, -, hnumber⟩ := exists_of_group? hg
      rw [slots, hg, Option.elim_some, hnumber, map_label?_slots (by simp [hgroups])]
      simp
    · cases h

end Config

end OpHeaders
