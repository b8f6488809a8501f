import OpHeaders.Compile.Report
import OpHeaders.Proofs.Table.Reading

/-! The summary of a run as a table that can be read back: its lines tell, row by row, the group, the
schema, the number of operators and the status. -/
namespace OpHeaders.Compile

open Text (isPrintable)
open Table (IsPlain cellsOf rowLine)

/-- The texts of a row can be read back. -/
structure SummaryRow.IsPlain (r : SummaryRow) : Prop where
  group : Table.IsPlain r.group
  schema : Table.IsPlain r.schema
  status : Table.IsPlain r.status

theorem isPlain_toString (n : Nat) : IsPlain (toString n) := by
  have hdigits : ∀ c ∈ (toString n).toList, c.isDigit = true := by
    rw [Nat.toString_eq_ofList_toDigits, String.toList_ofList]
    exact fun c => Nat.isDigit_of_mem_toDigits (by decide) (by decide)
  have hspace : ' ' ∉ (toString n).toList := fun h => absurd (hdigits _ h) (by decide)
  refine ⟨fun c hc => ?_, fun h => absurd (hdigits _ h) (by decide), fun h => ?_, fun h => ?_⟩
  · have hdigit := hdigits c hc
    simp only [Char.isDigit, Bool.and_eq_true, decide_eq_true_eq, ge_iff_le, UInt32.le_iff_toNat_le] at hdigit
    change 48 ≤ c.toNat ∧ c.toNat ≤ 57 at hdigit
    exact Text.isPrintable_iff.mpr ⟨by omega, by omega⟩
  · exact hspace (List.mem_of_head? h)
  · exact hspace (List.mem_of_getLast? h)

theorem SummaryRow.IsPlain.cells {r : SummaryRow} (hr : r.IsPlain) : ∀ s ∈ r.cells, Table.IsPlain s := by
  have hoperators : Table.IsPlain (r.operators.elim "-" toString) := by
    cases r.operators with
    | none => exact (by decide : Table.IsPlain "-")
    | some n => exact isPlain_toString n
  simp only [SummaryRow.cells, List.forall_mem_cons]
  exact ⟨hr.group, hr.schema, hoperators, hr.status, by simp⟩

/-- **Summary.** The lines of a summary are a heading, a rule and one for each row, all of them in
printable ASCII and of the same length. The bars of the line of a row part its group, its schema,
the decimal number of its operators, or a dash, and its status, each in spaces. -/
theorem summaryTable_readable {rows : List SummaryRow} (hrows : ∀ r ∈ rows, r.IsPlain) :
    let lines := Text.split '\n' (summaryTable rows).toList
    lines.length = rows.length + 2 ∧
    (∀ l ∈ lines, ∀ c ∈ l, isPrintable c = true) ∧
    (∀ l ∈ lines, ∀ m ∈ lines, l.length = m.length) ∧
    (lines.drop 2).map (fun l => (Text.split '|' l).map Text.trim) = rows.map fun r =>
      [[], r.group.toList, r.schema.toList, (r.operators.elim "-" toString).toList, r.status.toList, []] := by
  have hplain : ∀ row ∈ ["Group", "Schema", "Ops", "Status"] :: rows.map SummaryRow.cells, ∀ s ∈ row, IsPlain s :=
    List.forall_mem_cons.mpr ⟨by decide, List.forall_mem_map.mpr fun r hr => (hrows r hr).cells⟩
  have hlength : ∀ row ∈ rows.map SummaryRow.cells, row.length = 4 := List.forall_mem_map.mpr fun r _ => rfl
  obtain ⟨ws, hfits, hlines⟩ := Table.exists_split_render (List.cons_ne_nil _ _) hlength hplain
  rw [List.forall_mem_cons, List.forall_mem_map] at hfits
  intro lines
  have hlines : lines = _ := hlines
  have hwidth : ∀ l ∈ lines, l.length = (Table.ruleLine ws).length := by
    rw [hlines]
    simp only [List.forall_mem_cons, List.forall_mem_map]
    exact ⟨Table.length_rowLine hfits.1, trivial, fun r hr => Table.length_rowLine (hfits.2 r hr)⟩
  refine ⟨by simp [hlines], ?_, fun l hl m hm => (hwidth l hl).trans (hwidth m hm).symm, ?_⟩
  · rw [hlines]
    simp only [List.forall_mem_cons, List.forall_mem_map]
    exact ⟨Table.isPrintable_rowLine hfits.1, Table.isPrintable_ruleLine ws,
      fun r hr => Table.isPrintable_rowLine (hfits.2 r hr)⟩
  · rw [hlines, List.drop_succ_cons, List.drop_succ_cons, List.drop_zero, List.map_map, List.map_map]
    exact List.map_congr_left fun r hr => Table.cellsOf_rowLine (hfits.2 r hr)

/-- A row with empty texts and one with spaces and a long status. -/
def outcomes : List SummaryRow :=
  [⟨"", "", none, ""⟩, ⟨"api", "nn defs", some 120, "failed: a  b"⟩]

theorem summaryTable_readable_outcomes :
    (∀ r ∈ outcomes, r.IsPlain) ∧
    let lines := Text.split '\n' (summaryTable outcomes).toList
    lines.length = 4 ∧
    (∀ l ∈ lines, ∀ c ∈ l, isPrintable c = true) ∧
    (∀ l ∈ lines, ∀ m ∈ lines, l.length = m.length) ∧
    (lines.drop 2).map (fun l => (Text.split '|' l).map Text.trim) =
      [[[], [], [], "-".toList, [], []],
        [[], "api".toList, "nn defs".toList, "120".toList, "failed: a  b".toList, []]] := by
  have hrows : ∀ r ∈ outcomes, r.IsPlain := by
    simp only [outcomes, List.forall_mem_cons]
    exact ⟨⟨by decide, by decide, by decide⟩,
      ⟨by decide, by decide, by decide⟩, by simp⟩
  exact ⟨hrows, summaryTable_readable hrows⟩

end OpHeaders.Compile
