import Mathlib.Data.List.Forall2
import OpHeaders.Proofs.Text.Printable
import OpHeaders.Table

/-! Reading a table back. No cell is wider than its column, so all lines are as long as the rule; the
bars part the cells of a line, and trimming takes off the spaces that they are padded with. This
holds of cells in printable ASCII that have no bars and no spaces at their ends, since nothing is
escaped. -/
namespace OpHeaders.Table

open Text (isPrintable width)

/-- Texts that can be read back from a cell. -/
structure IsPlain (s : String) : Prop where
  printable : ∀ c ∈ s.toList, isPrintable c = true
  bar : '|' ∉ s.toList
  first : s.toList.head? ≠ some ' '
  last : s.toList.getLast? ≠ some ' '

instance (s : String) : Decidable (IsPlain s) :=
  decidable_of_iff ((∀ c ∈ s.toList, isPrintable c = true) ∧ '|' ∉ s.toList ∧
      s.toList.head? ≠ some ' ' ∧ s.toList.getLast? ≠ some ' ')
    ⟨fun h => ⟨h.1, h.2.1, h.2.2.1, h.2.2.2⟩, fun h => ⟨h.printable, h.bar, h.first, h.last⟩⟩

variable {s : String} {ws vs : List Nat} {row : List String}

theorem IsPlain.newline_not_mem (hs : IsPlain s) : '\n' ∉ s.toList := fun h =>
  absurd (hs.printable _ h) (by decide)

/-! ### Columns -/

theorem cell_of_isPlain (hs : IsPlain s) : cell s = [s.toList] :=
  Text.split_of_not_mem hs.newline_not_mem

theorem cellWidth_of_isPlain (hs : IsPlain s) : cellWidth (cell s) = s.toList.length := by
  rw [cell_of_isPlain hs, cellWidth, List.map_singleton, Text.width_of_isPrintable hs.printable]
  simp

theorem forall₂_le_trans {us : List Nat} (h : List.Forall₂ (· ≤ ·) us vs) (h' : List.Forall₂ (· ≤ ·) vs ws) :
    List.Forall₂ (· ≤ ·) us ws := by
  induction h generalizing ws with
  | nil => exact h'
  | cons hle _ ih =>
    cases h' with
    | cons hle' h' => exact .cons (hle.trans hle') (ih h')

theorem forall₂_le_zipWith_max (h : vs.length = ws.length) :
    List.Forall₂ (· ≤ ·) vs (vs.zipWith max ws) ∧ List.Forall₂ (· ≤ ·) ws (vs.zipWith max ws) := by
  induction vs generalizing ws with
  | nil =>
    obtain rfl : ws = [] := List.length_eq_zero_iff.mp h.symm
    exact ⟨.nil, .nil⟩
  | cons v vs ih =>
    obtain ⟨w, ws, rfl⟩ := List.exists_cons_of_length_eq_add_one h.symm
    obtain ⟨hvs, hws⟩ := ih (Nat.succ.inj h)
    exact ⟨.cons (le_max_left v w) hvs, .cons (le_max_right v w) hws⟩

/-- Taking in rows makes the columns wide enough for them and no narrower than before. -/
theorem forall₂_le_foldl (rows : List (List Cell)) (hrows : ∀ row ∈ rows, row.length = ws.length) :
    List.Forall₂ (· ≤ ·) ws (rows.foldl (fun ws row => ws.zipWith max (row.map cellWidth)) ws) ∧
      ∀ row ∈ rows, List.Forall₂ (· ≤ ·) (row.map cellWidth)
        (rows.foldl (fun ws row => ws.zipWith max (row.map cellWidth)) ws) := by
  induction rows generalizing ws with
  | nil => exact ⟨List.forall₂_same.mpr fun _ _ => le_rfl, by simp⟩
  | cons row rows ih =>
    rw [List.forall_mem_cons] at hrows
    have hcells : ws.length = (row.map cellWidth).length := by rw [List.length_map, hrows.1]
    obtain ⟨hws, hrow⟩ := forall₂_le_zipWith_max hcells
    have hlength : ∀ r ∈ rows, r.length = (ws.zipWith max (row.map cellWidth)).length := fun r hr => by
      simp [hrows.1, hrows.2 r hr]
    obtain ⟨hall, hrest⟩ := ih hlength
    exact ⟨forall₂_le_trans hws hall, List.forall_mem_cons.mpr ⟨forall₂_le_trans hrow hall, hrest⟩⟩

/-- Every row fits into the columns. -/
theorem forall₂_le_columnWidths {n : Nat} {rows : List (List Cell)} (hrows : ∀ row ∈ rows, row.length = n) :
    ∀ row ∈ rows, List.Forall₂ (· ≤ ·) (row.map cellWidth) (columnWidths rows) := by
  cases rows with
  | nil => simp
  | cons first more =>
    rw [List.forall_mem_cons] at hrows
    have hmore : ∀ row ∈ more, row.length = (first.map cellWidth).length := fun row hrow => by
      rw [List.length_map, hrows.1, hrows.2 row hrow]
    obtain ⟨hfirst, hrest⟩ := forall₂_le_foldl more hmore
    exact List.forall_mem_cons.mpr ⟨hfirst, hrest⟩

/-! ### Lines -/

/-- A row that fits into columns. -/
def Fits (ws : List Nat) (row : List String) : Prop :=
  List.Forall₂ (fun w s => IsPlain s ∧ s.toList.length ≤ w) ws row

def rowLine (ws : List Nat) (row : List String) : List Char := lineText ws (row.map String.toList)

/-- A text with the spaces around it. -/
def padded (w : Nat) (s : String) : List Char :=
  ' ' :: s.toList ++ List.replicate (w - s.toList.length + 1) ' '

theorem filled_eq (hs : IsPlain s) (w : Nat) : ' ' :: filled w s.toList ++ " |".toList = padded w s ++ ['|'] := by
  rw [filled, Text.width_of_isPrintable hs.printable, padded, List.replicate_succ']
  simp

/-- A line is a bar and the padded cells, each with a bar behind it. -/
theorem rowLine_eq (h : Fits ws row) :
    rowLine ws row = '|' :: (ws.zipWith padded row).flatMap (· ++ ['|']) := by
  rw [rowLine, lineText]
  congr 1
  induction h with
  | nil => rfl
  | cons hcell _ ih =>
    simp only [List.map_cons, List.zipWith_cons_cons, List.flatten_cons, List.flatMap_cons, ih]
    rw [filled_eq hcell.1]

theorem length_rowLine (h : Fits ws row) : (rowLine ws row).length = (ruleLine ws).length := by
  rw [rowLine_eq h, ruleLine, List.length_cons, List.length_cons]
  congr 1
  induction h with
  | nil => rfl
  | cons hcell _ ih =>
    simp only [List.zipWith_cons_cons, List.flatMap_cons, List.length_append, ih]
    simp only [padded, List.length_append, List.length_cons, List.length_replicate]
    have := hcell.2
    omega

theorem forall_mem_zipWith_padded {P : List Char → Prop} (hP : ∀ w s, IsPlain s → P (padded w s))
    (h : Fits ws row) : ∀ p ∈ ws.zipWith padded row, P p := by
  induction h with
  | nil => simp
  | cons hcell _ ih => exact List.forall_mem_cons.mpr ⟨hP _ _ hcell.1, ih⟩

theorem isPrintable_rowLine (h : Fits ws row) : ∀ c ∈ rowLine ws row, isPrintable c = true := by
  have hcells : ∀ p ∈ ws.zipWith padded row, ∀ c ∈ p, isPrintable c = true := by
    refine forall_mem_zipWith_padded (fun w s hs c hc => ?_) h
    rw [padded, List.cons_append, List.mem_cons, List.mem_append, List.mem_replicate] at hc
    rcases hc with rfl | hc | ⟨-, rfl⟩
    · rfl
    · exact hs.printable c hc
    · rfl
  intro c hc
  rw [rowLine_eq h, List.mem_cons, List.mem_flatMap] at hc
  obtain rfl | ⟨p, hp, hc⟩ := hc
  · rfl
  · rw [List.mem_append, List.mem_singleton] at hc
    obtain hc | rfl := hc
    · exact hcells p hp c hc
    · rfl

theorem isPrintable_ruleLine (ws : List Nat) : ∀ c ∈ ruleLine ws, isPrintable c = true := by
  intro c hc
  simp only [ruleLine, List.mem_cons, List.mem_flatMap, List.mem_append, List.mem_replicate,
    List.not_mem_nil, or_false] at hc
  obtain rfl | ⟨w, -, ⟨-, rfl⟩ | rfl⟩ := hc
  · rfl
  · rfl
  · rfl

theorem newline_not_mem_of_isPrintable {l : List Char} (hl : ∀ c ∈ l, isPrintable c = true) : '\n' ∉ l := fun h =>
  absurd (hl _ h) (by decide)

/-- The cells of a line, with nothing in front of the first bar and nothing behind the last. -/
def cellsOf (l : List Char) : List (List Char) := (Text.split '|' l).map Text.trim

theorem cellsOf_rowLine (h : Fits ws row) : cellsOf (rowLine ws row) = [] :: row.map String.toList ++ [[]] := by
  have hbars : ∀ p ∈ ws.zipWith padded row, '|' ∉ p :=
    forall_mem_zipWith_padded (fun w s hs => by simp [padded, hs.bar]) h
  have htrim : (ws.zipWith padded row).map Text.trim = row.map String.toList := by
    clear hbars
    induction h with
    | nil => rfl
    | cons hcell _ ih =>
      rw [List.zipWith_cons_cons, List.map_cons, List.map_cons, ih, padded,
        Text.trim_padded hcell.1.printable hcell.1.first hcell.1.last]
  rw [cellsOf, rowLine_eq h, Text.split_cons, if_pos rfl, Text.split_flatMap hbars, List.map_cons,
    List.map_append, htrim]
  rfl

/-! ### Tables -/

/-- A row of cells with one line each makes one line. -/
theorem rowLines_map_cell (hplain : ∀ s ∈ row, IsPlain s) (hne : row ≠ []) (ws : List Nat) :
    rowLines ws (row.map cell) = [rowLine ws row] := by
  have hcells : row.map cell = row.map fun s => [s.toList] :=
    List.map_congr_left fun s hs => cell_of_isPlain (hplain s hs)
  have hheight : ((row.map fun s => [s.toList]).map List.length).foldl max 0 = 1 := by
    obtain ⟨s, rest, rfl⟩ := List.exists_cons_of_ne_nil hne
    have hrest : ∀ r : List String, ((r.map fun s => [s.toList]).map List.length).foldl max 1 = 1 := fun r => by
      induction r with
      | nil => rfl
      | cons s r ih => exact ih
    exact hrest rest
  rw [rowLines, hcells, hheight, rowLine]
  simp [Function.comp_def]

theorem fits_of_forall₂_le (hplain : ∀ s ∈ row, IsPlain s)
    (h : List.Forall₂ (· ≤ ·) ((row.map cell).map cellWidth) ws) : Fits ws row := by
  rw [List.map_map, List.forall₂_map_left_iff] at h
  refine (List.Forall₂.imp ?_ ((List.forall₂_and_left row ws).mpr ⟨hplain, h⟩)).flip
  intro s w hs
  refine ⟨hs.1, ?_⟩
  rw [← cellWidth_of_isPlain hs.1]
  exact hs.2

/-- Splitting a table at the newlines gives the heading, the rule and a line for each row. -/
theorem exists_split_render {heading : List String} {rows : List (List String)} (hne : heading ≠ [])
    (hlength : ∀ row ∈ rows, row.length = heading.length)
    (hplain : ∀ row ∈ heading :: rows, ∀ s ∈ row, IsPlain s) :
    ∃ ws, (∀ row ∈ heading :: rows, Fits ws row) ∧
      Text.split '\n' (render heading rows).toList =
        rowLine ws heading :: ruleLine ws :: rows.map (rowLine ws) := by
  have hall : ∀ row ∈ heading :: rows, row.length = heading.length :=
    List.forall_mem_cons.mpr ⟨rfl, hlength⟩
  have hcells : ∀ row ∈ (heading :: rows).map fun r => r.map cell, row.length = heading.length := by
    simpa using hall
  have hfits : ∀ row ∈ heading :: rows, Fits (columnWidths ((heading :: rows).map fun r => r.map cell)) row :=
    fun row hrow => fits_of_forall₂_le (hplain row hrow)
      (forall₂_le_columnWidths hcells _ (List.mem_map_of_mem hrow))
  refine ⟨_, hfits, ?_⟩
  generalize hws : columnWidths ((heading :: rows).map fun r => r.map cell) = ws at hfits ⊢
  have hrow : ∀ row ∈ heading :: rows, rowLines ws (row.map cell) = [rowLine ws row] := fun row hrow =>
    rowLines_map_cell (hplain row hrow)
      (List.length_pos_iff.mp (hall row hrow ▸ List.length_pos_iff.mpr hne)) ws
  rw [List.forall_mem_cons] at hfits hrow
  have hrows : (rows.map fun r => r.map cell).flatMap (rowLines ws) = rows.map (rowLine ws) := by
    rw [List.flatMap_map, List.flatMap_congr hrow.2, List.map_eq_flatMap]
  rw [List.map_cons] at hws
  rw [render, String.toList_ofList, hws, hrow.1, hrows]
  refine Text.split_intercalate ?_ (by simp)
  simp only [List.singleton_append, List.forall_mem_cons, List.forall_mem_map]
  refine ⟨?_, ?_, fun row hrow => ?_⟩
  · exact newline_not_mem_of_isPrintable (isPrintable_rowLine hfits.1)
  · exact newline_not_mem_of_isPrintable (isPrintable_ruleLine ws)
  · exact newline_not_mem_of_isPrintable (isPrintable_rowLine (hfits.2 row hrow))

end OpHeaders.Table
