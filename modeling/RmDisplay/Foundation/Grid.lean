import RmDisplay.Foundation.Buffer

/-!
# Row-major grids and their tiles

Positions of a row-major grid are numbered `y * width + x`.  A grid is covered
by square tiles clipped at its right and bottom edge, and a flag per tile
records which tiles were touched.  Nothing here depends on what a position
holds.
-/

namespace RmDisplay.Foundation

namespace Grid

theorem rowMajor_lt {width height x y : Nat} (inRow : x < width)
    (inColumn : y < height) : y * width + x < width * height := by
  have rows : (y + 1) * width ≤ height * width :=
    Nat.mul_le_mul_right width inColumn
  rw [Nat.add_one_mul, Nat.mul_comm height] at rows
  omega

theorem rowMajor_mod {width x : Nat} (inRow : x < width) (y : Nat) :
    (y * width + x) % width = x := by
  rw [Nat.mul_comm, Nat.mul_add_mod, Nat.mod_eq_of_lt inRow]

theorem rowMajor_div {width x : Nat} (inRow : x < width) (y : Nat) :
    (y * width + x) / width = y := by
  rw [Nat.mul_comm, Nat.mul_add_div (by omega), Nat.div_eq_of_lt inRow,
    Nat.add_zero]

theorem rowMajor_inj {width x y x' y' : Nat} (inRow : x < width)
    (inRow' : x' < width) (same : y * width + x = y' * width + x') :
    x = x' ∧ y = y' := by
  constructor
  · rw [← rowMajor_mod inRow y, same, rowMajor_mod inRow']
  · rw [← rowMajor_div inRow y, same, rowMajor_div inRow']

theorem range_rowMajor (width height : Nat) :
    List.range (width * height) = (List.range height).flatMap fun row =>
      (List.range width).map fun column => row * width + column := by
  induction height with
  | zero => rfl
  | succ height induction =>
      rw [Nat.mul_succ, List.range_add, induction, List.range_succ,
        List.flatMap_append, List.flatMap_singleton, Nat.mul_comm]

/-- Number of tiles that cover `extent` positions, the last one clipped. -/
def tileCount (extent tile : Nat) : Nat := (extent + tile - 1) / tile

theorem div_lt_tileCount {extent tile x : Nat} (someTile : 0 < tile)
    (inside : x < extent) : x / tile < tileCount extent tile := by
  rw [tileCount, Nat.div_lt_iff_lt_mul someTile]
  have upTo := Nat.div_add_mod (extent + tile - 1) tile
  have remainder := Nat.mod_lt (extent + tile - 1) someTile
  rw [Nat.mul_comm] at upTo
  omega

theorem tileStart_lt {extent tile cell : Nat} (someTile : 0 < tile)
    (inside : cell < tileCount extent tile) : cell * tile < extent := by
  have next : (cell + 1) * tile ≤ extent + tile - 1 :=
    (Nat.le_div_iff_mul_le someTile).mp inside
  rw [Nat.add_one_mul] at next
  omega

/-- The clipped tile number `cell` holds exactly the positions that divide to
it. -/
theorem mem_tile_iff {extent tile cell x : Nat} (someTile : 0 < tile)
    (inside : x < extent) :
    (cell * tile ≤ x ∧ x < cell * tile + min tile (extent - cell * tile)) ↔
      x / tile = cell := by
  rw [Nat.div_eq_iff someTile]
  constructor
  · rintro ⟨lower, upper⟩
    have := Nat.min_le_left tile (extent - cell * tile)
    omega
  · rintro ⟨lower, upper⟩
    refine ⟨lower, ?_⟩
    rw [← Nat.add_min_add_left]
    exact Nat.lt_min.mpr ⟨by omega, by omega⟩

/-- Every tile from that of the first position of a range to that of the last
holds a position of the range. -/
theorem exists_div_eq {start count tile cell : Nat} (someTile : 0 < tile)
    (someCount : 0 < count)
    (between : start / tile ≤ cell ∧ cell ≤ (start + count - 1) / tile) :
    ∃ x, start ≤ x ∧ x < start + count ∧ x / tile = cell := by
  obtain ⟨first, last⟩ := between
  have upper : cell * tile ≤ start + count - 1 :=
    (Nat.le_div_iff_mul_le someTile).mp last
  by_cases inside : start ≤ cell * tile
  · exact ⟨cell * tile, inside, by omega, Nat.mul_div_cancel cell someTile⟩
  · refine ⟨start, Nat.le_refl _, by omega, Nat.le_antisymm first ?_⟩
    rw [Nat.le_div_iff_mul_le someTile]
    omega

/-- The inclusive range `first ..= last`. -/
def inclusive (first last : Nat) : List Nat :=
  List.range' first (last + 1 - first)

theorem mem_inclusive {first last value : Nat} :
    value ∈ inclusive first last ↔ first ≤ value ∧ value ≤ last := by
  rw [inclusive, List.mem_range'_1]
  omega

/-- Flag every cell of the rows `firstRow ..= lastRow` and the columns
`firstColumn ..= lastColumn` of a row-major array of flags. -/
def markRange (stride firstColumn lastColumn firstRow lastRow : Nat)
    (flags : List Bool) : Option (List Bool) :=
  (inclusive firstRow lastRow).foldlM (fun flags row =>
    (inclusive firstColumn lastColumn).foldlM (fun flags column =>
      Buffer.put flags (row * stride + column) true) flags) flags

private theorem foldlM_put (indices : List Nat) (flags : List Bool)
    (fits : ∀ index ∈ indices, index < flags.length) :
    ∃ marked, indices.foldlM (fun flags index =>
        Buffer.put flags index true) flags = some marked ∧
      marked.length = flags.length ∧
      ∀ cell, marked[cell]? = some true ↔
        flags[cell]? = some true ∨ cell ∈ indices := by
  induction indices generalizing flags with
  | nil => exact ⟨flags, rfl, rfl, by simp⟩
  | cons index indices induction =>
      have indexFits := fits index List.mem_cons_self
      obtain ⟨marked, computed, sameLength, spec⟩ :=
        induction (flags.set index true) (by
          intro other member
          rw [List.length_set]
          exact fits other (List.mem_cons_of_mem _ member))
      refine ⟨marked, ?_, by rw [sameLength, List.length_set], ?_⟩
      · rw [List.foldlM_cons, Buffer.put_eq true indexFits]
        exact computed
      · intro cell
        rw [spec cell, List.getElem?_set, List.mem_cons]
        by_cases same : index = cell
        · subst same
          simp [indexFits]
        · have different : cell ≠ index := Ne.symm same
          simp [same, different]

theorem markRange_spec (stride firstColumn lastColumn firstRow lastRow : Nat)
    (flags : List Bool) (fits : lastRow * stride + lastColumn < flags.length) :
    ∃ marked,
      markRange stride firstColumn lastColumn firstRow lastRow flags =
        some marked ∧
      marked.length = flags.length ∧
      ∀ cell, marked[cell]? = some true ↔
        flags[cell]? = some true ∨
          ∃ row column, (firstRow ≤ row ∧ row ≤ lastRow) ∧
            (firstColumn ≤ column ∧ column ≤ lastColumn) ∧
            cell = row * stride + column := by
  suffices general : ∀ (rows : List Nat) (flags : List Bool),
      (∀ row ∈ rows, row * stride + lastColumn < flags.length) →
      ∃ marked,
        rows.foldlM (fun flags row =>
          (inclusive firstColumn lastColumn).foldlM (fun flags column =>
            Buffer.put flags (row * stride + column) true) flags) flags =
          some marked ∧
        marked.length = flags.length ∧
        ∀ cell, marked[cell]? = some true ↔
          flags[cell]? = some true ∨
            ∃ row column, row ∈ rows ∧
              (firstColumn ≤ column ∧ column ≤ lastColumn) ∧
              cell = row * stride + column by
    obtain ⟨marked, computed, sameLength, spec⟩ :=
      general (inclusive firstRow lastRow) flags (by
        intro row member
        have upper := Nat.mul_le_mul_right stride (mem_inclusive.mp member).2
        omega)
    refine ⟨marked, computed, sameLength, ?_⟩
    intro cell
    simpa only [mem_inclusive] using spec cell
  intro rows
  induction rows with
  | nil =>
      intro flags _
      exact ⟨flags, rfl, rfl, by simp⟩
  | cons row rows induction =>
      intro flags rowsFit
      have rowFits := rowsFit row List.mem_cons_self
      obtain ⟨rowMarked, rowComputed, rowLength, rowSpec⟩ :=
        foldlM_put ((inclusive firstColumn lastColumn).map (row * stride + ·))
          flags (by
            intro index member
            obtain ⟨column, inColumns, rfl⟩ := List.mem_map.mp member
            have upper := (mem_inclusive.mp inColumns).2
            omega)
      obtain ⟨marked, computed, sameLength, spec⟩ :=
        induction rowMarked (by
          intro other member
          rw [rowLength]
          exact rowsFit other (List.mem_cons_of_mem _ member))
      rw [List.foldlM_map] at rowComputed
      refine ⟨marked, ?_, by rw [sameLength, rowLength], ?_⟩
      · rw [List.foldlM_cons, rowComputed]
        exact computed
      · intro cell
        rw [spec cell, rowSpec cell, List.mem_map, or_assoc]
        refine or_congr_right ?_
        constructor
        · rintro (⟨column, inColumns, same⟩ | ⟨other, column, inRows, rest⟩)
          · exact ⟨row, column, List.mem_cons_self,
              mem_inclusive.mp inColumns, same.symm⟩
          · exact ⟨other, column, List.mem_cons_of_mem _ inRows, rest⟩
        · rintro ⟨other, column, inRows, inColumns, same⟩
          rcases List.mem_cons.mp inRows with rfl | later
          · exact .inl ⟨column, mem_inclusive.mpr inColumns, same.symm⟩
          · exact .inr ⟨other, column, later, inColumns, same⟩

end Grid

end RmDisplay.Foundation
