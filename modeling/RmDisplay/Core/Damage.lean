import RmDisplay.Core.SurfaceSpec
import RmDisplay.Protocol.SemanticSpec

/-!
# Tiled damage

Damage is a list of rectangles, most of them tiles of a square grid clipped to
the surface.  `tileDamageRegions` keeps the tiles that meet some region and
show a difference; `mergeTiledDamage` unites two lists on one grid.  Both
return rectangles on the surface, and neither forgets a place.
-/

namespace RmDisplay.Core

open Foundation Protocol

def fullDamage (width height : Nat) : List Rect := [⟨0, 0, width, height⟩]

def damagePixels (damage : List Rect) : Nat :=
  damage.foldl (fun total rect =>
    Bounded.saturatingAdd u64Max total (rect.width * rect.height)) 0

/-- The tile number `index`, clipped to the surface. -/
def tileRect (width height tile tilesX index : Nat) : Rect :=
  let x := index % tilesX * tile
  let y := index / tilesX * tile
  ⟨x, y, min tile (width - x), min tile (height - y)⟩

/-- Flag the tiles that a rectangle meets. -/
def markTiles (tile tilesX : Nat) (flags : List Bool) (rect : Rect) :
    SurfaceRes (List Bool) := do
  let lastX ← Res.orPanic (Bounded.checkedSub (rect.x + rect.width) 1)
  let lastY ← Res.orPanic (Bounded.checkedSub (rect.y + rect.height) 1)
  Res.orPanic (Grid.markRange tilesX (rect.x / tile) (lastX / tile)
    (rect.y / tile) (lastY / tile) flags)

/-- Do two surfaces differ on a row of the rectangle? -/
def changedIn (previous current : PixelSurface) (rect : Rect) :
    SurfaceRes Bool :=
  Res.any (fun row => do
    let same ← previous.sameRow current
      ((rect.y + row) * current.width + rect.x) rect.width
    return !same) (List.range rect.height)

def tileDamageRegions (previous current : PixelSurface) (tile : Nat)
    (regions : List Rect) : SurfaceRes (List Rect) :=
  if !previous.sameShape current || tile == 0 then
    .ok (fullDamage current.width current.height)
  else do
    let tilesX := Grid.tileCount current.width tile
    let tilesY := Grid.tileCount current.height tile
    let candidates ← regions.foldlM (markTiles tile tilesX)
      (List.replicate (tilesX * tilesY) false)
    Res.filterMap (fun (candidate, index) =>
      if candidate then do
        let rect := tileRect current.width current.height tile tilesX index
        let changed ← changedIn previous current rect
        return if changed then some rect else none
      else .ok none) candidates.zipIdx

/-- The number of tiles is a 32-bit product; past that bound the program
panics. -/
def mergeTiledDamage (width height tile : Nat) (existing damage : List Rect) :
    SurfaceRes (List Rect) := do
  let tile := max tile 1
  let tilesX := Grid.tileCount width tile
  let tilesY := Grid.tileCount height tile
  let tiles ← Res.orPanic (Bounded.checkedMul u32Max tilesX tilesY)
  let dirty ← (existing ++ damage).foldlM (fun dirty rect => do
    let right := min (rect.x + rect.width) width
    let bottom := min (rect.y + rect.height) height
    if right ≤ rect.x ∨ bottom ≤ rect.y then .ok dirty
    else
      markTiles tile tilesX dirty
        ⟨rect.x, rect.y, right - rect.x, bottom - rect.y⟩)
    (List.replicate tiles false)
  return dirty.zipIdx.filterMap fun (isDirty, index) =>
    if isDirty then some (tileRect width height tile tilesX index) else none

@[simp] theorem mem_region_fullDamage {width height : Nat} {p : Place} :
    p ∈ region (fullDamage width height) ↔ p.1 < width ∧ p.2 < height := by
  simp [fullDamage, Rect.Covers]

theorem fullDamage_inside {width height : Nat} (wide : 0 < width)
    (high : 0 < height) :
    ∀ rect ∈ fullDamage width height, rect.Inside width height := by
  intro rect member
  rw [List.mem_singleton.mp member]
  exact ⟨wide, high, by simp, by simp⟩

/-- All tiles of the grid, row after row. -/
def gridTiles (width height tile : Nat) : List Rect :=
  (List.range (Grid.tileCount height tile)).flatMap fun row =>
    (List.range (Grid.tileCount width tile)).map fun column =>
      ⟨column * tile, row * tile, min tile (width - column * tile),
        min tile (height - row * tile)⟩

theorem gridTiles_eq (width height tile : Nat) :
    gridTiles width height tile =
      (List.range (Grid.tileCount width tile *
        Grid.tileCount height tile)).map
          (tileRect width height tile (Grid.tileCount width tile)) := by
  rw [Grid.range_rowMajor, List.map_flatMap, gridTiles]
  apply List.flatMap_congr
  intro row _
  rw [List.map_map]
  apply List.map_congr_left
  intro column member
  have inRow := List.mem_range.mp member
  rw [Function.comp_apply, tileRect, Grid.rowMajor_mod inRow,
    Grid.rowMajor_div inRow]

theorem mem_gridTiles {width height tile : Nat} {rect : Rect} :
    rect ∈ gridTiles width height tile ↔ ∃ index,
      index < Grid.tileCount width tile * Grid.tileCount height tile ∧
      tileRect width height tile (Grid.tileCount width tile) index = rect := by
  rw [gridTiles_eq, List.mem_map]
  simp only [List.mem_range]

/-- The number of the tile that holds a place. -/
def tileOf (tile tilesX : Nat) (p : Place) : Nat :=
  p.2 / tile * tilesX + p.1 / tile

theorem tileOf_lt {width height tile : Nat} {p : Place} (someTile : 0 < tile)
    (inside : p.1 < width ∧ p.2 < height) :
    tileOf tile (Grid.tileCount width tile) p <
      Grid.tileCount width tile * Grid.tileCount height tile :=
  Grid.rowMajor_lt (Grid.div_lt_tileCount someTile inside.1)
    (Grid.div_lt_tileCount someTile inside.2)

theorem tileRect_covers {width height tile : Nat} {p : Place}
    (someTile : 0 < tile) (inside : p.1 < width ∧ p.2 < height) :
    (tileRect width height tile (Grid.tileCount width tile)
      (tileOf tile (Grid.tileCount width tile) p)).Covers p.1 p.2 := by
  have inRow := Grid.div_lt_tileCount someTile inside.1
  rw [tileRect, tileOf, Grid.rowMajor_mod inRow, Grid.rowMajor_div inRow]
  exact ⟨(Grid.mem_tile_iff someTile inside.1).mpr rfl,
    (Grid.mem_tile_iff someTile inside.2).mpr rfl⟩

/-- Two places in one tile of the grid. -/
def SameTile (tile : Nat) (p q : Place) : Prop :=
  p.1 / tile = q.1 / tile ∧ p.2 / tile = q.2 / tile

theorem SameTile.tileOf {tile tilesX : Nat} {p q : Place}
    (same : SameTile tile p q) :
    Core.tileOf tile tilesX p = Core.tileOf tile tilesX q := by
  rw [Core.tileOf, Core.tileOf, same.1, same.2]

theorem SameTile.of_covers {width height tile : Nat} {p q : Place}
    (someTile : 0 < tile) (inside : p.1 < width ∧ p.2 < height)
    (tileInside : q.1 < width ∧ q.2 < height)
    (covers : (tileRect width height tile (Grid.tileCount width tile)
      (Core.tileOf tile (Grid.tileCount width tile) q)).Covers p.1 p.2) :
    SameTile tile p q := by
  have inRow := Grid.div_lt_tileCount someTile tileInside.1
  rw [tileRect, Core.tileOf, Grid.rowMajor_mod inRow,
    Grid.rowMajor_div inRow] at covers
  exact ⟨(Grid.mem_tile_iff someTile inside.1).mp covers.1,
    (Grid.mem_tile_iff someTile inside.2).mp covers.2⟩

theorem tileRect_inside {width height tile index : Nat} (someTile : 0 < tile)
    (inGrid : index <
      Grid.tileCount width tile * Grid.tileCount height tile) :
    (tileRect width height tile (Grid.tileCount width tile) index).Inside
      width height := by
  have someColumns : 0 < Grid.tileCount width tile := by
    by_contra none
    have zero : Grid.tileCount width tile = 0 := by omega
    rw [zero, Nat.zero_mul] at inGrid
    omega
  have column := Grid.tileStart_lt someTile (Nat.mod_lt index someColumns)
  have row := Grid.tileStart_lt someTile
    (Nat.div_lt_of_lt_mul inGrid)
  rw [tileRect]
  refine ⟨?_, ?_, ?_, ?_⟩ <;> simp only [Nat.lt_min] <;> omega

theorem tileOf_of_covers {width height tile index : Nat} {p : Place}
    (someTile : 0 < tile)
    (covers : (tileRect width height tile (Grid.tileCount width tile)
      index).Covers p.1 p.2) :
    tileOf tile (Grid.tileCount width tile) p = index := by
  obtain ⟨columns, rows⟩ := covers
  simp only [tileRect] at columns rows
  have inWidth := Nat.min_le_right tile
    (width - index % Grid.tileCount width tile * tile)
  have inHeight := Nat.min_le_right tile
    (height - index / Grid.tileCount width tile * tile)
  have column := (@Grid.mem_tile_iff width _ _ _ someTile (by omega)).mp
    columns
  have row := (@Grid.mem_tile_iff height _ _ _ someTile (by omega)).mp rows
  rw [tileOf, column, row]
  exact Nat.div_add_mod' index _

theorem tileRect_apart {width height tile left right : Nat} (someTile : 0 < tile)
    (different : left ≠ right) :
    (tileRect width height tile (Grid.tileCount width tile) left).Apart
      (tileRect width height tile (Grid.tileCount width tile) right) := by
  rintro column row ⟨inLeft, inRight⟩
  have leftNumber := tileOf_of_covers (p := (column, row)) someTile inLeft
  have rightNumber := tileOf_of_covers (p := (column, row)) someTile inRight
  exact different (leftNumber.symm.trans rightNumber)

theorem gridTiles_inside {width height tile : Nat} (someTile : 0 < tile) :
    ∀ rect ∈ gridTiles width height tile, rect.Inside width height := by
  intro rect member
  obtain ⟨index, inGrid, rfl⟩ := mem_gridTiles.mp member
  exact tileRect_inside someTile inGrid

theorem gridTiles_apart {width height tile : Nat} (someTile : 0 < tile) :
    (gridTiles width height tile).Pairwise Rect.Apart := by
  rw [gridTiles_eq, List.pairwise_map]
  apply List.Pairwise.imp _ List.nodup_range
  intro left right different
  exact tileRect_apart someTile different

private theorem pairwise_zipIdx (flags : List Bool) :
    flags.zipIdx.Pairwise fun left right => left.2 ≠ right.2 := by
  rw [← List.pairwise_map, List.zipIdx_map_snd]
  exact List.nodup_range'

/-- Flagging a rectangle flags exactly the tiles of the places it covers, and
drops no flag. -/
theorem markTiles_spec {width height tile : Nat} {flags : List Bool}
    {rect : Rect} (someTile : 0 < tile) (inside : rect.Inside width height)
    (sameLength : flags.length =
      Grid.tileCount width tile * Grid.tileCount height tile) :
    ∃ marked,
      markTiles tile (Grid.tileCount width tile) flags rect = .ok marked ∧
      marked.length = flags.length ∧
      ∀ cell : Nat, marked[cell]? = some true ↔ flags[cell]? = some true ∨
        ∃ p : Place, rect.Covers p.1 p.2 ∧
          tileOf tile (Grid.tileCount width tile) p = cell := by
  obtain ⟨wide, high, right, bottom⟩ := inside
  have lastColumn := Grid.div_lt_tileCount someTile
    (show rect.x + rect.width - 1 < width by omega)
  have lastRow := Grid.div_lt_tileCount someTile
    (show rect.y + rect.height - 1 < height by omega)
  obtain ⟨marked, computed, markedLength, spec⟩ := Grid.markRange_spec
    (Grid.tileCount width tile) (rect.x / tile) _ (rect.y / tile) _ flags (by
      rw [sameLength]
      exact Grid.rowMajor_lt lastColumn lastRow)
  refine ⟨marked, ?_, markedLength, ?_⟩
  · rw [markTiles, Bounded.checkedSub, if_pos (by omega), Bounded.checkedSub,
      if_pos (by omega)]
    simp only [Res.orPanic_some, Res.ok_bind, computed]
  · intro cell
    refine (spec cell).trans (or_congr_right ?_)
    constructor
    · rintro ⟨row, column, inRows, inColumns, rfl⟩
      obtain ⟨x, left, toRight, sameColumn⟩ :=
        Grid.exists_div_eq someTile wide inColumns
      obtain ⟨y, top, toBottom, sameRow⟩ :=
        Grid.exists_div_eq someTile high inRows
      exact ⟨(x, y), ⟨⟨left, toRight⟩, top, toBottom⟩, by
        rw [tileOf, sameColumn, sameRow]⟩
    · rintro ⟨⟨x, y⟩, ⟨⟨left, toRight⟩, top, toBottom⟩, rfl⟩
      refine ⟨y / tile, x / tile, ⟨?_, ?_⟩, ⟨?_, ?_⟩, rfl⟩
      all_goals
        apply Nat.div_le_div_right
        simp only at left toRight top toBottom
        omega

private theorem foldlM_flags (tile tilesX size : Nat) (part : Rect → Rect)
    (rects : List Rect) (step : List Bool → Rect → SurfaceRes (List Bool))
    (turn : ∀ rect ∈ rects, ∀ flags : List Bool, flags.length = size →
      ∃ marked, step flags rect = .ok marked ∧ marked.length = flags.length ∧
        ∀ cell : Nat, marked[cell]? = some true ↔ flags[cell]? = some true ∨
          ∃ p : Place, (part rect).Covers p.1 p.2 ∧
            tileOf tile tilesX p = cell) :
    ∃ marked, rects.foldlM step (List.replicate size false) = .ok marked ∧
      marked.length = size ∧
      ∀ cell : Nat, marked[cell]? = some true ↔
        ∃ p ∈ region (rects.map part), tileOf tile tilesX p = cell := by
  obtain ⟨marked, computed, holds⟩ := Res.foldlM_ok
    (fun done flags => flags.length = size ∧
      ∀ cell : Nat, flags[cell]? = some true ↔
        ∃ p ∈ region (done.map part), tileOf tile tilesX p = cell)
    rects (List.replicate size false) ⟨List.length_replicate, by
      intro cell
      simp [List.getElem?_replicate]⟩ (by
      rintro done rect rest flags split ⟨sameLength, flagged⟩
      obtain ⟨next, stepped, nextLength, added⟩ :=
        turn rect (by simp [split]) flags sameLength
      refine ⟨next, stepped, nextLength.trans sameLength, fun cell => ?_⟩
      rw [added cell, flagged cell, List.map_append, region_append]
      simp only [Set.mem_union, or_and_right, exists_or, mem_region,
        List.map_cons, List.map_nil, covered_singleton])
  exact ⟨marked, computed, holds.1, holds.2⟩

/-- The rectangle shares a place with one of the others. -/
def Meets (rects : List Rect) (rect : Rect) : Prop :=
  ∃ p ∈ region rects, rect.Covers p.1 p.2

private theorem zipIdx_eq (flags : List Bool) :
    flags.zipIdx = (List.range flags.length).map fun index =>
      (flags[index]?.getD false, index) := by
  apply List.ext_getElem
  · simp
  · intro index inFlags _
    rw [List.length_zipIdx] at inFlags
    simp [inFlags]

private theorem lt_of_mem_zipIdx {flags : List Bool} {flag : Bool} {index : Nat}
    (member : (flag, index) ∈ flags.zipIdx) : index < flags.length := by
  rw [List.mem_zipIdx_iff_getElem?] at member
  exact (List.getElem?_eq_some_iff.mp member).1

/-- The part of a rectangle on the surface. -/
def clip (width height : Nat) (rect : Rect) : Rect :=
  ⟨rect.x, rect.y, min (rect.x + rect.width) width - rect.x,
    min (rect.y + rect.height) height - rect.y⟩

theorem clip_covers {width height : Nat} {rect : Rect} {p : Place} :
    (clip width height rect).Covers p.1 p.2 ↔
      rect.Covers p.1 p.2 ∧ p.1 < width ∧ p.2 < height := by
  simp only [clip, Rect.Covers]
  omega

open Classical in
/-- United damage is made of the tiles of the grid that meet one of the
rectangles. -/
theorem mergeTiledDamage_eq {width height tile tiles : Nat}
    (existing damage : List Rect)
    (counted : Bounded.checkedMul u32Max (Grid.tileCount width (max tile 1))
      (Grid.tileCount height (max tile 1)) = some tiles) :
    mergeTiledDamage width height tile existing damage =
      .ok ((gridTiles width height (max tile 1)).filter fun rect =>
        decide (Meets (existing ++ damage) rect)) := by
  have someTile : 0 < max tile 1 := by omega
  have tilesEq := (Bounded.checkedMul_eq_some.mp counted).1
  obtain ⟨flags, flagged, flagsLength, covers⟩ := foldlM_flags
    (max tile 1) (Grid.tileCount width (max tile 1)) tiles (clip width height)
    (existing ++ damage)
    (fun dirty rect =>
      let right := min (rect.x + rect.width) width
      let bottom := min (rect.y + rect.height) height
      if right ≤ rect.x ∨ bottom ≤ rect.y then .ok dirty
      else markTiles (max tile 1) (Grid.tileCount width (max tile 1)) dirty
        (clip width height rect))
    (by
      intro rect _ flags sameLength
      dsimp only
      split
      · -- nothing of the rectangle lies on the surface
        rename_i outside
        refine ⟨flags, rfl, rfl, fun cell => (or_iff_left ?_).symm⟩
        rintro ⟨p, covered, _⟩
        obtain ⟨⟨⟨left, right⟩, top, bottom⟩, wide, high⟩ :=
          clip_covers.mp covered
        omega
      · rename_i inside
        apply markTiles_spec someTile _ (by rw [sameLength, tilesEq])
        constructor <;> simp only [clip] <;> omega)
  have meets (index : Nat)
      (inGrid : index < Grid.tileCount width (max tile 1) *
        Grid.tileCount height (max tile 1)) :
      flags[index]? = some true ↔ Meets (existing ++ damage)
        (tileRect width height (max tile 1)
          (Grid.tileCount width (max tile 1)) index) := by
    rw [covers]
    constructor
    · rintro ⟨p, ⟨part, isPart, inPart⟩, rfl⟩
      obtain ⟨rect, isRect, rfl⟩ := List.mem_map.mp isPart
      obtain ⟨inRect, bounds⟩ := clip_covers.mp inPart
      exact ⟨p, ⟨rect, isRect, inRect⟩, tileRect_covers someTile bounds⟩
    · rintro ⟨p, ⟨rect, isRect, inRect⟩, inTile⟩
      have bounds := (tileRect_inside someTile inGrid).bounds inTile
      exact ⟨p, ⟨_, List.mem_map_of_mem isRect, clip_covers.mpr
        ⟨inRect, bounds⟩⟩, tileOf_of_covers someTile inTile⟩
  simp only [mergeTiledDamage, counted, Res.orPanic_some, Res.ok_bind]
  refine (congrArg (· >>= _) flagged).trans ?_
  rw [Res.ok_bind, Res.pure_eq, gridTiles_eq, ← tilesEq, ← flagsLength,
    zipIdx_eq, List.filterMap_map, List.filter_map, ← List.filterMap_eq_map,
    List.filterMap_filter]
  apply congrArg
  apply List.filterMap_congr
  intro index member
  have inFlags := List.mem_range.mp member
  rw [flagsLength, tilesEq] at inFlags
  simp only [Function.comp_apply, ← meets index inFlags]
  rw [← tilesEq, ← flagsLength] at inFlags
  rw [List.getElem?_eq_getElem inFlags]
  cases flags[index] <;> simp

private theorem mergeTiledDamage_of_counted {width height tile tiles : Nat}
    {existing damage : List Rect}
    (counted : Bounded.checkedMul u32Max (Grid.tileCount width (max tile 1))
      (Grid.tileCount height (max tile 1)) = some tiles)
    (existingInside : ∀ rect ∈ existing, rect.Inside width height)
    (damageInside : ∀ rect ∈ damage, rect.Inside width height) :
    ∃ merged, mergeTiledDamage width height tile existing damage = .ok merged ∧
      (∀ rect ∈ merged, rect.Inside width height) ∧
        region existing ∪ region damage ⊆ region merged := by
  classical
  have someTile : 0 < max tile 1 := by omega
  refine ⟨_, mergeTiledDamage_eq existing damage counted, ?_, ?_⟩
  · intro rect member
    exact gridTiles_inside someTile rect (List.mem_of_mem_filter member)
  · intro p member
    rw [← region_append] at member
    obtain ⟨rect, isRect, covered⟩ := member
    have inside : rect.Inside width height :=
      (List.mem_append.mp isRect).elim (existingInside rect)
        (damageInside rect)
    have bounds := inside.bounds covered
    have covers := tileRect_covers someTile bounds
    exact ⟨_, List.mem_filter.mpr
      ⟨mem_gridTiles.mpr ⟨_, tileOf_lt someTile bounds, rfl⟩,
        decide_eq_true ⟨p, ⟨rect, isRect, covered⟩, covers⟩⟩, covers⟩

/-- United damage lies on the surface and covers both lists. -/
theorem mergeTiledDamage_spec {width height : Nat} (tile : Nat)
    {existing damage : List Rect}
    (existingInside : ∀ rect ∈ existing, rect.Inside width height)
    (damageInside : ∀ rect ∈ damage, rect.Inside width height) :
    (mergeTiledDamage width height tile existing damage).Ensures fun merged =>
      (∀ rect ∈ merged, rect.Inside width height) ∧
        region existing ∪ region damage ⊆ region merged := by
  cases counted : Bounded.checkedMul u32Max (Grid.tileCount width (max tile 1))
      (Grid.tileCount height (max tile 1)) with
  | none => simp [mergeTiledDamage, counted, Res.Ensures]
  | some tiles =>
      exact .of_returns
        (mergeTiledDamage_of_counted counted existingInside damageInside)

theorem tileCount_le {extent tile : Nat} (someTile : 0 < tile) :
    Grid.tileCount extent tile ≤ extent := by
  rw [Grid.tileCount, Nat.div_le_iff_le_mul_add_pred someTile]
  have product := Nat.le_mul_of_pos_left extent someTile
  omega

theorem mergeTiledDamage_returns {width height : Nat} (tile : Nat)
    {existing damage : List Rect} (small : width * height ≤ u32Max)
    (existingInside : ∀ rect ∈ existing, rect.Inside width height)
    (damageInside : ∀ rect ∈ damage, rect.Inside width height) :
    ∃ merged, mergeTiledDamage width height tile existing damage =
      .ok merged := by
  have someTile : 0 < max tile 1 := by omega
  have fits := Nat.le_trans
    (Nat.mul_le_mul (@tileCount_le width _ someTile)
      (@tileCount_le height _ someTile)) small
  obtain ⟨merged, united, _⟩ := mergeTiledDamage_of_counted
    (Bounded.checkedMul_eq_some.mpr ⟨rfl, fits⟩) existingInside damageInside
  exact ⟨merged, united⟩

theorem mergeTiledDamage_apart {width height tile : Nat}
    {existing damage merged : List Rect}
    (united : mergeTiledDamage width height tile existing damage =
      .ok merged) : merged.Pairwise Rect.Apart := by
  classical
  have someTile : 0 < max tile 1 := by omega
  obtain ⟨tiles, counted, _⟩ := Res.bind_eq_ok.mp united
  rw [mergeTiledDamage_eq existing damage (Res.orPanic_eq_ok.mp counted)]
    at united
  cases united
  exact (gridTiles_apart someTile).filter _

theorem mergeTiledDamage_nil (width height tile : Nat) :
    (mergeTiledDamage width height tile [] []).Ensures fun merged =>
      merged = [] := by
  classical
  cases counted : Bounded.checkedMul u32Max (Grid.tileCount width (max tile 1))
      (Grid.tileCount height (max tile 1)) with
  | none => simp [mergeTiledDamage, counted, Res.Ensures]
  | some tiles =>
      rw [mergeTiledDamage_eq [] [] counted]
      apply List.filter_eq_nil_iff.mpr
      intro rect _ kept
      obtain ⟨p, none, _⟩ := of_decide_eq_true kept
      rw [List.append_nil, region_nil] at none
      exact none

/-- Tiled damage consists of tiles apart, or of the full surface. -/
theorem tileDamageRegions_apart {previous current : PixelSurface} {tile : Nat}
    {rects damage : List Rect}
    (computed : tileDamageRegions previous current tile rects = .ok damage) :
    damage.Pairwise Rect.Apart := by
  unfold tileDamageRegions at computed
  split at computed
  · cases computed
    exact List.pairwise_singleton _ _
  · rename_i sameShape
    have someTile : 0 < tile := by
      by_contra zero
      simp_all
    obtain ⟨flags, _, computed⟩ := Res.bind_eq_ok.mp computed
    refine (Res.filterMap_pairwise (pairwise_zipIdx flags) ?_ computed).1
    have isTile {flag : Bool} {index : Nat} {rect : Rect}
        (kept : (if flag = true then do
          let rect := tileRect current.width current.height tile
            (Grid.tileCount current.width tile) index
          let changed ← changedIn previous current rect
          return if changed then some rect else none
          else .ok none : SurfaceRes (Option Rect)) = .ok (some rect)) :
        rect = tileRect current.width current.height tile
          (Grid.tileCount current.width tile) index := by
      split at kept
      · obtain ⟨changed, _, kept⟩ := Res.bind_eq_ok.mp kept
        cases changed with
        | false => cases kept
        | true =>
            cases kept
            rfl
      · cases kept
    rintro ⟨_, left⟩ ⟨_, right⟩ leftRect rightRect different isLeft isRight
    rw [isTile isLeft, isTile isRight]
    exact tileRect_apart someTile different

theorem sameRow_spec {previous current : PixelSurface} (x y count : Nat)
    (sameShape : previous.shape = current.shape) (row : y < current.height)
    (columns : x + count ≤ current.width) :
    ∃ same, previous.sameRow current (y * current.width + x) count = .ok same ∧
      (same = true ↔
        ∀ p ∈ PixelSurface.rowRegion x y count,
          previous.picture p = current.picture p) := by
  have sameBytes := PixelSurface.bytesPerPixel_congr sameShape
  obtain ⟨⟨sameWidth, sameHeight⟩, _⟩ := PixelSurface.shape_eq_iff.mp sameShape
  obtain ⟨old, oldLoaded, oldLength, oldShown⟩ :=
    PixelSurface.loadPixels_row previous x y count (sameHeight ▸ row)
      (sameWidth ▸ columns)
  obtain ⟨new, newLoaded, newLength, newShown⟩ :=
    PixelSurface.loadPixels_row current x y count row columns
  rw [sameBytes] at oldShown oldLength
  rw [sameWidth] at oldLoaded
  refine ⟨old == new, by
    rw [PixelSurface.sameRow, oldLoaded, newLoaded]
    rfl, ?_⟩
  rw [beq_iff_eq]
  constructor
  · rintro rfl p ⟨sameRow, lower, upper⟩
    have atOffset := (oldShown (p.1 - x) (by omega)).symm.trans
      (newShown (p.1 - x) (by omega))
    rwa [Nat.add_sub_cancel' lower, ← sameRow] at atOffset
  · intro samePixels
    refine Buffer.eq_of_chunks current.bytesPerPixel_pos oldLength newLength ?_
    intro offset inRow
    rw [oldShown offset inRow, newShown offset inRow]
    exact samePixels _ ⟨rfl, by simp, by simpa using inRow⟩

theorem changedIn_spec {previous current : PixelSurface} {rect : Rect}
    (sameShape : previous.shape = current.shape)
    (inside : rect.Inside current.width current.height) :
    ∃ changed, changedIn previous current rect = .ok changed ∧
      (changed = true ↔ ∃ p ∈ region [rect],
        previous.picture p ≠ current.picture p) := by
  obtain ⟨wide, high, right, bottom⟩ := inside
  have rowSpec (row : Nat) (inRect : row < rect.height) :=
    sameRow_spec rect.x (rect.y + row) rect.width sameShape (by omega) right
  classical
  refine ⟨(List.range rect.height).any fun row => decide (∃ p ∈
      PixelSurface.rowRegion rect.x (rect.y + row) rect.width,
      previous.picture p ≠ current.picture p), ?_, ?_⟩
  · refine Res.any_ok ?_
    intro row member
    obtain ⟨same, computed, spec⟩ := rowSpec row (List.mem_range.mp member)
    rw [computed, Res.ok_bind, Res.pure_eq]
    congr 1
    rw [Bool.eq_iff_iff, decide_eq_true_iff, Bool.not_eq_true',
      ← Bool.not_eq_true, spec]
    push Not
    rfl
  · rw [List.any_eq_true]
    constructor
    · rintro ⟨row, member, differs⟩
      obtain ⟨p, ⟨sameRow, lower, upper⟩, differ⟩ := of_decide_eq_true differs
      rw [List.mem_range] at member
      exact ⟨p, by
        rw [mem_region, covered_singleton]
        exact ⟨⟨lower, upper⟩, by omega, by omega⟩, differ⟩
    · rintro ⟨p, covered, differ⟩
      rw [mem_region, covered_singleton] at covered
      obtain ⟨columns, top, below⟩ := covered
      refine ⟨p.2 - rect.y, List.mem_range.mpr (by omega), ?_⟩
      exact decide_eq_true ⟨p, ⟨by omega, columns⟩, differ⟩

/-- The surfaces show different pixels in the rectangle. -/
def Differs (previous current : PixelSurface) (rect : Rect) : Prop :=
  ∃ p ∈ region [rect], previous.picture p ≠ current.picture p

open Classical in
/-- Tiled damage is made of the tiles that meet the regions and show a
difference. -/
theorem tileDamageRegions_eq {previous current : PixelSurface} {tile : Nat}
    (rects : List Rect) (sameShape : previous.shape = current.shape)
    (someTile : 0 < tile)
    (inside : ∀ rect ∈ rects, rect.Inside current.width current.height) :
    tileDamageRegions previous current tile rects =
      .ok ((gridTiles current.width current.height tile).filter fun rect =>
        decide (Meets rects rect ∧ Differs previous current rect)) := by
  obtain ⟨flags, flagged, flagsLength, covers⟩ := foldlM_flags
    tile (Grid.tileCount current.width tile)
    (Grid.tileCount current.width tile *
      Grid.tileCount current.height tile) id rects
    (markTiles tile (Grid.tileCount current.width tile)) (by
      intro rect member flags sameLength
      exact markTiles_spec someTile (inside rect member) sameLength)
  have isTile : (tile == 0) = false := by
    rw [beq_eq_false_iff_ne]
    omega
  have meets (index : Nat) : flags[index]? = some true ↔ Meets rects
      (tileRect current.width current.height tile
        (Grid.tileCount current.width tile) index) := by
    rw [covers, List.map_id]
    constructor
    · rintro ⟨p, ⟨rect, isRect, inRect⟩, rfl⟩
      exact ⟨p, ⟨rect, isRect, inRect⟩,
        tileRect_covers someTile ((inside rect isRect).bounds inRect)⟩
    · rintro ⟨p, isRegion, inTile⟩
      exact ⟨p, isRegion, tileOf_of_covers someTile inTile⟩
  rw [tileDamageRegions, PixelSurface.sameShape_iff.mpr sameShape, isTile]
  simp only [Bool.not_true, Bool.or_self, Bool.false_eq_true, if_false,
    flagged, Res.ok_bind]
  let changed (rect : Rect) : Bool := decide (Differs previous current rect)
  let image (entry : Bool × Nat) : Option Rect :=
    let rect := tileRect current.width current.height tile
      (Grid.tileCount current.width tile) entry.2
    if entry.1 then (if changed rect then some rect else none) else none
  rw [@Res.filterMap_ok _ _ _ _ image]
  · rw [gridTiles_eq, ← flagsLength, zipIdx_eq, List.filterMap_map,
      List.filter_map, ← List.filterMap_eq_map, List.filterMap_filter]
    apply congrArg
    apply List.filterMap_congr
    intro index member
    simp only [Function.comp_apply, image, changed, ← meets]
    have inFlags := List.mem_range.mp member
    rw [List.getElem?_eq_getElem inFlags]
    cases flags[index] <;> simp
  · rintro ⟨candidate, index⟩ member
    cases candidate with
    | false => rfl
    | true =>
        have inGrid := lt_of_mem_zipIdx member
        rw [flagsLength] at inGrid
        obtain ⟨isChanged, computed, spec⟩ :=
          changedIn_spec sameShape (tileRect_inside someTile inGrid)
        have same : isChanged = changed _ :=
          Bool.eq_iff_iff.mpr (spec.trans decide_eq_true_iff.symm)
        simp only [if_true, computed, Res.ok_bind, Res.pure_eq, same, image]

/-- Tiled damage lies on the surface, covers every difference inside the
regions, and each of its tiles shows one.  There is none exactly if no tile
that meets the regions shows a difference. -/
theorem tileDamageRegions_spec {previous current : PixelSurface} {tile : Nat}
    (rects : List Rect) (sameShape : previous.shape = current.shape)
    (someTile : 0 < tile)
    (inside : ∀ rect ∈ rects, rect.Inside current.width current.height) :
    ∃ damage, tileDamageRegions previous current tile rects = .ok damage ∧
      (∀ rect ∈ damage, rect.Inside current.width current.height) ∧
      (∀ p ∈ region rects, previous.picture p ≠ current.picture p →
        p ∈ region damage) ∧
      (∀ rect ∈ damage, ∃ p ∈ region [rect],
        previous.picture p ≠ current.picture p) ∧
      (damage = [] ↔ ∀ p : Place, p.1 < current.width → p.2 < current.height →
        (∃ q ∈ region rects, SameTile tile p q) →
          previous.picture p = current.picture p) := by
  classical
  have toTile {p q : Place} (bounds : p.1 < current.width ∧
      p.2 < current.height) (isRegion : q ∈ region rects)
      (sameTile : SameTile tile p q)
      (differ : previous.picture p ≠ current.picture p) :
      ∃ rect ∈ gridTiles current.width current.height tile,
        (Meets rects rect ∧ Differs previous current rect) ∧
        rect.Covers p.1 p.2 := by
    obtain ⟨rect, isRect, inRect⟩ := isRegion
    have covers := tileRect_covers someTile bounds
    have meets := tileRect_covers someTile ((inside rect isRect).bounds inRect)
    rw [← sameTile.tileOf] at meets
    exact ⟨_, mem_gridTiles.mpr ⟨_, tileOf_lt someTile bounds, rfl⟩,
      ⟨⟨q, ⟨rect, isRect, inRect⟩, meets⟩, p, by simpa using covers, differ⟩,
      covers⟩
  refine ⟨_, tileDamageRegions_eq rects sameShape someTile inside, ?_, ?_, ?_,
    ?_⟩
  · intro rect member
    exact gridTiles_inside someTile rect (List.mem_of_mem_filter member)
  · intro p covered differ
    obtain ⟨rect, isRect, inRect⟩ := covered
    obtain ⟨tileRect, inGrid, kept, inTile⟩ :=
      toTile ((inside rect isRect).bounds inRect) ⟨rect, isRect, inRect⟩
        ⟨rfl, rfl⟩ differ
    exact ⟨tileRect, List.mem_filter.mpr ⟨inGrid, decide_eq_true kept⟩, inTile⟩
  · intro rect member
    exact (of_decide_eq_true (List.mem_filter.mp member).2).2
  · rw [List.filter_eq_nil_iff]
    constructor
    · rintro none p wide high ⟨q, isRegion, sameTile⟩
      by_contra differ
      obtain ⟨rect, inGrid, kept, _⟩ :=
        toTile ⟨wide, high⟩ isRegion sameTile differ
      exact none rect inGrid (decide_eq_true kept)
    · intro same rect inGrid kept
      obtain ⟨⟨q, isRegion, meets⟩, p, covered, differ⟩ :=
        of_decide_eq_true kept
      rw [mem_region, covered_singleton] at covered
      have bounds := (gridTiles_inside someTile rect inGrid).bounds covered
      obtain ⟨other, isRect, inRect⟩ := isRegion
      have inTile := (inside other isRect).bounds inRect
      obtain ⟨index, _, rfl⟩ := mem_gridTiles.mp inGrid
      rw [← tileOf_of_covers someTile meets] at covered
      exact differ (same p bounds.1 bounds.2 ⟨q, ⟨other, isRect, inRect⟩,
        SameTile.of_covers someTile bounds inTile covered⟩)

end RmDisplay.Core
