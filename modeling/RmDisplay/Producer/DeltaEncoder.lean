import RmDisplay.Foundation.Grid
import RmDisplay.Protocol.SemanticSpec

/-!
# Encoding the difference of two frames

`encodeDeltaRegions` compares two surfaces tile by tile, merges changed tiles
into runs and runs into rectangles, and encodes what the rectangles hold.
Indexing that leaves a buffer gives nothing, as the program panics there.

The scan is followed by the places it has seen: its rectangles never leave
them, never overlap, and cover every difference among them.
-/

namespace RmDisplay.Producer

open Foundation Protocol

/-- What the scan compares; the tile is at least one pixel. -/
structure TileScan where
  previous : Bytes
  current : Bytes
  width : Nat
  height : Nat
  tile : Nat
  someTile : 0 < tile

namespace TileScan

/-- Do the surfaces differ in a part of a row of pixels? -/
def differsAt (self : TileScan) (start rectWidth : Nat) : Option Bool := do
  let old ← Buffer.slice self.previous start rectWidth
  let new ← Buffer.slice self.current start rectWidth
  return old != new

/-- Does a tile of the tile row at `y` differ? -/
def changed (self : TileScan) (y rectHeight tileX : Nat) : Option Bool :=
  let rectWidth := min self.tile (self.width - tileX)
  (List.range rectHeight).anyM fun row =>
    self.differsAt ((y + row) * self.width + tileX) rectWidth

/-- Where the changed tiles from `x` on end. -/
def runEnd (self : TileScan) (y rectHeight x : Nat) :
    Option {stop : Nat // x ≤ stop} :=
  if x < self.width then do
    if ← self.changed y rectHeight x then
      let ⟨stop, later⟩ ← self.runEnd y rectHeight (x + self.tile)
      return ⟨stop, Nat.le_trans (Nat.le_add_right x self.tile) later⟩
    else return ⟨x, Nat.le_refl x⟩
  else return ⟨x, Nat.le_refl x⟩
termination_by self.width - x
decreasing_by
  have := self.someTile
  omega

/-- Add a run below the last rectangle of its columns that ends above it, if
there is one. -/
def growLast (run : Rect) : List Rect → Option (List Rect)
  | [] => none
  | rect :: later =>
      match growLast run later with
      | some grown => some (rect :: grown)
      | none =>
          if rect.x = run.x ∧ rect.width = run.width ∧
              rect.y + rect.height = run.y then
            some ({ rect with height := rect.height + run.height } :: later)
          else none

def addRun (rects : List Rect) (run : Rect) : List Rect :=
  (growLast run rects).getD (rects ++ [run])

/-- Scan one row of tiles from `x` on. -/
def scanRow (self : TileScan) (y rectHeight x : Nat) (rects : List Rect) :
    Option (List Rect) :=
  if x < self.width then do
    if ← self.changed y rectHeight x then
      let ⟨stop, later⟩ ← self.runEnd y rectHeight (x + self.tile)
      have : x + self.tile ≤ stop := later
      self.scanRow y rectHeight stop
        (addRun rects ⟨x, y, min stop self.width - x, rectHeight⟩)
    else self.scanRow y rectHeight (x + self.tile) rects
  else return rects
termination_by self.width - x
decreasing_by
  all_goals
    have := self.someTile
    omega

/-- Scan the rows of tiles from `y` on. -/
def scanRows (self : TileScan) (y : Nat) (rects : List Rect) :
    Option (List Rect) :=
  if y < self.height then do
    let scanned ← self.scanRow y (min self.tile (self.height - y)) 0 rects
    self.scanRows (y + self.tile) scanned
  else return rects
termination_by self.height - y
decreasing_by
  have := self.someTile
  omega

end TileScan

/-- The smallest rectangle around the given ones; there has to be one. -/
def boundingBox (rects : List Rect) : Option Rect := do
  let left ← (rects.map (·.x)).min?
  let top ← (rects.map (·.y)).min?
  let right ← (rects.map fun rect => rect.x + rect.width).max?
  let bottom ← (rects.map fun rect => rect.y + rect.height).max?
  return ⟨left, top, right - left, bottom - top⟩

/-- The rectangles of a delta. -/
def TileScan.rects (self : TileScan) (maxRegions : Nat) : Option (List Rect) := do
  let scanned ← self.scanRows 0 []
  let few ←
    if max maxRegions 1 < scanned.length then do
      let box ← boundingBox scanned
      pure [box]
    else pure scanned
  return if few.isEmpty then [⟨0, 0, 1, 1⟩] else few

def extractRegion (pixels : Bytes) (surfaceWidth : Nat) (rect : Rect) :
    Option Bytes :=
  (List.range rect.height).foldlM (fun output row => do
    let start := (rect.y + row) * surfaceWidth + rect.x
    let part ← Buffer.slice pixels start rect.width
    return output ++ part) []

def rawRegion (crc32 : Bytes → Nat) (rect : Rect) (pixels : Bytes) :
    FrameRegion where
  rect := some rect
  encoding := wire Encoding.raw
  decodedLen := pixels.length % 2 ^ 32
  decodedCrc32 := crc32 pixels
  data := pixels

/-- The external compressor of the producer; nothing if it fails. -/
abbrev Compressor := Bytes → Option Bytes

def encodeRegion (crc32 : Bytes → Nat) (compress : Compressor) (rect : Rect)
    (pixels : Bytes) (allowZstd : Bool) : FrameRegion :=
  let region := rawRegion crc32 rect pixels
  if allowZstd then
    match compress pixels with
    | some compressed =>
        if compressed.length + 12 < pixels.length then
          { region with encoding := wire Encoding.zstd, data := compressed }
        else region
    | none => region
  else region

def encodeDeltaRegions (crc32 : Bytes → Nat) (compress : Compressor)
    (previous current : Bytes) (width height tile maxRegions : Nat)
    (allowZstd : Bool) : Option (List FrameRegion) := do
  let scan : TileScan :=
    { previous, current, width, height
      tile := max tile 1
      someTile := Nat.le_max_right tile 1 }
  let rects ← scan.rects maxRegions
  rects.mapM fun rect => do
    let pixels ← extractRegion current width rect
    return encodeRegion crc32 compress rect pixels allowZstd

private theorem anyM_returns {α : Type} {test : α → Option Bool} {items : List α}
    (returns : ∀ item ∈ items, ∃ answer, test item = some answer) :
    ∃ answer, items.anyM test = some answer ∧
      (answer = false → ∀ item ∈ items, test item = some false) := by
  induction items with
  | nil => exact ⟨false, rfl, fun _ _ missing => nomatch missing⟩
  | cons item rest induction =>
      obtain ⟨answer, tested⟩ := returns item List.mem_cons_self
      obtain ⟨others, asked, none⟩ := induction fun other member =>
        returns other (List.mem_cons_of_mem _ member)
      rw [List.anyM_cons, tested]
      cases answer with
      | true => exact ⟨true, rfl, fun impossible => nomatch impossible⟩
      | false =>
          refine ⟨others, asked, fun isFalse => ?_⟩
          exact List.forall_mem_cons.mpr ⟨tested, none isFalse⟩

namespace TileScan

variable {scan : TileScan}

/-- The buffers are surfaces of the given size. -/
structure Sized (scan : TileScan) : Prop where
  previous : scan.previous.length = scan.width * scan.height
  current : scan.current.length = scan.width * scan.height

/-- The pixel at a place is not the same on both surfaces. -/
def Differs (scan : TileScan) (column row : Nat) : Prop :=
  (column < scan.width ∧ row < scan.height) ∧
    scan.previous[row * scan.width + column]? ≠
      scan.current[row * scan.width + column]?

theorem differsAt_spec (sized : scan.Sized) {start rectWidth : Nat}
    (fits : start + rectWidth ≤ scan.width * scan.height) :
    ∃ answer, scan.differsAt start rectWidth = some answer ∧
      (answer = false → ∀ offset < rectWidth,
        scan.previous[start + offset]? = scan.current[start + offset]?) := by
  obtain ⟨old, readOld⟩ : ∃ old,
      Buffer.slice scan.previous start rectWidth = some old :=
    ⟨_, Buffer.slice_eq _ _ _ (by rw [sized.previous]; exact fits)⟩
  obtain ⟨new, readNew⟩ : ∃ new,
      Buffer.slice scan.current start rectWidth = some new :=
    ⟨_, Buffer.slice_eq _ _ _ (by rw [sized.current]; exact fits)⟩
  refine ⟨old != new, ?_, ?_⟩
  · rw [differsAt, readOld, readNew]
    rfl
  · intro same offset inside
    have oldPixel := Buffer.getElem?_of_slice readOld offset
    have newPixel := Buffer.getElem?_of_slice readNew offset
    rw [if_pos inside] at oldPixel newPixel
    rw [← oldPixel, ← newPixel, bne_eq_false_iff_eq.mp same]

/-- A tile is compared without leaving the buffers, and an unchanged one holds
no difference. -/
theorem changed_spec (sized : scan.Sized) {y rectHeight tileX : Nat}
    (inRow : tileX < scan.width) (fits : y + rectHeight ≤ scan.height) :
    ∃ answer, scan.changed y rectHeight tileX = some answer ∧
      (answer = false → ∀ column row,
        tileX ≤ column → column < tileX + scan.tile →
        y ≤ row → row < y + rectHeight → ¬ scan.Differs column row) := by
  have compared (row : Nat) (member : row ∈ List.range rectHeight) :=
    @differsAt_spec scan sized ((y + row) * scan.width + tileX)
      (min scan.tile (scan.width - tileX)) (by
        have inTile := List.mem_range.mp member
        have rows : (y + row + 1) * scan.width ≤ scan.height * scan.width :=
          Nat.mul_le_mul_right scan.width (by omega)
        rw [Nat.add_one_mul, Nat.mul_comm scan.height] at rows
        omega)
  obtain ⟨answer, asked, unchanged⟩ := anyM_returns fun row member =>
    (compared row member).imp fun _ spec => spec.1
  refine ⟨answer, asked, ?_⟩
  rintro isFalse column row left right top bottom ⟨⟨inWidth, _⟩, differ⟩
  have member : row - y ∈ List.range rectHeight :=
    List.mem_range.mpr (by omega)
  obtain ⟨other, tested, same⟩ := compared (row - y) member
  cases (unchanged isFalse (row - y) member).symm.trans tested
  have pixel := same rfl (column - tileX) (by omega)
  rw [Nat.add_sub_cancel' top, Nat.add_assoc, Nat.add_sub_cancel' left] at pixel
  exact differ pixel

theorem runEnd_returns (sized : scan.Sized) {y rectHeight : Nat}
    (fits : y + rectHeight ≤ scan.height) (x : Nat) :
    ∃ stop, scan.runEnd y rectHeight x = some stop := by
  induction remaining : scan.width - x using Nat.strongRecOn
    generalizing x with
  | ind count induction =>
      rw [runEnd]
      split
      · rename_i inRow
        obtain ⟨answer, asked, _⟩ := changed_spec sized inRow fits
        rw [asked]
        cases answer with
        | true =>
            have someTile := scan.someTile
            obtain ⟨stop, found⟩ := induction
              (scan.width - (x + scan.tile)) (by omega) _ rfl
            simp [found]
        | false => exact ⟨_, rfl⟩
      · exact ⟨_, rfl⟩

/-- The rectangle that ends above a run, grown by the run. -/
def Above (run rect : Rect) : Prop :=
  rect.x = run.x ∧ rect.width = run.width ∧ rect.y + rect.height = run.y

theorem growLast_eq_some {run : Rect} {rects grown : List Rect}
    (grew : growLast run rects = some grown) :
    ∃ earlier rect later, rects = earlier ++ rect :: later ∧
      grown = earlier ++
        { rect with height := rect.height + run.height } :: later ∧
      Above run rect := by
  induction rects generalizing grown with
  | nil => cases grew
  | cons rect later induction =>
      rw [growLast] at grew
      split at grew
      · rename_i inner grewLater
        cases grew
        obtain ⟨earlier, found, rest, rfl, rfl, above⟩ := induction grewLater
        exact ⟨rect :: earlier, found, rest, rfl, rfl, above⟩
      · split at grew
        · rename_i above
          cases grew
          exact ⟨[], rect, later, rfl, rfl, above⟩
        · cases grew

theorem covers_grown {run rect : Rect} (above : Above run rect)
    {column row : Nat} :
    { rect with height := rect.height + run.height }.Covers column row ↔
      rect.Covers column row ∨ run.Covers column row := by
  obtain ⟨sameX, sameWidth, below⟩ := above
  unfold Rect.Covers
  simp only
  omega

theorem covered_addRun {run : Rect} {rects : List Rect} {column row : Nat} :
    Covered (addRun rects run) column row ↔
      Covered rects column row ∨ run.Covers column row := by
  unfold addRun
  cases grew : growLast run rects with
  | none => simp
  | some grown =>
      obtain ⟨earlier, rect, later, rfl, rfl, above⟩ := growLast_eq_some grew
      have single (other : Rect) : other :: later = [other] ++ later := rfl
      rw [Option.getD_some, single, single rect]
      simp only [covered_append, covered_singleton, covers_grown above]
      tauto

theorem inside_addRun {run : Rect} {rects : List Rect} {width height : Nat}
    (inside : ∀ rect ∈ rects, rect.Inside width height)
    (runInside : run.Inside width height) :
    ∀ rect ∈ addRun rects run, rect.Inside width height := by
  unfold addRun
  cases grew : growLast run rects with
  | none =>
      rw [Option.getD_none, List.forall_mem_append]
      exact ⟨inside, fun rect member => List.mem_singleton.mp member ▸ runInside⟩
  | some grown =>
      obtain ⟨earlier, rect, later, rfl, rfl, sameX, sameWidth, below⟩ :=
        growLast_eq_some grew
      rw [List.forall_mem_append, List.forall_mem_cons] at inside
      obtain ⟨earlierInside, rectInside, laterInside⟩ := inside
      rw [Option.getD_some, List.forall_mem_append, List.forall_mem_cons]
      refine ⟨earlierInside, ⟨rectInside.wide, ?_, rectInside.right, ?_⟩,
        laterInside⟩
      · have := rectInside.high
        simp only
        omega
      · have := runInside.bottom
        simp only
        omega

theorem apart_addRun {run : Rect} {rects : List Rect}
    (apart : rects.Pairwise Rect.Apart)
    (runApart : ∀ rect ∈ rects, rect.Apart run) :
    (addRun rects run).Pairwise Rect.Apart := by
  unfold addRun
  cases grew : growLast run rects with
  | none =>
      rw [Option.getD_none, List.pairwise_append]
      refine ⟨apart, List.pairwise_singleton _ _, fun rect member other same => ?_⟩
      exact List.mem_singleton.mp same ▸ runApart rect member
  | some grown =>
      obtain ⟨earlier, rect, later, rfl, rfl, above⟩ := growLast_eq_some grew
      -- Apart from the grown rectangle is apart from its two parts.
      have grownApart {other : Rect} (first : other.Apart rect)
          (second : other.Apart run) :
          other.Apart { rect with height := rect.height + run.height } := by
        rintro column row ⟨inOther, inGrown⟩
        rcases (covers_grown above).mp inGrown with old | new
        · exact first column row ⟨inOther, old⟩
        · exact second column row ⟨inOther, new⟩
      rw [List.pairwise_append, List.pairwise_cons] at apart
      obtain ⟨earlierApart, ⟨rectApart, laterApart⟩, between⟩ := apart
      rw [List.forall_mem_append, List.forall_mem_cons] at runApart
      rw [Option.getD_some, List.pairwise_append, List.pairwise_cons]
      refine ⟨earlierApart, ⟨?_, laterApart⟩, ?_⟩
      · intro other member
        exact (grownApart (rectApart other member).symm
          (runApart.2.2 other member)).symm
      · intro other member next isNext
        rcases List.mem_cons.mp isNext with rfl | later
        · exact grownApart (between other member rect List.mem_cons_self)
            (runApart.1 other member)
        · exact between other member next (List.mem_cons_of_mem _ later)

/-- Rectangles that cover exactly what differs among the places seen, or more
of these places. -/
structure Scanned (scan : TileScan) (seen : Nat → Nat → Prop)
    (rects : List Rect) : Prop where
  inside : ∀ rect ∈ rects, rect.Inside scan.width scan.height
  apart : rects.Pairwise Rect.Apart
  known : ∀ column row, Covered rects column row → seen column row
  covers : ∀ column row, scan.Differs column row → seen column row →
    Covered rects column row

/-- The rows above `y`, and the next rows up to column `x`. -/
def RowSeen (y rectHeight x column row : Nat) : Prop :=
  row < y ∨ row < y + rectHeight ∧ column < x

namespace Scanned

variable {seen wider : Nat → Nat → Prop} {rects : List Rect}

/-- Seeing more places that do not differ. -/
theorem widen (scanned : scan.Scanned seen rects)
    (contains : ∀ column row, seen column row → wider column row)
    (same : ∀ column row, scan.Differs column row → wider column row →
      seen column row) : scan.Scanned wider rects where
  inside := scanned.inside
  apart := scanned.apart
  known column row covered := contains column row (scanned.known column row covered)
  covers column row differs isWider :=
    scanned.covers column row differs (same column row differs isWider)

theorem add (scanned : scan.Scanned seen rects) {run : Rect}
    (runInside : run.Inside scan.width scan.height)
    (unseen : ∀ column row, run.Covers column row → ¬ seen column row)
    (contains : ∀ column row, seen column row ∨ run.Covers column row →
      wider column row)
    (same : ∀ column row, scan.Differs column row → wider column row →
      seen column row ∨ run.Covers column row) :
    scan.Scanned wider (addRun rects run) where
  inside := inside_addRun scanned.inside runInside
  apart := apart_addRun scanned.apart fun rect member column row both =>
    unseen column row both.2 (scanned.known column row ⟨rect, member, both.1⟩)
  known column row covered := contains column row
    ((covered_addRun.mp covered).imp_left (scanned.known column row))
  covers column row differs isWider := covered_addRun.mpr
    ((same column row differs isWider).imp_left
      (scanned.covers column row differs))

end Scanned

theorem scanRow_spec (sized : scan.Sized) {y rectHeight : Nat}
    (fits : y + rectHeight ≤ scan.height) (someRow : 0 < rectHeight) {x : Nat}
    {rects : List Rect} (scanned : scan.Scanned (RowSeen y rectHeight x) rects) :
    ∃ after, scan.scanRow y rectHeight x rects = some after ∧
      scan.Scanned (fun _ row => row < y + rectHeight) after := by
  have someTile := scan.someTile
  induction remaining : scan.width - x using Nat.strongRecOn
    generalizing x rects with
  | ind count induction =>
      rw [scanRow]
      split
      · rename_i inRow
        obtain ⟨answer, asked, unchanged⟩ := changed_spec sized inRow fits
        rw [asked]
        cases answer with
        | true =>
            obtain ⟨⟨stop, later⟩, found⟩ :=
              runEnd_returns sized fits (x + scan.tile)
            obtain ⟨after, scannedRest, spec⟩ := @induction
              (scan.width - stop) (by omega) stop
              (addRun rects ⟨x, y, min stop scan.width - x, rectHeight⟩) (by
                refine scanned.add ⟨?_, someRow, ?_, fits⟩ ?_ ?_ ?_
                all_goals
                  simp only [RowSeen, Rect.Covers, Differs]
                  omega) rfl
            refine ⟨after, ?_, spec⟩
            simp [found, scannedRest]
        | false =>
            obtain ⟨after, scannedRest, spec⟩ := @induction
              (scan.width - (x + scan.tile)) (by omega) (x + scan.tile) rects
              (by
                refine scanned.widen ?_ ?_
                · unfold RowSeen
                  omega
                · intro column row differs isWider
                  have same := unchanged rfl column row
                  unfold RowSeen at *
                  by_contra unseen
                  exact same (by omega) (by omega) (by omega) (by omega) differs)
              rfl
            exact ⟨after, by simpa using scannedRest, spec⟩
      · rename_i beyond
        refine ⟨rects, rfl, scanned.widen ?_ ?_⟩
        · unfold RowSeen
          omega
        · intro column row differs
          have := differs.1
          unfold RowSeen
          omega

theorem scanRows_spec (sized : scan.Sized) {y : Nat} {rects : List Rect}
    (scanned : scan.Scanned (fun _ row => row < y) rects) :
    ∃ after, scan.scanRows y rects = some after ∧
      scan.Scanned (fun _ _ => True) after := by
  have someTile := scan.someTile
  induction remaining : scan.height - y using Nat.strongRecOn
    generalizing y rects with
  | ind count induction =>
      rw [scanRows]
      split
      · rename_i inColumn
        obtain ⟨row, scannedRow, spec⟩ := @scanRow_spec scan sized y
          (min scan.tile (scan.height - y)) (by omega) (by omega) 0 rects
          (scanned.widen (by unfold RowSeen; omega) (by unfold RowSeen; omega))
        rw [scannedRow]
        refine @induction (scan.height - (y + scan.tile)) (by omega)
          (y + scan.tile) row (spec.widen (by omega) ?_) rfl
        intro column row differs
        have := differs.1
        omega
      · rename_i beyond
        refine ⟨rects, rfl, scanned.widen (fun _ _ _ => trivial) ?_⟩
        intro column row differs _
        have := differs.1
        omega

end TileScan

theorem boundingBox_spec {rects : List Rect} {width height : Nat}
    (someRect : rects ≠ [])
    (inside : ∀ rect ∈ rects, rect.Inside width height) :
    ∃ box, boundingBox rects = some box ∧ box.Inside width height ∧
      ∀ column row, Covered rects column row → box.Covers column row := by
  have most {values : List Nat} (someValue : values ≠ []) :
      ∃ value, values.max? = some value ∧ value ∈ values ∧
        ∀ other ∈ values, other ≤ value := by
    obtain ⟨value, isMost⟩ :=
      Option.isSome_iff_exists.mp (List.isSome_max?_of_ne_nil someValue)
    exact ⟨value, isMost, List.max?_eq_some_iff.mp isMost⟩
  have least {values : List Nat} (someValue : values ≠ []) :
      ∃ value, values.min? = some value ∧ value ∈ values ∧
        ∀ other ∈ values, value ≤ other := by
    obtain ⟨value, isLeast⟩ :=
      Option.isSome_iff_exists.mp (List.isSome_min?_of_ne_nil someValue)
    exact ⟨value, isLeast, List.min?_eq_some_iff.mp isLeast⟩
  have mapped (field : Rect → Nat) : rects.map field ≠ [] := by
    simpa using someRect
  obtain ⟨left, isLeft, _, leftmost⟩ := least (mapped (·.x))
  obtain ⟨top, isTop, _, topmost⟩ := least (mapped (·.y))
  obtain ⟨right, isRight, rightIn, rightmost⟩ :=
    most (mapped fun rect => rect.x + rect.width)
  obtain ⟨bottom, isBottom, bottomIn, bottommost⟩ :=
    most (mapped fun rect => rect.y + rect.height)
  have bounds (rect : Rect) (member : rect ∈ rects) :
      left ≤ rect.x ∧ top ≤ rect.y ∧ rect.x + rect.width ≤ right ∧
        rect.y + rect.height ≤ bottom :=
    ⟨leftmost _ (List.mem_map_of_mem member),
      topmost _ (List.mem_map_of_mem member),
      rightmost _ (List.mem_map.mpr ⟨rect, member, rfl⟩),
      bottommost _ (List.mem_map.mpr ⟨rect, member, rfl⟩)⟩
  refine ⟨⟨left, top, right - left, bottom - top⟩, ?_, ?_, ?_⟩
  · rw [boundingBox, isLeft, isTop, isRight, isBottom]
    rfl
  · obtain ⟨widest, isWidest, rfl⟩ := List.mem_map.mp rightIn
    obtain ⟨lowest, isLowest, rfl⟩ := List.mem_map.mp bottomIn
    have widestBounds := bounds widest isWidest
    have lowestBounds := bounds lowest isLowest
    obtain ⟨wide, _, fitsRight, _⟩ := inside widest isWidest
    obtain ⟨_, high, _, fitsBottom⟩ := inside lowest isLowest
    constructor <;> simp only <;> omega
  · rintro column row ⟨rect, member, ⟨_, _⟩, _, _⟩
    have := bounds rect member
    refine ⟨⟨?_, ?_⟩, ?_, ?_⟩ <;> simp only <;> omega

/-- The rectangles of a delta with at most a given number of regions. -/
structure TileScan.Delta (scan : TileScan) (maxRegions : Nat)
    (rects : List Rect) : Prop where
  someRect : 1 ≤ rects.length
  fewRects : rects.length ≤ max 1 maxRegions
  inside : ∀ rect ∈ rects, rect.Inside scan.width scan.height
  apart : rects.Pairwise Rect.Apart
  covers : ∀ column row, scan.Differs column row → Covered rects column row

theorem TileScan.rects_spec {scan : TileScan} (sized : scan.Sized)
    (wide : 0 < scan.width) (high : 0 < scan.height) (maxRegions : Nat) :
    ∃ rects, scan.rects maxRegions = some rects ∧
      scan.Delta maxRegions rects := by
  obtain ⟨scanned, returned, spec⟩ := @scanRows_spec scan sized 0 []
    ⟨fun _ missing => (nomatch missing), List.Pairwise.nil,
      fun _ _ covered => absurd covered covered_nil,
      fun _ _ _ impossible => nomatch impossible⟩
  rw [TileScan.rects, returned]
  by_cases tooMany : max maxRegions 1 < scanned.length
  · obtain ⟨box, boxed, boxInside, boxCovers⟩ := boundingBox_spec
      (List.ne_nil_of_length_pos (by omega)) spec.inside
    refine ⟨[box], ?_, Nat.le_refl 1, Nat.le_max_left 1 maxRegions, ?_,
      List.pairwise_singleton _ _, ?_⟩
    · rw [Option.bind_eq_bind, Option.bind_some, if_pos tooMany, boxed]
      rfl
    · exact fun rect member => List.mem_singleton.mp member ▸ boxInside
    · exact fun column row differs => covered_singleton.mpr
        (boxCovers column row (spec.covers column row differs trivial))
  · cases scanned with
    | nil =>
        refine ⟨[⟨0, 0, 1, 1⟩], ?_, Nat.le_refl 1,
          Nat.le_max_left 1 maxRegions, ?_, List.pairwise_singleton _ _, ?_⟩
        · rw [Option.bind_eq_bind, Option.bind_some, if_neg tooMany]
          rfl
        · intro rect member
          cases List.mem_singleton.mp member
          exact ⟨Nat.one_pos, Nat.one_pos, wide, high⟩
        · exact fun column row differs =>
            absurd (spec.covers column row differs trivial) covered_nil
    | cons first rest =>
        refine ⟨first :: rest, ?_, by simp, ?_, spec.inside, spec.apart,
          fun column row differs => spec.covers column row differs trivial⟩
        · rw [Option.bind_eq_bind, Option.bind_some, if_neg tooMany]
          rfl
        · rw [Nat.max_comm]
          exact Nat.le_of_not_lt tooMany

/-- The bytes of a rectangle, row by row. -/
theorem extractRegion_spec {pixels : Bytes} {width height : Nat} {rect : Rect}
    (sized : pixels.length = width * height) (inside : rect.Inside width height) :
    ∃ part, extractRegion pixels width rect = some part ∧
      part.length = rect.width * rect.height ∧
      ∀ column row, rect.Covers column row →
        part[(row - rect.y) * rect.width + (column - rect.x)]? =
          pixels[row * width + column]? := by
  suffices rows : ∀ count ≤ rect.height, ∃ part,
      (List.range count).foldlM (fun output row => do
        let start := (rect.y + row) * width + rect.x
        let read ← Buffer.slice pixels start rect.width
        return output ++ read) [] = some part ∧
      part.length = count * rect.width ∧
      ∀ row < count, ∀ offset < rect.width,
        part[row * rect.width + offset]? =
          pixels[(rect.y + row) * width + rect.x + offset]? by
    obtain ⟨part, read, length, holds⟩ := rows rect.height (Nat.le_refl _)
    refine ⟨part, read, by rw [length, Nat.mul_comm], ?_⟩
    rintro column row ⟨⟨left, right⟩, top, bottom⟩
    rw [holds (row - rect.y) (by omega) (column - rect.x) (by omega),
      Nat.add_sub_cancel' top, Nat.add_assoc, Nat.add_sub_cancel' left]
  intro count
  induction count with
  | zero => exact fun _ => ⟨[], rfl, by simp, fun _ impossible => nomatch impossible⟩
  | succ count induction =>
      intro within
      obtain ⟨part, read, length, holds⟩ := induction (by omega)
      have fits : (rect.y + count) * width + rect.x + rect.width ≤
          pixels.length := by
        have rows : (rect.y + count + 1) * width ≤ height * width :=
          Nat.mul_le_mul_right width (by have := inside.bottom; omega)
        rw [Nat.add_one_mul] at rows
        rw [sized, Nat.mul_comm width]
        have := inside.right
        omega
      obtain ⟨next, readNext⟩ : ∃ next, Buffer.slice pixels
          ((rect.y + count) * width + rect.x) rect.width = some next :=
        ⟨_, Buffer.slice_eq _ _ _ fits⟩
      have nextLength := Buffer.length_of_slice readNext
      refine ⟨part ++ next, ?_, ?_, ?_⟩
      · rw [List.range_succ, List.foldlM_append, read]
        simp [readNext]
      · rw [List.length_append, length, nextLength, Nat.add_one_mul]
      · intro row inRows offset inRow
        rcases Nat.lt_or_eq_of_le (Nat.le_of_lt_succ inRows) with earlier | rfl
        · have before := @Grid.rowMajor_lt _ count _ _ inRow earlier
          rw [Nat.mul_comm rect.width] at before
          rw [List.getElem?_append_left (by omega), holds row earlier offset inRow]
        · rw [List.getElem?_append_right (by omega), length,
            Nat.add_sub_cancel_left, Buffer.getElem?_of_slice readNext,
            if_pos inRow]

end RmDisplay.Producer
