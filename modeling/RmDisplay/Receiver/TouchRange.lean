import RmDisplay.Receiver.TouchParser

/-!
# Touch coordinates on the panel

A raw coordinate is clamped to the range of its axis and scaled to the panel.
The range is a signed 32-bit difference, so the scaling is defined just where
that difference is a positive word; then it takes the range from edge to edge.
-/

namespace RmDisplay.Receiver

open Foundation

/-- What scaling an axis should be: the ends of the range go to the edges of
the panel, values outside go to an edge, and the order is kept or turned
around. -/
structure EdgeToEdge (place : Int → Nat) (rawMin rawMax : Int) (extent : Nat)
    (invert : Bool) : Prop where
  range : rawMin < rawMax
  onPanel : ∀ raw, place raw < extent
  atMin : place rawMin = if invert then extent - 1 else 0
  atMax : place rawMax = if invert then 0 else extent - 1
  below : ∀ raw, raw ≤ rawMin → place raw = place rawMin
  above : ∀ raw, rawMax ≤ raw → place raw = place rawMax
  ordered : ∀ low high, low ≤ high →
    if invert then place high ≤ place low else place low ≤ place high

namespace TypeBParser

/-- A clamped value scaled to the panel, in unbounded arithmetic. -/
def scaled (rawMin rawMax : Int) (extent : Nat) (raw : Int) : Nat :=
  ((max rawMin (min raw rawMax) - rawMin) * (extent - 1 : Nat) /
    (rawMax - rawMin)).toNat

/-- The coordinate on the panel. -/
def placed (rawMin rawMax : Int) (extent : Nat) (invert : Bool) (raw : Int) :
    Nat :=
  if invert then extent - 1 - scaled rawMin rawMax extent raw
  else scaled rawMin rawMax extent raw

section

variable {rawMin rawMax raw : Int} {extent : Nat} {invert : Bool}

theorem signed_offset (positive : rawMin < rawMax)
    (word : rawMax - rawMin ≤ i32Max) (panel : extent ≤ u32Max) (raw : Int) :
    Bounded.signed ((max rawMin (min raw rawMax) - rawMin) *
        (extent - 1 : Nat)) =
      some ((max rawMin (min raw rawMax) - rawMin) * (extent - 1 : Nat)) := by
  have lower : 0 ≤ max rawMin (min raw rawMax) - rawMin := by omega
  have upper : max rawMin (min raw rawMax) - rawMin ≤ 2 ^ 31 - 1 := by
    unfold i32Max at word
    omega
  have columns : ((extent - 1 : Nat) : Int) ≤ 2 ^ 32 - 1 := by
    unfold u32Max at panel
    omega
  have product : (max rawMin (min raw rawMax) - rawMin) * (extent - 1 : Nat) ≤
      (2 ^ 31 - 1) * (2 ^ 32 - 1) :=
    Int.mul_le_mul upper columns (Int.natCast_nonneg _) (by decide)
  have nonneg := Int.mul_nonneg lower (Int.natCast_nonneg (extent - 1))
  apply Bounded.signed_eq
  · omega
  · omega

theorem mapAxis_placed (positive : rawMin < rawMax)
    (word : rawMax - rawMin ≤ i32Max) (panel : extent ≤ u32Max) (raw : Int) :
    mapAxis raw rawMin rawMax extent invert =
      .ok (placed rawMin rawMax extent invert raw) := by
  have defined : ¬ (i32Max < rawMax - rawMin ∨ rawMax - rawMin = 0) := by omega
  simp only [mapAxis, if_neg defined, signed_offset positive word panel, placed,
    scaled]

theorem range_of_mapAxis {x : Nat} (normal : rawMin ≤ rawMax)
    (mapped : mapAxis raw rawMin rawMax extent invert = .ok x) :
    rawMin < rawMax ∧ rawMax - rawMin ≤ i32Max := by
  unfold mapAxis at mapped
  dsimp only at mapped
  split at mapped
  · cases mapped
  · omega

private theorem scaled_le {offset range : Int} {span : Nat}
    (upper : offset ≤ range) (positive : 0 < range) :
    (offset * span / range).toNat ≤ span := by
  have product : offset * span ≤ range * span :=
    Int.mul_le_mul_of_nonneg_right upper (Int.natCast_nonneg span)
  have bounded : offset * span / range ≤ span := by
    calc offset * span / range ≤ range * span / range :=
          Int.ediv_le_ediv positive product
      _ = span := Int.mul_ediv_cancel_left _ (by omega)
  omega

private theorem scaled_mono {low high range : Int} {span : Nat}
    (ordered : low ≤ high) (positive : 0 < range) :
    (low * span / range).toNat ≤ (high * span / range).toNat := by
  have product : low * span ≤ high * span :=
    Int.mul_le_mul_of_nonneg_right ordered (Int.natCast_nonneg span)
  have divided := Int.ediv_le_ediv positive product
  omega

/-- Scaling a range of values takes it from edge to edge. -/
theorem placed_edgeToEdge (positive : rawMin < rawMax) (panel : 0 < extent) :
    EdgeToEdge (placed rawMin rawMax extent invert) rawMin rawMax extent
      invert := by
  have range : 0 < rawMax - rawMin := by omega
  have inside (raw : Int) : scaled rawMin rawMax extent raw ≤ extent - 1 :=
    scaled_le (by omega) range
  have atMin : max rawMin (min rawMin rawMax) = rawMin := by omega
  have atMax : max rawMin (min rawMax rawMax) = rawMax := by omega
  have full : (rawMax - rawMin) * (extent - 1 : Nat) / (rawMax - rawMin) =
      ((extent - 1 : Nat) : Int) := Int.mul_ediv_cancel_left _ (by omega)
  constructor
  case range => exact positive
  case onPanel =>
    intro raw
    have := inside raw
    unfold placed
    split <;> omega
  case atMin =>
    rw [placed, scaled, atMin, Int.sub_self, Int.zero_mul, Int.zero_ediv]
    rfl
  case atMax =>
    rw [placed, scaled, atMax, full, Int.toNat_natCast, Nat.sub_self]
  case below =>
    intro raw before
    have clamped : max rawMin (min raw rawMax) = rawMin := by omega
    rw [placed, placed, scaled, scaled, clamped, atMin]
  case above =>
    intro raw after
    have clamped : max rawMin (min raw rawMax) = rawMax := by omega
    rw [placed, placed, scaled, scaled, clamped, atMax]
  case ordered =>
    intro low high ordered
    have kept : max rawMin (min low rawMax) - rawMin ≤
        max rawMin (min high rawMax) - rawMin := by omega
    have together : scaled rawMin rawMax extent low ≤
        scaled rawMin rawMax extent high := scaled_mono kept range
    cases invert with
    | false => exact together
    | true => exact Nat.sub_le_sub_left together (extent - 1)

end

/-- Events are mapped without a panic, and each axis from edge to edge. -/
def MapsFaithfully (self : TypeBParser) : Prop :=
  ∃ placeX placeY : Int → Nat,
    EdgeToEdge placeX self.rawMinX self.rawMaxX self.panelWidth
        self.transform.invertX ∧
      EdgeToEdge placeY self.rawMinY self.rawMaxY self.panelHeight
        self.transform.invertY ∧
      ∀ phase contactId rawX rawY,
        self.mapEvent phase contactId rawX rawY =
          .ok ⟨phase, contactId, placeX rawX, placeY rawY⟩

/-- The numbers of a setup fit their words. -/
structure Setup.Words (setup : Setup) : Prop where
  minX : -2 ^ 31 ≤ setup.rawMinX ∧ setup.rawMinX ≤ i32Max
  maxX : -2 ^ 31 ≤ setup.rawMaxX ∧ setup.rawMaxX ≤ i32Max
  minY : -2 ^ 31 ≤ setup.rawMinY ∧ setup.rawMinY ≤ i32Max
  maxY : -2 ^ 31 ≤ setup.rawMaxY ∧ setup.rawMaxY ≤ i32Max
  width : setup.panelWidth ≤ u32Max
  height : setup.panelHeight ≤ u32Max

private theorem normal_range {rawMin rawMax : Int} (word : rawMax ≤ i32Max) :
    (rawMin < max rawMax (min (rawMin + 1) i32Max) ∧
        max rawMax (min (rawMin + 1) i32Max) - rawMin ≤ i32Max) ↔
      rawMin < i32Max ∧ rawMax - rawMin ≤ i32Max := by
  unfold i32Max at *
  omega

/-- A parser maps faithfully exactly when, on both axes, the least raw value
is not the largest word and the difference of the range is a word. -/
theorem mapsFaithfully_iff {setup : Setup} (words : setup.Words) :
    (withRangesAndTransform setup).MapsFaithfully ↔
      (setup.rawMinX < i32Max ∧ setup.rawMaxX - setup.rawMinX ≤ i32Max) ∧
        (setup.rawMinY < i32Max ∧ setup.rawMaxY - setup.rawMinY ≤ i32Max) := by
  rw [← normal_range words.maxX.2, ← normal_range words.maxY.2]
  constructor
  · rintro ⟨placeX, placeY, alongX, alongY, maps⟩
    obtain ⟨x, mappedX, rest⟩ := Res.bind_eq_ok.mp (maps .down 0 0 0)
    obtain ⟨y, mappedY, _⟩ := Res.bind_eq_ok.mp rest
    exact ⟨range_of_mapAxis (Int.le_of_lt alongX.range) mappedX,
      range_of_mapAxis (Int.le_of_lt alongY.range) mappedY⟩
  · rintro ⟨⟨positiveX, wordX⟩, positiveY, wordY⟩
    have width : max setup.panelWidth 1 ≤ u32Max :=
      Nat.max_le.mpr ⟨words.width, by decide⟩
    have height : max setup.panelHeight 1 ≤ u32Max :=
      Nat.max_le.mpr ⟨words.height, by decide⟩
    have wide : 0 < max setup.panelWidth 1 := by omega
    have high : 0 < max setup.panelHeight 1 := by omega
    refine ⟨_, _, placed_edgeToEdge positiveX wide,
      placed_edgeToEdge positiveY high, ?_⟩
    intro phase contactId rawX rawY
    have alongX := @mapAxis_placed _ _ _ setup.transform.invertX positiveX wordX
      width rawX
    have alongY := @mapAxis_placed _ _ _ setup.transform.invertY positiveY wordY
      height rawY
    simp only [mapEvent, withRangesAndTransform, alongX, alongY, Res.ok_bind,
      Res.pure_eq]

/-- A range of one more value than the positive words. -/
def wideSetup : Setup where
  rawMinX := -1
  rawMaxX := i32Max
  rawMinY := 0
  rawMaxY := 100
  panelWidth := 10
  panelHeight := 10

theorem not_mapsFaithfully_wide :
    ¬ (withRangesAndTransform wideSetup).MapsFaithfully := by
  rintro ⟨_, _, _, _, maps⟩
  have panics : (withRangesAndTransform wideSetup).mapEvent .down 0 0 0 =
      .panic := by decide
  have mapped := maps .down 0 0 0
  rw [panics] at mapped
  cases mapped

theorem mapsFaithfully_inverted :
    (withRangesAndTransform
      ⟨-5, i32Max - 5, 0, 100, 10, 10, ⟨true, false⟩⟩).MapsFaithfully :=
  (@mapsFaithfully_iff ⟨-5, i32Max - 5, 0, 100, 10, 10, ⟨true, false⟩⟩
    (by constructor <;> decide)).mpr (by decide)

end TypeBParser

end RmDisplay.Receiver
