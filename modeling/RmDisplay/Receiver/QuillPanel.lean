import RmDisplay.Core.Refresh
import RmDisplay.Core.Surface
import RmDisplay.Receiver.ClusterDamage
import RmDisplay.Receiver.WrittenPixels

/-!
# The Quill panel

The panel gives the program its framebuffer.  A submission converts the damaged
pixels of a frame, and asks for a swap of regions that cover them.
-/

namespace RmDisplay.Receiver

open RmDisplay.Core (PixelSurface RefreshDecision Waveform)
open Foundation Protocol

/-- The largest extent in a signed word of 32 bits. -/
def maxExtent : Nat := 2 ^ 31 - 1

/-- A panel as it was opened. -/
structure QuillPanel where
  width : Nat
  height : Nat
  stride : Nat
  format : NativePixelFormat
  colorCapable : Bool
  wide : 0 < width ∧ width ≤ maxExtent
  high : 0 < height ∧ height ≤ maxExtent
  strideWide : width * format.bytesPerPixel ≤ stride
  strideFits : stride ≤ maxExtent

namespace QuillPanel

/-- The capability to show gray, and that to show colour. -/
def capabilityMono : Nat := 1
def capabilityColor : Nat := 2

/-- What the panel says of itself: whether it was initialized, its size, its
format, its capabilities, and whether there is a framebuffer. -/
def opened (status : Int) (width height stride : Int32) (qtFormat : Int)
    (capabilities : Nat) (hasBuffer : Bool) : Res PanelError QuillPanel :=
  if status ≠ 0 then
    .error (.unsupported ("quill_init returned " ++ toString status))
  else if capabilities &&& capabilityMono = 0 then
    .error (.unsupported "Quill does not report monochrome capability")
  else if positive : width.toInt ≤ 0 ∨ height.toInt ≤ 0 ∨ stride.toInt ≤ 0 then
    .error (.unsupported "Quill returned invalid geometry")
  else do
    let format ← NativePixelFormat.fromQt qtFormat
    let minimumStride := width.toInt.toNat * format.bytesPerPixel
    if narrow : stride.toInt.toNat < minimumStride then
      .error (.unsupported ("Quill stride " ++ toString stride ++
        " is smaller than " ++ toString minimumStride))
    else if !hasBuffer then
      .error (.unsupported "Quill returned a null framebuffer")
    else
      .ok {
        width := width.toInt.toNat
        height := height.toInt.toNat
        stride := stride.toInt.toNat
        format
        colorCapable := capabilities &&& capabilityColor != 0
        wide := by
          have bound := width.toInt_lt
          unfold maxExtent
          omega
        high := by
          have bound := height.toInt_lt
          unfold maxExtent
          omega
        strideWide := Nat.le_of_not_lt narrow
        strideFits := by
          have bound := stride.toInt_lt
          unfold maxExtent
          omega }

def bufferLen (self : QuillPanel) : Nat := self.stride * self.height

end QuillPanel

structure QuillRect where
  x : Int32
  y : Int32
  width : Int32
  height : Int32
deriving DecidableEq

namespace QuillRect

def of (rect : Rect) : QuillRect where
  x := .ofNat rect.x
  y := .ofNat rect.y
  width := .ofNat rect.width
  height := .ofNat rect.height

def Covers (rect : QuillRect) (column row : Int) : Prop :=
  (rect.x.toInt ≤ column ∧ column < rect.x.toInt + rect.width.toInt) ∧
    rect.y.toInt ≤ row ∧ row < rect.y.toInt + rect.height.toInt

end QuillRect

def quillMode (colorCapable : Bool) (waveform : Waveform) : Nat :=
  if colorCapable then waveform.number
  else
    match waveform with
    | .fastest => 0
    | .fast => 1
    | .quality | .fullQuality => 3

structure QuillSwap where
  rects : List QuillRect
  mode : Nat
  full : Bool
  color : Bool

/-- The memory of the framebuffer, and the swaps that were asked for, the latest
first. -/
structure Framebuffer where
  bytes : Bytes
  swaps : List QuillSwap

/-- The regions of a swap: the clusters of the damage where that pays. -/
def submitDamage (damage : List Rect) (completeRefresh : Bool) :
    Res PanelError (List Rect) := do
  let united ← Res.mapError Empty.elim (unionDamage damage)
  let some union := united | .error (.submit "empty damage")
  let clustered ← Res.mapError Empty.elim (clusterDamage damage maxBatchRegions)
  let sparse := useSparseDamage clustered.length (rectPixels clustered)
    (rectPixels [union]) completeRefresh
  return if sparse then clustered else [union]

/-- Submit a frame; the panel answers the swap with a status. -/
def QuillPanel.submit (self : QuillPanel) (frame : PixelSurface)
    (damage : List Rect) (refresh : RefreshDecision) (status : Int) :
    Proc Framebuffer PanelError Unit :=
  if frame.width ≠ self.width ∨ frame.height ≠ self.height then
    Proc.throw (.unsupported "frame does not match Quill geometry")
  else if damage.isEmpty then
    Proc.throw (.unsupported "Quill submission has no damage")
  else do
    Proc.zoom (·.bytes) (fun bytes buffer => { buffer with bytes }) id
      (writeDamage self.stride self.width self.height self.format frame.format
        frame.pixels damage)
    let regions ← Proc.ofRes id (submitDamage damage refresh.completeRefresh)
    Proc.modify fun buffer =>
      { buffer with swaps :=
          { rects := regions.map .of
            mode := quillMode self.colorCapable refresh.waveform
            full := refresh.completeRefresh
            color := frame.format == .rgb565Le } :: buffer.swaps }
    if status ≠ 1 then
      Proc.throw (.submit
        ("quill_swap_many_ex returned status " ++ toString status))

theorem QuillRect.of_covers {rect : Rect} {column row : Nat}
    (right : rect.x + rect.width ≤ maxExtent)
    (bottom : rect.y + rect.height ≤ maxExtent)
    (covers : rect.Covers column row) :
    (QuillRect.of rect).Covers column row := by
  obtain ⟨⟨left, beforeRight⟩, top, beforeBottom⟩ := covers
  have fits {value : Nat} (small : value ≤ maxExtent) :
      (Int32.ofNat value).toInt = value := by
    apply Int32.toInt_ofNat_of_lt
    unfold maxExtent at small
    omega
  unfold QuillRect.Covers QuillRect.of
  rw [fits (by omega : rect.x ≤ maxExtent),
    fits (by omega : rect.y ≤ maxExtent),
    fits (by omega : rect.width ≤ maxExtent),
    fits (by omega : rect.height ≤ maxExtent)]
  omega

theorem QuillPanel.checked (panel : QuillPanel) {frame : PixelSurface}
    {bytes : Bytes} (sameWidth : frame.width = panel.width)
    (sameHeight : frame.height = panel.height)
    (room : bytes.length = panel.bufferLen) :
    checkBuffers bytes panel.stride panel.width panel.height panel.format
      frame.format frame.pixels = .ok () := by
  obtain ⟨_, _, _, bytesPerPixel, isFormat, length⟩ := frame.packed
  have wide := panel.wide.2
  have high := panel.high.2
  have pixels : panel.width * panel.height ≤ maxExtent * maxExtent :=
    Nat.mul_le_mul wide high
  have fits : maxExtent * maxExtent * 2 ≤ u64Max := by decide
  have counted : Bounded.checkedMul u64Max panel.width panel.height =
      some (panel.width * panel.height) :=
    Bounded.checkedMul_eq_some.mpr ⟨rfl, by omega⟩
  have isSource : sourceBytes frame.format = .ok bytesPerPixel ∧
      bytesPerPixel ≤ 2 := by
    cases format : frame.format <;> rw [format] at isFormat <;>
      cases isFormat <;> exact ⟨rfl, by decide⟩
  have saturated : frame.pixels.length = Bounded.saturatingMul u64Max
      (panel.width * panel.height) bytesPerPixel := by
    have product := Nat.mul_le_mul pixels isSource.2
    rw [length, sameWidth, sameHeight, Bounded.saturatingMul,
      Nat.min_eq_left (Nat.le_trans product fits)]
  have rows : panel.stride * panel.height ≤ maxExtent * maxExtent :=
    Nat.mul_le_mul panel.strideFits high
  have minimum : Bounded.checkedMul u64Max panel.width
      panel.format.bytesPerPixel =
        some (panel.width * panel.format.bytesPerPixel) := by
    have small : maxExtent ≤ u64Max := by decide
    exact Bounded.checkedMul_eq_some.mpr ⟨rfl, Nat.le_trans panel.strideWide
      (Nat.le_trans panel.strideFits small)⟩
  have needed : Bounded.checkedMul u64Max panel.stride panel.height =
      some (panel.stride * panel.height) :=
    Bounded.checkedMul_eq_some.mpr ⟨rfl, by omega⟩
  have enough : ¬ bytes.length < panel.stride * panel.height := by
    rw [room, QuillPanel.bufferLen]
    exact Nat.lt_irrefl _
  have notNarrow : ¬ panel.stride <
      panel.width * panel.format.bytesPerPixel :=
    Nat.not_lt.mpr panel.strideWide
  unfold checkBuffers
  simp only [counted, isSource.1, Res.ok_bind, saturated, ne_eq,
    not_true_eq_false, if_false, minimum, if_neg notNarrow, needed,
    if_neg enough]

theorem QuillPanel.source_length (panel : QuillPanel) {frame : PixelSurface}
    (sameWidth : frame.width = panel.width)
    (sameHeight : frame.height = panel.height) :
    frame.pixels.length ≤ isizeMax := by
  obtain ⟨_, _, _, bytesPerPixel, isFormat, length⟩ := frame.packed
  have few : bytesPerPixel ≤ 2 := by
    cases format : frame.format <;> rw [format] at isFormat <;>
      cases isFormat <;> decide
  have product := Nat.mul_le_mul
    (Nat.mul_le_mul panel.wide.2 panel.high.2) few
  have fits : maxExtent * maxExtent * 2 ≤ isizeMax := by decide
  rw [length, sameWidth, sameHeight]
  exact Nat.le_trans product fits

theorem submitDamage_spec {damage clusters : List Rect} {union : Rect}
    (united : unionDamage damage = .ok (some union))
    (clustered : clusterDamage damage maxBatchRegions = .ok clusters)
    (completeRefresh : Bool) :
    ∃ regions, submitDamage damage completeRefresh = .ok regions ∧
      (regions = clusters ∨ regions = [union]) ∧
      (completeRefresh = true → regions = [union]) := by
  unfold submitDamage
  simp only [united, clustered, Res.mapError_ok, Res.ok_bind, Res.pure_eq]
  refine ⟨_, rfl, ?_, ?_⟩
  · split
    · exact .inl rfl
    · exact .inr rfl
  · intro complete
    rw [if_neg]
    simp [useSparseDamage, complete]

theorem QuillPanel.submit_spec (panel : QuillPanel) {frame : PixelSurface}
    {damage clusters : List Rect} {union : Rect} {before : Framebuffer}
    (refresh : RefreshDecision) (status : Int)
    (sameWidth : frame.width = panel.width)
    (sameHeight : frame.height = panel.height)
    (room : before.bytes.length = panel.bufferLen) (nonempty : damage ≠ [])
    (inside : ∀ rect ∈ damage, rect.Inside panel.width panel.height)
    (united : unionDamage damage = .ok (some union))
    (clustered : clusterDamage damage maxBatchRegions = .ok clusters) :
    ∃ bytes regions,
      writeDamage panel.stride panel.width panel.height panel.format
        frame.format frame.pixels damage before.bytes = .ok () bytes ∧
      (regions = clusters ∨ regions = [union]) ∧
      (refresh.completeRefresh = true → regions = [union]) ∧
      panel.submit frame damage refresh status before =
        (if status = 1 then Outcome.ok ()
          else Outcome.error (.submit
            ("quill_swap_many_ex returned status " ++ toString status)))
        { bytes
          swaps := ⟨regions.map .of,
            quillMode panel.colorCapable refresh.waveform,
            refresh.completeRefresh, frame.format == .rgb565Le⟩ ::
              before.swaps } := by
  have small : maxExtent ≤ u32Max := by decide
  have checked := panel.checked sameWidth sameHeight room
  obtain ⟨_, layout⟩ := layout_of_checked
    (panel.source_length sameWidth sameHeight) checked
  obtain ⟨bytes, written, _⟩ := writeDamage_paints
    (Nat.le_trans panel.wide.2 small) (Nat.le_trans panel.high.2 small) layout
    checked inside
  obtain ⟨regions, submitted, choice, complete⟩ :=
    submitDamage_spec united clustered refresh.completeRefresh
  refine ⟨bytes, regions, written, choice, complete, ?_⟩
  have someDamage : ¬ damage.isEmpty = true := by
    rw [List.isEmpty_iff]
    exact nonempty
  have geometry : ¬ (frame.width ≠ panel.width ∨
      frame.height ≠ panel.height) := by
    simp [sameWidth, sameHeight]
  unfold QuillPanel.submit
  rw [if_neg geometry, if_neg someDamage]
  simp only [Proc.bind_apply, Proc.zoom, written, submitted, Proc.ofRes_ok,
    Proc.modify_apply]
  by_cases accepted : status = 1
  · simp [accepted]
  · simp [accepted]

theorem QuillRect.cover_map {panel : QuillPanel} {regions : List Rect}
    {union : Rect} {column row : Nat}
    (inside : union.Inside panel.width panel.height)
    (within : ∀ rect ∈ regions, Within rect union)
    (covered : Covered regions column row) :
    ∃ rect ∈ regions.map QuillRect.of, rect.Covers column row := by
  obtain ⟨rect, member, covers⟩ := covered
  obtain ⟨_, _, right, bottom⟩ := within rect member
  refine ⟨_, List.mem_map_of_mem member, QuillRect.of_covers ?_ ?_ covers⟩
  · exact Nat.le_trans right (Nat.le_trans inside.right panel.wide.2)
  · exact Nat.le_trans bottom (Nat.le_trans inside.bottom panel.high.2)

/-- What a submission asks of the panel. -/
structure SwapCovers (damage : List Rect) (union : Rect)
    (completeRefresh : Bool) (swap : QuillSwap) : Prop where
  covers : ∀ column row : Nat, Covered damage column row →
    ∃ rect ∈ swap.rects, rect.Covers column row
  regions : swap.rects = [.of union] ∨ ∃ clusters,
    clusterDamage damage maxBatchRegions = .ok clusters ∧
    swap.rects = clusters.map .of
  complete : completeRefresh = true → swap.rects = [.of union]

/-- Clusters keep every damaged pixel, and so does what is handed to the
panel. -/
theorem clusterDamage_sound {width height limit : Nat} {damage : List Rect}
    (wide : width ≤ u32Max) (high : height ≤ u32Max) (nonempty : damage ≠ [])
    (inside : ∀ rect ∈ damage, rect.Inside width height)
    (someLimit : 1 ≤ limit) :
    ∃ union clusters, unionDamage damage = .ok (some union) ∧
      (∀ rect ∈ damage, Within rect union) ∧
      (∀ outer, (∀ rect ∈ damage, Within rect outer) → Within union outer) ∧
      clusterDamage damage limit = .ok clusters ∧
      Clustered damage limit union clusters ∧
      area (greedyClusters damage) ≤ area damage ∧
      ((greedyClusters damage).length ≤ limit →
        clusters = greedyClusters damage) ∧
      ∀ (panel : QuillPanel) (frame : PixelSurface) (refresh : RefreshDecision)
        (status : Int) (before : Framebuffer),
        panel.width = width → panel.height = height →
        frame.width = width → frame.height = height →
        before.bytes.length = panel.bufferLen →
        ∃ after swap, (panel.submit frame damage refresh status before =
            .ok () after ∨
          ∃ err, panel.submit frame damage refresh status before =
            .error err after) ∧
          after.swaps = swap :: before.swaps ∧
          SwapCovers damage union refresh.completeRefresh swap := by
  obtain ⟨union, united, unionInside, upper, least⟩ :=
    unionDamage_spec wide high nonempty inside
  obtain ⟨clusters, computed, clustered, saves, greedy⟩ :=
    clusterDamage_spec wide high nonempty inside upper someLimit
  refine ⟨union, clusters, united, upper, least, computed, clustered, saves,
    greedy, ?_⟩
  rintro panel frame refresh status before rfl rfl sameWidth sameHeight room
  obtain ⟨batch, batched, batchClustered, _⟩ :=
    clusterDamage_spec wide high nonempty inside upper
      (by decide : 1 ≤ maxBatchRegions)
  obtain ⟨bytes, regions, _, choice, complete, submitted⟩ :=
    panel.submit_spec refresh status sameWidth sameHeight room nonempty inside
      united batched
  have unionCovers (column row : Nat) (covered : Covered damage column row) :
      Covered [union] column row := by
    obtain ⟨rect, member, covers⟩ := covered
    exact covered_singleton.mpr ((upper rect member).covers covers)
  let swap : QuillSwap := ⟨regions.map .of,
    quillMode panel.colorCapable refresh.waveform, refresh.completeRefresh,
    frame.format == .rgb565Le⟩
  refine ⟨⟨bytes, swap :: before.swaps⟩, swap, ?_, rfl, ?_, ?_, ?_⟩
  · rw [submitted]
    split
    · exact .inl rfl
    · exact .inr ⟨_, rfl⟩
  · intro column row covered
    rcases choice with rfl | rfl
    · exact QuillRect.cover_map unionInside batchClustered.within
        (batchClustered.covers column row covered)
    · exact QuillRect.cover_map unionInside
        (List.forall_mem_singleton.mpr (Std.Refl.refl union))
        (unionCovers column row covered)
  · rcases choice with rfl | rfl
    · exact .inr ⟨_, batched, rfl⟩
    · exact .inl rfl
  · intro isComplete
    exact congrArg (List.map QuillRect.of) (complete isComplete)

/-- Two tiles side by side are one cluster, and a tile far from them another. -/
theorem clusterDamage_apart : ∃ union clusters,
    unionDamage [⟨40, 90, 8, 8⟩, ⟨8, 0, 8, 8⟩, ⟨0, 0, 8, 8⟩] =
      .ok (some union) ∧
    clusterDamage [⟨40, 90, 8, 8⟩, ⟨8, 0, 8, 8⟩, ⟨0, 0, 8, 8⟩] 2 =
      .ok clusters ∧
    clusters = [⟨0, 0, 16, 8⟩, ⟨40, 90, 8, 8⟩] ∧
    area clusters ≤ 3 * 64 := by
  obtain ⟨union, clusters, united, _, _, computed, _, saves, greedy, _⟩ :=
    @clusterDamage_sound 100 100 2
      [⟨40, 90, 8, 8⟩, ⟨8, 0, 8, 8⟩, ⟨0, 0, 8, 8⟩] (by decide) (by decide)
      (by simp) (by
        intro rect member
        simp only [List.mem_cons, List.not_mem_nil, or_false] at member
        rcases member with rfl | rfl | rfl <;>
          exact ⟨by decide, by decide, by decide, by decide⟩)
      (by decide)
  have twoClusters : greedyClusters
      [⟨40, 90, 8, 8⟩, ⟨8, 0, 8, 8⟩, ⟨0, 0, 8, 8⟩] =
        [⟨0, 0, 16, 8⟩, ⟨40, 90, 8, 8⟩] := by decide +kernel
  rw [twoClusters] at saves greedy
  refine ⟨union, clusters, united, computed, greedy (by decide), ?_⟩
  rw [greedy (by decide)]
  exact saves

end RmDisplay.Receiver
