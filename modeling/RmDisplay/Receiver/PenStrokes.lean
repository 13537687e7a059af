import Mathlib.Data.List.Induction
import RmDisplay.Foundation.Run
import RmDisplay.Receiver.PenDevice

/-!
# The strokes of the pen

What the pen reports over any course of events is a sequence of strokes,
unless the tip is lifted in the very report that also switches the tool.
-/

namespace RmDisplay.Receiver

open Foundation Protocol

def pointerPhase (record : PointerRecord) : Option PointerPhase :=
  tryFrom PointerPhase record.phase

/-- The record ends the stroke it belongs to. -/
def EndsStroke (record : PointerRecord) : Prop :=
  pointerPhase record = some .up ∨ pointerPhase record = some .cancel

/-- Records in order, stroke after stroke. -/
structure Strokes (records : List PointerRecord) : Prop where
  /-- A Move or an Up belongs to a stroke that is open. -/
  preceded : ∀ before record after, records = before ++ record :: after →
    pointerPhase record = some .move ∨ pointerPhase record = some .up →
    ∃ earlier down between, before = earlier ++ down :: between ∧
      pointerPhase down = some .down ∧
      ∀ other ∈ between, ¬ EndsStroke other
  /-- The stroke before has ended when another one starts. -/
  single : ∀ earlier down between record after,
    records = earlier ++ down :: (between ++ record :: after) →
    pointerPhase down = some .down → pointerPhase record = some .down →
    ∃ other ∈ between, EndsStroke other
  /-- The stroke has ended when the tool is another. -/
  switched : ∀ earlier down between record after,
    records = earlier ++ down :: (between ++ record :: after) →
    pointerPhase down = some .down → record.flags ≠ down.flags →
    ∃ other ∈ between, EndsStroke other

theorem followRecords_open {flags : Nat} {records : List PointerRecord}
    {stroke : Option Nat}
    (follows : followRecords (some flags) records = some stroke)
    (stays : ∀ record ∈ records, ¬ EndsStroke record) :
    stroke = some flags := by
  induction records with
  | nil =>
      cases follows
      rfl
  | cons record records induction =>
      obtain ⟨open_, rest⟩ := List.forall_mem_cons.mp stays
      unfold followRecords at follows
      rw [List.foldlM_cons] at follows
      obtain ⟨next, first, later⟩ := Option.bind_eq_some_iff.mp follows
      unfold followRecord at first
      unfold EndsStroke pointerPhase at open_
      split at first
      · simp at first
      · split at first
        · cases first
          exact induction later rest
        · cases first
      · rename_i isUp
        exact absurd (.inl isUp) open_
      · rename_i isCancel
        exact absurd (.inr isCancel) open_
      · simp at first
      · cases first
      · cases first

theorem down_of_follows {flags : Nat} (records : List PointerRecord)
    (follows : followRecords none records = some (some flags)) :
    ∃ earlier down between, records = earlier ++ down :: between ∧
      pointerPhase down = some .down ∧
      ∀ other ∈ between, ¬ EndsStroke other := by
  induction records using List.reverseRecOn with
  | nil => cases follows
  | append_singleton records record induction =>
      rw [followRecords_append] at follows
      obtain ⟨stroke, before, last⟩ := Option.bind_eq_some_iff.mp follows
      rw [followRecords_single] at last
      unfold followRecord at last
      split at last
      · rename_i isDown
        exact ⟨records, record, [], rfl, isDown, nofun⟩
      · rename_i isMove
        split at last
        · cases last
          obtain ⟨earlier, down, between, rfl, isDown, stays⟩ := induction before
          refine ⟨earlier, down, between ++ [record], by simp, isDown, ?_⟩
          intro other member
          rcases List.mem_append.mp member with older | newest
          · exact stays other older
          · rw [List.mem_singleton.mp newest]
            unfold EndsStroke pointerPhase
            rw [isMove]
            simp
        · cases last
      · split at last <;> cases last
      · split at last <;> cases last
      · split at last <;> cases last
      · cases last
      · cases last

theorem stroke_of_down {earlier between : List PointerRecord}
    {down : PointerRecord} {stroke : Option Nat}
    (follows : followRecords none (earlier ++ down :: between) = some stroke)
    (isDown : pointerPhase down = some .down)
    (stays : ∀ other ∈ between, ¬ EndsStroke other) :
    stroke = some down.flags := by
  rw [followRecords_append] at follows
  obtain ⟨first, _, follows⟩ := Option.bind_eq_some_iff.mp follows
  unfold followRecords at follows
  rw [List.foldlM_cons] at follows
  obtain ⟨next, begins, follows⟩ := Option.bind_eq_some_iff.mp follows
  unfold followRecord at begins
  unfold pointerPhase at isDown
  rw [isDown] at begins
  dsimp only at begins
  split at begins
  · cases begins
    exact followRecords_open follows stays
  · cases begins

theorem strokes_of_follows {records : List PointerRecord}
    {last : Option Nat} (follows : followRecords none records = some last) :
    Strokes records := by
  have reached {before after : List PointerRecord} {record : PointerRecord}
      (split : records = before ++ record :: after) :
      ∃ stroke next, followRecords none before = some stroke ∧
        followRecord stroke record = some next := by
    rw [split, followRecords_append] at follows
    obtain ⟨stroke, first, rest⟩ := Option.bind_eq_some_iff.mp follows
    unfold followRecords at rest
    rw [List.foldlM_cons] at rest
    obtain ⟨next, read, _⟩ := Option.bind_eq_some_iff.mp rest
    exact ⟨stroke, next, first, read⟩
  refine ⟨?_, ?_, ?_⟩
  · intro before record after split phase
    obtain ⟨stroke, next, first, read⟩ := reached split
    have isOpen : stroke = some record.flags := by
      unfold followRecord at read
      unfold pointerPhase at phase
      rcases phase with phase | phase
      · rw [phase] at read
        by_contra other
        simp [other] at read
      · rw [phase] at read
        by_contra other
        simp [other] at read
    rw [isOpen] at first
    exact down_of_follows before first
  · intro earlier down between record after split isDown again
    by_contra none
    obtain ⟨stroke, next, first, read⟩ :=
      @reached (earlier ++ down :: between) after record (by simp [split])
    have isOpen := stroke_of_down first isDown
      fun other member ends => none ⟨other, member, ends⟩
    unfold followRecord at read
    unfold pointerPhase at again
    rw [again, isOpen] at read
    simp at read
  · intro earlier down between record after split isDown switched
    by_contra none
    obtain ⟨stroke, next, first, read⟩ :=
      @reached (earlier ++ down :: between) after record (by simp [split])
    have isOpen := stroke_of_down first isDown
      fun other member ends => none ⟨other, member, ends⟩
    have differs : ¬ down.flags = record.flags := fun same =>
      switched same.symm
    unfold followRecord at read
    rw [isOpen] at read
    simp only [reduceCtorEq, if_false, Option.some.injEq, differs, or_self]
      at read
    split at read <;> cases read

/-- The state of the pen at a report. -/
structure PenState where
  pen : Bool
  eraser : Bool
  buttons : Nat
  raw : Fin 5 → Int

/-- What the device is given: a state to report, the order to cancel, or an
event of the kernel. -/
inductive PenInput where
  | report (state : PenState)
  | cancel
  | event (kernel : PenKernel) (event : LinuxInputEvent)

namespace EvdevPenDevice

def set (self : EvdevPenDevice) (state : PenState) : EvdevPenDevice :=
  { self with
    pen := state.pen
    eraser := state.eraser
    buttons := state.buttons
    raw := state.raw }

/-- Where the kernel does not answer nothing comes of the event. -/
def take (self : EvdevPenDevice) :
    PenInput → Option (List PointerRecord × EvdevPenDevice)
  | .report state => some (self.set state).report
  | .cancel => some self.cancel
  | .event kernel event => self.push kernel event

/-- The device as it is when the input makes it report. -/
def reporting (self : EvdevPenDevice) : PenInput → Option EvdevPenDevice
  | .report state => some (self.set state)
  | .cancel => none
  | .event _ event =>
      match event.penEvent with
      | .report => if !self.dropped && self.dirty then some self else none
      | _ => none

section

variable {device after reported : EvdevPenDevice} {input : PenInput}
  {output : List PointerRecord}

theorem stroke_reporting (reports : device.reporting input = some reported) :
    reported.stroke = device.stroke := by
  cases input with
  | report state =>
      cases reports
      rfl
  | cancel => cases reports
  | event kernel event =>
      dsimp only [reporting] at reports
      split at reports
      · split at reports <;> cases reports
        rfl
      · cases reports

theorem take_reporting (takes : device.take input = some (output, after))
    (reports : device.reporting input = some reported) :
    (output, after) = reported.report := by
  cases input with
  | report state =>
      cases reports
      exact (Option.some.inj takes).symm
  | cancel => cases reports
  | event kernel event =>
      dsimp only [reporting] at reports
      dsimp only [take] at takes
      unfold push at takes
      split at reports
      · rename_i isReport
        split at reports
        · rename_i ready
          rw [Bool.and_eq_true, Bool.not_eq_true'] at ready
          cases reports
          simp only [isReport, ready.1, ready.2, if_true,
            Option.some.injEq] at takes
          exact takes.symm
        · cases reports
      · cases reports

theorem take_follows (takes : device.take input = some (output, after))
    (silent : device.reporting input = none) :
    followRecords device.stroke output = some after.stroke := by
  cases input with
  | report state => cases silent
  | cancel =>
      cases takes
      exact cancel_follows
  | event kernel event =>
      dsimp only [reporting] at silent
      dsimp only [take] at takes
      unfold push at takes
      split at takes
      · cases takes
        exact cancel_follows
      · obtain ⟨key, _, resynced⟩ := Option.map_eq_some_iff.mp takes
        cases resynced
        rfl
      · rename_i isReport ready
        simp only [isReport, ready, Bool.not_false, Bool.true_and] at silent
        split at takes
        · rename_i isDirty
          rw [if_pos isDirty] at silent
          cases silent
        · cases takes
          rfl
      all_goals
        cases takes
        rfl

end

end EvdevPenDevice

abbrev PenHistory :=
  List (Event EvdevPenDevice PenInput (List PointerRecord))

/-- A run of the device. -/
abbrev PenRun (start : EvdevPenDevice) :
    PenHistory → EvdevPenDevice → Prop :=
  Run (fun before input output after =>
    before.take input = some (output, after)) start

/-- All the records of a history in order. -/
def penRecords (history : PenHistory) : List PointerRecord :=
  history.reverse.flatMap (·.output)

/-- The report of the event lifts the tip and switches the tool. -/
def LiftsAndSwitches
    (event : Event EvdevPenDevice PenInput (List PointerRecord)) : Prop :=
  ∃ reported ∈ event.before.reporting event.input,
    reported.liftsAndSwitches = true

/-- The strokes of a history, and how its reports end them. -/
structure WellStroked (history : PenHistory) : Prop where
  strokes : Strokes (penRecords history)
  /-- A report of another tool cancels the open stroke first. -/
  switches : ∀ event ∈ history, ∀ reported flags,
    event.before.reporting event.input = some reported →
    event.before.stroke = some flags →
    (reported.pen || reported.eraser) = true → flags ≠ reported.flags →
    ∃ cancel record, event.output = [cancel, record] ∧
      pointerPhase cancel = some .cancel ∧ cancel.flags = flags ∧
      record.flags = reported.flags
  /-- A report out of reach cancels the open stroke. -/
  leaves : ∀ event ∈ history, ∀ reported flags,
    event.before.reporting event.input = some reported →
    event.before.stroke = some flags →
    (reported.pen || reported.eraser) = false →
    ∃ cancel, event.output = [cancel] ∧
      pointerPhase cancel = some .cancel ∧ cancel.flags = flags

theorem penRecords_cons {history : PenHistory}
    {event : Event EvdevPenDevice PenInput (List PointerRecord)} :
    penRecords (event :: history) = penRecords history ++ event.output := by
  simp [penRecords]

theorem penRecords_append {newer older : PenHistory} :
    penRecords (newer ++ older) = penRecords older ++ penRecords newer := by
  simp [penRecords]

theorem cancelled_phase (record : PointerRecord) :
    pointerPhase (cancelled record) = some .cancel :=
  tryFrom_phase .cancel

theorem EvdevPenDevice.last_of_stroke {device : EvdevPenDevice} {flags : Nat}
    (isOpen : device.stroke = some flags) :
    ∃ old, device.last = some old ∧ tipDown old.buttons = true ∧
      old.flags = flags := by
  unfold EvdevPenDevice.stroke at isOpen
  obtain ⟨old, last, begun⟩ := Option.bind_eq_some_iff.mp isOpen
  split at begun
  · rename_i down
    exact ⟨old, last, down, Option.some.inj begun⟩
  · cases begun

section

variable {start final : EvdevPenDevice} {history : PenHistory}

theorem PenRun.given {output : List PointerRecord} {after : EvdevPenDevice}
    (run : PenRun start history final) (input : PenInput)
    (takes : final.take input = some (output, after)) :
    PenRun start (⟨final, input, output, after⟩ :: history) after :=
  .snoc run takes

/-- The records of a run are followed to the stroke that is open now. -/
theorem PenRun.follows (unused : start.stroke = none)
    (run : PenRun start history final)
    (never : ∀ event ∈ history, ¬ LiftsAndSwitches event) :
    followRecords none (penRecords history) = some final.stroke := by
  apply @Run.keeps _ _ _ _ _ _ _ (fun event => ¬ LiftsAndSwitches event)
    (fun history device =>
      followRecords none (penRecords history) = some device.stroke)
    _ _ run never
  · exact congrArg some unused.symm
  · intro history event allowed takes follows
    rw [penRecords_cons, followRecords_append, follows, Option.bind_some]
    cases reports : event.before.reporting event.input with
    | none => exact EvdevPenDevice.take_follows takes reports
    | some reported =>
        have reads := reported.report_follows
        have rests : reported.liftsAndSwitches = false := by
          rw [← Bool.not_eq_true]
          exact fun lifts => allowed ⟨reported, reports, lifts⟩
        rw [rests, EvdevPenDevice.stroke_reporting reports] at reads
        rw [← EvdevPenDevice.take_reporting takes reports] at reads
        exact reads

/-- After a report that lifts the tip and switches the tool, an Up comes right
after a Cancel. -/
theorem not_strokes_of_lifts {older newer : PenHistory}
    {event : Event EvdevPenDevice PenInput (List PointerRecord)}
    (takes : event.before.take event.input = some (event.output, event.after))
    (lifts : LiftsAndSwitches event) :
    ¬ Strokes (penRecords (newer ++ event :: older)) := by
  intro strokes
  obtain ⟨reported, reports, lifted⟩ := lifts
  unfold EvdevPenDevice.liftsAndSwitches at lifted
  simp only [Bool.and_eq_true, Bool.not_eq_true', Option.any_eq_true,
    bne_iff_ne] at lifted
  obtain ⟨⟨near, untouched⟩, flags, isOpen, switched⟩ := lifted
  obtain ⟨old, last, down, rfl⟩ := EvdevPenDevice.last_of_stroke isOpen
  have output := EvdevPenDevice.take_reporting takes reports
  rw [EvdevPenDevice.report_switched near last switched] at output
  have isRecord : reported.firstRecord = reported.record := by
    rw [EvdevPenDevice.firstRecord, untouched]
    rfl
  have isPhase : reported.phase = .up := by
    rw [EvdevPenDevice.phase, untouched, EvdevPenDevice.wasTouching, last,
      Option.any_some, down]
  have isUp : pointerPhase reported.firstRecord = some .up := by
    rw [isRecord, ← isPhase]
    exact tryFrom_phase reported.phase
  have records : penRecords (newer ++ event :: older) =
      (penRecords older ++ [cancelled old]) ++
        reported.firstRecord :: penRecords newer := by
    rw [penRecords_append, penRecords_cons, (Prod.mk.inj output).1]
    simp
  obtain ⟨earlier, begun, between, split, isDown, stays⟩ :=
    strokes.preceded _ _ _ records (.inr isUp)
  rcases List.eq_nil_or_concat between with rfl | ⟨rest, newest, rfl⟩
  · have same := (List.append_inj' split rfl).2
    rw [← List.head_eq_of_cons_eq same, cancelled_phase] at isDown
    cases isDown
  · have shown : penRecords older ++ [cancelled old] =
        (earlier ++ begun :: rest) ++ [newest] := by
      simpa using split
    have same := (List.append_inj' shown rfl).2
    apply stays newest (by simp)
    rw [← List.head_eq_of_cons_eq same]
    exact .inr (cancelled_phase old)

/-- The pen reports well-formed strokes just when no report lifts the tip and
switches the tool. -/
theorem wellStroked_iff_of_run (axes : Fin 3 → AxisRange)
    (tilt : Fin 2 → Option AxisRange) (width height : PanelSide)
    (rm2Transform : Bool) (raw : Fin 5 → Int)
    (run : PenRun (.opened axes tilt width height rm2Transform raw)
      history final) :
    WellStroked history ↔ ∀ event ∈ history, ¬ LiftsAndSwitches event := by
  constructor
  · intro well event member lifts
    obtain ⟨newer, older, rfl⟩ := List.append_of_mem member
    exact not_strokes_of_lifts (run.step_of_mem member) lifts well.strokes
  · intro never
    refine ⟨strokes_of_follows (PenRun.follows rfl run never), ?_, ?_⟩
    · intro event member reported flags reports isOpen near switched
      rw [← EvdevPenDevice.stroke_reporting reports] at isOpen
      obtain ⟨old, last, down, rfl⟩ := EvdevPenDevice.last_of_stroke isOpen
      have output :=
        EvdevPenDevice.take_reporting (run.step_of_mem member) reports
      rw [EvdevPenDevice.report_switched near last switched] at output
      refine ⟨_, _, (Prod.mk.inj output).1, cancelled_phase old, rfl, ?_⟩
      unfold EvdevPenDevice.firstRecord
      split <;> rfl
    · intro event member reported flags reports isOpen away
      rw [← EvdevPenDevice.stroke_reporting reports] at isOpen
      obtain ⟨old, last, down, rfl⟩ := EvdevPenDevice.last_of_stroke isOpen
      have output :=
        EvdevPenDevice.take_reporting (run.step_of_mem member) reports
      rw [EvdevPenDevice.report_away away, last] at output
      exact ⟨_, (Prod.mk.inj output).1, cancelled_phase old, rfl⟩

/-- A pen that comes near, with its tip down or not. -/
def PenState.near (eraser down : Bool) : PenState where
  pen := !eraser
  eraser
  buttons := down.toNat
  raw _ := 0

/-- A pen that is out of reach. -/
def PenState.away : PenState where
  pen := false
  eraser := false
  buttons := 0
  raw _ := 0

def EvdevPenDevice.sample : EvdevPenDevice :=
  .opened (fun _ => ⟨0, 100, by decide⟩) (fun _ => none)
    ⟨10, by decide, by decide⟩ ⟨10, by decide, by decide⟩ false fun _ => 0

theorem wellStroked_away : ∃ history final,
    PenRun .sample history final ∧ WellStroked history ∧
      (penRecords history).map pointerPhase =
        [some .down, some .cancel, some .down, some .cancel] := by
  have run : PenRun .sample _ _ :=
    ((PenRun.given .nil (.report (.near false true)) rfl).given
      (.report (.near true true)) rfl).given (.report .away) rfl
  refine ⟨_, _, run, ?_, by decide⟩
  apply (wellStroked_iff_of_run _ _ _ _ _ _ run).mpr
  unfold LiftsAndSwitches
  decide

/-- The pen is turned over and lifted in one report. -/
theorem not_wellStroked_turned : ∃ history final,
    PenRun .sample history final ∧ ¬ WellStroked history ∧
      (penRecords history).map pointerPhase =
        [some .down, some .cancel, some .up] := by
  have run : PenRun .sample _ _ :=
    (PenRun.given .nil (.report (.near false true)) rfl).given
      (.report (.near true false)) rfl
  refine ⟨_, _, run, ?_, by decide⟩
  intro well
  exact @not_strokes_of_lifts _ [] _ rfl ⟨_, rfl, rfl⟩ well.strokes

end

end RmDisplay.Receiver
