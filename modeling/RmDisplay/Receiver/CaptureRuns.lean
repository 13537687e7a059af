import RmDisplay.Receiver.InputCapture

/-!
# Runs of the input capture

However the reader and the session take turns, the session gets the reports of
both devices merged in the order of time, each report of the session once.
When the queue overflows it still gets what was accepted, and then one fault.
-/

namespace RmDisplay.Receiver

open RmDisplay.Core (Duration)
open Foundation Protocol

variable {β : Type}

/-- The report with its time, where it is one of the device. -/
def CapturedReport.pick (part : Report → Option β) (self : CapturedReport) :
    Option (Duration × β) :=
  (part self.report).map (self.time, ·)

def picked (part : Report → Option β) (reports : List CapturedReport) :
    List (Duration × β) :=
  reports.filterMap (·.pick part)

/-- The reports since `origin` on the clock of the session. -/
def due (origin : Duration) (stream : List (Duration × β)) :
    List (Duration × β) :=
  (stream.filter (origin ≤ ·.1)).map fun (time, item) => (time - origin, item)

/-- What the reader makes of a report. -/
def CapturedReport.since (origin : Duration) (self : CapturedReport) :
    Option CapturedReport :=
  if self.time < origin then none
  else some { self with time := self.time - origin }

/-- The last turn began at this time or later. -/
def passed (watermark : Option Duration) (time : Duration) : Bool :=
  watermark.any (time ≤ ·)

theorem picked_append {part : Report → Option β}
    {first second : List CapturedReport} :
    picked part (first ++ second) = picked part first ++ picked part second :=
  List.filterMap_append

theorem picked_cons {part : Report → Option β} {report : CapturedReport}
    {reports : List CapturedReport} :
    picked part (report :: reports) =
      (report.pick part).toList ++ picked part reports := by
  unfold picked
  rw [List.filterMap_cons]
  cases report.pick part <;> rfl

theorem due_append {origin : Duration} {first second : List (Duration × β)} :
    due origin (first ++ second) = due origin first ++ due origin second := by
  simp [due]

theorem picked_since (origin : Duration) (part : Report → Option β)
    (report : CapturedReport) :
    picked part (report.since origin).toList =
      due origin (report.pick part).toList := by
  obtain ⟨time, content⟩ := report
  unfold CapturedReport.since
  split
  · rename_i old
    have older : ¬ origin ≤ time := Nat.not_le.mpr old
    cases found : part content <;>
      simp [picked, due, CapturedReport.pick, found, older]
  · rename_i fresh
    have newer : origin ≤ time := Nat.le_of_not_lt fresh
    cases found : part content <;>
      simp [picked, due, CapturedReport.pick, found, newer]

/-- Every report of the device is delivered, held back or not yet read. -/
def Flows (origin : Duration) (part : Report → Option β)
    (stream rest : List (Duration × β)) (delivered held : List CapturedReport)
    (watermark : Option Duration) : Prop :=
  ∃ returned, stream = returned ++ (picked part held ++ rest) ∧
    picked part delivered = due origin returned ∧
    ∀ item ∈ returned, passed watermark item.1 = true

section

variable {origin : Duration} {part : Report → Option β}
  {stream rest batch : List (Duration × β)}
  {delivered held gathered : List CapturedReport} {report : CapturedReport}
  {watermark later : Option Duration}

theorem Flows.read
    (flows : Flows origin part stream (batch ++ rest) delivered held watermark)
    (gathers : picked part gathered = picked part held ++ batch)
    (grows : ∀ time, passed watermark time = true → passed later time = true) :
    Flows origin part stream rest delivered gathered later := by
  obtain ⟨returned, whole, isDue, early⟩ := flows
  refine ⟨returned, ?_, isDue, fun item member => grows _ (early item member)⟩
  rw [whole, gathers, List.append_assoc]

theorem Flows.next
    (flows : Flows origin part stream rest delivered (report :: held) watermark)
    (ready : passed watermark report.time = true) :
    Flows origin part stream rest
      (delivered ++ (report.since origin).toList) held watermark := by
  obtain ⟨returned, whole, isDue, early⟩ := flows
  refine ⟨returned ++ (report.pick part).toList, ?_, ?_, ?_⟩
  · rw [whole, picked_cons]
    simp only [List.append_assoc]
  · rw [picked_append, due_append, isDue, picked_since]
  · intro item member
    rcases List.mem_append.mp member with older | newest
    · exact early item older
    · unfold CapturedReport.pick at newest
      cases found : part report.report with
      | none => simp [found] at newest
      | some value =>
          rw [found] at newest
          rw [List.mem_singleton.mp newest]
          exact ready

theorem picked_sort (ordered : Ordered (·.1) (picked part held)) :
    picked part (sortByKey (·.time) held) = picked part held := by
  apply filterMap_sortByKey
  unfold Ordered at *
  rw [List.pairwise_filter]
  apply (List.pairwise_filterMap.mp ordered).imp
  intro first second inOrder isFirst isSecond
  unfold CapturedReport.pick at inOrder isFirst isSecond
  obtain ⟨item, found⟩ : ∃ item, part first.report = some item := by
    simpa [Option.isSome_iff_exists] using isFirst
  obtain ⟨other, foundOther⟩ : ∃ other, part second.report = some other := by
    simpa [Option.isSome_iff_exists] using isSecond
  exact inOrder _ (by rw [found]; rfl) _ (by rw [foundOther]; rfl)

theorem Flows.inOrder
    (flows : Flows origin part stream (batch ++ rest) delivered held watermark)
    (ordered : Ordered (·.1) stream) :
    Ordered (·.1) (picked part held ++ batch) := by
  obtain ⟨returned, rfl, _, _⟩ := flows
  apply List.Pairwise.sublist _ ordered
  rw [← List.append_assoc (picked part held)]
  exact (List.sublist_append_left _ rest).trans
    (List.sublist_append_right returned _)

theorem Flows.sorted {count : Nat}
    (flows : Flows origin part stream rest delivered held watermark)
    (ordered : Ordered (·.1) stream)
    (gathers : picked part gathered = picked part held ++ rest.take count)
    (grows : ∀ time, passed watermark time = true → passed later time = true) :
    Flows origin part stream (rest.drop count) delivered
      (sortByKey (·.time) gathered) later := by
  rw [← List.take_append_drop count rest] at flows
  apply flows.read _ grows
  rw [picked_sort, gathers]
  rw [gathers]
  exact flows.inOrder ordered

theorem Flows.delivered_prefix
    (flows : Flows origin part stream rest delivered held watermark) :
    picked part delivered <+: due origin stream := by
  obtain ⟨returned, rfl, isDue, _⟩ := flows
  rw [isDue, due_append]
  exact List.prefix_append _ _

theorem Flows.complete
    (flows : Flows origin part stream rest delivered held watermark)
    (heldLate : ∀ report ∈ held, passed watermark report.time = false)
    (restLate : ∀ item ∈ rest, passed watermark item.1 = false) :
    picked part delivered =
      due origin (stream.filter (passed watermark ·.1)) := by
  obtain ⟨returned, rfl, isDue, early⟩ := flows
  have none : (picked part held).filter (passed watermark ·.1) = [] := by
    rw [List.filter_eq_nil_iff]
    intro item member
    obtain ⟨report, isHeld, isItem⟩ := List.mem_filterMap.mp member
    unfold CapturedReport.pick at isItem
    obtain ⟨_, _, rfl⟩ := Option.map_eq_some_iff.mp isItem
    rw [heldLate report isHeld]
    exact Bool.false_ne_true
  have later : rest.filter (passed watermark ·.1) = [] := by
    rw [List.filter_eq_nil_iff]
    intro item member
    rw [restLate item member]
    exact Bool.false_ne_true
  rw [List.filter_append, List.filter_append, none, later,
    List.filter_eq_self.mpr early, isDue]
  simp

end

abbrev CaptureEvent :=
  Event CaptureSystem CaptureInput (List CapturedReport)

/-- All that the session got. -/
def captured (history : List CaptureEvent) : List CapturedReport :=
  history.reverse.flatMap (·.output)

namespace CaptureSystem

def ready (self : CaptureSystem) : List CapturedReport :=
  match self.reader with
  | .pushing ready => ready
  | _ => []

/-- The reports that were read and wait to be pushed. -/
def held (self : CaptureSystem) : List CapturedReport :=
  self.ready ++ self.pending

end CaptureSystem

/-- No report was lost, and none can come too late any more. -/
structure Flowing (origin : Duration)
    (pen : List (Duration × List PointerRecord))
    (touch : List (Duration × List PhysicalPointerEvent))
    (delivered : List CapturedReport) (system : CaptureSystem) : Prop where
  going : system.capture.stop = false
  works : ∀ message, system.reader ≠ .failing message
  pens : Flows origin Report.pen? pen system.pen delivered system.held
    system.watermark
  touches : Flows origin Report.touch? touch system.touch delivered system.held
    system.watermark
  ordered : Ordered (·.time) delivered
  heldOrdered : Ordered (·.time) system.held
  early : ∀ report ∈ delivered,
    passed system.watermark (report.time + origin) = true
  earlier : ∀ report ∈ delivered, ∀ other ∈ system.held,
    report.time + origin ≤ other.time
  readyPassed : ∀ report ∈ system.ready,
    passed system.watermark report.time = true
  late : ∀ report ∈ system.pending,
    passed system.watermark report.time = false
  penLate : ∀ report ∈ system.pen, passed system.watermark report.1 = false
  touchLate : ∀ report ∈ system.touch,
    passed system.watermark report.1 = false
  faultless : ∀ report ∈ delivered ++ system.held,
    report.report.isFault = false

/-- The devices return what is up to the time of the turn, turns begin later
and later, and nothing fails. -/
def Undisturbed (event : CaptureEvent) : Prop :=
  match event.input with
  | .turn watermark pens touches =>
      (∀ last ∈ event.before.watermark, last ≤ watermark) ∧
      (∀ report ∈ event.before.pen.drop pens, watermark < report.1) ∧
      (∀ report ∈ event.before.touch.drop touches, watermark < report.1) ∧
      (event.before.gathered pens touches).length ≤ captureCapacity
  | .error _ | .stop => False
  | _ => True

theorem lt_of_passed {watermark : Option Duration} {time other : Duration}
    (before : passed watermark time = true)
    (after : passed watermark other = false) : time < other := by
  unfold passed at before after
  cases watermark with
  | none => cases before
  | some last =>
      simp only [Option.any_some, decide_eq_true_eq, decide_eq_false_iff_not]
        at before after
      exact Nat.lt_of_le_of_lt before (Nat.lt_of_not_le after)

theorem passed_mono {watermark : Option Duration} {later time : Duration}
    (grows : ∀ last ∈ watermark, last ≤ later)
    (before : passed watermark time = true) :
    passed (some later) time = true := by
  unfold passed at *
  cases watermark with
  | none => cases before
  | some last =>
      simp only [Option.any_some, decide_eq_true_eq] at *
      exact Nat.le_trans before (grows last rfl)

/-- A report comes to a queue that is full. -/
def Overflows (origin : Duration) (event : CaptureEvent) : Prop :=
  event.input = .push ∧ ∃ report ready,
    event.before.reader = .pushing (report :: ready) ∧
    origin ≤ report.time ∧
    event.before.capture.queue.length = captureCapacity

section

variable {origin : Duration} {pen : List (Duration × List PointerRecord)}
  {touch : List (Duration × List PhysicalPointerEvent)}
  {delivered : List CapturedReport} {system : CaptureSystem}

theorem Flowing.started (penDevice : Option (List (Duration × List PointerRecord)))
    (touchDevice : Option (List (Duration × List PhysicalPointerEvent))) :
    Flowing origin (penDevice.getD []) (touchDevice.getD []) []
      (.started penDevice touchDevice) := by
  have rests : (CaptureSystem.started penDevice touchDevice).ready = [] := by
    unfold CaptureSystem.ready CaptureSystem.started
    cases penDevice <;> cases touchDevice <;> rfl
  have nothing : (CaptureSystem.started penDevice touchDevice).held = [] := by
    rw [CaptureSystem.held, rests]
    rfl
  refine ⟨rfl, ?_, ⟨[], by rw [nothing]; rfl, rfl, nofun⟩,
    ⟨[], by rw [nothing]; rfl, rfl, nofun⟩, List.Pairwise.nil, ?_, nofun, nofun,
    ?_, nofun, fun _ _ => rfl, fun _ _ => rfl, ?_⟩
  · intro message
    unfold CaptureSystem.started
    cases penDevice <;> cases touchDevice <;> simp
  · rw [nothing]
    exact List.Pairwise.nil
  · rw [rests]
    exact nofun
  · rw [nothing]
    exact nofun

theorem picked_pen_gathered (pens touches : Nat) :
    picked Report.pen? (system.gathered pens touches) =
      picked Report.pen? system.pending ++ system.pen.take pens := by
  unfold CaptureSystem.gathered
  rw [picked_append, picked_append, List.append_assoc]
  refine congrArg (picked Report.pen? system.pending ++ ·) ?_
  simp only [picked, List.filterMap_map]
  refine (congrArg₂ (· ++ ·) List.filterMap_some
    (List.filterMap_eq_nil_iff.mpr ?_)).trans (List.append_nil _)
  intro _ _
  rfl

theorem picked_touch_gathered (pens touches : Nat) :
    picked Report.touch? (system.gathered pens touches) =
      picked Report.touch? system.pending ++ system.touch.take touches := by
  unfold CaptureSystem.gathered
  rw [picked_append, picked_append, List.append_assoc]
  refine congrArg (picked Report.touch? system.pending ++ ·) ?_
  simp only [picked, List.filterMap_map]
  refine congrArg₂ (· ++ ·) (List.filterMap_eq_nil_iff.mpr ?_)
    List.filterMap_some
  intro _ _
  rfl

theorem mem_gathered {pens touches : Nat} {report : CapturedReport}
    (member : report ∈ system.gathered pens touches) :
    report ∈ system.pending ∨
      (∃ item ∈ system.pen, report = ⟨item.1, .pen item.2⟩) ∨
      ∃ item ∈ system.touch, report = ⟨item.1, .touch item.2⟩ := by
  unfold CaptureSystem.gathered at member
  rcases List.mem_append.mp member with member | member
  · rcases List.mem_append.mp member with member | member
    · exact .inl member
    · obtain ⟨item, read, rfl⟩ := List.mem_map.mp member
      exact .inr (.inl ⟨item, List.mem_of_mem_take read, rfl⟩)
  · obtain ⟨item, read, rfl⟩ := List.mem_map.mp member
    exact .inr (.inr ⟨item, List.mem_of_mem_take read, rfl⟩)

theorem turn_ready {watermark : Duration} {pens touches : Nat}
    (going : system.capture.stop = false)
    (fits : (system.gathered pens touches).length ≤ captureCapacity) :
    system.turn watermark pens touches =
      { system with
        watermark := some watermark
        pen := system.pen.drop pens
        touch := system.touch.drop touches
        reader := .pushing ((sortByKey (·.time)
          (system.gathered pens touches)).takeWhile (·.time ≤ watermark))
        pending := (sortByKey (·.time)
          (system.gathered pens touches)).dropWhile (·.time ≤ watermark) } := by
  unfold CaptureSystem.turn
  rw [going, if_neg Bool.false_ne_true, if_neg (Nat.not_lt.mpr fits)]

/-- Nothing that is read in a turn is too late for what was delivered. -/
theorem Flowing.turn {watermark : Duration} {pens touches : Nat}
    (flowing : Flowing origin pen touch delivered system)
    (penOrdered : Ordered (·.1) pen) (touchOrdered : Ordered (·.1) touch)
    (polling : system.reader = .polling)
    (grows : ∀ last ∈ system.watermark, last ≤ watermark)
    (pensRead : ∀ report ∈ system.pen.drop pens, watermark < report.1)
    (touchesRead : ∀ report ∈ system.touch.drop touches, watermark < report.1)
    (fits : (system.gathered pens touches).length ≤ captureCapacity) :
    Flowing origin pen touch delivered
      (system.turn watermark pens touches) := by
  have held : system.held = system.pending := by
    rw [CaptureSystem.held, CaptureSystem.ready, polling]
    rfl
  have gathers : (system.turn watermark pens touches).held =
      sortByKey (·.time) (system.gathered pens touches) := by
    rw [turn_ready flowing.going fits]
    exact List.takeWhile_append_dropWhile
  have mono (time : Duration) (before : passed system.watermark time = true) :
      passed (some watermark) time = true := passed_mono grows before
  have beyond {time : Duration} (later : watermark < time) :
      passed (some watermark) time = false := by
    unfold passed
    simp only [Option.any_some, decide_eq_false_iff_not]
    exact Nat.not_le.mpr later
  have late : ∀ report ∈ system.gathered pens touches,
      passed system.watermark report.time = false := by
    intro report member
    rcases mem_gathered member with older | ⟨item, read, rfl⟩ | ⟨item, read, rfl⟩
    · exact flowing.late report older
    · exact flowing.penLate item read
    · exact flowing.touchLate item read
  have sorted : Ordered (·.time)
      (sortByKey (·.time) (system.gathered pens touches)) :=
    sortByKey_ordered _ _
  have penFlows : Flows origin Report.pen? pen (system.pen.drop pens) delivered
      (system.turn watermark pens touches).held (some watermark) := by
    rw [gathers]
    apply flowing.pens.sorted penOrdered _ mono
    rw [held, picked_pen_gathered]
  have touchFlows : Flows origin Report.touch? touch
      (system.touch.drop touches) delivered
      (system.turn watermark pens touches).held (some watermark) := by
    rw [gathers]
    apply flowing.touches.sorted touchOrdered _ mono
    rw [held, picked_touch_gathered]
  have heldMember {report : CapturedReport}
      (member : report ∈ (system.turn watermark pens touches).held) :
      report ∈ system.gathered pens touches := by
    rw [gathers] at member
    exact mem_sortByKey.mp member
  have faultless : ∀ report ∈ system.gathered pens touches,
      report.report.isFault = false := by
    intro report member
    rcases mem_gathered member with older | ⟨item, _, rfl⟩ | ⟨item, _, rfl⟩
    · apply flowing.faultless report (List.mem_append_right _ _)
      rw [held]
      exact older
    · rfl
    · rfl
  have turned := @turn_ready system watermark pens touches flowing.going fits
  rw [turned] at penFlows touchFlows gathers heldMember ⊢
  refine ⟨flowing.going, nofun, penFlows, touchFlows, flowing.ordered, ?_, ?_, ?_,
    ?_, ?_, ?_, ?_, ?_⟩
  · rw [gathers]
    exact sorted
  · intro report member
    exact mono _ (flowing.early report member)
  · intro report member other later
    have before := flowing.early report member
    exact Nat.le_of_lt (lt_of_passed before (late other (heldMember later)))
  · intro report member
    have bounded : report.time ≤ watermark := le_of_mem_takeWhile member
    simpa [passed] using bounded
  · intro report member
    exact beyond (sorted.lt_of_mem_dropWhile member)
  · intro report member
    exact beyond (pensRead report member)
  · intro report member
    exact beyond (touchesRead report member)
  · intro report member
    rcases List.mem_append.mp member with older | later
    · exact flowing.faultless report (List.mem_append_left _ older)
    · exact faultless report (heldMember later)

theorem Flowing.polls (flowing : Flowing origin pen touch delivered system)
    (pushed : system.reader = .pushing []) :
    Flowing origin pen touch delivered { system with reader := .polling } := by
  have held : system.held = system.pending := by
    rw [CaptureSystem.held, CaptureSystem.ready, pushed]
    rfl
  obtain ⟨going, _, pens, touches, ordered, heldOrdered, early, earlier, _,
    late, penLate, touchLate, faultless⟩ := flowing
  rw [held] at pens touches heldOrdered earlier faultless
  exact ⟨going, nofun, pens, touches, ordered, heldOrdered, early, earlier,
    nofun, late, penLate, touchLate, faultless⟩

/-- The next report is delivered, or it is too old. -/
theorem Flowing.next {report : CapturedReport} {ready : List CapturedReport}
    (flowing : Flowing origin pen touch delivered system)
    (reading : system.reader = .pushing (report :: ready))
    (capture : InputCapture) (going : capture.stop = false) :
    Flowing origin pen touch (delivered ++ (report.since origin).toList)
      { system with capture, reader := .pushing ready } := by
  have isReady : system.ready = report :: ready := by
    rw [CaptureSystem.ready, reading]
  have held : system.held = report :: (ready ++ system.pending) := by
    rw [CaptureSystem.held, isReady]
    rfl
  obtain ⟨_, _, pens, touches, ordered, heldOrdered, early, earlier,
    readyPassed, late, penLate, touchLate, faultless⟩ := flowing
  rw [held] at pens touches heldOrdered earlier faultless
  rw [isReady] at readyPassed
  have passes := readyPassed report List.mem_cons_self
  have newest {item : CapturedReport}
      (member : item ∈ (report.since origin).toList) :
      item.time + origin = report.time ∧ item.report = report.report := by
    unfold CapturedReport.since at member
    split at member
    · cases member
    · rename_i fresh
      rw [List.mem_singleton.mp member]
      exact ⟨Nat.sub_add_cancel (Nat.le_of_not_lt fresh), rfl⟩
  refine ⟨going, nofun, pens.next passes, touches.next passes, ?_,
    heldOrdered.tail, ?_, ?_, ?_, late, penLate, touchLate, ?_⟩
  · apply ordered.append
    · unfold CapturedReport.since
      split
      · exact List.Pairwise.nil
      · exact List.pairwise_singleton _ _
    · intro item member later isNewest
      have before := earlier item member report List.mem_cons_self
      rw [← (newest isNewest).1] at before
      exact Nat.le_of_add_le_add_right before
  · intro item member
    rcases List.mem_append.mp member with older | isNewest
    · exact early item older
    · rw [(newest isNewest).1]
      exact passes
  · intro item member other later
    rcases List.mem_append.mp member with older | isNewest
    · exact earlier item older other (List.mem_cons_of_mem _ later)
    · rw [(newest isNewest).1]
      exact (List.pairwise_cons.mp heldOrdered).1 other later
  · intro item member
    exact readyPassed item (List.mem_cons_of_mem _ member)
  · intro item member
    rcases List.mem_append.mp member with delivers | later
    · rcases List.mem_append.mp delivers with older | isNewest
      · exact faultless item (List.mem_append_left _ older)
      · rw [(newest isNewest).2]
        exact faultless report (by simp)
    · exact faultless item
        (List.mem_append_right _ (List.mem_cons_of_mem _ later))

theorem Flowing.drained (flowing : Flowing origin pen touch delivered system)
    (capture : InputCapture) (going : capture.stop = false) :
    Flowing origin pen touch delivered { system with capture } :=
  { flowing with going }

theorem push_fits {capture : InputCapture} {report : CapturedReport}
    (going : capture.stop = false)
    (fits : capture.queue.length ≠ captureCapacity) :
    capture.push report = (true,
      { capture with queue := capture.queue ++ [report], wake := true }) := by
  unfold InputCapture.push
  rw [going, if_neg Bool.false_ne_true, if_neg fits]

theorem push_full {capture : InputCapture} {report : CapturedReport}
    (going : capture.stop = false)
    (full : capture.queue.length = captureCapacity) :
    capture.push report = (false,
      { capture with
        failed := true
        queue := capture.queue ++ [⟨report.time, .fault queueExhausted⟩]
        stop := true
        wake := true }) := by
  unfold InputCapture.push
  rw [going, if_neg Bool.false_ne_true, if_pos full]

/-- A step without an overflow goes on. -/
theorem Flowing.step {seen : List CapturedReport} {event : CaptureEvent}
    (flowing : Flowing origin pen touch (seen ++ event.before.capture.queue)
      event.before)
    (penOrdered : Ordered (·.1) pen) (touchOrdered : Ordered (·.1) touch)
    (undisturbed : Undisturbed event)
    (takes : event.before.take origin event.input =
      some (event.output, event.after))
    (fits : ¬ Overflows origin event) :
    Flowing origin pen touch
      (seen ++ event.output ++ event.after.capture.queue) event.after := by
  obtain ⟨before, input, output, after⟩ := event
  dsimp only at *
  cases input with
  | turn watermark pens touches =>
      dsimp only [CaptureSystem.take] at takes
      obtain ⟨grows, pensRead, touchesRead, enough⟩ := undisturbed
      split at takes
      · rename_i polling
        cases takes
        have turned := flowing.turn penOrdered touchOrdered polling grows
          pensRead touchesRead enough
        have same : (before.turn watermark pens touches).capture =
            before.capture := by
          rw [turn_ready flowing.going enough]
        rw [List.append_nil, same]
        exact turned
      · cases takes
  | push =>
      dsimp only [CaptureSystem.take] at takes
      split at takes
      · rename_i pushed
        cases takes
        rw [List.append_nil]
        exact flowing.polls pushed
      · rename_i report ready reading
        cases takes
        have room (fresh : origin ≤ report.time) :
            before.capture.queue.length ≠ captureCapacity :=
          fun full => fits ⟨rfl, report, ready, reading, fresh, full⟩
        rw [List.append_nil]
        unfold CaptureSystem.pushReady
        split
        · rename_i old
          have next := flowing.next reading before.capture flowing.going
          rw [CapturedReport.since, if_pos old, Option.toList_none,
            List.append_nil] at next
          exact next
        · rename_i fresh
          rw [push_fits flowing.going (room (Nat.le_of_not_lt fresh))]
          have next := flowing.next reading
            { before.capture with
              queue := before.capture.queue ++
                [{ report with time := report.time - origin }]
              wake := true } flowing.going
          rw [CapturedReport.since, if_neg fresh, Option.toList_some,
            List.append_assoc] at next
          exact next
      · cases takes
  | error message => exact undisturbed.elim
  | fault now =>
      dsimp only [CaptureSystem.take] at takes
      split at takes
      · rename_i message failing
        exact absurd failing (flowing.works message)
      · cases takes
  | drain =>
      cases takes
      rw [List.append_nil]
      exact flowing.drained _ flowing.going
  | stop => exact undisturbed.elim

/-- An overflow closes the queue with a fault. -/
theorem Flowing.overflow {seen : List CapturedReport} {event : CaptureEvent}
    (flowing : Flowing origin pen touch (seen ++ event.before.capture.queue)
      event.before)
    (takes : event.before.take origin event.input =
      some (event.output, event.after))
    (overflows : Overflows origin event) :
    event.after.reader = .stopped ∧ ∃ fault : CapturedReport,
      fault.report.isFault = true ∧
      (∀ report ∈ seen ++ event.before.capture.queue,
        report.time ≤ fault.time) ∧
      event.output ++ event.after.capture.queue =
        event.before.capture.queue ++ [fault] := by
  obtain ⟨before, input, output, after⟩ := event
  obtain ⟨isPush, report, ready, reading, fresh, full⟩ := overflows
  dsimp only at *
  cases isPush
  dsimp only [CaptureSystem.take] at takes
  rw [reading] at takes
  cases takes
  unfold CaptureSystem.pushReady
  rw [if_neg (Nat.not_lt.mpr fresh), push_full flowing.going full]
  refine ⟨rfl, _, rfl, ?_, rfl⟩
  intro item member
  have isHeld : report ∈ before.held := by
    rw [CaptureSystem.held, CaptureSystem.ready, reading]
    simp
  exact Nat.le_sub_of_add_le (flowing.earlier item member report isHeld)

theorem stopped_step {event : CaptureEvent}
    (stopped : event.before.reader = .stopped)
    (takes : event.before.take origin event.input =
      some (event.output, event.after)) :
    event.after.reader = .stopped ∧
      event.output ++ event.after.capture.queue =
        event.before.capture.queue := by
  obtain ⟨before, input, output, after⟩ := event
  dsimp only at *
  cases input with
  | drain =>
      cases takes
      exact ⟨stopped, List.append_nil _⟩
  | stop =>
      cases takes
      exact ⟨stopped, rfl⟩
  | turn | push | error | fault =>
      dsimp only [CaptureSystem.take] at takes
      rw [stopped] at takes
      cases takes

end

abbrev CaptureRun (origin : Duration) (start : CaptureSystem) :
    List CaptureEvent → CaptureSystem → Prop :=
  Run (fun before input output after =>
    before.take origin input = some (output, after)) start

theorem captured_cons {history : List CaptureEvent} {event : CaptureEvent} :
    captured (event :: history) = captured history ++ event.output := by
  simp [captured]

/-- The queue overflowed at one event, and nothing came after the fault. -/
def Spilled (origin : Duration) (pen : List (Duration × List PointerRecord))
    (touch : List (Duration × List PhysicalPointerEvent))
    (history : List CaptureEvent) (system : CaptureSystem) : Prop :=
  system.reader = .stopped ∧ ∃ newer event older fault,
    history = newer ++ event :: older ∧ Overflows origin event ∧
    (∀ other ∈ newer ++ older, ¬ Overflows origin other) ∧
    Flowing origin pen touch (captured older ++ event.before.capture.queue)
      event.before ∧
    fault.report.isFault = true ∧
    (∀ report ∈ captured older ++ event.before.capture.queue,
      report.time ≤ fault.time) ∧
    captured history ++ system.capture.queue =
      captured older ++ event.before.capture.queue ++ [fault]

section

variable {origin : Duration} {start final : CaptureSystem}
  {pen : List (Duration × List PointerRecord)}
  {touch : List (Duration × List PhysicalPointerEvent)}
  {history : List CaptureEvent}

theorem CaptureRun.flows (begins : Flowing origin pen touch [] start)
    (empty : start.capture.queue = [])
    (penOrdered : Ordered (·.1) pen) (touchOrdered : Ordered (·.1) touch)
    (run : CaptureRun origin start history final)
    (undisturbed : ∀ event ∈ history, Undisturbed event) :
    (Flowing origin pen touch (captured history ++ final.capture.queue) final ∧
      ∀ event ∈ history, ¬ Overflows origin event) ∨
    Spilled origin pen touch history final := by
  apply @Run.keeps _ _ _ _ _ _ _ Undisturbed (fun history system =>
    (Flowing origin pen touch (captured history ++ system.capture.queue)
        system ∧
      ∀ event ∈ history, ¬ Overflows origin event) ∨
    Spilled origin pen touch history system) _ _ run undisturbed
  · left
    rw [empty]
    exact ⟨begins, List.forall_mem_nil _⟩
  · intro history event allowed takes before
    rw [captured_cons]
    rcases before with ⟨flowing, never⟩ | spilled
    · by_cases overflows : Overflows origin event
      · obtain ⟨stopped, fault, isFault, latest, spills⟩ :=
          flowing.overflow takes overflows
        right
        refine ⟨stopped, [], event, history, fault, rfl, overflows, never,
          flowing, isFault, latest, ?_⟩
        rw [captured_cons, List.append_assoc, spills, List.append_assoc]
      · left
        refine ⟨flowing.step penOrdered touchOrdered allowed takes overflows,
          ?_⟩
        exact List.forall_mem_cons.mpr ⟨overflows, never⟩
    · obtain ⟨stopped, newer, spill, older, fault, rfl, overflows, others,
        flowing, isFault, latest, spills⟩ := spilled
      obtain ⟨stays, same⟩ := stopped_step stopped takes
      have calm : ¬ Overflows origin event := by
        rintro ⟨_, _, _, reading, _⟩
        rw [stopped] at reading
        cases reading
      right
      refine ⟨stays, event :: newer, spill, older, fault, rfl, overflows,
        List.forall_mem_cons.mpr ⟨calm, others⟩, flowing, isFault, latest, ?_⟩
      rw [captured_cons, List.append_assoc, same, spills]

end

/-- What the session gets in a run. -/
structure CaptureSound (origin : Duration)
    (pen : List (Duration × List PointerRecord))
    (touch : List (Duration × List PhysicalPointerEvent))
    (history : List CaptureEvent) (final : CaptureSystem) : Prop where
  merged : Ordered (·.time) (captured history)
  /-- Of what is due nothing comes twice or in another order. -/
  pens : picked Report.pen? (captured history) <+: due origin pen
  touches : picked Report.touch? (captured history) <+: due origin touch
  /-- After each turn nothing up to its time is missing. -/
  complete : (∀ event ∈ history, ¬ Overflows origin event) →
    final.reader = .polling →
    picked Report.pen? (captured history ++ final.capture.queue) =
        due origin (pen.filter (passed final.watermark ·.1)) ∧
      picked Report.touch? (captured history ++ final.capture.queue) =
        due origin (touch.filter (passed final.watermark ·.1))
  faultless : (∀ event ∈ history, ¬ Overflows origin event) →
    ∀ report ∈ captured history ++ final.capture.queue,
      report.report.isFault = false
  /-- What was accepted before an overflow is followed by one fault. -/
  overflow : ∀ event ∈ history, Overflows origin event →
    ∃ newer older fault, history = newer ++ event :: older ∧
      fault.report.isFault = true ∧
      (∀ report ∈ captured older ++ event.before.capture.queue,
        report.report.isFault = false) ∧
      captured history ++ final.capture.queue =
        captured older ++ event.before.capture.queue ++ [fault]

section

variable {origin : Duration} {final : CaptureSystem}
  {pen : List (Duration × List PointerRecord)}
  {touch : List (Duration × List PhysicalPointerEvent)}
  {history : List CaptureEvent}

theorem picked_fault {part : Report → Option β} {fault : CapturedReport}
    (none : ∀ message, part (.fault message) = none)
    (isFault : fault.report.isFault = true) : picked part [fault] = [] := by
  obtain ⟨time, report⟩ := fault
  cases report with
  | fault message => simp [picked, CapturedReport.pick, none message]
  | touch | pen => cases isFault

theorem CaptureSound.of_flowing
    (flowing : Flowing origin pen touch (captured history ++ final.capture.queue)
      final)
    (never : ∀ event ∈ history, ¬ Overflows origin event) :
    CaptureSound origin pen touch history final := by
  have inside : captured history <+: captured history ++ final.capture.queue :=
    List.prefix_append _ _
  refine ⟨flowing.ordered.sublist inside.sublist,
    (inside.filterMap _).trans flowing.pens.delivered_prefix,
    (inside.filterMap _).trans flowing.touches.delivered_prefix, ?_, ?_, ?_⟩
  · intro _ polling
    have held : final.held = final.pending := by
      rw [CaptureSystem.held, CaptureSystem.ready, polling]
      rfl
    have late := flowing.late
    rw [← held] at late
    exact ⟨flowing.pens.complete late flowing.penLate,
      flowing.touches.complete late flowing.touchLate⟩
  · intro _ report member
    exact flowing.faultless report (List.mem_append_left _ member)
  · intro event member overflows
    exact absurd overflows (never event member)

theorem CaptureSound.of_spilled
    (spilled : Spilled origin pen touch history final) :
    CaptureSound origin pen touch history final := by
  obtain ⟨_, newer, spill, older, fault, rfl, overflows, others, flowing,
    isFault, latest, spills⟩ := spilled
  have inside : captured (newer ++ spill :: older) <+:
      captured older ++ spill.before.capture.queue ++ [fault] := by
    rw [← spills]
    exact List.prefix_append _ _
  have overflowed : spill ∈ newer ++ spill :: older := by simp
  refine ⟨?_, ?_, ?_, ?_, ?_, ?_⟩
  · apply List.Pairwise.sublist inside.sublist
    apply flowing.ordered.append (List.pairwise_singleton _ _)
    intro report member last isLast
    rw [List.mem_singleton.mp isLast]
    exact latest report member
  · have within := inside.filterMap (·.pick Report.pen?)
    change _ <+: picked _ _ at within
    rw [picked_append, picked_fault (fun _ => rfl) isFault,
      List.append_nil] at within
    exact within.trans flowing.pens.delivered_prefix
  · have within := inside.filterMap (·.pick Report.touch?)
    change _ <+: picked _ _ at within
    rw [picked_append, picked_fault (fun _ => rfl) isFault,
      List.append_nil] at within
    exact within.trans flowing.touches.delivered_prefix
  · intro never
    exact absurd overflows (never spill overflowed)
  · intro never
    exact absurd overflows (never spill overflowed)
  · intro event member overflow
    have same : event = spill := by
      by_contra other
      apply others event _ overflow
      simpa [other] using member
    rw [same]
    exact ⟨newer, older, fault, rfl, isFault,
      fun report accepted =>
        flowing.faultless report (List.mem_append_left _ accepted),
      spills⟩

/-- The session gets the reports of both devices merged, each once, and after an
overflow what was accepted before it and one fault. -/
theorem captureSound_of_run
    {penDevice : Option (List (Duration × List PointerRecord))}
    {touchDevice : Option (List (Duration × List PhysicalPointerEvent))}
    (penOrdered : Ordered (·.1) (penDevice.getD []))
    (touchOrdered : Ordered (·.1) (touchDevice.getD []))
    (run : CaptureRun origin (.started penDevice touchDevice) history final)
    (undisturbed : ∀ event ∈ history, Undisturbed event) :
    CaptureSound origin (penDevice.getD []) (touchDevice.getD []) history
      final := by
  have begins := @Flowing.started origin penDevice touchDevice
  rcases CaptureRun.flows begins rfl penOrdered touchOrdered run undisturbed
    with ⟨flowing, never⟩ | spilled
  · exact .of_flowing flowing never
  · exact .of_spilled spilled

/-- A run that nothing disturbs. -/
def CalmRun (origin : Duration) (start : CaptureSystem)
    (history : List CaptureEvent) (final : CaptureSystem) : Prop :=
  CaptureRun origin start history final ∧ ∀ event ∈ history, Undisturbed event

theorem CalmRun.given {start after : CaptureSystem}
    {output : List CapturedReport}
    (run : CalmRun origin start history final) (input : CaptureInput)
    (undisturbed : Undisturbed ⟨final, input, output, after⟩)
    (takes : final.take origin input = some (output, after)) :
    CalmRun origin start (⟨final, input, output, after⟩ :: history) after :=
  ⟨.snoc run.1 takes, List.forall_mem_cons.mpr ⟨undisturbed, run.2⟩⟩

theorem CalmRun.pushes {start : CaptureSystem} {ready : List CapturedReport}
    (run : CalmRun origin start history final)
    (reading : final.reader = .pushing ready)
    (going : final.capture.stop = false)
    (fresh : ∀ report ∈ ready, origin ≤ report.time)
    (room : final.capture.queue.length + ready.length ≤ captureCapacity) :
    ∃ history' capture, capture.stop = false ∧
      capture.queue = final.capture.queue ++
        ready.map (fun report => { report with time := report.time - origin }) ∧
      captured history' = captured history ∧
      CalmRun origin start history'
        { final with reader := .polling, capture } := by
  induction ready generalizing history final with
  | nil =>
      have polls : final.take origin .push =
          some ([], { final with reader := .polling }) := by
        unfold CaptureSystem.take
        rw [reading]
      refine ⟨_, final.capture, going, (List.append_nil _).symm, ?_,
        run.given .push trivial polls⟩
      rw [captured_cons, List.append_nil]
  | cons report ready induction =>
      obtain ⟨isFresh, fresh⟩ := List.forall_mem_cons.mp fresh
      rw [List.length_cons] at room
      have fits : final.capture.queue.length ≠ captureCapacity := by omega
      have pushed : final.take origin .push = some ([], { final with
          reader := .pushing ready
          capture := { final.capture with
            queue := final.capture.queue ++
              [{ report with time := report.time - origin }]
            wake := true } }) := by
        unfold CaptureSystem.take
        rw [reading]
        dsimp only
        rw [CaptureSystem.pushReady, if_neg (Nat.not_lt.mpr isFresh),
          push_fits going fits]
        rfl
      have next := run.given .push trivial pushed
      obtain ⟨later, capture, stays, queued, same, ran⟩ :=
        induction next rfl going fresh (by simp; omega)
      refine ⟨later, capture, stays, ?_, ?_, ran⟩
      · rw [queued, List.map_cons, List.append_assoc]
        rfl
      · rw [same, captured_cons, List.append_nil]

def sampleRecords : List PointerRecord :=
  [⟨wire PointerDevice.pen, wire PointerPhase.down, 0, 1, 0, 0, 0, 1, 0, 0⟩]

def sampleEvents : List PhysicalPointerEvent := [⟨.down, 1, 4, 5⟩]

/-- A pen report is read late, but before the touch report that is later. -/
theorem captureSound_merged : ∃ history final,
    CaptureSound 3 [(2, sampleRecords), (4, sampleRecords)]
      [(5, sampleEvents)] history final ∧
    captured history = [⟨1, .pen sampleRecords⟩, ⟨2, .touch sampleEvents⟩] := by
  have begins : CalmRun 3 (.started
      (some [(2, sampleRecords), (4, sampleRecords)])
      (some [(5, sampleEvents)])) [] _ := ⟨.nil, List.forall_mem_nil _⟩
  have first := begins.given (.turn 3 1 1)
    ⟨nofun, by decide, by decide, by decide⟩ rfl
  have read := (first.given .push trivial rfl).given .push trivial rfl
  have second := read.given (.turn 6 1 0)
    ⟨by decide, by decide, by decide, by decide⟩ rfl
  have pushed := (second.given .push trivial rfl).given .push trivial rfl
  have drained := pushed.given .drain trivial rfl
  refine ⟨_, _, @captureSound_of_run 3 _ _ (some _) (some _)
    (by unfold Ordered; decide) (by unfold Ordered; decide)
    drained.1 drained.2, rfl⟩

/-- A turn in which as many pen reports come as the queue takes. -/
theorem CalmRun.fills (count : Nat) (fits : count ≤ captureCapacity) :
    ∃ history capture, capture.stop = false ∧
      capture.queue = List.replicate count ⟨1, .pen sampleRecords⟩ ∧
      captured history = [] ∧
      CalmRun 0 (.started (some (List.replicate count (1, sampleRecords) ++
          [(2, sampleRecords)])) none) history
        ⟨capture, .polling, [], some 1, [(2, sampleRecords)], []⟩ := by
  let start := CaptureSystem.started (some
    (List.replicate count (1, sampleRecords) ++ [(2, sampleRecords)])) none
  have gathers : start.gathered count 0 =
      List.replicate count ⟨1, .pen sampleRecords⟩ := by
    simp [start, CaptureSystem.gathered, CaptureSystem.started]
  have pens : start.pen.drop count = [(2, sampleRecords)] := by
    simp [start, CaptureSystem.started]
  have sorted : sortByKey (·.time) (start.gathered count 0) =
      start.gathered count 0 := by
    apply List.Pairwise.insertionSort_eq
    rw [gathers]
    exact List.pairwise_replicate.mpr (.inr (Nat.le_refl 1))
  have passes : ∀ report ∈ start.gathered count 0,
      decide (report.time ≤ 1) = true := by
    intro report member
    rw [gathers] at member
    rw [List.eq_of_mem_replicate member]
    rfl
  have room : (start.gathered count 0).length ≤ captureCapacity := by
    rw [gathers, List.length_replicate]
    exact fits
  have begins : CalmRun 0 start [] start := ⟨.nil, List.forall_mem_nil _⟩
  have beyond : ∀ report ∈ start.pen.drop count, 1 < report.1 := by
    rw [pens]
    decide
  have turned := begins.given (.turn 1 count 0) ⟨nofun, beyond, nofun, room⟩ rfl
  rw [turn_ready rfl room, sorted, List.takeWhile_eq_self_iff.mpr passes,
    List.dropWhile_eq_nil_iff.mpr passes, pens] at turned
  obtain ⟨history, capture, going, queued, same, ran⟩ :=
    turned.pushes rfl rfl (fun _ _ => Nat.zero_le _) (by
      rw [gathers, List.length_replicate]
      exact Nat.le_trans (Nat.le_of_eq (Nat.zero_add count)) fits)
  refine ⟨history, capture, going, ?_, ?_, ran⟩
  · rw [queued, gathers]
    simp [start, CaptureSystem.started]
  · rw [same]
    rfl

/-- A queue that is just full takes reports again once it was drained. -/
theorem not_faulted_full : ∃ history final,
    CalmRun 0 (.started (some
      (List.replicate captureCapacity (1, sampleRecords) ++
        [(2, sampleRecords)])) none) history final ∧
    (∃ event ∈ history,
      event.before.capture.queue.length = captureCapacity) ∧
    captured history =
      List.replicate captureCapacity ⟨1, .pen sampleRecords⟩ ++
        [⟨2, .pen sampleRecords⟩] ∧
    final.capture.queue = [] ∧ final.capture.stop = false := by
  obtain ⟨history, ⟨wake, stop, failed, queue⟩, going, full, none, filled⟩ :=
    CalmRun.fills captureCapacity (Nat.le_refl _)
  cases going
  have drained := filled.given .drain trivial rfl
  have turned := drained.given (.turn 2 1 0)
    ⟨fun _ last => Option.mem_some.mp last ▸ Nat.le_succ 1, nofun, nofun,
      (by decide : 1 ≤ captureCapacity)⟩ rfl
  have pushed := (turned.given .push trivial rfl).given .push trivial rfl
  have last := pushed.given .drain trivial rfl
  refine ⟨_, _, last, ?_, ?_, rfl, rfl⟩
  · refine ⟨_, .tail _ (.tail _ (.tail _ (.tail _ (.head _)))), ?_⟩
    exact (congrArg List.length full).trans List.length_replicate
  · simp only [captured_cons, none, List.nil_append, List.append_nil]
    exact congrArg (· ++ _) full

end

end RmDisplay.Receiver
