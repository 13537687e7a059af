import RmDisplay.Core.OverlayShown
import RmDisplay.Core.PlaneCells
import RmDisplay.Receiver.RefreshSettings

/-!
# Updates of the overlay

An update is applied as a whole or not at all.  One that is refused only uses
up its sequence number; one that is applied completes the pending frame and
then shows the plane of the producer under the ink and the menu.
-/

namespace RmDisplay.Receiver

open Foundation Protocol RmDisplay.Core Core.DisplayCore Foundation.Picture

/-- Envelopes were built, and nothing else was done. -/
def Told (before after : Session) : Prop :=
  after = { before with
    nextOutgoingMessageId := after.nextOutgoingMessageId
    journal := after.journal }

/-- The last answer is about the update, and whether it was applied. -/
structure OverlayAnswered (update : OverlayUpdate) (applied : Bool)
    (earlier : List Body) (answers : List Envelope) : Prop where
  last : ∃ result, bodies answers = earlier ++ [.overlayResult result] ∧
    result.applied = applied ∧ result.surfaceId = update.surfaceId ∧
    result.generation = update.generation ∧
    result.sequence = update.sequence

/-- A frame that was presented is answered as such. -/
def PresentedAs (frameId : Nat) (body : Body) : Prop :=
  ∃ result, body = .frameResult result ∧ result.frameId = frameId ∧
    result.result = wire FrameResultCode.presented

namespace Session

section

variable {before middle after : Session} {surface : ActiveSurface}
  {answers : List Envelope} {update : OverlayUpdate} {now : Duration}

theorem told_trans (first : Told before middle) (second : Told middle after) :
    Told before after := by
  unfold Told at *
  rw [first] at second
  exact second

theorem overlayResult_answers {applied : Bool} {message : String}
    {shown : Option ActiveSurface}
    {output : Except SessionError Envelope}
    (runs : (overlayResult update applied message shown).Runs before output
      after) :
    Told before after ∧ ∃ envelope result, output = .ok envelope ∧
      envelope.body = some (.overlayResult result) ∧
      result.applied = applied ∧ result.surfaceId = update.surfaceId ∧
      result.generation = update.generation ∧
      result.sequence = update.sequence := by
  obtain ⟨rfl, rfl⟩ := wrap_runs runs
  exact ⟨rfl, _, _, rfl, rfl, rfl, rfl, rfl, rfl⟩

theorem terminalResult_answers {terminal : TerminalFrame}
    (presented : terminal.outcome = .presented)
    {output : Except SessionError Envelope}
    (runs : (terminalResult terminal).Runs before output after) :
    Told before after ∧ ∃ envelope body, output = .ok envelope ∧
      envelope.body = some body ∧ PresentedAs terminal.frameId body := by
  unfold terminalResult frameResult at runs
  rw [Proc.runs_get_bind] at runs
  dsimp only at runs
  rw [Proc.runs_get_bind, presented] at runs
  obtain ⟨rfl, rfl⟩ := wrap_runs runs
  exact ⟨rfl, _, _, rfl, rfl, _, rfl, rfl, rfl⟩

/-- Terminal results are given in their order, and change nothing else. -/
theorem terminalResults_answers {terminals : List TerminalFrame}
    (presented : ∀ terminal ∈ terminals, terminal.outcome = .presented)
    {output : Except SessionError (List Envelope)}
    (runs : (terminalResults terminals).Runs before output after) :
    Told before after ∧ ∃ responses, output = .ok responses ∧
      List.Forall₂ PresentedAs (terminals.map (·.frameId))
        (bodies responses) := by
  induction terminals generalizing before after output with
  | nil =>
      obtain ⟨rfl, rfl⟩ := Proc.runs_pure.mp runs
      exact ⟨rfl, [], rfl, .nil⟩
  | cons terminal terminals induction =>
      obtain ⟨isPresented, others⟩ := List.forall_mem_cons.mp presented
      unfold terminalResults Proc.gather at runs
      rw [bind_assoc] at runs
      rcases Proc.runs_bind.mp runs with ⟨envelope, middle, first, runs⟩ |
        ⟨err, _, failed⟩
      · obtain ⟨told, _, body, same, isBody, isFrame⟩ :=
          terminalResult_answers isPresented first
        cases same
        rw [pure_bind] at runs
        rcases Proc.runs_bind.mp runs with ⟨rest, last, later, runs⟩ |
          ⟨err, rfl, failed⟩
        · obtain ⟨stillTold, responses, same, answered⟩ :=
            induction others later
          cases same
          obtain ⟨rfl, rfl⟩ := Proc.runs_pure.mp runs
          refine ⟨told_trans told stillTold, _, rfl, ?_⟩
          rw [bodies_append, List.map_cons]
          simp only [bodies, List.filterMap_cons, isBody, List.filterMap_nil,
            List.singleton_append]
          exact .cons isFrame answered
        · obtain ⟨_, responses, same, _⟩ := induction others failed
          cases same
      · obtain ⟨_, _, _, same, _⟩ := terminalResult_answers isPresented failed
        cases same

end

end Session

/-- An update of one pixel. -/
def pixelUpdate (surfaceId generation sequence : Nat) (luma : UInt8) :
    OverlayUpdate where
  surfaceId
  generation
  sequence
  clear := true
  rect := some ⟨0, 0, 1, 1⟩
  luma := [luma]
  alpha := [255]
  localInk := none

end RmDisplay.Receiver
