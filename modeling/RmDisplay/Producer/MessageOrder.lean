import RmDisplay.Producer.Client
import RmDisplay.Receiver.NumberingRuns

/-!
# The order of messages on the wire

The receiver hands out message ids when it builds envelopes and assembles the
answers of an operation afterwards.  A producer drops the connection when it
reads an id that is not newer than the last one.
-/

namespace RmDisplay.Producer

open Foundation Protocol RmDisplay.Core Receiver

/-- The messages a producer will still read. -/
def upcoming (incoming : List (Except StreamError Envelope)) : List Envelope :=
  incoming.filterMap (·.toOption)

/-- Every message still to be read is newer than the ones before it. -/
structure Fresh (client : ProducerClient) : Prop where
  increasing : (messageIds (upcoming client.io.incoming)).Pairwise (· < ·)
  newer : ∀ id ∈ messageIds (upcoming client.io.incoming),
    client.lastReceivedId < id

theorem receive_fresh {client after : ProducerClient}
    {output : Except ProducerError Envelope} (fresh : Fresh client)
    (runs : ProducerClient.receive.Runs client output after) :
    Fresh after ∧ output ≠ .error .messageOrder := by
  obtain ⟨increasing, newer⟩ := fresh
  simp only [ProducerClient.receive, Proc.runs_get_bind] at runs
  split at runs
  · cases output <;> cases runs
  · rename_i next incoming isNext
    rw [isNext] at increasing newer
    rw [Proc.runs_set_bind] at runs
    split at runs
    · obtain ⟨rfl, rfl⟩ := Proc.runs_throw.mp runs
      exact ⟨⟨increasing, newer⟩, nofun⟩
    · rename_i envelope
      obtain ⟨first, later⟩ := List.pairwise_cons.mp increasing
      have isNewer := newer _ List.mem_cons_self
      rw [if_neg (Nat.not_le.mpr isNewer)] at runs
      split at runs
      · obtain ⟨rfl, rfl⟩ := Proc.runs_throw.mp runs
        exact ⟨⟨later, fun id member =>
          newer id (List.mem_cons_of_mem _ member)⟩, nofun⟩
      · rw [Proc.runs_modify_bind, Proc.runs_pure] at runs
        obtain ⟨rfl, rfl⟩ := runs
        have same : (ProducerClient.noteReceived
            { client with io := { client.io with incoming } } envelope
            ).io.incoming = incoming := by
          unfold ProducerClient.noteReceived
          split <;> rfl
        refine ⟨⟨?_, ?_⟩, nofun⟩
        · change (messageIds (upcoming (ProducerClient.noteReceived _ _
            ).io.incoming)).Pairwise _
          rw [same]
          exact later
        · change ∀ id ∈ messageIds (upcoming (ProducerClient.noteReceived _ _
            ).io.incoming), envelope.messageId < id
          rw [same]
          exact first

/-- Reading message after message. -/
abbrev reading := procStep fun _ : Unit => ProducerClient.receive

theorem reads_in_order {client last : ProducerClient}
    {history : List (Event ProducerClient Unit (Except ProducerError Envelope))}
    (fresh : Fresh client) (run : Run reading client history last) :
    ∀ event ∈ history, event.output ≠ .error .messageOrder := by
  refine (run.keeps (fun history client => Fresh client ∧
    ∀ event ∈ history, event.output ≠ .error .messageOrder)
    ⟨fresh, fun _ missing => nomatch missing⟩ ?_ fun _ _ => True.intro).2
  rintro history event - stepped ⟨fresh, earlier⟩
  obtain ⟨stays, accepted⟩ := receive_fresh fresh stepped
  exact ⟨stays, List.forall_mem_cons.mpr ⟨accepted, earlier⟩⟩

/-- Envelopes in the order in which they were returned. -/
structure Sequenced (envelopes : List Envelope) : Prop where
  ids : (messageIds envelopes).Pairwise (· < ·)
  sequences : (inputNumbers envelopes).Pairwise (· < ·)
  /-- However much of the stream arrives, and whatever fails in between. -/
  accepted : ∀ (client last : ProducerClient) history,
    client.lastReceivedId = 0 →
    (upcoming client.io.incoming).Sublist envelopes →
    Run reading client history last →
    ∀ event ∈ history, event.output ≠ .error .messageOrder

/-- In a run that builds fewer than `2 ^ 32 - 1` envelopes, those that are
returned have increasing message ids and their input batches increasing
sequence numbers, so a producer that is sent them in order reads them all. -/
theorem outgoing_sequenced {setup : SessionSetup} {history : List SessionEvent}
    {final : Session} (run : SessionRun setup history final)
    (few : final.built < 2 ^ 32 - 1) : Sequenced (outgoing history) := by
  obtain ⟨first, fresh, orderly⟩ := run.orderly
  obtain ⟨numbered, isFirst, _⟩ := newSession_numbered fresh
  have messages := orderly.counts.messages few numbered
  have inputs := orderly.counts.inputs few numbered
  refine ⟨messages.increasing, inputs.increasing, ?_⟩
  intro client last reads none kept ran
  refine reads_in_order ⟨?_, ?_⟩ ran
  · exact messages.increasing.sublist (kept.map _)
  · intro id member
    have bounds := messages.within id ((kept.map _).subset member)
    omega

/-- A pen record at the corner of the panel. -/
def cornerRecord (phase : PointerPhase) : PointerRecord where
  device := wire PointerDevice.pen
  phase := wire phase
  flags := 0
  contactId := 0
  x1616 := 0
  y1616 := 0
  pressure := 0
  buttons := 0
  tiltX := 0
  tiltY := 0

/-- A stroke of two reports on a new surface, with an answer in between. -/
theorem outgoing_sequenced_stroke :
    ∃ setup history final, SessionRun setup history final ∧
      messageIds (outgoing history) = [1, 2, 3, 4, 5] ∧
      inputNumbers (outgoing history) = [1, 2] ∧
      Sequenced (outgoing history) := by
  have ran := @SessionSetup.ran (.gray 1 1 (fun _ => true)
      fun _ => some ⟨0, 0, 1⟩)
    [.penReports [[cornerRecord .up]] 5,
      grayMessage 3 (.ping 7) 4,
      .penReports [[cornerRecord .down]] 3,
      grayMessage 2 (grayOpen 1 [wire InputCapability.pen]) 2,
      grayMessage 1 (.clientHello (grayHello [.pointerInput])) 1,
      .setPenAvailable true]
    (fun history final => (messageIds (outgoing history) == [1, 2, 3, 4, 5]) &&
      (inputNumbers (outgoing history) == [1, 2]) && (final.built == 5))
    (by decide +kernel)
  obtain ⟨history, final, run, checked⟩ := ran
  simp only [Bool.and_eq_true, beq_iff_eq] at checked
  obtain ⟨⟨ids, sequences⟩, built⟩ := checked
  refine ⟨_, history, final, run, ids, sequences, ?_⟩
  exact outgoing_sequenced run (by omega)

end RmDisplay.Producer
