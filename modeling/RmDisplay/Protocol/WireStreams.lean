import RmDisplay.Foundation.Handover
import RmDisplay.Protocol.Wire

/-!
# Streams of envelopes

What is written to a stream does not depend on the limit of the codec that
wrote it, so any codec with room enough reads it back.
-/

namespace RmDisplay.Protocol

open Foundation

namespace Prost

variable (prost : Prost)

/-- An envelope as it stands in a stream. -/
def message (envelope : Envelope) : Bytes :=
  magic ++ putU32 (prost.encodedLen envelope) ++ prost.encode envelope

def stream (envelopes : List Envelope) : Bytes := envelopes.flatMap prost.message

@[simp] theorem stream_append (envelopes more : List Envelope) :
    prost.stream (envelopes ++ more) =
      prost.stream envelopes ++ prost.stream more :=
  List.flatMap_append

end Prost

namespace WireCodec

variable {codec : WireCodec} {prost : Prost}

theorem encode_eq_ok {envelope : Envelope} {dst output : Bytes}
    (encoded : codec.encode prost envelope dst = .ok output) :
    output = dst ++ prost.message envelope ∧
      prost.encodedLen envelope ≤ codec.maxPayload := by
  unfold encode at encoded
  dsimp only at encoded
  split at encoded
  · cases encoded
  · rename_i fits
    split at encoded
    · cases encoded
    · cases encoded
      refine ⟨?_, Nat.not_lt.mp fits⟩
      simp only [Prost.message, List.append_assoc]

theorem encodeAll_eq_ok {envelopes : List Envelope} {dst output : Bytes}
    (encoded : codec.encodeAll prost envelopes dst = .ok output) :
    output = dst ++ prost.stream envelopes ∧
      ∀ envelope ∈ envelopes, prost.encodedLen envelope ≤ codec.maxPayload := by
  induction envelopes generalizing dst with
  | nil =>
      cases encoded
      exact ⟨(List.append_nil _).symm, List.forall_mem_nil _⟩
  | cons envelope envelopes induction =>
      rw [encodeAll, List.foldlM_cons] at encoded
      cases isFirst : codec.encode prost envelope dst with
      | error err =>
          rw [isFirst] at encoded
          cases encoded
      | ok between =>
          rw [isFirst] at encoded
          obtain ⟨rfl, fits⟩ := encode_eq_ok isFirst
          obtain ⟨rfl, later⟩ := induction encoded
          refine ⟨?_, List.forall_mem_cons.mpr ⟨fits, later⟩⟩
          rw [List.append_assoc]
          rfl

theorem drain_stream {envelopes : List Envelope}
    (fit : ∀ envelope ∈ envelopes, prost.Reads envelope ∧
      prost.encodedLen envelope ≤ codec.maxPayload) :
    (codec.decoder prost).drain (prost.stream envelopes) =
      { items := envelopes } := by
  apply Decoder.drain_flatMap
  intro envelope member rest
  obtain ⟨reads, fits⟩ := fit envelope member
  have isMessage : prost.message envelope = framed (prost.encode envelope) := by
    rw [Prost.message, framed, reads.length]
  rw [← reads.length] at fits
  have taken := @next_framed codec prost (prost.encode envelope) rest fits
  rw [reads.decodes] at taken
  rw [isMessage]
  exact taken

/-- A stream that breaks off is read as far as it goes, without an error. -/
theorem drain_torn {envelopes due : List Envelope}
    (fit : ∀ envelope ∈ envelopes ++ due, prost.Reads envelope ∧
      prost.encodedLen envelope ≤ codec.maxPayload) {torn : Bytes}
    (front : torn <+: prost.stream due) :
    ∃ read rest, (codec.decoder prost).drain (prost.stream envelopes ++ torn) =
      { items := envelopes ++ read, buffer := rest } ∧ read <+: due := by
  obtain ⟨missing, whole⟩ := front
  have longer := (codec.decoder prost).drain_extends
    (prost.stream envelopes ++ torn) missing
  rw [List.append_assoc, whole, ← prost.stream_append, drain_stream fit]
    at longer
  have started := (codec.decoder prost).drain_append (prost.stream envelopes)
    torn
  rw [drain_stream fun envelope member => fit envelope
    (List.mem_append_left _ member)] at started
  change _ = ((codec.decoder prost).drain torn).after envelopes at started
  rw [started] at longer ⊢
  refine ⟨((codec.decoder prost).drain torn).items,
    ((codec.decoder prost).drain torn).buffer, ?_, ?_⟩
  · cases failed : ((codec.decoder prost).drain torn).failure with
    | none => simp [Drained.after, failed]
    | some err =>
        have impossible := (longer.failed err failed).1
        cases impossible
  · exact (List.prefix_append_right_inj _).mp longer.items

theorem length_of_needMore {src : Bytes}
    (waits : codec.next prost src = .needMore) :
    src.length < headerLen + codec.maxPayload := by
  unfold next decode at waits
  split at waits
  · rename_i result outcome
    split at outcome
    · rename_i short
      omega
    · split at outcome
      · cases outcome
      · dsimp only at outcome
        split at outcome
        · cases outcome
        · rename_i fits
          split at outcome
          · rename_i short
            omega
          · split at outcome <;> cases outcome
  · cases waits
  · cases waits

end WireCodec

end RmDisplay.Protocol
