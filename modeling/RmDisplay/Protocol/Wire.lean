import RmDisplay.Foundation.Framing
import RmDisplay.Protocol.Message

/-!
# Wire framing

Envelopes travel as length-prefixed protobuf payloads.  The protobuf library is
external, so its functions are parameters.
-/

namespace RmDisplay.Protocol

open Foundation

/-- `b"RMD2"`. -/
def magic : Bytes := [0x52, 0x4d, 0x44, 0x32]

def headerLen : Nat := 8

def preHandshakeMaxPayload : Nat := 64 * 1024

def hardMaxPayload : Nat := 32 * 1024 * 1024

/-- The protobuf library, for envelopes. -/
structure Prost where
  encodedLen : Envelope → Nat
  encode : Envelope → Bytes
  decode : Bytes → Except String Envelope

inductive WireError where
  | invalidMagic
  | payloadTooLarge (actual limit : Nat)
  | decode (err : String)
  | encodeTooLarge
deriving DecidableEq, Repr

/-- The limit is private in the source and never above the hard one. -/
structure WireCodec where
  maxPayload : Nat
  bounded : maxPayload ≤ hardMaxPayload
deriving DecidableEq, Repr

/-- A 32-bit number, the most significant byte first. -/
def putU32 (number : Nat) : Bytes :=
  [UInt8.ofNat (number / 2 ^ 24), UInt8.ofNat (number / 2 ^ 16),
    UInt8.ofNat (number / 2 ^ 8), UInt8.ofNat number]

/-- `u32::from_be_bytes`. -/
def fromBeBytes (bytes : Bytes) : Nat :=
  bytes.foldl (fun number byte => number * 2 ^ 8 + byte.toNat) 0

namespace WireCodec

def new (maxPayload : Nat) : WireCodec where
  maxPayload := min maxPayload hardMaxPayload
  bounded := Nat.min_le_right _ _

def preHandshake : WireCodec := new preHandshakeMaxPayload

/-- Append an envelope to `dst`. -/
def encode (self : WireCodec) (prost : Prost) (envelope : Envelope)
    (dst : Bytes) : Except WireError Bytes :=
  let encodedLen := prost.encodedLen envelope
  if self.maxPayload < encodedLen then
    .error (.payloadTooLarge encodedLen self.maxPayload)
  else if u32Max < encodedLen then .error .encodeTooLarge
  else .ok (dst ++ magic ++ putU32 encodedLen ++ prost.encode envelope)

/-- Take an envelope from the front of `src`, with what is left of it. -/
def decode (self : WireCodec) (prost : Prost) (src : Bytes) :
    Except WireError (Option Envelope) × Bytes :=
  if src.length < headerLen then (.ok none, src)
  else if src.take 4 ≠ magic then (.error .invalidMagic, src)
  else
    let payloadLen := fromBeBytes ((src.drop 4).take 4)
    if self.maxPayload < payloadLen then
      (.error (.payloadTooLarge payloadLen self.maxPayload), src)
    else if src.length < headerLen + payloadLen then (.ok none, src)
    else
      let payload := (src.drop headerLen).take payloadLen
      let rest := src.drop (headerLen + payloadLen)
      match prost.decode payload with
      | .ok envelope => (.ok (some envelope), rest)
      | .error err => (.error (.decode err), rest)

end WireCodec

theorem fromBeBytes_putU32 {number : Nat} (small : number < 2 ^ 32) :
    fromBeBytes (putU32 number) = number := by
  simp only [fromBeBytes, putU32, List.foldl_cons, List.foldl_nil,
    UInt8.toNat_ofNat']
  omega

theorem putU32_fromBeBytes {bytes : Bytes} (four : bytes.length = 4) :
    putU32 (fromBeBytes bytes) = bytes ∧ fromBeBytes bytes < 2 ^ 32 := by
  obtain ⟨a, b, c, d, rfl⟩ : ∃ a b c d, bytes = [a, b, c, d] := by
    match bytes, four with
    | [a, b, c, d], _ => exact ⟨a, b, c, d, rfl⟩
  have boundA := a.toNat_lt
  have boundB := b.toNat_lt
  have boundC := c.toNat_lt
  have boundD := d.toNat_lt
  have byte (value : UInt8) (number : Nat)
      (same : number % 2 ^ 8 = value.toNat) : UInt8.ofNat number = value := by
    rw [← UInt8.toNat_inj, UInt8.toNat_ofNat', same]
  simp only [fromBeBytes, List.foldl_cons, List.foldl_nil]
  refine ⟨?_, by omega⟩
  unfold putU32
  rw [byte a _ (by omega), byte b _ (by omega), byte c _ (by omega),
    byte d _ (by omega)]

namespace WireCodec

/-- A header with the payload it announces. -/
def framed (payload : Bytes) : Bytes :=
  magic ++ putU32 payload.length ++ payload

theorem length_framed (payload : Bytes) :
    (framed payload).length = headerLen + payload.length := by
  simp [framed, magic, putU32, headerLen]
  omega

/-- What one call of `decode` did to the buffer. -/
inductive Takes (codec : WireCodec) (prost : Prost) (src : Bytes) :
    Except WireError (Option Envelope) × Bytes → Prop where
  | waits (short : src.length < headerLen ∨
      src.length < headerLen + fromBeBytes ((src.drop 4).take 4)) :
      Takes codec prost src (.ok none, src)
  | wrongMagic (long : headerLen ≤ src.length) (other : src.take 4 ≠ magic) :
      Takes codec prost src (.error .invalidMagic, src)
  | tooLarge {payloadLen : Nat} (long : headerLen ≤ src.length)
      (isMagic : src.take 4 = magic)
      (isLen : payloadLen = fromBeBytes ((src.drop 4).take 4))
      (large : codec.maxPayload < payloadLen) :
      Takes codec prost src
        (.error (.payloadTooLarge payloadLen codec.maxPayload), src)
  | taken {payload rest : Bytes} {envelope : Envelope}
      (front : src = framed payload ++ rest)
      (fits : payload.length ≤ codec.maxPayload)
      (decodes : prost.decode payload = .ok envelope) :
      Takes codec prost src (.ok (some envelope), rest)
  | malformed {payload rest : Bytes} {err : String}
      (front : src = framed payload ++ rest)
      (fits : payload.length ≤ codec.maxPayload)
      (fails : prost.decode payload = .error err) :
      Takes codec prost src (.error (.decode err), rest)

variable {codec : WireCodec} {prost : Prost} {src : Bytes}

theorem decode_takes (codec : WireCodec) (prost : Prost) (src : Bytes) :
    codec.Takes prost src (codec.decode prost src) := by
  unfold decode
  split
  · rename_i short
    exact .waits (.inl short)
  · rename_i long
    rw [Nat.not_lt] at long
    split
    · rename_i other
      exact .wrongMagic long other
    · rename_i isMagic
      rw [Decidable.not_not] at isMagic
      dsimp only
      split
      · rename_i large
        exact .tooLarge long isMagic rfl large
      · rename_i fits
        split
        · rename_i short
          exact .waits (.inr short)
        · rename_i complete
          rw [Nat.not_lt] at fits complete
          have fourBytes : ((src.drop 4).take 4).length = 4 := by
            simp only [headerLen] at long
            simp only [List.length_take, List.length_drop]
            omega
          have sameLen : ((src.drop headerLen).take
              (fromBeBytes ((src.drop 4).take 4))).length =
              fromBeBytes ((src.drop 4).take 4) := by
            simp only [List.length_take, List.length_drop]
            omega
          have front : src = framed ((src.drop headerLen).take
              (fromBeBytes ((src.drop 4).take 4))) ++
              src.drop (headerLen + fromBeBytes ((src.drop 4).take 4)) := by
            unfold framed
            rw [sameLen, (putU32_fromBeBytes fourBytes).1, ← isMagic]
            have body : src.drop headerLen = (src.drop headerLen).take
                  (fromBeBytes ((src.drop 4).take 4)) ++
                src.drop (headerLen + fromBeBytes ((src.drop 4).take 4)) := by
              rw [← List.drop_drop, List.take_append_drop]
            have tail : src.drop 4 =
                (src.drop 4).take 4 ++ src.drop headerLen := by
              have eight : src.drop headerLen = (src.drop 4).drop 4 := by
                rw [List.drop_drop]
                rfl
              rw [eight, List.take_append_drop]
            rw [List.append_assoc, List.append_assoc, ← body, ← tail,
              List.take_append_drop]
          split
          · rename_i envelope decodes
            exact .taken front (by rw [sameLen]; exact fits) decodes
          · rename_i err fails
            exact .malformed front (by rw [sameLen]; exact fits) fails

theorem decode_framed {payload : Bytes} (rest : Bytes)
    (fits : payload.length ≤ codec.maxPayload) :
    codec.decode prost (framed payload ++ rest) =
      match prost.decode payload with
      | .ok envelope => (.ok (some envelope), rest)
      | .error err => (.error (.decode err), rest) := by
  have bounded := codec.bounded
  have small : payload.length < 2 ^ 32 := by
    unfold hardMaxPayload at bounded
    omega
  have long := length_framed payload
  have isMagic : (framed payload ++ rest).take 4 = magic := by
    rw [framed, List.append_assoc, List.append_assoc]
    exact List.take_left' rfl
  have isLen : fromBeBytes (((framed payload ++ rest).drop 4).take 4) =
      payload.length := by
    have lenBytes : ((framed payload ++ rest).drop 4).take 4 =
        putU32 payload.length := rfl
    rw [lenBytes, fromBeBytes_putU32 small]
  have isPayload : ((framed payload ++ rest).drop headerLen).take
      payload.length = payload := by
    have tail : (framed payload ++ rest).drop headerLen = payload ++ rest := rfl
    rw [tail]
    exact List.take_left' rfl
  have isRest : (framed payload ++ rest).drop (headerLen + payload.length) =
      rest := by
    rw [← long]
    exact List.drop_left' rfl
  unfold decode
  rw [if_neg (by rw [List.length_append]; omega), if_neg (not_not_intro isMagic)]
  simp only [isLen]
  rw [if_neg (Nat.not_lt.mpr fits),
    if_neg (by rw [List.length_append]; omega), isPayload, isRest]

/-- The wire codec as a decoder of a stream. -/
def next (codec : WireCodec) (prost : Prost) (src : Bytes) :
    Decoded UInt8 WireError Envelope :=
  match codec.decode prost src with
  | (.ok none, _) => .needMore
  | (.ok (some envelope), rest) => .item envelope rest
  | (.error err, rest) => .failed err rest

theorem next_eq_item {envelope : Envelope} {rest : Bytes}
    (takes : codec.next prost src = .item envelope rest) :
    ∃ payload, src = framed payload ++ rest ∧
      payload.length ≤ codec.maxPayload ∧
      prost.decode payload = .ok envelope := by
  have did := decode_takes codec prost src
  unfold next at takes
  generalize codec.decode prost src = result at did takes
  cases did with
  | waits _ | wrongMagic _ _ | tooLarge _ _ _ _ | malformed _ _ _ =>
      cases takes
  | taken front fits decodes =>
      cases takes
      exact ⟨_, front, fits, decodes⟩

theorem next_framed {payload : Bytes} (rest : Bytes)
    (fits : payload.length ≤ codec.maxPayload) :
    codec.next prost (framed payload ++ rest) =
      match prost.decode payload with
      | .ok envelope => .item envelope rest
      | .error err => .failed (.decode err) rest := by
  rw [next, decode_framed rest fits]
  cases prost.decode payload <;> rfl

theorem next_failed_append {err : WireError} {rest : Bytes} (more : Bytes)
    (fails : codec.next prost src = .failed err rest) :
    codec.next prost (src ++ more) = .failed err (rest ++ more) := by
  have did := decode_takes codec prost src
  unfold next at fails
  generalize codec.decode prost src = result at did fails
  cases did with
  | waits _ | taken _ _ _ => cases fails
  | wrongMagic long other =>
      cases fails
      have sameFront : (src ++ more).take 4 = src.take 4 :=
        List.take_append_of_le_length (by unfold headerLen at long; omega)
      unfold next decode
      rw [if_neg (by rw [List.length_append]; omega), sameFront, if_pos other]
  | tooLarge long isMagic isLen large =>
      cases fails
      unfold headerLen at long
      have sameFront : (src ++ more).take 4 = src.take 4 :=
        List.take_append_of_le_length (by omega)
      have sameLen : ((src ++ more).drop 4).take 4 = (src.drop 4).take 4 := by
        rw [List.drop_append_of_le_length (by omega)]
        exact List.take_append_of_le_length (by rw [List.length_drop]; omega)
      subst isLen
      unfold next decode
      rw [if_neg (by rw [List.length_append]; unfold headerLen; omega),
        sameFront, if_neg (not_not_intro isMagic)]
      simp only [sameLen]
      rw [if_pos large]
  | malformed front fits notDecoded =>
      cases fails
      rw [front, List.append_assoc, next_framed _ fits, notDecoded]

/-- The decoder never changes its mind when more data arrives. -/
def decoder (codec : WireCodec) (prost : Prost) :
    Decoder UInt8 WireError Envelope where
  next := codec.next prost
  empty := rfl
  shrinks := by
    intro buffer rest envelope takes
    obtain ⟨payload, front, _, _⟩ := next_eq_item takes
    rw [front, List.length_append, length_framed]
    unfold headerLen
    omega
  item_append := by
    intro buffer rest envelope more takes
    obtain ⟨payload, front, fits, decodes⟩ := next_eq_item takes
    rw [front, List.append_assoc, next_framed _ fits, decodes]
  failed_append := next_failed_append

end WireCodec

/-- Envelopes written one after the other. -/
def WireCodec.encodeAll (codec : WireCodec) (prost : Prost)
    (envelopes : List Envelope) (dst : Bytes) : Except WireError Bytes :=
  envelopes.foldlM (fun dst envelope => codec.encode prost envelope dst) dst

/-- The protobuf library reads back the envelope it wrote and knows its
length. -/
structure Prost.Reads (prost : Prost) (envelope : Envelope) : Prop where
  length : (prost.encode envelope).length = prost.encodedLen envelope
  decodes : prost.decode (prost.encode envelope) = .ok envelope

/-- What a buffer gives depends on its bytes alone: not on the way they are
split, and longer ones give more. -/
structure WireCodec.Chunkable (codec : WireCodec) (prost : Prost) : Prop where
  chunks : ∀ chunks : List Bytes,
    (codec.decoder prost).feedAll chunks =
      (codec.decoder prost).drain chunks.flatten
  longer : ∀ stream more : Bytes,
    ((codec.decoder prost).drain (stream ++ more)).Extends
      ((codec.decoder prost).drain stream)
  takes : ∀ src, codec.Takes prost src (codec.decode prost src)
  written : ∀ envelopes : List Envelope,
    (∀ envelope ∈ envelopes, prost.Reads envelope ∧
      prost.encodedLen envelope ≤ codec.maxPayload) →
    ∃ stream, codec.encodeAll prost envelopes [] = .ok stream ∧
      (codec.decoder prost).drain stream = { items := envelopes }

theorem WireCodec.encodeAll_eq {codec : WireCodec} {prost : Prost}
    {envelopes : List Envelope} {dst : Bytes}
    (fit : ∀ envelope ∈ envelopes, prost.Reads envelope ∧
      prost.encodedLen envelope ≤ codec.maxPayload) :
    codec.encodeAll prost envelopes dst =
      .ok (dst ++ envelopes.flatMap fun envelope =>
        framed (prost.encode envelope)) := by
  induction envelopes generalizing dst with
  | nil => simp [encodeAll, pure, Except.pure]
  | cons envelope envelopes induction =>
      obtain ⟨reads, fits⟩ := fit envelope List.mem_cons_self
      have bounded := codec.bounded
      have small : ¬ u32Max < prost.encodedLen envelope := by
        unfold hardMaxPayload at bounded
        unfold u32Max
        omega
      have encoded : codec.encode prost envelope dst =
          .ok (dst ++ framed (prost.encode envelope)) := by
        rw [encode, if_neg (Nat.not_lt.mpr fits), if_neg small, framed,
          reads.length, List.append_assoc, List.append_assoc]
        simp only [List.append_assoc]
      have later := @induction (dst ++ framed (prost.encode envelope))
        fun other member => fit other (List.mem_cons_of_mem _ member)
      rw [encodeAll, List.foldlM_cons, encoded]
      change codec.encodeAll prost envelopes _ = _
      rw [later, List.flatMap_cons, List.append_assoc]

/-- Framing does not depend on the chunks a stream arrives in. -/
theorem chunkable_of_limit (maxPayload : Nat) (prost : Prost) :
    (WireCodec.new maxPayload).Chunkable prost where
  chunks := Decoder.feedAll_eq
  longer := Decoder.drain_extends
  takes := WireCodec.decode_takes _ prost
  written := by
    intro envelopes fit
    refine ⟨_, WireCodec.encodeAll_eq fit, ?_⟩
    rw [List.nil_append]
    refine Decoder.drain_flatMap fun envelope member rest => ?_
    obtain ⟨reads, fits⟩ := fit envelope member
    rw [← reads.length] at fits
    have taken := @WireCodec.next_framed (.new maxPayload) prost
      (prost.encode envelope) rest fits
    rw [reads.decodes] at taken
    exact taken

/-- The ping of the shared fixture. -/
def pingEnvelope : Envelope := ⟨0x0102030405060708, 42, some (.ping 0x1122334455667788)⟩

def pingPayload : Bytes :=
  [0x09, 0x08, 0x07, 0x06, 0x05, 0x04, 0x03, 0x02, 0x01, 0x10, 0x2a, 0x62, 0x09,
    0x09, 0x88, 0x77, 0x66, 0x55, 0x44, 0x33, 0x22, 0x11]

/-- What the protobuf library does to the fixture. -/
def pingProst : Prost where
  encodedLen := fun _ => pingPayload.length
  encode := fun _ => pingPayload
  decode := fun bytes =>
    if bytes = pingPayload then .ok pingEnvelope else .error "not the fixture"

/-- Two pings in one stream stay apart, wherever it is split. -/
theorem chunkable_pings (first : Nat) :
    ∃ stream, WireCodec.preHandshake.encodeAll pingProst
        [pingEnvelope, pingEnvelope] [] = .ok stream ∧
      (WireCodec.preHandshake.decoder pingProst).feedAll
        [stream.take first, stream.drop first] =
          { items := [pingEnvelope, pingEnvelope] } := by
  have chunkable := chunkable_of_limit preHandshakeMaxPayload pingProst
  obtain ⟨stream, encoded, drained⟩ :=
    chunkable.written [pingEnvelope, pingEnvelope] (by
      intro envelope member
      have same : envelope = pingEnvelope := by simpa using member
      subst same
      exact ⟨⟨rfl, rfl⟩, by decide⟩)
  refine ⟨stream, encoded, ?_⟩
  have chunks := chunkable.chunks [stream.take first, stream.drop first]
  have whole : [stream.take first, stream.drop first].flatten = stream := by
    simp
  rw [whole, drained] at chunks
  exact chunks

end RmDisplay.Protocol
