import RmDisplay.Foundation.Triples
import RmDisplay.Protocol.WireStreams
import RmDisplay.Receiver.Connection
import RmDisplay.Receiver.FrameResults
import RmDisplay.Receiver.NumberingRuns

/-!
# What a connection does

The loop of a connection is a run of its session, if the application passes on
what its calls return.  Everything the operations return is written in their
order, and the envelopes handled are the first ones of the bytes received.
-/

namespace RmDisplay.Receiver

open Foundation Protocol RmDisplay.Core

/-- The envelopes handled in a run, in order. -/
def heardIn (history : List SessionEvent) : List Envelope :=
  history.reverse.filterMap (·.input.heard)

/-- How many envelopes were handled since the last poll. -/
def crowd : List SessionEvent → Nat
  | [] => 0
  | event :: older =>
      match event.input with
      | .poll _ => 0
      | .handle _ _ | .handleDeferred _ _ => crowd older + 1
      | _ => crowd older

/-- Between two polls at most eight envelopes are handled. -/
def Paced (history : List SessionEvent) : Prop :=
  ∀ older, older <:+ history → crowd older ≤ 8

section

variable {event : SessionEvent} {older newer : List SessionEvent}

theorem outgoing_cons (event : SessionEvent) (older : List SessionEvent) :
    outgoing (event :: older) = outgoing older ++ event.envelopes := by
  simp [outgoing]

theorem outgoing_append (newer older : List SessionEvent) :
    outgoing (newer ++ older) = outgoing older ++ outgoing newer := by
  simp [outgoing]

theorem heardIn_silent (silent : event.input.heard = none)
    (older : List SessionEvent) : heardIn (event :: older) = heardIn older := by
  simp [heardIn, silent]

theorem heardIn_cons {envelope : Envelope}
    (heard : event.input.heard = some envelope) (older : List SessionEvent) :
    heardIn (event :: older) = heardIn older ++ [envelope] := by
  simp [heardIn, heard]

theorem crowd_silent (silent : event.input.heard = none)
    (older : List SessionEvent) : crowd (event :: older) ≤ crowd older := by
  obtain ⟨before, input, output, after⟩ := event
  cases input with
  | handle | handleDeferred => cases silent
  | poll => exact Nat.zero_le _
  | _ => exact Nat.le_refl _

theorem Paced.nil : Paced [] := by
  intro older suffix
  rw [List.suffix_nil.mp suffix]
  exact Nat.zero_le 8

theorem Paced.cons (paced : Paced older) (few : crowd (event :: older) ≤ 8) :
    Paced (event :: older) := by
  intro earlier suffix
  rcases List.suffix_cons_iff.mp suffix with rfl | suffix
  · exact few
  · exact paced earlier suffix

theorem Paced.silent (paced : Paced older) (silent : event.input.heard = none) :
    Paced (event :: older) := by
  apply paced.cons
  exact (crowd_silent silent older).trans (paced older (List.suffix_refl older))

theorem SessionRun.step {setup : SessionSetup} {before after : Session}
    {op : SessionOp} {output : Except SessionError (List Envelope)}
    (run : SessionRun setup older before)
    (stepped : sessionStep before op output after) :
    SessionRun setup (⟨before, op, output, after⟩ :: older) after := by
  obtain ⟨first, fresh, run⟩ := run
  exact ⟨first, fresh, .snoc run stepped⟩

/-- A session that has greeted its producer stays so. -/
theorem SessionRun.established {setup : SessionSetup} {before after : Session}
    {op : SessionOp} {output : Except SessionError (List Envelope)}
    (run : SessionRun setup older before)
    (stepped : sessionStep before op output after)
    (greeted : before.established = true) : after.established = true := by
  obtain ⟨left, acts⟩ := (run.step stepped).acts_of_mem List.mem_cons_self
  apply acts.steps.keeps (fun station => station.face.established = true)
  · intro station next done step held
    obtain ⟨_, ⟨same, _⟩ | ⟨unborn, _⟩⟩ := step.terms
    · rw [same]
      exact held
    · rw [unborn] at held
      cases held
  · exact greeted

end

namespace Session

theorem acceptHello_establishes {hello : ClientHello} {before after : Session}
    {answer : Envelope}
    (runs : (acceptHello hello).Runs before (.ok answer) after) :
    after.established = true := by
  simp only [acceptHello, Proc.runs_get_bind, Proc.runs_ofRes_bind] at runs
  obtain ⟨_, _, ⟨selectedMinor, _, runs⟩ | ⟨_, _, failed, _⟩⟩ |
    ⟨_, _, failed, _⟩ := runs
  · rw [Proc.runs_set_bind] at runs
    simp only [wrap, Proc.runs_get_bind, Proc.runs_set_bind,
      Proc.runs_pure] at runs
    rw [runs.2]
    rfl
  · cases failed
  · cases failed

theorem handleFirst_establishes {body : Body} {before after : Session}
    {answers : List Envelope}
    (runs : (handleFirst body).Runs before (.ok answers) after) :
    after.established = true := by
  unfold handleFirst at runs
  split at runs
  · rcases Proc.runs_bind.mp runs with ⟨answer, between, ran, last⟩ | ⟨_, failed, _⟩
    · obtain ⟨_, rfl⟩ := Proc.runs_pure.mp last
      exact acceptHello_establishes ran
    · cases failed
  · cases (Proc.runs_throw.mp runs).1

theorem protocolError_runs {panelText : String} {err : SessionError}
    {messageId : Nat} {before after : Session}
    {output : Except SessionError Envelope}
    (runs : (protocolError panelText err messageId).Runs before output after) :
    ∃ answer : Envelope, output = .ok answer ∧
      answer.body = some (err.body panelText messageId) ∧
      Orderly before [answer] after := by
  have plain : Numberless (err.body panelText messageId) := ⟨rfl, rfl⟩
  have steady := wrap_steady plain before output after runs
  obtain ⟨_, rfl⟩ := wrap_runs runs
  exact ⟨_, rfl, rfl, steady.lively.toOrderly⟩

theorem handleInner_establishes {setup : SessionSetup}
    {older : List SessionEvent} {before after : Session} {envelope : Envelope}
    {now : Duration} {responses : List Envelope}
    (run : SessionRun setup older before)
    (runs : (handleInner envelope now false).Runs before (.ok responses) after) :
    after.established = true := by
  cases greeted : before.established with
  | true =>
      have stepped : sessionStep before (.handleDeferred envelope now)
          (.ok responses) after := runs
      exact run.established stepped greeted
  | false =>
      rcases Proc.runs_bind.mp runs with
        ⟨_, middle, checked, runs⟩ | ⟨_, failed, _⟩
      · obtain ⟨_, _, _, holds⟩ :=
          @validateEnvelopeHeader_does before {} envelope run.sound _ _ checked
        obtain ⟨isMiddle, _, _⟩ := holds _ rfl
        have isFresh : middle.established = false := by
          rw [isMiddle]
          exact greeted
        rw [Proc.runs_get_bind] at runs
        split at runs
        · cases (Proc.runs_throw.mp runs).1
        · simp only [isFresh, Bool.false_eq_true, if_false] at runs
          rcases Proc.runs_bind.mp runs with ⟨_, _, first, last⟩ | ⟨_, failed, _⟩
          · obtain ⟨_, rfl⟩ := Proc.runs_pure.mp last
            exact handleFirst_establishes first
          · cases failed
      · cases failed

end Session

section

variable {ω α : Type} {pre : Connection ω → Prop}
  {fails : ServerError → Connection ω → Prop}

theorem Triple.ask {question : ω → α × ω}
    (holds : ∀ conn world, pre conn → pre { conn with world }) :
    Triple pre (Receiver.ask question) (fun _ => pre) fails := by
  intro before output after held runs
  cases output with
  | ok answer =>
      cases runs
      exact holds before _ held
  | error err => cases runs

theorem onSession_runs {proc : SessionProc α} {before after : Connection ω}
    {output : Except ServerError α}
    (runs : (onSession proc).Runs before output after) :
    ∃ given session, proc.Runs before.session given session ∧
      after = { before with session } ∧
      output = given.mapError ServerError.session := by
  obtain ⟨given, session, ran, rfl, isOutput⟩ := Proc.runs_zoom.mp runs
  refine ⟨given, session, ran, rfl, isOutput.trans ?_⟩
  cases given <;> rfl

end

namespace Server

variable {ω : Type} (server : Server ω)

/-- The limit of every codec the server uses. -/
def limit : Nat :=
  max WireCodec.preHandshake.maxPayload server.lateCodec.maxPayload

/-- The codec after some envelopes were handled. -/
def codecAfter : List Envelope → WireCodec
  | [] => .preHandshake
  | _ :: _ => server.lateCodec

/-- What some bytes give: the first envelope before the handshake and the others
after it. -/
def decoded (received : Bytes) : Drained UInt8 WireError Envelope :=
  Decoder.drainThen (WireCodec.preHandshake.decoder server.prost)
    (server.lateCodec.decoder server.prost) received

/-- The answers to the operations in `newer` are not written yet. -/
structure Tracks (older newer : List SessionEvent) (heard : List Envelope)
    (conn : Connection ω) : Prop where
  run : SessionRun server.setup (newer ++ older) conn.session
  succeeded : ∀ event ∈ newer ++ older, event.Succeeds
  paced : Paced (newer ++ older)
  reading : Decoder.Reading (WireCodec.preHandshake.decoder server.prost)
    (server.lateCodec.decoder server.prost) conn.received heard conn.input
  greeted : heardIn (newer ++ older) ≠ [] → conn.session.established = true
  codec : conn.codec = .preHandshake ∨ conn.codec = server.lateCodec
  sent : conn.sent = server.prost.stream (outgoing older)
  fits : ∀ envelope ∈ outgoing older,
    server.prost.encodedLen envelope ≤ server.limit

/-- Every envelope that was decoded is handled. -/
structure Owes (older newer : List SessionEvent) (conn : Connection ω) :
    Prop where
  tracks : server.Tracks older newer (heardIn (newer ++ older)) conn
  codec : conn.codec = server.codecAfter (heardIn (newer ++ older))

/-- What was due when a write failed, if that was the error. -/
def Broken (err : ServerError) (envelopes due : List Envelope) : Prop :=
  due = [] ∨ due = envelopes ∧ ∃ text, err = .io text

/-- What became of the answers to the latest operations, and of an envelope
that could not be handled.  The operations left the session at `session`, and
the connection at `last`; the producer was sent the `farewell`, and at most a
part of what was `due`. -/
inductive Farewell (server : Server ω) : ServerError → List SessionEvent →
    (session last : Session) → (farewell due : List Envelope) → Prop where
  /-- No operation failed. -/
  | stopped {err : ServerError} {newer : List SessionEvent}
      {session : Session} {due : List Envelope}
      (broken : ∀ failure, err ≠ .session failure)
      (succeeded : ∀ event ∈ newer, event.Succeeds)
      (owed : Broken err (outgoing newer) due) :
      Farewell server err newer session session [] due
  /-- An operation failed that handles no envelope. -/
  | failed {event : SessionEvent} {newer : List SessionEvent}
      {failure : SessionError} {session : Session}
      (silent : event.input.heard = none)
      (failed : event.output = .error failure) :
      Farewell server (.session failure) (event :: newer) session session [] []
  /-- An envelope failed, and the stream when the producer was to be told. -/
  | unwritten {err : ServerError} {event : SessionEvent}
      {envelope answer : Envelope} {failure : SessionError}
      {session last : Session} {due : List Envelope}
      (broken : ∀ failure, err ≠ .session failure)
      (heard : event.input.heard = some envelope)
      (failed : event.output = .error failure)
      (tells : (Session.protocolError server.panelText failure
        envelope.messageId).Runs session (.ok answer) last)
      (owed : Broken err [answer] due) :
      Farewell server err [event] session last [] due
  /-- The producer is told why its envelope failed. -/
  | told {event : SessionEvent} {envelope answer : Envelope}
      {failure : SessionError} {session last : Session}
      (heard : event.input.heard = some envelope)
      (failed : event.output = .error failure)
      (tells : (Session.protocolError server.panelText failure
        envelope.messageId).Runs session (.ok answer) last)
      (isError : answer.body =
        some (failure.body server.panelText envelope.messageId)) :
      Farewell server (.session failure) [event] session last [answer] []

/-- What a connection did up to now; `newer` are operations whose answers were
not written as a whole, the latest of which may have failed. -/
structure Relays (older newer : List SessionEvent) (session : Session)
    (farewell due : List Envelope) (conn : Connection ω) : Prop where
  run : SessionRun server.setup (newer ++ older) session
  succeeded : ∀ event ∈ older, event.Succeeds
  latest : ∀ event ∈ newer.tail, event.Succeeds
  paced : Paced (newer ++ older)
  numbered : ∃ first, server.setup.newSession = .ok first ∧
    Orderly first (outgoing older ++ farewell ++ due) conn.session
  front : heardIn (newer ++ older) <+: (server.decoded conn.received).items
  sent : ∃ torn, torn <+: server.prost.stream due ∧
    conn.sent = server.prost.stream (outgoing older ++ farewell) ++ torn
  fits : ∀ envelope ∈ outgoing older ++ farewell ++ due,
    server.prost.encodedLen envelope ≤ server.limit

/-- A connection that ended with an error. -/
def Ended (err : ServerError) (conn : Connection ω) : Prop :=
  ∃ older newer session farewell due,
    server.Relays older newer session farewell due conn ∧
      server.Farewell err newer session conn.session farewell due

variable {server} {older newer : List SessionEvent} {heard : List Envelope}
  {conn : Connection ω}

namespace Tracks

theorem world (tracks : server.Tracks older newer heard conn) (world : ω) :
    server.Tracks older newer heard { conn with world } :=
  ⟨tracks.run, tracks.succeeded, tracks.paced, tracks.reading, tracks.greeted,
    tracks.codec, tracks.sent, tracks.fits⟩

theorem small (tracks : server.Tracks older newer heard conn) :
    conn.codec.maxPayload ≤ server.limit := by
  rcases tracks.codec with same | same
  · rw [same]
    exact Nat.le_max_left _ _
  · rw [same]
    exact Nat.le_max_right _ _

theorem relays
    (tracks : server.Tracks older newer (heardIn (newer ++ older)) conn)
    {due : List Envelope} (owed : due = [] ∨ due = outgoing newer)
    (small : ∀ envelope ∈ due,
      server.prost.encodedLen envelope ≤ conn.codec.maxPayload)
    {torn : Bytes} (front : torn <+: server.prost.stream due) (world : ω) :
    server.Relays older newer conn.session [] due
      { conn with world, sent := conn.sent ++ torn } where
  run := tracks.run
  succeeded := fun event member =>
    tracks.succeeded event (List.mem_append_right _ member)
  latest := fun event member => tracks.succeeded event
    (List.mem_append_left _ (List.mem_of_mem_tail member))
  paced := tracks.paced
  numbered := by
    obtain ⟨first, fresh, orderly⟩ := tracks.run.orderly
    rw [outgoing_append] at orderly
    refine ⟨first, fresh, orderly.drop ?_⟩
    rw [List.append_nil]
    rcases owed with rfl | rfl
    · rw [List.append_nil]
      exact List.sublist_append_left _ _
    · exact List.Sublist.refl _
  front := tracks.reading.front
  sent := ⟨torn, front, by rw [List.append_nil, tracks.sent]⟩
  fits := by
    intro envelope member
    rw [List.append_nil] at member
    rcases List.mem_append.mp member with old | new
    · exact tracks.fits envelope old
    · exact (small envelope new).trans tracks.small

end Tracks

theorem Owes.world (owes : server.Owes older newer conn) (world : ω) :
    server.Owes older newer { conn with world } :=
  ⟨owes.tracks.world world, owes.codec⟩

theorem Tracks.broken
    (tracks : server.Tracks older newer (heardIn (newer ++ older)) conn)
    {err : ServerError} (broken : ∀ failure, err ≠ .session failure)
    {due : List Envelope} (owed : Broken err (outgoing newer) due)
    (small : ∀ envelope ∈ due,
      server.prost.encodedLen envelope ≤ conn.codec.maxPayload)
    {torn : Bytes} (front : torn <+: server.prost.stream due) (world : ω) :
    server.Ended err { conn with world, sent := conn.sent ++ torn } := by
  refine ⟨older, newer, _, [], due,
    tracks.relays (owed.imp_right (·.1)) small front world,
    .stopped broken ?_ owed⟩
  intro event member
  exact tracks.succeeded event (List.mem_append_left _ member)

/-- The connection ends while all operations have succeeded. -/
theorem Owes.ended (owes : server.Owes older newer conn) {err : ServerError}
    (broken : ∀ failure, err ≠ .session failure) : server.Ended err conn := by
  have ended := owes.tracks.broken broken (.inl rfl)
    (List.forall_mem_nil _) List.nil_prefix conn.world
  rw [List.append_nil] at ended
  exact ended

theorem Ended.world {err : ServerError} (ended : server.Ended err conn)
    (world : ω) : server.Ended err { conn with world } := by
  obtain ⟨older, newer, session, farewell, due, relays, farewells⟩ := ended
  exact ⟨older, newer, session, farewell, due, ⟨relays.run, relays.succeeded,
    relays.latest, relays.paced, relays.numbered, relays.front, relays.sent,
    relays.fits⟩, farewells⟩

/-- Operations without answers owe nothing. -/
theorem Owes.quiet (owes : server.Owes older newer conn)
    (quiet : outgoing newer = []) : server.Owes (newer ++ older) [] conn := by
  obtain ⟨tracks, codec⟩ := owes
  have same : outgoing (newer ++ older) = outgoing older := by
    rw [outgoing_append, quiet, List.append_nil]
  refine ⟨⟨tracks.run, tracks.succeeded, tracks.paced, tracks.reading,
    tracks.greeted, tracks.codec, ?_, ?_⟩, codec⟩
  · rw [same]
    exact tracks.sent
  · rw [same]
    exact tracks.fits

/-- An operation that handles no envelope succeeds. -/
theorem Owes.step (owes : server.Owes older newer conn) {op : SessionOp}
    {envelopes : List Envelope} {after : Session} (silent : op.heard = none)
    (stepped : sessionStep conn.session op (.ok envelopes) after) :
    server.Owes older (⟨conn.session, op, .ok envelopes, after⟩ :: newer)
      { conn with session := after } := by
  obtain ⟨tracks, codec⟩ := owes
  have same : heardIn (⟨conn.session, op, .ok envelopes, after⟩ :: newer ++
      older) = heardIn (newer ++ older) := heardIn_silent silent _
  refine ⟨⟨tracks.run.step stepped, ?_, tracks.paced.silent silent, ?_, ?_,
    tracks.codec, tracks.sent, tracks.fits⟩, ?_⟩
  · exact List.forall_mem_cons.mpr ⟨⟨envelopes, rfl⟩, tracks.succeeded⟩
  · rw [same]
    exact tracks.reading
  · rw [same]
    exact fun some => tracks.run.established stepped (tracks.greeted some)
  · rw [same]
    exact codec

/-- An operation that handles no envelope fails. -/
theorem Owes.fails (owes : server.Owes older newer conn) {op : SessionOp}
    {err : SessionError} {after : Session} (silent : op.heard = none)
    (stepped : sessionStep conn.session op (.error err) after) :
    server.Ended (.session err) { conn with session := after } := by
  have tracks := owes.tracks
  have relays := tracks.relays (.inl rfl) (List.forall_mem_nil _)
    List.nil_prefix conn.world
  have same : heardIn (⟨conn.session, op, .error err, after⟩ :: newer ++
      older) = heardIn (newer ++ older) := heardIn_silent silent _
  have counted : Orderly conn.session [] after :=
    Session.operation_orderly op conn.session _ after stepped
  obtain ⟨first, fresh, orderly⟩ := relays.numbered
  refine ⟨older, ⟨conn.session, op, .error err, after⟩ :: newer, after, [], [],
    ⟨tracks.run.step stepped, relays.succeeded, ?_, tracks.paced.silent silent,
      ⟨first, fresh, ?_⟩, ?_, ⟨[], List.nil_prefix, ?_⟩, relays.fits⟩,
    .failed silent rfl⟩
  · intro event member
    exact tracks.succeeded event (List.mem_append_left _ member)
  · have joined := orderly.trans counted
    rw [List.append_nil] at joined
    exact joined
  · rw [same]
    exact relays.front
  · simp [tracks.sent]

theorem writeEnvelopes_runs {envelopes : List Envelope}
    {before after : Connection ω} {output : Except ServerError Unit}
    (runs : (server.writeEnvelopes envelopes).Runs before output after) :
    ∃ world, (output = .ok () ∧ after = { before with
          world, sent := before.sent ++ server.prost.stream envelopes } ∧
        ∀ envelope ∈ envelopes,
          server.prost.encodedLen envelope ≤ before.codec.maxPayload) ∨
      ∃ err due torn, output = .error err ∧
        (∀ failure, err ≠ .session failure) ∧ Broken err envelopes due ∧
        (∀ envelope ∈ due,
          server.prost.encodedLen envelope ≤ before.codec.maxPayload) ∧
        torn <+: server.prost.stream due ∧
        after = { before with world, sent := before.sent ++ torn } := by
  rw [writeEnvelopes, Proc.runs_get_bind] at runs
  split at runs
  · obtain ⟨rfl, rfl⟩ := Proc.runs_throw.mp runs
    exact ⟨after.world, .inr ⟨_, [], [], rfl, fun _ same => (by cases same),
      .inl rfl, List.forall_mem_nil _, List.nil_prefix,
      by rw [List.append_nil]⟩⟩
  · rename_i bytes encoded
    obtain ⟨isStream, fits⟩ := WireCodec.encodeAll_eq_ok encoded
    rw [List.nil_append] at isStream
    split at runs
    · rename_i empty
      obtain ⟨rfl, rfl⟩ := Proc.runs_pure.mp runs
      refine ⟨after.world, .inl ⟨rfl, ?_, fits⟩⟩
      rw [← isStream, empty, List.append_nil]
    · rcases Proc.runs_bind.mp runs with
        ⟨answer, between, asked, runs⟩ | ⟨err, _, asked⟩
      · cases asked
        split at runs
        · rw [Proc.runs_modify_bind] at runs
          obtain ⟨rfl, rfl⟩ := Proc.runs_throw.mp runs
          refine ⟨_, .inr ⟨_, envelopes, _, rfl,
            fun _ same => (by cases same), .inr ⟨rfl, _, rfl⟩, fits, ?_, rfl⟩⟩
          rw [← isStream]
          exact List.take_prefix _ _
        · obtain ⟨rfl, rfl⟩ := Proc.runs_modify.mp runs
          rw [← isStream]
          exact ⟨_, .inl ⟨rfl, rfl, fits⟩⟩
      · cases asked

/-- The answers that are written are no longer owed. -/
theorem Tracks.written (tracks : server.Tracks older newer heard conn)
    (fits : ∀ envelope ∈ outgoing newer,
      server.prost.encodedLen envelope ≤ conn.codec.maxPayload) (world : ω) :
    server.Tracks (newer ++ older) [] heard { conn with
      world, sent := conn.sent ++ server.prost.stream (outgoing newer) } := by
  refine ⟨tracks.run, tracks.succeeded, tracks.paced, tracks.reading,
    tracks.greeted, tracks.codec, ?_, ?_⟩
  · rw [outgoing_append, Prost.stream_append, tracks.sent]
  · intro envelope member
    rw [outgoing_append] at member
    rcases List.mem_append.mp member with old | new
    · exact tracks.fits envelope old
    · exact (fits envelope new).trans tracks.small

/-- Nothing is owed. -/
def Settled (server : Server ω) (conn : Connection ω) : Prop :=
  ∃ history, server.Owes history [] conn

/-- Nothing is owed and no envelope was handled since the last poll. -/
def Rests (server : Server ω) (conn : Connection ω) : Prop :=
  ∃ history, crowd history = 0 ∧ server.Owes history [] conn

theorem writeEnvelopes_triple :
    Triple (server.Owes older newer) (server.writeEnvelopes (outgoing newer))
      (fun _ => server.Owes (newer ++ older) []) server.Ended := by
  intro before output after owes runs
  obtain ⟨world, ⟨rfl, rfl, fits⟩ | ⟨err, due, torn, rfl, broken, owed, small,
    front, rfl⟩⟩ := writeEnvelopes_runs runs
  · exact ⟨owes.tracks.written fits world, owes.codec⟩
  · exact owes.tracks.broken broken owed small front world

theorem onSession_triple {op : SessionOp} (silent : op.heard = none) :
    Triple (server.Owes older newer) (onSession op.run)
      (fun envelopes conn => ∃ event : SessionEvent, event.input = op ∧
        event.envelopes = envelopes ∧ server.Owes older (event :: newer) conn)
      server.Ended := by
  intro before output after owes runs
  obtain ⟨given, session, ran, rfl, rfl⟩ := onSession_runs runs
  cases given with
  | ok envelopes => exact ⟨_, rfl, rfl, owes.step silent ran⟩
  | error err => exact owes.fails silent ran

theorem perform_triple {history : List SessionEvent} {op : SessionOp}
    (silent : op.heard = none) :
    Triple (server.Owes history []) (server.perform op)
      (fun _ conn => ∃ event : SessionEvent, event.input = op ∧
        server.Owes (event :: history) [] conn) server.Ended := by
  apply Triple.bind (onSession_triple silent)
  intro envelopes
  apply Triple.exists_
  intro event
  apply Triple.given
  intro isOp
  apply Triple.given
  intro isAnswer
  have same : envelopes = outgoing [event] := by
    rw [← isAnswer]
    simp [outgoing]
  rw [same]
  apply Triple.mono writeEnvelopes_triple
  · exact fun _ owes => owes
  · exact fun _ _ owes => ⟨event, isOp, owes⟩

theorem Rests.settled (rests : server.Rests conn) : server.Settled conn := by
  obtain ⟨history, _, owes⟩ := rests
  exact ⟨history, owes⟩

theorem rests_world (conn : Connection ω) (world : ω)
    (rests : server.Rests conn) : server.Rests { conn with world } := by
  obtain ⟨history, alone, owes⟩ := rests
  exact ⟨history, alone, owes.world world⟩

theorem perform_rests {op : SessionOp} (silent : op.heard = none) :
    Triple server.Rests (server.perform op) (fun _ => server.Rests)
      server.Ended := by
  apply Triple.exists_
  intro history
  apply Triple.given
  intro alone
  apply Triple.mono (perform_triple silent)
  · exact fun _ owes => owes
  · rintro _ conn ⟨event, rfl, owes⟩
    have few := crowd_silent silent history
    exact ⟨_, by omega, owes⟩

theorem poll_rests {now : Duration} :
    Triple server.Settled (server.perform (.poll now)) (fun _ => server.Rests)
      server.Ended := by
  apply Triple.exists_
  intro history
  apply Triple.mono (perform_triple rfl)
  · exact fun _ owes => owes
  · rintro _ conn ⟨⟨_, _, _, _⟩, rfl, owes⟩
    exact ⟨_, rfl, owes⟩

theorem drainCapture_triple :
    Triple server.Rests server.drainCapture (fun _ => server.Rests)
      server.Ended := by
  apply Triple.bind (Triple.ask rests_world)
  intro reports
  apply Triple.forM
  intro report _
  apply perform_rests
  obtain ⟨time, report⟩ := report
  cases report <;> rfl

theorem drainPowerKey_triple (now : Duration) :
    Triple server.Rests (server.drainPowerKey now) (fun _ => server.Rests)
      server.Ended := by
  apply Triple.bind (Triple.ask rests_world)
  intro presses
  apply Triple.forM
  intro _ _
  exact perform_rests rfl

theorem attempt_triple {op : SessionOp} (silent : op.heard = none) :
    Triple (server.Owes older newer) (onSession (Proc.attempt op.run))
      (fun reply conn => match reply with
        | .ok envelopes => ∃ event : SessionEvent, event.input = op ∧
            event.envelopes = envelopes ∧ server.Owes older (event :: newer) conn
        | .error err => server.Ended (.session err) conn) server.Ended := by
  intro before output after owes runs
  obtain ⟨given, session, attempted, rfl, rfl⟩ := onSession_runs runs
  obtain ⟨reply, ran, rfl⟩ := Proc.runs_attempt.mp attempted
  cases reply with
  | ok envelopes => exact ⟨_, rfl, rfl, owes.step silent ran⟩
  | error err => exact owes.fails silent ran

theorem hookEnvelopes_triple {panelText : String} {calls : HookCalls ω}
    {given : List Envelope} (passes : calls.PassesOn given)
    (isGiven : given = outgoing newer) (alone : crowd (newer ++ older) = 0) :
    Triple (server.Owes older newer) (hookEnvelopes panelText calls)
      (fun envelopes conn => ∃ latest, envelopes = outgoing latest ∧
        crowd (latest ++ older) = 0 ∧ server.Owes older latest conn)
      server.Ended := by
  induction passes generalizing newer with
  | @done given world =>
      have renewed : Triple (server.Owes older newer)
          (Proc.modify fun conn => { conn with world } :
            ConnectionProc ω Unit)
          (fun _ => server.Owes older newer) server.Ended := by
        apply Triple.modify
        intro conn owes
        exact owes.world world
      apply Triple.bind renewed
      intro _
      apply Triple.pure
      intro conn owes
      exact ⟨newer, isGiven, alone, owes⟩
  | @call given op next silent answered failed induction =>
      apply Triple.bind (attempt_triple silent)
      intro reply
      apply Triple.get
      intro conn held
      cases reply with
      | error err =>
          obtain ⟨world, gaveUp⟩ := failed err conn.session
          rw [gaveUp]
          have renewed : Triple (· = conn)
              (Proc.modify fun conn => { conn with world } :
                ConnectionProc ω Unit)
              (fun _ => server.Ended (.session err)) server.Ended := by
            apply Triple.modify
            rintro _ rfl
            exact held.world world
          apply Triple.bind renewed
          intro _
          exact Triple.throw fun _ ended => ended
      | ok envelopes =>
          obtain ⟨event, rfl, rfl, owes⟩ := held
          have few := crowd_silent silent (newer ++ older)
          have isNext : given ++ event.envelopes = outgoing (event :: newer) := by
            rw [isGiven, outgoing_cons]
          apply Triple.mono (induction _ _ isNext
            (Nat.le_zero.mp (few.trans alone.le)))
          · rintro _ rfl
            exact owes
          · exact fun _ _ held => held

theorem callHook_triple (passes : server.PassesOn) (now : Duration) :
    Triple server.Rests (server.callHook now) (fun _ => server.Rests)
      server.Ended := by
  unfold callHook
  split
  · exact Triple.pure fun _ rests => rests
  · rename_i hook isHook
    apply Triple.get
    rintro conn ⟨history, alone, owes⟩
    have called := @hookEnvelopes_triple _ server history []
      server.panelText _ _
      (passes hook isHook conn.world conn.session now) rfl alone
    apply Triple.bind (Triple.mono called ?_ fun _ _ held => held)
    · intro envelopes
      apply Triple.exists_
      intro latest
      apply Triple.given
      rintro rfl
      apply Triple.given
      intro alone
      apply Triple.mono writeEnvelopes_triple
      · exact fun _ owes => owes
      · exact fun _ _ owes => ⟨latest ++ history, alone, owes⟩
    · rintro _ rfl
      exact owes

/-- An envelope was decoded and is about to be handled. -/
structure Holds (server : Server ω) (history : List SessionEvent)
    (envelope : Envelope) (conn : Connection ω) : Prop where
  tracks : server.Tracks history [] (heardIn history ++ [envelope]) conn
  codec : conn.codec = server.codecAfter (heardIn history)

theorem codecAfter_next (items : List Envelope) (src : Bytes) :
    (server.codecAfter items).next server.prost src =
      (Decoder.active (WireCodec.preHandshake.decoder server.prost)
        (server.lateCodec.decoder server.prost) items).next src := by
  cases items <;> rfl

/-- Decoding takes an envelope from the front of the buffer, waits for more, or
fails. -/
theorem decodeNext_runs {before after : Connection ω}
    {output : Except ServerError (Option Envelope)}
    (runs : (server.decodeNext).Runs before output after) :
    (before.codec.next server.prost before.input = .needMore ∧
        output = .ok none ∧ after = before) ∨
      ∃ rest, rest.length ≤ before.input.length ∧
        after = { before with input := rest } ∧
        ((∃ envelope, before.codec.next server.prost before.input =
            .item envelope rest ∧ output = .ok (some envelope)) ∨
          ∃ err, before.codec.next server.prost before.input =
            .failed err rest ∧ output = .error (.wire err)) := by
  have did := before.codec.decode_takes server.prost before.input
  unfold decodeNext Proc.Runs at runs
  dsimp only at runs
  unfold WireCodec.next
  generalize before.codec.decode server.prost before.input = result
    at did runs ⊢
  have shorter {payload rest : Bytes}
      (front : before.input = WireCodec.framed payload ++ rest) :
      rest.length ≤ before.input.length := by
    rw [front, List.length_append]
    exact Nat.le_add_left _ _
  cases did with
  | waits _ =>
      cases output <;> cases runs
      exact .inl ⟨rfl, rfl, rfl⟩
  | wrongMagic _ _ | tooLarge _ _ _ _ =>
      cases output <;> cases runs
      exact .inr ⟨_, Nat.le_refl _, rfl, .inr ⟨_, rfl, rfl⟩⟩
  | taken front _ _ =>
      cases output <;> cases runs
      exact .inr ⟨_, shorter front, rfl, .inl ⟨_, rfl, rfl⟩⟩
  | malformed front _ _ =>
      cases output <;> cases runs
      exact .inr ⟨_, shorter front, rfl, .inr ⟨_, rfl, rfl⟩⟩

theorem decodeNext_triple {history : List SessionEvent} :
    Triple (server.Owes history []) server.decodeNext
      (fun found conn =>
        (found = none ∧ server.Owes history [] conn ∧
          conn.codec.next server.prost conn.input = .needMore) ∨
        ∃ envelope, found = some envelope ∧ server.Holds history envelope conn)
      server.Ended := by
  intro before output after owes runs
  have reading := owes.tracks.reading
  have next := @codecAfter_next _ server (heardIn history) before.input
  rw [← show before.codec = server.codecAfter (heardIn history) from
    owes.codec] at next
  obtain ⟨tracks, codec⟩ := owes
  rcases decodeNext_runs runs with ⟨waits, rfl, rfl⟩ |
    ⟨rest, _, rfl, ⟨envelope, takes, rfl⟩ | ⟨err, failed, rfl⟩⟩
  · exact .inl ⟨rfl, ⟨tracks, codec⟩, waits⟩
  · refine .inr ⟨envelope, rfl, ⟨tracks.run, tracks.succeeded, tracks.paced,
      ?_, tracks.greeted, tracks.codec, tracks.sent, tracks.fits⟩, codec⟩
    exact reading.take (next.symm.trans takes)
  · have notSession : ∀ failure, ServerError.wire err ≠ .session failure := by
      intro failure same
      cases same
    obtain ⟨older, newer, session, farewell, due, relays, farewells⟩ :=
      Owes.ended ⟨tracks, codec⟩ notSession
    exact ⟨older, newer, session, farewell, due, ⟨relays.run, relays.succeeded,
      relays.latest, relays.paced, relays.numbered, relays.front, relays.sent,
      relays.fits⟩, farewells⟩

/-- The envelope was handled, and its answers are owed. -/
theorem Holds.handled {history : List SessionEvent} {envelope : Envelope}
    (holds : server.Holds history envelope conn) (few : crowd history < 8)
    {now : Duration} {responses : List Envelope} {after : Session}
    (ran : (Session.handleInner envelope now false).Runs conn.session
      (.ok responses) after) :
    ∃ event : SessionEvent, event.envelopes = responses ∧
      event.input.heard = some envelope ∧
      crowd (event :: history) = crowd history + 1 ∧ after.established = true ∧
      server.Tracks history [event] (heardIn (event :: history))
        { conn with session := after } := by
  obtain ⟨tracks, codec⟩ := holds
  have stepped : sessionStep conn.session (.handleDeferred envelope now)
      (.ok responses) after := ran
  have greeted := Session.handleInner_establishes tracks.run ran
  have heard : (⟨conn.session, .handleDeferred envelope now, .ok responses,
      after⟩ : SessionEvent).input.heard = some envelope := rfl
  have isCrowd : crowd (⟨conn.session, .handleDeferred envelope now,
      .ok responses, after⟩ :: history) = crowd history + 1 := by
    simp [crowd]
  refine ⟨_, rfl, heard, isCrowd, greeted, tracks.run.step stepped, ?_, ?_, ?_,
    fun _ => greeted, tracks.codec, tracks.sent, tracks.fits⟩
  · exact List.forall_mem_cons.mpr ⟨⟨responses, rfl⟩, tracks.succeeded⟩
  · exact tracks.paced.cons (isCrowd.trans_le few)
  · rw [heardIn_cons heard]
    exact tracks.reading

/-- The envelope failed, and the connection ends. -/
theorem Holds.failed {history : List SessionEvent} {envelope : Envelope}
    (holds : server.Holds history envelope conn) (few : crowd history < 8)
    {now : Duration} {err : SessionError} {session : Session}
    (ran : (Session.handleInner envelope now false).Runs conn.session
      (.error err) session) {output : Except ServerError Unit}
    {after : Connection ω}
    (runs : (server.answerEnvelope envelope.messageId (.error err)).Runs
      { conn with session } output after) :
    ∃ failure, output = .error failure ∧ server.Ended failure after := by
  obtain ⟨tracks, codec⟩ := holds
  have stepped : sessionStep conn.session (.handleDeferred envelope now)
      (.error err) session := ran
  have heard : (⟨conn.session, .handleDeferred envelope now, .error err,
      session⟩ : SessionEvent).input.heard = some envelope := rfl
  have isCrowd : crowd (⟨conn.session, .handleDeferred envelope now,
      .error err, session⟩ :: history) = crowd history + 1 := by
    simp [crowd]
  have paced := tracks.paced.cons (isCrowd.trans_le few)
  have front : heardIn (⟨conn.session, .handleDeferred envelope now,
      .error err, session⟩ :: history) <+:
      (server.decoded conn.received).items := by
    rw [heardIn_cons heard]
    exact tracks.reading.front
  obtain ⟨first, fresh, orderly⟩ := tracks.run.orderly
  have counted : Orderly conn.session [] session :=
    Session.operation_orderly (.handleDeferred envelope now) conn.session _
      session stepped
  rcases Proc.runs_bind.mp runs with ⟨response, between, told, runs⟩ |
    ⟨_, _, told⟩
  · obtain ⟨given, last, ran, rfl, isResponse⟩ := onSession_runs told
    have tells := ran
    obtain ⟨answer, rfl, isError, answered⟩ := Session.protocolError_runs ran
    have joined := (orderly.trans counted).trans answered
    rw [List.append_nil] at joined
    cases isResponse
    rcases Proc.runs_bind.mp runs with ⟨_, middle, wrote, threw⟩ |
      ⟨failure, rfl, wrote⟩
    · obtain ⟨rfl, rfl⟩ := Proc.runs_throw.mp threw
      obtain ⟨world, ⟨_, rfl, fits⟩ | ⟨_, _, _, impossible, _⟩⟩ :=
        writeEnvelopes_runs wrote
      · refine ⟨_, rfl, history, [_], session, [response], [],
          ⟨tracks.run.step stepped, tracks.succeeded, List.forall_mem_nil _,
            paced, ⟨first, fresh, ?_⟩, front, ⟨[], List.nil_prefix, ?_⟩, ?_⟩,
          .told heard rfl tells isError⟩
        · rw [List.append_nil]
          exact joined
        · rw [Prost.stream_append, ← tracks.sent, List.append_nil]
        · intro other member
          rw [List.append_nil] at member
          rcases List.mem_append.mp member with member | member
          · exact tracks.fits other member
          · exact (fits other member).trans tracks.small
      · cases impossible
    · obtain ⟨world, ⟨impossible, _⟩ |
        ⟨_, due, torn, same, broken, owed, small, isTorn, rfl⟩⟩ :=
        writeEnvelopes_runs wrote
      · cases impossible
      · cases same
        refine ⟨failure, rfl, history, [_], session, [], due,
          ⟨tracks.run.step stepped, tracks.succeeded, List.forall_mem_nil _,
            paced, ⟨first, fresh, joined.drop ?_⟩, front,
            ⟨torn, isTorn, ?_⟩, ?_⟩,
          .unwritten broken heard rfl tells owed⟩
        · rw [List.append_nil]
          rcases owed with rfl | ⟨rfl, _⟩
          · exact (List.Sublist.refl _).append (List.nil_sublist _)
          · exact List.Sublist.refl _
        · rw [List.append_nil, ← tracks.sent]
        · intro other member
          rw [List.append_nil] at member
          rcases List.mem_append.mp member with member | member
          · exact tracks.fits other member
          · exact (small other member).trans tracks.small
  · obtain ⟨given, last, ran, _, isResponse⟩ := onSession_runs told
    obtain ⟨_, rfl, _⟩ := Session.protocolError_runs ran
    cases isResponse

theorem handleNext_triple {history : List SessionEvent} {envelope : Envelope}
    (few : crowd history < 8) :
    Triple (server.Holds history envelope) (server.handleNext envelope)
      (fun _ conn => ∃ event : SessionEvent,
        crowd (event :: history) = crowd history + 1 ∧
        server.Owes (event :: history) [] conn) server.Ended := by
  have still (conn : Connection ω) (world : ω)
      (holds : server.Holds history envelope conn) :
      server.Holds history envelope { conn with world } :=
    ⟨holds.tracks.world world, holds.codec⟩
  apply Triple.bind (Triple.ask still)
  intro now before output after holds runs
  rcases Proc.runs_bind.mp runs with ⟨result, between, called, runs⟩ |
    ⟨err, rfl, called⟩
  · obtain ⟨given, session, attempted, rfl, isResult⟩ := onSession_runs called
    obtain ⟨_, ran, rfl⟩ := Proc.runs_attempt.mp attempted
    cases isResult
    cases result with
    | error err =>
        rcases Proc.runs_bind.mp runs with ⟨_, _, answered, _⟩ |
          ⟨failure, rfl, answered⟩
        · obtain ⟨_, impossible, _⟩ := holds.failed few ran answered
          cases impossible
        · obtain ⟨_, same, ended⟩ := holds.failed few ran answered
          cases same
          exact ended
    | ok responses =>
        obtain ⟨event, rfl, heard, isCrowd, greeted, tracks⟩ :=
          holds.handled few ran
        have same : event.envelopes = outgoing [event] := by
          simp [outgoing]
        rcases Proc.runs_bind.mp runs with ⟨_, written, wrote, last⟩ |
          ⟨failure, rfl, wrote⟩
        · obtain ⟨world, ⟨_, rfl, fits⟩ | ⟨_, _, _, impossible, _⟩⟩ :=
            writeEnvelopes_runs wrote
          · obtain ⟨rfl, rfl⟩ := Proc.runs_modify.mp last
            rw [same] at fits
            have done := tracks.written fits world
            refine ⟨event, isCrowd, ?_⟩
            rw [if_pos greeted, same]
            refine ⟨⟨done.run, done.succeeded, done.paced, done.reading,
              done.greeted, .inr rfl, done.sent, done.fits⟩, ?_⟩
            change server.lateCodec = server.codecAfter
              (heardIn (event :: history))
            rw [heardIn_cons heard]
            cases heardIn history <;> rfl
          · cases impossible
        · obtain ⟨world, ⟨impossible, _⟩ |
            ⟨_, due, torn, failed, broken, owed, small, front, rfl⟩⟩ :=
            writeEnvelopes_runs wrote
          · cases impossible
          · cases failed
            rw [same] at owed
            exact tracks.broken broken owed small front world
  · obtain ⟨given, session, attempted, rfl, isResult⟩ := onSession_runs called
    obtain ⟨_, _, rfl⟩ := Proc.runs_attempt.mp attempted
    cases isResult

/-- The buffer holds no complete message. -/
def Waits (server : Server ω) (conn : Connection ω) : Prop :=
  conn.codec.next server.prost conn.input = .needMore

theorem leave_triple (kept : Connection ω → Prop)
    (settled : ∀ conn, kept conn → server.Settled conn) :
    Triple kept leave (fun _ => kept) server.Ended := by
  apply Triple.get
  intro conn held
  obtain ⟨history, owes⟩ := settled conn held
  split
  · apply Triple.throw
    rintro _ rfl
    exact owes.ended fun _ same => (by cases same)
  · split
    · apply Triple.throw
      rintro _ rfl
      exact owes.ended fun _ same => (by cases same)
    · apply Triple.pure
      rintro _ rfl
      exact held

/-- There are envelopes left only if so many were handled. -/
def Handled (server : Server ω) (room : Nat) (count : Option Nat)
    (conn : Connection ω) : Prop :=
  server.Settled conn ∧
    ((count = none ∧ conn.session.closed = true) ∨
      ∃ handled, count = some handled ∧ handled ≤ room ∧
        (handled < room → server.Waits conn))

theorem handleUpTo_triple {room : Nat} :
    Triple (fun conn => ∃ history, crowd history + room ≤ 8 ∧
        server.Owes history [] conn) (server.handleUpTo room)
      (server.Handled room) server.Ended := by
  induction room with
  | zero =>
      apply Triple.pure
      rintro conn ⟨history, _, owes⟩
      exact ⟨⟨history, owes⟩, .inr ⟨0, rfl, Nat.le_refl 0, fun more =>
        absurd more (Nat.lt_irrefl 0)⟩⟩
  | succ room induction =>
      apply Triple.exists_
      intro history
      apply Triple.given
      intro few
      apply Triple.bind decodeNext_triple
      intro found
      cases found with
      | none =>
          apply Triple.pure
          rintro conn (⟨_, owes, waits⟩ | ⟨_, impossible, _⟩)
          · exact ⟨⟨history, owes⟩, .inr ⟨0, rfl, Nat.zero_le _, fun _ => waits⟩⟩
          · cases impossible
      | some envelope =>
          have handles := @handleNext_triple _ server history envelope (by omega)
          apply Triple.bind (Triple.mono handles ?_ fun _ _ held => held)
          · intro _
            apply Triple.exists_
            intro event
            apply Triple.given
            intro isCrowd
            apply Triple.get
            intro conn owes
            split
            · rename_i closed
              apply Triple.bind (leave_triple (· = conn) ?_)
              · intro _
                apply Triple.pure
                rintro _ rfl
                exact ⟨⟨_, owes⟩, .inl ⟨rfl, closed⟩⟩
              · rintro _ rfl
                exact ⟨_, owes⟩
            · apply Triple.bind (Triple.mono induction ?_ fun _ _ held => held)
              · intro later
                apply Triple.pure
                rintro after ⟨settled, ⟨rfl, closed⟩ | ⟨handled, rfl, most, waits⟩⟩
                · exact ⟨settled, .inl ⟨rfl, closed⟩⟩
                · exact ⟨settled, .inr ⟨handled + 1, rfl, by omega,
                    fun more => waits (by omega)⟩⟩
              · rintro _ rfl
                exact ⟨_, by omega, owes⟩
          · rintro conn (⟨impossible, _⟩ | ⟨_, same, holds⟩)
            · cases impossible
            · cases same
              exact holds

/-- The session is closed, or the producer closed the stream after envelopes
that were all handled. -/
def Over (server : Server ω) (conn : Connection ω) : Prop :=
  server.Settled conn ∧ (conn.session.closed = true ∨ server.Waits conn)

theorem Owes.receive (owes : server.Owes older newer conn) (bytes : Bytes) :
    server.Owes older newer { conn with
      input := conn.input ++ bytes, received := conn.received ++ bytes } := by
  obtain ⟨tracks, codec⟩ := owes
  exact ⟨⟨tracks.run, tracks.succeeded, tracks.paced,
    tracks.reading.receive bytes, tracks.greeted, tracks.codec, tracks.sent,
    tracks.fits⟩, codec⟩

theorem readMore_triple :
    Triple (fun conn => server.Rests conn ∧ server.Waits conn) server.readMore
      (fun more conn => match more with
        | true => server.Rests conn
        | false => server.Over conn) server.Ended := by
  intro before output after held runs
  obtain ⟨⟨history, alone, owes⟩, waits⟩ := held
  rcases Proc.runs_bind.mp runs with ⟨answer, between, asked, runs⟩ |
    ⟨_, _, asked⟩
  · cases asked
    have owesNext := owes.world (server.world.read before.world readBufferLen).2
    split at runs
    · obtain ⟨rfl, rfl⟩ := Proc.runs_pure.mp runs
      exact ⟨⟨history, owesNext⟩, .inr waits⟩
    · rename_i bytes _ _
      rw [Proc.runs_modify_bind] at runs
      obtain ⟨rfl, rfl⟩ := Proc.runs_pure.mp runs
      exact ⟨history, alone, (owesNext.receive bytes)⟩
    · obtain ⟨rfl, rfl⟩ := Proc.runs_pure.mp runs
      exact ⟨history, alone, owesNext⟩
    · obtain ⟨rfl, rfl⟩ := Proc.runs_throw.mp runs
      exact owesNext.ended fun _ same => (by cases same)
  · cases asked

theorem perform_keeps {op : SessionOp} {before after : Connection ω}
    {output : Except ServerError Unit}
    (runs : (server.perform op).Runs before output after) :
    after.codec = before.codec ∧ after.input = before.input := by
  rcases Proc.runs_bind.mp runs with ⟨envelopes, between, ran, wrote⟩ |
    ⟨_, _, ran⟩
  · obtain ⟨_, _, _, rfl, _⟩ := onSession_runs ran
    obtain ⟨_, ⟨_, rfl, _⟩ | ⟨_, _, _, _, _, _, _, _, rfl⟩⟩ :=
      writeEnvelopes_runs wrote <;>
      exact ⟨rfl, rfl⟩
  · obtain ⟨_, _, _, rfl, _⟩ := onSession_runs ran
    exact ⟨rfl, rfl⟩

/-- After so many envelopes of eight the buffer holds no complete message. -/
def Idles (server : Server ω) (decoded : Nat) (conn : Connection ω) : Prop :=
  server.Settled conn ∧ (decoded ≠ 8 → server.Waits conn)

theorem Handled.idles {decoded : Nat}
    (handled : server.Handled 8 (some decoded) conn) :
    server.Idles decoded conn := by
  obtain ⟨settled, ⟨impossible, _⟩ | ⟨_, same, most, waits⟩⟩ := handled
  · cases impossible
  · cases same
    exact ⟨settled, fun fewer => waits (by omega)⟩

theorem idles_world {decoded : Nat} (conn : Connection ω) (world : ω)
    (idles : server.Idles decoded conn) :
    server.Idles decoded { conn with world } := by
  obtain ⟨⟨history, owes⟩, waits⟩ := idles
  exact ⟨⟨history, owes.world world⟩, waits⟩

theorem poll_triple {decoded : Nat} {now : Duration} :
    Triple (server.Idles decoded) (server.perform (.poll now))
      (fun _ conn => server.Rests conn ∧ (decoded ≠ 8 → server.Waits conn))
      server.Ended := by
  apply Triple.frame poll_rests
  intro before output after runs waits fewer
  obtain ⟨sameCodec, sameInput⟩ := perform_keeps runs
  unfold Waits
  rw [sameCodec, sameInput]
  exact waits fewer

theorem turn_triple (passes : server.PassesOn) :
    Triple server.Rests server.turn
      (fun more conn => match more with
        | true => server.Rests conn
        | false => server.Over conn) server.Ended := by
  apply Triple.bind (Triple.ask rests_world)
  intro _
  apply Triple.bind drainCapture_triple
  intro _
  apply Triple.bind (drainPowerKey_triple _)
  intro _
  apply Triple.bind (Triple.ask rests_world)
  intro now
  apply Triple.bind (callHook_triple passes now)
  intro _
  apply Triple.bind (perform_rests rfl)
  intro _
  apply Triple.get
  intro conn rests
  split
  · rename_i closed
    apply Triple.bind (leave_triple (· = conn) ?_)
    · intro _
      apply Triple.pure
      rintro _ rfl
      exact ⟨rests.settled, .inl closed⟩
    · rintro _ rfl
      exact rests.settled
  · apply Triple.bind (Triple.mono handleUpTo_triple ?_ fun _ _ held => held)
    · intro count
      cases count with
      | none =>
          apply Triple.pure
          rintro after ⟨settled, ⟨_, closed⟩ | ⟨_, impossible, _⟩⟩
          · exact ⟨settled, .inl closed⟩
          · cases impossible
      | some decoded =>
          apply Triple.bind (Triple.mono (Triple.ask idles_world)
            (fun _ => Handled.idles) fun _ _ held => held)
          intro now
          apply Triple.bind poll_triple
          intro _
          split
          · exact Triple.pure fun _ both => both.1
          · rename_i fewer
            apply Triple.bind (Triple.ask fun conn world both =>
              ⟨rests_world conn world both.1, both.2⟩)
            intro answer
            cases answer with
            | error err =>
                apply Triple.throw
                rintro conn ⟨⟨history, _, owes⟩, _⟩
                exact owes.ended fun _ same => (by cases same)
            | ok ready =>
                cases ready with
                | false => exact Triple.pure fun _ both => both.1
                | true =>
                    apply Triple.mono readMore_triple
                    · exact fun _ both => ⟨both.1, both.2 fewer⟩
                    · exact fun _ _ held => held
    · rintro _ rfl
      obtain ⟨history, alone, owes⟩ := rests
      exact ⟨history, by omega, owes⟩

theorem turns_triple (passes : server.PassesOn) (count : Nat) :
    Triple server.Rests (server.turns count)
      (fun finished conn => match finished with
        | none => server.Rests conn
        | some () => server.Over conn) server.Ended := by
  induction count with
  | zero => exact Triple.pure fun _ rests => rests
  | succ count induction =>
      apply Triple.bind (turn_triple passes)
      intro more
      cases more with
      | true => exact induction
      | false => exact Triple.pure fun _ ended => ended

theorem accept_owes {world : ω} (accepted : server.accept world = .ok conn) :
    server.Owes [] [] conn := by
  obtain ⟨first, fresh, isConn⟩ := Res.bind_eq_ok.mp accepted
  cases isConn
  refine ⟨⟨⟨first, fresh, .nil⟩, List.forall_mem_nil _, Paced.nil,
    Decoder.Reading.start, fun some => absurd rfl some, .inl rfl, rfl,
    List.forall_mem_nil _⟩, rfl⟩

/-- The pen is announced before the application is called for the first
time. -/
theorem setPenAvailable_triple {available : Bool} :
    Triple (server.Owes [] []) (onSession (Session.setPenAvailable available))
      (fun _ => server.Rests) server.Ended := by
  intro before output after owes runs
  obtain ⟨given, session, ran, rfl, rfl⟩ := onSession_runs runs
  cases given with
  | ok _ =>
      have stepped : sessionStep before.session (.setPenAvailable available)
          (.ok []) session :=
        Proc.runs_bind.mpr (.inl ⟨(), session, ran, Proc.runs_pure.mpr
          ⟨rfl, rfl⟩⟩)
      exact ⟨_, rfl, (owes.step rfl stepped).quiet rfl⟩
  | error err =>
      have stepped : sessionStep before.session (.setPenAvailable available)
          (.error err) session :=
        Proc.runs_bind.mpr (.inr ⟨err, rfl, ran⟩)
      exact owes.fails rfl stepped

theorem driveConnectionLoop_triple (passes : server.PassesOn) {world : ω}
    (count : Nat) :
    Triple (fun conn => server.accept world = .ok conn)
      (server.driveConnectionLoop count)
      (fun finished conn => match finished with
        | none => server.Rests conn
        | some () => server.Over conn) server.Ended := by
  apply Triple.bind (Triple.mono setPenAvailable_triple
    (fun _ => accept_owes) fun _ _ held => held)
  intro _
  apply Triple.bind (callHook_triple passes 0)
  intro _
  exact turns_triple passes count

/-- How a connection ended, or that it is still open: `older` was answered, and
`newer` was not. -/
def Ends (server : Server ω) (older newer : List SessionEvent)
    (session : Session) (farewell due : List Envelope) (conn : Connection ω) :
    Except ServerError (Option Unit) → Prop
  | .ok none =>
      newer = [] ∧ farewell = [] ∧ due = [] ∧ session = conn.session
  | .ok (some ()) =>
      newer = [] ∧ farewell = [] ∧ due = [] ∧ session = conn.session ∧
        (conn.session.closed = true ∨ server.decoded conn.received =
          { items := heardIn older, buffer := conn.input })
  | .error err =>
      server.Farewell err newer session conn.session farewell due

theorem ends_of_serve (passes : server.PassesOn) {count : Nat} {world : ω}
    {output : Except ServerError (Option Unit)}
    (served : server.serve count world = some (output, conn)) :
    ∃ older newer session farewell due,
      server.Relays older newer session farewell due conn ∧
        server.Ends older newer session farewell due conn output := by
  obtain ⟨first, accepted, runs⟩ := server.runs_of_serve served
  have ends :=
    driveConnectionLoop_triple passes count first output conn accepted runs
  have relays {history : List SessionEvent}
      (owes : server.Owes history [] conn) :
      server.Relays history [] conn.session [] [] conn := by
    have relays :=
      owes.tracks.relays (.inl rfl) (List.forall_mem_nil _) List.nil_prefix
        conn.world
    rw [List.append_nil] at relays
    exact relays
  cases output with
  | error err => exact ends
  | ok finished =>
      cases finished with
      | none =>
          obtain ⟨history, _, owes⟩ := ends
          exact ⟨history, [], _, [], [], relays owes, rfl, rfl, rfl, rfl⟩
      | some _ =>
          obtain ⟨⟨history, owes⟩, closed⟩ := ends
          refine ⟨history, [], _, [], [], relays owes, rfl, rfl, rfl, rfl, ?_⟩
          rcases closed with closed | waits
          · exact .inl closed
          · apply Or.inr
            apply owes.tracks.reading.complete
            rw [← codecAfter_next]
            have same : conn.codec = server.codecAfter (heardIn history) :=
              owes.codec
            unfold Waits at waits
            rw [same] at waits
            exact waits

end Server

/-- The protobuf library as far as it knows the envelopes of a book. -/
def bookProst (book : List Envelope) : Prost where
  encodedLen := fun _ => 1
  encode := fun envelope => [UInt8.ofNat (book.idxOf envelope)]
  decode := fun bytes =>
    match bytes.head?.bind fun index => book[index.toNat]? with
    | some envelope => .ok envelope
    | none => .error "not in the book"

/-- Nothing happens but what the producer sends; the application polls. -/
def scriptWorld : Surroundings (Script UInt8) where
  elapsed := fun world => (0, world)
  drain := fun world => ([], world)
  drainPresses := fun world => (0, world)
  hook := some fun world _ now => .call (.poll now) fun reply _ =>
    .done world reply
  writeAll := fun world _ => (.ok (), world)
  ready := fun world => (.ok true, world)
  read := Script.read

/-- A hello and a surface. -/
def smallBook : List Envelope :=
  [⟨0, 1, some (.clientHello (grayHello []))⟩, ⟨1, 2, some (grayOpen 1 [])⟩]

def smallServer : Server (Script UInt8) where
  setup := .gray 2 2 (fun _ => true) fun _ => some {}
  penAvailable := false
  prost := bookProst smallBook
  world := scriptWorld
  panelText := "panel"

/-- The stream stops in the middle of a header at first. -/
def smallScript (envelopes : List Envelope) : Script UInt8 :=
  ⟨(bookProst smallBook).stream envelopes, [some 2, none]⟩

namespace Server

variable {ω : Type}

theorem smallServer_passesOn : smallServer.PassesOn := by
  intro hook isHook world session now
  cases isHook
  exact .call rfl (fun _ _ => .done) fun _ _ => ⟨world, rfl⟩

/-- The loop of a connection is a run of its session, whose answers the
application passes on.  It writes what the operations answered, in their order,
and handles the first envelopes of the bytes received, in at most eights between
two polls; it hears all of them if the producer leaves.  An envelope that fails
is the last one, and is answered by one fatal error; a write that fails is the
last one, and stops somewhere in what was due. -/
theorem serve_relays (server : Server ω) (passes : server.PassesOn)
    {count : Nat} {world : ω} {output : Except ServerError (Option Unit)}
    {final : Connection ω}
    (served : server.serve count world = some (output, final)) :
    ∃ older newer session farewell due,
      server.Relays older newer session farewell due final ∧
        server.Ends older newer session farewell due final output :=
  ends_of_serve passes served

/-- The surface is opened twice with the same message, and the producer is
told. -/
theorem serve_relays_twice : ∃ final,
    smallServer.serve 8 (smallScript (smallBook ++ smallBook.drop 1)) =
      some (.error (.session .badMessageOrder), final) ∧
    ∃ older newer session farewell due,
      smallServer.Relays older newer session farewell due final ∧
      smallServer.Farewell (.session .badMessageOrder) newer session
        final.session farewell due := by
  have ended : (smallServer.serve 8
      (smallScript (smallBook ++ smallBook.drop 1))).map (·.1) =
        some (.error (.session .badMessageOrder)) := by decide +kernel
  obtain ⟨⟨_, final⟩, served, rfl⟩ := Option.map_eq_some_iff.mp ended
  obtain ⟨older, newer, session, farewell, due, relays, ends⟩ :=
    serve_relays smallServer smallServer_passesOn served
  exact ⟨final, served, older, newer, session, farewell, due, relays, ends⟩

/-- A codec with room enough reads from the bytes written what the operations
of the connection answered and the farewell, and nothing else: after a write
that failed the first of the envelopes that were due.  A producer finds every
envelope newer than the one before. -/
theorem serve_reads (server : Server ω) (passes : server.PassesOn)
    {count : Nat} {world : ω} {output : Except ServerError (Option Unit)}
    {final : Connection ω}
    (served : server.serve count world = some (output, final))
    (few : final.session.built < 2 ^ 32 - 1) {codec : WireCodec}
    (room : server.limit ≤ codec.maxPayload) :
    ∃ older newer session farewell due,
      server.Relays older newer session farewell due final ∧
      server.Ends older newer session farewell due final output ∧
      (messageIds (outgoing older ++ farewell ++ due)).Pairwise (· < ·) ∧
      ((∀ envelope ∈ outgoing older ++ farewell ++ due,
          server.prost.Reads envelope) →
        ∃ read rest, (codec.decoder server.prost).drain final.sent =
            { items := outgoing older ++ farewell ++ read, buffer := rest } ∧
          read <+: due ∧ (due = [] → rest = [])) := by
  obtain ⟨older, newer, session, farewell, due, relays, ends⟩ :=
    ends_of_serve passes served
  obtain ⟨first, fresh, orderly⟩ := relays.numbered
  obtain ⟨isNumbered, _⟩ := newSession_numbered fresh
  have climbs := orderly.counts.messages few isNumbered
  refine ⟨older, newer, session, farewell, due, relays, ends,
    climbs.increasing, fun readable => ?_⟩
  obtain ⟨torn, front, sent⟩ := relays.sent
  have fit : ∀ envelope ∈ outgoing older ++ farewell ++ due,
      server.prost.Reads envelope ∧
        server.prost.encodedLen envelope ≤ codec.maxPayload :=
    fun envelope member =>
      ⟨readable envelope member, (relays.fits envelope member).trans room⟩
  rw [sent]
  by_cases nothing : due = []
  · subst nothing
    have whole : torn = [] := List.prefix_nil.mp front
    rw [List.append_nil] at fit
    refine ⟨[], [], ?_, List.nil_prefix, fun _ => rfl⟩
    rw [whole, List.append_nil, List.append_nil]
    exact WireCodec.drain_stream fit
  · obtain ⟨read, rest, drained, isFront⟩ := WireCodec.drain_torn fit front
    exact ⟨read, rest, drained, isFront, fun impossible =>
      absurd impossible nothing⟩

/-- The answers to a hello and a surface are read back. -/
theorem serve_reads_both : ∃ final,
    smallServer.serve 8 (smallScript smallBook) = some (.ok (some ()), final) ∧
    ∃ history, smallServer.Relays history [] final.session [] [] final ∧
      (messageIds (outgoing history)).Pairwise (· < ·) := by
  have ended : (smallServer.serve 8 (smallScript smallBook)).map
      (fun ends => (ends.1, ends.2.session.built)) =
        some (.ok (some ()), 2) := by decide +kernel
  obtain ⟨⟨_, final⟩, served, same⟩ := Option.map_eq_some_iff.mp ended
  obtain ⟨rfl, built⟩ := Prod.mk.inj same
  have few : final.session.built < 2 ^ 32 - 1 := by
    rw [built]
    decide
  obtain ⟨history, _, _, _, _, relays, ⟨rfl, rfl, rfl, rfl, _⟩, climbs, _⟩ :=
    serve_reads smallServer smallServer_passesOn served few (Nat.le_refl _ :
      smallServer.limit ≤ (WireCodec.new smallServer.limit).maxPayload)
  rw [List.append_nil, List.append_nil] at climbs
  exact ⟨final, served, history, relays, climbs⟩

end Server

end RmDisplay.Receiver
