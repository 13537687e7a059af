import RmDisplay.Receiver.ConnectionRuns

/-!
# How much a connection buffers

Whatever the application does, the loop reads once, and only while its buffer
holds no complete message.
-/

namespace RmDisplay.Receiver

open Foundation Protocol RmDisplay.Core

section

variable {ω α β : Type}

/-- The procedure touches neither the codec nor the buffer. -/
def Leaves (proc : ConnectionProc ω α) : Prop :=
  ∀ kept : WireCodec → Bytes → Prop,
    Triple (fun conn => kept conn.codec conn.input) proc
      (fun _ conn => kept conn.codec conn.input)
      (fun _ conn => kept conn.codec conn.input)

namespace Leaves

theorem pure (value : α) : Leaves (Pure.pure value : ConnectionProc ω α) :=
  fun _ => Triple.pure fun _ held => held

theorem throw (err : ServerError) :
    Leaves (Proc.throw err : ConnectionProc ω α) :=
  fun _ => Triple.throw fun _ held => held

theorem modify {change : Connection ω → Connection ω}
    (same : ∀ conn, (change conn).codec = conn.codec ∧
      (change conn).input = conn.input) :
    Leaves (Proc.modify change : ConnectionProc ω Unit) := by
  intro kept
  apply Triple.modify
  intro conn held
  obtain ⟨sameCodec, sameInput⟩ := same conn
  rw [sameCodec, sameInput]
  exact held

theorem ask (question : ω → α × ω) : Leaves (Receiver.ask question) :=
  fun _ => Triple.ask fun _ _ held => held

theorem onSession (proc : SessionProc α) :
    Leaves (Receiver.onSession proc : ConnectionProc ω α) := by
  intro kept before output after held runs
  obtain ⟨_, _, _, rfl, _⟩ := onSession_runs runs
  cases output <;> exact held

theorem bind {proc : ConnectionProc ω α} {next : α → ConnectionProc ω β}
    (first : Leaves proc) (rest : ∀ value, Leaves (next value)) :
    Leaves (proc >>= next) :=
  fun kept => Triple.bind (first kept) fun value => rest value kept

theorem get {next : Connection ω → ConnectionProc ω β}
    (rest : ∀ conn, Leaves (next conn)) : Leaves (Proc.get >>= next) := by
  intro kept
  apply Triple.get
  intro conn held
  apply Triple.mono (rest conn kept)
  · rintro _ rfl
    exact held
  · exact fun _ _ held => held

theorem forM {step : α → ConnectionProc ω PUnit} (items : List α)
    (turn : ∀ item, Leaves (step item)) : Leaves (items.forM step) :=
  fun kept => Triple.forM fun item _ => turn item kept

theorem keeps {proc : ConnectionProc ω α} (leaves : Leaves proc)
    {before after : Connection ω} {output : Except ServerError α}
    (runs : proc.Runs before output after) :
    after.codec = before.codec ∧ after.input = before.input := by
  have kept := leaves (fun codec input =>
    codec = before.codec ∧ input = before.input) before output after ⟨rfl, rfl⟩
    runs
  cases output <;> exact kept

/-- The application cannot touch the stream. -/
theorem hookEnvelopes (panelText : String) (calls : HookCalls ω) :
    Leaves (Receiver.hookEnvelopes panelText calls) := by
  induction calls with
  | done world reply =>
      have renewed : Leaves (Proc.modify fun conn => { conn with world } :
          ConnectionProc ω Unit) := modify fun _ => ⟨rfl, rfl⟩
      apply bind renewed
      intro _
      cases reply with
      | ok envelopes => exact pure envelopes
      | error err => exact throw _
  | call op next induction =>
      exact bind (onSession _) fun reply => get fun conn =>
        induction reply conn.session
  | protocolError err relatedMessageId next induction =>
      exact bind (onSession _) fun answer => get fun conn =>
        induction answer conn.session

theorem leave : Leaves (Server.leave : ConnectionProc ω Unit) := by
  apply get
  intro conn
  split
  · exact throw _
  · split
    · exact throw _
    · exact pure ()

end Leaves

end

namespace Server

variable {ω : Type}

section

variable (server : Server ω)

theorem writeEnvelopes_leaves (envelopes : List Envelope) :
    Leaves (server.writeEnvelopes envelopes) := by
  intro kept before output after held runs
  obtain ⟨_, ⟨rfl, rfl, _⟩ | ⟨_, _, _, rfl, _, _, _, _, rfl⟩⟩ :=
    writeEnvelopes_runs runs
  · exact held
  · exact held

theorem perform_leaves (op : SessionOp) : Leaves (server.perform op) :=
  .bind (.onSession _) fun _ => server.writeEnvelopes_leaves _

theorem drainCapture_leaves : Leaves server.drainCapture :=
  .bind (.ask _) fun reports => .forM reports fun _ => server.perform_leaves _

theorem drainPowerKey_leaves (now : Duration) :
    Leaves (server.drainPowerKey now) :=
  .bind (.ask _) fun _ => .forM _ fun _ => server.perform_leaves _

theorem callHook_leaves (now : Duration) : Leaves (server.callHook now) := by
  unfold callHook
  split
  · exact .pure ()
  · exact .get fun _ => .bind (.hookEnvelopes _ _) fun _ =>
      server.writeEnvelopes_leaves _

theorem answerEnvelope_leaves (messageId : Nat)
    (result : Except SessionError (List Envelope)) :
    Leaves (server.answerEnvelope messageId result) := by
  cases result with
  | ok responses => exact server.writeEnvelopes_leaves responses
  | error err =>
      exact .bind (.onSession _) fun _ =>
        .bind (server.writeEnvelopes_leaves _) fun _ => .throw _

/-- A read gives no more than the buffer has room for. -/
def ReadsFit : Prop :=
  ∀ world bytes, (server.world.read world readBufferLen).1 = .ok bytes →
    bytes.length ≤ readBufferLen

/-- A codec of the server, and at most one message that is not complete and one
read. -/
def Buffers (codec : WireCodec) (input : Bytes) : Prop :=
  codec.maxPayload ≤ server.limit ∧
    input.length ≤ headerLen + server.limit + readBufferLen

def Fits (conn : Connection ω) : Prop := server.Buffers conn.codec conn.input

end

variable {server : Server ω}

theorem decodeNext_fits : Triple server.Fits server.decodeNext
    (fun found conn => server.Fits conn ∧ (found = none → server.Waits conn))
    (fun _ => server.Fits) := by
  intro before output after fits runs
  rcases decodeNext_runs runs with ⟨waits, rfl, rfl⟩ |
    ⟨rest, shorter, rfl, ⟨envelope, _, rfl⟩ | ⟨err, _, rfl⟩⟩
  · exact ⟨fits, fun _ => waits⟩
  · exact ⟨⟨fits.1, shorter.trans fits.2⟩, fun impossible => nomatch impossible⟩
  · exact ⟨fits.1, shorter.trans fits.2⟩

theorem handleNext_fits (envelope : Envelope) :
    Triple server.Fits (server.handleNext envelope) (fun _ => server.Fits)
      (fun _ => server.Fits) := by
  apply Triple.bind (Leaves.ask _ server.Buffers)
  intro now
  apply Triple.bind (Leaves.onSession _ server.Buffers)
  intro result
  apply Triple.bind (server.answerEnvelope_leaves _ result server.Buffers)
  intro _
  apply Triple.modify
  intro conn fits
  split
  · exact ⟨Nat.le_max_right _ _, fits.2⟩
  · exact fits

theorem handleUpTo_fits (room : Nat) :
    Triple server.Fits (server.handleUpTo room)
      (fun count conn => server.Fits conn ∧
        ∀ handled ∈ count, handled ≤ room ∧
          (handled < room → server.Waits conn))
      (fun _ => server.Fits) := by
  induction room with
  | zero =>
      apply Triple.pure
      intro conn fits
      refine ⟨fits, ?_⟩
      rintro _ ⟨⟩
      exact ⟨Nat.le_refl 0, fun more => absurd more (Nat.lt_irrefl 0)⟩
  | succ room induction =>
      apply Triple.bind decodeNext_fits
      intro found
      cases found with
      | none =>
          apply Triple.pure
          rintro conn ⟨fits, waits⟩
          refine ⟨fits, ?_⟩
          rintro _ ⟨⟩
          exact ⟨Nat.zero_le _, fun _ => waits rfl⟩
      | some envelope =>
          apply Triple.bind (Triple.mono (handleNext_fits envelope)
            (fun _ both => both.1) fun _ _ fits => fits)
          intro _
          apply Triple.get
          intro conn fits
          split
          · apply Triple.bind (Triple.mono (Leaves.leave server.Buffers)
              (by rintro _ rfl; exact fits) fun _ _ fits => fits)
            intro _
            exact Triple.pure fun _ fits =>
              ⟨fits, fun _ impossible => by cases impossible⟩
          · apply Triple.bind (Triple.mono induction
              (by rintro _ rfl; exact fits) fun _ _ both => both)
            intro later
            apply Triple.pure
            rintro after ⟨fits, waits⟩
            refine ⟨fits, ?_⟩
            intro handled member
            obtain ⟨earlier, isLater, rfl⟩ := Option.map_eq_some_iff.mp member
            obtain ⟨most, still⟩ := waits earlier isLater
            exact ⟨by omega, fun fewer => still (by omega)⟩

/-- The loop reads only while the buffer holds no complete message. -/
theorem readMore_fits (fit : server.ReadsFit) :
    Triple (fun conn => server.Fits conn ∧ server.Waits conn) server.readMore
      (fun _ => server.Fits) (fun _ => server.Fits) := by
  intro before output after held runs
  obtain ⟨fits, waits⟩ := held
  rcases Proc.runs_bind.mp runs with ⟨answer, between, asked, runs⟩ |
    ⟨_, _, asked⟩
  · cases asked
    split at runs
    · obtain ⟨rfl, rfl⟩ := Proc.runs_pure.mp runs
      exact fits
    · rename_i bytes _ isAnswer
      rw [Proc.runs_modify_bind] at runs
      obtain ⟨rfl, rfl⟩ := Proc.runs_pure.mp runs
      have short := WireCodec.length_of_needMore waits
      have few := fit before.world bytes isAnswer
      have small := fits.1
      refine ⟨small, ?_⟩
      change (before.input ++ bytes).length ≤ _
      rw [List.length_append]
      omega
    · obtain ⟨rfl, rfl⟩ := Proc.runs_pure.mp runs
      exact fits
    · obtain ⟨rfl, rfl⟩ := Proc.runs_throw.mp runs
      exact fits
  · cases asked

/-- What is done after the envelopes leaves the buffer as it is. -/
theorem idle_fits {decoded : Nat} {α : Type} {proc : ConnectionProc ω α}
    (leaves : Leaves proc) :
    Triple (fun conn => server.Fits conn ∧ (decoded ≠ 8 → server.Waits conn))
      proc
      (fun _ conn => server.Fits conn ∧ (decoded ≠ 8 → server.Waits conn))
      (fun _ => server.Fits) := by
  intro before output after held runs
  obtain ⟨sameCodec, sameInput⟩ := leaves.keeps runs
  have still : server.Fits after ∧ (decoded ≠ 8 → server.Waits after) := by
    unfold Fits Waits
    rw [sameCodec, sameInput]
    exact held
  cases output with
  | ok value => exact still
  | error err => exact still.1

theorem turn_fits (fit : server.ReadsFit) :
    Triple server.Fits server.turn (fun _ => server.Fits)
      (fun _ => server.Fits) := by
  apply Triple.bind (Leaves.ask _ server.Buffers)
  intro now
  apply Triple.bind (server.drainCapture_leaves server.Buffers)
  intro _
  apply Triple.bind (server.drainPowerKey_leaves now server.Buffers)
  intro _
  apply Triple.bind (Leaves.ask _ server.Buffers)
  intro now
  apply Triple.bind (server.callHook_leaves now server.Buffers)
  intro _
  apply Triple.bind (server.perform_leaves (.poll now) server.Buffers)
  intro _
  apply Triple.get
  intro conn fits
  have here (state : Connection ω) (same : state = conn) : server.Fits state := by
    rw [same]
    exact fits
  split
  · apply Triple.bind (Triple.mono (Leaves.leave server.Buffers) here
      fun _ _ fits => fits)
    intro _
    exact Triple.pure fun _ fits => fits
  · apply Triple.bind (Triple.mono (handleUpTo_fits 8) here
      fun _ _ both => both)
    intro count
    cases count with
    | none => exact Triple.pure fun _ both => both.1
    | some decoded =>
        apply Triple.bind (Triple.mono (idle_fits (.ask _))
          ?_ fun _ _ both => both)
        · intro now
          apply Triple.bind (idle_fits (server.perform_leaves _))
          intro _
          split
          · exact Triple.pure fun _ both => both.1
          · rename_i fewer
            apply Triple.bind (idle_fits (.ask _))
            intro answer
            cases answer with
            | error err => exact Triple.throw fun _ both => both.1
            | ok ready =>
                cases ready with
                | false => exact Triple.pure fun _ both => both.1
                | true =>
                    exact Triple.mono (readMore_fits fit)
                      (fun _ both => ⟨both.1, both.2 fewer⟩) fun _ _ fits => fits
        · rintro conn ⟨fits, waits⟩
          obtain ⟨most, still⟩ := waits decoded rfl
          exact ⟨fits, fun fewer => still (by omega)⟩

theorem turns_fits (fit : server.ReadsFit) (count : Nat) :
    Triple server.Fits (server.turns count) (fun _ => server.Fits)
      (fun _ => server.Fits) := by
  induction count with
  | zero => exact Triple.pure fun _ fits => fits
  | succ count induction =>
      apply Triple.bind (turn_fits fit)
      intro more
      cases more with
      | true => exact induction
      | false => exact Triple.pure fun _ fits => fits

theorem driveConnectionLoop_fits (fit : server.ReadsFit) (count : Nat) :
    Triple server.Fits (server.driveConnectionLoop count) (fun _ => server.Fits)
      (fun _ => server.Fits) := by
  apply Triple.bind (Leaves.onSession _ server.Buffers)
  intro _
  apply Triple.bind (server.callHook_leaves 0 server.Buffers)
  intro _
  exact turns_fits fit count

/-- However much the producer sends, and whatever the application does, the
buffer holds at most one message and one read. -/
theorem serve_bounded (server : Server ω) (fit : server.ReadsFit) {count : Nat}
    {world : ω} {output : Except ServerError (Option Unit)}
    {final : Connection ω}
    (served : server.serve count world = some (output, final)) :
    final.input.length ≤ headerLen + server.limit + readBufferLen := by
  obtain ⟨first, accepted, runs⟩ := server.runs_of_serve served
  obtain ⟨_, _, isFirst⟩ := Res.bind_eq_ok.mp accepted
  cases isFirst
  have fits := driveConnectionLoop_fits fit count _ output final
    ⟨Nat.le_max_left _ _, Nat.zero_le _⟩ runs
  cases output <;> exact fits.2

theorem scriptWorld_readsFit : smallServer.ReadsFit := by
  intro world bytes gave
  have shorter (room count : Nat) (fits : count ≤ room) (items : Bytes) :
      (items.take count).length ≤ room := by
    rw [List.length_take]
    omega
  change (Script.read world readBufferLen).1 = .ok bytes at gave
  unfold Script.read at gave
  split at gave
  · cases gave
    exact shorter _ _ (Nat.le_refl _) _
  · cases gave
  · cases gave
    exact shorter _ _ (Nat.min_le_left _ _) _

theorem serve_bounded_both : ∃ output final,
    smallServer.serve 8 (smallScript smallBook) = some (output, final) ∧
    final.input.length ≤ headerLen + smallServer.limit + readBufferLen := by
  have ended : (smallServer.serve 8 (smallScript smallBook)).isSome = true := by
    decide +kernel
  obtain ⟨⟨output, final⟩, served⟩ := Option.isSome_iff_exists.mp ended
  exact ⟨output, final, served,
    serve_bounded smallServer scriptWorld_readsFit served⟩

end Server

end RmDisplay.Receiver
