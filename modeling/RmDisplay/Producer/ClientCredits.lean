import Mathlib.Algebra.Order.BigOperators.Group.List
import Mathlib.Algebra.Order.Ring.Nat
import RmDisplay.Producer.ClientBases

/-!
# What a client has in flight

A client sends a frame only with a credit and the bytes for it.  What it may
claim is overwritten by every result, so the frames in flight stay within the
limits as long as no result gives back the bytes of frames that are still on
their way.
-/

namespace RmDisplay.Producer

open Foundation Protocol Relation

/-- The frames without a result, in the order of sending. -/
def inFlight (journal : List Exchange) : List Frame :=
  (sentFrames journal).filter fun frame =>
    !(answeredIds journal).contains frame.frameId

/-- The decoded lengths of frames. -/
def claimed (frames : List Frame) : Nat :=
  (frames.map fun frame => ProducerClient.decodedBytes frame.regions).sum

/-- The frames in flight are within the limits of the surface. -/
structure Flow.Within (flow : Flow) (journal : List Exchange) : Prop where
  frames : (inFlight journal).length ≤ flow.creditLimit
  bytes : claimed (inFlight journal) ≤ flow.byteCreditLimit

/-- No result gives back the bytes of frames that are still in flight. -/
def Flow.Spares (flow : Flow) (journal : List Exchange) : Prop :=
  ∀ earlier result, earlier ++ [.received result] <+: journal →
    result.byteCredits + claimed (inFlight (earlier ++ [.received result])) ≤
      flow.byteCreditLimit

/-- The result that was read just now. -/
def justRead (journal : List Exchange) : Option FrameResult :=
  match journal.getLast? with
  | some (.received result) => some result
  | some (.sent _) | some (.retried _) | none => none

section

variable {flow : Flow} {journal later : List Exchange} {frame : Frame}
  {result : FrameResult}

theorem Flow.Spares.before (spares : flow.Spares later)
    (grows : journal <+: later) : flow.Spares journal :=
  fun earlier result isFront => spares earlier result (isFront.trans grows)

theorem justRead_eq_some :
    justRead journal = some result ↔
      ∃ earlier, journal = earlier ++ [.received result] := by
  unfold justRead
  constructor
  · intro isRead
    split at isRead
    · rename_i last
      cases isRead
      exact List.getLast?_eq_some_iff.mp last
    · cases isRead
    · cases isRead
    · cases isRead
  · rintro ⟨earlier, rfl⟩
    rw [List.getLast?_concat]

theorem claimed_of_sublist {some all : List Frame} (fewer : some.Sublist all) :
    claimed some ≤ claimed all :=
  (fewer.map _).sum_le_sum fun _ _ => Nat.zero_le _

theorem claimed_append (frames more : List Frame) :
    claimed (frames ++ more) = claimed frames + claimed more := by
  rw [claimed, List.map_append, List.sum_append]
  rfl

theorem ids_inFlight : (inFlight journal).map (·.frameId) =
    unanswered journal := by
  rw [inFlight, unanswered, sentIds, List.filter_map]
  rfl

theorem length_inFlight :
    (inFlight journal).length = (unanswered journal).length := by
  rw [← ids_inFlight, List.length_map]

theorem inFlight_sent (unknown : frame.frameId ∉ answeredIds journal) :
    inFlight (journal ++ [.sent frame]) = inFlight journal ++ [frame] := by
  simp [inFlight, unknown]

theorem inFlight_received :
    (inFlight (journal ++ [.received result])).Sublist (inFlight journal) := by
  rw [inFlight, inFlight, sentFrames_append, sentFrames_received,
    List.append_nil]
  apply List.monotone_filter_right
  intro frame isOpen
  simp only [answeredIds_append, List.contains_eq_mem, List.mem_append,
    Bool.not_eq_true', decide_eq_false_iff_not, not_or] at isOpen ⊢
  exact isOpen.1

theorem inFlight_retried :
    inFlight (journal ++ [.retried result]) = inFlight journal := by
  simp [inFlight]

end

namespace Tally

/-- The credits that are left are not claimed by the frames in flight. -/
structure Spends (tally : Tally) : Prop where
  credits : tally.credits ≤ tally.flow.creditLimit
  few : tally.pending.length ≤ tally.flow.creditLimit
  spare : 0 < tally.credits → tally.pending.length < 2 →
    tally.pending.length < tally.flow.creditLimit
  bytes : tally.byteCredits + claimed (inFlight tally.journal) ≤
    tally.flow.byteCreditLimit

/-- The frames in flight were always within the limits. -/
structure Thrifty (tally : Tally) : Prop extends Spends tally where
  sound : tally.Sound
  always : ∀ earlier, earlier <+: tally.journal → tally.flow.Within earlier

variable {tally later : Tally}

theorem Spends.within (spends : tally.Spends) (sound : tally.Sound) :
    tally.flow.Within tally.journal := by
  constructor
  · rw [length_inFlight, ← sound.inFlight]
    exact spends.few
  · exact Nat.le_trans (Nat.le_add_left _ _) spends.bytes

theorem Thrifty.step (thrifty : tally.Thrifty) (spends : later.Spends)
    (sound : later.Sound) (sameFlow : later.flow = tally.flow)
    (grows : later.journal = tally.journal ∨
      ∃ entry, later.journal = tally.journal ++ [entry]) :
    later.Thrifty := by
  refine ⟨spends, sound, fun earlier isFront => ?_⟩
  have within := spends.within sound
  rcases grows with same | ⟨entry, isNext⟩
  · rw [same] at isFront
    rw [sameFlow]
    exact thrifty.always earlier isFront
  · rw [isNext] at isFront
    rcases List.prefix_concat_iff.mp isFront with whole | old
    · rw [whole, ← List.concat_eq_append, List.concat_eq_append, ← isNext]
      exact within
    · rw [sameFlow]
      exact thrifty.always earlier old

end Tally

section

variable {call : Call} {start tally next : Tally}

theorem HearMove.spends (move : HearMove tally next) (spends : tally.Spends)
    (minor : 1 ≤ tally.flow.selectedMinor)
    (spares : next.flow.Spares next.journal) : next.Spends := by
  cases move with
  | @took result takes =>
      have fewer := List.length_erase_of_mem takes.inFlight
      have some := List.length_pos_of_mem takes.inFlight
      have few := spends.few
      have lessOne : ((tally.note (.received result)).answered
          result).pending.length = tally.pending.length - 1 := by
        rw [Tally.answered_pending]
        exact fewer
      refine ⟨takes.credits, ?_, fun _ _ => ?_, ?_⟩
      · rw [lessOne]
        exact Nat.le_trans (Nat.sub_le _ _) few
      · rw [lessOne]
        exact Nat.lt_of_lt_of_le (Nat.sub_lt some Nat.one_pos) few
      · have kept : 1 ≤ (tally.note (.received result)).flow.selectedMinor :=
          minor
        rw [Tally.answered_byteCredits result kept]
        exact spares tally.journal result (List.prefix_refl _)
  | @ignored result _ =>
      refine ⟨spends.credits, spends.few, spends.spare, ?_⟩
      exact Nat.le_trans (Nat.add_le_add_left
        (claimed_of_sublist inFlight_received) _) spends.bytes
  | demanded =>
      exact ⟨spends.credits, spends.few, spends.spare, spends.bytes⟩

theorem CallMove.spends (move : CallMove call start tally next)
    (sound : tally.Sound) (spends : tally.Spends)
    (minor : 1 ≤ tally.flow.selectedMinor)
    (spares : next.flow.Spares next.journal) : next.Spends := by
  cases move with
  | hears move => exact move.spends spends minor spares
  | retried result =>
      refine ⟨spends.credits, spends.few, spends.spare, ?_⟩
      change tally.byteCredits +
        claimed (inFlight (tally.journal ++ [Exchange.retried result])) ≤
          tally.flow.byteCreditLimit
      rw [inFlight_retried]
      exact spends.bytes
  | skipped needed =>
      have fewer := spends.credits
      have bytes := spends.bytes
      refine ⟨?_, spends.few, fun left => spends.spare ?_, ?_⟩
      · change tally.credits - 1 ≤ tally.flow.creditLimit
        omega
      · exact Nat.lt_of_lt_of_le left (Nat.sub_le _ _)
      · change tally.byteCredits - needed + claimed (inFlight tally.journal) ≤
          tally.flow.byteCreditLimit
        exact Nat.le_trans (Nat.add_le_add_right (Nat.sub_le _ _) _) bytes
  | @sent frame needsKeyframe isNext _ _ affords =>
      have unknown : frame.frameId ∉ answeredIds tally.journal := by
        intro member
        have below := sound.fresh _ (sound.known _ member)
        omega
      obtain ⟨credit, enough, one⟩ := affords
      have credits := spends.credits
      have spare := spends.spare credit one
      refine ⟨?_, ?_, fun left few => ?_, ?_⟩
      · change tally.credits - 1 ≤ tally.flow.creditLimit
        omega
      · change (tally.pending ++ [frame.frameId]).length ≤ tally.flow.creditLimit
        rw [List.length_append, List.length_singleton]
        exact spare
      · change 0 < tally.credits - 1 at left
        change (tally.pending ++ [frame.frameId]).length < 2 at few
        change (tally.pending ++ [frame.frameId]).length < tally.flow.creditLimit
        omega
      · change tally.byteCredits - ProducerClient.decodedBytes frame.regions +
          claimed (inFlight (tally.journal ++ [Exchange.sent frame])) ≤
            tally.flow.byteCreditLimit
        have bytes := spends.bytes
        have isClaimed : claimed [frame] =
            ProducerClient.decodedBytes frame.regions := by simp [claimed]
        rw [inFlight_sent unknown, claimed_append, isClaimed]
        omega

theorem CallMove.writes (move : CallMove call start tally next) :
    next.journal = tally.journal ∨
      ∃ entry, next.journal = tally.journal ++ [entry] := by
  cases move with
  | hears move =>
      cases move with
      | took _ | ignored _ => exact .inr ⟨_, rfl⟩
      | demanded => exact .inl rfl
  | skipped _ => exact .inl rfl
  | retried _ | sent _ _ _ _ _ => exact .inr ⟨_, rfl⟩

theorem thrifty_of_moves
    (moves : ReflTransGen (CallMove call start) tally next)
    (thrifty : tally.Thrifty) (minor : 1 ≤ tally.flow.selectedMinor)
    (sequenced : next.flow.Sequenced next.journal)
    (spares : next.flow.Spares next.journal) : next.Thrifty := by
  induction moves with
  | refl => exact thrifty
  | @tail between last moves move induction =>
      obtain ⟨sameFlow, _, grows⟩ := move.grows
      have wasSequenced := sequenced.before grows
      have spared := spares.before grows
      rw [sameFlow] at wasSequenced spared
      have thrifty := induction wasSequenced spared
      have isMinor : 1 ≤ between.flow.selectedMinor := by
        rw [(continues_of_moves moves).flow]
        exact minor
      exact thrifty.step (move.spends thrifty.sound thrifty.toSpends isMinor
        spares) (move.sound thrifty.sound sequenced) sameFlow move.writes

end

/-- A surface that was just opened has all credits left. -/
theorem thrifty_of_opened {client opened : ProducerClient}
    {ready : SurfaceReady} {surface : Surface}
    (accepted : client.acceptSurface ready = .ok (surface, opened)) :
    opened.tally.Thrifty := by
  obtain ⟨sound, empty⟩ := acceptSurface_blank accepted
  have isEmpty : opened.tally.journal = [] := empty
  have spends : opened.tally.Spends := by
    unfold ProducerClient.acceptSurface at accepted
    repeat' split at accepted
    all_goals
      cases accepted
      try exact ⟨Nat.le_refl _, Nat.zero_le _, fun some _ => some,
        Nat.le_refl _⟩
  refine ⟨spends, sound, fun earlier isFront => ?_⟩
  rw [isEmpty, List.prefix_nil] at isFront
  rw [isFront, ← isEmpty]
  exact spends.within sound

/-- As long as results do not give back what is in flight, a client stays within
the limits. -/
theorem ClientRun.within {start final : ProducerClient} {ready : SurfaceReady}
    {history : List ClientEvent} (run : ClientRun start ready history final)
    (minor : 1 ≤ final.flow.selectedMinor)
    (sequenced : final.flow.Sequenced final.journal)
    (spares : final.flow.Spares final.journal) :
    ∀ earlier, earlier <+: final.journal → final.flow.Within earlier := by
  obtain ⟨_, opened, accepted, run⟩ := run
  suffices thrifty : final.tally.Thrifty from thrifty.always
  induction run with
  | nil => exact thrifty_of_opened accepted
  | @snoc older before after input output earlier stepped induction =>
      let event : ClientEvent := ⟨before, input, output, after⟩
      have continues := @continues_of_step event stepped
      have sameFlow : after.flow = before.flow := continues.flow
      have wasSequenced := sequenced.before continues.grows
      have spared := spares.before continues.grows
      have isMinor : 1 ≤ before.flow.selectedMinor := by
        rw [← sameFlow]
        exact minor
      rw [sameFlow] at wasSequenced spared
      have thrifty := induction isMinor wasSequenced spared
      rcases moves_of_run stepped with ⟨call, _, moves⟩ | ⟨_, hears⟩
      · exact thrifty_of_moves moves thrifty isMinor sequenced spares
      · exact thrifty_of_moves (@calling_of_hears .idle before.tally _ _ hears)
          thrifty isMinor sequenced spares

end RmDisplay.Producer
