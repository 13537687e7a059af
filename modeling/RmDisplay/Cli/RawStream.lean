import RmDisplay.Foundation.Integer
import RmDisplay.Foundation.Program
import RmDisplay.Foundation.Reader
import RmDisplay.Protocol.Message

/-!
# Raw frames from a stream

`streamRawGray8` cuts the bytes of a reader into frames of one size, submits
each, and submits the newest once more as settled when the stream is over.
What it submits depends on the bytes alone, not on how the reader cuts them.

Memory is taken to suffice for one frame, so `vec![0; length]` does not fail.
The count is a `u64` in the source and a plain number here: it is at most the
number of bytes, so it overflows for no stream of fewer
than `2 ^ 64` bytes (`count_fits`).
-/

namespace RmDisplay.Cli

open Foundation Protocol

inductive PixelError where
  | zeroGeometry
  | geometryOverflow
  | partialFrame (actual expected : Nat)
  | emptyStream
  | io (message : String)
deriving DecidableEq, Repr

def frameLen (width height : Nat) : Res PixelError Nat :=
  if width = 0 ∨ height = 0 then .error .zeroGeometry
  else
    match Bounded.checkedMul u64Max width height with
    | some length => .ok length
    | none => .error .geometryOverflow

/-- The frames handed to `submit`, and whether each was settled. -/
abbrev Submissions := List (Bytes × Bool)

/-- The answer of `submit`, an error or none, may depend on the earlier calls. -/
abbrev Submit := Submissions → Bytes → Bool → Option PixelError

variable {σ : Type}

/-- The inner loop: read until the frame is full.  It returns the reader, the
frame and how much of it was read, and nothing when it is out of fuel. -/
def fillFrame (reader : Reader σ String UInt8) (length : Nat) :
    Nat → σ → Bytes → Nat → Option (Res PixelError (σ × Bytes × Nat))
  | 0, _, _, _ => none
  | fuel + 1, state, frame, read =>
      if read < length then
        match reader state (length - read) with
        | (.ok [], state) =>
            if read = 0 then some (.ok (state, frame, read))
            else some (.error (.partialFrame read length))
        | (.ok given, state) =>
            -- the reader writes into `frame[read..]`
            fillFrame reader length fuel state
              (frame.take read ++ given.take (length - read) ++
                frame.drop (read + given.length))
              (read + given.length)
        | (.interrupted, state) =>
            fillFrame reader length fuel state frame read
        | (.failed message, _) => some (.error (.io message))
      else some (.ok (state, frame, read))

/-- The outer loop: submit every full frame.  It returns the frame, how many
were submitted, and the submissions. -/
def streamFrames (reader : Reader σ String UInt8) (submit : Submit)
    (length fuel : Nat) : Nat → σ → Bytes → Nat → Submissions →
      Option (Res PixelError (Bytes × Nat) × Submissions)
  | 0, _, _, _, _ => none
  | turns + 1, state, frame, count, calls =>
      match fillFrame reader length fuel state frame 0 with
      | none => none
      | some .panic => some (.panic, calls)
      | some (.error err) => some (.error err, calls)
      | some (.ok (state, frame, read)) =>
          if read = 0 then some (.ok (frame, count), calls)
          else
            match submit calls frame false with
            | some err => some (.error err, calls ++ [(frame, false)])
            | none =>
                streamFrames reader submit length fuel turns state frame
                  (count + 1) (calls ++ [(frame, false)])

def streamRawGray8 (reader : Reader σ String UInt8) (submit : Submit)
    (width height fuel : Nat) (state : σ) :
    Option (Res PixelError Nat × Submissions) :=
  match frameLen width height with
  | .panic => some (.panic, [])
  | .error err => some (.error err, [])
  | .ok length =>
      match streamFrames reader submit length fuel fuel state
          (List.replicate length 0) 0 [] with
      | none => none
      | some (.panic, calls) => some (.panic, calls)
      | some (.error err, calls) => some (.error err, calls)
      | some (.ok (frame, count), calls) =>
          if count = 0 then some (.error .emptyStream, calls)
          else
            match submit calls frame true with
            | some err => some (.error err, calls ++ [(frame, true)])
            | none => some (.ok count, calls ++ [(frame, true)])

/-- How a frame is filled from the bytes that are still to come. -/
def filled (length : Nat) (frame : Bytes) (read : Nat) (bytes : Bytes)
    (after : σ) : Res PixelError (σ × Bytes × Nat) :=
  if length - read ≤ bytes.length then
    .ok (after, frame.take read ++ bytes.take (length - read), length)
  else if read + bytes.length = 0 then .ok (after, frame, 0)
  else .error (.partialFrame (read + bytes.length) length)

/-- Enough fuel fills the frame from these bytes, and the reader still delivers
those after the frame. -/
def Fills (reader : Reader σ String UInt8) (length : Nat) (state : σ)
    (frame : Bytes) (read : Nat) (bytes : Bytes) : Prop :=
  ∃ after enough,
    (length - read ≤ bytes.length →
      Delivers reader after (bytes.drop (length - read))) ∧
    ∀ fuel, enough ≤ fuel →
      fillFrame reader length fuel state frame read =
        some (filled length frame read bytes after)

namespace Fills

variable {reader : Reader σ String UInt8} {length read : Nat}
  {state after : σ} {frame bytes given rest : Bytes}

theorem of_full (delivers : Delivers reader state bytes)
    (sized : frame.length = length) (full : read = length) :
    Fills reader length state frame read bytes := by
  subst full
  refine ⟨state, 1, fun _ => ?_, fun fuel fueled => ?_⟩
  · rw [Nat.sub_self, List.drop_zero]
    exact delivers
  · obtain ⟨fuel, rfl⟩ := Nat.exists_eq_add_of_le' fueled
    rw [fillFrame, if_neg (Nat.lt_irrefl _), filled, Nat.sub_self,
      if_pos (Nat.zero_le _), List.take_zero, List.append_nil,
      List.take_of_length_le (Nat.le_of_eq sized)]

theorem of_end (before : read < length)
    (reads : reader state (length - read) = (.ok [], after)) :
    Fills reader length state frame read [] := by
  have short : ¬ length - read ≤ ([] : Bytes).length := by
    rw [List.length_nil]
    omega
  refine ⟨after, 1, fun whole => absurd whole short, fun fuel fueled => ?_⟩
  obtain ⟨fuel, rfl⟩ := Nat.exists_eq_add_of_le' fueled
  rw [fillFrame, if_pos before, reads, filled, if_neg short]
  by_cases untouched : read = 0
  · simp [untouched]
  · simp [untouched]

private theorem filled_append (sized : frame.length = length)
    (nonempty : 0 < given.length) (fits : given.length ≤ length - read)
    (before : read < length) :
    filled length
        (frame.take read ++ given.take (length - read) ++
          frame.drop (read + given.length))
        (read + given.length) rest after =
      filled length frame read (given ++ rest) after := by
  have headLength : (frame.take read).length = read := by
    rw [List.length_take]
    omega
  unfold filled
  rw [List.length_append]
  by_cases full : length - read ≤ given.length + rest.length
  · rw [if_pos (by omega), if_pos full, List.take_of_length_le fits,
      List.take_append_of_le_length (by
        rw [List.length_append]
        omega),
      List.take_of_length_le (by
        rw [List.length_append]
        omega),
      List.append_assoc, List.take_append, List.take_of_length_le fits,
      Nat.sub_add_eq]
  · rw [if_neg (by omega), if_neg (by omega), if_neg full,
      if_neg (by omega), Nat.add_assoc]

theorem of_given (sized : frame.length = length) (before : read < length)
    (reads : reader state (length - read) = (.ok given, after))
    (nonempty : 0 < given.length) (fits : given.length ≤ length - read)
    (fills : Fills reader length after
      (frame.take read ++ given.take (length - read) ++
        frame.drop (read + given.length))
      (read + given.length) rest) :
    Fills reader length state frame read (given ++ rest) := by
  obtain ⟨last, enough, drops, returns⟩ := fills
  refine ⟨last, enough + 1, fun whole => ?_, fun fuel fueled => ?_⟩
  · rw [List.length_append] at whole
    rw [List.drop_append, List.drop_of_length_le fits, List.nil_append,
      Nat.sub_sub]
    exact drops (by omega)
  · obtain ⟨fuel, rfl⟩ := Nat.exists_eq_add_of_le' fueled
    rw [← Nat.add_assoc, fillFrame, if_pos before, reads,
      ← filled_append sized nonempty fits before]
    cases given with
    | nil => exact absurd nonempty (Nat.lt_irrefl 0)
    | cons => exact returns _ (by omega)

theorem of_interrupted (before : read < length)
    (reads : reader state (length - read) = (.interrupted, after))
    (fills : Fills reader length after frame read bytes) :
    Fills reader length state frame read bytes := by
  obtain ⟨last, enough, drops, returns⟩ := fills
  refine ⟨last, enough + 1, drops, fun fuel fueled => ?_⟩
  obtain ⟨fuel, rfl⟩ := Nat.exists_eq_add_of_le' fueled
  rw [← Nat.add_assoc, fillFrame, if_pos before, reads]
  exact returns _ (by omega)

theorem of_delivers (delivers : Delivers reader state bytes)
    (sized : frame.length = length) (within : read ≤ length) :
    Fills reader length state frame read bytes := by
  induction delivers generalizing frame read with
  | @reads state bytes rest gives later induction =>
      rcases Nat.lt_or_ge read length with before | full
      · have room : 0 < length - read := by omega
        have answer := gives _ room
        have next := @induction _ room
        cases reads : reader state (length - read) with
        | mk result after =>
        rw [reads] at answer next
        cases result with
        | ok given =>
            obtain ⟨fits, rfl, atEnd⟩ := answer
            cases given with
            | nil =>
                rw [atEnd rfl]
                exact of_end before reads
            | cons item given =>
                have nonempty : 0 < (item :: given).length := by simp
                apply of_given sized before reads nonempty fits
                apply next (by simp)
                · simp only [List.length_append, List.length_take,
                    List.length_drop]
                  omega
                · omega
        | interrupted =>
            cases answer
            exact of_interrupted before reads (next (by simp) sized within)
        | failed message => exact answer.elim
      · exact of_full (.reads rest gives later) sized
          (Nat.le_antisymm within full)

end Fills

/-- What the outer loop makes of the frames and the tail of the bytes. -/
def looped (length : Nat) (frame : Bytes) (count : Nat) (bytes : Bytes) :
    Res PixelError (Bytes × Nat) :=
  let frames := Buffer.chunksExact length bytes
  if bytes.length % length = 0 then
    .ok (frames.getLastD frame, count + frames.length)
  else .error (.partialFrame (bytes.length % length) length)

/-- The outer loop submits the whole frames of the bytes in order.  The
induction is on the bytes that are still to come. -/
theorem streamFrames_looped {reader : Reader σ String UInt8} {submit : Submit}
    {length : Nat} {state : σ} {bytes : Bytes} (someLength : 0 < length)
    (succeeds : ∀ calls frame settled, submit calls frame settled = none)
    (delivers : Delivers reader state bytes) {frame : Bytes}
    (sized : frame.length = length) (count : Nat) (calls : Submissions) :
    ∃ enough, ∀ fuel turns, enough ≤ fuel → enough ≤ turns →
      streamFrames reader submit length fuel turns state frame count calls =
        some (looped length frame count bytes,
          calls ++ (Buffer.chunksExact length bytes).map (·, false)) := by
  induction size : bytes.length using Nat.strongRecOn
    generalizing state bytes frame count calls with
  | ind left induction =>
      obtain ⟨after, enough, drops, fills⟩ :=
        Fills.of_delivers delivers sized (Nat.zero_le length)
      rw [Nat.sub_zero] at drops
      rcases Nat.lt_or_ge bytes.length length with short | whole
      · have noFrame := Buffer.chunksExact_short short
        refine ⟨enough + 1, fun fuel turns fueled turned => ?_⟩
        obtain ⟨turns, rfl⟩ := Nat.exists_eq_add_of_le' turned
        rw [← Nat.add_assoc, streamFrames, fills fuel (by omega), filled,
          if_neg (by omega), Nat.zero_add, looped, noFrame,
          Nat.mod_eq_of_lt short]
        by_cases empty : bytes.length = 0
        · simp [empty]
        · simp [empty]
      · have next := Buffer.chunksExact_cons someLength whole
        have taken : (bytes.take length).length = length := by
          rw [List.length_take]
          omega
        have fewer : (bytes.drop length).length < left := by
          rw [List.length_drop]
          omega
        obtain ⟨more, rest⟩ := induction _ fewer (drops whole) taken
          (count + 1) (calls ++ [(bytes.take length, false)]) rfl
        refine ⟨max enough more + 1, fun fuel turns fueled turned => ?_⟩
        obtain ⟨turns, rfl⟩ := Nat.exists_eq_add_of_le' turned
        have full : filled length frame 0 bytes after =
            .ok (after, bytes.take length, length) := by
          rw [filled, Nat.sub_zero, if_pos whole, List.take_zero,
            List.nil_append]
        have nonzero : length ≠ 0 := by omega
        rw [← Nat.add_assoc, streamFrames, fills fuel (by omega), full]
        simp only [if_neg nonzero, succeeds]
        rw [rest fuel _ (by omega) (by omega), next, List.map_cons,
          List.append_assoc, List.singleton_append]
        congr 2
        rw [looped, looped, next, List.length_drop,
          ← Nat.mod_eq_sub_mod whole, List.getLastD_cons, List.length_cons,
          Nat.add_assoc, Nat.add_comm 1]

/-- What a stream of bytes comes to: the result, and the frames submitted. -/
def streamed (length : Nat) (bytes : Bytes) :
    Res PixelError Nat × Submissions :=
  let frames := Buffer.chunksExact length bytes
  let unsettled := frames.map (·, false)
  if bytes.length % length = 0 then
    match frames.getLast? with
    | none => (.error .emptyStream, unsettled)
    | some newest => (.ok frames.length, unsettled ++ [(newest, true)])
  else (.error (.partialFrame (bytes.length % length) length), unsettled)

theorem count_of_streamed {length count : Nat} {bytes : Bytes}
    (returned : (streamed length bytes).1 = .ok count) :
    count * length = bytes.length := by
  unfold streamed at returned
  dsimp only at returned
  by_cases aligned : bytes.length % length = 0
  · rw [if_pos aligned] at returned
    cases last : (Buffer.chunksExact length bytes).getLast? with
    | none =>
        rw [last] at returned
        cases returned
    | some newest =>
        rw [last] at returned
        injection returned with isCount
        rw [← isCount, Buffer.length_chunksExact]
        exact Nat.div_mul_cancel (Nat.dvd_of_mod_eq_zero aligned)
  · rw [if_neg aligned] at returned
    cases returned

theorem count_fits {length count : Nat} {bytes : Bytes} (someLength : 0 < length)
    (fits : bytes.length ≤ u64Max)
    (returned : (streamed length bytes).1 = .ok count) : count ≤ u64Max :=
  calc
    count ≤ count * length := Nat.le_mul_of_pos_right count someLength
    _ = bytes.length := count_of_streamed returned
    _ ≤ u64Max := fits

theorem frameLen_eq {width height : Nat} (wide : 0 < width)
    (tall : 0 < height) (widthWord : width ≤ u32Max)
    (heightWord : height ≤ u32Max) :
    frameLen width height = .ok (width * height) := by
  have fits : width * height ≤ u64Max :=
    Nat.le_trans (Nat.mul_le_mul widthWord heightWord) (by decide)
  have nonzero : ¬ (width = 0 ∨ height = 0) := by omega
  rw [frameLen, if_neg nonzero, Bounded.checkedMul, if_pos fits]

/-- Whatever the reader does on the way, the submissions and the result are a
function of the bytes it delivers. -/
theorem streamRawGray8_streamed {reader : Reader σ String UInt8}
    {submit : Submit} {state : σ} {bytes : Bytes} {width height : Nat}
    (wide : 0 < width) (tall : 0 < height) (widthWord : width ≤ u32Max)
    (heightWord : height ≤ u32Max)
    (succeeds : ∀ calls frame settled, submit calls frame settled = none)
    (delivers : Delivers reader state bytes) :
    ∃ enough, ∀ fuel, enough ≤ fuel →
      streamRawGray8 reader submit width height fuel state =
        some (streamed (width * height) bytes) := by
  have someLength : 0 < width * height := Nat.mul_pos wide tall
  obtain ⟨enough, loops⟩ := streamFrames_looped someLength succeeds delivers
    (List.length_replicate (a := (0 : UInt8))) 0 []
  refine ⟨enough, fun fuel fueled => ?_⟩
  rw [streamRawGray8, frameLen_eq wide tall widthWord heightWord]
  simp only [loops fuel fuel fueled fueled, looped, streamed, List.nil_append,
    Nat.zero_add]
  generalize Buffer.chunksExact (width * height) bytes = frames
  by_cases aligned : bytes.length % (width * height) = 0
  · rw [if_pos aligned, if_pos aligned]
    cases last : frames.getLast? with
    | none =>
        rw [List.getLast?_eq_none_iff] at last
        simp [last]
    | some newest =>
        have nonempty : frames.length ≠ 0 := by
          intro none
          rw [List.eq_nil_of_length_eq_zero none] at last
          cases last
        simp [nonempty, succeeds, List.getLastD_eq_getLast?, last]
  · rw [if_neg aligned, if_neg aligned]

/-- One byte is read, then an interruption, and then the rest. -/
theorem streamRawGray8_interrupted :
    ∃ enough, ∀ fuel, enough ≤ fuel →
      streamRawGray8 Script.read (fun _ _ _ => none) 2 1 fuel
          ⟨[1, 2, 3, 4], [some 0, none]⟩ =
        some (.ok 2, [([1, 2], false), ([3, 4], false), ([3, 4], true)]) :=
  streamRawGray8_streamed (by decide) (by decide) (by decide) (by decide)
    (fun _ _ _ => rfl) (Script.delivers ⟨[1, 2, 3, 4], [some 0, none]⟩)

end RmDisplay.Cli
