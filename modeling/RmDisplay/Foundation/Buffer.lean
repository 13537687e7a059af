import Mathlib.Tactic.Common

/-!
# Slices of flat buffers

Reading, overwriting and setting a part of a buffer, with a missing result
where an index would leave the buffer.  Each operation has one lemma that says
what every position holds afterwards.
-/

namespace RmDisplay.Foundation

namespace Buffer

variable {α : Type}

/-- `buffer[start .. start + count]`. -/
def slice (buffer : List α) (start count : Nat) : Option (List α) :=
  if start + count ≤ buffer.length then
    some ((buffer.drop start).take count)
  else none

/-- Copy `source` over `buffer[start .. start + source.len()]`. -/
def overwrite (buffer : List α) (start : Nat) (source : List α) :
    Option (List α) :=
  if start + source.length ≤ buffer.length then
    some (buffer.take start ++ source ++ buffer.drop (start + source.length))
  else none

/-- `buffer[index] = value`. -/
def put (buffer : List α) (index : Nat) (value : α) : Option (List α) :=
  if index < buffer.length then some (buffer.set index value) else none

theorem slice_eq (buffer : List α) (start count : Nat)
    (fits : start + count ≤ buffer.length) :
    slice buffer start count = some ((buffer.drop start).take count) := by
  rw [slice, if_pos fits]

theorem length_of_slice {buffer part : List α} {start count : Nat}
    (read : slice buffer start count = some part) : part.length = count := by
  unfold slice at read
  split at read
  · cases read
    simp only [List.length_take, List.length_drop]
    omega
  · cases read

theorem getElem?_of_slice {buffer part : List α} {start count : Nat}
    (read : slice buffer start count = some part) (offset : Nat) :
    part[offset]? = if offset < count then buffer[start + offset]? else none := by
  unfold slice at read
  split at read
  · cases read
    rw [List.getElem?_take]
    split <;> simp
  · cases read

theorem overwrite_fits (buffer source : List α) (start : Nat)
    (fits : start + source.length ≤ buffer.length) :
    overwrite buffer start source =
      some (buffer.take start ++ source ++
        buffer.drop (start + source.length)) := by
  rw [overwrite, if_pos fits]

theorem length_of_overwrite {buffer source result : List α} {start : Nat}
    (written : overwrite buffer start source = some result) :
    result.length = buffer.length := by
  unfold overwrite at written
  split at written
  · cases written
    simp only [List.length_append, List.length_take, List.length_drop]
    omega
  · cases written

theorem getElem?_of_overwrite {buffer source result : List α} {start : Nat}
    (written : overwrite buffer start source = some result) (index : Nat) :
    result[index]? =
      if start ≤ index ∧ index < start + source.length then
        source[index - start]?
      else buffer[index]? := by
  unfold overwrite at written
  split at written
  · rename_i fits
    cases written
    have headLength : (buffer.take start).length = start := by
      rw [List.length_take]
      omega
    rcases Nat.lt_or_ge index start with before | after
    · rw [List.append_assoc, List.getElem?_append_left (by omega),
        List.getElem?_take, if_pos before, if_neg (by omega)]
    · rcases Nat.lt_or_ge index (start + source.length) with inside | beyond
      · rw [List.getElem?_append_left (by
            rw [List.length_append]
            omega),
          List.getElem?_append_right (by omega), headLength, if_pos ⟨after, inside⟩]
      · rw [List.getElem?_append_right (by
            rw [List.length_append]
            omega),
          List.length_append, headLength, List.getElem?_drop, if_neg (by omega)]
        congr 1
        omega
  · cases written

theorem put_eq {buffer : List α} {index : Nat} (value : α)
    (fits : index < buffer.length) :
    put buffer index value = some (buffer.set index value) := by
  rw [put, if_pos fits]

/-- Chunk number `index` of a buffer cut into chunks of `size` items. -/
def chunk (size : Nat) (buffer : List α) (index : Nat) : List α :=
  (buffer.drop (index * size)).take size

theorem getElem?_chunk (size : Nat) (buffer : List α) (index offset : Nat) :
    (chunk size buffer index)[offset]? =
      if offset < size then buffer[index * size + offset]? else none := by
  rw [chunk, List.getElem?_take]
  split <;> simp

theorem chunk_one (buffer : List α) (index : Nat) :
    chunk 1 buffer index = buffer[index]?.toList := by
  rw [chunk, Nat.mul_one, List.take_one, List.head?_drop]

theorem length_chunk {size count index : Nat} {buffer : List α}
    (sameLength : buffer.length = count * size) (inside : index < count) :
    (chunk size buffer index).length = size := by
  have upper : (index + 1) * size ≤ count * size :=
    Nat.mul_le_mul_right size inside
  rw [Nat.add_one_mul] at upper
  rw [chunk, List.length_take, List.length_drop]
  omega

private theorem chunk_between {size start count index offset : Nat}
    (inChunk : offset < size) :
    (start * size ≤ index * size + offset ∧
        index * size + offset < start * size + count * size) ↔
      start ≤ index ∧ index < start + count := by
  constructor
  · rintro ⟨lower, upper⟩
    refine ⟨?_, ?_⟩
    · by_contra before
      have step := Nat.mul_le_mul_right size
        (show index + 1 ≤ start by omega)
      rw [Nat.add_one_mul] at step
      omega
    · by_contra beyond
      have step := Nat.mul_le_mul_right size
        (show start + count ≤ index by omega)
      rw [Nat.add_mul] at step
      omega
  · rintro ⟨lower, upper⟩
    have step := Nat.mul_le_mul_right size lower
    have next := Nat.mul_le_mul_right size
      (show index + 1 ≤ start + count by omega)
    rw [Nat.add_one_mul, Nat.add_mul] at next
    omega

/-- Overwriting whole chunks replaces those and keeps the others. -/
theorem chunk_of_overwrite {size start count : Nat}
    {buffer source result : List α} (sourceLength : source.length = count * size)
    (written : overwrite buffer (start * size) source = some result)
    (index : Nat) :
    chunk size result index =
      if start ≤ index ∧ index < start + count then
        chunk size source (index - start)
      else chunk size buffer index := by
  apply List.ext_getElem?
  intro offset
  rw [getElem?_chunk]
  rcases Nat.lt_or_ge offset size with inChunk | beyond
  · rw [if_pos inChunk, getElem?_of_overwrite written, sourceLength,
      if_congr (chunk_between inChunk) rfl rfl]
    split
    · rename_i within
      rw [getElem?_chunk, if_pos inChunk]
      congr 1
      rw [Nat.sub_mul]
      have := Nat.mul_le_mul_right size within.1
      omega
    · rw [getElem?_chunk, if_pos inChunk]
  · rw [if_neg (by omega)]
    split <;> rw [getElem?_chunk, if_neg (by omega)]

/-- Reading whole chunks. -/
theorem chunk_of_slice {size start count : Nat} {buffer part : List α}
    (read : slice buffer (start * size) (count * size) = some part)
    {index : Nat} (inside : index < count) :
    chunk size part index = chunk size buffer (start + index) := by
  apply List.ext_getElem?
  intro offset
  rw [getElem?_chunk, getElem?_chunk]
  rcases Nat.lt_or_ge offset size with inChunk | beyond
  · have next := Nat.mul_le_mul_right size
      (show index + 1 ≤ count by omega)
    rw [Nat.add_one_mul] at next
    rw [if_pos inChunk, if_pos inChunk, getElem?_of_slice read,
      if_pos (by omega), Nat.add_mul, Nat.add_assoc]
  · rw [if_neg (by omega), if_neg (by omega)]

/-- Buffers of one length are equal when all their chunks are. -/
theorem eq_of_chunks {size count : Nat} {left right : List α}
    (someSize : 0 < size) (leftLength : left.length = count * size)
    (rightLength : right.length = count * size)
    (sameChunks : ∀ index < count,
      chunk size left index = chunk size right index) : left = right := by
  apply List.ext_getElem?
  intro position
  rcases Nat.lt_or_ge position (count * size) with inside | beyond
  · have inChunk := Nat.mod_lt position someSize
    have same := congrArg (fun part : List α => part[position % size]?)
      (sameChunks (position / size)
        ((Nat.div_lt_iff_lt_mul someSize).mpr inside))
    simp only [getElem?_chunk, if_pos inChunk] at same
    rwa [Nat.div_add_mod'] at same
  · rw [List.getElem?_eq_none (by omega), List.getElem?_eq_none (by omega)]

variable {β : Type}

/-- The chunks of `size` items, without a rest that is shorter. -/
def chunksExact (size : Nat) (buffer : List α) : List (List α) :=
  (List.range (buffer.length / size)).map (chunk size buffer)

theorem length_chunksExact (size : Nat) (buffer : List α) :
    (chunksExact size buffer).length = buffer.length / size := by
  rw [chunksExact, List.length_map, List.length_range]

theorem chunksExact_short {size : Nat} {buffer : List α}
    (short : buffer.length < size) : chunksExact size buffer = [] := by
  rw [chunksExact, Nat.div_eq_of_lt short, List.range_zero, List.map_nil]

theorem chunksExact_cons {size : Nat} {buffer : List α} (someSize : 0 < size)
    (whole : size ≤ buffer.length) :
    chunksExact size buffer =
      buffer.take size :: chunksExact size (buffer.drop size) := by
  rw [chunksExact, Nat.div_eq_sub_div someSize whole, List.range_succ_eq_map,
    List.map_cons, List.map_map, chunksExact, List.length_drop]
  congr 1
  · rw [chunk, Nat.zero_mul, List.drop_zero]
  · apply List.map_congr_left
    intro index _
    rw [Function.comp_apply, chunk, chunk, List.drop_drop, Nat.succ_mul,
      Nat.add_comm]

/-- Write the image of every input over the next chunk of the buffer, while
there are inputs and whole chunks. -/
def writeChunks (size : Nat) (convert : β → List α) :
    List β → List α → List α
  | [], buffer => buffer
  | input :: inputs, buffer =>
      if buffer.length < size then buffer
      else convert input ++ writeChunks size convert inputs (buffer.drop size)

theorem writeChunks_eq {size : Nat} {convert : β → List α} {inputs : List β}
    {buffer : List α} (fits : buffer.length = inputs.length * size) :
    writeChunks size convert inputs buffer = inputs.flatMap convert := by
  induction inputs generalizing buffer with
  | nil =>
      rw [List.length_nil, Nat.zero_mul] at fits
      exact List.eq_nil_of_length_eq_zero fits
  | cons input inputs induction =>
      rw [List.length_cons, Nat.add_one_mul] at fits
      have room : ¬ buffer.length < size := by omega
      rw [writeChunks, if_neg room, List.flatMap_cons, induction]
      rw [List.length_drop]
      omega

theorem length_flatMap {size : Nat} {convert : β → List α} {inputs : List β}
    (sized : ∀ input ∈ inputs, (convert input).length = size) :
    (inputs.flatMap convert).length = inputs.length * size := by
  induction inputs with
  | nil => simp
  | cons input inputs induction =>
      obtain ⟨first, others⟩ := List.forall_mem_cons.mp sized
      rw [List.flatMap_cons, List.length_append, first, induction others,
        List.length_cons, Nat.add_one_mul, Nat.add_comm]

/-- Images of one size are the chunks of what they make up. -/
theorem getElem?_flatMap {size offset : Nat} {convert : β → List α}
    {inputs : List β} (sized : ∀ input ∈ inputs, (convert input).length = size)
    (inChunk : offset < size) (index : Nat) :
    (inputs.flatMap convert)[index * size + offset]? =
      inputs[index]?.bind fun input => (convert input)[offset]? := by
  induction inputs generalizing index with
  | nil => simp
  | cons input inputs induction =>
      obtain ⟨first, others⟩ := List.forall_mem_cons.mp sized
      rw [List.flatMap_cons]
      cases index with
      | zero =>
          rw [Nat.zero_mul, Nat.zero_add, List.getElem?_append_left (by omega)]
          rfl
      | succ index =>
          rw [List.getElem?_append_right (by
            rw [first, Nat.add_one_mul]
            omega), first, Nat.add_one_mul]
          have next : index * size + size + offset - size =
              index * size + offset := by omega
          rw [next, induction others]
          rfl

end Buffer

end RmDisplay.Foundation
