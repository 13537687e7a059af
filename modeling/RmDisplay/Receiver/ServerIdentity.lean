import RmDisplay.Foundation.Buffer
import RmDisplay.Foundation.Program
import RmDisplay.Protocol.Message

/-!
# The stored identity of a receiver

The identity is kept as a line of hexadecimal digits.  The digits are read in
pairs by a parser of integers, which allows a sign in front of a digit.
-/

namespace RmDisplay.Receiver

open Foundation Protocol

/-- `char::to_digit(16)`. -/
def hexDigit (letter : Char) : Option Nat :=
  if '0' ≤ letter ∧ letter ≤ '9' then some (letter.toNat - '0'.toNat)
  else if 'a' ≤ letter ∧ letter ≤ 'f' then
    some (letter.toNat - 'a'.toNat + 10)
  else if 'A' ≤ letter ∧ letter ≤ 'F' then
    some (letter.toNat - 'A'.toNat + 10)
  else none

/-- The value of digits that follow one another, while it fits a byte. -/
def digitsValue (digits : List Char) : Option Nat :=
  digits.foldlM (fun value letter => do
    let digit ← hexDigit letter
    if value * 16 + digit ≤ 255 then some (value * 16 + digit) else none) 0

/-- `u8::from_str_radix(text, 16)`: digits with an optional plus sign. -/
def fromStrRadix16 (text : List Char) : Option UInt8 :=
  if text = [] ∨ text = ['+'] ∨ text = ['-'] then none
  else
    let digits := if text.head? = some '+' then text.tail else text
    (digitsValue digits).map UInt8.ofNat

/-- Length of a text in bytes. -/
def utf8Len (text : List Char) : Nat := (text.map Char.utf8Size).sum

def isAscii (text : List Char) : Bool := text.all (·.toNat < 128)

def parseHex (count : Nat) (value : List Char) : Res String Bytes :=
  if utf8Len value ≠ count * 2 ∨ !isAscii value then
    .error ("expected " ++ toString (count * 2) ++ " hexadecimal characters")
  else
    (List.range count).mapM fun index =>
      match fromStrRadix16 (Buffer.chunk 2 value index) with
      | some byte => .ok byte
      | none => .error "invalid hexadecimal value"

/-- Unicode white space. -/
def isWhitespace (letter : Char) : Bool :=
  let code := letter.toNat
  (9 ≤ code && code ≤ 13) || code == 0x20 || code == 0x85 || code == 0xa0 ||
    code == 0x1680 || (0x2000 ≤ code && code ≤ 0x200a) || code == 0x2028 ||
    code == 0x2029 || code == 0x202f || code == 0x205f || code == 0x3000

def trimEnd (text : List Char) : List Char :=
  (text.reverse.dropWhile isWhitespace).reverse

inductive IdentityError where
  | invalidData (message : String)
  | permissionDenied (message : String)
deriving DecidableEq, Repr

structure IdentityFile where
  isFile : Bool
  mode : Nat
  text : List Char
deriving DecidableEq, Repr

def loadServerId (file : IdentityFile) : Res IdentityError Bytes :=
  if !file.isFile then
    .error (.invalidData "identity path is not a regular file")
  else if file.mode &&& 0o077 ≠ 0 then
    .error (.permissionDenied
      "identity file permissions must be 0600 or stricter")
  else (parseHex 16 (trimEnd file.text)).mapError .invalidData

/-- Two lower-case digits of a byte. -/
def lowerHex (byte : UInt8) : List Char :=
  [Nat.digitChar (byte.toNat / 16), Nat.digitChar (byte.toNat % 16)]

/-- The file that is created; it did not exist before. -/
def storeServerId (serverId : Vector UInt8 16) : IdentityFile where
  isFile := true
  mode := 0o600
  text := serverId.toList.flatMap lowerHex ++ ['\n']

/-- The bytes of a text of digits, two for each byte. -/
def hexBytes : List Char → Option Bytes
  | [] => some []
  | [_] => none
  | high :: low :: rest => do
      let highDigit ← hexDigit high
      let lowDigit ← hexDigit low
      let bytes ← hexBytes rest
      return UInt8.ofNat (highDigit * 16 + lowDigit) :: bytes

/-- The text is accepted just if it has the right number of digits, and the
bytes are those it denotes. -/
def ExactOn (count : Nat) (text : List Char) : Prop :=
  ∀ bytes, parseHex count text = .ok bytes ↔
    text.length = count * 2 ∧ hexBytes text = some bytes

/-- Pairs of two digits, or of a plus sign and a digit. -/
def SignedDigits : List Char → Prop
  | [] => True
  | [_] => False
  | high :: low :: rest =>
      (high = '+' ∨ (hexDigit high).isSome) ∧ (hexDigit low).isSome ∧
        SignedDigits rest

/-- Some digit of the text has a plus sign in the place of another. -/
def HasSign (count : Nat) (text : List Char) : Prop :=
  text.length = count * 2 ∧ SignedDigits text ∧ '+' ∈ text

def Lowercase (text : List Char) : Prop :=
  ∀ letter ∈ text, ¬ ('A' ≤ letter ∧ letter ≤ 'Z')

instance (text : List Char) : Decidable (Lowercase text) :=
  inferInstanceAs (Decidable (∀ letter ∈ text, _))

private theorem le_iff_toNat {left right : Char} :
    left ≤ right ↔ left.toNat ≤ right.toNat := by
  rw [Char.le_def, UInt32.le_iff_toNat_le]
  rfl

theorem hexDigit_eq_some {letter : Char} {digit : Nat} :
    hexDigit letter = some digit ↔
      (48 ≤ letter.toNat ∧ letter.toNat ≤ 57 ∧ letter.toNat = digit + 48) ∨
      (97 ≤ letter.toNat ∧ letter.toNat ≤ 102 ∧ letter.toNat = digit + 87) ∨
      (65 ≤ letter.toNat ∧ letter.toNat ≤ 70 ∧ letter.toNat = digit + 55) := by
  have codes : '0'.toNat = 48 ∧ '9'.toNat = 57 ∧ 'a'.toNat = 97 ∧
      'f'.toNat = 102 ∧ 'A'.toNat = 65 ∧ 'F'.toNat = 70 := by decide
  obtain ⟨zero, nine, a, f, upperA, upperF⟩ := codes
  unfold hexDigit
  simp only [le_iff_toNat, zero, nine, a, f, upperA, upperF]
  split
  · rw [Option.some.injEq]
    omega
  · split
    · rw [Option.some.injEq]
      omega
    · split
      · rw [Option.some.injEq]
        omega
      · simp only [reduceCtorEq, false_iff]
        omega

theorem hexDigit_plus : hexDigit '+' = none := by decide

theorem hexDigit_ascii {letter : Char} {digit : Nat}
    (read : hexDigit letter = some digit) : letter.toNat < 128 := by
  rw [hexDigit_eq_some] at read
  omega

theorem hexDigit_inj {letter other : Char} {digit : Nat}
    (lower : ¬ ('A' ≤ letter ∧ letter ≤ 'Z'))
    (otherLower : ¬ ('A' ≤ other ∧ other ≤ 'Z'))
    (read : hexDigit letter = some digit)
    (otherRead : hexDigit other = some digit) : letter = other := by
  have codes : 'A'.toNat = 65 ∧ 'Z'.toNat = 90 := by decide
  rw [le_iff_toNat, le_iff_toNat, codes.1, codes.2] at lower otherLower
  rw [hexDigit_eq_some] at read otherRead
  apply Char.toNat_inj.mp
  omega

theorem hexDigit_digitChar {digit : Nat} (small : digit < 16) :
    hexDigit (Nat.digitChar digit) = some digit := by
  have all : ∀ digit : Fin 16,
      hexDigit (Nat.digitChar digit) = some digit.val := by decide
  exact all ⟨digit, small⟩

/-- The first letter of a pair, where a plus sign adds nothing. -/
def signedDigit (letter : Char) : Option Nat :=
  if letter = '+' then some 0 else hexDigit letter

/-- The bytes of a text whose digits may have signs. -/
def signedBytes : List Char → Option Bytes
  | [] => some []
  | [_] => none
  | high :: low :: rest => do
      let highDigit ← signedDigit high
      let lowDigit ← hexDigit low
      let bytes ← signedBytes rest
      return UInt8.ofNat (highDigit * 16 + lowDigit) :: bytes

theorem fromStrRadix16_pair (high low : Char) :
    fromStrRadix16 [high, low] = (do
      let highDigit ← signedDigit high
      let lowDigit ← hexDigit low
      return UInt8.ofNat (highDigit * 16 + lowDigit)) := by
  have fits {digit : Nat} {letter : Char}
      (read : hexDigit letter = some digit) : digit ≤ 15 := by
    rw [hexDigit_eq_some] at read
    omega
  by_cases sign : high = '+'
  · subst sign
    cases lowRead : hexDigit low with
    | none =>
        simp [fromStrRadix16, signedDigit, digitsValue, lowRead]
    | some digit =>
        have small := fits lowRead
        have byte : digit ≤ 255 := by omega
        simp [fromStrRadix16, signedDigit, digitsValue, lowRead, byte]
  · cases highRead : hexDigit high with
    | none =>
        simp [fromStrRadix16, signedDigit, digitsValue, sign, highRead]
    | some highDigit =>
        have small := fits highRead
        have first : highDigit ≤ 255 := by omega
        cases lowRead : hexDigit low with
        | none =>
            simp [fromStrRadix16, signedDigit, digitsValue, sign, highRead,
              lowRead, first]
        | some lowDigit =>
            have lowSmall := fits lowRead
            have byte : highDigit * 16 + lowDigit ≤ 255 := by omega
            simp [fromStrRadix16, signedDigit, digitsValue, sign, highRead,
              lowRead, first, byte]

/-- Reading one pair. -/
private def readPair (pair : List Char) : Res String UInt8 :=
  match fromStrRadix16 pair with
  | some byte => .ok byte
  | none => .error "invalid hexadecimal value"

private theorem chunks_of_pairs {count : Nat} {text : List Char}
    (pairs : text.length = count * 2) :
    (List.range count).map (Buffer.chunk 2 text) =
      Buffer.chunksExact 2 text := by
  rw [Buffer.chunksExact, pairs, Nat.mul_div_cancel _ (by decide)]

private theorem mapM_readPair {count : Nat} {text : List Char}
    (pairs : text.length = count * 2) (bytes : Bytes) :
    (Buffer.chunksExact 2 text).mapM readPair = .ok bytes ↔
      signedBytes text = some bytes := by
  induction count generalizing text bytes with
  | zero =>
      have empty : text = [] := List.eq_nil_of_length_eq_zero (by omega)
      rw [empty]
      simp [Buffer.chunksExact, signedBytes]
  | succ count induction =>
      rcases text with _ | ⟨high, _ | ⟨low, rest⟩⟩
      · rw [List.length_nil] at pairs
        omega
      · rw [List.length_singleton] at pairs
        omega
      · have left : rest.length = count * 2 := by
          simp only [List.length_cons] at pairs
          omega
        have whole : 2 ≤ (high :: low :: rest).length := by
          simp only [List.length_cons]
          omega
        rw [Buffer.chunksExact_cons (by decide) whole, List.mapM_cons,
          Res.bind_eq_ok]
        simp only [List.take_succ_cons, List.take_zero,
          List.drop_succ_cons, List.drop_zero, readPair,
          fromStrRadix16_pair, signedBytes, Res.bind_eq_ok,
          induction left]
        cases signedDigit high with
        | none => simp
        | some highDigit =>
            cases hexDigit low with
            | none => simp
            | some lowDigit =>
                cases signedBytes rest <;> simp

theorem signedBytes_ascii {text : List Char} {bytes : Bytes}
    (read : signedBytes text = some bytes) :
    ∀ letter ∈ text, letter.toNat < 128 := by
  induction text using signedBytes.induct generalizing bytes with
  | case1 => simp
  | case2 => cases read
  | case3 high low rest induction =>
      simp only [signedBytes, Option.bind_eq_bind,
        Option.bind_eq_some_iff] at read
      obtain ⟨highDigit, highRead, lowDigit, lowRead, others, restRead, _⟩ :=
        read
      intro letter member
      simp only [List.mem_cons] at member
      rcases member with rfl | rfl | later
      · unfold signedDigit at highRead
        split at highRead
        · rename_i sign
          rw [sign]
          decide
        · exact hexDigit_ascii highRead
      · exact hexDigit_ascii lowRead
      · exact induction restRead letter later

private theorem utf8Len_ascii {text : List Char}
    (ascii : ∀ letter ∈ text, letter.toNat < 128) :
    utf8Len text = text.length := by
  induction text with
  | nil => rfl
  | cons letter text induction =>
      obtain ⟨first, others⟩ := List.forall_mem_cons.mp ascii
      have single : letter.utf8Size = 1 := by
        apply Char.utf8Size_eq_one_iff.mpr
        rw [UInt32.le_iff_toNat_le]
        have code : letter.val.toNat = letter.toNat := rfl
        rw [code]
        exact Nat.le_of_lt_succ first
      have rest := induction others
      unfold utf8Len at *
      rw [List.map_cons, List.sum_cons, single, rest, List.length_cons,
        Nat.add_comm]

/-- Acceptance: pairs of digits, where a plus sign may stand for a leading
zero. -/
theorem parseHex_eq_ok {count : Nat} {text : List Char} {bytes : Bytes} :
    parseHex count text = .ok bytes ↔
      text.length = count * 2 ∧ signedBytes text = some bytes := by
  have loop (pairs : text.length = count * 2) :
      (List.range count).mapM (fun index =>
        match fromStrRadix16 (Buffer.chunk 2 text index) with
        | some byte => Res.ok byte
        | none => Res.error "invalid hexadecimal value") = .ok bytes ↔
        signedBytes text = some bytes := by
    rw [← mapM_readPair pairs, ← chunks_of_pairs pairs, List.mapM_map]
    rfl
  have ascii_iff : isAscii text = true ↔
      ∀ letter ∈ text, letter.toNat < 128 := by
    simp [isAscii]
  unfold parseHex
  by_cases ascii : ∀ letter ∈ text, letter.toNat < 128
  · rw [utf8Len_ascii ascii, ascii_iff.mpr ascii]
    by_cases pairs : text.length = count * 2
    · simp only [pairs, ne_eq, not_true_eq_false, Bool.not_true,
        Bool.false_eq_true, or_self, if_false, true_and]
      exact loop pairs
    · simp [pairs]
  · have isNot : isAscii text = false := by
      rw [← Bool.not_eq_true, ascii_iff]
      exact ascii
    simp only [isNot, Bool.not_false, or_true, if_true, reduceCtorEq,
      false_iff]
    rintro ⟨_, read⟩
    exact ascii (signedBytes_ascii read)

theorem signedDigits_iff {text : List Char} :
    SignedDigits text ↔ ∃ bytes, signedBytes text = some bytes := by
  induction text using SignedDigits.induct with
  | case1 => simp [SignedDigits, signedBytes]
  | case2 => simp [SignedDigits, signedBytes]
  | case3 high low rest induction =>
      have signed : (high = '+' ∨ (hexDigit high).isSome) ↔
          (signedDigit high).isSome := by
        unfold signedDigit
        split
        · rename_i sign
          simp [sign]
        · rename_i plain
          simp [plain]
      rw [SignedDigits, signed, induction]
      cases highRead : signedDigit high <;> cases lowRead : hexDigit low <;>
        cases restRead : signedBytes rest <;>
        simp [signedBytes, highRead, lowRead, restRead]

theorem hexBytes_eq_some {text : List Char} {bytes : Bytes} :
    hexBytes text = some bytes ↔
      signedBytes text = some bytes ∧ '+' ∉ text := by
  induction text using hexBytes.induct generalizing bytes with
  | case1 => simp [hexBytes, signedBytes]
  | case2 => simp [hexBytes, signedBytes]
  | case3 high low rest induction =>
      by_cases highSign : high = '+'
      · simp [hexBytes, highSign, hexDigit_plus]
      · by_cases lowSign : low = '+'
        · simp [hexBytes, lowSign, hexDigit_plus]
        · have plain : '+' ∉ high :: low :: rest ↔ '+' ∉ rest := by
            simp [Ne.symm highSign, Ne.symm lowSign]
          rw [plain]
          simp only [hexBytes, signedBytes, signedDigit, if_neg highSign,
            Option.bind_eq_bind, Option.bind_eq_some_iff, induction]
          grind

theorem exactOn_iff {count : Nat} {text : List Char} :
    ExactOn count text ↔ ¬ HasSign count text := by
  constructor
  · rintro exactly ⟨pairs, signed, plus⟩
    obtain ⟨bytes, read⟩ := signedDigits_iff.mp signed
    have accepted := (exactly bytes).mp (parseHex_eq_ok.mpr ⟨pairs, read⟩)
    exact (hexBytes_eq_some.mp accepted.2).2 plus
  · intro unsigned bytes
    rw [parseHex_eq_ok, hexBytes_eq_some]
    constructor
    · rintro ⟨pairs, read⟩
      refine ⟨pairs, read, fun plus => unsigned ⟨pairs, ?_, plus⟩⟩
      exact signedDigits_iff.mpr ⟨bytes, read⟩
    · rintro ⟨pairs, read, _⟩
      exact ⟨pairs, read⟩

/-- Lower-case digits are known by the bytes they denote. -/
theorem hexBytes_inj {text other : List Char} {bytes : Bytes}
    (lower : Lowercase text) (otherLower : Lowercase other)
    (read : hexBytes text = some bytes)
    (otherRead : hexBytes other = some bytes) : text = other := by
  induction text using hexBytes.induct generalizing other bytes with
  | case1 =>
      cases read
      match other with
      | [] => rfl
      | [_] => cases otherRead
      | high :: low :: rest =>
          simp [hexBytes, Option.bind_eq_some_iff] at otherRead
  | case2 => cases read
  | case3 high low rest induction =>
      simp only [hexBytes, Option.bind_eq_bind, Option.bind_eq_some_iff]
        at read
      obtain ⟨highDigit, highRead, lowDigit, lowRead, tail, restRead, made⟩ :=
        read
      cases made
      match other with
      | [] => cases otherRead
      | [_] => cases otherRead
      | otherHigh :: otherLow :: others =>
          simp only [hexBytes, Option.bind_eq_bind, Option.bind_eq_some_iff]
            at otherRead
          obtain ⟨otherHighDigit, otherHighRead, otherLowDigit, otherLowRead,
            otherTail, othersRead, made⟩ := otherRead
          simp only [Option.pure_def, Option.some.injEq,
            List.cons.injEq] at made
          obtain ⟨sameByte, rfl⟩ := made
          have bounds := hexDigit_eq_some.mp highRead
          have lowBounds := hexDigit_eq_some.mp lowRead
          have otherBounds := hexDigit_eq_some.mp otherHighRead
          have otherLowBounds := hexDigit_eq_some.mp otherLowRead
          have sameValue := congrArg UInt8.toNat sameByte
          simp only [UInt8.toNat_ofNat'] at sameValue
          have sameDigits : otherHighDigit = highDigit ∧
              otherLowDigit = lowDigit := by omega
          obtain ⟨rfl, rfl⟩ := sameDigits
          simp only [Lowercase, List.forall_mem_cons] at lower otherLower
          rw [hexDigit_inj lower.1 otherLower.1 highRead otherHighRead,
            hexDigit_inj lower.2.1 otherLower.2.1 lowRead otherLowRead,
            induction lower.2.2 otherLower.2.2 restRead othersRead]

theorem hexBytes_lowerHex (bytes : Bytes) :
    hexBytes (bytes.flatMap lowerHex) = some bytes := by
  induction bytes with
  | nil => rfl
  | cons byte bytes induction =>
      have small := byte.toNat_lt
      have high : byte.toNat / 16 < 16 := by omega
      have low : byte.toNat % 16 < 16 := by omega
      have whole : byte.toNat / 16 * 16 + byte.toNat % 16 = byte.toNat := by
        omega
      rw [List.flatMap_cons, lowerHex, List.cons_append, List.cons_append,
        List.nil_append, hexBytes, hexDigit_digitChar high,
        hexDigit_digitChar low, induction]
      have sameByte : UInt8.ofNat
          (byte.toNat / 16 * 16 + byte.toNat % 16) = byte := by
        rw [whole, UInt8.ofNat_toNat]
      exact congrArg (fun first => some (first :: bytes)) sameByte

theorem lowerHex_plain (byte : UInt8) :
    ∀ letter ∈ lowerHex byte, isWhitespace letter = false := by
  have all : ∀ digit : Fin 16,
      isWhitespace (Nat.digitChar digit) = false := by decide
  have small := byte.toNat_lt
  have high : byte.toNat / 16 < 16 := by omega
  have low : byte.toNat % 16 < 16 := by omega
  intro letter member
  simp only [lowerHex, List.mem_cons, List.not_mem_nil, or_false] at member
  rcases member with rfl | rfl
  · exact all ⟨_, high⟩
  · exact all ⟨_, low⟩

theorem trimEnd_line {text : List Char}
    (plain : ∀ letter ∈ text, isWhitespace letter = false) :
    trimEnd (text ++ ['\n']) = text := by
  have newline : isWhitespace '\n' = true := by decide
  rw [trimEnd, List.reverse_append, List.reverse_singleton,
    List.singleton_append, List.dropWhile_cons, newline, if_pos rfl]
  cases last : text.reverse with
  | nil => exact (List.reverse_eq_nil_iff.mp last).symm
  | cons letter rest =>
      have isPlain : isWhitespace letter = false := by
        apply plain
        rw [← List.mem_reverse, last]
        exact List.mem_cons_self
      rw [List.dropWhile_cons, isPlain, if_neg Bool.false_ne_true, ← last,
        List.reverse_reverse]

theorem loadServerId_stored (serverId : Vector UInt8 16) :
    loadServerId (storeServerId serverId) = .ok serverId.toList := by
  have denoted := hexBytes_lowerHex serverId.toList
  have read := (hexBytes_eq_some.mp denoted).1
  have pairs : (serverId.toList.flatMap lowerHex).length = 16 * 2 := by
    rw [@Buffer.length_flatMap _ _ 2 lowerHex _ fun _ _ => rfl,
      Vector.length_toList]
  have trimmed : trimEnd (serverId.toList.flatMap lowerHex ++ ['\n']) =
      serverId.toList.flatMap lowerHex := by
    apply trimEnd_line
    intro letter member
    obtain ⟨byte, _, isDigit⟩ := List.mem_flatMap.mp member
    exact lowerHex_plain byte letter isDigit
  have parsed := parseHex_eq_ok.mpr ⟨pairs, read⟩
  simp only [loadServerId, storeServerId, trimmed, parsed]
  rfl

/-- Two texts are accepted as the digits they are, and lower-case texts of one
identity are equal. -/
structure ReadAsDigits (count : Nat) (text other : List Char) : Prop where
  first : ExactOn count text
  second : ExactOn count other
  distinct : ∀ bytes, Lowercase text → Lowercase other →
    parseHex count text = .ok bytes → parseHex count other = .ok bytes →
    text = other

/-- Stored identities are read back, and two texts are read as digits exactly
when neither has a plus sign in the place of a digit. -/
theorem serverId_readAsDigits (serverId : Vector UInt8 16) (count : Nat)
    (text other : List Char) :
    loadServerId (storeServerId serverId) = .ok serverId.toList ∧
      (ReadAsDigits count text other ↔
        ¬ HasSign count text ∧ ¬ HasSign count other) := by
  refine ⟨loadServerId_stored serverId, ?_⟩
  constructor
  · intro digits
    exact ⟨exactOn_iff.mp digits.first, exactOn_iff.mp digits.second⟩
  · rintro ⟨unsigned, otherUnsigned⟩
    have exactly := exactOn_iff.mpr unsigned
    have otherExactly := exactOn_iff.mpr otherUnsigned
    refine ⟨exactly, otherExactly, ?_⟩
    intro bytes lower otherLower parsed otherParsed
    exact hexBytes_inj lower otherLower ((exactly bytes).mp parsed).2
      ((otherExactly bytes).mp otherParsed).2

/-- A plus sign and a digit are taken for the digit after a zero. -/
theorem not_readAsDigits_plus :
    ¬ ReadAsDigits 1 ['+', 'f'] ['0', 'f'] := by
  intro digits
  have signed : parseHex 1 ['+', 'f'] = .ok [15] :=
    parseHex_eq_ok.mpr ⟨rfl, by decide⟩
  have plain : parseHex 1 ['0', 'f'] = .ok [15] :=
    parseHex_eq_ok.mpr ⟨rfl, by decide⟩
  exact absurd (digits.distinct [15] (by simp [Lowercase])
    (by simp [Lowercase]) signed plain)
    (by decide)

end RmDisplay.Receiver
