import Mathlib.Data.List.Basic
import WebbitGwt.Java.Basic
import WebbitGwt.Nio.Bytes

/-!
# The checksum of a stream

`adler32` keeps two sums modulo 65521 in the halves of a signed number.  It adds up to
2000 bytes between two reductions, which is few enough for the sums not to get negative,
and it goes on from where an earlier call has stopped.
-/

namespace WebbitGwt.Pako

open WebbitGwt.Java
open WebbitGwt.Nio

/-- The two sums, as 32-bit integers. -/
structure Sums where
  s1 : JInt
  s2 : JInt
  deriving DecidableEq

/-- The body of the inner loop. -/
def Sums.add (sums : Sums) (byte : Byte) : Sums :=
  let s1 := sums.s1 + byte.setWidth 32
  { s1 := s1, s2 := sums.s2 + s1 }

/-- `%=` on signed numbers. -/
def Sums.reduce (sums : Sums) : Sums where
  s1 := sums.s1.srem 65521
  s2 := sums.s2.srem 65521

/-- The outer loop.  Some bytes are left each time it goes round. -/
def sumLoop : Nat → Sums → List Byte → Sums
  | 0, sums, _ => sums
  | fuel + 1, sums, bytes =>
      if bytes.isEmpty then
        sums
      else
        let n := if bytes.length > 2000 then 2000 else bytes.length
        sumLoop fuel ((bytes.take n).foldl Sums.add sums).reduce (bytes.drop n)

/-- `adler32`, of `len` bytes that are there from `pos` on. -/
def adler32 (adler : JInt) (buf : List Byte) (len pos : Nat) : JInt :=
  let sums := sumLoop len { s1 := adler &&& 0xffff, s2 := (adler >>> 16) &&& 0xffff }
    ((buf.drop pos).take len)
  sums.s1 ||| (sums.s2 <<< 16)

/-! ## The sums as they should be -/

/-- Both sums, as numbers without bounds: of the bytes, and of the sums on the way. -/
def total : Nat × Nat → List Byte → Nat × Nat
  | sums, [] => sums
  | (a, b), byte :: bytes => total (a + byte.toNat, b + (a + byte.toNat)) bytes

theorem total_append (sums : Nat × Nat) (first second : List Byte) :
    total sums (first ++ second) = total (total sums first) second := by
  induction first generalizing sums with
  | nil => rfl
  | cons byte bytes ih => exact ih _

/-- How the sums can grow. -/
theorem total_le (sums : Nat × Nat) (bytes : List Byte) :
    (total sums bytes).1 ≤ sums.1 + 255 * bytes.length ∧
      (total sums bytes).2 ≤ sums.2 + bytes.length * (sums.1 + 255 * bytes.length) := by
  induction bytes generalizing sums with
  | nil => exact ⟨Nat.le_refl _, by simp [total]⟩
  | cons byte bytes ih =>
      have small : byte.toNat ≤ 255 := Nat.le_of_lt_succ byte.isLt
      rcases ih (sums.1 + byte.toNat, sums.2 + (sums.1 + byte.toNat)) with ⟨first, second⟩
      rw [List.length_cons]
      constructor
      · exact first.trans (by simp only; omega)
      · have wider : bytes.length * (sums.1 + byte.toNat + 255 * bytes.length) ≤
            bytes.length * (sums.1 + 255 * (bytes.length + 1)) :=
          Nat.mul_le_mul_left _ (by omega)
        have split : (bytes.length + 1) * (sums.1 + 255 * (bytes.length + 1)) =
            bytes.length * (sums.1 + 255 * (bytes.length + 1)) +
              (sums.1 + 255 * (bytes.length + 1)) := by rw [Nat.succ_mul]
        simp only at second
        show (total (sums.1 + byte.toNat, sums.2 + (sums.1 + byte.toNat)) bytes).2 ≤ _
        omega

theorem le_total (sums : Nat × Nat) (bytes : List Byte) :
    sums.1 ≤ (total sums bytes).1 ∧ sums.2 ≤ (total sums bytes).2 := by
  induction bytes generalizing sums with
  | nil => exact ⟨Nat.le_refl _, Nat.le_refl _⟩
  | cons byte bytes ih =>
      rcases ih (sums.1 + byte.toNat, sums.2 + (sums.1 + byte.toNat)) with ⟨first, second⟩
      exact ⟨Nat.le_of_add_right_le first, Nat.le_of_add_right_le second⟩

/-- The modulus, the largest prime that fits into a half. -/
def reduced (sums : Nat × Nat) : Nat × Nat :=
  (sums.1 % 65521, sums.2 % 65521)

/-- Reduced sums can be gone on with. -/
theorem reduced_total (sums : Nat × Nat) (bytes : List Byte) :
    reduced (total (reduced sums) bytes) = reduced (total sums bytes) := by
  have agree (sums other : Nat × Nat) (same : reduced sums = reduced other) :
      reduced (total sums bytes) = reduced (total other bytes) := by
    induction bytes generalizing sums other with
    | nil => exact same
    | cons byte bytes ih =>
        simp only [reduced, Prod.mk.injEq] at same
        refine ih _ _ ?_
        simp only [reduced, Prod.mk.injEq]
        omega
  refine agree _ _ ?_
  simp only [reduced, Nat.mod_mod]

/-! ## The sums as they are -/

namespace Sums

/-- The sums as numbers. -/
def toNat (sums : Sums) : Nat × Nat :=
  (sums.s1.toNat, sums.s2.toNat)

/-- Nothing overflows if the result does not. -/
theorem foldl_add (sums : Sums) (bytes : List Byte)
    (first : (total sums.toNat bytes).1 < 2 ^ 31) (second : (total sums.toNat bytes).2 < 2 ^ 31) :
    (bytes.foldl add sums).toNat = total sums.toNat bytes := by
  induction bytes generalizing sums with
  | nil => rfl
  | cons byte bytes ih =>
      have small := byte.isLt
      have grows := le_total (sums.s1.toNat + byte.toNat,
        sums.s2.toNat + (sums.s1.toNat + byte.toNat)) bytes
      simp only [total, toNat] at first second
      have s1 : (sums.s1 + byte.setWidth 32).toNat = sums.s1.toNat + byte.toNat := by
        rw [BitVec.toNat_add, BitVec.toNat_setWidth]
        omega
      have s2 : (sums.s2 + (sums.s1 + byte.setWidth 32)).toNat =
          sums.s2.toNat + (sums.s1.toNat + byte.toNat) := by
        rw [BitVec.toNat_add, s1]
        omega
      have added : (sums.add byte).toNat = (sums.s1.toNat + byte.toNat,
          sums.s2.toNat + (sums.s1.toNat + byte.toNat)) := Prod.ext s1 s2
      rw [List.foldl_cons, ih (sums.add byte) (added ▸ first) (added ▸ second), added]
      rfl

theorem toNat_reduce {sums : Sums} (first : sums.s1.toNat < 2 ^ 31)
    (second : sums.s2.toNat < 2 ^ 31) : sums.reduce.toNat = reduced sums.toNat := by
  have remainder (value : JInt) (nonneg : value.toNat < 2 ^ 31) :
      (value.srem 65521).toNat = value.toNat % 65521 := by
    have sign : value.msb = false := by
      rw [BitVec.msb_eq_decide]
      simpa using nonneg
    rw [BitVec.toNat_srem, sign]
    rfl
  exact Prod.ext (remainder sums.s1 first) (remainder sums.s2 second)

/-- Each sum fits into its half. -/
def Fits (sums : Sums) : Prop :=
  sums.s1.toNat < 2 ^ 16 ∧ sums.s2.toNat < 2 ^ 16

/-- As many bytes as are added without reduction. -/
theorem toNat_block {sums : Sums} (fits : sums.Fits) {bytes : List Byte}
    (few : bytes.length ≤ 2000) :
    (bytes.foldl add sums).reduce.toNat = reduced (total sums.toNat bytes) := by
  rcases total_le sums.toNat bytes with ⟨first, second⟩
  have product : bytes.length * (sums.toNat.1 + 255 * bytes.length) ≤
      2000 * (2 ^ 16 + 255 * 2000) :=
    Nat.mul_le_mul few (by have low := fits.1; simp only [toNat]; omega)
  have low := fits.1
  have high := fits.2
  have firstBound : (total sums.toNat bytes).1 < 2 ^ 31 := by
    simp only [toNat] at first ⊢
    omega
  have secondBound : (total sums.toNat bytes).2 < 2 ^ 31 := by
    simp only [toNat] at second product ⊢
    omega
  have sum := foldl_add sums bytes firstBound secondBound
  rw [toNat_reduce, sum]
  · rw [← sum] at firstBound
    exact firstBound
  · rw [← sum] at secondBound
    exact secondBound

theorem fits_of_reduced {sums : Sums} {other : Nat × Nat} (same : sums.toNat = reduced other) :
    sums.Fits := by
  have first : sums.s1.toNat = other.1 % 65521 := congrArg Prod.fst same
  have second : sums.s2.toNat = other.2 % 65521 := congrArg Prod.snd same
  constructor
  · omega
  · omega

end Sums

/-- No bytes are left. -/
theorem sumLoop_nil (fuel : Nat) (sums : Sums) : sumLoop fuel sums [] = sums := by
  cases fuel with
  | zero => rfl
  | succ fuel => rfl

/-- The loop computes the sums of all bytes, reduced. -/
theorem toNat_sumLoop {sums : Sums} (fits : sums.Fits) {bytes : List Byte} (nonempty : bytes ≠ [])
    {fuel : Nat} (rounds : bytes.length ≤ fuel) :
    (sumLoop fuel sums bytes).toNat = reduced (total sums.toNat bytes) := by
  induction fuel generalizing sums bytes with
  | zero => exact absurd (List.length_eq_zero_iff.mp (Nat.le_zero.mp rounds)) nonempty
  | succ fuel ih =>
      have pos := List.length_pos_iff.mpr nonempty
      rw [sumLoop, if_neg (by simpa using nonempty)]
      simp only
      generalize block : (if bytes.length > 2000 then 2000 else bytes.length) = n
      have bounds : 0 < n ∧ n ≤ 2000 ∧ n ≤ bytes.length := by split at block <;> omega
      have few : (bytes.take n).length ≤ 2000 := by
        rw [List.length_take]
        omega
      have sum := Sums.toNat_block fits few
      have parts : reduced (total (reduced (total sums.toNat (bytes.take n))) (bytes.drop n)) =
          reduced (total sums.toNat bytes) := by
        rw [reduced_total, ← total_append, List.take_append_drop]
      by_cases last : bytes.drop n = []
      · rw [last, sumLoop_nil, sum, ← parts, last]
        simp only [total, reduced, Nat.mod_mod]
      · have fewer : (bytes.drop n).length ≤ fuel := by
          rw [List.length_drop]
          omega
        rw [ih (Sums.fits_of_reduced sum) last fewer, sum, parts]

/-! ## The checksum -/

/-- The two halves of a checksum. -/
def halves (adler : JInt) : Nat × Nat :=
  (adler.toNat % 2 ^ 16, adler.toNat / 2 ^ 16)

theorem halves_injective {first second : JInt} (same : halves first = halves second) :
    first = second := by
  have low : first.toNat % 2 ^ 16 = second.toNat % 2 ^ 16 := congrArg Prod.fst same
  have high : first.toNat / 2 ^ 16 = second.toNat / 2 ^ 16 := congrArg Prod.snd same
  apply BitVec.eq_of_toNat_eq
  omega

/-- The sums that a call starts from. -/
def startOf (adler : JInt) : Sums :=
  { s1 := adler &&& 0xffff, s2 := (adler >>> 16) &&& 0xffff }

theorem toNat_startOf (adler : JInt) : (startOf adler).toNat = halves adler := by
  have bound := adler.isLt
  have mask (n : Nat) : n &&& 65535 = n % 2 ^ 16 := Nat.and_two_pow_sub_one_eq_mod n 16
  have high : adler.toNat / 2 ^ 16 % 2 ^ 16 = adler.toNat / 2 ^ 16 := by omega
  refine Prod.ext ?_ ?_
  · show (adler &&& 0xffff).toNat = _
    rw [BitVec.toNat_and]
    exact mask adler.toNat
  · show ((adler >>> 16) &&& 0xffff).toNat = _
    rw [BitVec.toNat_and, BitVec.toNat_ushiftRight, Nat.shiftRight_eq_div_pow]
    exact (mask _).trans high

theorem fits_startOf (adler : JInt) : (startOf adler).Fits := by
  have same := toNat_startOf adler
  have bound := adler.isLt
  have first : (startOf adler).s1.toNat = adler.toNat % 2 ^ 16 := congrArg Prod.fst same
  have second : (startOf adler).s2.toNat = adler.toNat / 2 ^ 16 := congrArg Prod.snd same
  constructor
  · omega
  · omega

/-- The sums are put together without loss. -/
theorem halves_or {sums : Sums} (fits : sums.Fits) :
    halves (sums.s1 ||| (sums.s2 <<< 16)) = sums.toNat := by
  have low := fits.1
  have high := fits.2
  have value : (sums.s1 ||| (sums.s2 <<< 16)).toNat = sums.s2.toNat * 2 ^ 16 + sums.s1.toNat := by
    rw [BitVec.toNat_or, BitVec.toNat_shiftLeft, Nat.mod_eq_of_lt (by rw [Nat.shiftLeft_eq]; omega),
      Nat.or_comm, Nat.shiftLeft_eq, Nat.mul_comm, Nat.two_pow_add_eq_or_of_lt low]
  refine Prod.ext ?_ ?_
  · show (sums.s1 ||| (sums.s2 <<< 16)).toNat % 2 ^ 16 = _
    rw [value]
    simp only [Sums.toNat]
    omega
  · show (sums.s1 ||| (sums.s2 <<< 16)).toNat / 2 ^ 16 = _
    rw [value]
    simp only [Sums.toNat]
    omega

/-- Where the bytes stand in the buffer does not matter. -/
theorem adler32_window (adler : JInt) (front bytes rest : List Byte) :
    adler32 adler (front ++ bytes ++ rest) bytes.length front.length =
      adler32 adler bytes bytes.length 0 := by
  simp only [adler32]
  rw [List.append_assoc, List.drop_left, List.take_left, List.drop_zero, List.take_length]

/-- Bytes that are not there do not change the checksum. -/
theorem adler32_nil (adler : JInt) : adler32 adler [] 0 0 = adler := by
  refine halves_injective ((halves_or (fits_startOf adler)).trans (toNat_startOf adler))

/-- The halves are the sums modulo 65521: nothing has overflowed on the way. -/
theorem halves_adler32 (adler : JInt) {bytes : List Byte} (nonempty : bytes ≠ []) :
    halves (adler32 adler bytes bytes.length 0) = reduced (total (halves adler) bytes) := by
  have sums := toNat_sumLoop (fits_startOf adler) nonempty (Nat.le_refl _)
  rw [toNat_startOf] at sums
  rw [← sums]
  simp only [adler32, List.drop_zero, List.take_length]
  exact halves_or (Sums.fits_of_reduced sums)

/-- A call goes on from where the one before has stopped. -/
theorem adler32_append (adler : JInt) (first second : List Byte) :
    adler32 (adler32 adler first first.length 0) second second.length 0 =
      adler32 adler (first ++ second) (first ++ second).length 0 := by
  by_cases noFirst : first = []
  · rw [noFirst]
    exact congrArg (adler32 · second second.length 0) (adler32_nil adler)
  by_cases noSecond : second = []
  · rw [noSecond, List.append_nil]
    exact adler32_nil _
  · apply halves_injective
    rw [halves_adler32 _ noSecond, halves_adler32 adler noFirst,
      halves_adler32 adler (List.append_ne_nil_of_left_ne_nil noFirst second), reduced_total,
      total_append]

/-! ## What the checksum notices -/

theorem total_fst (sums : Nat × Nat) (bytes : List Byte) :
    (total sums bytes).1 = sums.1 + (bytes.map BitVec.toNat).sum := by
  induction bytes generalizing sums with
  | nil => rfl
  | cons byte bytes ih =>
      rw [total, ih, List.map_cons, List.sum_cons, Nat.add_assoc]

/-- The second sum only adds to what it starts from. -/
theorem total_snd (first second : Nat) (bytes : List Byte) :
    (total (first, second) bytes).2 = second + (total (first, 0) bytes).2 := by
  induction bytes generalizing first second with
  | nil => rfl
  | cons byte bytes ih =>
      rw [total, total, ih _ (second + _), ih _ (0 + _)]
      omega

/-- A byte is another one, or two neighbours have changed places. -/
inductive Damaged : List Byte → List Byte → Prop where
  | byte (front rest : List Byte) {sent received : Byte} (differ : sent ≠ received) :
      Damaged (front ++ sent :: rest) (front ++ received :: rest)
  | swapped (front rest : List Byte) {first second : Byte} (differ : first ≠ second) :
      Damaged (front ++ first :: second :: rest) (front ++ second :: first :: rest)

/-- The sums do not agree modulo 65521. -/
theorem Damaged.reduced_ne {sent received : List Byte} (damaged : Damaged sent received)
    (sums : Nat × Nat) : reduced (total sums sent) ≠ reduced (total sums received) := by
  have smaller {x y : Byte} (differ : x ≠ y) : x.toNat ≠ y.toNat ∧ x.toNat < 256 ∧ y.toNat < 256 :=
    ⟨fun same => differ (BitVec.eq_of_toNat_eq same), x.isLt, y.isLt⟩
  cases damaged with
  | byte front rest differ =>
      rename_i x y
      have bytes := smaller differ
      intro same
      have first := congrArg Prod.fst same
      simp only [reduced, total_fst, List.map_append, List.map_cons, List.sum_append,
        List.sum_cons] at first
      omega
  | swapped front rest differ =>
      rename_i x y
      have bytes := smaller differ
      intro same
      have second := congrArg Prod.snd same
      simp only [reduced, total_append, total] at second
      rw [total_snd, total_snd _ (_ + (_ + x.toNat)),
        Nat.add_right_comm (total sums front).1 y.toNat x.toNat] at second
      omega

theorem Damaged.nonempty {sent received : List Byte} (damaged : Damaged sent received) :
    sent ≠ [] ∧ received ≠ [] := by
  cases damaged with
  | byte front rest differ => simp
  | swapped front rest differ => simp

/-! ## A checksum taken piece by piece -/

/-- A piece of a buffer, and what stands around it. -/
structure Piece where
  front : List Byte
  bytes : List Byte
  rest : List Byte

/-- One call for each piece. -/
def checksum (adler : JInt) (pieces : List Piece) : JInt :=
  pieces.foldl (fun adler piece =>
    adler32 adler (piece.front ++ piece.bytes ++ piece.rest) piece.bytes.length
      piece.front.length) adler

/-- The pieces do not matter. -/
theorem checksum_eq (adler : JInt) (pieces : List Piece) :
    checksum adler pieces =
      adler32 adler (pieces.flatMap Piece.bytes) (pieces.flatMap Piece.bytes).length 0 := by
  induction pieces generalizing adler with
  | nil => exact (adler32_nil adler).symm
  | cons piece pieces ih =>
      rw [List.flatMap_cons, ← adler32_append]
      refine (ih _).trans ?_
      simp only [adler32_window]

/-- However the bytes are cut into pieces, the checksum is that of all of them, and none if
there are none: both sums are right modulo 65521, so none of the signed numbers on the way
has overflowed.  A receiver that cuts them in another way gets the same checksum, and
another one if a byte is damaged or two neighbours have changed places. -/
theorem checksum_of_pieces (adler : JInt) (sent received : List Piece) :
    (sent.flatMap Piece.bytes = [] → checksum adler sent = adler) ∧
      (sent.flatMap Piece.bytes ≠ [] →
        halves (checksum adler sent) =
          reduced (total (halves adler) (sent.flatMap Piece.bytes))) ∧
      (sent.flatMap Piece.bytes = received.flatMap Piece.bytes →
        checksum adler sent = checksum adler received) ∧
      (Damaged (sent.flatMap Piece.bytes) (received.flatMap Piece.bytes) →
        checksum adler sent ≠ checksum adler received) := by
  rw [checksum_eq, checksum_eq]
  refine ⟨?_, halves_adler32 adler, ?_, ?_⟩
  · intro none
    rw [none]
    exact adler32_nil adler
  · intro same
    rw [same]
  · intro damaged same
    have sums := congrArg halves same
    rw [halves_adler32 adler damaged.nonempty.1, halves_adler32 adler damaged.nonempty.2] at sums
    exact damaged.reduced_ne (halves adler) sums

/-- Three bytes in two reads, and in one read with a byte changed. -/
theorem checksum_of_pieces_abc :
    halves (checksum 1 [⟨[0], [97, 98], []⟩, ⟨[], [99], [7]⟩]) = (0x127, 0x24d) ∧
      checksum 1 [⟨[0], [97, 98], []⟩, ⟨[], [99], [7]⟩] ≠
        checksum 1 [⟨[], [97, 99, 99], []⟩] := by
  have pieces := checksum_of_pieces 1 [⟨[0], [97, 98], []⟩, ⟨[], [99], [7]⟩]
    [⟨[], [97, 99, 99], []⟩]
  refine ⟨?_, pieces.2.2.2 (Damaged.byte [97] [99] (by decide))⟩
  rw [pieces.2.1 (by decide)]
  decide

end WebbitGwt.Pako
