import WebbitGwt.Pako.Strings
import WebbitGwt.Pako.ZlibDeflate

/-!
# Streams that are inflated

zlib's `inflate` checks the header, hands the compressed data to the code that decodes
blocks, and compares the checksum of what has come out with the one behind the data.  It
can be left for lack of input or room in all of these, and goes on there when it is called
again.  The code that decodes blocks is taken for granted, with what `inflate` relies on.
Gzip headers and preset dictionaries are left out.
-/

namespace WebbitGwt.Pako

open WebbitGwt.Java
open WebbitGwt.Nio

/-- Why the code that decodes blocks stops: it lacks input or room, the last block has
ended, or the data is damaged. -/
inductive Stop
  | needs
  | done
  | bad (msg : String)

/-- What is left behind by the code that decodes blocks: how many bytes it has taken, and
the bytes it has put out. -/
structure Inflated (State : Type) where
  state : State
  size : Nat
  produced : List Byte
  stop : Stop

/-- The code that decodes blocks, with the state it keeps between calls.  It is given the
input that is left and the room in the output buffer.  As long as what it is given belongs
to compressed data, it puts out what that inflates to; it stops where the data ends, or if
the buffer is full, or if the data is cut off and all of it has been taken. -/
structure Inflater (Inflates : List Byte → List Byte → Prop) where
  State : Type
  start : State
  func : State → List Byte → Nat → Inflated State
  Decodes : State → List Byte → List Byte → Prop
  decodes_start : Decodes start [] []
  fits_func : ∀ state input left, (func state input left).size ≤ input.length ∧
    (func state input left).produced.length ≤ left
  not_bad_func : ∀ {state taken produced written whole}, Decodes state taken produced →
    Inflates written whole → taken <+: written → produced <+: whole →
    ∀ input left, taken ++ input <+: written ∨ written <+: taken ++ input →
      ∀ msg, (func state input left).stop ≠ .bad msg
  done_func : ∀ {state taken produced written whole}, Decodes state taken produced →
    Inflates written whole → taken <+: written → produced <+: whole →
    ∀ input left, taken ++ input <+: written ∨ written <+: taken ++ input →
      (func state input left).stop = .done →
        taken ++ input.take (func state input left).size = written ∧
          produced ++ (func state input left).produced = whole
  needs_func : ∀ {state taken produced written whole}, Decodes state taken produced →
    Inflates written whole → taken <+: written → produced <+: whole →
    ∀ input left, taken ++ input <+: written ∨ written <+: taken ++ input →
      (func state input left).stop = .needs →
        Decodes (func state input left).state
            (taken ++ input.take (func state input left).size)
            (produced ++ (func state input left).produced) ∧
          taken ++ input.take (func state input left).size <+: written ∧
          produced ++ (func state input left).produced <+: whole ∧
          ((func state input left).produced.length = left ∨
            (func state input left).size = input.length ∧ ¬written <+: taken ++ input)
  work : State → Nat
  perByte : Nat
  work_func : ∀ state input left, (func state input left).produced.length +
      work (func state input left).state +
      perByte * (input.length - (func state input left).size) ≤
    work state + perByte * input.length

/-- `HEAD`, `TYPE` to `LIT`, `CHECK`, `DONE`, `BAD` -/
inductive Mode
  | head
  | blocks
  | check
  | done
  | bad
  deriving DecidableEq

variable {Inflates : List Byte → List Byte → Prop} {I : Inflater Inflates}

/-- A stream that is inflated, and its state. -/
structure InflateStrm (I : Inflater Inflates) where
  input : List Byte
  output : List Byte
  availOut : Nat
  msg : String
  mode : Mode
  check : JInt
  hold : JInt
  bits : Nat
  block : I.State

/-- `NEEDBITS`, as far as there is input.  The bits are put above those that are there, so
`+` and `|` are the same. -/
def needBits (n : Nat) : JInt → Nat → List Byte → JInt × Nat × List Byte
  | hold, bits, [] => (hold, bits, [])
  | hold, bits, byte :: input =>
      if bits < n then
        needBits n (hold ||| (byte.setWidth 32 <<< bits)) (bits + 8) input
      else
        (hold, bits, byte :: input)

/-- `ZSWAP32` -/
def zswap32 (q : JInt) : JInt :=
  ((q >>> 24) &&& (0xff : JInt)) + ((q >>> 8) &&& (0xff00 : JInt)) +
    ((q &&& (0xff00 : JInt)) <<< 8) + ((q &&& (0xff : JInt)) <<< 24)

/-- What is wrong with a zlib header, if anything.  There is no answer for gzip headers
and preset dictionaries. -/
def headerError (hold : JInt) : Option (Option String) :=
  if hold = 0x8b1f then
    none
  else if (((hold &&& (0xff : JInt)) <<< 8) + (hold >>> 8)) % 31 ≠ 0 then
    some "incorrect header check"
  else if hold &&& 0x0f ≠ 8 then
    some "unknown compression method"
  else
    let hold := hold >>> 4
    let len := (hold &&& 0x0f) + 8
    if len > 15 then
      some "invalid window size"
    else if hold &&& 0x200 ≠ 0 then
      none
    else
      some none

namespace InflateStrm

/-- `inflateInit2`, with the options that are the defaults: zlib or gzip, and a window of
15 bits. -/
def new (I : Inflater Inflates) : InflateStrm I where
  input := []
  output := []
  availOut := 0
  msg := ""
  mode := .head
  check := 0
  hold := 0
  bits := 0
  block := I.start

/-- Bring the checksum up to date with what has been put out since. -/
def update (strm : InflateStrm I) (fresh : List Byte) : InflateStrm I :=
  if fresh.length ≠ 0 then
    { strm with check := adler32 strm.check fresh fresh.length 0 }
  else
    strm

/-- From `CHECK` on.  What has been put out in this call, and is not in the checksum yet,
is passed on. -/
def atCheck (strm : InflateStrm I) (fresh : List Byte) : InflateStrm I × List Byte × Code :=
  let (hold, bits, input) := needBits 32 strm.hold strm.bits strm.input
  let strm := { strm with hold, bits, input }
  if bits < 32 then
    (strm, fresh, .ok)
  else
    let strm := strm.update fresh
    if zswap32 strm.hold ≠ strm.check then
      ({ strm with msg := "incorrect data check", mode := .bad }, [], .dataError)
    else
      ({ strm with hold := 0, bits := 0, mode := .done }, [], .streamEnd)

/-- From `TYPE` on. -/
def atBlocks (strm : InflateStrm I) : InflateStrm I × List Byte × Code :=
  let result := I.func strm.block strm.input strm.availOut
  let strm := { strm with
    block := result.state
    input := strm.input.drop result.size
    output := strm.output ++ result.produced
    availOut := strm.availOut - result.produced.length }
  match result.stop with
  | .needs => (strm, result.produced, .ok)
  | .done => atCheck { strm with mode := .check } result.produced
  | .bad msg => ({ strm with msg, mode := .bad }, result.produced, .dataError)

/-- From `HEAD` on. -/
def atHead (strm : InflateStrm I) : Option (InflateStrm I × List Byte × Code) :=
  let (hold, bits, input) := needBits 16 strm.hold strm.bits strm.input
  let strm := { strm with hold, bits, input }
  if bits < 16 then
    some (strm, [], .ok)
  else
    (headerError strm.hold).map fun error =>
      match error with
      | some msg => ({ strm with msg, mode := .bad }, [], .dataError)
      | none => atBlocks { strm with check := 1, mode := .blocks, hold := 0, bits := 0 }

/-- The loop of `inflate`. -/
def run (strm : InflateStrm I) : Option (InflateStrm I × List Byte × Code) :=
  match strm.mode with
  | .head => strm.atHead
  | .blocks => some strm.atBlocks
  | .check => some (strm.atCheck [])
  | .done => some (strm, [], .streamEnd)
  | .bad => some (strm, [], .dataError)

/-- `inflate`, not told to flush. -/
def inflate (strm : InflateStrm I) : Option (InflateStrm I × Code) :=
  strm.run.map fun (after, fresh, ret) =>
    let size := strm.input.length - after.input.length
    (after.update fresh,
      if (size = 0 ∧ fresh.length = 0) ∧ ret = .ok then .bufError else ret)

end InflateStrm

/-! ## Checksums -/

theorem toNat_hold (hold : JInt) {bits : Nat} (low : hold.toNat < 2 ^ bits) (room : bits ≤ 24)
    (byte : Byte) : (hold ||| (byte.setWidth 32 <<< bits)).toNat =
      hold.toNat + byte.toNat * 2 ^ bits := by
  have small := byte.isLt
  have bound : byte.toNat * 2 ^ bits < 2 ^ 32 :=
    calc byte.toNat * 2 ^ bits < 2 ^ 8 * 2 ^ bits :=
          (Nat.mul_lt_mul_right (Nat.two_pow_pos bits)).mpr small
      _ = 2 ^ (8 + bits) := (Nat.pow_add 2 8 bits).symm
      _ ≤ 2 ^ 32 := Nat.pow_le_pow_right (by decide) (by omega)
  have width : byte.toNat % 2 ^ 32 = byte.toNat := by omega
  have shifted : (byte.setWidth 32 <<< bits).toNat = byte.toNat * 2 ^ bits := by
    rw [BitVec.toNat_shiftLeft, BitVec.toNat_setWidth, width, Nat.shiftLeft_eq,
      Nat.mod_eq_of_lt bound]
  rw [BitVec.toNat_or, shifted, Nat.or_comm, Nat.mul_comm, ← Nat.two_pow_add_eq_or_of_lt low,
    Nat.add_comm]

/-- The bytes are put in the other order. -/
theorem toNat_zswap32 (q : JInt) : (zswap32 q).toNat =
    q.toNat / 2 ^ 24 + q.toNat / 2 ^ 16 % 2 ^ 8 * 2 ^ 8 + q.toNat / 2 ^ 8 % 2 ^ 8 * 2 ^ 16 +
      q.toNat % 2 ^ 8 * 2 ^ 24 := by
  have bound := q.isLt
  have first : ((q >>> 24) &&& 0xff).toNat = q.toNat / 2 ^ 24 := by
    rw [BitVec.toNat_and, BitVec.toNat_ushiftRight, Nat.shiftRight_eq_div_pow]
    exact (and_mask _ 8).trans (Nat.mod_eq_of_lt (by omega))
  have second : ((q >>> 8) &&& 0xff00).toNat = q.toNat / 2 ^ 16 % 2 ^ 8 * 2 ^ 8 := by
    rw [BitVec.toNat_and, BitVec.toNat_ushiftRight, Nat.shiftRight_eq_div_pow]
    refine (and_middle _ 8 8).trans ?_
    rw [Nat.div_div_eq_div_mul, ← Nat.pow_add]
  have third : ((q &&& 0xff00) <<< 8).toNat = q.toNat / 2 ^ 8 % 2 ^ 8 * 2 ^ 16 := by
    have middle : (q &&& 0xff00).toNat = q.toNat / 2 ^ 8 % 2 ^ 8 * 2 ^ 8 := by
      rw [BitVec.toNat_and]
      exact and_middle _ 8 8
    rw [BitVec.toNat_shiftLeft, Nat.shiftLeft_eq, middle]
    omega
  have fourth : ((q &&& 0xff) <<< 24).toNat = q.toNat % 2 ^ 8 * 2 ^ 24 := by
    have lowest : (q &&& 0xff).toNat = q.toNat % 2 ^ 8 := by
      rw [BitVec.toNat_and]
      exact and_mask _ 8
    rw [BitVec.toNat_shiftLeft, Nat.shiftLeft_eq, lowest]
    omega
  simp only [zswap32, BitVec.toNat_add, first, second, third, fourth]
  omega

/-- A number of four digits. -/
theorem digits_eq_iff {first second third fourth number : Nat} (firstSmall : first < 2 ^ 8)
    (secondSmall : second < 2 ^ 8) (thirdSmall : third < 2 ^ 8) (fourthSmall : fourth < 2 ^ 8)
    (small : number < 2 ^ 32) :
    first * 2 ^ 24 + second * 2 ^ 16 + third * 2 ^ 8 + fourth = number ↔
      first = number / 2 ^ 24 % 2 ^ 8 ∧ second = number / 2 ^ 16 % 2 ^ 8 ∧
        third = number % 2 ^ 16 / 2 ^ 8 % 2 ^ 8 ∧ fourth = number % 2 ^ 16 % 2 ^ 8 := by
  constructor
  · rintro rfl
    omega
  · rintro ⟨rfl, rfl, rfl, rfl⟩
    omega

/-- What is not shorter than four starts with four bytes. -/
theorem exists_four_cons {rest : List Byte} (notFew : ¬rest.length < 4) :
    ∃ first second third fourth more, rest = first :: second :: third :: fourth :: more := by
  rcases rest with _ | ⟨first, _ | ⟨second, _ | ⟨third, _ | ⟨fourth, more⟩⟩⟩⟩
  · exact absurd (by decide) notFew
  · exact absurd (by simp) notFew
  · exact absurd (by simp) notFew
  · exact absurd (by simp) notFew
  · exact ⟨first, second, third, fourth, more, rfl⟩

/-- Four bytes are a checksum if they are the bytes of that checksum. -/
theorem needBits_four (first second third fourth : Byte) (input : List Byte) :
    ∃ hold, needBits 32 0 0 (first :: second :: third :: fourth :: input) = (hold, 32, input) ∧
      ∀ check, zswap32 hold = check ↔ [first, second, third, fourth] = trailer check := by
  let one := (0 : JInt) ||| (first.setWidth 32 <<< 0)
  let two := one ||| (second.setWidth 32 <<< 8)
  let three := two ||| (third.setWidth 32 <<< 16)
  let four := three ||| (fourth.setWidth 32 <<< 24)
  have bounds := And.intro (And.intro first.isLt second.isLt) (And.intro third.isLt fourth.isLt)
  have oneEq : one.toNat = first.toNat * 2 ^ 0 := by
    have sum := toNat_hold 0 (show (0 : JInt).toNat < 2 ^ 0 by decide) (by decide) first
    rw [show (0 : JInt).toNat = 0 from rfl, Nat.zero_add] at sum
    exact sum
  have twoEq : two.toNat = one.toNat + second.toNat * 2 ^ 8 :=
    toNat_hold one (by omega) (by decide) second
  have threeEq : three.toNat = two.toNat + third.toNat * 2 ^ 16 :=
    toNat_hold two (by omega) (by decide) third
  have fourEq : four.toNat = three.toNat + fourth.toNat * 2 ^ 24 :=
    toNat_hold three (by omega) (by decide) fourth
  refine ⟨four, ?_, ?_⟩
  · cases input <;> rfl
  · intro check
    have swapped : (zswap32 four).toNat = first.toNat * 2 ^ 24 + second.toNat * 2 ^ 16 +
        third.toNat * 2 ^ 8 + fourth.toNat := by
      rw [toNat_zswap32]
      omega
    rw [← BitVec.toNat_inj, swapped, digits_eq_iff first.isLt second.isLt third.isLt fourth.isLt
      check.isLt]
    simp only [trailer, putShortMSB, List.cons_append, List.nil_append, List.cons.injEq, and_true,
      ← BitVec.toNat_inj, BitVec.toNat_ofNat, Nat.shiftRight_eq_div_pow, Nat.div_div_eq_div_mul,
      show 2 ^ 16 * 2 ^ 8 = 2 ^ 24 from rfl,
      show check.toNat &&& 0xffff = check.toNat % 2 ^ 16 from and_mask _ 16]

/-- Fewer than four bytes are taken, and more are needed. -/
theorem needBits_few {input : List Byte} (few : input.length < 4) :
    ∃ hold bits, needBits 32 0 0 input = (hold, bits, []) ∧ bits < 32 := by
  match input, few with
  | [], _ => exact ⟨_, 0, rfl, by decide⟩
  | [_], _ => exact ⟨_, 8, rfl, by decide⟩
  | [_, _], _ => exact ⟨_, 16, rfl, by decide⟩
  | [_, _, _], _ => exact ⟨_, 24, rfl, by decide⟩

/-! ## Calls of `inflate` -/

/-- Nothing that can be made of the input is held back when it has been taken and there is
room. -/
def Inflater.Drains (I : Inflater Inflates) : Prop :=
  ∀ {state : I.State} {taken produced : List Byte} (input : List Byte) (left : Nat),
    I.Decodes state taken produced → (I.func state input left).stop = .needs →
      (I.func state input left).produced.length ≠ left →
        ∀ {other more}, I.Decodes other (taken ++ input) more →
          more <+: produced ++ (I.func state input left).produced

/-- What a receiver gets of `data`, if it starts with a stream for `whole`, or if such a
stream starts with it: an error if there is nothing, or if the checksum is wrong; and what
can be decoded if the end is missing, which is not taken for an error. -/
inductive Delivers (I : Inflater Inflates) (written whole data : List Byte) :
    Code → Option (List Byte) → Prop
  | nothing (empty : data = []) : Delivers I written whole data .bufError none
  | headerCut (one : data.length = 1) : Delivers I written whole data .ok (.some [])
  | cutOff {state : I.State} {taken part : List Byte}
      (read : putShortMSB zlibHeader ++ taken = data) (missing : ¬written <+: taken)
      (decodes : I.Decodes state taken part) (isPart : part <+: whole)
      (drained : I.Drains → ∀ {other more}, I.Decodes other taken more → more <+: part) :
      Delivers I written whole data .ok (.some part)
  | whole {rest : List Byte} (data_eq : data = putShortMSB zlibHeader ++ written ++ rest)
      (notWrong : rest.length < 4 ∨ rest.take 4 = trailer (adler32 1 whole whole.length 0)) :
      Delivers I written whole data .ok (.some whole)
  | damaged {rest : List Byte} (data_eq : data = putShortMSB zlibHeader ++ written ++ rest)
      (enough : 4 ≤ rest.length) (wrong : rest.take 4 ≠ trailer (adler32 1 whole whole.length 0)) :
      Delivers I written whole data .dataError none

section Delivers

variable {written whole rest taken : List Byte} {err : Code} {result : Option (List Byte)}

/-- Behind a header the data is cut off, or its checksum is looked at. -/
theorem Delivers.behind_header
    (delivers : Delivers I written whole (putShortMSB zlibHeader ++ taken) err result) :
    (¬written <+: taken ∧ err = .ok ∧ ∃ part state, result = some part ∧
      I.Decodes state taken part ∧
        (I.Drains → ∀ {other more}, I.Decodes other taken more → more <+: part)) ∨
    ∃ rest, taken = written ++ rest ∧
      ((rest.length < 4 ∨ rest.take 4 = trailer (adler32 1 whole whole.length 0)) ∧
          err = .ok ∧ result = some whole ∨
        (4 ≤ rest.length ∧ rest.take 4 ≠ trailer (adler32 1 whole whole.length 0)) ∧
          err = .dataError ∧ result = none) := by
  generalize data_eq : putShortMSB zlibHeader ++ taken = data at delivers
  cases delivers with
  | nothing empty =>
      rw [← data_eq] at empty
      cases empty
  | headerCut one =>
      rw [← data_eq, putShortMSB] at one
      simp at one
  | cutOff read missing decodes _ drained =>
      cases List.append_cancel_left (read.trans data_eq.symm)
      exact Or.inl ⟨missing, rfl, _, _, rfl, decodes, drained⟩
  | whole same notWrong =>
      rw [List.append_assoc] at same
      exact Or.inr ⟨_, List.append_cancel_left (data_eq.trans same), Or.inl ⟨notWrong, rfl, rfl⟩⟩
  | damaged same enough wrong =>
      rw [List.append_assoc] at same
      exact Or.inr ⟨_, List.append_cancel_left (data_eq.trans same),
        Or.inr ⟨⟨enough, wrong⟩, rfl, rfl⟩⟩

variable (delivers : Delivers I written whole (putShortMSB zlibHeader ++ written ++ rest) err result)

include delivers

/-- A stream that is there is delivered, if its checksum is right or not there yet. -/
theorem Delivers.eq_whole
    (notWrong : rest.length < 4 ∨ rest.take 4 = trailer (adler32 1 whole whole.length 0)) :
    err = .ok ∧ result = some whole := by
  rw [List.append_assoc] at delivers
  rcases delivers.behind_header with ⟨missing, _⟩ | ⟨others, same, all | ⟨⟨enough, wrong⟩, _⟩⟩
  · exact absurd (List.prefix_append _ _) missing
  · exact all.2
  · cases List.append_cancel_left same
    rcases notWrong with few | right
    · exact absurd enough (Nat.not_le_of_lt few)
    · exact absurd right wrong

end Delivers

/-- How far a stream has got with `data`, when `out` has come out. -/
inductive InflateStage (strm : InflateStrm I) (written whole data out : List Byte) : Prop
  | start (mode : strm.mode = .head) (hold : strm.hold = 0) (bits : strm.bits = 0)
      (block : strm.block = I.start) (input : strm.input = data) (none : out = [])
  | blocks (taken : List Byte) (mode : strm.mode = .blocks) (hold : strm.hold = 0)
      (bits : strm.bits = 0) (decodes : I.Decodes strm.block taken out)
      (read : putShortMSB zlibHeader ++ (taken ++ strm.input) = data) (isPrefix : taken <+: written)
      (isPart : out <+: whole) (check : strm.check = adler32 1 out out.length 0)
  | starved (rest : List Byte) (mode : strm.mode = .check) (bits : strm.bits < 32)
      (input : strm.input = []) (all : out = whole)
      (data_eq : data = putShortMSB zlibHeader ++ written ++ rest) (few : rest.length < 4)

/-- Nothing comes out of nothing. -/
theorem InflateStage.nil_of_nil {strm : InflateStrm I} {written whole data out : List Byte}
    (stage : InflateStage strm written whole data out) (empty : data = []) :
    strm.input = [] ∧ out = [] := by
  cases stage with
  | start mode hold bits block input none => exact ⟨input.trans empty, none⟩
  | blocks taken mode hold bits decodes read =>
      rw [empty] at read
      exact absurd read (List.cons_ne_nil _ _)
  | starved rest mode bits input all data_eq =>
      rw [empty] at data_eq
      exact absurd data_eq.symm (List.cons_ne_nil _ _)

/-- An upper bound of what can still come out. -/
def InflateStrm.work (strm : InflateStrm I) : Nat :=
  I.work strm.block + I.perByte * strm.input.length

/-- How the loop of `inflate` is left, if the output buffer was empty. -/
inductive Leaves (before : InflateStrm I) (written whole data out : List Byte) :
    InflateStrm I × List Byte × Code → Prop
  | goesOn {after : InflateStrm I} {fresh : List Byte}
      (stage : InflateStage (after.update fresh) written whole data (out ++ after.output))
      (full : after.availOut = 0) (some : fresh ≠ []) (output : after.output ≠ [])
      (work : after.work < before.work) : Leaves before written whole data out (after, fresh, .ok)
  | stops {after : InflateStrm I} (room : after.availOut ≠ 0) (input : after.input = [])
      (delivers : data ≠ [] → Delivers I written whole data .ok (.some (out ++ after.output)))
      (nothing : data = [] → after.output = []) :
      Leaves before written whole data out (after, after.output, .ok)
  | ends {after : InflateStrm I} (fresh : List Byte)
      (delivers : Delivers I written whole data .ok (.some (out ++ after.output))) :
      Leaves before written whole data out (after, fresh, .streamEnd)
  | damaged {after : InflateStrm I} (fresh : List Byte)
      (delivers : Delivers I written whole data .dataError none)
      (msg : after.msg = "incorrect data check") :
      Leaves before written whole data out (after, fresh, .dataError)

/-- Nothing put out changes nothing. -/
theorem InflateStrm.update_eq (strm : InflateStrm I) (fresh : List Byte) :
    strm.update fresh = { strm with check := adler32 strm.check fresh fresh.length 0 } := by
  rw [update]
  split
  · rfl
  · rename_i none
    have empty : fresh = [] := by simpa using none
    rw [empty]
    exact congrArg (fun check => { strm with check }) (adler32_nil strm.check).symm

/-- At the checksum, when everything has come out. -/
theorem leaves_atCheck {before strm : InflateStrm I} {written whole data out rest : List Byte}
    (mode : strm.mode = .check) (hold : strm.hold = 0) (bits : strm.bits = 0)
    (input : strm.input = rest) (data_eq : data = putShortMSB zlibHeader ++ written ++ rest)
    (check : strm.check = adler32 1 out out.length 0) (all : out ++ strm.output = whole)
    (room : 0 < before.availOut) (left : strm.availOut + strm.output.length = before.availOut)
    (work : strm.work + strm.output.length ≤ before.work) :
    Leaves before written whole data out (strm.atCheck strm.output) := by
  have notEmpty : data ≠ [] := by
    rw [data_eq, putShortMSB]
    exact List.cons_ne_nil _ _
  by_cases few : rest.length < 4
  · rcases needBits_few few with ⟨newHold, newBits, needs, low⟩
    have leaves : strm.atCheck strm.output =
        ({ strm with hold := newHold, bits := newBits, input := [] }, strm.output, .ok) := by
      simp only [InflateStrm.atCheck, hold, bits, input, needs, if_pos low]
    rw [leaves]
    by_cases full : strm.availOut = 0
    · have some : strm.output ≠ [] := by
        intro none
        rw [full, none] at left
        exact absurd left (Nat.ne_of_lt room)
      have length := List.length_pos_iff.mpr some
      refine .goesOn ?_ full some some ?_
      · rw [InflateStrm.update_eq]
        exact .starved rest mode low rfl all data_eq few
      · have less : I.work strm.block + I.perByte * ([] : List Byte).length ≤ strm.work :=
          Nat.add_le_add_left (Nat.mul_le_mul_left _ (Nat.zero_le _)) _
        show I.work strm.block + I.perByte * ([] : List Byte).length < before.work
        omega
    · refine .stops full rfl (fun _ => ?_) (fun none => absurd none notEmpty)
      rw [show out ++ strm.output = whole from all]
      exact .whole data_eq (Or.inl few)
  · rcases exists_four_cons few with ⟨first, second, third, fourth, more, rfl⟩
    rcases needBits_four first second third fourth more with ⟨newHold, needs, isCheck⟩
    have summed : adler32 strm.check strm.output strm.output.length 0 =
        adler32 1 whole whole.length 0 := by
      rw [check, adler32_append, all]
    have notFew : ¬32 < 32 := Nat.lt_irrefl 32
    simp only [InflateStrm.atCheck, hold, bits, input, needs, if_neg notFew,
      InflateStrm.update_eq, summed]
    by_cases right : zswap32 newHold = adler32 1 whole whole.length 0
    · rw [if_neg (not_not.mpr right)]
      refine .ends _ ?_
      rw [show out ++ strm.output = whole from all]
      exact .whole data_eq (Or.inr ((isCheck _).mp right))
    · rw [if_pos right]
      refine .damaged _ (.damaged data_eq ?_ fun same => right ((isCheck _).mpr same)) rfl
      simp

/-- Among the blocks. -/
theorem leaves_atBlocks {before strm : InflateStrm I} {written whole data out taken : List Byte}
    (inflates : Inflates written whole)
    (comparable : data <+: putShortMSB zlibHeader ++ written ∨
      putShortMSB zlibHeader ++ written <+: data)
    (mode : strm.mode = .blocks) (hold : strm.hold = 0) (bits : strm.bits = 0)
    (decodes : I.Decodes strm.block taken out)
    (read : putShortMSB zlibHeader ++ (taken ++ strm.input) = data) (isPrefix : taken <+: written)
    (isPart : out <+: whole) (check : strm.check = adler32 1 out out.length 0)
    (empty : strm.output = []) (room : 0 < before.availOut)
    (left : strm.availOut = before.availOut) (work : strm.work ≤ before.work) :
    Leaves before written whole data out strm.atBlocks := by
  have given : taken ++ strm.input <+: written ∨ written <+: taken ++ strm.input := by
    rw [← read, List.prefix_append_right_inj, List.prefix_append_right_inj] at comparable
    exact comparable
  have notEmpty : data ≠ [] := by
    rw [← read, putShortMSB]
    exact List.cons_ne_nil _ _
  have bound := I.work_func strm.block strm.input strm.availOut
  have fits := I.fits_func strm.block strm.input strm.availOut
  have notBad := I.not_bad_func decodes inflates isPrefix isPart strm.input strm.availOut given
  have whenDone := I.done_func decodes inflates isPrefix isPart strm.input strm.availOut given
  have whenNeeds := I.needs_func decodes inflates isPrefix isPart strm.input strm.availOut given
  have whenDrained (drains : I.Drains) := drains strm.input strm.availOut decodes
  unfold InflateStrm.atBlocks
  generalize I.func strm.block strm.input strm.availOut = result at *
  rcases result with ⟨state, size, produced, stop⟩
  simp only at bound fits notBad whenDone whenNeeds whenDrained ⊢
  rw [empty, List.nil_append]
  have rest : (strm.input.drop size).length = strm.input.length - size := List.length_drop
  have before_work : I.work strm.block + I.perByte * strm.input.length ≤ before.work := work
  cases stop with
  | bad msg => exact absurd rfl (notBad msg)
  | done =>
      rcases whenDone rfl with ⟨all, same⟩
      refine leaves_atCheck rfl hold bits rfl ?_ check same room ?_ ?_
      · rw [← read, ← all, List.append_assoc, List.append_assoc, List.take_append_drop]
      · show strm.availOut - produced.length + produced.length = before.availOut
        omega
      · show I.work state + I.perByte * (strm.input.drop size).length + produced.length ≤
          before.work
        rw [rest]
        omega
  | needs =>
      rcases whenNeeds rfl with ⟨stillDecodes, stillPrefix, stillPart, reason⟩
      by_cases full : strm.availOut - produced.length = 0
      · have some : produced ≠ [] := by
          intro none
          rw [none, List.length_nil] at full
          omega
        have length := List.length_pos_iff.mpr some
        refine .goesOn ?_ full some some ?_
        · rw [InflateStrm.update_eq]
          refine .blocks _ mode hold bits stillDecodes ?_ stillPrefix stillPart ?_
          · show putShortMSB zlibHeader ++ (taken ++ strm.input.take size ++ strm.input.drop size) =
              data
            rw [List.append_assoc, List.take_append_drop, read]
          · show adler32 strm.check produced produced.length 0 = _
            rw [check, adler32_append]
        · show I.work state + I.perByte * (strm.input.drop size).length < before.work
          rw [rest]
          omega
      · have short : produced.length ≠ strm.availOut := by omega
        rcases reason.resolve_left short with ⟨exhausted, missing⟩
        rw [exhausted, List.take_length] at stillDecodes
        refine .stops full (List.drop_eq_nil_of_le exhausted.ge)
          (fun _ => .cutOff read missing stillDecodes stillPart ?_)
          (fun none => absurd none notEmpty)
        intro drains _ _ others
        exact whenDrained drains rfl short others

/-- From wherever the stream has got to. -/
theorem leaves_run {strm : InflateStrm I} {written whole data out : List Byte}
    (inflates : Inflates written whole)
    (comparable : data <+: putShortMSB zlibHeader ++ written ∨
      putShortMSB zlibHeader ++ written <+: data)
    (stage : InflateStage strm written whole data out) (empty : strm.output = [])
    (room : 0 < strm.availOut) :
    ∃ result, strm.run = some result ∧ Leaves strm written whole data out result := by
  have someRoom : strm.availOut ≠ 0 := Nat.ne_of_gt room
  have header : putShortMSB zlibHeader = [0x78, 0x9c] := by decide
  cases stage with
  | start mode hold bits block input none =>
      subst none
      have runs : strm.run = strm.atHead := by rw [InflateStrm.run, mode]
      rw [runs]
      match data, comparable, input with
      | [], _, input =>
          refine ⟨({ strm with input := [] }, strm.output, .ok), ?_, ?_⟩
          · simp only [InflateStrm.atHead, hold, bits, input, needBits, empty]
            rfl
          · exact .stops someRoom rfl (fun some => absurd rfl some) (fun _ => empty)
      | [byte], _, input =>
          refine ⟨({ strm with input := [], hold := 0 ||| (byte.setWidth 32 <<< 0), bits := 8 },
            strm.output, .ok), ?_, ?_⟩
          · simp only [InflateStrm.atHead, hold, bits, input, needBits, empty]
            rfl
          · refine .stops someRoom rfl (fun _ => ?_) (fun _ => empty)
            show Delivers I written whole [byte] .ok (.some ([] ++ strm.output))
            rw [empty]
            exact .headerCut rfl
      | first :: second :: rest, comparable, input =>
          obtain ⟨rfl, rfl⟩ : first = 0x78 ∧ second = 0x9c := by
            rw [header] at comparable
            rcases comparable with ⟨more, same⟩ | ⟨more, same⟩
            · exact ⟨(List.cons.inj same).1, (List.cons.inj (List.cons.inj same).2).1⟩
            · exact ⟨(List.cons.inj same).1.symm, (List.cons.inj (List.cons.inj same).2).1.symm⟩
          have needs : needBits 16 0 0 (0x78 :: 0x9c :: rest) = (0x9c78, 16, rest) := by
            cases rest <;> rfl
          have noError : headerError 0x9c78 = some none := by decide
          have notFew : ¬16 < 16 := Nat.lt_irrefl 16
          refine ⟨InflateStrm.atBlocks { strm with
            input := rest, check := 1, mode := .blocks, hold := 0, bits := 0 }, ?_, ?_⟩
          · simp only [InflateStrm.atHead, hold, bits, input, needs, if_neg notFew, noError]
            rfl
          · refine leaves_atBlocks inflates comparable rfl rfl rfl ?_ ?_ List.nil_prefix
              List.nil_prefix (adler32_nil 1).symm empty room rfl ?_
            · show I.Decodes strm.block [] []
              rw [block]
              exact I.decodes_start
            · rw [header]
              rfl
            · show I.work strm.block + I.perByte * rest.length ≤ strm.work
              rw [InflateStrm.work, input]
              have shorter : rest.length ≤ ((0x78 : Byte) :: 0x9c :: rest).length :=
                Nat.le_add_right rest.length 2
              exact Nat.add_le_add_left (Nat.mul_le_mul_left _ shorter) _
  | blocks taken mode hold bits decodes read isPrefix isPart check =>
      refine ⟨_, by rw [InflateStrm.run, mode], ?_⟩
      exact leaves_atBlocks inflates comparable mode hold bits decodes read isPrefix isPart check
        empty room rfl (Nat.le_refl _)
  | starved rest mode bits input all data_eq few =>
      refine ⟨({ strm with input := [] }, strm.output, .ok), ?_, ?_⟩
      · simp only [InflateStrm.run, mode, InflateStrm.atCheck, input, needBits, if_pos bits, empty]
      · refine .stops someRoom rfl (fun _ => ?_) (fun _ => empty)
        show Delivers I written whole data .ok (.some (out ++ strm.output))
        rw [empty, List.append_nil, all]
        exact .whole data_eq (Or.inl few)

/-- A call of `inflate`: the loop is left, and it is an error if nothing has happened. -/
theorem leaves_inflate {strm : InflateStrm I} {written whole data out : List Byte}
    (inflates : Inflates written whole)
    (comparable : data <+: putShortMSB zlibHeader ++ written ∨
      putShortMSB zlibHeader ++ written <+: data)
    (stage : InflateStage strm written whole data out) (empty : strm.output = [])
    (room : 0 < strm.availOut) :
    ∃ after fresh ret, Leaves strm written whole data out (after, fresh, ret) ∧
      strm.inflate = some (after.update fresh,
        if (strm.input.length - after.input.length = 0 ∧ fresh.length = 0) ∧ ret = .ok then
          .bufError else ret) := by
  rcases leaves_run inflates comparable stage empty room with ⟨⟨after, fresh, ret⟩, runs, leaves⟩
  refine ⟨after, fresh, ret, leaves, ?_⟩
  rw [InflateStrm.inflate, runs]
  rfl

end WebbitGwt.Pako
