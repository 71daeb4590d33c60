import WebbitGwt.Pako.Adler32

/-!
# Compressed streams

zlib's `deflate` puts a header and the checksum of what it has read around the compressed
data, and moves what there is room for to the output buffer.  The compression function is
taken for granted, with what `deflate` relies on; it reads with `read_buf` and leaves whole
blocks in the pending buffer.

A call either fills the output buffer, or gets through with what it is given.
-/

namespace WebbitGwt.Pako

open WebbitGwt.Java
open WebbitGwt.Nio

/-- The flush values that `push` asks for. -/
inductive Flush
  | noFlush
  | finish
  deriving DecidableEq

/-- `Z_NO_FLUSH` and `Z_FINISH` -/
def Flush.value : Flush → Int
  | .noFlush => 0
  | .finish => 4

/-- `rank` -/
def rank (f : Int) : Int :=
  2 * f - if f > 4 then 9 else 0

/-- Return codes: `Z_OK`, `Z_STREAM_END`, and errors. -/
inductive Code
  | ok
  | streamEnd
  | streamError
  | dataError
  | bufError
  deriving DecidableEq

/-- `messages` -/
def message : Code → String
  | .ok => ""
  | .streamEnd => "stream end"
  | .streamError => "stream error"
  | .dataError => "data error"
  | .bufError => "buffer error"

/-- What a compression function returns if it is told to flush all or nothing. -/
inductive BlockState
  | needMore
  | finishStarted
  | finishDone
  deriving DecidableEq

/-- What a compression function does to the stream: `read_buf` with room for so many
bytes, or the bytes of a block. -/
inductive Effect
  | read (size : Nat)
  | flush (bytes : List Byte)

/-- The room that is read into. -/
def Effect.size : Effect → Nat
  | .read size => size
  | .flush _ => 0

/-- The bytes that are written. -/
def Effect.bytes : Effect → List Byte
  | .read _ => []
  | .flush bytes => bytes

/-- What is left behind by a call of a compression function. -/
structure Outcome (State : Type) where
  state : State
  effects : List Effect
  blockState : BlockState

namespace Outcome

variable {State : Type}

/-- The room that has been read into. -/
def sizeRead (outcome : Outcome State) : Nat :=
  (outcome.effects.map Effect.size).sum

/-- The bytes that have been read, and those that have not. -/
def taken (outcome : Outcome State) (input : List Byte) : List Byte :=
  input.take outcome.sizeRead

def rest (outcome : Outcome State) (input : List Byte) : List Byte :=
  input.drop outcome.sizeRead

/-- The bytes of all blocks. -/
def written (outcome : Outcome State) : List Byte :=
  outcome.effects.flatMap Effect.bytes

end Outcome

/-- A compression function such as `deflate_slow`, with the state it keeps between calls.
It is given the input that is left and the room in the output buffer, of which there is
some.  Unless it is to finish, it goes on until it has read the input or filled the buffer.
If it is to finish, it says that it needs more or that it has only started when the
buffer is full, and that it is done when it is not.

What it has written when it finishes inflates to what it has read, and how much it writes
is bounded by what it reads. -/
structure Compressor (Inflates : List Byte → List Byte → Prop) where
  State : Type
  start : State
  lookahead : State → Nat
  func : State → List Byte → Nat → Flush → Outcome State
  Emits : State → List Byte → List Byte → Prop
  emits_start : Emits start [] []
  emits_func : ∀ {state taken written}, Emits state taken written →
    ∀ input {availOut}, 0 < availOut → ∀ flush,
      (func state input availOut flush).blockState = .needMore →
        Emits (func state input availOut flush).state
          (taken ++ (func state input availOut flush).taken input)
          (written ++ (func state input availOut flush).written)
  inflates_func : ∀ {state taken written}, Emits state taken written →
    ∀ input {availOut}, 0 < availOut → ∀ flush,
      (func state input availOut flush).blockState ≠ .needMore →
        Inflates (written ++ (func state input availOut flush).written)
          (taken ++ (func state input availOut flush).taken input)
  noFlush_func : ∀ state input {availOut}, 0 < availOut →
    (func state input availOut .noFlush).blockState = .needMore ∧
      ((func state input availOut .noFlush).rest input = [] ∨
        availOut ≤ (func state input availOut .noFlush).written.length)
  full_func : ∀ state input {availOut}, 0 < availOut →
    ((func state input availOut .finish).blockState ≠ .finishDone ↔
      availOut ≤ (func state input availOut .finish).written.length)
  finish_func : ∀ state input {availOut}, 0 < availOut →
    (func state input availOut .finish).blockState ≠ .needMore →
      (func state input availOut .finish).rest input = [] ∧
        lookahead (func state input availOut .finish).state = 0
  work : State → Nat
  perByte : Nat
  work_func : ∀ state input {availOut}, 0 < availOut → ∀ flush,
    (func state input availOut flush).written.length +
        work (func state input availOut flush).state +
        perByte * ((func state input availOut flush).rest input).length ≤
      work state + perByte * input.length

/-- `INIT_STATE`, `BUSY_STATE`, `FINISH_STATE` -/
inductive Status
  | init
  | busy
  | finish
  deriving DecidableEq

variable {Inflates : List Byte → List Byte → Prop} {C : Compressor Inflates}

/-- A stream and its state: the input that is left, the output in the current buffer, the
room that is left in it, and the bytes that have not found room. -/
structure Strm (C : Compressor Inflates) where
  input : List Byte
  output : List Byte
  availOut : Nat
  msg : String
  adler : JInt
  status : Status
  pending : List Byte
  wrap : Int
  lastFlush : Int
  block : C.State

/-- `putShortMSB` -/
def putShortMSB (b : Nat) : List Byte :=
  [BitVec.ofNat 8 (b >>> 8), BitVec.ofNat 8 b]

/-- The header for windows of 15 bits and the default level. -/
def zlibHeader : Nat :=
  let header := (8 + ((15 - 8) <<< 4)) <<< 8 ||| (2 <<< 6)
  header + (31 - header % 31)

namespace Strm

/-- `deflateInit2`, with the options that are the defaults. -/
def new (C : Compressor Inflates) : Strm C where
  input := []
  output := []
  availOut := 0
  msg := ""
  adler := 1
  status := .init
  pending := []
  wrap := 1
  lastFlush := Flush.noFlush.value
  block := C.start

/-- `err` -/
def err (strm : Strm C) (errorCode : Code) : Strm C × Code :=
  ({ strm with msg := message errorCode }, errorCode)

/-- `flush_pending` -/
def flushPending (strm : Strm C) : Strm C :=
  let len := if strm.pending.length > strm.availOut then strm.availOut else strm.pending.length
  { strm with
    output := strm.output ++ strm.pending.take len
    availOut := strm.availOut - len
    pending := strm.pending.drop len }

/-- `read_buf`.  The checksum is taken from the window, where the bytes have been put. -/
def readBuf (strm : Strm C) (size : Nat) : Strm C :=
  let len := if strm.input.length > size then size else strm.input.length
  if len = 0 then
    strm
  else
    { strm with
      input := strm.input.drop len
      adler := if strm.wrap = 1 then adler32 strm.adler (strm.input.take len) len 0
        else strm.adler }

def perform (strm : Strm C) : Effect → Strm C
  | .read size => strm.readBuf size
  | .flush bytes => { strm with pending := strm.pending ++ bytes }.flushPending

/-- A call of the compression function. -/
def compress (strm : Strm C) (flush : Flush) : Strm C × BlockState :=
  let outcome := C.func strm.block strm.input strm.availOut flush
  ({ outcome.effects.foldl perform strm with block := outcome.state }, outcome.blockState)

/-- The end of `deflate`: the trailer is written once. -/
def writeTrailer (strm : Strm C) (flush : Flush) : Strm C × Code :=
  if flush ≠ .finish then
    (strm, .ok)
  else if strm.wrap ≤ 0 then
    (strm, .streamEnd)
  else
    let strm := flushPending { strm with
      pending := strm.pending ++
        (putShortMSB (strm.adler.toNat >>> 16) ++ putShortMSB (strm.adler.toNat &&& 0xffff)) }
    let strm := { strm with wrap := if strm.wrap > 0 then -strm.wrap else strm.wrap }
    (strm, if strm.pending.length ≠ 0 then .ok else .streamEnd)

/-- `deflate`, after the header. -/
def deflateBlocks (strm : Strm C) (flush : Flush) : Strm C × Code :=
  if strm.status = .finish ∧ strm.input.length ≠ 0 then
    strm.err .bufError
  -- start a new block or continue the current one
  else if strm.input.length ≠ 0 ∨ C.lookahead strm.block ≠ 0 ∨
      (flush ≠ .noFlush ∧ strm.status ≠ .finish) then
    let (strm, bstate) := strm.compress flush
    let strm := if bstate = .finishStarted ∨ bstate = .finishDone then
      { strm with status := .finish } else strm
    if bstate = .needMore ∨ bstate = .finishStarted then
      -- avoid an error next call
      (if strm.availOut = 0 then { strm with lastFlush := -1 } else strm, .ok)
    else
      strm.writeTrailer flush
  else
    strm.writeTrailer flush

/-- The beginning of `deflate`: the header is written once. -/
def begin (strm : Strm C) (flush : Flush) : Strm C :=
  let strm := { strm with lastFlush := flush.value }
  if strm.status = .init then
    { strm with
      status := .busy
      pending := strm.pending ++ putShortMSB zlibHeader
      adler := 1 }
  else
    strm

/-- `deflate` -/
def deflate (strm : Strm C) (flush : Flush) : Strm C × Code :=
  if strm.status = .finish ∧ flush ≠ .finish then
    strm.err (if strm.availOut = 0 then .bufError else .streamError)
  else
    let oldFlush := strm.lastFlush
    let strm := strm.begin flush
    if strm.pending.length ≠ 0 then
      let strm := strm.flushPending
      if strm.availOut = 0 then
        ({ strm with lastFlush := -1 }, .ok)
      else
        strm.deflateBlocks flush
    else if strm.input.length = 0 ∧ rank flush.value ≤ rank oldFlush ∧ flush ≠ .finish then
      strm.err .bufError
    else
      strm.deflateBlocks flush

/-- `deflateEnd` -/
def deflateEnd (strm : Strm C) : Strm C × Code :=
  if strm.status = .busy then strm.err .dataError else (strm, .ok)

end Strm

/-! ## Bytes on their way -/

/-- From one state of a stream to a later one, some bytes have been read, some have been
written, and some have been moved to the output buffer, as many as there was room for. -/
structure Passes (before after : Strm C) (taken written moved : List Byte) : Prop where
  input : taken ++ after.input = before.input
  pending : moved ++ after.pending = before.pending ++ written
  output : after.output = before.output ++ moved
  availOut : after.availOut + moved.length = before.availOut
  full : before.pending = [] ∨ before.availOut = 0 → after.pending = [] ∨ after.availOut = 0
  adler : before.wrap = 1 → after.adler = adler32 before.adler taken taken.length 0
  wrap : after.wrap = before.wrap
  status : after.status = before.status
  lastFlush : after.lastFlush = before.lastFlush
  block : after.block = before.block

namespace Passes

theorem refl (strm : Strm C) : Passes strm strm [] [] [] where
  input := rfl
  pending := (List.append_nil _).symm
  output := (List.append_nil _).symm
  availOut := rfl
  full := id
  adler _ := (adler32_nil _).symm
  wrap := rfl
  status := rfl
  lastFlush := rfl
  block := rfl

theorem trans {before between after : Strm C} {taken written moved : List Byte}
    {laterTaken laterWritten laterMoved : List Byte}
    (first : Passes before between taken written moved)
    (second : Passes between after laterTaken laterWritten laterMoved) :
    Passes before after (taken ++ laterTaken) (written ++ laterWritten) (moved ++ laterMoved) where
  input := by rw [List.append_assoc, second.input, first.input]
  pending := by
    rw [List.append_assoc, second.pending, ← List.append_assoc, first.pending, List.append_assoc]
  output := by rw [second.output, first.output, List.append_assoc]
  availOut := by
    rw [List.length_append, ← first.availOut, ← second.availOut]
    omega
  full := second.full ∘ first.full
  adler isWrapped := by
    rw [second.adler (first.wrap.trans isWrapped), first.adler isWrapped, adler32_append]
  wrap := second.wrap.trans first.wrap
  status := second.status.trans first.status
  lastFlush := second.lastFlush.trans first.lastFlush
  block := second.block.trans first.block

end Passes

namespace Strm

/-- Bytes are moved until none is left or the buffer is full. -/
theorem passes_flushPending (strm : Strm C) :
    (strm.flushPending.pending = [] ∨ strm.flushPending.availOut = 0) ∧
      ∃ moved, Passes strm strm.flushPending [] [] moved := by
  let len := if strm.pending.length > strm.availOut then strm.availOut else strm.pending.length
  have bounds : len ≤ strm.pending.length ∧ len ≤ strm.availOut ∧
      (len = strm.pending.length ∨ len = strm.availOut) := by
    simp only [len]
    split <;> omega
  have drained : strm.flushPending.pending = [] ∨ strm.flushPending.availOut = 0 := by
    rcases bounds.2.2 with all | full
    · exact Or.inl (List.drop_eq_nil_of_le all.ge)
    · exact Or.inr (Nat.sub_eq_zero_of_le full.ge)
  refine ⟨drained, strm.pending.take len, ?_⟩
  exact {
    input := rfl
    pending := by
      rw [List.append_nil]
      exact List.take_append_drop len strm.pending
    output := rfl
    availOut := by
      rw [List.length_take_of_le bounds.1]
      exact Nat.sub_add_cancel bounds.2.1
    full := fun _ => drained
    adler := fun _ => (adler32_nil _).symm
    wrap := rfl
    status := rfl
    lastFlush := rfl
    block := rfl }

theorem passes_readBuf (strm : Strm C) (size : Nat) :
    Passes strm (strm.readBuf size) (strm.input.take size) [] [] := by
  have limit : strm.input.take (if strm.input.length > size then size else strm.input.length) =
      strm.input.take size := by
    split
    · rfl
    · rw [List.take_length, List.take_of_length_le (by omega)]
  have limitRest : strm.input.drop (if strm.input.length > size then size else strm.input.length) =
      strm.input.drop size := by
    split
    · rfl
    · rw [List.drop_length, List.drop_of_length_le (by omega)]
  have count : (strm.input.take size).length =
      if strm.input.length > size then size else strm.input.length := by
    rw [List.length_take]
    split <;> omega
  rw [readBuf, ← count]
  by_cases none : (strm.input.take size).length = 0
  · simp only [List.length_eq_zero_iff.mp none]
    exact .refl strm
  · simp only [if_neg none]
    rw [count, limit, limitRest, ← count]
    exact {
      input := List.take_append_drop size strm.input
      pending := (List.append_nil _).symm
      output := (List.append_nil _).symm
      availOut := rfl
      full := id
      adler := fun isWrapped => if_pos isWrapped
      wrap := rfl
      status := rfl
      lastFlush := rfl
      block := rfl }

theorem passes_flush (strm : Strm C) (bytes : List Byte) :
    ∃ moved, Passes strm (strm.perform (.flush bytes)) [] bytes moved := by
  rcases passes_flushPending { strm with pending := strm.pending ++ bytes } with
    ⟨drained, moved, passes⟩
  refine ⟨moved, ?_⟩
  exact {
    input := passes.input
    pending := passes.pending.trans (List.append_nil _)
    output := passes.output
    availOut := passes.availOut
    full := fun _ => drained
    adler := passes.adler
    wrap := passes.wrap
    status := passes.status
    lastFlush := passes.lastFlush
    block := passes.block }

/-- Effect after effect. -/
theorem passes_effects (strm : Strm C) (effects : List Effect) :
    ∃ moved, Passes strm (effects.foldl perform strm)
      (strm.input.take (effects.map Effect.size).sum) (effects.flatMap Effect.bytes) moved := by
  induction effects generalizing strm with
  | nil => exact ⟨[], .refl strm⟩
  | cons effect effects ih =>
      rcases ih (strm.perform effect) with ⟨later, rest⟩
      cases effect with
      | read size =>
          have first := passes_readBuf strm size
          refine ⟨[] ++ later, ?_⟩
          have both := first.trans rest
          have input : (strm.perform (.read size)).input = strm.input.drop size :=
            List.append_cancel_left
              (first.input.trans (List.take_append_drop size strm.input).symm)
          rw [input, ← List.take_add] at both
          exact both
      | flush bytes =>
          rcases passes_flush strm bytes with ⟨moved, first⟩
          refine ⟨moved ++ later, ?_⟩
          have both := first.trans rest
          rw [show (strm.perform (.flush bytes)).input = strm.input from first.input] at both
          rw [List.map_cons, List.sum_cons, Effect.size, Nat.zero_add, List.flatMap_cons]
          exact both

end Strm

/-- The bytes of a checksum. -/
def trailer (adler : JInt) : List Byte :=
  putShortMSB (adler.toNat >>> 16) ++ putShortMSB (adler.toNat &&& 0xffff)

/-- A complete stream: the compressed data between the header and the checksum. -/
def zlibStream (body whole : List Byte) : List Byte :=
  putShortMSB zlibHeader ++ body ++ trailer (adler32 1 whole whole.length 0)

/-- How far a stream has got, if it is to hold `whole`, and `out` has come out. -/
inductive Stage (strm : Strm C) (whole out : List Byte) : Prop
  | started (status : strm.status = .init) (wrap : strm.wrap = 1) (block : strm.block = C.start)
      (input : strm.input = whole) (none : out = []) (pending : strm.pending = [])
  | body (taken written : List Byte) (status : strm.status = .busy) (wrap : strm.wrap = 1)
      (emits : C.Emits strm.block taken written) (input : taken ++ strm.input = whole)
      (adler : strm.adler = adler32 1 taken taken.length 0)
      (out_eq : out = putShortMSB zlibHeader ++ written)
  | trailer (written : List Byte) (status : strm.status = .finish) (wrap : strm.wrap = 1)
      (inflates : Inflates written whole) (input : strm.input = [])
      (lookahead : C.lookahead strm.block = 0) (adler : strm.adler = adler32 1 whole whole.length 0)
      (out_eq : out = putShortMSB zlibHeader ++ written)
  | complete (written : List Byte) (status : strm.status = .finish) (wrap : strm.wrap = -1)
      (inflates : Inflates written whole) (input : strm.input = [])
      (lookahead : C.lookahead strm.block = 0) (out_eq : out = zlibStream written whole)

/-- The bytes of the header, if it is still to be written. -/
def headerLeft : Status → Nat
  | .init => 2
  | .busy => 0
  | .finish => 0

/-- The bytes of the trailer, if it is still to be written. -/
def trailerLeft (wrap : Int) : Nat :=
  if wrap = 1 then 4 else 0

/-- An upper bound of what is still to be put out. -/
def Strm.work (strm : Strm C) : Nat :=
  C.work strm.block + C.perByte * strm.input.length + strm.pending.length +
    headerLeft strm.status + trailerLeft strm.wrap

/-- What has come out of a stream altogether, if `sent` is in other buffers. -/
def Strm.out (strm : Strm C) (sent : List Byte) : List Byte :=
  sent ++ strm.output ++ strm.pending

namespace Passes

variable {before after : Strm C} {taken written moved : List Byte}

theorem out_eq (passes : Passes before after taken written moved) (sent : List Byte) :
    after.out sent = before.out sent ++ written := by
  rw [Strm.out, Strm.out, passes.output, List.append_assoc, List.append_assoc, List.append_assoc,
    passes.pending]
  simp only [List.append_assoc]

/-- Bytes that are moved need not be put out again. -/
theorem work_eq (passes : Passes before after taken written moved) :
    after.work + moved.length + C.perByte * before.input.length =
      before.work + written.length + C.perByte * after.input.length := by
  have lengths : moved.length + after.pending.length = before.pending.length + written.length := by
    rw [← List.length_append, passes.pending, List.length_append]
  simp only [Strm.work, passes.block, passes.status, passes.wrap]
  omega

end Passes

namespace Strm

/-- The compression function leaves the buffer full if and only if it has written so
much. -/
theorem passes_compress {strm : Strm C} (empty : strm.pending = []) (flush : Flush) :
    ∃ moved, Passes strm { (strm.compress flush).1 with block := strm.block }
        ((C.func strm.block strm.input strm.availOut flush).taken strm.input)
        (C.func strm.block strm.input strm.availOut flush).written moved ∧
      (strm.compress flush).1.input =
        (C.func strm.block strm.input strm.availOut flush).rest strm.input ∧
      ((strm.compress flush).1.pending = [] ∨ (strm.compress flush).1.availOut = 0) ∧
      ((strm.compress flush).1.availOut = 0 ↔
        strm.availOut ≤ (C.func strm.block strm.input strm.availOut flush).written.length) := by
  let outcome := C.func strm.block strm.input strm.availOut flush
  rcases passes_effects strm outcome.effects with ⟨moved, passes⟩
  have drained := passes.full (Or.inl empty)
  have room := passes.availOut
  have lengths := congrArg List.length passes.pending
  rw [empty, List.nil_append, List.length_append] at lengths
  refine ⟨moved, { passes with block := rfl }, ?_, drained, ?_⟩
  · exact List.append_cancel_left
      (passes.input.trans (List.take_append_drop outcome.sizeRead strm.input).symm)
  · show (outcome.effects.foldl perform strm).availOut = 0 ↔
      strm.availOut ≤ (outcome.effects.flatMap Effect.bytes).length
    constructor
    · intro full
      omega
    · intro much
      rcases drained with none | full
      · rw [none, List.length_nil] at lengths
        omega
      · exact full

/-- What the compression function moves to the buffer need not be put out again. -/
theorem work_compress (strm : Strm C) (room : 0 < strm.availOut) (flush : Flush) :
    (strm.compress flush).1.work + strm.availOut ≤
      strm.work + (strm.compress flush).1.availOut := by
  let outcome := C.func strm.block strm.input strm.availOut flush
  rcases passes_effects strm outcome.effects with ⟨moved, passes⟩
  have bound : outcome.written.length + C.work outcome.state +
      C.perByte * (outcome.rest strm.input).length ≤
        C.work strm.block + C.perByte * strm.input.length :=
    C.work_func strm.block strm.input room flush
  have rest : (outcome.effects.foldl perform strm).input = outcome.rest strm.input :=
    List.append_cancel_left
      (passes.input.trans (List.take_append_drop outcome.sizeRead strm.input).symm)
  have roomLeft := passes.availOut
  have lengths := congrArg List.length passes.pending
  rw [List.length_append, List.length_append] at lengths
  show C.work outcome.state + C.perByte * (outcome.effects.foldl perform strm).input.length +
      (outcome.effects.foldl perform strm).pending.length +
      headerLeft (outcome.effects.foldl perform strm).status +
      trailerLeft (outcome.effects.foldl perform strm).wrap + strm.availOut ≤
    strm.work + (outcome.effects.foldl perform strm).availOut
  rw [rest, passes.status, passes.wrap, Strm.work]
  have written : outcome.written.length = (outcome.effects.flatMap Effect.bytes).length := rfl
  omega

end Strm

/-! ## Calls of `deflate` -/

/-- A call of `deflate` has kept to the order of things: what has come out can be gone on
with, none of it waits while there is room, and what has filled the room need not be put
out again. -/
structure Progress (before after : Strm C) (whole sent : List Byte) : Prop where
  stage : Stage after whole (after.out sent)
  drained : after.pending = [] ∨ after.availOut = 0
  room : after.availOut ≤ before.availOut
  work : after.work + before.availOut ≤ before.work + after.availOut

/-- Stages do not depend on the last flush value. -/
theorem Stage.lastFlush {strm : Strm C} {whole out : List Byte} (stage : Stage strm whole out)
    (value : Int) : Stage { strm with lastFlush := value } whole out := by
  cases stage with
  | started status wrap block input none pending =>
      exact .started status wrap block input none pending
  | body taken written status wrap emits input adler out_eq =>
      exact .body taken written status wrap emits input adler out_eq
  | trailer written status wrap inflates input lookahead adler out_eq =>
      exact .trailer written status wrap inflates input lookahead adler out_eq
  | complete written status wrap inflates input lookahead out_eq =>
      exact .complete written status wrap inflates input lookahead out_eq

/-- Flushing does not change the stage. -/
theorem Stage.flushPending {strm : Strm C} {whole sent : List Byte}
    (stage : Stage strm whole (strm.out sent)) (busy : strm.status ≠ .init) :
    Progress strm strm.flushPending whole sent := by
  rcases strm.passes_flushPending with ⟨drained, moved, passes⟩
  have room := passes.availOut
  have out := passes.out_eq sent
  have work := passes.work_eq
  rw [List.append_nil] at out
  refine ⟨?_, drained, Nat.le.intro room, ?_⟩
  · rw [out]
    cases stage with
    | started status => exact absurd status busy
    | body taken written status wrap emits input adler out_eq =>
        exact .body taken written status wrap emits input adler out_eq
    | trailer written status wrap inflates input lookahead adler out_eq =>
        exact .trailer written status wrap inflates input lookahead adler out_eq
    | complete written status wrap inflates input lookahead out_eq =>
        exact .complete written status wrap inflates input lookahead out_eq
  · rw [← passes.input, List.nil_append, List.length_nil, Nat.add_zero] at work
    omega

section Compress

variable {strm : Strm C} {whole sent taken written : List Byte} (empty : strm.pending = [])
  (room : 0 < strm.availOut) (status : strm.status = .busy) (wrap : strm.wrap = 1)
  (emits : C.Emits strm.block taken written) (input : taken ++ strm.input = whole)
  (adler : strm.adler = adler32 1 taken taken.length 0)
  (out_eq : strm.out sent = putShortMSB zlibHeader ++ written) (flush : Flush)

include empty room status wrap emits input adler out_eq

/-- A call of the compression function that does not finish. -/
theorem progress_needMore
    (needMore : (C.func strm.block strm.input strm.availOut flush).blockState = .needMore)
    (lastFlush : Int) :
    Progress strm { (strm.compress flush).1 with lastFlush } whole sent := by
  rcases strm.passes_compress empty flush with ⟨moved, passes, _, drained, _⟩
  have out := passes.out_eq sent
  have adlerAfter := passes.adler wrap
  rw [adler, adler32_append] at adlerAfter
  refine ⟨?_, drained, Nat.le.intro passes.availOut, strm.work_compress room flush⟩
  refine .body _ _ (passes.status.trans status) (passes.wrap.trans wrap)
    (C.emits_func emits strm.input room flush needMore) ?_ adlerAfter (out.trans ?_)
  · rw [List.append_assoc]
    exact (congrArg (taken ++ ·) passes.input).trans input
  · rw [out_eq, List.append_assoc]

/-- A call of the compression function that finishes. -/
theorem progress_finish
    (finishes : (C.func strm.block strm.input strm.availOut .finish).blockState ≠ .needMore) :
    Progress strm { (strm.compress .finish).1 with status := .finish } whole sent := by
  rcases strm.passes_compress empty .finish with ⟨moved, passes, rest, drained, _⟩
  rcases C.finish_func strm.block strm.input room finishes with ⟨nothingLeft, lookahead⟩
  have out := passes.out_eq sent
  have adlerAfter := passes.adler wrap
  have inflates := C.inflates_func emits strm.input room .finish finishes
  have work := strm.work_compress room .finish
  have all : taken ++ (C.func strm.block strm.input strm.availOut .finish).taken strm.input =
      whole := by
    have read : (C.func strm.block strm.input strm.availOut .finish).taken strm.input ++
        (strm.compress .finish).1.input = strm.input := passes.input
    rw [rest, nothingLeft, List.append_nil] at read
    rw [read, input]
  rw [adler, adler32_append, all] at adlerAfter
  rw [all] at inflates
  refine ⟨?_, drained, Nat.le.intro passes.availOut, ?_⟩
  · refine .trailer _ rfl (passes.wrap.trans wrap) inflates (rest.trans nothingLeft) lookahead
      adlerAfter (out.trans ?_)
    rw [out_eq, List.append_assoc]
  · have before := passes.status.trans status
    simp only [Strm.work] at work ⊢
    rw [show (strm.compress .finish).1.status = .busy from before] at work
    exact work

end Compress

/-- Call after call. -/
theorem Progress.trans {before between after : Strm C} {whole sent : List Byte}
    (first : Progress before between whole sent) (second : Progress between after whole sent) :
    Progress before after whole sent where
  stage := second.stage
  drained := second.drained
  room := second.room.trans first.room
  work := by
    have early := first.work
    have late := second.work
    omega

/-- A call that is to finish either fills the buffer and has to be made again, or comes to
the end of the stream. -/
inductive Finishing (before : Strm C) (whole sent : List Byte) : Strm C × Code → Prop
  | goesOn {after : Strm C} (progress : Progress before after whole sent)
      (full : after.availOut = 0) : Finishing before whole sent (after, .ok)
  | ends {after : Strm C} {written : List Byte} (inflates : Inflates written whole)
      (all : sent ++ after.output = zlibStream written whole) (status : after.status = .finish)
      (input : after.input = []) : Finishing before whole sent (after, .streamEnd)

theorem Finishing.after {before between : Strm C} {whole sent : List Byte}
    {result : Strm C × Code} (progress : Progress before between whole sent)
    (finishing : Finishing between whole sent result) : Finishing before whole sent result := by
  cases finishing with
  | goesOn later full => exact .goesOn (progress.trans later) full
  | ends inflates all status input => exact .ends inflates all status input

/-- The trailer is written, and there may not be room for all of it. -/
theorem finishing_trailer {strm : Strm C} {whole sent written : List Byte}
    (empty : strm.pending = []) (status : strm.status = .finish) (wrap : strm.wrap = 1)
    (inflates : Inflates written whole) (input : strm.input = [])
    (lookahead : C.lookahead strm.block = 0)
    (adler : strm.adler = adler32 1 whole whole.length 0)
    (out_eq : strm.out sent = putShortMSB zlibHeader ++ written) :
    Finishing strm whole sent (strm.writeTrailer .finish) := by
  rcases strm.passes_flush (trailer strm.adler) with ⟨moved, passes⟩
  generalize flushes : strm.perform (.flush (trailer strm.adler)) = flushed at passes
  have drained := passes.full (Or.inl empty)
  have wrapped : flushed.wrap = 1 := passes.wrap.trans wrap
  have result : strm.writeTrailer .finish =
      ({ flushed with wrap := -1 }, if flushed.pending.length ≠ 0 then .ok else .streamEnd) := by
    have positive : ¬strm.wrap ≤ 0 := by rw [wrap]; decide
    have negated : (if flushed.wrap > 0 then -flushed.wrap else flushed.wrap) = -1 := by
      rw [wrapped]
      rfl
    rw [← negated, ← flushes]
    simp only [Strm.writeTrailer, ne_eq, not_true_eq_false, if_false, if_neg positive]
    rfl
  have out : flushed.out sent = zlibStream written whole := by
    rw [passes.out_eq, out_eq, zlibStream, ← adler]
  rw [result]
  by_cases left : flushed.pending.length ≠ 0
  · rw [if_pos left]
    have full : flushed.availOut = 0 :=
      drained.resolve_left fun none => left (List.length_eq_zero_iff.mpr none)
    refine .goesOn ⟨?_, drained, Nat.le.intro passes.availOut, ?_⟩ full
    · exact .complete written (passes.status.trans status) rfl inflates (passes.input.trans input)
        ((congrArg C.lookahead passes.block).trans lookahead) out
    · have work := passes.work_eq
      have length : (trailer strm.adler).length = 4 := rfl
      have room := passes.availOut
      have sameInput : flushed.input = strm.input := passes.input
      rw [sameInput, length, Strm.work, wrapped, sameInput,
        show trailerLeft 1 = 4 from rfl] at work
      simp only [Strm.work, sameInput, show trailerLeft (-1) = 0 from rfl] at work ⊢
      omega
  · have none : flushed.pending = [] := by simpa using left
    rw [if_neg left]
    refine .ends inflates ?_ (passes.status.trans status) (passes.input.trans input)
    rw [← out, Strm.out, none, List.append_nil]

/-- `deflate` with nothing pending, if it is to finish. -/
theorem finishing_blocks {strm : Strm C} {whole sent : List Byte}
    (stage : Stage strm whole (strm.out sent)) (started : strm.status ≠ .init)
    (empty : strm.pending = []) (room : 0 < strm.availOut) :
    Finishing strm whole sent (strm.deflateBlocks .finish) := by
  cases stage with
  | started status => exact absurd status started
  | body taken written status wrap emits input adler out_eq =>
      have busy : ¬(strm.status = .finish ∧ strm.input.length ≠ 0) := by simp [status]
      have goesOn : strm.input.length ≠ 0 ∨ C.lookahead strm.block ≠ 0 ∨
          (Flush.finish ≠ .noFlush ∧ strm.status ≠ .finish) :=
        Or.inr (Or.inr ⟨by decide, by simp [status]⟩)
      have full := C.full_func strm.block strm.input room
      rcases strm.passes_compress empty .finish with ⟨moved, passes, _, drained, isFull⟩
      simp only [Strm.deflateBlocks, if_neg busy, if_pos goesOn]
      have returned : (strm.compress .finish).2 =
        (C.func strm.block strm.input strm.availOut .finish).blockState := rfl
      cases bstate : (C.func strm.block strm.input strm.availOut .finish).blockState with
      | needMore =>
          have noRoom := isFull.mpr (full.mp (by simp [bstate]))
          rw [returned, bstate]
          simp only [reduceCtorEq, or_self, if_false, true_or, if_true, if_pos noRoom]
          exact .goesOn (progress_needMore empty room status wrap emits input adler out_eq .finish
            bstate (-1)) noRoom
      | finishStarted =>
          have noRoom := isFull.mpr (full.mp (by simp [bstate]))
          have progress := progress_finish empty room status wrap emits input adler out_eq
            (by simp [bstate])
          rw [returned, bstate]
          simp only [reduceCtorEq, true_or, or_true, if_true, if_pos noRoom]
          exact .goesOn { progress with stage := progress.stage.lastFlush (-1) } noRoom
      | finishDone =>
          have someRoom : (strm.compress .finish).1.availOut ≠ 0 :=
            fun noRoom => full.mpr (isFull.mp noRoom) bstate
          have progress := progress_finish empty room status wrap emits input adler out_eq
            (by simp [bstate])
          have nothing := drained.resolve_right someRoom
          rw [returned, bstate]
          simp only [reduceCtorEq, or_true, or_self, if_true, if_false]
          refine .after progress ?_
          cases progress.stage with
          | started status => cases status
          | body taken written status => cases status
          | trailer written status wrap inflates input lookahead adler out_eq =>
              exact finishing_trailer nothing status wrap inflates input lookahead adler out_eq
          | complete written status wrapped =>
              have same := passes.wrap.trans wrap
              exact absurd (wrapped.symm.trans same) (by decide)
  | trailer written status wrap inflates input lookahead adler out_eq =>
      have nothing : ¬(strm.status = .finish ∧ strm.input.length ≠ 0) := by simp [input]
      have noBlock : ¬(strm.input.length ≠ 0 ∨ C.lookahead strm.block ≠ 0 ∨
          (Flush.finish ≠ .noFlush ∧ strm.status ≠ .finish)) := by simp [input, lookahead, status]
      rw [Strm.deflateBlocks, if_neg nothing, if_neg noBlock]
      exact finishing_trailer empty status wrap inflates input lookahead adler out_eq
  | complete written status wrap inflates input lookahead out_eq =>
      have nothing : ¬(strm.status = .finish ∧ strm.input.length ≠ 0) := by simp [input]
      have noBlock : ¬(strm.input.length ≠ 0 ∨ C.lookahead strm.block ≠ 0 ∨
          (Flush.finish ≠ .noFlush ∧ strm.status ≠ .finish)) := by simp [input, lookahead, status]
      have notAgain : strm.wrap ≤ 0 := by rw [wrap]; decide
      rw [Strm.deflateBlocks, if_neg nothing, if_neg noBlock, Strm.writeTrailer,
        if_neg (by simp), if_pos notAgain]
      refine .ends inflates ?_ status input
      rw [← out_eq, Strm.out, empty, List.append_nil]

/-- The header is put in front of everything. -/
structure Begun (before after : Strm C) (flush : Flush) (whole sent : List Byte) : Prop where
  stage : Stage after whole (after.out sent)
  started : after.status ≠ .init
  busy : before.status ≠ .finish → after.status = .busy
  empty_iff : after.pending = [] ↔ before.pending = [] ∧ before.status ≠ .init
  input : after.input = before.input
  room : after.availOut = before.availOut
  work : after.work = before.work
  lastFlush : after.lastFlush = flush.value

theorem begun {strm : Strm C} {whole sent : List Byte} (stage : Stage strm whole (strm.out sent))
    (flush : Flush) : Begun strm (strm.begin flush) flush whole sent := by
  by_cases init : strm.status = .init
  · have header : strm.begin flush =
        { strm with
          lastFlush := flush.value
          status := .busy
          pending := strm.pending ++ putShortMSB zlibHeader
          adler := 1 } := if_pos init
    rw [header]
    cases stage with
    | started status wrap block input none pending =>
        refine ⟨?_, nofun, fun _ => rfl, ?_, rfl, rfl, ?_, rfl⟩
        · refine .body [] [] rfl wrap ?_ input (adler32_nil 1).symm ?_
          · show C.Emits strm.block [] []
            rw [block]
            exact C.emits_start
          · rw [List.append_nil, Strm.out, ← List.append_assoc]
            exact congrArg (· ++ putShortMSB zlibHeader) none
        · simp [init, putShortMSB]
        · simp only [Strm.work, init, headerLeft, List.length_append]
          simp [putShortMSB, Nat.add_assoc]
    | body taken written status => exact absurd (init.symm.trans status) nofun
    | trailer written status => exact absurd (init.symm.trans status) nofun
    | complete written status => exact absurd (init.symm.trans status) nofun
  · have noHeader : strm.begin flush = { strm with lastFlush := flush.value } := if_neg init
    rw [noHeader]
    refine ⟨stage.lastFlush _, init, ?_, ?_, rfl, rfl, rfl, rfl⟩
    · intro notFinish
      show strm.status = .busy
      cases status : strm.status with
      | init => exact absurd status init
      | busy => rfl
      | finish => exact absurd status notFinish
    · simp [init]

/-- `deflate`, if it is to finish. -/
theorem finishing_deflate {strm : Strm C} {whole sent : List Byte}
    (stage : Stage strm whole (strm.out sent)) (room : 0 < strm.availOut) :
    Finishing strm whole sent (strm.deflate .finish) := by
  have begun := begun stage .finish
  have roomLeft : 0 < (strm.begin .finish).availOut := begun.room ▸ room
  have same {result : Strm C × Code}
      (finishing : Finishing (strm.begin .finish) whole sent result) :
      Finishing strm whole sent result := by
    cases finishing with
    | goesOn progress full =>
        refine .goesOn ⟨progress.stage, progress.drained, begun.room ▸ progress.room, ?_⟩ full
        rw [← begun.work, ← begun.room]
        exact progress.work
    | ends inflates all status input => exact .ends inflates all status input
  rw [Strm.deflate, if_neg (by simp)]
  simp only
  apply same
  by_cases pending : (strm.begin .finish).pending.length ≠ 0
  · rw [if_pos pending]
    have progress := begun.stage.flushPending begun.started
    rcases (strm.begin .finish).passes_flushPending with ⟨drained, moved, passes⟩
    by_cases full : (strm.begin .finish).flushPending.availOut = 0
    · rw [if_pos full]
      exact .goesOn { progress with stage := progress.stage.lastFlush (-1) } full
    · rw [if_neg full]
      refine .after progress ?_
      exact finishing_blocks progress.stage (passes.status ▸ begun.started)
        (drained.resolve_right full) (Nat.pos_of_ne_zero full)
  · have empty : (strm.begin .finish).pending = [] := by simpa using pending
    rw [if_neg pending, if_neg (by simp)]
    exact finishing_blocks begun.stage begun.started empty roomLeft

/-- A call that is not to finish either fills the buffer, and an error next call is
avoided, or reads all of the input. -/
inductive Pausing (before : Strm C) (whole sent : List Byte) : Strm C × Code → Prop
  | goesOn {after : Strm C} (progress : Progress before after whole sent)
      (status : after.status = .busy) (full : after.availOut = 0)
      (lastFlush : after.lastFlush = -1) :
      Pausing before whole sent (after, .ok)
  | pauses {after : Strm C} (progress : Progress before after whole sent)
      (status : after.status = .busy) (room : 0 < after.availOut) (input : after.input = [])
      (lastFlush : after.lastFlush = 0) : Pausing before whole sent (after, .ok)

theorem Pausing.after {before between : Strm C} {whole sent : List Byte}
    {result : Strm C × Code} (progress : Progress before between whole sent)
    (pausing : Pausing between whole sent result) : Pausing before whole sent result := by
  cases pausing with
  | goesOn later status full lastFlush => exact .goesOn (progress.trans later) status full lastFlush
  | pauses later status room input lastFlush =>
      exact .pauses (progress.trans later) status room input lastFlush

/-- `deflate` with nothing pending, if it is not to finish. -/
theorem pausing_blocks {strm : Strm C} {whole sent : List Byte}
    (stage : Stage strm whole (strm.out sent)) (busy : strm.status = .busy)
    (empty : strm.pending = []) (room : 0 < strm.availOut) (lastFlush : strm.lastFlush = 0) :
    Pausing strm whole sent (strm.deflateBlocks .noFlush) := by
  cases stage with
  | started status => cases busy.symm.trans status
  | trailer written status => cases busy.symm.trans status
  | complete written status => cases busy.symm.trans status
  | body taken written status wrap emits input adler out_eq =>
      have running : ¬(strm.status = .finish ∧ strm.input.length ≠ 0) := by simp [status]
      rw [Strm.deflateBlocks, if_neg running]
      by_cases work : strm.input.length ≠ 0 ∨ C.lookahead strm.block ≠ 0 ∨
          (Flush.noFlush ≠ .noFlush ∧ strm.status ≠ .finish)
      · rcases C.noFlush_func strm.block strm.input room with ⟨needMore, stops⟩
        rcases strm.passes_compress empty .noFlush with ⟨moved, passes, rest, _, isFull⟩
        have progress := progress_needMore empty room status wrap emits input adler out_eq .noFlush
          needMore
        have stillBusy := passes.status.trans status
        have returned : (strm.compress .noFlush).2 =
          (C.func strm.block strm.input strm.availOut .noFlush).blockState := rfl
        rw [if_pos work]
        simp only [returned, needMore, reduceCtorEq, or_self, if_false, true_or, if_true]
        by_cases full : (strm.compress .noFlush).1.availOut = 0
        · rw [if_pos full]
          exact .goesOn (progress (-1)) stillBusy full rfl
        · rw [if_neg full]
          refine .pauses (progress _) stillBusy (Nat.pos_of_ne_zero full) ?_
            (passes.lastFlush.trans lastFlush)
          exact rest.trans (stops.resolve_right fun much => full (isFull.mpr much))
      · have nothing : strm.input = [] := by
          rw [not_or] at work
          simpa using work.1
        rw [if_neg work, Strm.writeTrailer, if_pos (by decide)]
        refine .pauses ⟨?_, Or.inl empty, Nat.le_refl _, Nat.le_refl _⟩ status room nothing
          lastFlush
        exact .body taken written status wrap emits input adler out_eq

/-- `deflate`, if it is not to finish and has something to do. -/
theorem pausing_deflate {strm : Strm C} {whole sent : List Byte}
    (stage : Stage strm whole (strm.out sent)) (running : strm.status ≠ .finish)
    (room : 0 < strm.availOut)
    (something : strm.status = .init ∨ strm.pending ≠ [] ∨ strm.input ≠ [] ∨
      strm.lastFlush = -1) :
    Pausing strm whole sent (strm.deflate .noFlush) := by
  have begun := begun stage .noFlush
  have roomLeft : 0 < (strm.begin .noFlush).availOut := begun.room ▸ room
  have same {result : Strm C × Code} (pausing : Pausing (strm.begin .noFlush) whole sent result) :
      Pausing strm whole sent result := by
    have earlier {after : Strm C} (progress : Progress (strm.begin .noFlush) after whole sent) :
        Progress strm after whole sent := by
      refine ⟨progress.stage, progress.drained, begun.room ▸ progress.room, ?_⟩
      rw [← begun.work, ← begun.room]
      exact progress.work
    cases pausing with
    | goesOn progress status full lastFlush =>
        exact .goesOn (earlier progress) status full lastFlush
    | pauses progress status room input lastFlush =>
        exact .pauses (earlier progress) status room input lastFlush
  rw [Strm.deflate, if_neg (by simp [running])]
  simp only
  by_cases pending : (strm.begin .noFlush).pending.length ≠ 0
  · rw [if_pos pending]
    apply same
    have progress := begun.stage.flushPending begun.started
    rcases (strm.begin .noFlush).passes_flushPending with ⟨drained, moved, passes⟩
    have busy := passes.status.trans (begun.busy running)
    by_cases full : (strm.begin .noFlush).flushPending.availOut = 0
    · rw [if_pos full]
      exact .goesOn { progress with stage := progress.stage.lastFlush (-1) } busy full rfl
    · rw [if_neg full]
      refine .after progress ?_
      exact pausing_blocks progress.stage busy (drained.resolve_right full)
        (Nat.pos_of_ne_zero full) (passes.lastFlush.trans begun.lastFlush)
  · have empty : (strm.begin .noFlush).pending = [] := by simpa using pending
    have before := begun.empty_iff.mp empty
    have noError : ¬((strm.begin .noFlush).input.length = 0 ∧
        rank Flush.noFlush.value ≤ rank strm.lastFlush ∧ Flush.noFlush ≠ .finish) := by
      rintro ⟨nothing, notHigher, _⟩
      rcases something with init | pending | input | avoided
      · exact before.2 init
      · exact pending before.1
      · rw [begun.input] at nothing
        exact input (List.length_eq_zero_iff.mp nothing)
      · rw [avoided] at notHigher
        exact absurd notHigher (by decide)
    rw [if_neg pending, if_neg noError]
    exact same (pausing_blocks begun.stage (begun.busy running) empty roomLeft begun.lastFlush)

/-- And it is an error if it has not. -/
theorem deflate_bufError {strm : Strm C} (busy : strm.status = .busy) (empty : strm.pending = [])
    (input : strm.input = []) (lastFlush : strm.lastFlush = 0) :
    ∃ after : Strm C, strm.deflate .noFlush = (after, .bufError) ∧ after.msg = "buffer error" := by
  have noHeader : strm.begin .noFlush = { strm with lastFlush := Flush.noFlush.value } :=
    if_neg (by simp [busy])
  rw [Strm.deflate, if_neg (by simp [busy])]
  simp only [noHeader, empty, input, lastFlush]
  exact ⟨_, rfl, rfl⟩

end WebbitGwt.Pako
