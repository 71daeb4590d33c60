import WebbitGwt.Pako.Strings
import WebbitGwt.Pako.ZlibDeflate
import WebbitGwt.Stream.Deflate
import WebbitGwt.Transition.DoWhile

/-!
# Deflate objects

`push` fills buffers of `chunkSize` bytes with what zlib's `deflate` puts out, round after
round, and keeps them as chunks.  Whatever the compression and the size of the buffers, an
object does what the model that is told by the chunks alone says.
-/

namespace WebbitGwt.Pako

open WebbitGwt.Java
open WebbitGwt.Nio
open WebbitGwt.Transition
open WebbitGwt.Stream (Chunk Push)

variable {Inflates : List Byte → List Byte → Prop} {C : Compressor Inflates}

/-! ## The wrapper -/

/-- A `Deflate` object. -/
structure Deflate (C : Compressor Inflates) where
  strm : Strm C
  err : Code
  msg : String
  ended : Bool
  chunks : List (List Byte)
  result : Option (List Byte)

namespace Deflate

/-- The constructor, without options. -/
def new (C : Compressor Inflates) : Deflate C where
  strm := .new C
  err := .ok
  msg := ""
  ended := false
  chunks := []
  result := none

/-- `onEnd` -/
def onEnd (zip : Deflate C) (status : Code) : Deflate C :=
  { zip with
    result := if status = .ok then some zip.chunks.flatten else zip.result
    chunks := []
    err := status
    msg := zip.strm.msg }

/-- Make room for output, if there is none. -/
def renew (chunkSize : Nat) (strm : Strm C) : Strm C :=
  if strm.availOut = 0 then { strm with output := [], availOut := chunkSize } else strm

/-- The body of the loop in `push`; an error ends the stream. -/
def round (chunkSize : Nat) (mode : Flush) (before : Deflate C × Code) :
    Except (Deflate C) (Deflate C × Code) :=
  let (strm, status) := (renew chunkSize before.1.strm).deflate mode
  let zip := { before.1 with strm }
  if status ≠ .streamEnd ∧ status ≠ .ok then
    .error { zip.onEnd status with ended := true }
  else if strm.availOut = 0 ∨ (strm.input.length = 0 ∧ mode = .finish) then
    .ok ({ zip with chunks := zip.chunks ++ [strm.output] }, status)
  else
    .ok (zip, status)

/-- The condition of the loop. -/
def continues (after : Deflate C × Code) : Bool :=
  (after.1.strm.input.length > 0 || after.1.strm.availOut == 0) && after.2 != .streamEnd

/-- The conversion of what is pushed. -/
def convert : Chunk → Option (List Byte)
  | .buffer bytes => some bytes
  | .string value => string2buf (unitsOf value)

/-- The input of the stream is what has been pushed. -/
def feed (zip : Deflate C) (input : List Byte) : Deflate C :=
  { zip with strm := { zip.strm with input } }

/-- `push`, which returns a boolean; there is fuel for so many rounds. -/
def push (chunkSize fuel : Nat) (zip : Deflate C) (push : Push) : Option (Deflate C × Bool) :=
  if zip.ended then
    some (zip, false)
  else do
    let mode := if push.last then Flush.finish else .noFlush
    let input ← convert push.chunk
    let loop ← doWhile (round chunkSize mode) continues fuel (zip.feed input, .ok)
    match loop with
    | .error zip => some (zip, false)
    | .ok (zip, _) =>
        if mode = .finish then
          let (strm, status) := zip.strm.deflateEnd
          some ({ onEnd { zip with strm } status with ended := true }, status == .ok)
        else
          some (zip, true)

/-- Push after push; the boolean that each returns is not looked at. -/
def pushAll (chunkSize fuel : Nat) (zip : Deflate C) : List Push → Option (Deflate C)
  | [] => some zip
  | next :: pushes => do
      let (zip, _) ← zip.push chunkSize fuel next
      zip.pushAll chunkSize fuel pushes

end Deflate

/-! ## Round after round -/

namespace Deflate

/-- A new buffer has room, and nothing else is new. -/
theorem renew_spec {chunkSize : Nat} (positive : 0 < chunkSize) (strm : Strm C) :
    0 < (renew chunkSize strm).availOut ∧ (renew chunkSize strm).work = strm.work ∧
      (renew chunkSize strm).status = strm.status ∧
      (renew chunkSize strm).pending = strm.pending ∧
      (renew chunkSize strm).input = strm.input ∧
      (renew chunkSize strm).lastFlush = strm.lastFlush := by
  by_cases full : strm.availOut = 0
  · rw [renew, if_pos full]
    exact ⟨positive, rfl, rfl, rfl, rfl, rfl⟩
  · rw [renew, if_neg full]
    exact ⟨Nat.pos_of_ne_zero full, rfl, rfl, rfl, rfl, rfl⟩

/-- What is in the buffer is in a chunk before the buffer is replaced. -/
theorem stage_renew {strm : Strm C} {whole out : List Byte} (stage : Stage strm whole out)
    (chunkSize : Nat) : Stage (renew chunkSize strm) whole out := by
  by_cases full : strm.availOut = 0
  · rw [renew, if_pos full]
    cases stage with
    | started status wrap block input none pending =>
        exact .started status wrap block input none pending
    | body taken written status wrap emits input adler out_eq =>
        exact .body taken written status wrap emits input adler out_eq
    | trailer written status wrap inflates input lookahead adler out_eq =>
        exact .trailer written status wrap inflates input lookahead adler out_eq
    | complete written status wrap inflates input lookahead out_eq =>
        exact .complete written status wrap inflates input lookahead out_eq
  · rw [renew, if_neg full]
    exact stage

/-- The invariant of both loops: everything that has come out is in the chunks, in the
buffer that is used next, or pending. -/
def InStage (chunkSize : Nat) (whole : List Byte) (zip : Deflate C) : Prop :=
  Stage (renew chunkSize zip.strm) whole ((renew chunkSize zip.strm).out zip.chunks.flatten)

/-- A full buffer has become a chunk. -/
theorem inStage_append {chunkSize : Nat} {whole : List Byte} {zip : Deflate C} {strm : Strm C}
    (stage : Stage strm whole (strm.out zip.chunks.flatten)) (full : strm.availOut = 0) :
    InStage chunkSize whole { zip with strm, chunks := zip.chunks ++ [strm.output] } := by
  have renewed : renew chunkSize strm = { strm with output := [], availOut := chunkSize } :=
    if_pos full
  have out : (renew chunkSize strm).out (zip.chunks ++ [strm.output]).flatten =
      strm.out zip.chunks.flatten := by
    rw [renewed, Strm.out, Strm.out, List.flatten_append, List.flatten_singleton, List.append_nil]
  show Stage (renew chunkSize strm) whole
    ((renew chunkSize strm).out (zip.chunks ++ [strm.output]).flatten)
  rw [out]
  exact stage_renew stage chunkSize

/-- The loop that finishes a stream comes to its end. -/
theorem finish_loop {chunkSize : Nat} (positive : 0 < chunkSize) {whole : List Byte}
    {zip : Deflate C} (stage : InStage chunkSize whole zip) :
    ∃ after written, Inflates written whole ∧ after.strm.status = .finish ∧
      after.chunks.flatten = zlibStream written whole ∧
      ∀ fuel, zip.strm.work < fuel →
        doWhile (round chunkSize .finish) continues fuel (zip, .ok) =
          some (.ok (after, .streamEnd)) := by
  let promised : Except (Deflate C) (Deflate C × Code) → Prop := fun result =>
    ∃ after written, result = .ok (after, .streamEnd) ∧ Inflates written whole ∧
      after.strm.status = .finish ∧ after.chunks.flatten = zlibStream written whole
  have step : ∀ before : Deflate C × Code, InStage chunkSize whole before.1 →
      Round continues (fun state => InStage chunkSize whole state.1)
        (fun state => state.1.strm.work) promised before (round chunkSize .finish before) := by
    rintro ⟨zip, status⟩ stage
    change InStage chunkSize whole zip at stage
    rcases renew_spec positive zip.strm with ⟨room, work, _⟩
    have finishing := finishing_deflate stage room
    unfold round
    generalize (renew chunkSize zip.strm).deflate .finish = result at finishing
    cases finishing with
    | @goesOn strm progress full =>
        have bound := progress.work
        simp only [ne_eq, reduceCtorEq, not_false_eq_true, not_true_eq_false, and_false, if_false,
          if_pos (Or.inl full)]
        refine .goes ?_ (inStage_append progress.stage full) ?_
        · simp [continues, full]
        · show strm.work < zip.strm.work
          rw [full, work] at bound
          omega
    | @ends strm written inflates all status input =>
        simp only [ne_eq, not_true_eq_false, false_and, if_false, input, List.length_nil, and_self,
          or_true, if_true]
        refine .last (by simp [continues]) ⟨_, written, rfl, inflates, status, ?_⟩
        rw [List.flatten_append, List.flatten_singleton]
        exact all
  rcases @doWhile_returns _ _ _ _ _ _ _ step (zip, .ok) stage with
    ⟨_, ⟨after, written, rfl, inflates, status, all⟩, returns⟩
  exact ⟨after, written, inflates, status, all, returns⟩

/-- An object after a push that has not finished the stream: it has read everything, and
there is room left. -/
structure Paused (zip : Deflate C) (whole : List Byte) : Prop where
  stage : Stage zip.strm whole (zip.strm.out zip.chunks.flatten)
  status : zip.strm.status = .busy
  pending : zip.strm.pending = []
  input : zip.strm.input = []
  lastFlush : zip.strm.lastFlush = 0
  room : 0 < zip.strm.availOut
  running : zip.ended = false
  result : zip.result = none

/-- `deflate` does not take a call for an error. -/
def HasWork (strm : Strm C) : Prop :=
  strm.status = .init ∨ strm.pending ≠ [] ∨ strm.input ≠ [] ∨ strm.lastFlush = -1

/-- The loop that does not finish the stream comes to its end. -/
theorem pause_loop {chunkSize : Nat} (positive : 0 < chunkSize) {whole : List Byte}
    {zip : Deflate C} (stage : InStage chunkSize whole zip)
    (notFinished : zip.strm.status ≠ .finish)
    (hasWork : HasWork zip.strm) (running : zip.ended = false) (noResult : zip.result = none) :
    ∃ after, Paused after whole ∧ ∀ fuel, zip.strm.work < fuel →
      doWhile (round chunkSize .noFlush) continues fuel (zip, .ok) = some (.ok (after, .ok)) := by
  let promised : Except (Deflate C) (Deflate C × Code) → Prop := fun result =>
    ∃ after, result = .ok (after, .ok) ∧ Paused after whole
  let invariant : Deflate C × Code → Prop := fun state =>
    InStage chunkSize whole state.1 ∧ state.1.strm.status ≠ .finish ∧ HasWork state.1.strm ∧
      state.1.ended = false ∧ state.1.result = none
  have step : ∀ before : Deflate C × Code, invariant before →
      Round continues invariant (fun state => state.1.strm.work) promised before
        (round chunkSize .noFlush before) := by
    rintro ⟨zip, code⟩ ⟨stage, notFinished, hasWork, running, noResult⟩
    change InStage chunkSize whole zip at stage
    rcases renew_spec positive zip.strm with ⟨room, work, status, pending, input, lastFlush⟩
    have something : HasWork (renew chunkSize zip.strm) := by
      rw [HasWork, status, pending, input, lastFlush]
      exact hasWork
    have pausing := pausing_deflate stage (status ▸ notFinished) room something
    unfold round
    generalize (renew chunkSize zip.strm).deflate .noFlush = result at pausing
    cases pausing with
    | @goesOn strm progress busy full avoided =>
        have bound := progress.work
        simp only [ne_eq, reduceCtorEq, not_false_eq_true, not_true_eq_false, and_false, if_false,
          if_pos (Or.inl full)]
        refine .goes ?_ ⟨inStage_append progress.stage full, ?_, ?_, running, noResult⟩ ?_
        · simp [continues, full]
        · simp [busy]
        · exact Or.inr (Or.inr (Or.inr avoided))
        · show strm.work < zip.strm.work
          rw [full, work] at bound
          omega
    | @pauses strm progress busy roomLeft nothing value =>
        have noRoom : strm.availOut ≠ 0 := Nat.ne_of_gt roomLeft
        have kept : ¬(strm.availOut = 0 ∨ strm.input.length = 0 ∧ Flush.noFlush = .finish) := by
          simp [noRoom]
        simp only [ne_eq, reduceCtorEq, not_false_eq_true, not_true_eq_false, and_false, if_false]
        rw [if_neg (by simpa using kept)]
        refine .last ?_ ⟨_, rfl, ?_⟩
        · simp [continues, nothing, noRoom]
        · exact {
            stage := progress.stage
            status := busy
            pending := progress.drained.resolve_right noRoom
            input := nothing
            lastFlush := value
            room := roomLeft
            running := running
            result := noResult }
  rcases @doWhile_returns _ _ _ _ _ _ _ step (zip, .ok)
      ⟨stage, notFinished, hasWork, running, noResult⟩ with
    ⟨_, ⟨after, rfl, paused⟩, returns⟩
  exact ⟨after, paused, returns⟩

/-! ## What an object does -/

/-- What is converted are the bytes of the chunk. -/
theorem convert_eq (chunk : Chunk) : convert chunk = some chunk.bytes := by
  cases chunk with
  | buffer bytes => rfl
  | string value => exact string2buf_unitsOf value

/-- How an object stands to the model that is told by the chunks: it has ended when that
has, and the result, if there is one, is a stream of what has been pushed. -/
inductive Simulates : Deflate C → Stream.Deflate → Prop
  | fresh : Simulates (.new C) {}
  | paused {zip : Deflate C} {whole : List Byte} (paused : Paused zip whole) :
      Simulates zip ⟨false, true, whole, none⟩
  | failed {zip : Deflate C} {unfinished : Bool} {whole : List Byte} (ended : zip.ended = true)
      (err : zip.err = .bufError) (msg : zip.msg = "buffer error") (result : zip.result = none) :
      Simulates zip ⟨true, unfinished, whole, none⟩
  | finished {zip : Deflate C} {written whole : List Byte} (ended : zip.ended = true)
      (err : zip.err = .ok) (inflates : Inflates written whole)
      (result : zip.result = some (zlibStream written whole)) :
      Simulates zip ⟨true, false, whole, some whole⟩

/-- There is a result if the model has one, and then it is a stream for it. -/
theorem Simulates.result {zip : Deflate C} {model : Stream.Deflate}
    (simulates : Simulates zip model) :
    (model.result = none ∧ zip.result = none) ∨ ∃ whole written, model.result = some whole ∧
      Inflates written whole ∧ zip.result = some (zlibStream written whole) := by
  cases simulates with
  | fresh => exact Or.inl ⟨rfl, rfl⟩
  | paused paused => exact Or.inl ⟨rfl, paused.result⟩
  | failed ended err msg result => exact Or.inl ⟨rfl, result⟩
  | finished ended err inflates result => exact Or.inr ⟨_, _, rfl, inflates, result⟩

/-- At the start of a push, the stream holds what has been pushed and the chunk. -/
theorem inStage_push (chunkSize : Nat) {zip : Deflate C} {whole : List Byte}
    (paused : Paused zip whole) (input : List Byte) :
    InStage chunkSize (whole ++ input) (zip.feed input) := by
  have noRoom : zip.strm.availOut ≠ 0 := Nat.ne_of_gt paused.room
  have kept : renew chunkSize { zip.strm with input } = { zip.strm with input } := if_neg noRoom
  have stage := paused.stage
  show Stage (renew chunkSize { zip.strm with input }) (whole ++ input)
    ((renew chunkSize { zip.strm with input }).out zip.chunks.flatten)
  rw [kept]
  cases stage with
  | started status => cases paused.status.symm.trans status
  | trailer written status => cases paused.status.symm.trans status
  | complete written status => cases paused.status.symm.trans status
  | body taken written status wrap emits read adler out_eq =>
      rw [paused.input, List.append_nil] at read
      exact .body taken written status wrap emits (congrArg (· ++ input) read) adler out_eq

theorem inStage_new (C : Compressor Inflates) (chunkSize : Nat) (input : List Byte) :
    InStage chunkSize input ((Deflate.new C).feed input) :=
  .started rfl rfl rfl rfl rfl rfl

/-- A push that finishes the stream. -/
theorem push_finish {chunkSize : Nat} (positive : 0 < chunkSize) {zip : Deflate C}
    (running : zip.ended = false) (chunk : Chunk) {whole : List Byte}
    (stage : InStage chunkSize whole (zip.feed chunk.bytes)) :
    ∃ after, Simulates after ⟨true, false, whole, some whole⟩ ∧
      ∀ fuel, (zip.feed chunk.bytes).strm.work < fuel →
        zip.push chunkSize fuel ⟨chunk, true⟩ = some (after, true) := by
  rcases finish_loop positive stage with ⟨after, written, inflates, status, all, returns⟩
  have ends : after.strm.deflateEnd = (after.strm, .ok) := if_neg (by simp [status])
  refine ⟨{ after.onEnd .ok with ended := true }, .finished rfl rfl inflates ?_, ?_⟩
  · exact congrArg some all
  · intro fuel enough
    simp only [push, running, convert_eq, if_true, Option.bind_eq_bind, Option.bind_some,
      returns fuel enough, ends]
    rfl

/-- A push that does not finish it. -/
theorem push_pause {chunkSize : Nat} (positive : 0 < chunkSize) {zip : Deflate C}
    (running : zip.ended = false) (noResult : zip.result = none)
    (notFinished : zip.strm.status ≠ .finish) (chunk : Chunk) {whole : List Byte}
    (stage : InStage chunkSize whole (zip.feed chunk.bytes))
    (hasWork : HasWork (zip.feed chunk.bytes).strm) :
    ∃ after, Simulates after ⟨false, true, whole, none⟩ ∧
      ∀ fuel, (zip.feed chunk.bytes).strm.work < fuel →
        zip.push chunkSize fuel ⟨chunk, false⟩ = some (after, true) := by
  rcases pause_loop positive stage notFinished hasWork running noResult with
    ⟨after, paused, returns⟩
  refine ⟨after, .paused paused, ?_⟩
  intro fuel enough
  simp only [push, running, convert_eq, Bool.false_eq_true, if_false, Option.bind_eq_bind,
    Option.bind_some, returns fuel enough, reduceCtorEq]

/-- An empty push that finds nothing to do. -/
theorem push_empty {chunkSize : Nat} {zip : Deflate C} {whole : List Byte}
    (paused : Paused zip whole) {chunk : Chunk} (empty : chunk.bytes = []) :
    ∃ after, Simulates after ⟨true, true, whole, none⟩ ∧
      ∀ fuel, 0 < fuel → zip.push chunkSize fuel ⟨chunk, false⟩ = some (after, false) := by
  have noRoom : zip.strm.availOut ≠ 0 := Nat.ne_of_gt paused.room
  have kept : renew chunkSize { zip.strm with input := [] } = { zip.strm with input := [] } :=
    if_neg noRoom
  have error : ∃ strm, Strm.deflate { zip.strm with input := [] } .noFlush = (strm, .bufError) ∧
      strm.msg = "buffer error" :=
    deflate_bufError paused.status paused.pending rfl paused.lastFlush
  obtain ⟨after, breaks, ended, err, msg, result⟩ : ∃ after,
      round chunkSize .noFlush (zip.feed [], .ok) = .error after ∧ after.ended = true ∧
        after.err = .bufError ∧ after.msg = "buffer error" ∧ after.result = none := by
    rcases error with ⟨strm, error, text⟩
    unfold round feed
    simp only [kept, error]
    exact ⟨_, rfl, rfl, rfl, text, paused.result⟩
  refine ⟨after, .failed ended err msg result, ?_⟩
  rintro (_ | fuel) enough
  · exact absurd enough (Nat.lt_irrefl 0)
  · simp only [push, paused.running, convert_eq, empty, Bool.false_eq_true, if_false,
      Option.bind_eq_bind, Option.bind_some, doWhile_of_break breaks fuel]

/-- A push does what the model says. -/
theorem Simulates.push {chunkSize : Nat} (positive : 0 < chunkSize) {zip : Deflate C}
    {model : Stream.Deflate} (simulates : Simulates zip model) (next : Push) :
    ∃ after returned enough, Simulates after (model.push next) ∧
      ∀ fuel, enough < fuel → zip.push chunkSize fuel next = some (after, returned) := by
  rcases next with ⟨chunk, last⟩
  have ignored (ended : zip.ended = true) (fuel : Nat) :
      zip.push chunkSize fuel ⟨chunk, last⟩ = some (zip, false) := if_pos ended
  cases simulates with
  | failed ended err msg result =>
      exact ⟨zip, false, 0, .failed ended err msg result, fun fuel _ => ignored ended fuel⟩
  | finished ended err inflates result =>
      exact ⟨zip, false, 0, .finished ended err inflates result, fun fuel _ => ignored ended fuel⟩
  | fresh =>
      have stage := inStage_new C chunkSize chunk.bytes
      cases last with
      | true =>
          rcases push_finish positive rfl chunk stage with ⟨after, simulates, returns⟩
          exact ⟨after, true, _, simulates, returns⟩
      | false =>
          have notFinished : (Deflate.new C).strm.status ≠ .finish := Status.noConfusion
          rcases push_pause positive rfl rfl notFinished chunk stage (Or.inl rfl) with
            ⟨after, simulates, returns⟩
          exact ⟨after, true, _, simulates, returns⟩
  | @paused _ whole paused =>
      have stage := inStage_push chunkSize paused chunk.bytes
      cases last with
      | true =>
          rcases push_finish positive paused.running chunk stage with ⟨after, simulates, returns⟩
          exact ⟨after, true, _, simulates, returns⟩
      | false =>
          by_cases empty : chunk.bytes = []
          · rcases push_empty paused empty with ⟨after, simulates, returns⟩
            have error : Stream.Deflate.push ⟨false, true, whole, none⟩ ⟨chunk, false⟩ =
                ⟨true, true, whole, none⟩ := by simp [Stream.Deflate.push, empty]
            rw [error]
            exact ⟨after, false, 0, simulates, returns⟩
          · have busy : zip.strm.status ≠ .finish := by simp [paused.status]
            rcases push_pause positive paused.running paused.result busy chunk stage
                (Or.inr (Or.inr (Or.inl empty))) with ⟨after, simulates, returns⟩
            rw [Stream.Deflate.push_of_not_last rfl rfl (Or.inr empty)]
            exact ⟨after, true, _, simulates, returns⟩

/-- Pushes do what the model says. -/
theorem Simulates.pushAll {chunkSize : Nat} (positive : 0 < chunkSize) {zip : Deflate C}
    {model : Stream.Deflate} (simulates : Simulates zip model) (pushes : List Push) :
    ∃ after enough, Simulates after (model.pushAll pushes) ∧
      ∀ fuel, enough < fuel → zip.pushAll chunkSize fuel pushes = some after := by
  induction pushes generalizing zip model with
  | nil => exact ⟨zip, 0, simulates, fun _ _ => rfl⟩
  | cons next pushes ih =>
      rcases simulates.push positive next with ⟨middle, returned, first, simulatesNext, pushed⟩
      rcases ih simulatesNext with ⟨after, second, simulatesAll, pushedAll⟩
      refine ⟨after, max first second, simulatesAll, ?_⟩
      intro fuel enough
      rw [Deflate.pushAll, pushed fuel (Nat.lt_of_le_of_lt (Nat.le_max_left _ _) enough)]
      exact pushedAll fuel (Nat.lt_of_le_of_lt (Nat.le_max_right _ _) enough)

/-- Whatever is pushed, in whatever chunks and with whatever buffer size, all loops
return; the object has ended if and only if the model has, and it has a result if and only
if the model has: then the result is a header, compressed data that inflates to what has
been pushed, and its checksum.  If it has ended without a result, the error is told. -/
theorem deflate_simulates (C : Compressor Inflates) {chunkSize : Nat} (positive : 0 < chunkSize)
    (pushes : List Push) :
    ∃ zip enough, (∀ fuel, enough < fuel →
        (Deflate.new C).pushAll chunkSize fuel pushes = some zip) ∧
      zip.ended = (Stream.Deflate.pushAll {} pushes).ended ∧
      ((Stream.Deflate.pushAll {} pushes).result = none → zip.result = none ∧
        (zip.ended = true → zip.err = .bufError ∧ zip.msg = "buffer error")) ∧
      ∀ whole, (Stream.Deflate.pushAll {} pushes).result = some whole → zip.err = .ok ∧
        ∃ written, Inflates written whole ∧ zip.result = some (zlibStream written whole) := by
  rcases (Simulates.fresh (C := C)).pushAll positive pushes with ⟨zip, enough, simulates, returns⟩
  refine ⟨zip, enough, returns, ?_⟩
  generalize Stream.Deflate.pushAll {} pushes = model at simulates
  cases simulates with
  | fresh => exact ⟨rfl, fun _ => ⟨rfl, nofun⟩, nofun⟩
  | paused paused =>
      refine ⟨paused.running, fun _ => ⟨paused.result, fun ended => ?_⟩, nofun⟩
      cases paused.running.symm.trans ended
  | failed ended err msg result => exact ⟨ended, fun _ => ⟨result, fun _ => ⟨err, msg⟩⟩, nofun⟩
  | finished ended err inflates result =>
      refine ⟨ended, nofun, ?_⟩
      rintro _ ⟨⟩
      exact ⟨err, _, inflates, result⟩

end Deflate

/-! ## A compressor -/

/-- The lowest bits of a number, the highest of them first. -/
def bitsOf : Nat → Nat → List Bool
  | 0, _ => []
  | count + 1, value => value.testBit count :: bitsOf count value

/-- The static code of a literal. -/
def staticCode (byte : Byte) : List Bool :=
  if byte.toNat < 144 then bitsOf 8 (0x30 + byte.toNat) else bitsOf 9 (0x190 + byte.toNat - 144)

/-- A byte from its bits, the lowest of them first. -/
def packByte : List Bool → Nat
  | [] => 0
  | bit :: bits => bit.toNat + 2 * packByte bits

/-- Bits in bytes, the last of which is filled up. -/
def packBits : Nat → List Bool → List Byte
  | 0, _ => []
  | count + 1, bits => BitVec.ofNat 8 (packByte (bits.take 8)) :: packBits count (bits.drop 8)

/-- The one block that is written for a few bytes in which nothing occurs twice. -/
def staticBlock (bytes : List Byte) : List Byte :=
  let bits := [true, true, false] ++ bytes.flatMap staticCode ++ bitsOf 7 0
  packBits ((bits.length + 7) / 8) bits

theorem length_packBits (count : Nat) (bits : List Bool) :
    (packBits count bits).length = count := by
  induction count generalizing bits with
  | zero => rfl
  | succ count ih => rw [packBits, List.length_cons, ih]

theorem length_bitsOf (count value : Nat) : (bitsOf count value).length = count := by
  induction count with
  | zero => rfl
  | succ count ih => rw [bitsOf, List.length_cons, ih]

theorem length_staticBlock_le (bytes : List Byte) :
    (staticBlock bytes).length ≤ 3 + 2 * bytes.length := by
  have codes : (bytes.flatMap staticCode).length ≤ 9 * bytes.length := by
    induction bytes with
    | nil => exact Nat.le_refl 0
    | cons byte bytes ih =>
        have code : (staticCode byte).length ≤ 9 := by
          rw [staticCode]
          split
          · exact (length_bitsOf 8 _).le.trans (by decide)
          · exact (length_bitsOf 9 _).le
        rw [List.flatMap_cons, List.length_append, List.length_cons]
        omega
  rw [staticBlock, length_packBits]
  simp only [List.length_append, List.length_cons, List.length_nil, length_bitsOf]
  omega

/-- Keep what is read, and write it all in the end. -/
def Compressor.ofPack (pack : List Byte → List Byte)
    (inflates : ∀ whole, Inflates (pack whole) whole) (perByte : Nat)
    (bounded : ∀ whole, (pack whole).length ≤ perByte * (whole.length + 1)) :
    Compressor Inflates where
  State := Option (List Byte)
  start := some []
  lookahead
    | some bytes => bytes.length
    | none => 0
  func
    | some bytes, input, _, .noFlush => ⟨some (bytes ++ input), [.read input.length], .needMore⟩
    | some bytes, input, availOut, .finish =>
        ⟨none, [.read input.length, .flush (pack (bytes ++ input))],
          if availOut ≤ (pack (bytes ++ input)).length then .finishStarted else .finishDone⟩
    | none, input, _, .noFlush => ⟨none, [.read input.length], .needMore⟩
    | none, input, _, .finish => ⟨none, [.read input.length], .finishDone⟩
  Emits state taken written := state = some taken ∧ written = []
  emits_start := ⟨rfl, rfl⟩
  emits_func := by
    rintro _ taken _ ⟨rfl, rfl⟩ input availOut _ (_ | _) needMore
    · simp [Outcome.taken, Outcome.written, Outcome.sizeRead, Effect.size, Effect.bytes]
    · simp only at needMore
      split at needMore <;> cases needMore
  inflates_func := by
    rintro _ taken _ ⟨rfl, rfl⟩ input availOut _ (_ | _) finishes
    · exact absurd rfl finishes
    · simpa [Outcome.taken, Outcome.written, Outcome.sizeRead, Effect.size, Effect.bytes] using
        inflates (taken ++ input)
  noFlush_func := by
    rintro (_ | _) input availOut _ <;>
      simp [Outcome.rest, Outcome.sizeRead, Effect.size]
  full_func := by
    rintro (_ | bytes) input availOut room
    · simp [Outcome.written, Effect.bytes, Nat.ne_of_gt room]
    · simp only [Outcome.written, List.flatMap_cons, Effect.bytes, List.flatMap_nil,
        List.nil_append, List.append_nil]
      split <;> simp_all
  finish_func := by
    rintro (_ | _) input availOut _ _ <;>
      simp [Outcome.rest, Outcome.sizeRead, Effect.size]
  work
    | some bytes => perByte * (bytes.length + 1)
    | none => 0
  perByte := perByte
  work_func := by
    rintro (_ | bytes) input availOut _ (_ | _)
    · simp [Outcome.written, Outcome.rest, Outcome.sizeRead, Effect.size, Effect.bytes]
    · simp [Outcome.written, Outcome.rest, Outcome.sizeRead, Effect.size, Effect.bytes]
    · simp [Outcome.written, Outcome.rest, Outcome.sizeRead, Effect.size, Effect.bytes]
      rw [← Nat.mul_add]
      exact (congrArg (perByte * ·) (by omega)).le
    · have bound := bounded (bytes ++ input)
      rw [List.length_append, Nat.add_right_comm, Nat.mul_add] at bound
      simpa [Outcome.written, Outcome.rest, Outcome.sizeRead, Effect.size, Effect.bytes] using bound

/-- What is read is written as one block of literals. -/
def literals : Compressor fun written whole => written = staticBlock whole :=
  .ofPack staticBlock (fun _ => rfl) 3 fun whole =>
    (length_staticBlock_le whole).trans (by omega)

/-- Nothing and a letter, in buffers of four bytes; and twice nothing before the letter. -/
theorem deflate_simulates_letter :
    (∃ zip enough, (∀ fuel, enough < fuel →
        (Deflate.new literals).pushAll 4 fuel
          [⟨.buffer [], false⟩, ⟨.string ⟨"a", by decide⟩, true⟩] = some zip) ∧
      zip.err = .ok ∧
      zip.result = some [0x78, 0x9c, 0x4b, 0x04, 0x00, 0x00, 0x62, 0x00, 0x62]) ∧
    ∃ zip enough, (∀ fuel, enough < fuel →
        (Deflate.new literals).pushAll 4 fuel
          [⟨.buffer [], false⟩, ⟨.buffer [], false⟩, ⟨.string ⟨"a", by decide⟩, true⟩] =
            some zip) ∧
      zip.err = .bufError ∧ zip.msg = "buffer error" ∧ zip.result = none := by
  have room : 0 < 4 := by decide
  constructor
  · rcases Deflate.deflate_simulates literals room
        [⟨.buffer [], false⟩, ⟨.string ⟨"a", by decide⟩, true⟩] with
      ⟨zip, enough, returns, _, _, result⟩
    rcases result [97] (by decide) with ⟨err, written, rfl, same⟩
    refine ⟨zip, enough, returns, err, ?_⟩
    rw [same]
    decide
  · rcases Deflate.deflate_simulates literals room
        [⟨.buffer [], false⟩, ⟨.buffer [], false⟩, ⟨.string ⟨"a", by decide⟩, true⟩] with
      ⟨zip, enough, returns, ended, noResult, _⟩
    rcases noResult (by decide) with ⟨result, error⟩
    rcases error (ended.trans (by decide)) with ⟨err, msg⟩
    exact ⟨zip, enough, returns, err, msg, result⟩

end WebbitGwt.Pako
