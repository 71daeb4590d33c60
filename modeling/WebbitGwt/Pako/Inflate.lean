import WebbitGwt.Pako.Deflate
import WebbitGwt.Pako.ZlibInflate

/-!
# Inflate objects

`push` fills buffers of `chunkSize` bytes with what zlib's `inflate` puts out.  When the
input ends where a buffer is full, it has to call `inflate` once more, and takes the error
that it may get then for none.  An input that is cut off is not an error.
-/

namespace WebbitGwt.Pako

open WebbitGwt.Java
open WebbitGwt.Nio
open WebbitGwt.Transition

variable {Inflates : List Byte → List Byte → Prop} {I : Inflater Inflates}

/-- An `Inflate` object. -/
structure Inflate (I : Inflater Inflates) where
  strm : InflateStrm I
  err : Code
  msg : String
  ended : Bool
  chunks : List (List Byte)
  result : Option (List Byte)

namespace Inflate

/-- The constructor, without options. -/
def new (I : Inflater Inflates) : Inflate I where
  strm := .new I
  err := .ok
  msg := ""
  ended := false
  chunks := []
  result := none

/-- `onEnd` -/
def onEnd (unzip : Inflate I) (status : Code) : Inflate I :=
  { unzip with
    result := if status = .ok then some unzip.chunks.flatten else unzip.result
    chunks := []
    err := status
    msg := unzip.strm.msg }

/-- Where the loop of `push` is: the object, the last status, and `allowBufError`. -/
structure Turn (I : Inflater Inflates) where
  unzip : Inflate I
  status : Code
  allowBufError : Bool

/-- The body of the loop.  An error ends the stream; there is no answer if `inflate` has
none. -/
def round (chunkSize : Nat) (mode : Flush) (turn : Turn I) :
    Except (Option (Inflate I)) (Turn I) :=
  let strm := turn.unzip.strm
  let strm := if strm.availOut = 0 then { strm with output := [], availOut := chunkSize } else strm
  match strm.inflate with
  | none => .error none
  | some (strm, status) =>
      let unzip := { turn.unzip with strm }
      let (status, allowBufError) :=
        if status = .bufError ∧ turn.allowBufError = true then (Code.ok, false)
        else (status, turn.allowBufError)
      if status ≠ .streamEnd ∧ status ≠ .ok then
        .error (some { unzip.onEnd status with ended := true })
      else
        let chunks :=
          if strm.output.length ≠ 0 ∧ (strm.availOut = 0 ∨ status = .streamEnd ∨
              (strm.input.length = 0 ∧ mode = .finish)) then
            unzip.chunks ++ [strm.output]
          else
            unzip.chunks
        .ok { unzip := { unzip with chunks }
              status
              -- check that the internal buffers are flushed
              allowBufError :=
                if strm.input.length = 0 ∧ strm.availOut = 0 then true else allowBufError }

/-- The condition of the loop. -/
def continues (turn : Turn I) : Bool :=
  (turn.unzip.strm.input.length > 0 || turn.unzip.strm.availOut == 0) && turn.status != .streamEnd

/-- Before the first round, the input of the stream is what has been pushed. -/
def feed (unzip : Inflate I) (input : List Byte) : Turn I where
  unzip := { unzip with strm := { unzip.strm with input } }
  status := .ok
  allowBufError := false

/-- `push` of an array, which returns a boolean; there is fuel for so many rounds. -/
def push (chunkSize fuel : Nat) (unzip : Inflate I) (data : List Byte) (last : Bool) :
    Option (Inflate I × Bool) :=
  if unzip.ended then
    some (unzip, false)
  else do
    let mode := if last then Flush.finish else .noFlush
    let loop ← doWhile (round chunkSize mode) continues fuel (unzip.feed data)
    match loop with
    | .error unzip => unzip.map (·, false)
    | .ok turn =>
        let mode := if turn.status = .streamEnd then Flush.finish else mode
        if mode = .finish then
          -- `inflateEnd`
          some ({ turn.unzip.onEnd .ok with ended := true }, true)
        else
          some (turn.unzip, true)

/-- What comes of the loop: an error, or chunks that make up what is delivered. -/
inductive Promised (written whole data : List Byte) :
    Except (Option (Inflate I)) (Turn I) → Prop
  | broken {unzip : Inflate I} (delivers : Delivers I written whole data unzip.err unzip.result)
      (err : unzip.err ≠ .ok) (msg : unzip.err = .dataError → unzip.msg = "incorrect data check") :
      Promised written whole data (.error (some unzip))
  | finished {turn : Turn I}
      (delivers : Delivers I written whole data .ok (some turn.unzip.chunks.flatten)) :
      Promised written whole data (.ok turn)

/-- The invariant of the loop.  If there is no more input, an error is allowed for, unless
there has never been any. -/
structure InTurn (written whole data : List Byte) (turn : Turn I) : Prop where
  stage : InflateStage turn.unzip.strm written whole data turn.unzip.chunks.flatten
  full : turn.unzip.strm.availOut = 0
  allowed : turn.unzip.strm.input = [] → (data ≠ [] ↔ turn.allowBufError = true)
  result : turn.unzip.result = none

/-- A new buffer does not change the stage. -/
theorem stage_renew {strm : InflateStrm I} {written whole data out : List Byte}
    (stage : InflateStage strm written whole data out) (chunkSize : Nat) :
    InflateStage { strm with output := [], availOut := chunkSize } written whole data out := by
  cases stage with
  | start mode hold bits block input none => exact .start mode hold bits block input none
  | blocks taken mode hold bits decodes read isPrefix isPart check =>
      exact .blocks taken mode hold bits decodes read isPrefix isPart check
  | starved rest mode bits input all data_eq few =>
      exact .starved rest mode bits input all data_eq few

theorem round_spec {chunkSize : Nat} (positive : 0 < chunkSize) {written whole data : List Byte}
    (inflates : Inflates written whole)
    (comparable : data <+: putShortMSB zlibHeader ++ written ∨
      putShortMSB zlibHeader ++ written <+: data)
    (turn : Turn I) (inTurn : InTurn written whole data turn) :
    Round continues (InTurn written whole data) (fun turn => turn.unzip.strm.work)
      (Promised written whole data) turn (round chunkSize .finish turn) := by
  rcases turn with ⟨unzip, status, allowBufError⟩
  rcases inTurn with ⟨stage, full, allowed, result⟩
  simp only at stage full allowed result
  rcases leaves_inflate inflates comparable (stage_renew stage chunkSize) rfl positive with
    ⟨after, fresh, ret, leaves, calls⟩
  simp only [round, if_pos full, calls]
  rw [InflateStrm.update_eq]
  cases leaves with
  | goesOn stage full some output work =>
      rw [InflateStrm.update_eq] at stage
      rcases after with ⟨input, bytes, availOut, msg, mode, check, hold, bits, block⟩
      simp only at stage full output
      subst full
      have someFresh : fresh.length ≠ 0 := by simpa using some
      have someOutput : bytes.length ≠ 0 := by simpa using output
      simp only [someFresh, and_false, false_and, if_false, reduceCtorEq, ne_eq, not_true_eq_false,
        not_false_eq_true, someOutput, true_or, and_self, if_true, and_true]
      refine .goes (by simp [continues]) ⟨?_, rfl, ?_, result⟩ work
      · rw [List.flatten_append, List.flatten_singleton]
        exact stage
      · intro noInput
        simp only at noInput
        simp only [noInput, List.length_nil, if_true, iff_true]
        rintro rfl
        exact output (List.append_eq_nil_iff.mp (stage.nil_of_nil rfl).2).2
  | stops room input delivers nothing =>
      rcases after with ⟨rest, bytes, availOut, msg, mode, check, hold, bits, block⟩
      simp only at room input delivers nothing
      subst input
      by_cases idle : unzip.strm.input = [] ∧ bytes = []
      · rcases idle with ⟨noInput, rfl⟩
        by_cases empty : data = []
        · have notAllowed : allowBufError = false := by
            rw [← Bool.not_eq_true, ← allowed noInput]
            exact not_not.mpr empty
          simp only [noInput, List.length_nil, Nat.sub_zero, and_self, if_true, notAllowed,
            Bool.false_eq_true, and_false, if_false, ne_eq, reduceCtorEq, not_false_eq_true]
          refine .breaks (.broken ?_ ?_ nofun)
          · simpa [onEnd, result] using .nothing empty
          · simp [onEnd]
        · have isAllowed := (allowed noInput).mp empty
          simp only [noInput, List.length_nil, Nat.sub_zero, and_self, if_true, isAllowed,
            ne_eq, not_true_eq_false, reduceCtorEq, not_false_eq_true, and_false, if_false,
            false_and, room]
          refine .last (by simp [continues, room]) (.finished ?_)
          have all := delivers empty
          rw [List.append_nil] at all
          exact all
      · have busy : ¬((unzip.strm.input.length - ([] : List Byte).length = 0 ∧ bytes.length = 0) ∧
            Code.ok = .ok) := by
          simpa using idle
        have notEmpty : data ≠ [] := by
          intro empty
          have noInput : unzip.strm.input = [] := (stage.nil_of_nil empty).1
          exact idle ⟨noInput, nothing empty⟩
        rw [if_neg busy]
        simp only [reduceCtorEq, false_and, if_false, ne_eq, not_true_eq_false,
          not_false_eq_true, and_false, List.length_nil, and_self, or_true, and_true, room]
        refine .last (by simp [continues, room]) (.finished ?_)
        have all := delivers notEmpty
        by_cases none : bytes = []
        · rw [none, List.append_nil] at all
          simpa [none] using all
        · simpa [none] using all
  | ends fresh delivers =>
      simp only [reduceCtorEq, and_false, if_false, false_and, ne_eq, not_true_eq_false,
        not_false_eq_true, and_true, true_or, or_true]
      refine .last (by simp [continues]) (.finished ?_)
      by_cases none : after.output.length = 0
      · have empty : after.output = [] := by simpa using none
        rw [empty, List.append_nil] at delivers
        simpa [none] using delivers
      · simpa [none] using delivers
  | damaged fresh delivers msg =>
      simp only [reduceCtorEq, and_false, if_false, false_and, ne_eq,
        not_false_eq_true, and_self, if_true]
      refine .breaks (.broken ?_ ?_ fun _ => msg)
      · simpa [onEnd, result] using delivers
      · simp [onEnd]

/-- Before the first round. -/
theorem inTurn_feed (I : Inflater Inflates) (written whole data : List Byte) :
    InTurn written whole data ((Inflate.new I).feed data) := by
  refine ⟨.start rfl rfl rfl rfl rfl rfl, rfl, ?_, rfl⟩
  intro empty
  exact iff_of_false (not_not.mpr empty) Bool.false_ne_true

/-- What `push` makes of what comes of the loop. -/
theorem Promised.push {written whole data : List Byte}
    {loop : Except (Option (Inflate I)) (Turn I)} (promised : Promised written whole data loop) :
    ∃ unzip, Delivers I written whole data unzip.err unzip.result ∧
      (unzip.err = .dataError → unzip.msg = "incorrect data check") ∧
      ∀ chunkSize fuel,
        doWhile (round chunkSize .finish) continues fuel ((Inflate.new I).feed data) = some loop →
          (Inflate.new I).push chunkSize fuel data true = some (unzip, unzip.err == .ok) := by
  have running : (Inflate.new I).ended = false := rfl
  cases promised with
  | @broken unzip delivers err msg =>
      refine ⟨unzip, delivers, msg, ?_⟩
      intro chunkSize fuel returns
      have notOk : (unzip.err == Code.ok) = false := by simpa using err
      simp only [Inflate.push, running, Bool.false_eq_true, if_false, if_true,
        Option.bind_eq_bind, returns, Option.bind_some, Option.map_some, notOk]
  | @finished turn delivers =>
      refine ⟨{ turn.unzip.onEnd .ok with ended := true }, delivers, nofun, ?_⟩
      intro chunkSize fuel returns
      simp only [Inflate.push, running, Bool.false_eq_true, if_false, if_true,
        Option.bind_eq_bind, returns, Option.bind_some, ite_self]
      rfl

/-- A complete stream is inflated. -/
theorem push_zlibStream (I : Inflater Inflates) {chunkSize : Nat} (positive : 0 < chunkSize)
    {written whole : List Byte} (inflates : Inflates written whole) :
    ∃ unzip enough, (∀ fuel, enough < fuel →
        (Inflate.new I).push chunkSize fuel (zlibStream written whole) true = some (unzip, true)) ∧
      unzip.result = some whole := by
  rcases doWhile_returns (round_spec positive inflates (Or.inr (List.prefix_append _ _)))
      (inTurn_feed I written whole (zlibStream written whole)) with ⟨loop, promised, returns⟩
  rcases promised.push with ⟨unzip, delivers, _, pushes⟩
  rcases delivers.eq_whole (Or.inr (List.take_length (l := trailer _))) with ⟨err, result⟩
  rw [err] at pushes
  refine ⟨unzip, ((Inflate.new I).feed (zlibStream written whole)).unzip.strm.work, ?_, result⟩
  intro fuel enough
  exact pushes chunkSize fuel (returns fuel enough)

end Inflate

end WebbitGwt.Pako
