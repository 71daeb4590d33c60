import WebbitGwt.Stream.SocketFormat

/-!
# Compressing chunk by chunk

A `Deflate` object takes an empty chunk for an error when the push before did not
finish the stream and neither does this one.  `getSocketData` pushes every string as a
chunk of its own and does not look at what `push` returns, so an empty string that is
not the last of its table leaves the writer without a result.
-/

namespace WebbitGwt.Stream

open WebbitGwt.Java
open WebbitGwt.Nio

/-- The state of a `Deflate` object: whether the stream has ended, whether the last push
was one that does not finish it, and the bytes pushed so far.  The result is told by the
bytes it inflates to. -/
structure Deflate where
  ended : Bool := false
  unfinished : Bool := false
  input : List Byte := []
  result : Option (List Byte) := none

namespace Deflate

/-- `push`, with its `mode` argument either true or false. -/
def push (zip : Deflate) (push : Push) : Deflate :=
  if zip.ended then
    zip
  else if push.last then
    { ended := true
      unfinished := false
      input := zip.input ++ push.chunk.bytes
      result := some (zip.input ++ push.chunk.bytes) }
  else if zip.unfinished && push.chunk.bytes.isEmpty then
    -- `Z_BUF_ERROR`
    { zip with ended := true }
  else
    { zip with unfinished := true, input := zip.input ++ push.chunk.bytes }

/-- Push after push; the boolean that each returns is not looked at. -/
def pushAll (zip : Deflate) (pushes : List Push) : Deflate :=
  pushes.foldl push zip

end Deflate

/-- The pushes make up a complete stream: the last one and no other is flagged last, no
earlier one ends the stream, and the result holds all that was pushed. -/
structure CompleteStream (pushes : List Push) : Prop where
  finished : Finished pushes
  not_early : ∀ front back, pushes = front ++ back → back ≠ [] →
    (Deflate.pushAll {} front).ended = false
  result : (Deflate.pushAll {} pushes).result = some (pushes.flatMap fun push => push.chunk.bytes)

namespace Deflate

variable {zip : Deflate} {front : List Push}

theorem pushAll_append (zip : Deflate) (first second : List Push) :
    zip.pushAll (first ++ second) = (zip.pushAll first).pushAll second :=
  List.foldl_append

/-- A stream that has ended stays as it is. -/
theorem pushAll_of_ended (ended : zip.ended = true) (pushes : List Push) :
    zip.pushAll pushes = zip := by
  induction pushes with
  | nil => rfl
  | cons next pushes ih =>
      have ignored : zip.push next = zip := by rw [push, if_pos ended]
      rw [pushAll, List.foldl_cons, ignored]
      exact ih

/-- Nothing that comes later can make up for an early end. -/
theorem ended_of_append (first second : List Push)
    (running : (zip.pushAll (first ++ second)).ended = false) :
    (zip.pushAll first).ended = false := by
  rw [pushAll_append] at running
  cases ended : (zip.pushAll first).ended with
  | false => rfl
  | true =>
      rw [pushAll_of_ended ended, ended] at running
      cases running

/-- A push that does not finish the stream appends its bytes, or there are none and the
push before did not finish the stream either. -/
theorem push_of_not_last (running : zip.ended = false) {next : Push} (notLast : next.last = false)
    (takes : zip.unfinished = false ∨ next.chunk.bytes ≠ []) :
    zip.push next =
      { zip with unfinished := true, input := zip.input ++ next.chunk.bytes } := by
  have noError : (zip.unfinished && next.chunk.bytes.isEmpty) = false := by
    rcases takes with finished | nonempty
    · rw [finished, Bool.false_and]
    · rw [List.isEmpty_eq_false_iff.mpr nonempty, Bool.and_false]
  rw [push, running, notLast, noError]
  rfl

theorem push_of_empty (running : zip.ended = false) (unfinished : zip.unfinished = true)
    {next : Push} (notLast : next.last = false) (empty : next.chunk.bytes = []) :
    (zip.push next).ended = true := by
  rw [push, running, notLast, unfinished, empty]
  rfl

/-- In the middle of a stream, pushes that do not finish it keep it going as long as
none of them is empty; what is pushed is appended. -/
theorem pushAll_running (running : zip.ended = false) (unfinished : zip.unfinished = true)
    (notLast : ∀ push ∈ front, push.last = false) :
    ((zip.pushAll front).ended = false ↔ ∀ push ∈ front, push.chunk.bytes ≠ []) ∧
      ((zip.pushAll front).ended = false →
        (zip.pushAll front).input = zip.input ++ front.flatMap fun push => push.chunk.bytes) := by
  induction front generalizing zip with
  | nil => simp [pushAll, running]
  | cons next front ih =>
      rw [List.forall_mem_cons] at notLast
      rw [List.forall_mem_cons]
      by_cases empty : next.chunk.bytes = []
      · have ended := push_of_empty running unfinished notLast.1 empty
        have stays : zip.pushAll (next :: front) = zip.push next := pushAll_of_ended ended front
        rw [stays, ended]
        simp [empty]
      · have taken := push_of_not_last running notLast.1 (Or.inr empty)
        have goesOn : zip.pushAll (next :: front) = (zip.push next).pushAll front := rfl
        rw [goesOn, taken]
        rcases @ih { zip with unfinished := true, input := zip.input ++ next.chunk.bytes }
          running rfl notLast.2 with ⟨iff, input_eq⟩
        constructor
        · rw [iff]
          exact ⟨fun rest => ⟨empty, rest⟩, fun both => both.2⟩
        · intro stillRunning
          rw [input_eq stillRunning, List.flatMap_cons, List.append_assoc]

/-- The push that finishes a stream leaves a result. -/
theorem push_last (running : zip.ended = false) (chunk : Chunk) :
    (zip.push ⟨chunk, true⟩).result = some (zip.input ++ chunk.bytes) := by
  rw [push, running]
  rfl

end Deflate

/-- A stream that starts with some bytes is complete if and only if nothing but its last
chunk is empty. -/
theorem completeStream_iff {first : Push} {pushes : List Push}
    (finished : Finished (first :: pushes)) (nonempty : first.chunk.bytes ≠ []) :
    CompleteStream (first :: pushes) ↔
      ∀ push ∈ (first :: pushes).dropLast, push.chunk.bytes ≠ [] := by
  have finished' := finished
  rcases finished' with ⟨front, chunk, split, notLast⟩
  rw [split, List.dropLast_concat]
  rw [split] at finished
  cases front with
  | nil =>
      refine ⟨fun _ => nofun, fun _ => ⟨finished, ?_, ?_⟩⟩
      · intro front back same notEmpty
        cases front with
        | nil => rfl
        | cons next front =>
            rcases List.append_eq_nil_iff.mp (List.cons.inj same).2.symm with ⟨_, rfl⟩
            exact absurd rfl notEmpty
      · rw [List.nil_append, List.flatMap_singleton]
        exact @Deflate.push_last {} rfl chunk
  | cons start front =>
      obtain rfl : first = start := (List.cons.inj split).1
      rw [List.forall_mem_cons] at notLast ⊢
      have started : Deflate.push {} first =
          { unfinished := true, input := first.chunk.bytes } :=
        Deflate.push_of_not_last rfl notLast.1 (Or.inl rfl)
      have goesOn : Deflate.pushAll {} (first :: front) =
          Deflate.pushAll { unfinished := true, input := first.chunk.bytes } front := by
        rw [← started]
        rfl
      rcases @Deflate.pushAll_running { unfinished := true, input := first.chunk.bytes } front
        rfl rfl notLast.2 with ⟨running_iff, input_eq⟩
      rw [← goesOn] at running_iff input_eq
      constructor
      · intro complete
        exact ⟨nonempty, running_iff.mp (complete.not_early _ _ rfl (List.cons_ne_nil _ _))⟩
      · rintro ⟨_, allNonempty⟩
        have running := running_iff.mpr allNonempty
        refine ⟨finished, ?_, ?_⟩
        · intro earlier back same notEmpty
          rcases List.eq_nil_or_concat back with rfl | ⟨middle, last, rfl⟩
          · exact absurd rfl notEmpty
          · rw [List.concat_eq_append, ← List.append_assoc] at same
            rw [(List.append_inj' same rfl).1] at running
            exact Deflate.ended_of_append earlier middle running
        · rw [Deflate.pushAll_append]
          refine (Deflate.push_last running chunk).trans ?_
          rw [input_eq running, List.flatMap_append, List.flatMap_cons, List.flatMap_cons,
            List.flatMap_nil, List.append_nil]

/-! ## The pushes of a writer -/

/-- The empty string. -/
def emptyString : JString :=
  ⟨"", by decide⟩

theorem utf8_eq_nil_iff (string : JString) : string.utf8 = [] ↔ string = emptyString := by
  rw [← List.length_eq_zero_iff, JString.length_utf8]
  rcases string with ⟨text, length_lt⟩
  rw [emptyString, JString.mk.injEq, ← String.toList_inj]
  change (text.toList.map Char.utf8Size).sum = 0 ↔ text.toList = []
  cases text.toList with
  | nil => simp
  | cons character characters =>
      have pos := character.utf8Size_pos
      rw [List.map_cons, List.sum_cons]
      simp only [reduceCtorEq, iff_false]
      omega

theorem toBytes_ne_nil (order : ByteOrder) (word : Word) : order.toBytes word ≠ [] := by
  intro none
  have count := order.length_toBytes word
  rw [none] at count
  cases count

/-- Of the chunks of the string section, only an empty string is empty. -/
theorem pushStrings_nonempty_iff (order : ByteOrder) (string : JString) (strings : List JString) :
    (∀ push ∈ (StreamWriter.pushStrings order (string :: strings)).dropLast,
      push.chunk.bytes ≠ []) ↔ emptyString ∉ (string :: strings).dropLast := by
  induction strings generalizing string with
  | nil => simpa [StreamWriter.pushStrings, Chunk.bytes] using toBytes_ne_nil order _
  | cons next strings ih =>
      have more : StreamWriter.pushStrings order (next :: strings) ≠ [] := List.cons_ne_nil _ _
      rw [StreamWriter.pushStrings, List.dropLast_cons_of_ne_nil (List.cons_ne_nil _ _),
        List.dropLast_cons_of_ne_nil more, List.forall_mem_cons, List.forall_mem_cons, ih next,
        List.dropLast_cons_of_ne_nil (List.cons_ne_nil next strings), List.mem_cons, not_or]
      simp only [Chunk.bytes, ne_eq, toBytes_ne_nil, not_false_eq_true, true_and, utf8_eq_nil_iff,
        @eq_comm _ emptyString string]

/-- There is one list of pushes only. -/
theorem exists_pushes_iff {nativeOrder : ByteOrder} {writer : StreamWriter JString}
    {pushes : List Push} (pushed : StreamWriter.socketPushes nativeOrder writer = .ok pushes) :
    (∃ pushes, StreamWriter.socketPushes nativeOrder writer = .ok pushes ∧
      CompleteStream pushes) ↔ CompleteStream pushes := by
  constructor
  · rintro ⟨others, same, complete⟩
    rw [Except.ok.inj (pushed.symm.trans same)]
    exact complete
  · intro complete
    exact ⟨pushes, pushed, complete⟩

/-- What a writer with these words and strings pushes is complete if and only if the
empty string is not in the table before its last place. -/
theorem Written.completeStream_iff {nativeOrder : ByteOrder} {writer : StreamWriter JString}
    {words spare : List Word} (written : Written nativeOrder writer words spare) :
    (∃ pushes, StreamWriter.socketPushes nativeOrder writer = .ok pushes ∧
      CompleteStream pushes) ↔ emptyString ∉ writer.stringTable.dropLast := by
  have nonempty : nativeOrder.encode (writer.flags :: writer.version ::
      BitVec.ofNat 32 words.length :: words) ≠ [] := by
    rw [ByteOrder.encode, List.flatMap_cons]
    exact List.append_ne_nil_of_left_ne_nil (toBytes_ne_nil nativeOrder _) _
  rcases written.socketPushes with ⟨pushes, pushed, finished, _⟩
  have shape := written.socketPushes_eq
  rw [pushed] at shape
  cases shape
  have complete_iff := Stream.completeStream_iff finished nonempty
  rw [exists_pushes_iff pushed, complete_iff]
  cases table : writer.stringTable with
  | nil => simp
  | cons string strings =>
      have more : StreamWriter.pushStrings nativeOrder (string :: strings) ≠ [] :=
        List.cons_ne_nil _ _
      rw [List.isEmpty_cons, if_neg Bool.false_ne_true,
        List.dropLast_cons_of_ne_nil (List.cons_ne_nil _ _), List.dropLast_cons_of_ne_nil more,
        List.forall_mem_cons, List.forall_mem_cons, pushStrings_nonempty_iff]
      exact ⟨fun all => all.2.2, fun absent => ⟨nonempty, toBytes_ne_nil nativeOrder _, absent⟩⟩

/-! ## The strings of a writer -/

section

variable {S : Type} [DecidableEq S]

/-- After the first write of `special`, wherever it is, no other string is new. -/
def NothingNewAfter (special : S) (values : List (Value S)) : Prop :=
  ∀ front back, values = front ++ .string (some special) :: back →
    ∀ string, .string (some string) ∈ back → string = special ∨ .string (some string) ∈ front

/-- A string has its place in the table before others if and only if others are new
after it. -/
theorem not_mem_dropLast_encodeAll (special : S) (values : List (Value S)) :
    special ∉ (encodeAll [] values).2.dropLast ↔ NothingNewAfter special values := by
  constructor
  · intro absent front back split string later
    by_contra neither
    rw [not_or] at neither
    apply absent
    let before := (encodeAll [] (front ++ [.string (some special)])).2
    have mem_before (other : S) : other ∈ before ↔
        .string (some other) ∈ front ++ [.string (some special)] := by
      rw [mem_encodeAll]
      simp
    have after : (encodeAll [] values).2 = (encodeAll before back).2 := by
      rw [split, List.append_cons, encodeAll_append]
    rcases prefix_encodeAll before back with ⟨added, extended⟩
    rw [after, ← extended]
    have inBack : string ∈ before ++ added := by
      rw [extended, mem_encodeAll]
      exact Or.inr later
    have isAdded : string ∈ added := by
      rcases List.mem_append.mp inBack with early | isAdded
      · rw [mem_before] at early
        simp [neither.1, neither.2] at early
      · exact isAdded
    rw [List.dropLast_append_of_ne_nil (List.ne_nil_of_mem isAdded)]
    apply List.mem_append_left
    rw [mem_before]
    exact List.mem_append_right _ List.mem_cons_self
  · intro nothingNew early
    have written : .string (some special) ∈ values := by
      have inTable := List.dropLast_subset _ early
      rw [mem_encodeAll] at inTable
      exact inTable.resolve_left List.not_mem_nil
    rcases List.eq_append_cons_of_mem written with ⟨front, back, split, first⟩
    have table : (encodeAll [] values).2 = (encodeAll [] front).2 ++ [special] := by
      have absent : special ∉ (encodeAll [] front).2 := by
        rw [mem_encodeAll]
        exact not_or.mpr ⟨List.not_mem_nil, first⟩
      have added : (encodeAll [] (front ++ [.string (some special)])).2 =
          (encodeAll [] front).2 ++ [special] := by
        rw [encodeAll_append]
        simp [encodeAll, Value.encode, StreamWriter.addString, absent]
      rw [split, List.append_cons, encodeAll_append, added]
      apply encodeAll_of_known
      intro string later
      rw [List.mem_append, mem_encodeAll, List.mem_singleton]
      exact (nothingNew front back split string later).symm.imp_left Or.inr
    rw [table, List.dropLast_concat, mem_encodeAll] at early
    exact early.elim List.not_mem_nil first

instance (special : S) (values : List (Value S)) : Decidable (NothingNewAfter special values) :=
  decidable_of_iff _ (not_mem_dropLast_encodeAll special values)

end

/-- A sequence of writes can be sent if and only if no string is written for the first
time after an empty string: then the empty string is the last one in the table. -/
theorem socket_stream_complete_iff {nativeOrder : ByteOrder} {values : List (Value JString)}
    {writer : StreamWriter JString}
    (writes : StreamWriter.ofValues nativeOrder values = .ok writer) :
    (∃ pushes, StreamWriter.socketPushes nativeOrder writer = .ok pushes ∧
      CompleteStream pushes) ↔ NothingNewAfter emptyString values := by
  have adds := Written.ofValues writes
  rcases adds.written with ⟨spare, written⟩
  rw [written.completeStream_iff, adds.stringTable_eq, not_mem_dropLast_encodeAll]

/-- A string of one letter. -/
def letterA : JString :=
  ⟨"a", by decide⟩

/-- An empty string at the end of the table does no harm. -/
theorem socket_stream_complete_lastEmpty :
    ∃ writer, StreamWriter.ofValues .littleEndian
        [.string (some letterA), .string (some emptyString), .string (some letterA)] =
          .ok writer ∧
      ∃ pushes, StreamWriter.socketPushes .littleEndian writer = .ok pushes ∧
        CompleteStream pushes := by
  obtain ⟨writer, writes⟩ := ofValues_succeeds .littleEndian
    [.string (some letterA), .string (some emptyString), .string (some letterA)] (by decide)
  exact ⟨writer, writes, (socket_stream_complete_iff writes).mpr (by decide)⟩

/-- An empty string, and another one after it. -/
theorem socket_stream_stalls :
    ∃ writer pushes, StreamWriter.ofValues .littleEndian
        [.string (some emptyString), .string (some letterA)] = .ok writer ∧
      StreamWriter.socketPushes .littleEndian writer = .ok pushes ∧
      (Deflate.pushAll {} pushes).result = none ∧ ¬CompleteStream pushes := by
  refine ⟨_, _, rfl, rfl, by decide, ?_⟩
  intro complete
  exact absurd complete.result (by decide)

end WebbitGwt.Stream
