import WebbitGwt.Stream.SocketFormat

/-!
# The two transports

A reader of a message between workers and a reader of a message from a socket keep
the payload at different places, but both follow the same list of words and have the
same strings.  So they cannot be told apart by reading, even by a reader that does
not know what was written.
-/

namespace WebbitGwt.Stream

open WebbitGwt.Java
open WebbitGwt.Nio

/-- Whatever types are read, in whatever order, the two readers return the same
values, as long as no more words are read than were written. -/
theorem transports_agree (pako : Pako) (decoder : Utf8Decoder) (nativeOrder : ByteOrder)
    (values : List (Value JString))
    (inRange : 3 + (values.map fun value => value.kind.width).sum ≤ 2 ^ 28)
    (ascii : ∀ string, .string (some string) ∈ values → string.IsAscii) (kinds : List Kind)
    (enough : (kinds.map Kind.width).sum ≤ (values.map fun value => value.kind.width).sum) :
    ∃ fresh writer workerData socketData workerReader socketReader results workerLast socketLast,
      StreamWriter.new nativeOrder = .ok fresh ∧
      StreamWriter.writeAll nativeOrder fresh values = .ok writer ∧
      StreamWriter.getWorkerData writer = .ok workerData ∧
      StreamReader.ofWorkerData nativeOrder workerData = .ok workerReader ∧
      StreamWriter.getSocketData pako nativeOrder writer = .ok socketData ∧
      StreamReader.ofSocketData pako decoder nativeOrder socketData = .ok socketReader ∧
      workerReader.readAll kinds = .ok (results, workerLast) ∧
      socketReader.readAll kinds = .ok (results, socketLast) := by
  obtain ⟨fresh, writer, workerData, workerReader, spare, creates, writes, workerSends,
    workerReceives, written, workerFeeds, workerStrings, stringsBounded⟩ :=
    worker_feeds nativeOrder inRange
  obtain ⟨_, _, _, created, wrote, _, table, wordsBounded, _⟩ := written_of_new nativeOrder inRange
  cases created.symm.trans creates
  cases wrote.symm.trans writes
  rw [workerStrings, ← table] at stringsBounded
  rw [← forall_mem_encodeAll, ← table] at ascii
  obtain ⟨socketData, socketReader, socketSends, socketReceives, socketFeeds, socketStrings⟩ :=
    socket_feeds pako decoder written wordsBounded stringsBounded ascii
  rw [← length_words_encodeAll []] at enough
  rcases decodeAll_isSome writer.stringTable enough with ⟨results, rest, decoded⟩
  rw [table, ← workerStrings] at decoded
  rcases workerFeeds.readAll (decodeAll_append decoded spare) with ⟨workerLast, workerReads, _, _⟩
  rw [workerStrings, ← table, ← socketStrings] at decoded
  rcases socketFeeds.readAll decoded with ⟨socketLast, socketReads, _, _⟩
  exact ⟨fresh, writer, workerData, socketData, workerReader, socketReader, results, workerLast,
    socketLast, creates, writes, workerSends, workerReceives, socketSends, socketReceives,
    workerReads, socketReads⟩

/-- A string and a `long` are read as a float, a string and two shorts. -/
theorem transports_agree_confused :
    ∃ fresh writer workerData socketData workerReader socketReader results workerLast socketLast,
      StreamWriter.new .littleEndian = .ok fresh ∧
      StreamWriter.writeAll .littleEndian fresh
        [.string (some ⟨"hello", by decide⟩), .long (-1)] = .ok writer ∧
      StreamWriter.getWorkerData writer = .ok workerData ∧
      StreamReader.ofWorkerData .littleEndian workerData = .ok workerReader ∧
      StreamWriter.getSocketData .stored .littleEndian writer = .ok socketData ∧
      StreamReader.ofSocketData .stored .strict .littleEndian socketData = .ok socketReader ∧
      workerReader.readAll [.float, .string, .short, .short] = .ok (results, workerLast) ∧
      socketReader.readAll [.float, .string, .short, .short] = .ok (results, socketLast) := by
  refine transports_agree .stored .strict .littleEndian _ (by decide) ?_ _ (by decide)
  intro string member
  simp only [List.mem_cons, Value.string.injEq, Option.some.injEq, List.not_mem_nil, or_false,
    reduceCtorEq] at member
  subst member
  decide

end WebbitGwt.Stream
