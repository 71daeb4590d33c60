import WebbitGwt.Stream.SocketFormat
import WebbitGwt.Stream.WorkerFormat

/-!
# Version and flags

The writer's class comment puts the version first and the flags second, and both
readers take them in this order; both writers store the flags first.  What is said
here holds of all four, after any writes and any settings in between.
-/

namespace WebbitGwt.Stream

open WebbitGwt.Java
open WebbitGwt.Nio

variable {S : Type}

/-- What is done to a writer before its data is taken. -/
inductive Operation (S : Type)
  | write (value : Value S)
  | setFlags (flags : JInt)
  | setVersion (version : JInt)

namespace StreamWriter

/-- `setFlags` of the base class. -/
def setFlags (writer : StreamWriter S) (flags : JInt) : StreamWriter S :=
  { writer with flags := flags }

/-- `setVersion` of the base class. -/
def setVersion (writer : StreamWriter S) (version : JInt) : StreamWriter S :=
  { writer with version := version }

variable [DecidableEq S]

def perform (nativeOrder : ByteOrder) (writer : StreamWriter S) :
    Operation S → Except BufferException (StreamWriter S)
  | .write value => write nativeOrder writer value
  | .setFlags flags => .ok (writer.setFlags flags)
  | .setVersion version => .ok (writer.setVersion version)

/-- A new writer after some operations. -/
def ofOperations (nativeOrder : ByteOrder) (operations : List (Operation S)) :
    Except BufferException (StreamWriter S) := do
  let writer ← new nativeOrder
  operations.foldlM (perform nativeOrder) writer

end StreamWriter

/-- The reader reports what was set on the writer. -/
structure HeaderAgrees (writer : StreamWriter S) (reader : StreamReader S) : Prop where
  version_eq : reader.version = writer.version
  flags_eq : reader.flags = writer.flags

/-- Version and flags have changed places. -/
structure HeaderSwapped (writer : StreamWriter S) (reader : StreamReader S) : Prop where
  version_eq : reader.version = writer.flags
  flags_eq : reader.flags = writer.version

/-- That only goes unnoticed when they are the same. -/
theorem HeaderSwapped.agrees_iff {writer : StreamWriter S} {reader : StreamReader S}
    (swapped : HeaderSwapped writer reader) :
    HeaderAgrees writer reader ↔ writer.version = writer.flags := by
  constructor
  · intro agrees
    exact agrees.version_eq.symm.trans swapped.version_eq
  · intro same
    exact ⟨swapped.version_eq.trans same.symm, swapped.flags_eq.trans same⟩

namespace Written

variable {nativeOrder : ByteOrder} {writer next : StreamWriter S} {words spare : List Word}

theorem setFlags (written : Written nativeOrder writer words spare) (flags : JInt) :
    Written nativeOrder (writer.setFlags flags) words spare :=
  ⟨written.memory_eq, written.bb_eq, written.payload_offset, written.payload_order,
    written.position_eq, written.limit_eq, written.capacity_eq, written.memory_lt⟩

theorem setVersion (written : Written nativeOrder writer words spare) (version : JInt) :
    Written nativeOrder (writer.setVersion version) words spare :=
  ⟨written.memory_eq, written.bb_eq, written.payload_offset, written.payload_order,
    written.position_eq, written.limit_eq, written.capacity_eq, written.memory_lt⟩

variable [DecidableEq S]

/-- Settings do not touch the buffers. -/
theorem perform (written : Written nativeOrder writer words spare) {operation : Operation S}
    (succeeds : StreamWriter.perform nativeOrder writer operation = .ok next) :
    ∃ words spare, Written nativeOrder next words spare := by
  cases operation with
  | write value =>
      rcases (written.write succeeds).written with ⟨spare, nextWritten⟩
      exact ⟨_, spare, nextWritten⟩
  | setFlags flags =>
      cases succeeds
      exact ⟨words, spare, written.setFlags flags⟩
  | setVersion version =>
      cases succeeds
      exact ⟨words, spare, written.setVersion version⟩

theorem performAll (written : Written nativeOrder writer words spare)
    {operations : List (Operation S)}
    (succeeds : operations.foldlM (StreamWriter.perform nativeOrder) writer = .ok next) :
    ∃ words spare, Written nativeOrder next words spare := by
  induction operations generalizing writer words spare with
  | nil =>
      cases succeeds
      exact ⟨words, spare, written⟩
  | cons operation operations ih =>
      rw [List.foldlM_cons] at succeeds
      rcases bind_eq_ok.mp succeeds with ⟨middle, first, rest⟩
      rcases written.perform first with ⟨_, _, middleWritten⟩
      exact ih middleWritten rest

theorem ofOperations {operations : List (Operation S)}
    (performs : StreamWriter.ofOperations nativeOrder operations = .ok writer) :
    ∃ words spare, Written nativeOrder writer words spare := by
  rw [StreamWriter.ofOperations, StreamWriter.new_eq, ok_bind] at performs
  exact Written.fresh.performAll performs

end Written

/-- A reader of a worker message takes the version from the first word. -/
theorem ofWorkerData_header {nativeOrder : ByteOrder} {first second length : Word}
    {words : List Word} {data : WorkerData S} {reader : StreamReader S}
    (buffer_eq : data.buffer = nativeOrder.encode (first :: second :: length :: words))
    (opens : StreamReader.ofWorkerData nativeOrder data = .ok reader) :
    reader.version = first ∧ reader.flags = second := by
  obtain ⟨_, _, _, getFirst, getSecond, getThird, _⟩ :=
    reads_header (buffer_eq.trans (List.append_nil _).symm) data.strings second first
  simp only [StreamReader.ofWorkerData, StreamReader.ofBuffer, getFirst, getSecond, getThird,
    ok_bind] at opens
  cases opens
  exact ⟨rfl, rfl⟩

/-- And so does a reader of a message from a socket, if the strings can be read. -/
theorem ofSocketData_header {pako : Pako} {decoder : Utf8Decoder} {nativeOrder : ByteOrder}
    {first second length : Word} {words : List Word} {back : List Byte} {data : pako.Result}
    {reader : StreamReader JString}
    (inflates : pako.inflate data =
      nativeOrder.encode (first :: second :: length :: words) ++ back)
    (opens : StreamReader.ofSocketData pako decoder nativeOrder data = .ok reader) :
    reader.version = first ∧ reader.flags = second := by
  obtain ⟨_, _, _, getFirst, getSecond, getThird, _⟩ :=
    reads_header inflates ([] : List JString) second first
  simp only [StreamReader.ofSocketData, getFirst, getSecond, getThird, ok_bind] at opens
  rcases bind_eq_ok.mp opens with ⟨payload, _, opens⟩
  split at opens
  · rcases bind_eq_ok.mp opens with ⟨count, _, opens⟩
    rcases bind_eq_ok.mp opens with ⟨behind, _, opens⟩
    rcases bind_eq_ok.mp opens with ⟨⟨strings, bb⟩, _, opens⟩
    rcases bind_eq_ok.mp opens with ⟨rewound, _, opens⟩
    cases opens
    exact ⟨rfl, rfl⟩
  · rcases bind_eq_ok.mp opens with ⟨⟨strings, bb⟩, _, opens⟩
    rcases bind_eq_ok.mp opens with ⟨rewound, _, opens⟩
    cases opens
    exact ⟨rfl, rfl⟩

/-- On either path, whatever has been written and set, the reader agrees with the writer
if and only if version and flags are the same. -/
theorem header_agreement_iff {nativeOrder : ByteOrder} {operations : List (Operation JString)}
    {writer : StreamWriter JString}
    (performs : StreamWriter.ofOperations nativeOrder operations = .ok writer) :
    (∃ data reader, StreamWriter.getWorkerData writer = .ok data ∧
      StreamReader.ofWorkerData nativeOrder data = .ok reader ∧
      (HeaderAgrees writer reader ↔ writer.version = writer.flags)) ∧
    ∀ (pako : Pako) (decoder : Utf8Decoder), ∃ data,
      StreamWriter.getSocketData pako nativeOrder writer = .ok data ∧
      ∀ reader, StreamReader.ofSocketData pako decoder nativeOrder data = .ok reader →
        (HeaderAgrees writer reader ↔ writer.version = writer.flags) := by
  rcases Written.ofOperations performs with ⟨words, spare, written⟩
  constructor
  · obtain ⟨reader, opens, _, _⟩ := feeds_ofWorkerData nativeOrder writer.flags writer.version
      (BitVec.ofNat 32 words.length) (words ++ spare) writer.stringTable
    have header := ofWorkerData_header rfl opens
    exact ⟨_, reader, written.getWorkerData, opens, HeaderSwapped.agrees_iff ⟨header.1, header.2⟩⟩
  · intro pako decoder
    rcases written.getSocketData pako with ⟨data, sends, inflates⟩
    refine ⟨data, sends, ?_⟩
    intro reader opens
    have header := ofSocketData_header inflates opens
    exact HeaderSwapped.agrees_iff ⟨header.1, header.2⟩

/-- With both set to the same number. -/
theorem header_agreement_same :
    ∃ writer, StreamWriter.ofOperations .littleEndian
        [.setVersion 5, .write (.int 1), .setFlags 5] = .ok writer ∧
      (∃ data reader, StreamWriter.getWorkerData writer = .ok data ∧
        StreamReader.ofWorkerData .littleEndian data = .ok reader ∧
        HeaderAgrees writer reader) ∧
      ∃ data, StreamWriter.getSocketData .stored .littleEndian writer = .ok data ∧
        ∀ reader, StreamReader.ofSocketData .stored .strict .littleEndian data = .ok reader →
          HeaderAgrees writer reader := by
  have performs : ∃ writer : StreamWriter JString, StreamWriter.ofOperations .littleEndian
      [.setVersion 5, .write (.int 1), .setFlags 5] = .ok writer ∧
      writer.version = writer.flags := ⟨_, rfl, rfl⟩
  rcases performs with ⟨writer, performs, same⟩
  rcases header_agreement_iff performs with ⟨⟨data, reader, sends, opens, agrees⟩, socket⟩
  rcases socket .stored .strict with ⟨socketData, socketSends, socketAgrees⟩
  exact ⟨writer, performs, ⟨data, reader, sends, opens, agrees.mpr same⟩, socketData, socketSends,
    fun socketReader socketOpens => (socketAgrees socketReader socketOpens).mpr same⟩

/-- The defaults, version seven and no flags, arrive as version zero and flags seven. -/
theorem header_swapped_defaults :
    ∃ writer data reader socketData socketReader,
      StreamWriter.ofOperations .littleEndian [] = .ok writer ∧
      writer.version = 7 ∧ writer.flags = 0 ∧
      StreamWriter.getWorkerData writer = .ok data ∧
      StreamReader.ofWorkerData .littleEndian data = .ok reader ∧
      ¬ HeaderAgrees writer reader ∧ reader.version = 0 ∧ reader.flags = 7 ∧
      StreamWriter.getSocketData .stored .littleEndian writer = .ok socketData ∧
      StreamReader.ofSocketData .stored .strict .littleEndian socketData = .ok socketReader ∧
      ¬ HeaderAgrees writer socketReader ∧ socketReader.version = 0 ∧ socketReader.flags = 7 := by
  refine ⟨_, _, _, _, _, rfl, rfl, rfl, rfl, rfl, ?_, rfl, rfl, rfl, rfl, ?_, rfl, rfl⟩
  · intro agrees
    cases agrees.version_eq
  · intro agrees
    cases agrees.version_eq

end WebbitGwt.Stream
