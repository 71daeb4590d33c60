import WebbitGwt.Pako.Blocks
import WebbitGwt.Stream.Deflate
import WebbitGwt.Stream.ObjectGraph

/-!
# Through compression and back

A message for a socket is pushed into a `Deflate` object, and its receiver pushes the
result into an `Inflate` object.  With both in their places, an object graph comes through
if and only if its strings are ASCII and the empty one does not stand in the way of another.
-/

namespace WebbitGwt.Stream

open WebbitGwt.Java
open WebbitGwt.Nio
open WebbitGwt.Graph
open WebbitGwt.Transition
open WebbitGwt.Pako (Compressor Inflater zlibStream)

/-! ## Streams that have no result -/

namespace Deflate

/-- Without a last push there is no new result. -/
theorem result_of_notLast {zip : Deflate} {pushes : List Push}
    (notLast : ∀ push ∈ pushes, push.last = false) : (zip.pushAll pushes).result = zip.result := by
  induction pushes generalizing zip with
  | nil => rfl
  | cons next pushes ih =>
      rw [List.forall_mem_cons] at notLast
      refine (ih notLast.2).trans ?_
      rw [push, notLast.1]
      cases zip.ended with
      | true => rfl
      | false =>
          cases zip.unfinished && next.chunk.bytes.isEmpty <;> rfl

/-- A stream that starts with some bytes has a result only if it is complete. -/
theorem completeStream_of_result {first : Push} {pushes : List Push}
    (finished : Finished (first :: pushes)) (nonempty : first.chunk.bytes ≠ [])
    {whole : List Byte} (result : (pushAll {} (first :: pushes)).result = some whole) :
    CompleteStream (first :: pushes) := by
  have iff := completeStream_iff finished nonempty
  rcases finished with ⟨front, chunk, split, notLast⟩
  rw [iff, split, List.dropLast_concat]
  rw [split, pushAll_append] at result
  have running : (pushAll {} front).ended = false := by
    by_contra ended
    rw [Bool.not_eq_false] at ended
    rw [pushAll_of_ended ended, result_of_notLast notLast] at result
    cases result
  cases front with
  | nil => exact nofun
  | cons start front =>
      obtain rfl : first = start := (List.cons.inj split).1
      rw [List.forall_mem_cons] at notLast ⊢
      have started : push {} first = { unfinished := true, input := first.chunk.bytes } :=
        push_of_not_last rfl notLast.1 (Or.inl rfl)
      have goesOn : pushAll {} (first :: front) =
          pushAll { unfinished := true, input := first.chunk.bytes } front := by
        rw [← started]
        rfl
      rw [goesOn] at running
      exact ⟨nonempty, (pushAll_running rfl rfl notLast.2).1.mp running⟩

end Deflate

/-! ## Messages that arrive -/

section Message

variable {Inflates : List Byte → List Byte → Prop} (C : Compressor Inflates)
  (I : Inflater Inflates) (sendSize receiveSize : Nat) (decoder : Utf8Decoder)
  (nativeOrder : ByteOrder)

/-- What a writer sends arrives at a reader: its chunks are pushed into a new object and
the result of that into another, the loops of both return, and the constructor takes what
comes of it. -/
def Arrives (writer : StreamWriter JString) (reader : StreamReader JString) : Prop :=
  ∃ pushes zip data unzip bytes enough,
    StreamWriter.socketPushes nativeOrder writer = .ok pushes ∧
    (∀ fuel, enough < fuel → (Pako.Deflate.new C).pushAll sendSize fuel pushes = some zip) ∧
    zip.result = some data ∧
    (∀ fuel, enough < fuel →
      (Pako.Inflate.new I).push receiveSize fuel data true = some (unzip, true)) ∧
    unzip.result = some bytes ∧
    StreamReader.ofSocketData .stored decoder nativeOrder bytes = .ok reader

variable {sendSize receiveSize nativeOrder} {writer : StreamWriter JString} {words spare : List Word}

/-- The header comes first, so the first push is not empty. -/
theorem Written.first_push (written : Written nativeOrder writer words spare) {pushes : List Push}
    (pushed : StreamWriter.socketPushes nativeOrder writer = .ok pushes) :
    ∃ first others, pushes = first :: others ∧ first.chunk.bytes ≠ [] := by
  have shape := written.socketPushes_eq
  rw [pushed] at shape
  cases shape
  refine ⟨_, _, rfl, ?_⟩
  rw [Chunk.bytes, ByteOrder.encode, List.flatMap_cons]
  exact List.append_ne_nil_of_left_ne_nil (toBytes_ne_nil nativeOrder _) _

/-- It arrives as it was written, unless the empty string is in the table before its last
place: then there is nothing to send. -/
theorem Written.arrives_iff (sendPositive : 0 < sendSize) (receivePositive : 0 < receiveSize)
    (written : Written nativeOrder writer words spare) {reader : StreamReader JString} :
    Arrives C I sendSize receiveSize decoder nativeOrder writer reader ↔
      emptyString ∉ writer.stringTable.dropLast ∧
        StreamReader.ofSocketData .stored decoder nativeOrder
          (nativeOrder.encode (writer.flags :: writer.version :: BitVec.ofNat 32 words.length ::
            words) ++ stringSection nativeOrder writer.stringTable) = .ok reader := by
  rcases written.socketPushes with ⟨pushes, pushed, finished, bytes⟩
  rw [← written.completeStream_iff, exists_pushes_iff pushed, ← bytes]
  rcases (Pako.Deflate.Simulates.fresh (C := C)).pushAll sendPositive pushes with
    ⟨zip, few, simulates, deflates⟩
  constructor
  · rintro ⟨_, other, data, unzip, inflated, enough, same, returns, result, inflates, received,
      reads⟩
    cases pushed.symm.trans same
    obtain rfl : zip = other := eq_of_returns deflates returns
    rcases simulates.result with ⟨_, none⟩ | ⟨whole, body, modelResult, isBody, zipResult⟩
    · cases none.symm.trans result
    · cases zipResult.symm.trans result
      have complete : CompleteStream pushes := by
        rcases written.first_push pushed with ⟨first, others, rfl, nonempty⟩
        exact Deflate.completeStream_of_result finished nonempty modelResult
      have all : whole = pushes.flatMap fun push => push.chunk.bytes :=
        Option.some.inj (modelResult.symm.trans complete.result)
      rcases Pako.Inflate.push_zlibStream I receivePositive isBody with
        ⟨first, many, returnsFirst, firstResult⟩
      cases eq_of_returns returnsFirst inflates
      cases firstResult.symm.trans received
      rw [← all]
      exact ⟨complete, reads⟩
  · rintro ⟨complete, reads⟩
    rcases simulates.result with ⟨none, _⟩ | ⟨whole, body, modelResult, isBody, zipResult⟩
    · cases none.symm.trans complete.result
    · cases modelResult.symm.trans complete.result
      rcases Pako.Inflate.push_zlibStream I receivePositive isBody with
        ⟨unzip, many, inflates, received⟩
      refine ⟨pushes, zip, _, unzip, _, max few many, pushed, ?_, zipResult, ?_, received, reads⟩
      · intro fuel enough
        exact deflates fuel (Nat.lt_of_le_of_lt (Nat.le_max_left _ _) enough)
      · intro fuel enough
        exact inflates fuel (Nat.lt_of_le_of_lt (Nat.le_max_right _ _) enough)

end Message

/-! ## Object graphs -/

section Graph

variable {K R : Type} [DecidableEq R] {Inflates : List Byte → List Byte → Prop}
  (C : Compressor Inflates) (I : Inflater Inflates) (sendSize receiveSize : Nat)
  (decoder : Utf8Decoder) (nativeOrder : ByteOrder) {serializer : Serializer K JString}

/-- Every token takes a word, and every object a token. -/
theorem Heap.length_le_width {heap : Heap serializer R} {roots : List (Option R)}
    {tokens : List (Token (Value JString) R)} {new : List R}
    (listing : Preorder heap.content [] (roots.map .reference) tokens new) :
    new.length ≤ ((tokens.map heap.tokenValue).map fun value => value.kind.width).sum := by
  have positive : ∀ width ∈ (tokens.map heap.tokenValue).map fun value => value.kind.width,
      1 ≤ width := by
    intro width member
    rcases List.mem_map.mp member with ⟨value, _, rfl⟩
    exact value.kind.width_pos
  have tokenCount := List.length_le_sum_of_one_le _ positive
  rw [List.length_map, List.length_map] at tokenCount
  exact listing.length_new_le.trans tokenCount

/-- A graph is written, arrives with the string table of its writer, and is read as a
copy. -/
def GraphArrives (heap : Heap serializer R) (roots : List (Option R)) (depth : Nat) : Prop :=
  ∃ fresh writer reader results last rename,
    StreamWriter.new nativeOrder = .ok fresh ∧
    writeObjects nativeOrder serializer heap.node depth { stream := fresh, objectMap := [] }
      roots = .ok writer ∧
    Arrives C I sendSize receiveSize decoder nativeOrder writer.stream reader ∧
    readObjects serializer depth { stream := reader, seenArray := [], objects := [] }
      roots.length = .ok (results, last) ∧
    IsCopy heap roots last results rename ∧ reader.strings = writer.stream.stringTable

variable {sendSize receiveSize}

/-- A graph that is listed in preorder arrives, whatever the compression, if and only if
all strings are ASCII, those that name types too, and no string is met for the first time
behind an empty one. -/
theorem graph_arrives_iff (sendPositive : 0 < sendSize) (receivePositive : 0 < receiveSize)
    {heap : Heap serializer R} {roots : List (Option R)}
    {tokens : List (Token (Value JString) R)} {new : List R}
    (listing : Preorder heap.content [] (roots.map .reference) tokens new)
    (inRange : 3 + (roots.length + (new.map heap.width).sum) ≤ 2 ^ 28) {depth : Nat}
    (deep : new.length ≤ depth) :
    GraphArrives C I sendSize receiveSize decoder nativeOrder heap roots depth ↔
      (∀ string, .string (some string) ∈ tokens.map heap.tokenValue → string.IsAscii) ∧
        NothingNewAfter emptyString (tokens.map heap.tokenValue) := by
  rw [← Heap.width_listing listing] at inRange
  obtain ⟨fresh, stream, spare, creates, writes, written, table, wordsBounded, stringsBounded⟩ :=
    written_of_new nativeOrder inRange
  have writesGraph : writeObjects nativeOrder serializer heap.node depth
      { stream := fresh, objectMap := [] } roots = .ok { stream, objectMap := [] ++ new } :=
    writes_preorder listing deep writes
  rw [← forall_mem_encodeAll, ← not_mem_dropLast_encodeAll, ← table]
  constructor
  · rintro ⟨_, writer, reader, results, last, rename, created, wrote, arrives, reads, isCopy,
      strings⟩
    cases creates.symm.trans created
    cases writesGraph.symm.trans wrote
    rcases (written.arrives_iff C I decoder sendPositive receivePositive).mp arrives with
      ⟨absent, received⟩
    exact ⟨ascii_of_ofSocketData decoder rfl wordsBounded stringsBounded received strings, absent⟩
  · rintro ⟨ascii, absent⟩
    have inflates (bytes : List Byte) : Pako.stored.inflate bytes = bytes := rfl
    obtain ⟨reader, received, feeds, strings⟩ :=
      ofSocketData_of_ascii decoder (inflates _) wordsBounded stringsBounded ascii
    have arrives := (written.arrives_iff C I decoder sendPositive receivePositive).mpr
      ⟨absent, received⟩
    rw [← List.append_nil (encodeAll [] _).1] at feeds
    obtain ⟨next, gives⟩ :=
      feeds.readAll_encodeAll (strings.trans table) (by rw [strings]; exact stringsBounded)
    have bounded : new.length < 2 ^ 31 := by
      have objectCount := Heap.length_le_width listing
      omega
    rcases reads_copy listing deep bounded gives with ⟨results, last, rename, reads, isCopy⟩
    exact ⟨fresh, _, reader, results, last, rename, creates, writesGraph, arrives, reads, isCopy,
      strings⟩

end Graph

/-! ## A link that leads to itself -/

/-- One class with a number and a reference. -/
def selfLinkSerializer : Serializer Unit JString where
  getSerializationSignature _ := some ⟨"Link", by decide⟩
  typeOf _ := some ()
  shape _ := .fields [.value .int, .object]
  typeOf_signature _ _ _ := rfl
  constants_lt := nofun

def selfLinkHeap : Heap selfLinkSerializer Unit where
  node _ := .object () [.value (.int 7), .reference (some ())]
  conforms _ := .object rfl rfl
  constant_unique := nofun

/-- The message, and the block that it is compressed to. -/
def selfLinkBytes : List Byte :=
  [0, 0, 0, 0, 7, 0, 0, 0, 3, 0, 0, 0, 1, 0, 0, 0, 7, 0, 0, 0, 255, 255, 255, 255,
    1, 0, 0, 0, 4, 0, 0, 0, 76, 105, 110, 107]

def selfLinkBlock : List Byte :=
  [0x63, 0x60, 0x60, 0x60, 0x60, 0x07, 0x62, 0x66, 0x20, 0x66, 0x84, 0xb2, 0xff, 0x03, 0x01,
    0x88, 0xcd, 0x02, 0xc4, 0x3e, 0x99, 0x79, 0xd9, 0x00]

/-- Other messages are stored. -/
def selfLinkPack (whole : List Byte) : List Byte :=
  if whole = selfLinkBytes then selfLinkBlock else Pako.storedBlocks whole

theorem accepts_selfLinkPack (whole : List Byte) :
    Pako.blocks.Accepts (selfLinkPack whole) whole := by
  by_cases same : whole = selfLinkBytes
  · rw [selfLinkPack, if_pos same, same]
    exact ⟨{ place := .done, bits := [], window := selfLinkBytes }, by decide, rfl⟩
  · rw [selfLinkPack, if_neg same]
    exact Pako.accepts_storedBlocks whole

theorem length_selfLinkPack_le (whole : List Byte) :
    (selfLinkPack whole).length ≤ 24 * (whole.length + 1) := by
  by_cases same : whole = selfLinkBytes
  · rw [selfLinkPack, if_pos same, same]
    decide
  · rw [selfLinkPack, if_neg same, Pako.length_storedBlocks]
    omega

/-- The link arrives. -/
theorem graph_arrives_iff_selfLink :
    GraphArrives (.ofPack selfLinkPack accepts_selfLinkPack 24 length_selfLinkPack_le)
      Pako.storedAndFixed 16384 16384 .strict .littleEndian selfLinkHeap [some ()] 1 := by
  have listing : Preorder selfLinkHeap.content [] ([some ()].map .reference)
      (.node () :: ([.value (.int 7), .seen 0] ++ [])) (() :: ([] ++ [])) :=
    .node List.not_mem_nil (.value _ (.seen List.mem_cons_self .nil)) .nil
  refine (graph_arrives_iff _ Pako.storedAndFixed .strict .littleEndian (by decide) (by decide)
    listing (by decide) (by decide)).mpr ⟨?_, ?_⟩
  · rw [← forall_mem_encodeAll]
    decide
  · rw [← not_mem_dropLast_encodeAll]
    decide

end WebbitGwt.Stream
