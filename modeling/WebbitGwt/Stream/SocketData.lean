import WebbitGwt.Java.JString
import WebbitGwt.Stream.StreamReader

/-!
# The socket format

For a socket, payload and string table are pushed chunk by chunk into one compressed
stream: the payload as it lies in memory, and then, if there are strings, their
number and each string after its length.  The reader takes the inflated bytes apart
again.  Assertions are off.
-/

namespace WebbitGwt.Stream

open WebbitGwt.Java
open WebbitGwt.Nio

/-! ## Compression -/

/-- What `Deflate.push` is given. -/
inductive Chunk
  | buffer (bytes : List Byte)
  | string (value : JString)

/-- The bytes of a chunk; a string is encoded in UTF-8. -/
def Chunk.bytes : Chunk → List Byte
  | .buffer bytes => bytes
  | .string value => value.utf8

/-- A push and its `last` argument. -/
structure Push where
  chunk : Chunk
  last : Bool

/-- The last push, and no other, is flagged last. -/
def Finished (pushes : List Push) : Prop :=
  ∃ front chunk, pushes = front ++ [⟨chunk, true⟩] ∧ ∀ push ∈ front, push.last = false

/-- The compression library: `deflate` is the result of a `Deflate` after some pushes,
`inflate` that of an `Inflate` after one. -/
structure Pako where
  Result : Type
  deflate : List Push → Result
  inflate : Result → List Byte
  inflate_deflate : ∀ pushes, Finished pushes →
    inflate (deflate pushes) = pushes.flatMap fun push => push.chunk.bytes

/-- No compression at all. -/
def Pako.stored : Pako where
  Result := List Byte
  deflate pushes := pushes.flatMap fun push => push.chunk.bytes
  inflate := id
  inflate_deflate _ _ := rfl

/-! ## The writer -/

namespace StreamWriter

/-- The pushes of the strings, each after its length.  One buffer is used for all
lengths; a push is done with it when the next length is put. -/
def pushStrings (nativeOrder : ByteOrder) : List JString → List Push
  | [] => []
  | string :: strings =>
      { chunk := .buffer (nativeOrder.toBytes (BitVec.ofNat 32 string.length)), last := false } ::
        { chunk := .string string, last := strings.isEmpty } :: pushStrings nativeOrder strings

/-- The pushes that `getSocketData` makes. -/
def socketPushes (nativeOrder : ByteOrder) (writer : StreamWriter JString) :
    Except BufferException (List Push) := do
  let (memory, payload) ← finish writer
  -- shift bb to the same offsets as payload, then slice
  let bb ← Buffer.setLimit writer.bb (payload.cursor.limit <<< 2)
  let bb ← Buffer.setPosition bb (payload.cursor.position <<< 2)
  let bb := ByteBuffer.slice bb
  let strings := writer.stringTable
  let typedArray := ByteBuffer.window memory bb
  let first : Push := { chunk := .buffer typedArray, last := strings.isEmpty }
  if strings.isEmpty then
    return [first]
  else
    let count := nativeOrder.toBytes (BitVec.ofNat 32 strings.length)
    return first :: { chunk := .buffer count, last := false } :: pushStrings nativeOrder strings

/-- `getSocketData` -/
def getSocketData (pako : Pako) (nativeOrder : ByteOrder) (writer : StreamWriter JString) :
    Except BufferException pako.Result := do
  let pushes ← socketPushes nativeOrder writer
  return pako.deflate pushes

end StreamWriter

/-! ## The reader -/

namespace StreamReader

/-- Read strings, each after its length.  An array of a negative length cannot be
made. -/
def readStrings (decoder : Utf8Decoder) (memory : List Byte) (bb : ByteBuffer) :
    Nat → Except BufferException (List JString × ByteBuffer)
  | 0 => .ok ([], bb)
  | count + 1 => do
      let (stringLength, bb) ← ByteBuffer.getInt memory bb
      if stringLength.slt 0 then
        throw .negativeArraySize
      let (bytes, bb) ← ByteBuffer.getBytes memory bb stringLength.toNat
      match decoder.decode bytes with
      | none => throw .illegalArgument
      | some string =>
          let (strings, bb) ← readStrings decoder memory bb count
          return (string :: strings, bb)

/-- The constructor for a message from a socket.  A negative length, taken as
unsigned, is beyond every capacity. -/
def ofSocketData (pako : Pako) (decoder : Utf8Decoder) (nativeOrder : ByteOrder)
    (data : pako.Result) : Except BufferException (StreamReader JString) := do
  let memory := pako.inflate data
  let bb := ByteBuffer.withOrder (ByteBuffer.wrap memory) nativeOrder
  let ints := ByteBuffer.asIntBuffer bb
  let (version, ints) ← IntBuffer.get memory ints
  let (flags, ints) ← IntBuffer.get memory ints
  let (length, ints) ← IntBuffer.get memory ints
  let payload ← Buffer.setLimit ints.slice length.toNat
  let (strings, bb) ←
    -- if there is at least one entry after payload
    if 3 + length.toNat < ints.cursor.limit then do
      let stringsCount ← IntBuffer.getAt memory ints (3 + length.toNat)
      let bb ← Buffer.setPosition bb ((4 + length.toNat) <<< 2)
      readStrings decoder memory bb stringsCount.toInt.toNat
    else
      pure ([], bb)
  let bb ← Buffer.setPosition bb (3 <<< 2)
  return { memory, bb, payload, strings, flags, version }

end StreamReader

end WebbitGwt.Stream
