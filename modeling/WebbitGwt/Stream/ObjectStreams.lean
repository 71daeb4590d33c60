import WebbitGwt.Graph.Preorder
import WebbitGwt.Stream.StreamReader

/-!
# Objects in a stream

`writeObject` and `readObject` of the base classes, with the parts that
`StreamWriter` and `StreamReader` add to them.  The code that is generated for a type
writes and reads its fields in a fixed order, and an enum constant by its ordinal.
-/

namespace WebbitGwt.Stream

open WebbitGwt.Java
open WebbitGwt.Nio
open WebbitGwt.Graph

/-- What reading and writing objects throws.  The recursion is as deep as the stack
allows. -/
inductive StreamException
  | buffer (exception : BufferException)
  | serialization
  | stackOverflow
  deriving DecidableEq, Repr

/-- Pass on what a buffer throws. -/
def ofBuffer {α : Type} : Except BufferException α → Except StreamException α :=
  Except.mapError .buffer

@[simp]
theorem ofBuffer_ok {α : Type} (value : α) : ofBuffer (.ok value) = .ok value := rfl

/-! ## Types and objects -/

/-- A field as the code generated for a type reads and writes it. -/
inductive FieldKind
  | value (kind : Kind)
  | object
  deriving DecidableEq, Repr

/-- Objects of a type have fields; the objects of an enum type are its constants, of
which some may have a class of their own. -/
inductive Shape (C : Type)
  | fields (kinds : List FieldKind)
  | enumeration (constants : List C)

/-- The generated serializer, as far as it is a table: the signature of a class, and
the code for a signature.  A class without a signature cannot be serialized. -/
structure Serializer (C S : Type) where
  getSerializationSignature : C → Option S
  typeOf : S → Option C
  shape : C → Shape C
  typeOf_signature : ∀ type signature, getSerializationSignature type = some signature →
    typeOf signature = some type
  constants_lt : ∀ type constants, shape type = .enumeration constants →
    constants.length < 2 ^ 31

/-- An object in memory: its class and fields, or the class, enum type and ordinal of
an enum constant. -/
inductive Node (C S R : Type)
  | object (type : C) (fields : List (Field (Value S) R))
  | constant (clazz declaringClass : C) (ordinal : Nat)

/-- The same object with renamed references. -/
def Node.map {C S R T : Type} (rename : R → T) : Node C S R → Node C S T
  | .object type fields => .object type (fields.map (Field.map rename))
  | .constant clazz declaringClass ordinal => .constant clazz declaringClass ordinal

/-- What `serialize` writes of an object. -/
def Node.content {C S R : Type} : Node C S R → List (Field (Value S) R)
  | .object _ fields => fields
  | .constant _ _ ordinal => [.value (.int (BitVec.ofNat 32 ordinal))]

/-- How a field is read. -/
def fieldKind {S R : Type} : Field (Value S) R → FieldKind
  | .value value => .value value.kind
  | .reference _ => .object

theorem Node.content_map {C S R T : Type} (rename : R → T) (node : Node C S R) :
    (node.map rename).content = node.content.map (Field.map rename) := by
  cases node <;> rfl

theorem fieldKind_map {S R T : Type} (rename : R → T) (field : Field (Value S) R) :
    fieldKind (field.map rename) = fieldKind field := by
  cases field <;> rfl

theorem Node.map_map {C S R T U : Type} (first : R → T) (second : T → U) (node : Node C S R) :
    (node.map first).map second = node.map (second ∘ first) := by
  cases node with
  | object type fields =>
      have twice (field : Field (Value S) R) :
          (field.map first).map second = field.map (second ∘ first) := by
        cases field with
        | value held => rfl
        | reference target => rw [Field.map, Field.map, Field.map, Option.map_map]
      simp only [Node.map, List.map_map, Function.comp_def, twice]
  | constant clazz declaringClass ordinal => rfl

variable {C S R : Type}

/-! ## Writing -/

/-- A writer and the objects it has numbered. -/
structure ObjectWriter (S R : Type) where
  stream : StreamWriter S
  objectMap : List R

/-- `getObjectTypeSignature`: a constant is written under its declaring class. -/
def getObjectTypeSignature (serializer : Serializer C S) : Node C S R → Option S
  | .object type _ => serializer.getSerializationSignature type
  | .constant _ declaringClass _ => serializer.getSerializationSignature declaringClass

section Write

variable [DecidableEq S] (nativeOrder : ByteOrder)

/-- Write fields in order, references with the given `writeObject`. -/
def writeFields (writeObject : ObjectWriter S R → Option R →
      Except StreamException (ObjectWriter S R)) (writer : ObjectWriter S R) :
    List (Field (Value S) R) → Except StreamException (ObjectWriter S R)
  | [] => .ok writer
  | .value value :: fields => do
      let stream ← ofBuffer (StreamWriter.write nativeOrder writer.stream value)
      writeFields writeObject { writer with stream } fields
  | .reference target :: fields => do
      let writer ← writeObject writer target
      writeFields writeObject writer fields

variable [DecidableEq R] (serializer : Serializer C S) (heap : R → Node C S R)

/-- `writeObject`, on a stack of the given depth. -/
def writeObject : Nat → ObjectWriter S R → Option R →
    Except StreamException (ObjectWriter S R)
  | _, writer, none => do
      let stream ← ofBuffer (StreamWriter.writeString nativeOrder writer.stream none)
      return { writer with stream }
  | depth, writer, some object =>
      if object ∈ writer.objectMap then do
        -- already encoded: a reference back to it
        let objIndex := writer.objectMap.idxOf object
        let stream ← ofBuffer (StreamWriter.writeInt nativeOrder writer.stream
          (-BitVec.ofNat 32 (objIndex + 1)))
        return { writer with stream }
      else
        match depth with
        | 0 => throw .stackOverflow
        | depth + 1 => do
            let objectMap := writer.objectMap ++ [object]
            match getObjectTypeSignature serializer (heap object) with
            | none => throw .serialization
            | some typeSignature => do
                let stream ← ofBuffer
                  (StreamWriter.writeString nativeOrder writer.stream (some typeSignature))
                writeFields nativeOrder (writeObject depth) { stream, objectMap }
                  (heap object).content

/-- Write objects one after the other. -/
def writeObjects (depth : Nat) (writer : ObjectWriter S R) (roots : List (Option R)) :
    Except StreamException (ObjectWriter S R) :=
  writeFields nativeOrder (writeObject nativeOrder serializer heap depth) writer
    (roots.map .reference)

end Write

/-! ## Reading -/

/-- A reference to an object that was allocated, or to an enum constant. -/
inductive Reference (C : Type)
  | object (address : Nat)
  | constant (type : C) (ordinal : Nat)
  deriving DecidableEq

/-- A reader, its slots for decoded objects, and the memory it allocates from. -/
structure ObjectReader (C S : Type) where
  stream : StreamReader S
  seenArray : List (Option (Reference C))
  objects : List (C × List (Field (Value S) (Reference C)))

/-- The object behind a reference. -/
def ObjectReader.node (serializer : Serializer C S) (reader : ObjectReader C S) :
    Reference C → Option (Node C S (Reference C))
  | .object address =>
      reader.objects[address]?.map fun (type, fields) => .object type fields
  | .constant type ordinal =>
      match serializer.shape type with
      | .fields _ => none
      | .enumeration constants => constants[ordinal]?.map fun clazz => .constant clazz type ordinal

/-- Read fields in order, references with the given `readObject`. -/
def readFields (readObject : ObjectReader C S →
      Except StreamException (Option (Reference C) × ObjectReader C S))
    (reader : ObjectReader C S) : List FieldKind →
      Except StreamException (List (Field (Value S) (Reference C)) × ObjectReader C S)
  | [] => .ok ([], reader)
  | .value kind :: kinds => do
      let (value, stream) ← ofBuffer (reader.stream.read kind)
      let (fields, reader) ← readFields readObject { reader with stream } kinds
      return (.value value :: fields, reader)
  | .object :: kinds => do
      let (target, reader) ← readObject reader
      let (fields, reader) ← readFields readObject reader kinds
      return (.reference target :: fields, reader)

section Read

variable (serializer : Serializer C S)

/-- `instantiate` of the serializer: a new object without fields as yet, or the
constant whose ordinal is read. -/
def instantiate (reader : ObjectReader C S) (signature : S) :
    Except StreamException (Reference C × ObjectReader C S) :=
  match serializer.typeOf signature with
  | none => throw .serialization
  | some type =>
      match serializer.shape type with
      | .fields _ =>
          .ok (.object reader.objects.length,
            { reader with objects := reader.objects ++ [(type, [])] })
      | .enumeration constants => do
          let (ordinal, stream) ← ofBuffer reader.stream.readInt
          if ordinal.toNat < constants.length then
            return (.constant type ordinal.toNat, { reader with stream })
          else
            throw (.buffer .indexOutOfBounds)

/-- `deserialize` of the serializer: read the fields of a new object.  Nothing looks at
the object before it has them all. -/
def deserializeFields (readObject : ObjectReader C S →
      Except StreamException (Option (Reference C) × ObjectReader C S))
    (reader : ObjectReader C S) (object : Reference C) (signature : S) :
    Except StreamException (ObjectReader C S) :=
  match serializer.typeOf signature, object with
  | some type, .object address =>
      match serializer.shape type with
      | .fields kinds => do
          let (fields, reader) ← readFields readObject reader kinds
          return { reader with objects := reader.objects.set address (type, fields) }
      | .enumeration _ => .ok reader
  | _, _ => .ok reader

/-- `reserveDecodedObjectIndex`: a slot for an object, counted from one. -/
def reserveDecodedObjectIndex (reader : ObjectReader C S) : Nat × ObjectReader C S :=
  (reader.seenArray.length + 1, { reader with seenArray := reader.seenArray ++ [none] })

/-- `rememberDecodedObject` -/
def rememberDecodedObject (reader : ObjectReader C S) (index : Nat) (object : Reference C) :
    ObjectReader C S :=
  { reader with seenArray := reader.seenArray.set (index - 1) (some object) }

/-- `deserialize`: the object is remembered before its fields are read. -/
def deserialize (readObject : ObjectReader C S →
      Except StreamException (Option (Reference C) × ObjectReader C S))
    (reader : ObjectReader C S) (signature : S) :
    Except StreamException (Reference C × ObjectReader C S) := do
  let (id, reader) := reserveDecodedObjectIndex reader
  let (object, reader) ← instantiate serializer reader signature
  let reader := rememberDecodedObject reader id object
  let reader ← deserializeFields serializer readObject reader object signature
  return (object, reader)

/-- `readObject`, on a stack of the given depth. -/
def readObject : Nat → ObjectReader C S →
    Except StreamException (Option (Reference C) × ObjectReader C S)
  | depth, reader => do
      let (token, stream) ← ofBuffer reader.stream.readInt
      let reader := { reader with stream }
      if token.slt 0 then
        -- a negative token means a previous object
        match reader.seenArray[(-(token + 1)).toNat]? with
        | none => throw (.buffer .indexOutOfBounds)
        | some object => return (object, reader)
      else
        match stream.getString token with
        | none => return (none, reader)
        | some typeSignature =>
            match depth with
            | 0 => throw .stackOverflow
            | depth + 1 => do
                let (object, reader) ← deserialize serializer (readObject depth) reader
                  typeSignature
                return (some object, reader)

/-- Read objects one after the other. -/
def readObjects (depth : Nat) (reader : ObjectReader C S) (count : Nat) :
    Except StreamException (List (Field (Value S) (Reference C)) × ObjectReader C S) :=
  readFields (readObject serializer depth) reader (List.replicate count .object)

end Read

end WebbitGwt.Stream
