import WebbitGwt.Stream.ObjectStreams
import WebbitGwt.Stream.WorkerFormat

/-!
# Objects, end to end

What is written of a graph is its preorder listing: a signature where an object is
met, and its number, negated, wherever it is met again.  The reader reserves a slot
where the writer assigned a number, so the two count alike, and it remembers an
object before it reads the fields, so a number always leads to an object that is
there, if only in part.
-/

namespace WebbitGwt.Stream

open WebbitGwt.Java
open WebbitGwt.Nio
open WebbitGwt.Graph

variable {C S R : Type} {serializer : Serializer C S}

/-! ## Heaps -/

/-- Objects that the serializer has code for. -/
inductive Node.Conforms (serializer : Serializer C S) : Node C S R → Prop
  | object {type : C} {fields : List (Field (Value S) R)} {signature : S}
      (hasSignature : serializer.getSerializationSignature type = some signature)
      (hasShape : serializer.shape type = .fields (fields.map fieldKind)) :
      Conforms serializer (.object type fields)
  | constant {clazz declaringClass : C} {ordinal : Nat} {signature : S} {constants : List C}
      (hasSignature : serializer.getSerializationSignature declaringClass = some signature)
      (hasShape : serializer.shape declaringClass = .enumeration constants)
      (isConstant : constants[ordinal]? = some clazz) :
      Conforms serializer (.constant clazz declaringClass ordinal)

/-- The same objects under other names. -/
theorem Node.Conforms.map {T : Type} {node : Node C S R}
    (conforms : node.Conforms serializer) (rename : R → T) :
    (node.map rename).Conforms serializer := by
  cases conforms with
  | object hasSignature hasShape =>
      apply Conforms.object hasSignature
      rw [hasShape, List.map_map]
      simp only [Function.comp_def, fieldKind_map]
  | constant hasSignature hasShape isConstant => exact .constant hasSignature hasShape isConstant

/-- A graph of objects.  There is only one object for an enum constant. -/
structure Heap (serializer : Serializer C S) (R : Type) where
  node : R → Node C S R
  conforms : ∀ object, (node object).Conforms serializer
  constant_unique : ∀ first second firstClass secondClass declaringClass ordinal,
    node first = .constant firstClass declaringClass ordinal →
    node second = .constant secondClass declaringClass ordinal → first = second

/-- What `serialize` writes of an object of a heap. -/
def Heap.content (heap : Heap serializer R) (object : R) : List (Field (Value S) R) :=
  (heap.node object).content

/-- The value that a token of the listing is written as. -/
def Heap.tokenValue (heap : Heap serializer R) : Token (Value S) R → Value S
  | .value value => value
  | .null => .int 0
  | .seen position => .int (-BitVec.ofNat 32 (position + 1))
  | .node object => .string (getObjectTypeSignature serializer (heap.node object))

/-- Every object has a signature. -/
theorem Heap.exists_signature (heap : Heap serializer R) (object : R) :
    ∃ signature, getObjectTypeSignature serializer (heap.node object) = some signature := by
  cases node_eq : heap.node object with
  | object type fields =>
      rcases node_eq ▸ heap.conforms object with ⟨hasSignature, _⟩
      exact ⟨_, hasSignature⟩
  | constant clazz declaringClass ordinal =>
      rcases node_eq ▸ heap.conforms object with _ | ⟨hasSignature, _, _⟩
      exact ⟨_, hasSignature⟩

/-! ## Writing -/

section Write

variable [DecidableEq S] {nativeOrder : ByteOrder} {heap : Heap serializer R}

theorem writeAll_append {writer next : StreamWriter S} {first second : List (Value S)} :
    StreamWriter.writeAll nativeOrder writer (first ++ second) = .ok next ↔
      ∃ middle, StreamWriter.writeAll nativeOrder writer first = .ok middle ∧
        StreamWriter.writeAll nativeOrder middle second = .ok next := by
  induction first generalizing writer with
  | nil =>
      constructor
      · intro writes
        exact ⟨writer, rfl, writes⟩
      · rintro ⟨middle, isSame, writes⟩
        cases isSame
        exact writes
  | cons value values ih =>
      simp only [List.cons_append, StreamWriter.writeAll, bind_eq_ok, ih]
      constructor
      · rintro ⟨afterValue, writesValue, middle, writesFirst, writesSecond⟩
        exact ⟨middle, ⟨afterValue, writesValue, writesFirst⟩, writesSecond⟩
      · rintro ⟨middle, ⟨afterValue, writesValue, writesFirst⟩, writesSecond⟩
        exact ⟨afterValue, writesValue, middle, writesFirst, writesSecond⟩

variable [DecidableEq R]

/-- Writing objects writes their listing, on a stack as deep as there are objects. -/
theorem writes_preorder {visited new : List R} {fields : List (Field (Value S) R)}
    {tokens : List (Token (Value S) R)}
    (listing : Preorder heap.content visited fields tokens new) {depth : Nat}
    (deep : new.length ≤ depth) {stream next : StreamWriter S}
    (writes : StreamWriter.writeAll nativeOrder stream (tokens.map heap.tokenValue) = .ok next) :
    writeFields nativeOrder (writeObject nativeOrder serializer heap.node depth)
        { stream, objectMap := visited } fields =
      .ok { stream := next, objectMap := visited ++ new } := by
  induction listing generalizing depth stream next with
  | nil =>
      cases writes
      rw [List.append_nil]
      rfl
  | value value _ ih =>
      rcases bind_eq_ok.mp writes with ⟨middle, writesValue, writes⟩
      have writesField : StreamWriter.write nativeOrder stream value = .ok middle := writesValue
      rw [writeFields, writesField]
      exact ih deep writes
  | null _ ih =>
      rcases bind_eq_ok.mp writes with ⟨middle, writesNull, writes⟩
      have writesString : StreamWriter.writeString nativeOrder stream none = .ok middle :=
        writesNull
      rw [writeFields, writeObject, writesString]
      exact ih deep writes
  | seen met _ ih =>
      rcases bind_eq_ok.mp writes with ⟨middle, writesIndex, writes⟩
      have writesInt : StreamWriter.writeInt nativeOrder stream _ = .ok middle := writesIndex
      rw [writeFields, writeObject.eq_def]
      simp only [if_pos met, writesInt]
      exact ih deep writes
  | @node visited below after fields inner tokens object notMet _ _ ihInside ihRest =>
      rcases heap.exists_signature object with ⟨signature, hasSignature⟩
      rw [List.map_cons, List.map_append] at writes
      rcases bind_eq_ok.mp writes with ⟨afterSignature, writesSignature, writes⟩
      rcases writeAll_append.mp writes with ⟨afterInside, writesInside, writesRest⟩
      have writesString : StreamWriter.writeString nativeOrder stream (some signature) =
          .ok afterSignature := by
        rw [← hasSignature]
        exact writesSignature
      simp only [List.length_cons, List.length_append] at deep
      cases depth with
      | zero => omega
      | succ depth =>
          have inside := @ihInside depth (by omega) _ _ writesInside
          have rest := @ihRest (depth + 1) (by omega) _ _ writesRest
          rw [writeFields, writeObject]
          simp only [if_neg notMet, hasSignature, writesString, ofBuffer_ok, ok_bind]
          rw [← Heap.content, inside, ok_bind, rest, Preorder.append_node]

end Write

/-! ## Reading -/

/-- A reader that returns the given values when it is asked for their types. -/
def Gives (stream : StreamReader S) (values : List (Value S)) (next : StreamReader S) : Prop :=
  stream.readAll (values.map Value.kind) = .ok (values, next)

theorem gives_cons {stream next : StreamReader S} {value : Value S} {values : List (Value S)} :
    Gives stream (value :: values) next ↔
      ∃ middle, stream.read value.kind = .ok (value, middle) ∧ Gives middle values next := by
  constructor
  · intro gives
    rcases bind_eq_ok.mp gives with ⟨⟨first, middle⟩, reads, gives⟩
    rcases bind_eq_ok.mp gives with ⟨⟨others, last⟩, readsOthers, same⟩
    cases same
    exact ⟨middle, reads, readsOthers⟩
  · rintro ⟨middle, reads, gives⟩
    have others : middle.readAll (values.map Value.kind) = .ok (values, next) := gives
    simp only [Gives, List.map_cons, StreamReader.readAll, reads, ok_bind, others]
    rfl

theorem gives_append {stream next : StreamReader S} {first second : List (Value S)} :
    Gives stream (first ++ second) next ↔
      ∃ middle, Gives stream first middle ∧ Gives middle second next := by
  induction first generalizing stream with
  | nil =>
      constructor
      · intro gives
        exact ⟨stream, rfl, gives⟩
      · rintro ⟨middle, isSame, gives⟩
        cases isSame
        exact gives
  | cons value values ih =>
      simp only [List.cons_append, gives_cons, ih]
      constructor
      · rintro ⟨afterValue, reads, middle, givesFirst, givesSecond⟩
        exact ⟨middle, ⟨afterValue, reads, givesFirst⟩, givesSecond⟩
      · rintro ⟨middle, ⟨afterValue, reads, givesFirst⟩, givesSecond⟩
        exact ⟨afterValue, reads, middle, givesFirst, givesSecond⟩

section Token

variable {stream next : StreamReader S} {references : List (Reference C)}
  {seenArray : List (Option (Reference C))}
  {objects : List (C × List (Field (Value S) (Reference C)))}

theorem readInt_of_read {value : JInt} (reads : stream.read .int = .ok (.int value, next)) :
    stream.readInt = .ok (value, next) := by
  rcases bind_eq_ok.mp reads with ⟨⟨first, middle⟩, readsInt, same⟩
  cases same
  exact readsInt

/-- A string is read as an index of it. -/
theorem readInt_of_readString {value : Option S}
    (reads : stream.read .string = .ok (.string value, next)) :
    ∃ index, stream.readInt = .ok (index, next) ∧ next.getString index = value := by
  rcases bind_eq_ok.mp reads with ⟨⟨first, middle⟩, readsString, same⟩
  cases same
  rcases bind_eq_ok.mp readsString with ⟨⟨index, last⟩, readsInt, same⟩
  cases same
  exact ⟨index, readsInt, rfl⟩

/-- Zero is null. -/
theorem readObject_null (reads : stream.read .int = .ok (.int 0, next)) (depth : Nat) :
    readObject serializer depth { stream, seenArray, objects } =
      .ok (none, { stream := next, seenArray, objects }) := by
  rw [readObject.eq_def]
  simp only [readInt_of_read reads, ofBuffer_ok, ok_bind]
  rfl

/-- A number, negated, is the object in its slot. -/
theorem readObject_seen {position : Nat} {object : Option (Reference C)}
    (reads : stream.read .int = .ok (.int (-BitVec.ofNat 32 (position + 1)), next))
    (inRange : position < 2 ^ 31) (slot : seenArray[position]? = some object) (depth : Nat) :
    readObject serializer depth { stream, seenArray, objects } =
      .ok (object, { stream := next, seenArray, objects }) := by
  have negative : (-BitVec.ofNat 32 (position + 1)).slt 0 = true := by
    have zero : (0 : JInt).toInt = 0 := rfl
    rw [BitVec.slt_iff_toInt_lt, BitVec.toInt_eq_toNat_cond, BitVec.toNat_neg, BitVec.toNat_ofNat,
      zero]
    split <;> omega
  have index : (-(-BitVec.ofNat 32 (position + 1) + 1)).toNat = position := by
    have one : (1 : JInt).toNat = 1 := rfl
    simp only [BitVec.toNat_neg, BitVec.toNat_add, BitVec.toNat_ofNat, one]
    omega
  rw [readObject.eq_def]
  simp only [readInt_of_read reads, ofBuffer_ok, ok_bind, negative, if_true, index, slot]
  rfl

/-- A signature is a new object. -/
theorem readObject_new {signature : S} {object : Reference C} {after : ObjectReader C S}
    {depth : Nat} (reads : stream.read .string = .ok (.string (some signature), next))
    (deserializes : deserialize serializer (readObject serializer depth)
      { stream := next, seenArray, objects } signature = .ok (object, after)) :
    readObject serializer (depth + 1) { stream, seenArray, objects } =
      .ok (some object, after) := by
  rcases readInt_of_readString reads with ⟨index, readsInt, isSignature⟩
  have notNegative : index.slt 0 = false := by
    unfold StreamReader.getString at isSignature
    split at isSignature
    · rename_i positive
      rw [BitVec.slt_iff_toInt_lt] at positive
      exact decide_eq_false (Int.not_lt.mpr (Int.le_of_lt positive))
    · cases isSignature
  rw [readObject.eq_def]
  simp only [readsInt, ofBuffer_ok, ok_bind, notNegative, Bool.false_eq_true, if_false, isSignature,
    deserializes]
  rfl

/-- The reserved slot is the one that is remembered. -/
theorem set_reserved (references : List (Reference C)) (object : Reference C) :
    (references.map some ++ [none]).set ((references.map some).length + 1 - 1) (some object) =
      (references ++ [object]).map some := by
  rw [Nat.add_sub_cancel, List.set_append_right _ _ (Nat.le_refl _), Nat.sub_self, List.map_append]
  rfl

/-- A new object is in its slot while its fields are read, and has them afterwards. -/
theorem deserialize_object {signature : S} {type : C} {kinds : List FieldKind}
    (hasType : serializer.typeOf signature = some type)
    (hasShape : serializer.shape type = .fields kinds)
    {readObject : ObjectReader C S →
      Except StreamException (Option (Reference C) × ObjectReader C S)}
    {fields : List (Field (Value S) (Reference C))}
    {allocated : List (C × List (Field (Value S) (Reference C)))}
    (reads : readFields readObject
        { stream, seenArray := (references ++ [Reference.object objects.length]).map some,
          objects := objects ++ [(type, [])] } kinds =
      .ok (fields,
        { stream := next, seenArray, objects := objects ++ [(type, [])] ++ allocated })) :
    deserialize serializer readObject { stream, seenArray := references.map some, objects }
        signature =
      .ok (.object objects.length,
        { stream := next, seenArray, objects := objects ++ (type, fields) :: allocated }) := by
  have filled : (objects ++ [(type, [])] ++ allocated).set objects.length (type, fields) =
      objects ++ (type, fields) :: allocated := by
    rw [List.append_assoc, List.set_append_right _ _ (Nat.le_refl _), Nat.sub_self]
    rfl
  simp only [deserialize, reserveDecodedObjectIndex, instantiate, hasType, hasShape, ok_bind,
    rememberDecodedObject, set_reserved, deserializeFields, reads, filled]
  rfl

/-- A constant is found by its ordinal, and has nothing more to read. -/
theorem deserialize_constant {signature : S} {type : C} {constants : List C} {ordinal : Nat}
    (hasType : serializer.typeOf signature = some type)
    (hasShape : serializer.shape type = .enumeration constants)
    (isConstant : ordinal < constants.length)
    (reads : stream.readInt = .ok (BitVec.ofNat 32 ordinal, next))
    (readObject : ObjectReader C S →
      Except StreamException (Option (Reference C) × ObjectReader C S)) :
    deserialize serializer readObject { stream, seenArray := references.map some, objects }
        signature =
      .ok (.constant type ordinal,
        { stream := next
          seenArray := (references ++ [Reference.constant type ordinal]).map some
          objects := objects }) := by
  have toNat_eq := toNat_ofNat_of_lt
    (Nat.lt_trans isConstant (serializer.constants_lt type constants hasShape))
  simp only [deserialize, reserveDecodedObjectIndex, instantiate, hasType, hasShape, reads,
    ofBuffer_ok, ok_bind, toNat_eq, if_pos isConstant, pure_bind, rememberDecodedObject,
    set_reserved, deserializeFields]
  rfl

end Token

/-- The reference that was remembered for an object the writer met. -/
def Met (visited : List R) (references : List (Reference C)) (object : R)
    (reference : Reference C) : Prop :=
  (object, reference) ∈ visited.zip references

/-- What has been met stays met. -/
theorem Met.append {visited new : List R} {references others : List (Reference C)} {object : R}
    {reference : Reference C} (met : Met visited references object reference)
    (sameLength : visited.length = references.length) :
    Met (visited ++ new) (references ++ others) object reference := by
  rw [Met, List.zip_append sameLength]
  exact List.mem_append_left _ met

/-- A reference represents an object: it leads to an allocated object of the same type
with related fields, counted from a base, or is the same constant. -/
inductive Represents (base : Nat) (objects : List (C × List (Field (Value S) (Reference C))))
    (related : R → Reference C → Prop) : Node C S R → Reference C → Prop
  | object {type : C} {fields : List (Field (Value S) R)}
      {others : List (Field (Value S) (Reference C))} {index : Nat}
      (allocated : objects[index]? = some (type, others))
      (rel : List.Forall₂ (Field.Rel related) fields others) :
      Represents base objects related (.object type fields) (.object (base + index))
  | constant {clazz declaringClass : C} {ordinal : Nat} :
      Represents base objects related (.constant clazz declaringClass ordinal)
        (.constant declaringClass ordinal)

namespace Represents

variable {base : Nat} {objects : List (C × List (Field (Value S) (Reference C)))}
  {related : R → Reference C → Prop} {node : Node C S R} {reference : Reference C}

theorem mono {wider : R → Reference C → Prop}
    (represents : Represents base objects related node reference)
    (wide : ∀ object other, related object other → wider object other) :
    Represents base objects wider node reference := by
  cases represents with
  | object allocated rel => exact .object allocated (rel.imp fun _ _ same => same.mono wide)
  | constant => exact .constant

/-- Objects that were allocated before. -/
theorem after (front : List (C × List (Field (Value S) (Reference C))))
    (represents : Represents (base + front.length) objects related node reference) :
    Represents base (front ++ objects) related node reference := by
  cases represents with
  | object allocated rel =>
      rw [Nat.add_assoc]
      refine .object ?_ rel
      rw [List.getElem?_append_right (Nat.le_add_right _ _), Nat.add_sub_cancel_left, allocated]
  | constant => exact .constant

/-- Objects that are allocated later. -/
theorem before (back : List (C × List (Field (Value S) (Reference C))))
    (represents : Represents base objects related node reference) :
    Represents base (objects ++ back) related node reference := by
  cases represents with
  | object allocated rel =>
      have inRange := (List.getElem?_eq_some_iff.mp allocated).1
      exact .object (List.getElem?_append_left inRange ▸ allocated) rel
  | constant => exact .constant

/-- Only a constant is represented by a constant. -/
theorem eq_constant {type : C} {ordinal : Nat}
    (represents : Represents base objects related node (.constant type ordinal)) :
    ∃ clazz, node = .constant clazz type ordinal := by
  cases represents
  exact ⟨_, rfl⟩

end Represents

/-- The addresses among some references. -/
def Reference.address? : Reference C → Option Nat
  | .object address => some address
  | .constant _ _ => none

section Read

variable {heap : Heap serializer R}

/-- What a reader makes of a listing: the fields again, and an object or constant for
every object of the writer, in the same order. -/
structure Rebuilt (heap : Heap serializer R) (visited new : List R)
    (references newReferences : List (Reference C)) (base : Nat)
    (newObjects : List (C × List (Field (Value S) (Reference C)))) : Prop where
  length_eq : newReferences.length = new.length
  addresses : newReferences.filterMap Reference.address? = List.range' base newObjects.length
  represents : ∀ object reference, Met new newReferences object reference →
    Represents base newObjects (Met (visited ++ new) (references ++ newReferences))
      (heap.node object) reference

/-- An object, what was rebuilt of it, and what was rebuilt below and after it. -/
theorem Rebuilt.node {visited below after : List R} {object : R}
    {references belowReferences afterReferences : List (Reference C)} {reference : Reference C}
    {base : Nat} {head belowObjects afterObjects : List (C × List (Field (Value S) (Reference C)))}
    (sameLength : visited.length = references.length)
    (address : [reference].filterMap Reference.address? = List.range' base head.length)
    (represents : Represents base head
      (Met (visited ++ [object] ++ below) (references ++ [reference] ++ belowReferences))
      (heap.node object) reference)
    (inside : Rebuilt heap (visited ++ [object]) below (references ++ [reference]) belowReferences
      (base + head.length) belowObjects)
    (rest : Rebuilt heap (visited ++ [object] ++ below) after
      (references ++ [reference] ++ belowReferences) afterReferences
      (base + (head ++ belowObjects).length) afterObjects) :
    Rebuilt heap visited (object :: (below ++ after)) references
      (reference :: (belowReferences ++ afterReferences)) base
      (head ++ belowObjects ++ afterObjects) where
  length_eq := by
    rw [List.length_cons, List.length_append, inside.length_eq, rest.length_eq, List.length_cons,
      List.length_append]
  addresses := by
    rw [← List.singleton_append, List.filterMap_append, List.filterMap_append, address,
      inside.addresses, rest.addresses, List.length_append, ← Nat.add_assoc, List.range'_append_1,
      List.range'_append_1, List.length_append, List.length_append, Nat.add_assoc]
  represents := by
    have restLength : (visited ++ [object] ++ below).length =
        (references ++ [reference] ++ belowReferences).length := by
      simp only [List.length_append, List.length_singleton, sameLength, inside.length_eq]
    intro other found met
    rw [Preorder.append_node, Preorder.append_node]
    rw [Met, List.zip_cons_cons, List.zip_append inside.length_eq.symm, List.mem_cons,
      List.mem_append] at met
    obtain ⟨⟨⟩⟩ | inBelow | inAfter := met
    · have first := (represents.before belowObjects).before afterObjects
      exact first.mono fun _ _ met => met.append restLength
    · have middle := ((inside.represents other found inBelow).after head).before afterObjects
      exact middle.mono fun _ _ met => met.append restLength
    · exact (rest.represents other found inAfter).after (head ++ belowObjects)

/-- The fields are read back, and the objects below them are rebuilt. -/
def ReadsBack (heap : Heap serializer R) (depth : Nat) (visited new : List R)
    (stream next : StreamReader S) (fields : List (Field (Value S) R)) : Prop :=
  ∀ references : List (Reference C), visited.length = references.length →
    ∀ objects : List (C × List (Field (Value S) (Reference C))),
      ∃ results newReferences newObjects,
        readFields (readObject serializer depth)
            { stream, seenArray := references.map some, objects } (fields.map fieldKind) =
          .ok (results,
            { stream := next
              seenArray := (references ++ newReferences).map some
              objects := objects ++ newObjects }) ∧
        List.Forall₂ (Field.Rel (Met (visited ++ new) (references ++ newReferences))) fields
          results ∧
        Rebuilt heap visited new references newReferences objects.length newObjects

namespace ReadsBack

variable {depth : Nat} {visited new : List R} {stream middle next : StreamReader S}
  {fields : List (Field (Value S) R)}

theorem nil : ReadsBack heap depth visited [] stream stream [] := by
  intro references _ objects
  refine ⟨[], [], [], ?_, .nil, rfl, rfl, nofun⟩
  simp only [List.map_nil, List.append_nil]
  rfl

theorem value {value : Value S} (reads : stream.read value.kind = .ok (value, middle))
    (rest : ReadsBack heap depth visited new middle next fields) :
    ReadsBack heap depth visited new stream next (.value value :: fields) := by
  intro references sameLength objects
  obtain ⟨results, newReferences, newObjects, readsRest, rel, rebuilt⟩ :=
    rest references sameLength objects
  refine ⟨.value value :: results, newReferences, newObjects, ?_, .cons (.value value) rel, rebuilt⟩
  rw [List.map_cons, fieldKind, readFields, reads, ofBuffer_ok, ok_bind]
  simp only [readsRest]
  rfl

theorem null (reads : stream.read .int = .ok (.int 0, middle))
    (rest : ReadsBack heap depth visited new middle next fields) :
    ReadsBack heap depth visited new stream next (.reference none :: fields) := by
  intro references sameLength objects
  obtain ⟨results, newReferences, newObjects, readsRest, rel, rebuilt⟩ :=
    rest references sameLength objects
  refine ⟨.reference none :: results, newReferences, newObjects, ?_, .cons .null rel, rebuilt⟩
  rw [List.map_cons, fieldKind, readFields, readObject_null reads, ok_bind]
  simp only [readsRest]
  rfl

/-- The slot of an object that was met is its slot from then on. -/
theorem seen [DecidableEq R] {object : R} (met : object ∈ visited)
    (bounded : visited.length < 2 ^ 31)
    (reads : stream.read .int =
      .ok (.int (-BitVec.ofNat 32 (visited.idxOf object + 1)), middle))
    (rest : ReadsBack heap depth visited new middle next fields) :
    ReadsBack heap depth visited new stream next (.reference (some object) :: fields) := by
  intro references sameLength objects
  obtain ⟨results, newReferences, newObjects, readsRest, rel, rebuilt⟩ :=
    rest references sameLength objects
  have position := List.idxOf_lt_length_of_mem met
  have inReferences : visited.idxOf object < references.length := sameLength ▸ position
  have slot : (references.map some)[visited.idxOf object]? =
      some (some references[visited.idxOf object]) := by
    rw [List.getElem?_map, List.getElem?_eq_getElem inReferences]
    rfl
  have isMet : Met visited references object references[visited.idxOf object] := by
    refine List.mem_iff_getElem.mpr ⟨visited.idxOf object, by simp [position, inReferences], ?_⟩
    rw [List.getElem_zip, List.getElem_idxOf]
  refine ⟨.reference (some references[visited.idxOf object]) :: results, newReferences, newObjects,
    ?_, .cons (.reference (isMet.append sameLength)) rel, rebuilt⟩
  rw [List.map_cons, fieldKind, readFields,
    readObject_seen reads (Nat.lt_trans position bounded) slot, ok_bind]
  simp only [readsRest]
  rfl

end ReadsBack

/-- An object is deserialized, and the objects below it are rebuilt. -/
def Deserializes (heap : Heap serializer R) (depth : Nat) (visited below : List R)
    (stream next : StreamReader S) (object : R) (signature : S) : Prop :=
  ∀ references : List (Reference C), visited.length = references.length →
    ∀ objects : List (C × List (Field (Value S) (Reference C))),
      ∃ reference head belowReferences belowObjects,
        deserialize serializer (readObject serializer depth)
            { stream, seenArray := references.map some, objects } signature =
          .ok (reference,
            { stream := next
              seenArray := (references ++ [reference] ++ belowReferences).map some
              objects := objects ++ (head ++ belowObjects) }) ∧
        [reference].filterMap Reference.address? = List.range' objects.length head.length ∧
        Represents objects.length head
          (Met (visited ++ [object] ++ below) (references ++ [reference] ++ belowReferences))
          (heap.node object) reference ∧
        Rebuilt heap (visited ++ [object]) below (references ++ [reference]) belowReferences
          (objects.length + head.length) belowObjects

section Deserialize

variable {depth : Nat} {visited below after : List R} {stream middle next last : StreamReader S}
  {object : R} {signature : S}

theorem deserializes_object {type : C} {fields : List (Field (Value S) R)}
    (isObject : heap.node object = .object type fields)
    (hasType : serializer.typeOf signature = some type)
    (hasShape : serializer.shape type = .fields (fields.map fieldKind))
    (inside : ReadsBack heap depth (visited ++ [object]) below stream next fields) :
    Deserializes heap depth visited below stream next object signature := by
  intro references sameLength objects
  have longer : (visited ++ [object]).length =
      (references ++ [Reference.object objects.length]).length := by
    simp only [List.length_append, List.length_singleton, sameLength]
  obtain ⟨results, belowReferences, belowObjects, reads, rel, rebuilt⟩ :=
    inside _ longer (objects ++ [(type, [])])
  refine ⟨.object objects.length, [(type, results)], belowReferences, belowObjects,
    deserialize_object hasType hasShape reads, rfl, ?_, ?_⟩
  · rw [isObject, ← Nat.add_zero objects.length]
    exact .object rfl rel
  · rw [List.length_append] at rebuilt
    exact rebuilt

theorem deserializes_constant {clazz type : C} {ordinal : Nat} {constants : List C}
    (isConstant : heap.node object = .constant clazz type ordinal)
    (hasType : serializer.typeOf signature = some type)
    (hasShape : serializer.shape type = .enumeration constants)
    (inRange : ordinal < constants.length)
    (reads : stream.readInt = .ok (BitVec.ofNat 32 ordinal, next)) :
    Deserializes heap depth visited [] stream next object signature := by
  intro references sameLength objects
  refine ⟨.constant type ordinal, [], [], [], ?_, rfl, ?_, rfl, rfl, nofun⟩
  · rw [deserialize_constant hasType hasShape inRange reads]
    simp only [List.append_nil]
  · rw [isConstant]
    exact .constant

/-- A new object and the fields after it. -/
theorem ReadsBack.node {fields : List (Field (Value S) R)}
    (reads : stream.read .string = .ok (.string (some signature), middle))
    (deserializes : Deserializes heap depth visited below middle next object signature)
    (rest : ReadsBack heap (depth + 1) (visited ++ [object] ++ below) after next last fields) :
    ReadsBack heap (depth + 1) visited (object :: (below ++ after)) stream last
      (.reference (some object) :: fields) := by
  intro references sameLength objects
  obtain ⟨reference, head, belowReferences, belowObjects, deserialized, address, represents,
    inside⟩ := deserializes references sameLength objects
  have headLength : (visited ++ [object]).length = (references ++ [reference]).length := by
    simp only [List.length_append, List.length_singleton, sameLength]
  have longer : (visited ++ [object] ++ below).length =
      (references ++ [reference] ++ belowReferences).length := by
    rw [List.length_append, headLength, ← inside.length_eq, ← List.length_append]
  obtain ⟨results, afterReferences, afterObjects, readsRest, rel, rebuilt⟩ :=
    rest _ longer (objects ++ (head ++ belowObjects))
  rw [List.length_append] at rebuilt
  have isMet : Met (visited ++ [object]) (references ++ [reference]) object reference := by
    rw [Met, List.zip_append sameLength]
    exact List.mem_append_right _ List.mem_cons_self
  refine ⟨.reference (some reference) :: results, reference :: (belowReferences ++ afterReferences),
    head ++ belowObjects ++ afterObjects, ?_, ?_,
    .node sameLength address represents inside rebuilt⟩
  · rw [List.map_cons, fieldKind, readFields, readObject_new reads deserialized, ok_bind]
    rw [Preorder.append_node references, ← List.append_assoc objects (head ++ belowObjects)]
    simp only [readsRest]
    rfl
  · rw [Preorder.append_node, Preorder.append_node]
    exact .cons (.reference ((isMet.append headLength).append longer)) rel

end Deserialize

/-- Reading a listing rebuilds the objects, on a stack as deep as there are objects. -/
theorem reads_preorder [DecidableEq R] {visited new : List R} {fields : List (Field (Value S) R)}
    {tokens : List (Token (Value S) R)}
    (listing : Preorder heap.content visited fields tokens new) {depth : Nat}
    (deep : new.length ≤ depth) (bounded : (visited ++ new).length < 2 ^ 31)
    {stream next : StreamReader S} (gives : Gives stream (tokens.map heap.tokenValue) next) :
    ReadsBack heap depth visited new stream next fields := by
  induction listing generalizing depth stream next with
  | nil =>
      cases gives
      exact .nil
  | value value _ ih =>
      rcases gives_cons.mp gives with ⟨middle, reads, gives⟩
      exact .value reads (ih deep bounded gives)
  | null _ ih =>
      rcases gives_cons.mp gives with ⟨middle, reads, gives⟩
      exact .null reads (ih deep bounded gives)
  | seen met _ ih =>
      rcases gives_cons.mp gives with ⟨middle, reads, gives⟩
      have visitedBounded := bounded
      rw [List.length_append] at visitedBounded
      exact .seen met (by omega) reads (ih deep bounded gives)
  | @node visited below after fields inner tokens object notMet inside _ ihInside ihRest =>
      rw [List.map_cons, List.map_append] at gives
      rcases gives_cons.mp gives with ⟨afterSignature, reads, gives⟩
      rcases gives_append.mp gives with ⟨afterInside, givesInside, givesRest⟩
      rw [Preorder.append_node] at bounded
      have insideBounded := bounded
      rw [List.length_append] at insideBounded
      rw [List.length_cons, List.length_append] at deep
      cases depth with
      | zero => omega
      | succ depth =>
          have rest := @ihRest (depth + 1) (by omega) bounded _ _ givesRest
          have conforms := heap.conforms object
          cases node_eq : heap.node object with
          | object type contents =>
              rw [node_eq] at conforms
              rcases conforms with ⟨hasSignature, hasShape⟩
              have below := @ihInside depth (by omega) (by omega) _ _ givesInside
              rw [Heap.content, node_eq] at below
              rw [Heap.tokenValue, node_eq, getObjectTypeSignature, hasSignature] at reads
              exact .node reads (deserializes_object node_eq
                (serializer.typeOf_signature _ _ hasSignature) hasShape below) rest
          | constant clazz declaringClass ordinal =>
              rw [node_eq] at conforms
              rcases conforms with _ | ⟨hasSignature, hasShape, isConstant⟩
              rw [Heap.tokenValue, node_eq, getObjectTypeSignature, hasSignature] at reads
              rw [Heap.content, node_eq] at inside
              rcases inside with _ | ⟨_, ⟨⟩⟩
              rcases gives_cons.mp givesInside with ⟨last, readsOrdinal, ⟨⟩⟩
              exact .node reads (deserializes_constant node_eq
                (serializer.typeOf_signature _ _ hasSignature) hasShape
                (List.getElem?_eq_some_iff.mp isConstant).1 (readInt_of_read readsOrdinal)) rest

end Read

end WebbitGwt.Stream
