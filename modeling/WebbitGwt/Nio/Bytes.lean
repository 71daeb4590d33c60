import Mathlib.Data.BitVec
import Mathlib.Data.List.Basic

/-!
# Words in a byte memory

A memory is a list of bytes.  Words of four bytes are loaded from and stored to it
in either byte order.  A stretch of memory that holds a list of words is described
by the words: loads and stores at its word boundaries are accesses of that list.
-/

namespace WebbitGwt.Nio

abbrev Byte := BitVec 8

abbrev Word := BitVec 32

/-- Which byte of a word comes first in memory. -/
inductive ByteOrder
  | bigEndian
  | littleEndian
  deriving DecidableEq, Repr

namespace ByteOrder

/-- The four bytes of a word, in memory order. -/
def toBytes (order : ByteOrder) (word : Word) : List Byte :=
  match order with
  | .littleEndian =>
      [word.extractLsb' 0 8, word.extractLsb' 8 8, word.extractLsb' 16 8, word.extractLsb' 24 8]
  | .bigEndian =>
      [word.extractLsb' 24 8, word.extractLsb' 16 8, word.extractLsb' 8 8, word.extractLsb' 0 8]

/-- The word that four consecutive bytes make up. -/
def ofBytes (order : ByteOrder) (first second third fourth : Byte) : Word :=
  match order with
  | .littleEndian => fourth ++ third ++ second ++ first
  | .bigEndian => first ++ second ++ third ++ fourth

@[simp]
theorem length_toBytes (order : ByteOrder) (word : Word) : (order.toBytes word).length = 4 := by
  cases order <;> rfl

theorem append_extractLsb' (word : Word) :
    word.extractLsb' 24 8 ++ word.extractLsb' 16 8 ++ word.extractLsb' 8 8 ++
      word.extractLsb' 0 8 = word := by
  apply BitVec.eq_of_getLsbD_eq
  intro index bound
  simp only [BitVec.getLsbD_append, BitVec.getLsbD_extractLsb']
  grind

/-- The bytes of a word make up the word. -/
theorem exists_toBytes (order : ByteOrder) (word : Word) :
    ∃ first second third fourth, order.toBytes word = [first, second, third, fourth] ∧
      order.ofBytes first second third fourth = word := by
  cases order with
  | bigEndian => exact ⟨_, _, _, _, rfl, append_extractLsb' word⟩
  | littleEndian => exact ⟨_, _, _, _, rfl, append_extractLsb' word⟩

/-- The memory that holds a list of words. -/
def encode (order : ByteOrder) (words : List Word) : List Byte :=
  words.flatMap order.toBytes

@[simp]
theorem encode_nil (order : ByteOrder) : order.encode [] = [] := rfl

@[simp]
theorem encode_cons (order : ByteOrder) (word : Word) (words : List Word) :
    order.encode (word :: words) = order.toBytes word ++ order.encode words := rfl

@[simp]
theorem encode_append (order : ByteOrder) (first second : List Word) :
    order.encode (first ++ second) = order.encode first ++ order.encode second := by
  simp [encode]

@[simp]
theorem length_encode (order : ByteOrder) (words : List Word) :
    (order.encode words).length = 4 * words.length := by
  induction words with
  | nil => rfl
  | cons word words ih =>
      rw [encode_cons, List.length_append, length_toBytes, ih, List.length_cons]
      omega

/-- The word at a byte offset.  Where the memory ends, zeros follow. -/
def load (order : ByteOrder) (memory : List Byte) (offset : Nat) : Word :=
  order.ofBytes (memory.getD offset 0) (memory.getD (offset + 1) 0)
    (memory.getD (offset + 2) 0) (memory.getD (offset + 3) 0)

/-- Replace the word at a byte offset. -/
def store (order : ByteOrder) (memory : List Byte) (offset : Nat) (word : Word) : List Byte :=
  memory.take offset ++ order.toBytes word ++ memory.drop (offset + 4)

/-- A word is loaded from where its bytes are. -/
theorem load_append (order : ByteOrder) (front : List Byte) (word : Word) (back : List Byte) :
    order.load (front ++ order.toBytes word ++ back) front.length = word := by
  rcases order.exists_toBytes word with ⟨first, second, third, fourth, bytes_eq, word_eq⟩
  rw [bytes_eq, ← word_eq]
  simp [load, List.getD_eq_getElem?_getD]

/-- And stored where the bytes of another word are. -/
theorem store_append (order : ByteOrder) (front : List Byte) (old : Word) (back : List Byte)
    (word : Word) :
    order.store (front ++ order.toBytes old ++ back) front.length word =
      front ++ order.toBytes word ++ back := by
  have dropped : (front ++ order.toBytes old ++ back).drop (front.length + 4) = back := by
    have length : (front ++ order.toBytes old).length = front.length + 4 := by simp
    rw [← length, List.drop_left]
  rw [store, dropped, List.append_assoc front, List.take_left]

theorem encode_eq_of_lt (order : ByteOrder) {words : List Word} {index : Nat}
    (bound : index < words.length) :
    order.encode words =
      order.encode (words.take index) ++ order.toBytes words[index] ++
        order.encode (words.drop (index + 1)) := by
  conv_lhs => rw [← List.take_append_drop index words, List.drop_eq_getElem_cons bound]
  rw [encode_append, encode_cons, List.append_assoc]

/-- Loading at a word boundary reads the list of words. -/
theorem load_encode (order : ByteOrder) {words : List Word} {index : Nat}
    (bound : index < words.length) (back : List Byte) :
    order.load (order.encode words ++ back) (4 * index) = words[index] := by
  have length : (order.encode (words.take index)).length = 4 * index := by
    rw [length_encode, List.length_take_of_le (Nat.le_of_lt bound)]
  rw [order.encode_eq_of_lt bound, List.append_assoc, ← length, load_append]

/-- Storing at a word boundary updates the list of words. -/
theorem store_encode (order : ByteOrder) {words : List Word} {index : Nat}
    (bound : index < words.length) (back : List Byte) (word : Word) :
    order.store (order.encode words ++ back) (4 * index) word =
      order.encode (words.set index word) ++ back := by
  have length : (order.encode (words.take index)).length = 4 * index := by
    rw [length_encode, List.length_take_of_le (Nat.le_of_lt bound)]
  have updated : order.encode (words.set index word) =
      order.encode (words.take index) ++ order.toBytes word ++
        order.encode (words.drop (index + 1)) := by
    rw [List.set_eq_take_append_cons_drop, if_pos bound, encode_append, encode_cons,
      List.append_assoc]
  rw [order.encode_eq_of_lt bound, updated, ← length, List.append_assoc _ _ back, store_append,
    List.append_assoc _ _ back]

/-- Zeroed memory holds zero words. -/
theorem encode_replicate_zero (order : ByteOrder) (count : Nat) :
    order.encode (List.replicate count 0) = List.replicate (4 * count) 0 := by
  induction count with
  | zero => rfl
  | succ count ih =>
      rw [List.replicate_succ, encode_cons, ih, Nat.mul_succ, Nat.add_comm, List.replicate_add]
      cases order <;> rfl

end ByteOrder

end WebbitGwt.Nio
