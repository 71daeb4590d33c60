import WebbitGwt.Stream.StreamReader

/-!
# The payload as a list of words

What a stream is for, without buffers: a sequence of values becomes a list of words
and a table of strings, and a sequence of types takes values back from the list.
Writing and reading are inverse to each other here; the buffers only have to keep
the words.
-/

namespace WebbitGwt.Stream

open WebbitGwt.Java
open WebbitGwt.Nio

variable {S : Type}

section Encode

variable [DecidableEq S]

/-- The words of a value, and the string table after it. -/
def Value.encode (table : List S) : Value S → List Word × List S
  | .int value => ([value], table)
  | .boolean value => ([if value then 1 else 0], table)
  | .byte value => ([value.signExtend 32], table)
  | .char value => ([value.setWidth 32], table)
  | .short value => ([value.signExtend 32], table)
  | .long value => ([(splitLong value).1, (splitLong value).2.1, (splitLong value).2.2], table)
  | .float value => ([value.bits], table)
  | .double value =>
      let parts := splitLong (doubleToLongBits value)
      ([parts.1, parts.2.1, parts.2.2], table)
  | .string value =>
      ([(StreamWriter.addString table value).1], (StreamWriter.addString table value).2)

/-- The words of a sequence of values, and the string table after it. -/
def encodeAll (table : List S) : List (Value S) → List Word × List S
  | [] => ([], table)
  | value :: values =>
      let (first, table) := value.encode table
      let (rest, table) := encodeAll table values
      (first ++ rest, table)

end Encode

/-- The string under an index. -/
def stringAt (strings : List S) (index : JInt) : Option S :=
  if (0 : JInt).slt index then strings[index.toNat - 1]? else none

/-- Take a value of a type from a list of words. -/
def Kind.decode (strings : List S) : Kind → List Word → Option (Value S × List Word)
  | .int, word :: rest => some (.int word, rest)
  | .boolean, word :: rest => some (.boolean (word == 1), rest)
  | .byte, word :: rest => some (.byte (word.setWidth 8), rest)
  | .char, word :: rest => some (.char (word.setWidth 16), rest)
  | .short, word :: rest => some (.short (word.setWidth 16), rest)
  | .long, first :: second :: third :: rest => some (.long (joinLong first second third), rest)
  | .float, word :: rest => some (.float (.ofBits word), rest)
  | .double, first :: second :: third :: rest =>
      some (.double (longBitsToDouble (joinLong first second third)), rest)
  | .string, word :: rest => some (.string (stringAt strings word), rest)
  | _, _ => none

/-- Take a sequence of values. -/
def decodeAll (strings : List S) :
    List Kind → List Word → Option (List (Value S) × List Word)
  | [], words => some ([], words)
  | kind :: kinds, words => do
      let (value, words) ← kind.decode strings words
      let (values, words) ← decodeAll strings kinds words
      return (value :: values, words)

/-- How many words a value of the type takes. -/
def Kind.width : Kind → Nat
  | .long | .double => 3
  | _ => 1

theorem Kind.width_pos (kind : Kind) : 1 ≤ kind.width := by
  cases kind <;> decide

/-! ## Writing and reading are inverse -/

/-- Narrowing undoes widening. -/
theorem setWidth_signExtend {width : Nat} (narrow : width ≤ 32) (value : BitVec width) :
    (value.signExtend 32).setWidth width = value := by
  apply BitVec.eq_of_getLsbD_eq
  intro index bound
  rw [BitVec.getLsbD_setWidth, BitVec.getLsbD_signExtend]
  simp [bound, Nat.lt_of_lt_of_le bound narrow]

/-- Any words will do, if there are enough of them. -/
theorem Kind.decode_isSome (strings : List S) (kind : Kind) {words : List Word}
    (enough : kind.width ≤ words.length) :
    ∃ value rest, kind.decode strings words = some (value, rest) ∧
      rest.length = words.length - kind.width := by
  rcases words with _ | ⟨first, words⟩
  · cases kind <;> cases enough
  · cases kind
    case long | double =>
      rcases words with _ | ⟨second, _ | ⟨third, rest⟩⟩
      · simp [Kind.width] at enough
      · simp [Kind.width] at enough
      · exact ⟨_, rest, rfl, rfl⟩
    all_goals exact ⟨_, words, rfl, rfl⟩

/-- So will any sequence of types that asks for no more than there is. -/
theorem decodeAll_isSome (strings : List S) {kinds : List Kind} {words : List Word}
    (enough : (kinds.map Kind.width).sum ≤ words.length) :
    ∃ values rest, decodeAll strings kinds words = some (values, rest) := by
  induction kinds generalizing words with
  | nil => exact ⟨[], words, rfl⟩
  | cons kind kinds ih =>
      rw [List.map_cons, List.sum_cons] at enough
      have here : kind.width ≤ words.length := by omega
      rcases kind.decode_isSome strings here with ⟨value, middle, first, length⟩
      have later : (kinds.map Kind.width).sum ≤ middle.length := by omega
      rcases ih later with ⟨values, rest, later⟩
      exact ⟨value :: values, rest, by simp [decodeAll, first, later]⟩

/-- What follows the words makes no difference. -/
theorem Kind.decode_append {strings : List S} {kind : Kind} {words rest : List Word}
    {value : Value S} (decoded : kind.decode strings words = some (value, rest))
    (spare : List Word) : kind.decode strings (words ++ spare) = some (value, rest ++ spare) := by
  rcases words with _ | ⟨first, words⟩
  · cases kind <;> cases decoded
  · cases kind
    case long | double =>
      rcases words with _ | ⟨second, _ | ⟨third, words⟩⟩ <;> cases decoded
      rfl
    all_goals
      cases decoded
      rfl

theorem decodeAll_append {strings : List S} {kinds : List Kind} {words rest : List Word}
    {values : List (Value S)} (decoded : decodeAll strings kinds words = some (values, rest))
    (spare : List Word) :
    decodeAll strings kinds (words ++ spare) = some (values, rest ++ spare) := by
  induction kinds generalizing words values with
  | nil =>
      cases decoded
      rfl
  | cons kind kinds ih =>
      rcases Option.bind_eq_some_iff.mp decoded with ⟨⟨value, middle⟩, first, decoded⟩
      rcases Option.bind_eq_some_iff.mp decoded with ⟨⟨others, last⟩, later, decoded⟩
      cases decoded
      simp [decodeAll, kind.decode_append first spare, ih later]

section Encode

variable [DecidableEq S]

/-- A value has as many words as its type says. -/
theorem Value.length_encode (table : List S) (value : Value S) :
    (value.encode table).1.length = value.kind.width := by
  cases value <;> rfl

theorem length_words_encodeAll (table : List S) (values : List (Value S)) :
    (encodeAll table values).1.length = (values.map fun value => value.kind.width).sum := by
  induction values generalizing table with
  | nil => rfl
  | cons value values ih =>
      simp only [encodeAll, List.length_append, ih, List.map_cons, List.sum_cons,
        value.length_encode]

/-- A table only grows at its end. -/
theorem prefix_addString (table : List S) (value : Option S) :
    table <+: (StreamWriter.addString table value).2 := by
  cases value with
  | none => exact List.prefix_refl table
  | some string =>
      simp only [StreamWriter.addString]
      split
      · exact List.prefix_refl table
      · exact List.prefix_append table [string]

theorem Value.prefix_encode (table : List S) (value : Value S) :
    table <+: (value.encode table).2 := by
  cases value
  case string value => exact prefix_addString table value
  all_goals exact List.prefix_refl table

theorem prefix_encodeAll (table : List S) (values : List (Value S)) :
    table <+: (encodeAll table values).2 := by
  induction values generalizing table with
  | nil => exact List.prefix_refl table
  | cons value values ih => exact (value.prefix_encode table).trans (ih _)

/-- And by one string at most for a word. -/
theorem length_encodeAll (table : List S) (values : List (Value S)) :
    (encodeAll table values).2.length ≤ table.length + (encodeAll table values).1.length := by
  induction values generalizing table with
  | nil => exact Nat.le_refl _
  | cons value values ih =>
      have first : (value.encode table).2.length ≤
          table.length + (value.encode table).1.length := by
        cases value
        case string value =>
          cases value with
          | none => exact Nat.le_succ _
          | some string =>
              simp only [Value.encode, StreamWriter.addString]
              split <;> simp
        all_goals simp [Value.encode]
      have rest := ih (value.encode table).2
      simp only [encodeAll, List.length_append]
      omega

/-- The table holds what it held before and the strings among the values. -/
theorem mem_encodeAll {table : List S} {values : List (Value S)} {string : S} :
    string ∈ (encodeAll table values).2 ↔ string ∈ table ∨ .string (some string) ∈ values := by
  induction values generalizing table with
  | nil => simp [encodeAll]
  | cons value values ih =>
      have first : string ∈ (value.encode table).2 ↔
          string ∈ table ∨ .string (some string) = value := by
        cases value
        case string value =>
          cases value with
          | none => simp [Value.encode, StreamWriter.addString]
          | some other =>
              simp only [Value.encode, StreamWriter.addString, Value.string.injEq,
                Option.some.injEq]
              split
              · rename_i known
                exact ⟨Or.inl, fun either => either.elim id fun same => same ▸ known⟩
              · rw [List.mem_append, List.mem_singleton]
        all_goals simp [Value.encode]
      simp only [encodeAll, ih, first, List.mem_cons, or_assoc]

/-- Writing one sequence after another. -/
theorem encodeAll_append (table : List S) (front back : List (Value S)) :
    (encodeAll table (front ++ back)).2 = (encodeAll (encodeAll table front).2 back).2 := by
  induction front generalizing table with
  | nil => rfl
  | cons value front ih => exact ih (value.encode table).2

/-- Known strings are not added again. -/
theorem encodeAll_of_known {table : List S} {values : List (Value S)}
    (known : ∀ string, .string (some string) ∈ values → string ∈ table) :
    (encodeAll table values).2 = table := by
  induction values with
  | nil => rfl
  | cons value values ih =>
      have first : (value.encode table).2 = table := by
        cases value
        case string value =>
          cases value with
          | none => rfl
          | some string =>
              have inTable := known string List.mem_cons_self
              simp only [Value.encode, StreamWriter.addString, if_pos inTable]
        all_goals rfl
      simp only [encodeAll, first]
      exact ih fun string later => known string (List.mem_cons_of_mem _ later)

/-- What holds of all strings in a fresh writer's table. -/
theorem forall_mem_encodeAll {values : List (Value S)} {P : S → Prop} :
    (∀ string ∈ (encodeAll [] values).2, P string) ↔
      ∀ string, .string (some string) ∈ values → P string := by
  simp only [mem_encodeAll, List.not_mem_nil, false_or]

omit [DecidableEq S] in
/-- The string under the index of a position. -/
theorem stringAt_ofNat {strings : List S} (bounded : strings.length < 2 ^ 31) {position : Nat}
    (bound : position < strings.length) :
    stringAt strings (BitVec.ofNat 32 (position + 1)) = some strings[position] := by
  have inRange : position + 1 < 2 ^ 31 := by omega
  have positive : (0 : JInt).slt (BitVec.ofNat 32 (position + 1)) = true := by
    rw [BitVec.slt_iff_toInt_lt, toInt_ofNat_of_lt inRange]
    exact Int.natCast_pos.mpr (Nat.succ_pos position)
  rw [stringAt, if_pos positive, toNat_ofNat_of_lt inRange, Nat.add_sub_cancel,
    List.getElem?_eq_getElem bound]

/-- The index of a string leads back to it in any longer table. -/
theorem stringAt_addString {table strings : List S} {value : Option S}
    (longer : (StreamWriter.addString table value).2 <+: strings)
    (bounded : strings.length < 2 ^ 31) :
    stringAt strings (StreamWriter.addString table value).1 = value := by
  cases value with
  | none => rfl
  | some string =>
      simp only [StreamWriter.addString] at longer ⊢
      split at longer
      · rename_i known
        have inTable := List.idxOf_lt_length_of_mem known
        rw [if_pos known, stringAt_ofNat bounded (inTable.trans_le longer.length_le),
          ← longer.getElem inTable, List.getElem_idxOf]
      · rename_i unknown
        have inTable : table.length < (table ++ [string]).length := by simp
        rw [if_neg unknown, stringAt_ofNat bounded (inTable.trans_le longer.length_le),
          ← longer.getElem inTable, List.getElem_concat_length rfl]

/-- What is read first is what was written first. -/
theorem Value.decode_encode {table strings : List S} {value : Value S} (rest : List Word)
    (longer : (value.encode table).2 <+: strings) (bounded : strings.length < 2 ^ 31) :
    value.kind.decode strings ((value.encode table).1 ++ rest) = some (value, rest) := by
  cases value with
  | int value => rfl
  | boolean value => cases value <;> rfl
  | byte value => simp [Value.kind, Value.encode, Kind.decode, setWidth_signExtend]
  | char value => simp [Value.kind, Value.encode, Kind.decode]
  | short value => simp [Value.kind, Value.encode, Kind.decode, setWidth_signExtend]
  | long value => simp [Value.kind, Value.encode, Kind.decode, joinLong_splitLong]
  | float value => simp [Value.kind, Value.encode, Kind.decode]
  | double value =>
      simp [Value.kind, Value.encode, Kind.decode, joinLong_splitLong,
        longBitsToDouble_doubleToLongBits]
  | string value =>
      simp only [Value.kind, Value.encode, List.cons_append, List.nil_append, Kind.decode]
      rw [stringAt_addString longer bounded]

/-- A sequence of values is read back from its words. -/
theorem decodeAll_encodeAll {table strings : List S} {values : List (Value S)}
    (rest : List Word) (longer : (encodeAll table values).2 <+: strings)
    (bounded : strings.length < 2 ^ 31) :
    decodeAll strings (values.map Value.kind) ((encodeAll table values).1 ++ rest) =
      some (values, rest) := by
  induction values generalizing table with
  | nil => rfl
  | cons value values ih =>
      have first := value.decode_encode ((encodeAll (value.encode table).2 values).1 ++ rest)
        ((prefix_encodeAll _ values).trans longer) bounded
      have later := @ih (value.encode table).2 longer
      simp only [List.map_cons, encodeAll, List.append_assoc, decodeAll, first,
        Option.bind_eq_bind, Option.bind_some, later]
      rfl

end Encode

end WebbitGwt.Stream
