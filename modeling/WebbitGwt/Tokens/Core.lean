import Mathlib.Data.List.Basic

/-!
# Streams of tokens

A writer adds tokens to the end of a stream, and a reader takes tokens from the front of
one.  A writer and a reader agree on a value if the tokens that are written for it are those
that the reader takes, no more and no less, whatever stands before or after them.  The rules
follow the structure of writers and readers, so that an agreement is proved piece by piece.
-/

namespace WebbitGwt.Tokens

universe u v

/-- Adds tokens to those that have been written, or fails. -/
abbrev TokenWriter (ε : Type v) (T : Type u) := StateT (List T) (Except ε)

/-- Takes a value from the front of the tokens, if they begin with one. -/
abbrev TokenReader (T : Type u) := StateT (List T) Option

variable {ε : Type v} {T α β : Type u}

/-- Write one token. -/
def put (token : T) : TokenWriter ε T PUnit :=
  fun before => .ok (⟨⟩, before ++ [token])

/-- Read one token, of the kind that is decoded. -/
def take (decode : T → Option α) : TokenReader T α
  | [] => none
  | token :: rest => (decode token).map fun value => (value, rest)

/-- A loop over the elements of a list, writing each. -/
def writeEach (write : α → TokenWriter ε T PUnit) : List α → TokenWriter ε T PUnit
  | [] => pure ⟨⟩
  | value :: values => do
      write value
      writeEach write values

/-- A counted loop that collects what is read. -/
def readTimes (read : TokenReader T α) : Nat → TokenReader T (List α)
  | 0 => pure []
  | count + 1 => do
      let value ← read
      let values ← readTimes read count
      return value :: values

/-- The writer succeeds and adds just these tokens, whatever has been written before. -/
def Writes (write : TokenWriter ε T PUnit) (tokens : List T) : Prop :=
  ∀ before, write before = .ok (⟨⟩, before ++ tokens)

/-- The writer fails, whatever has been written before. -/
def Fails (write : TokenWriter ε T PUnit) (exception : ε) : Prop :=
  ∀ before, write before = .error exception

/-- The reader takes just these tokens and returns the value, whatever follows. -/
def Reads (read : TokenReader T α) (tokens : List T) (value : α) : Prop :=
  ∀ rest, read (tokens ++ rest) = some (value, rest)

/-- What is written is read, and frames itself. -/
def RoundTrips (write : TokenWriter ε T PUnit) (read : TokenReader T α) (value : α) : Prop :=
  ∃ tokens, Writes write tokens ∧ Reads read tokens value

/-! ## Writing -/

section

variable {first second : TokenWriter ε T PUnit} {front back : List T} {exception : ε}

theorem Writes.pure : Writes (pure ⟨⟩ : TokenWriter ε T PUnit) [] := by
  intro before
  rw [List.append_nil]
  rfl

theorem Writes.put (token : T) : Writes (put token : TokenWriter ε T PUnit) [token] :=
  fun _ => rfl

/-- Writing one thing after the other. -/
theorem Writes.seq (firstWrites : Writes first front) (secondWrites : Writes second back) :
    Writes (first >>= fun _ => second) (front ++ back) := by
  intro before
  simp only [bind, StateT.bind, firstWrites before, Except.bind]
  rw [secondWrites, List.append_assoc]

/-- What is written in each turn of a loop is written one after the other. -/
theorem Writes.each {write : α → TokenWriter ε T PUnit} {encode : α → List T}
    {values : List α} (writes : ∀ value ∈ values, Writes (write value) (encode value)) :
    Writes (writeEach write values) (values.flatMap encode) := by
  induction values with
  | nil => exact Writes.pure
  | cons value values ih =>
      rw [List.flatMap_cons]
      apply Writes.seq
      · exact writes value List.mem_cons_self
      · exact ih fun later isLater => writes later (List.mem_cons_of_mem value isLater)

theorem Fails.throw (exception : ε) : Fails (throw exception : TokenWriter ε T PUnit) exception :=
  fun _ => rfl

/-- A failure later on. -/
theorem Writes.seq_fails (firstWrites : Writes first front) (secondFails : Fails second exception) :
    Fails (first >>= fun _ => second) exception := by
  intro before
  simp only [bind, StateT.bind, firstWrites before, Except.bind]
  exact secondFails _

theorem Fails.not_writes (fails : Fails first exception) : ¬ Writes first front := by
  intro writes
  have failed := fails []
  rw [writes []] at failed
  cases failed

end

/-! ## Reading -/

section

variable {read : TokenReader T α} {front back : List T} {value : α} {result : β}

theorem Reads.pure (value : α) : Reads (pure value : TokenReader T α) [] value :=
  fun _ => rfl

theorem Reads.take {decode : T → Option α} {token : T} (decodes : decode token = some value) :
    Reads (take decode) [token] value := by
  intro rest
  rw [List.singleton_append, Tokens.take, decodes]
  rfl

/-- Reading one thing after the other, where what has been read says how to go on. -/
theorem Reads.seq {next : α → TokenReader T β} (firstReads : Reads read front value)
    (nextReads : Reads (next value) back result) :
    Reads (read >>= next) (front ++ back) result := by
  intro rest
  simp only [bind, StateT.bind]
  rw [List.append_assoc, firstReads]
  exact nextReads rest

/-- Returning something made of what has been read last. -/
theorem Reads.map (reads : Reads read front value) (make : α → β) :
    Reads (read >>= fun value => Pure.pure (make value)) front (make value) := by
  rw [← List.append_nil front]
  exact reads.seq (Reads.pure (make value))

/-- A loop with as many turns as there are values. -/
theorem Reads.times {encode : α → List T} {values : List α}
    (reads : ∀ value ∈ values, Reads read (encode value) value) :
    Reads (readTimes read values.length) (values.flatMap encode) values := by
  induction values with
  | nil => exact Reads.pure []
  | cons value values ih =>
      have others := ih fun later isLater => reads later (List.mem_cons_of_mem value isLater)
      rw [List.flatMap_cons]
      apply Reads.seq (reads value List.mem_cons_self)
      exact others.map (value :: ·)

end

theorem Fails.not_roundTrips {write : TokenWriter ε T PUnit} {read : TokenReader T α} {value : α}
    {exception : ε} (fails : Fails write exception) : ¬ RoundTrips write read value := by
  rintro ⟨tokens, writes, _⟩
  exact fails.not_writes writes

end WebbitGwt.Tokens
