import Mathlib.Data.List.GetD
import WebbitGwt.Pako.Deflate
import WebbitGwt.Pako.Inflate
import WebbitGwt.Transition.Transducer

/-!
# Blocks

The part of zlib's `inflate` that decodes blocks can be left wherever input or room is
missing, which makes it a machine that is run piece by piece.  Every such machine does
what `inflate` relies on.  The machine here is the one for stored blocks and for blocks
with the fixed codes.
-/

namespace WebbitGwt.Pako

open WebbitGwt.Java
open WebbitGwt.Nio
open WebbitGwt.Transition

/-! ## Machines that decode blocks -/

section Machine

variable (machine : Transducer.{0, 0, 0, 0} Byte Byte String) (perByte : Nat)
  (bounded : ∀ {state byte next output}, machine.step state byte = .ok (next, output) →
    output.length ≤ perByte)

/-- Why the decoding stops. -/
def stopOf : Transducer.Halt String → Stop
  | .full => .needs
  | .exhausted => .needs
  | .final => .done
  | .refused msg => .bad msg

/-- A machine, run on the input that is left and with the room there is.  What does not
fit into the output is put out at the next call. -/
def runBlocks (state : machine.State × List Byte) (input : List Byte) (left : Nat) :
    Inflated (machine.State × List Byte) :=
  let result := machine.run state.1 state.2 input left
  { state := (result.state, result.held)
    size := result.size
    produced := result.written
    stop := stopOf result.halt }

/-- The machine has read this, and put out that. -/
def DecodesBlocks (state : machine.State × List Byte) (taken produced : List Byte) : Prop :=
  machine.drive machine.start taken = .ok (state.1, produced ++ state.2)

variable {machine}

/-- A run goes on from where the last one stopped. -/
theorem DecodesBlocks.run {state : machine.State × List Byte} {taken produced : List Byte}
    (decodes : DecodesBlocks machine state taken produced) (input : List Byte) (left : Nat) :
    DecodesBlocks machine (runBlocks machine state input left).state
      (taken ++ input.take (runBlocks machine state input left).size)
      (produced ++ (runBlocks machine state input left).produced) := by
  rcases (Transducer.runs state.1 state.2 input left).drives with ⟨output, drives, written⟩
  have both := Transducer.drive_append decodes drives
  rw [List.append_assoc, written, ← List.append_assoc] at both
  exact both

/-- The input up to somewhere, and an accepted input that is comparable with all of it. -/
theorem comparable_take {taken input written : List Byte} (size : Nat)
    (comparable : taken ++ input <+: written ∨ written <+: taken ++ input) :
    taken ++ input.take size <+: written ∨ written <+: taken ++ input.take size := by
  have shorter : taken ++ input.take size <+: taken ++ input :=
    (List.prefix_append_right_inj taken).mpr (List.take_prefix size input)
  rcases comparable with isPrefix | longer
  · exact Or.inl (shorter.trans isPrefix)
  · exact List.prefix_or_prefix_of_prefix shorter longer

section Laws

variable {state : machine.State × List Byte} {taken produced written whole : List Byte}
  (decodes : DecodesBlocks machine state taken produced) (accepts : machine.Accepts written whole)
  (input : List Byte) (left : Nat)
  (comparable : taken ++ input <+: written ∨ written <+: taken ++ input)

include decodes accepts comparable

/-- Input that belongs to an accepted input is not refused. -/
theorem runBlocks_not_bad (msg : String) :
    (runBlocks machine state input left).stop ≠ .bad msg := by
  intro isBad
  have after := decodes.run input left
  have halts := (Transducer.runs state.1 state.2 input left).halts
  simp only [runBlocks] at isBad after
  generalize machine.run state.1 state.2 input left = result at *
  rcases result with ⟨next, held, size, fresh, halt⟩
  cases halt with
  | refused reason =>
      rcases halts with ⟨notFinal, byte, isNext, refuses⟩
      dsimp only at notFinal isNext refuses after
      have isPart := accepts.of_comparable after (comparable_take size comparable)
      have missing : ¬written <+: taken ++ input.take size := fun longer =>
        Bool.false_ne_true (notFinal.symm.trans (isPart.2.2.2 longer))
      have further : taken ++ input.take (size + 1) <+: written := by
        rcases comparable_take (size + 1) comparable with isPrefix | longer
        · exact isPrefix
        · rw [List.take_add_one, isNext, Option.toList_some, ← List.append_assoc,
            List.prefix_concat_iff] at longer
          rcases longer with same | longer
          · rw [same, List.take_add_one, isNext, Option.toList_some, List.append_assoc]
          · exact absurd longer missing
      rcases further with ⟨more, rfl⟩
      rcases accepts with ⟨last, drives, _⟩
      rw [List.take_add_one, isNext, Option.toList_some, ← List.append_assoc, List.append_assoc]
        at drives
      rcases Transducer.exists_drive_of_append drives with
        ⟨middle, before, behind, drivesFirst, rest, _⟩
      cases after.symm.trans drivesFirst
      rcases Transducer.drive_cons_eq_ok rest with ⟨_, _, _, step, _⟩
      cases refuses.symm.trans step
  | full => cases isBad
  | exhausted => cases isBad
  | final => cases isBad

/-- It stops where the accepted input ends. -/
theorem runBlocks_done (isDone : (runBlocks machine state input left).stop = .done) :
    taken ++ input.take (runBlocks machine state input left).size = written ∧
      produced ++ (runBlocks machine state input left).produced = whole := by
  have after := decodes.run input left
  have halts := (Transducer.runs state.1 state.2 input left).halts
  simp only [runBlocks] at isDone after ⊢
  generalize machine.run state.1 state.2 input left = result at *
  rcases result with ⟨next, held, size, fresh, halt⟩
  cases halt with
  | final =>
      rcases halts with ⟨isFinal, nothing⟩
      dsimp only at isFinal nothing after
      have isPart := accepts.of_comparable after (comparable_take size comparable)
      rw [nothing, List.append_nil] at isPart
      exact isPart.2.2.1 isFinal
  | full => cases isDone
  | exhausted => cases isDone
  | refused reason => cases isDone

/-- Before that, it stops for lack of room or of input. -/
theorem runBlocks_needs (needs : (runBlocks machine state input left).stop = .needs) :
    DecodesBlocks machine (runBlocks machine state input left).state
        (taken ++ input.take (runBlocks machine state input left).size)
        (produced ++ (runBlocks machine state input left).produced) ∧
      taken ++ input.take (runBlocks machine state input left).size <+: written ∧
      produced ++ (runBlocks machine state input left).produced <+: whole ∧
      ((runBlocks machine state input left).produced.length = left ∨
        (runBlocks machine state input left).size = input.length ∧
          ¬written <+: taken ++ input) := by
  have after := decodes.run input left
  have halts := (Transducer.runs state.1 state.2 input left).halts
  refine ⟨after, ?_⟩
  simp only [runBlocks] at needs after ⊢
  generalize machine.run state.1 state.2 input left = result at *
  rcases result with ⟨next, held, size, fresh, halt⟩
  have isPart := accepts.of_comparable after (comparable_take size comparable)
  rw [DecodesBlocks] at after
  refine ⟨isPart.1, (List.prefix_append _ _).trans isPart.2.1, ?_⟩
  cases halt with
  | full => exact Or.inl halts
  | exhausted =>
      rcases halts with ⟨all, notFinal, _⟩
      dsimp only at all notFinal isPart
      refine Or.inr ⟨all, fun longer => ?_⟩
      rw [all, List.take_length] at isPart
      exact Bool.false_ne_true (notFinal.symm.trans (isPart.2.2.2 longer))
  | final => cases needs
  | refused reason => cases needs

end Laws

include bounded in
/-- There is no more output than the input that is read gives reason for. -/
theorem length_drive_le {state last : machine.State} {input output : List Byte}
    (drives : machine.drive state input = .ok (last, output)) :
    output.length ≤ perByte * input.length := by
  induction input generalizing state output with
  | nil =>
      cases drives
      exact Nat.le_refl _
  | cons byte bytes ih =>
      rcases Transducer.drive_cons_eq_ok drives with ⟨middle, first, second, step, rest, rfl⟩
      have here := bounded step
      have there := ih rest
      rw [List.length_append, List.length_cons, Nat.mul_succ]
      omega

variable (machine)

/-- Code that decodes blocks. -/
def Inflater.ofMachine : Inflater machine.Accepts where
  State := machine.State × List Byte
  start := (machine.start, [])
  func := runBlocks machine
  Decodes := DecodesBlocks machine
  decodes_start := rfl
  fits_func state input left := (Transducer.runs state.1 state.2 input left).fits
  not_bad_func decodes accepts _ _ input left comparable :=
    runBlocks_not_bad decodes accepts input left comparable
  done_func decodes accepts _ _ input left comparable :=
    runBlocks_done decodes accepts input left comparable
  needs_func decodes accepts _ _ input left comparable :=
    runBlocks_needs decodes accepts input left comparable
  work state := state.2.length
  perByte := perByte
  work_func := by
    intro state input left
    have runs := Transducer.runs state.1 state.2 input left
    rcases runs.drives with ⟨output, drives, written⟩
    have size := runs.fits.1
    have bound := length_drive_le perByte bounded drives
    have lengths := congrArg List.length written
    rw [List.length_append, List.length_append] at lengths
    rw [List.length_take_of_le size] at bound
    have split : perByte * (machine.run state.1 state.2 input left).size +
        perByte * (input.length - (machine.run state.1 state.2 input left).size) =
        perByte * input.length := by
      rw [← Nat.mul_add, Nat.add_sub_cancel' size]
    simp only [runBlocks]
    omega

end Machine

/-! ## Stored blocks and fixed codes -/

/-- The bits of a byte, the lowest of them first. -/
def lowFirst (byte : Byte) : List Bool :=
  (List.range 8).map byte.getLsbD

/-- The number that a code is, the highest bit of it first. -/
def codeNumber (bits : List Bool) : Nat :=
  bits.foldl (fun number bit => 2 * number + bit.toNat) 0

/-- The symbol of the fixed literal/length code in front of some bits, if it is all there.
144 symbols have 8 bits, the next 112 have 9, then 24 have 7 and 8 have 8. -/
def fixedSymbol (bits : List Bool) : Option (Nat × List Bool) :=
  let seven := codeNumber (bits.take 7)
  let eight := codeNumber (bits.take 8)
  let nine := codeNumber (bits.take 9)
  if 7 ≤ bits.length ∧ seven < 0x18 then
    some (256 + seven, bits.drop 7)
  else if 8 ≤ bits.length ∧ 0x30 ≤ eight ∧ eight < 0xc0 then
    some (eight - 0x30, bits.drop 8)
  else if 8 ≤ bits.length ∧ 0xc0 ≤ eight ∧ eight < 0xc8 then
    some (280 + eight - 0xc0, bits.drop 8)
  else if 9 ≤ bits.length ∧ 0x190 ≤ nine then
    some (144 + nine - 0x190, bits.drop 9)
  else
    none

/-- Length codes 257..285, base -/
def lbase : List Nat :=
  [3, 4, 5, 6, 7, 8, 9, 10, 11, 13, 15, 17, 19, 23, 27, 31,
    35, 43, 51, 59, 67, 83, 99, 115, 131, 163, 195, 227, 258, 0, 0]

/-- Length codes 257..285, extra -/
def lext : List Nat :=
  [16, 16, 16, 16, 16, 16, 16, 16, 17, 17, 17, 17, 18, 18, 18, 18,
    19, 19, 19, 19, 20, 20, 20, 20, 21, 21, 21, 21, 16, 72, 78]

/-- Distance codes 0..29, base -/
def dbase : List Nat :=
  [1, 2, 3, 4, 5, 7, 9, 13, 17, 25, 33, 49, 65, 97, 129, 193,
    257, 385, 513, 769, 1025, 1537, 2049, 3073, 4097, 6145,
    8193, 12289, 16385, 24577, 0, 0]

/-- Distance codes 0..29, extra -/
def dext : List Nat :=
  [16, 16, 16, 16, 17, 17, 18, 18, 19, 19, 20, 20, 21, 21, 22, 22,
    23, 23, 24, 24, 25, 25, 26, 26, 27, 27,
    28, 28, 29, 29, 64, 64]

/-- What the next code is, if it is all there. -/
inductive Code.Next
  | missing
  | invalid (msg : String)
  | literal (byte : Byte) (rest : List Bool)
  | endOfBlock (rest : List Bool)
  | copy (length offset : Nat) (rest : List Bool)

/-- A base and as many more bits as `op` says. -/
def withExtra (base op : Nat) (bits : List Bool) : Option (Nat × List Bool) :=
  let extra := op &&& 15
  if bits.length < extra then
    none
  else
    some (base + packByte (bits.take extra), bits.drop extra)

/-- `DIST` and `DISTEXT` -/
def readDistance (length : Nat) (bits : List Bool) : Code.Next :=
  if bits.length < 5 then
    .missing
  else
    let symbol := codeNumber (bits.take 5)
    let op := dext.getD symbol 64
    if op &&& 64 ≠ 0 then
      .invalid "invalid distance code"
    else
      match withExtra (dbase.getD symbol 0) op (bits.drop 5) with
      | none => .missing
      | some (offset, rest) => .copy length offset rest

/-- `LEN` and `LENEXT`, and what comes behind a length. -/
def readCode (bits : List Bool) : Code.Next :=
  match fixedSymbol bits with
  | none => .missing
  | some (symbol, rest) =>
      if symbol < 256 then
        .literal (BitVec.ofNat 8 symbol) rest
      else if symbol = 256 then
        .endOfBlock rest
      else
        let op := lext.getD (symbol - 257) 64
        if op &&& 64 ≠ 0 then
          .invalid "invalid literal/length code"
        else
          match withExtra (lbase.getD (symbol - 257) 0) op rest with
          | none => .missing
          | some (length, rest) => readDistance length rest

/-- `MATCH`: byte by byte, so that what is copied may reach into the copy. -/
def copyMatch (window : List Byte) (offset : Nat) : Nat → List Byte
  | 0 => []
  | length + 1 =>
      let byte := window.getD (window.length - offset) 0
      byte :: copyMatch (window ++ [byte]) offset length

/-- Where the decoding of blocks is: `TYPE`, `STORED`, `COPY`, `LEN`; or behind the last
block. -/
inductive Place
  | type
  | stored (last : Bool) (lengths : List Byte)
  | copy (last : Bool) (length : Nat)
  | len (last : Bool)
  | done
  deriving DecidableEq

/-- The state of the decoding: the bits of a byte that are left, and what has come out. -/
structure Decoding where
  place : Place
  bits : List Bool
  window : List Byte
  deriving DecidableEq

/-- After a block. -/
def Place.after (last : Bool) : Place :=
  if last then .done else .type

/-- At a stored block. -/
def Place.copying (last : Bool) (length : Nat) : Place :=
  if length = 0 then .after last else .copy last length

/-- Headers and codes, as far as the bits reach; there is fuel for so many. -/
def decodeBits : Nat → Place → List Byte → List Bool → Except String (Decoding × List Byte)
  | 0, place, window, bits => .ok ({ place, bits, window }, [])
  | fuel + 1, .type, window, bits =>
      match bits with
      | last :: low :: high :: rest =>
          if low = false ∧ high = false then
            .ok ({ place := .stored last [], bits := [], window }, [])
          else if low = true ∧ high = false then
            decodeBits fuel (.len last) window rest
          else if low = false ∧ high = true then
            -- codes that come with the block are left out
            .error "dynamic codes"
          else
            .error "invalid block type"
      | _ => .ok ({ place := .type, bits, window }, [])
  | fuel + 1, .len last, window, bits =>
      match readCode bits with
      | .missing => .ok ({ place := .len last, bits, window }, [])
      | .invalid msg => .error msg
      | .endOfBlock rest => decodeBits fuel (.after last) window rest
      | .literal byte rest =>
          (decodeBits fuel (.len last) (window ++ [byte]) rest).map fun next =>
            (next.1, byte :: next.2)
      | .copy length offset rest =>
          if window.length < offset then
            .error "invalid distance too far back"
          else
            let bytes := copyMatch window offset length
            (decodeBits fuel (.len last) (window ++ bytes) rest).map fun next =>
              (next.1, bytes ++ next.2)
  | _ + 1, place, window, _ => .ok ({ place, bits := [], window }, [])

/-- One more byte.  It makes four codes or headers at most. -/
def Decoding.step (state : Decoding) (byte : Byte) :
    Except String (Decoding × List Byte) :=
  match state.place with
  | .stored last lengths =>
      match lengths ++ [byte] with
      | [low, high, lowComplement, highComplement] =>
          let length := low.toNat + high.toNat <<< 8
          if length ≠ (lowComplement.toNat + highComplement.toNat <<< 8) ^^^ 0xffff then
            .error "invalid stored block lengths"
          else
            .ok ({ state with place := .copying last length }, [])
      | lengths => .ok ({ state with place := .stored last lengths }, [])
  | .copy last length =>
      .ok ({ state with place := .copying last (length - 1), window := state.window ++ [byte] },
        [byte])
  | .done => .error "no block"
  | place => decodeBits 4 place state.window (state.bits ++ lowFirst byte)

/-- The machine. -/
def blocks : Transducer Byte Byte String where
  State := Decoding
  start := { place := .type, bits := [], window := [] }
  step := Decoding.step
  final state := state.place == .done
  step_final := by
    rintro ⟨place, bits, window⟩ byte isDone
    obtain rfl : place = .done := by simpa using isDone
    exact ⟨_, rfl⟩

instance : DecidableEq blocks.State :=
  inferInstanceAs (DecidableEq Decoding)

/-! ## Every byte makes few -/

theorem packByte_lt (bits : List Bool) : packByte bits < 2 ^ bits.length := by
  induction bits with
  | nil => exact Nat.one_pos
  | cons bit bits ih =>
      have low : bit.toNat < 2 := bit.toNat_lt
      rw [packByte, List.length_cons, Nat.pow_succ]
      omega

/-- No length is more than 258. -/
theorem length_le {symbol : Nat} {bits rest : List Bool} {length : Nat}
    (valid : (lext.getD symbol 64) &&& 64 = 0)
    (reads : withExtra (lbase.getD symbol 0) (lext.getD symbol 64) bits = some (length, rest)) :
    length ≤ 258 := by
  have table : ∀ symbol < 31, lext.getD symbol 64 &&& 64 = 0 →
      lbase.getD symbol 0 + 2 ^ (lext.getD symbol 64 &&& 15) ≤ 259 := by decide
  have inTable : symbol < 31 := by
    by_contra outside
    rw [List.getD_eq_default _ _ (Nat.le_of_not_lt outside)] at valid
    exact absurd valid (by decide)
  have bound := table symbol inTable valid
  rw [withExtra] at reads
  split at reads
  · cases reads
  · cases reads
    have more := packByte_lt (bits.take (lext.getD symbol 64 &&& 15))
    rw [List.length_take_of_le (by omega)] at more
    omega

theorem length_copyMatch (window : List Byte) (offset length : Nat) :
    (copyMatch window offset length).length = length := by
  induction length generalizing window with
  | zero => rfl
  | succ length ih => rw [copyMatch, List.length_cons, ih]

theorem readDistance_length {length other offset : Nat} {bits rest : List Bool}
    (reads : readDistance length bits = .copy other offset rest) : other = length := by
  rw [readDistance] at reads
  dsimp only at reads
  repeat' split at reads
  all_goals cases reads
  rfl

theorem readCode_length {bits rest : List Bool} {length offset : Nat}
    (reads : readCode bits = .copy length offset rest) : length ≤ 258 := by
  rw [readCode] at reads
  cases symbol : fixedSymbol bits with
  | none =>
      rw [symbol] at reads
      cases reads
  | some found =>
      rcases found with ⟨number, behind⟩
      simp only [symbol] at reads
      split at reads
      · cases reads
      · split at reads
        · cases reads
        · split at reads
          · cases reads
          · rename_i valid
            split at reads
            · cases reads
            · rename_i extended
              cases readDistance_length reads
              exact length_le (not_not.mp valid) extended

/-- `more` is put in front of what comes out behind it. -/
theorem map_append_eq_ok {next : Decoding} (more : List Byte) {output : List Byte}
    {result : Except String (Decoding × List Byte)}
    (maps : (result.map fun next => (next.1, more ++ next.2)) = .ok (next, output)) :
    ∃ others, result = .ok (next, others) ∧ output = more ++ others := by
  cases result with
  | error msg => cases maps
  | ok found =>
      cases maps
      exact ⟨found.2, rfl, rfl⟩

/-- So there are few bytes in a few codes. -/
theorem length_decodeBits {fuel : Nat} {place : Place} {window : List Byte} {bits : List Bool}
    {next : Decoding} {output : List Byte}
    (decodes : decodeBits fuel place window bits = .ok (next, output)) :
    output.length ≤ fuel * 258 := by
  induction fuel generalizing place window bits next output with
  | zero =>
      cases decodes
      exact Nat.le_refl 0
  | succ fuel ih =>
      rw [Nat.succ_mul]
      cases place with
      | type =>
          rcases bits with _ | ⟨last, _ | ⟨low, _ | ⟨high, rest⟩⟩⟩
          · cases decodes
            exact Nat.zero_le _
          · cases decodes
            exact Nat.zero_le _
          · cases decodes
            exact Nat.zero_le _
          · rw [decodeBits] at decodes
            split at decodes
            · cases decodes
              exact Nat.zero_le _
            · split at decodes
              · exact (ih decodes).trans (Nat.le_add_right _ _)
              · split at decodes <;> cases decodes
      | len last =>
          rw [decodeBits] at decodes
          cases code : readCode bits with
          | missing =>
              rw [code] at decodes
              cases decodes
              exact Nat.zero_le _
          | invalid msg =>
              rw [code] at decodes
              cases decodes
          | endOfBlock rest =>
              rw [code] at decodes
              exact (ih decodes).trans (Nat.le_add_right _ _)
          | literal byte rest =>
              rw [code] at decodes
              rcases map_append_eq_ok [byte] decodes with ⟨others, rest, rfl⟩
              have bound := ih rest
              rw [List.length_append, List.length_singleton]
              omega
          | copy length offset rest =>
              rw [code] at decodes
              have short := readCode_length code
              dsimp only at decodes
              split at decodes
              · cases decodes
              · rcases map_append_eq_ok _ decodes with ⟨others, rest, rfl⟩
                have bound := ih rest
                rw [List.length_append, length_copyMatch]
                omega
      | stored last lengths =>
          cases decodes
          exact Nat.zero_le _
      | copy last length =>
          cases decodes
          exact Nat.zero_le _
      | done =>
          cases decodes
          exact Nat.zero_le _

theorem length_step {state next : Decoding} {byte : Byte} {output : List Byte}
    (step : blocks.step state byte = .ok (next, output)) : output.length ≤ 4 * 258 := by
  rcases state with ⟨place, bits, window⟩
  cases place with
  | type => exact length_decodeBits step
  | len last => exact length_decodeBits step
  | stored last lengths =>
      simp only [blocks, Decoding.step] at step
      split at step
      · split at step <;> cases step
        exact Nat.zero_le _
      · cases step
        exact Nat.zero_le _
  | copy last length =>
      cases step
      exact Nat.le_of_lt (by decide : 1 < 4 * 258)
  | done => cases step

/-- `inflate`, if there are no other blocks. -/
def storedAndFixed : Inflater blocks.Accepts :=
  .ofMachine blocks (4 * 258) length_step

/-- Every byte in a stored block of its own, and an empty block behind them. -/
def storedBlocks : List Byte → List Byte
  | [] => [0x01, 0x00, 0x00, 0xff, 0xff]
  | byte :: bytes => [0x00, 0x01, 0x00, 0xfe, 0xff, byte] ++ storedBlocks bytes

theorem length_storedBlocks (bytes : List Byte) :
    (storedBlocks bytes).length = 6 * bytes.length + 5 := by
  induction bytes with
  | nil => rfl
  | cons byte bytes ih =>
      rw [storedBlocks, List.length_append, ih, List.length_cons, List.length_cons]
      simp only [List.length_cons, List.length_nil]
      omega

theorem drive_storedBlocks (window bytes : List Byte) :
    blocks.drive { place := .type, bits := [], window } (storedBlocks bytes) =
      .ok ({ place := .done, bits := [], window := window ++ bytes }, bytes) := by
  induction bytes generalizing window with
  | nil =>
      rw [List.append_nil]
      rfl
  | cons byte bytes ih =>
      have one : blocks.drive { place := .type, bits := [], window }
          [0x00, 0x01, 0x00, 0xfe, 0xff, byte] =
          .ok ({ place := .type, bits := [], window := window ++ [byte] }, [byte]) := rfl
      have others := ih (window ++ [byte])
      rw [List.append_assoc] at others
      exact Transducer.drive_append one others

theorem accepts_storedBlocks (bytes : List Byte) : blocks.Accepts (storedBlocks bytes) bytes :=
  ⟨_, drive_storedBlocks [] bytes, rfl⟩

end WebbitGwt.Pako
