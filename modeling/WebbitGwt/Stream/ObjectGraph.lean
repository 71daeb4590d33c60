import Mathlib.Algebra.BigOperators.Group.Finset.Basic
import Mathlib.Algebra.Order.BigOperators.Group.Finset
import Mathlib.Data.List.GetD
import Mathlib.Tactic.FinCases
import WebbitGwt.Stream.ObjectRoundTrip

/-!
# Object graphs between workers

The objects that a reader builds are an isomorphic copy of the graph that was
written: of what can be reached from the roots, with sharing and cycles.
-/

namespace WebbitGwt.Stream

open WebbitGwt.Java
open WebbitGwt.Nio
open WebbitGwt.Graph

variable {C S R : Type} {serializer : Serializer C S} {heap : Heap serializer R}

/-- The words of an object's fields; a reference is one word, whatever it leads to. -/
def Heap.width (heap : Heap serializer R) (object : R) : Nat :=
  ((heap.content object).map (Field.weight fun value => value.kind.width)).sum

theorem Heap.width_tokenValue (heap : Heap serializer R) (token : Token (Value S) R) :
    (heap.tokenValue token).kind.width = token.weight fun value => value.kind.width := by
  cases token <;> rfl

/-- The words of a listing of references. -/
theorem Heap.width_listing [DecidableEq R] {roots : List (Option R)}
    {tokens : List (Token (Value S) R)} {new : List R}
    (listing : Preorder heap.content [] (roots.map .reference) tokens new) :
    ((tokens.map heap.tokenValue).map fun value => value.kind.width).sum =
      roots.length + (new.map heap.width).sum := by
  have weights : ((tokens.map heap.tokenValue).map fun value => value.kind.width) =
      tokens.map (Token.weight fun value => value.kind.width) := by
    rw [List.map_map]
    exact List.map_congr_left fun token _ => heap.width_tokenValue token
  have ones : ((roots.map Field.reference).map
      (Field.weight (V := Value S) fun value => value.kind.width)).sum = roots.length := by
    rw [List.map_map]
    simp [Function.comp_def, Field.weight]
  rw [weights, listing.sum_weight, ones]
  rfl

section Rename

variable [DecidableEq R] {new : List R} {references : List (Reference C)}

/-- The reference in the slot of an object. -/
def referenceOf (new : List R) (references : List (Reference C)) (object : R) : Reference C :=
  references.getD (new.idxOf object) (.object 0)

theorem Met.eq_referenceOf (distinct : new.Nodup) {object : R} {reference : Reference C}
    (met : Met new references object reference) :
    reference = referenceOf new references object := by
  rcases List.mem_iff_getElem.mp met with ⟨index, inRange, pair⟩
  rw [List.length_zip] at inRange
  rw [List.getElem_zip, Prod.mk.injEq] at pair
  rcases pair with ⟨rfl, rfl⟩
  have inReferences : index < references.length := by omega
  rw [referenceOf, distinct.idxOf_getElem, List.getD_eq_getElem _ _ inReferences]

theorem met_referenceOf (sameLength : references.length = new.length) {object : R}
    (member : object ∈ new) : Met new references object (referenceOf new references object) := by
  have inRange := List.idxOf_lt_length_of_mem member
  have inReferences : new.idxOf object < references.length := sameLength ▸ inRange
  refine List.mem_iff_getElem.mpr ⟨new.idxOf object, by simp [inRange, inReferences], ?_⟩
  rw [List.getElem_zip, List.getElem_idxOf, referenceOf, List.getD_eq_getElem _ _ inReferences]

omit [DecidableEq R] in
/-- The object behind a reference is the one it represents. -/
theorem node_of_represents {object : R} {reference : Reference C} {related : R → Reference C → Prop}
    {rename : R → Reference C} {reader : ObjectReader C S}
    (represents : Represents 0 reader.objects related (heap.node object) reference)
    (functional : ∀ object reference, related object reference → reference = rename object) :
    reader.node serializer reference = some ((heap.node object).map rename) := by
  have conforms := heap.conforms object
  generalize heap.node object = node at represents conforms
  cases represents with
  | object allocated rel =>
      rw [Nat.zero_add, ObjectReader.node, allocated, Field.Rel.eq_map rel functional]
      rfl
  | constant =>
      rcases conforms with _ | ⟨_, hasShape, isConstant⟩
      simp only [ObjectReader.node, hasShape, isConstant]
      rfl

/-- Slots that hold the same address are the same slot. -/
theorem index_eq_of_address {first second address : Nat} {inFirst : first < references.length}
    {inSecond : second < references.length}
    (distinct : (references.filterMap Reference.address?).Nodup)
    (isFirst : references[first] = .object address)
    (isSecond : references[second] = .object address) : first = second := by
  have pairwise := List.pairwise_filterMap.mp distinct
  rw [List.pairwise_iff_getElem] at pairwise
  by_contra different
  rcases Nat.lt_or_gt_of_ne different with less | greater
  · exact pairwise first second inFirst inSecond less address (by rw [isFirst]; rfl) address
      (by rw [isSecond]; rfl) rfl
  · exact pairwise second first inSecond inFirst greater address (by rw [isSecond]; rfl) address
      (by rw [isFirst]; rfl) rfl

/-- Different objects have different references. -/
theorem Rebuilt.injective {base : Nat}
    {newObjects : List (C × List (Field (Value S) (Reference C)))}
    (rebuilt : Rebuilt heap [] new [] references base newObjects)
    {first second : R} (metFirst : first ∈ new) (metSecond : second ∈ new)
    (same : referenceOf new references first = referenceOf new references second) :
    first = second := by
  have inFirst : new.idxOf first < references.length :=
    rebuilt.length_eq ▸ List.idxOf_lt_length_of_mem metFirst
  have inSecond : new.idxOf second < references.length :=
    rebuilt.length_eq ▸ List.idxOf_lt_length_of_mem metSecond
  have isFirst := List.getD_eq_getElem references (.object 0) inFirst
  have isSecond := List.getD_eq_getElem references (.object 0) inSecond
  have representsFirst := rebuilt.represents _ _ (met_referenceOf rebuilt.length_eq metFirst)
  have representsSecond := rebuilt.represents _ _ (met_referenceOf rebuilt.length_eq metSecond)
  cases found : referenceOf new references first with
  | object address =>
      have addresses : (references.filterMap Reference.address?).Nodup := by
        rw [rebuilt.addresses]
        exact List.nodup_range'
      have index := index_eq_of_address addresses (isFirst.symm.trans found)
        (isSecond.symm.trans (same.symm.trans found))
      exact (List.idxOf_inj metFirst).mp index
  | constant type ordinal =>
      rw [found] at representsFirst
      rw [← same, found] at representsSecond
      rcases representsFirst.eq_constant with ⟨_, nodeFirst⟩
      rcases representsSecond.eq_constant with ⟨_, nodeSecond⟩
      exact heap.constant_unique _ _ _ _ _ _ nodeFirst nodeSecond

end Rename

/-- What was read is a copy of what was written: reading renames references and changes
nothing else in the objects that can be reached, and it keeps objects apart. -/
structure IsCopy (heap : Heap serializer R) (roots : List (Option R)) (reader : ObjectReader C S)
    (results : List (Field (Value S) (Reference C))) (rename : R → Reference C) : Prop where
  results_eq : results = roots.map fun root => .reference (root.map rename)
  node_eq : ∀ object, Reachable heap.content roots object →
    reader.node serializer (rename object) = some ((heap.node object).map rename)
  rename_eq_iff : ∀ first second, Reachable heap.content roots first →
    Reachable heap.content roots second → (rename first = rename second ↔ first = second)

variable [DecidableEq R]

/-- Whatever carries the listing to a reader, the reader copies the graph. -/
theorem reads_copy {roots : List (Option R)} {tokens : List (Token (Value S) R)} {new : List R}
    (listing : Preorder heap.content [] (roots.map .reference) tokens new) {depth : Nat}
    (deep : new.length ≤ depth) (bounded : new.length < 2 ^ 31) {stream next : StreamReader S}
    (gives : Gives stream (tokens.map heap.tokenValue) next) :
    ∃ results reader rename,
      readObjects serializer depth { stream, seenArray := [], objects := [] } roots.length =
        .ok (results, reader) ∧
      IsCopy heap roots reader results rename := by
  have distinct := listing.nodup List.nodup_nil
  obtain ⟨results, references, objects, reads, rel, rebuilt⟩ :=
    reads_preorder listing deep bounded gives [] rfl []
  have kinds : List.replicate roots.length FieldKind.object =
      (roots.map (Field.reference (V := Value S))).map fieldKind := by
    rw [List.map_map]
    exact List.map_const'.symm
  have functional : ∀ object reference, Met ([] ++ new) ([] ++ references) object reference →
      reference = referenceOf new references object :=
    fun object reference met => Met.eq_referenceOf distinct met
  rw [readObjects, kinds]
  refine ⟨results, _, referenceOf new references, reads, ?_, ?_, ?_⟩
  · rw [Field.Rel.eq_map rel functional, List.map_map]
    rfl
  · intro object isReachable
    have met := met_referenceOf rebuilt.length_eq (listing.mem_new_iff.mpr isReachable)
    exact node_of_represents (rebuilt.represents object _ met) functional
  · intro first second isFirst isSecond
    constructor
    · exact rebuilt.injective (listing.mem_new_iff.mpr isFirst) (listing.mem_new_iff.mpr isSecond)
    · rintro rfl
      rfl

/-- The graph that is read is isomorphic to the graph that was written.  The stack has
to be as deep as there are objects, and the words have to fit into a buffer. -/
theorem object_graph_round_trip [DecidableEq S] [Fintype R] (nativeOrder : ByteOrder)
    (serializer : Serializer C S) (heap : Heap serializer R) (roots : List (Option R))
    [DecidablePred (Reachable heap.content roots)]
    (inRange : 3 + (roots.length + ∑ object with Reachable heap.content roots object,
      heap.width object) ≤ 2 ^ 28)
    (depth : Nat) (deep : Fintype.card R ≤ depth) :
    ∃ fresh writer data reader results last rename,
      StreamWriter.new nativeOrder = .ok fresh ∧
      writeObjects nativeOrder serializer heap.node depth { stream := fresh, objectMap := [] }
        roots = .ok writer ∧
      StreamWriter.getWorkerData writer.stream = .ok data ∧
      StreamReader.ofWorkerData nativeOrder data = .ok reader ∧
      readObjects serializer depth { stream := reader, seenArray := [], objects := [] }
        roots.length = .ok (results, last) ∧
      IsCopy heap roots last results rename := by
  obtain ⟨tokens, new, listing⟩ :=
    Preorder.exists_listing heap.content List.nodup_nil (roots.map .reference)
  have distinct : new.Nodup := listing.nodup List.nodup_nil
  have reachable : new.toFinset = Finset.univ.filter (Reachable heap.content roots) := by
    ext object
    rw [List.mem_toFinset, listing.mem_new_iff, Finset.mem_filter_univ]
  have width := Heap.width_listing listing
  rw [← List.sum_toFinset heap.width distinct, reachable] at width
  have wordCount : 3 + ((tokens.map heap.tokenValue).map fun value => value.kind.width).sum ≤
      2 ^ 28 := width ▸ inRange
  obtain ⟨fresh, stream, data, reader, spare, creates, writes, sends, receives, _, feeds, strings,
    stringsBounded⟩ := worker_feeds nativeOrder wordCount
  rcases feeds.readAll_encodeAll strings stringsBounded with ⟨next, gives⟩
  have bounded : new.length < 2 ^ 31 := by
    have nodeCount := listing.length_new_le
    have tokenCount := List.length_le_sum_of_one_le
      ((tokens.map heap.tokenValue).map fun value => value.kind.width) ?_
    · rw [List.length_map, List.length_map] at tokenCount
      omega
    · intro width member
      rcases List.mem_map.mp member with ⟨value, _, rfl⟩
      exact value.kind.width_pos
  have deepEnough : new.length ≤ depth := Nat.le_trans distinct.length_le_card deep
  rcases reads_copy listing deepEnough bounded gives with ⟨results, last, rename, reads, isCopy⟩
  exact ⟨fresh, { stream, objectMap := [] ++ new }, data, reader, results, last, rename, creates,
    writes_preorder listing deepEnough writes, sends, receives, reads, isCopy⟩

/-- A class with a number and two references, and an enum of which the second constant
has a body, and so a class of its own. -/
def linkSerializer : Serializer Nat String where
  getSerializationSignature
    | 0 => some "Link"
    | 1 => some "Color"
    | _ => none
  typeOf signature :=
    if signature = "Link" then some 0 else if signature = "Color" then some 1 else none
  shape
    | 0 => .fields [.value .int, .object, .object]
    | 1 => .enumeration [1, 2]
    | _ => .fields []
  typeOf_signature := by
    rintro (_ | _ | type) signature ⟨⟩ <;> rfl
  constants_lt := by
    rintro (_ | _ | type) constants ⟨⟩
    decide

/-- Two links in a circle that share a color. -/
def linkHeap : Heap linkSerializer (Fin 3) where
  node
    | 0 => .object 0 [.value (.int 7), .reference (some 1), .reference (some 2)]
    | 1 => .object 0 [.value (.int 8), .reference (some 0), .reference (some 2)]
    | 2 => .constant 2 1 1
  conforms := by
    intro object
    fin_cases object
    · exact .object rfl rfl
    · exact .object rfl rfl
    · exact .constant rfl rfl rfl
  constant_unique := by
    intro first second
    fin_cases first <;> fin_cases second <;> simp

open scoped Classical in
/-- One root is null, and the other two lead to the same three objects. -/
theorem object_graph_round_trip_links :
    ∃ fresh writer data reader results last rename,
      StreamWriter.new .littleEndian = .ok fresh ∧
      writeObjects .littleEndian linkSerializer linkHeap.node 3
        { stream := fresh, objectMap := [] } [some 0, none, some 1] = .ok writer ∧
      StreamWriter.getWorkerData writer.stream = .ok data ∧
      StreamReader.ofWorkerData .littleEndian data = .ok reader ∧
      readObjects linkSerializer 3 { stream := reader, seenArray := [], objects := [] } 3 =
        .ok (results, last) ∧
      IsCopy linkHeap [some 0, none, some 1] last results rename := by
  refine object_graph_round_trip .littleEndian linkSerializer linkHeap [some 0, none, some 1] ?_ 3
    (by decide)
  have total : ∑ object, linkHeap.width object = 7 := by decide
  have part : ∑ object with Reachable linkHeap.content [some 0, none, some 1] object,
      linkHeap.width object ≤ ∑ object, linkHeap.width object :=
    Finset.sum_le_sum_of_subset (Finset.filter_subset _ _)
  rw [List.length_cons, List.length_cons, List.length_singleton]
  omega

end WebbitGwt.Stream
