import Mathlib.Data.Finset.Insert
import Mathlib.Data.Finset.Erase
import Mathlib.Logic.Function.Basic

/-!
# Collections that ask their elements

Lists compare elements with `equals`, hash maps and hash sets with `hashCode`, the
identity of references and `equals`, in this order.  Next to each stands the collection it
is meant to be, with elements told apart by what they are.  The operations of both are
steps on a state, and two collections that are simulated step by step return the same.
-/

namespace WebbitGwt.Java.Collections

universe u v w x

variable {σ τ ι ο : Type*}

/-! ## Sequences of operations -/

/-- What the operations of a sequence return. -/
def outcomes (step : σ → ι → σ × ο) : σ → List ι → List ο
  | _, [] => []
  | state, operation :: rest =>
      (step state operation).2 :: outcomes step (step state operation).1 rest

/-- Related states return the same and stay related. -/
theorem outcomes_eq_of_simulation {step : σ → ι → σ × ο} {other : τ → ι → τ × ο}
    {Related : σ → τ → Prop}
    (simulated : ∀ state abstract operation, Related state abstract →
      (step state operation).2 = (other abstract operation).2 ∧
        Related (step state operation).1 (other abstract operation).1)
    {state : σ} {abstract : τ} (related : Related state abstract) (operations : List ι) :
    outcomes step state operations = outcomes other abstract operations := by
  induction operations generalizing state abstract with
  | nil => rfl
  | cons operation rest ih =>
      rcases simulated state abstract operation related with ⟨same, stillRelated⟩
      rw [outcomes, outcomes, same, ih stillRelated]

/-- `equals` and `hashCode` of the elements.  References to the same object are equal
elements here. -/
structure ObjectMethods (α : Type u) (H : Type v) where
  equals : α → α → Bool
  hashCode : α → H

variable {α : Type u} {H : Type v} {K : Type u} {V : Type w}

/-! ## Lists -/

inductive ListOperation (α : Type u)
  | add (e : α)
  | contains (o : α)
  | indexOf (o : α)
  | remove (o : α)
  deriving DecidableEq

inductive ListOutcome
  | returned (result : Bool)
  | index (position : Option Nat)
  deriving DecidableEq

namespace ArrayList

variable (methods : ObjectMethods α H)

/-- The loop of `indexOf`: it is the argument that is asked. -/
def indexOf (list : List α) (o : α) : Option Nat :=
  list.findIdx? fun element => methods.equals o element

/-- `contains` and `remove` search as `indexOf` does. -/
def step (list : List α) : ListOperation α → List α × ListOutcome
  | .add e => (list ++ [e], .returned true)
  | .contains o => (list, .returned (indexOf methods list o).isSome)
  | .indexOf o => (list, .index (indexOf methods list o))
  | .remove o =>
      match indexOf methods list o with
      | none => (list, .returned false)
      | some position => (list.eraseIdx position, .returned true)

end ArrayList

/-- The list that is meant. -/
def sequenceStep [DecidableEq α] (list : List α) : ListOperation α → List α × ListOutcome
  | .add e => (list ++ [e], .returned true)
  | .contains o => (list, .returned (decide (o ∈ list)))
  | .indexOf o => (list, .index (list.idxOf? o))
  | .remove o => (list.erase o, .returned (decide (o ∈ list)))

/-- The element that an operation looks for. -/
def ListOperation.sought : ListOperation α → Option α
  | .add _ => none
  | .contains o | .indexOf o | .remove o => some o

/-- The elements after an operation, as far as operations only add them. -/
def ListOperation.added (elements : List α) : ListOperation α → List α
  | .add e => elements ++ [e]
  | _ => elements

/-- No operation looks for one of the given elements, or for one that an operation before
it has added. -/
def NeverSought : List α → List (ListOperation α) → Prop
  | _, [] => True
  | elements, operation :: rest =>
      (∀ o, operation.sought = some o → o ∉ elements) ∧
        NeverSought (operation.added elements) rest

/-- Where nothing is found, nothing is removed. -/
theorem sequenceStep_of_unsought [DecidableEq α] {list : List α} {operation : ListOperation α}
    (unsought : ∀ o, operation.sought = some o → o ∉ list) :
    (sequenceStep list operation).1 = operation.added list := by
  cases operation with
  | remove o => exact List.erase_of_not_mem (unsought o rfl)
  | _ => rfl

namespace ArrayList

variable {methods : ObjectMethods α H}

theorem indexOf_of_never (never : ∀ first second, methods.equals first second = false)
    (list : List α) (o : α) : indexOf methods list o = none := by
  rw [indexOf, List.findIdx?_eq_none_iff]
  intro element _
  exact never o element

/-- If no element is equal to any, none is ever removed. -/
theorem step_of_never (never : ∀ first second, methods.equals first second = false)
    (list : List α) (operation : ListOperation α) :
    (step methods list operation).1 = operation.added list := by
  cases operation with
  | remove o => rw [step, indexOf_of_never never]; rfl
  | _ => rfl

/-- Then an operation returns what it should exactly when it looks for an element that is
not there. -/
theorem outcome_of_never_iff [DecidableEq α]
    (never : ∀ first second, methods.equals first second = false)
    (list : List α) (operation : ListOperation α) :
    (step methods list operation).2 = (sequenceStep list operation).2 ↔
      ∀ o, operation.sought = some o → o ∉ list := by
  cases operation with
  | add e => exact iff_of_true rfl nofun
  | contains o =>
      simp only [step, sequenceStep, indexOf_of_never never, ListOperation.sought]
      simp
  | indexOf o =>
      simp only [step, sequenceStep, indexOf_of_never never, ListOperation.sought]
      simp [eq_comm]
  | remove o =>
      simp only [step, sequenceStep, indexOf_of_never never, ListOperation.sought]
      simp

theorem outcomes_of_never_iff [DecidableEq α]
    (never : ∀ first second, methods.equals first second = false)
    (list : List α) (operations : List (ListOperation α)) :
    outcomes (step methods) list operations = outcomes sequenceStep list operations ↔
      NeverSought list operations := by
  induction operations generalizing list with
  | nil => exact iff_of_true rfl trivial
  | cons operation rest ih =>
      rw [outcomes, outcomes, List.cons.injEq, NeverSought, outcome_of_never_iff never]
      apply and_congr_right
      intro unsought
      rw [step_of_never never, sequenceStep_of_unsought unsought]
      exact ih (operation.added list)

end ArrayList

/-! ## Hash maps -/

inductive MapOperation (K : Type u) (V : Type w)
  | put (key : K) (value : V)
  | get (key : K)
  | containsKey (key : K)
  | remove (key : K)
  deriving DecidableEq

/-- A null reference is `none`. -/
inductive MapOutcome (V : Type w)
  | value (previous : Option V)
  | returned (result : Bool)
  deriving DecidableEq

/-- The map that is meant. -/
def mapStep [DecidableEq K] (contents : K → Option V) :
    MapOperation K V → (K → Option V) × MapOutcome V
  | .put key value => (Function.update contents key (some value), .value (contents key))
  | .get key => (contents, .value (contents key))
  | .containsKey key => (contents, .returned (contents key).isSome)
  | .remove key => (Function.update contents key none, .value (contents key))

namespace HashMap

section

variable [DecidableEq K] [DecidableEq H] (methods : ObjectMethods K H)

/-- The test of an entry: equal hashes, and the same key or an equal one. -/
def isKey (key k : K) : Bool :=
  methods.hashCode k == methods.hashCode key && (k == key || methods.equals key k)

/-- The value of `getNode`, which goes through a bin.  The entries of all bins are listed
here; those of the others have different hashes. -/
def getNode (key : K) : List (K × V) → Option V
  | [] => none
  | (k, value) :: rest => if isKey methods key k then some value else getNode key rest

/-- `putVal`: an entry keeps its key when its value is replaced. -/
def putVal (key : K) (value : V) : List (K × V) → List (K × V)
  | [] => [(key, value)]
  | (k, old) :: rest =>
      if isKey methods key k then (k, value) :: rest else (k, old) :: putVal key value rest

def removeNode (key : K) : List (K × V) → List (K × V)
  | [] => []
  | (k, value) :: rest =>
      if isKey methods key k then rest else (k, value) :: removeNode key rest

def step (entries : List (K × V)) : MapOperation K V → List (K × V) × MapOutcome V
  | .put key value => (putVal methods key value entries, .value (getNode methods key entries))
  | .get key => (entries, .value (getNode methods key entries))
  | .containsKey key => (entries, .returned (getNode methods key entries).isSome)
  | .remove key => (removeNode methods key entries, .value (getNode methods key entries))

end

/-- The entries of a map with the given contents. -/
structure Holds [DecidableEq K] [DecidableEq H] (methods : ObjectMethods K H)
    (entries : List (K × V)) (contents : K → Option V) : Prop where
  nodup : (entries.map Prod.fst).Nodup
  getNode_eq : ∀ key, getNode methods key entries = contents key

section

variable [DecidableEq K] [DecidableEq H] {methods : ObjectMethods K H}
  {entries rest : List (K × V)} {contents : K → Option V} {key other k : K} {value : V}

/-- A key is found by its identity, whether or not it is equal to itself. -/
theorem isKey_iff (sound : ∀ first second, methods.equals first second = true → first = second) :
    isKey methods key k = true ↔ k = key := by
  rw [isKey, Bool.and_eq_true, Bool.or_eq_true, beq_iff_eq, beq_iff_eq]
  constructor
  · rintro ⟨_, same | equal⟩
    · exact same
    · exact (sound key k equal).symm
  · rintro rfl
    exact ⟨rfl, Or.inl rfl⟩

section

variable (sound : ∀ first second, methods.equals first second = true → first = second)

include sound

theorem getNode_cons :
    getNode methods key ((k, value) :: rest) =
      if k = key then some value else getNode methods key rest := by
  simp only [getNode, isKey_iff sound]

theorem putVal_cons {old : V} :
    putVal methods key value ((k, old) :: rest) =
      if k = key then (k, value) :: rest else (k, old) :: putVal methods key value rest := by
  simp only [putVal, isKey_iff sound]

theorem removeNode_cons :
    removeNode methods key ((k, value) :: rest) =
      if k = key then rest else (k, value) :: removeNode methods key rest := by
  simp only [removeNode, isKey_iff sound]

theorem getNode_of_not_mem (absent : key ∉ entries.map Prod.fst) :
    getNode methods key entries = none := by
  induction entries with
  | nil => rfl
  | cons entry rest ih =>
      rw [List.map_cons, List.mem_cons, not_or] at absent
      rw [getNode_cons sound, if_neg (Ne.symm absent.1), ih absent.2]

theorem getNode_putVal :
    getNode methods other (putVal methods key value entries) =
      if other = key then some value else getNode methods other entries := by
  induction entries with
  | nil =>
      rw [putVal, getNode_cons sound]
      exact if_congr eq_comm rfl rfl
  | cons entry rest ih =>
      rcases entry with ⟨k, old⟩
      rw [putVal_cons sound, getNode_cons sound]
      by_cases found : k = key
      · rw [if_pos found, getNode_cons sound, found]
        by_cases same : other = key
        · rw [if_pos same.symm, if_pos same]
        · rw [if_neg (Ne.symm same), if_neg same, if_neg (Ne.symm same)]
      · -- the entry is that of another key, so the two tests exclude each other
        have exclusive : k = other → ¬ other = key := fun here same => found (here.trans same)
        rw [if_neg found, getNode_cons sound, ih]
        apply ite_ite_comm
        exact exclusive

theorem getNode_removeNode (nodup : (entries.map Prod.fst).Nodup) :
    getNode methods other (removeNode methods key entries) =
      if other = key then none else getNode methods other entries := by
  induction entries with
  | nil => exact (ite_self none).symm
  | cons entry rest ih =>
      rcases entry with ⟨k, old⟩
      rw [List.map_cons, List.nodup_cons] at nodup
      rw [removeNode_cons sound, getNode_cons sound]
      by_cases found : k = key
      · rw [if_pos found, found]
        by_cases same : other = key
        · rw [if_pos same, same]
          exact getNode_of_not_mem sound (found ▸ nodup.1)
        · rw [if_neg same, if_neg (Ne.symm same)]
      · have exclusive : k = other → ¬ other = key := fun here same => found (here.trans same)
        rw [if_neg found, getNode_cons sound, ih nodup.2]
        apply ite_ite_comm
        exact exclusive

theorem mem_keys_putVal (present : k ∈ (putVal methods key value entries).map Prod.fst) :
    k = key ∨ k ∈ entries.map Prod.fst := by
  induction entries with
  | nil => exact Or.inl (List.mem_singleton.mp present)
  | cons entry rest ih =>
      rcases entry with ⟨first, old⟩
      rw [putVal_cons sound] at present
      by_cases found : first = key
      · rw [if_pos found] at present
        exact Or.inr present
      · rw [if_neg found, List.map_cons, List.mem_cons] at present
        rcases present with here | later
        · exact Or.inr (List.mem_cons.mpr (Or.inl here))
        · rcases ih later with isNew | old
          · exact Or.inl isNew
          · exact Or.inr (List.mem_cons_of_mem first old)

theorem nodup_putVal (nodup : (entries.map Prod.fst).Nodup) :
    ((putVal methods key value entries).map Prod.fst).Nodup := by
  induction entries with
  | nil => exact List.nodup_singleton key
  | cons entry rest ih =>
      rcases entry with ⟨first, old⟩
      rw [putVal_cons sound]
      rw [List.map_cons, List.nodup_cons] at nodup
      by_cases found : first = key
      · rw [if_pos found, List.map_cons, List.nodup_cons]
        exact nodup
      · rw [if_neg found, List.map_cons, List.nodup_cons]
        constructor
        · intro present
          rcases mem_keys_putVal sound present with isNew | isOld
          · exact found isNew
          · exact nodup.1 isOld
        · exact ih nodup.2

omit sound in
theorem removeNode_sublist : (removeNode methods key entries).Sublist entries := by
  induction entries with
  | nil => exact List.Sublist.refl []
  | cons entry rest ih =>
      unfold removeNode
      split
      · exact List.sublist_cons_self entry rest
      · exact ih.cons_cons entry

/-- Entries are put under and removed from the keys that are meant. -/
theorem Holds.step (holds : Holds methods entries contents) (operation : MapOperation K V) :
    (step methods entries operation).2 = (mapStep contents operation).2 ∧
      Holds methods (step methods entries operation).1 (mapStep contents operation).1 := by
  cases operation with
  | put key value =>
      refine ⟨congrArg MapOutcome.value (holds.getNode_eq key), nodup_putVal sound holds.nodup, ?_⟩
      intro other
      rw [HashMap.step, getNode_putVal sound, holds.getNode_eq other]
      exact (Function.update_apply contents key (some value) other).symm
  | get key => exact ⟨congrArg MapOutcome.value (holds.getNode_eq key), holds⟩
  | containsKey key =>
      refine ⟨?_, holds⟩
      rw [HashMap.step, holds.getNode_eq key]
      rfl
  | remove key =>
      have kept : (removeNode methods key entries).Sublist entries := removeNode_sublist
      have nodup := holds.nodup.sublist (kept.map Prod.fst)
      refine ⟨congrArg MapOutcome.value (holds.getNode_eq key), nodup, ?_⟩
      intro other
      rw [HashMap.step, getNode_removeNode sound holds.nodup, holds.getNode_eq other]
      exact (Function.update_apply contents key none other).symm

/-- If only the same keys are equal, a hash map is the map that is meant, also where a key
is not equal to itself. -/
theorem outcomes_eq (operations : List (MapOperation K V)) :
    outcomes (HashMap.step methods) [] operations =
      outcomes mapStep (fun _ => none) operations := by
  have empty : Holds methods [] fun _ : K => (none : Option V) := ⟨List.nodup_nil, fun _ => rfl⟩
  apply outcomes_eq_of_simulation _ empty
  intro entries contents operation holds
  exact holds.step sound operation

end

end

end HashMap

/-! ## Hash sets -/

inductive SetOperation (α : Type u)
  | add (e : α)
  | contains (o : α)
  | remove (o : α)
  deriving DecidableEq

/-- The set that is meant. -/
def setStep [DecidableEq α] (elements : Finset α) : SetOperation α → Finset α × Bool
  | .add e => (insert e elements, decide (e ∉ elements))
  | .contains o => (elements, decide (o ∈ elements))
  | .remove o => (elements.erase o, decide (o ∈ elements))

namespace HashSet

variable [DecidableEq α] [DecidableEq H] {methods : ObjectMethods α H}

/-- The set is that of the keys of a map, which all have the same value. -/
def step (methods : ObjectMethods α H) (entries : List (α × Unit)) :
    SetOperation α → List (α × Unit) × Bool
  | .add e => (HashMap.putVal methods e () entries, (HashMap.getNode methods e entries).isNone)
  | .contains o => (entries, (HashMap.getNode methods o entries).isSome)
  | .remove o => (HashMap.removeNode methods o entries, (HashMap.getNode methods o entries).isSome)

/-- The contents of the map for a set. -/
def contents (elements : Finset α) (e : α) : Option Unit :=
  if e ∈ elements then some () else none

theorem isSome_contents (elements : Finset α) (e : α) :
    (contents elements e).isSome = decide (e ∈ elements) := by
  by_cases present : e ∈ elements <;> simp [contents, present]

theorem contents_insert (elements : Finset α) (e : α) :
    contents (insert e elements) = Function.update (contents elements) e (some ()) := by
  funext other
  rw [Function.update_apply, contents, contents]
  by_cases same : other = e <;> simp [same]

theorem contents_erase (elements : Finset α) (e : α) :
    contents (elements.erase e) = Function.update (contents elements) e none := by
  funext other
  rw [Function.update_apply, contents, contents]
  by_cases same : other = e <;> simp [same]

section

variable (sound : ∀ first second, methods.equals first second = true → first = second)

include sound

/-- An operation on the map does to its contents what is meant for the set. -/
theorem simulates {entries : List (α × Unit)} {elements : Finset α}
    (holds : HashMap.Holds methods entries (contents elements)) (operation : SetOperation α) :
    (step methods entries operation).2 = (setStep elements operation).2 ∧
      HashMap.Holds methods (step methods entries operation).1
        (contents (setStep elements operation).1) := by
  cases operation with
  | add e =>
      have kept := (holds.step sound (.put e ())).2
      constructor
      · rw [step, holds.getNode_eq e, ← Option.not_isSome, isSome_contents, setStep, decide_not]
      · rw [setStep, contents_insert]
        exact kept
  | contains o =>
      refine ⟨?_, holds⟩
      rw [step, holds.getNode_eq o, isSome_contents]
      rfl
  | remove o =>
      have kept := (holds.step sound (.remove o)).2
      constructor
      · rw [step, holds.getNode_eq o, isSome_contents]
        rfl
      · rw [setStep, contents_erase]
        exact kept

/-- If only the same elements are equal, a hash set is the set that is meant. -/
theorem outcomes_eq (operations : List (SetOperation α)) :
    outcomes (step methods) [] operations = outcomes setStep ∅ operations := by
  have empty : HashMap.Holds methods [] (contents (∅ : Finset α)) :=
    ⟨List.nodup_nil, fun _ => rfl⟩
  have simulated : ∀ entries elements operation,
      HashMap.Holds methods entries (contents elements) →
        (step methods entries operation).2 = (setStep elements operation).2 ∧
          HashMap.Holds methods (step methods entries operation).1
            (contents (setStep elements operation).1) :=
    fun _ _ operation holds => simulates sound holds operation
  exact outcomes_eq_of_simulation simulated empty operations

end

end HashSet

end WebbitGwt.Java.Collections
