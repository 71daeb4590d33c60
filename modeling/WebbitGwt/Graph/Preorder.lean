import Mathlib.Algebra.GroupWithZero.Nat
import Mathlib.Data.Fintype.Card
import Mathlib.Data.List.Forall2

/-!
# Graphs listed in preorder

A graph gives every node a list of fields, which hold values or references to nodes.
It is listed by following references: a node is listed, with its fields, where it is
first met, and by the number it got there ever after.  The numbers are the positions
in the list of nodes met so far, so sharing and cycles are kept.
-/

namespace WebbitGwt.Graph

/-- A field holds a value or a reference, which may be null. -/
inductive Field (V R : Type)
  | value (value : V)
  | reference (target : Option R)

namespace Field

variable {V R T : Type}

/-- Rename the targets of references. -/
def map (rename : R → T) : Field V R → Field V T
  | .value held => .value held
  | .reference target => .reference (target.map rename)

/-- The same up to a relation between targets. -/
inductive Rel (related : R → T → Prop) : Field V R → Field V T → Prop
  | value (held : V) : Rel related (.value held) (.value held)
  | null : Rel related (.reference none) (.reference none)
  | reference {node : R} {other : T} (isRelated : related node other) :
      Rel related (.reference (some node)) (.reference (some other))

theorem Rel.mono {related wider : R → T → Prop} {field : Field V R} {other : Field V T}
    (rel : Rel related field other) (wide : ∀ node other, related node other → wider node other) :
    Rel wider field other := by
  cases rel with
  | value held => exact .value held
  | null => exact .null
  | reference isRelated => exact .reference (wide _ _ isRelated)

/-- Fields related by a function are renamed by it. -/
theorem Rel.eq_map {related : R → T → Prop} {rename : R → T} {fields : List (Field V R)}
    {others : List (Field V T)} (rel : List.Forall₂ (Rel related) fields others)
    (functional : ∀ node other, related node other → other = rename node) :
    others = fields.map (map rename) := by
  induction rel with
  | nil => rfl
  | cons head _ ih =>
      rw [List.map_cons, ih]
      cases head with
      | value held => rfl
      | null => rfl
      | reference isRelated =>
          cases functional _ _ isRelated
          rfl

/-- The cost of a field, when a reference costs one. -/
def weight (cost : V → Nat) : Field V R → Nat
  | .value held => cost held
  | .reference _ => 1

end Field

/-- What stands in a listing: the number of a node met before, or a node itself, where
it is followed by its fields. -/
inductive Token (V R : Type)
  | value (value : V)
  | null
  | seen (position : Nat)
  | node (node : R)

/-- The cost of a token, when everything but a value costs one. -/
def Token.weight {V R : Type} (cost : V → Nat) : Token V R → Nat
  | .value held => cost held
  | _ => 1

/-- The same token where the nodes have been renamed and some others come first. -/
def Token.map {V R T : Type} (before : Nat) (rename : R → T) : Token V R → Token V T
  | .value held => .value held
  | .null => .null
  | .seen position => .seen (before + position)
  | .node first => .node (rename first)

@[simp]
theorem Token.weight_map {V R T : Type} (cost : V → Nat) (before : Nat) (rename : R → T)
    (token : Token V R) : (token.map before rename).weight cost = token.weight cost := by
  cases token <;> rfl

variable {V R : Type} (content : R → List (Field V R))

/-- The nodes that can be reached from some references. -/
inductive Reachable (roots : List (Option R)) : R → Prop
  | root {node : R} (isRoot : some node ∈ roots) : Reachable roots node
  | field {node target : R} (reachable : Reachable roots node)
      (isField : .reference (some target) ∈ content node) : Reachable roots target

variable [DecidableEq R]

/-- The listing of some fields after the nodes `visited` have been met, and the nodes
first met in it. -/
inductive Preorder : List R → List (Field V R) → List (Token V R) → List R → Prop
  | nil {visited : List R} : Preorder visited [] [] []
  | value {visited new : List R} {fields : List (Field V R)} {tokens : List (Token V R)}
      (value : V) (rest : Preorder visited fields tokens new) :
      Preorder visited (.value value :: fields) (.value value :: tokens) new
  | null {visited new : List R} {fields : List (Field V R)} {tokens : List (Token V R)}
      (rest : Preorder visited fields tokens new) :
      Preorder visited (.reference none :: fields) (.null :: tokens) new
  | seen {visited new : List R} {fields : List (Field V R)} {tokens : List (Token V R)}
      {node : R} (met : node ∈ visited) (rest : Preorder visited fields tokens new) :
      Preorder visited (.reference (some node) :: fields)
        (.seen (visited.idxOf node) :: tokens) new
  | node {visited below after : List R} {fields : List (Field V R)}
      {inner tokens : List (Token V R)} {node : R} (notMet : node ∉ visited)
      (inside : Preorder (visited ++ [node]) (content node) inner below)
      (rest : Preorder (visited ++ [node] ++ below) fields tokens after) :
      Preorder visited (.reference (some node) :: fields) (.node node :: (inner ++ tokens))
        (node :: (below ++ after))

namespace Preorder

variable {content} {visited new : List R} {fields : List (Field V R)}
  {tokens : List (Token V R)}

omit [DecidableEq R] in
/-- The nodes met before, and those below a node, in the order they were met. -/
theorem append_node (visited below after : List R) (node : R) :
    visited ++ node :: (below ++ after) = visited ++ [node] ++ below ++ after := by
  simp

/-- No node is met twice for the first time. -/
theorem nodup (listing : Preorder content visited fields tokens new) (distinct : visited.Nodup) :
    (visited ++ new).Nodup := by
  induction listing with
  | nil => rwa [List.append_nil]
  | value _ _ ih => exact ih distinct
  | null _ ih => exact ih distinct
  | seen _ _ ih => exact ih distinct
  | @node visited below after fields inner tokens node notMet _ _ ihInside ihRest =>
      rw [append_node]
      exact ihRest (ihInside (List.concat_eq_append ▸ distinct.concat notMet))

/-- Whatever holds of all targets of references holds of all nodes met. -/
theorem forall_new {P : R → Prop} (listing : Preorder content visited fields tokens new)
    (closed : ∀ node, P node → ∀ target, .reference (some target) ∈ content node → P target)
    (holds : ∀ target, .reference (some target) ∈ fields → P target) : ∀ node ∈ new, P node := by
  induction listing with
  | nil => exact nofun
  | value _ _ ih => exact ih fun target member => holds target (List.mem_cons_of_mem _ member)
  | null _ ih => exact ih fun target member => holds target (List.mem_cons_of_mem _ member)
  | seen _ _ ih => exact ih fun target member => holds target (List.mem_cons_of_mem _ member)
  | @node visited below after fields inner tokens node notMet _ _ ihInside ihRest =>
      have here := holds node List.mem_cons_self
      rintro other (_ | ⟨_, member⟩)
      · exact here
      · rcases List.mem_append.mp member with inBelow | inAfter
        · exact ihInside (closed node here) other inBelow
        · exact ihRest (fun target member => holds target (List.mem_cons_of_mem _ member)) other
            inAfter

/-- All targets of references have been met in the end. -/
theorem met_of_mem (listing : Preorder content visited fields tokens new) {target : R}
    (member : .reference (some target) ∈ fields) : target ∈ visited ++ new := by
  induction listing with
  | nil => cases member
  | value _ _ ih =>
      rcases member with _ | ⟨_, member⟩
      exact ih member
  | null _ ih =>
      rcases member with _ | ⟨_, member⟩
      exact ih member
  | seen met _ ih =>
      rcases member with _ | ⟨_, member⟩
      · exact List.mem_append_left _ met
      · exact ih member
  | @node visited below after fields inner tokens node notMet _ _ _ ihRest =>
      rw [append_node]
      rcases member with _ | ⟨_, member⟩
      · simp
      · exact ihRest member

/-- And so have the targets in nodes met on the way. -/
theorem met_of_mem_content (listing : Preorder content visited fields tokens new)
    {node target : R} (met : node ∈ new) (member : .reference (some target) ∈ content node) :
    target ∈ visited ++ new := by
  induction listing with
  | nil => cases met
  | value _ _ ih => exact ih met
  | null _ ih => exact ih met
  | seen _ _ ih => exact ih met
  | @node visited below after fields inner tokens first notMet inside _ ihInside ihRest =>
      rw [append_node]
      rcases met with _ | ⟨_, met⟩
      · exact List.mem_append_left _ (inside.met_of_mem member)
      · rcases List.mem_append.mp met with inBelow | inAfter
        · exact List.mem_append_left _ (ihInside inBelow)
        · exact ihRest inAfter

/-- A listing of references meets exactly the nodes that can be reached. -/
theorem mem_new_iff {roots : List (Option R)}
    (listing : Preorder content [] (roots.map .reference) tokens new) {node : R} :
    node ∈ new ↔ Reachable content roots node := by
  constructor
  · refine listing.forall_new (fun _ reachable _ => reachable.field) ?_ node
    intro target member
    rcases List.mem_map.mp member with ⟨root, isRoot, same⟩
    cases same
    exact .root isRoot
  · intro reachable
    induction reachable with
    | root isRoot => exact listing.met_of_mem (List.mem_map_of_mem isRoot)
    | field _ isField met => exact listing.met_of_mem_content met isField

/-- There are no more nodes than tokens. -/
theorem length_new_le (listing : Preorder content visited fields tokens new) :
    new.length ≤ tokens.length := by
  induction listing with
  | nil => exact Nat.le_refl 0
  | value _ _ ih => exact Nat.le_succ_of_le ih
  | null _ ih => exact Nat.le_succ_of_le ih
  | seen _ _ ih => exact Nat.le_succ_of_le ih
  | node _ _ _ ihInside ihRest =>
      simp only [List.length_cons, List.length_append]
      omega

/-- What a listing costs: its fields, and the fields of all nodes met in it. -/
theorem sum_weight (listing : Preorder content visited fields tokens new) (cost : V → Nat) :
    (tokens.map (Token.weight cost)).sum = (fields.map (Field.weight cost)).sum +
      (new.map fun node => ((content node).map (Field.weight cost)).sum).sum := by
  induction listing with
  | nil => rfl
  | value _ _ ih | null _ ih | seen _ _ ih =>
      simp only [List.map_cons, List.sum_cons, ih, Token.weight, Field.weight]
      omega
  | node _ _ _ ihInside ihRest =>
      simp only [List.map_cons, List.sum_cons, List.map_append, List.sum_append, ihInside, ihRest,
        Token.weight, Field.weight]
      omega

/-- A finite graph has a listing, however its references run: every node met for the
first time leaves one less to meet. -/
theorem exists_listing [Fintype R] (content : R → List (Field V R)) {visited : List R}
    (distinct : visited.Nodup) (fields : List (Field V R)) :
    ∃ tokens new, Preorder content visited fields tokens new := by
  induction left : Fintype.card R - visited.length using Nat.strong_induction_on
    generalizing visited fields with
  | _ count ihCount =>
  induction fields with
  | nil => exact ⟨_, _, .nil⟩
  | cons field fields ih =>
      rcases ih with ⟨tokens, new, rest⟩
      cases field with
      | value value => exact ⟨_, _, .value value rest⟩
      | reference target =>
          cases target with
          | none => exact ⟨_, _, .null rest⟩
          | some node =>
              by_cases met : node ∈ visited
              · exact ⟨_, _, .seen met rest⟩
              · have longer : (visited ++ [node]).Nodup :=
                  List.concat_eq_append ▸ distinct.concat met
                have bound := longer.length_le_card
                rw [List.length_append, List.length_singleton] at bound
                obtain ⟨inner, below, inside⟩ :=
                  ihCount (Fintype.card R - (visited ++ [node]).length)
                    (by rw [List.length_append, List.length_singleton]; omega) longer
                    (content node) rfl
                obtain ⟨tokens, after, rest⟩ :=
                  ihCount (Fintype.card R - (visited ++ [node] ++ below).length)
                    (by simp only [List.length_append, List.length_singleton]; omega)
                    (inside.nodup longer) fields rfl
                exact ⟨_, _, .node met inside rest⟩

/-- Values in front of other fields are listed as they are. -/
theorem values (held : List V) (listing : Preorder content visited fields tokens new) :
    Preorder content visited (held.map .value ++ fields) (held.map .value ++ tokens) new := by
  induction held with
  | nil => exact listing
  | cons first rest ih => exact .value first ih

/-- Renaming keeps positions. -/
theorem idxOf_map {T : Type} [DecidableEq T] {rename : R → T} (injective : rename.Injective)
    (nodes : List R) (node : R) : (nodes.map rename).idxOf (rename node) = nodes.idxOf node := by
  induction nodes with
  | nil => rfl
  | cons first rest ih =>
      rw [List.map_cons]
      by_cases same : first = node
      · subst same
        rw [List.idxOf_cons_self, List.idxOf_cons_self]
      · rw [List.idxOf_cons_ne _ same, List.idxOf_cons_ne _ (injective.ne same), ih]

/-- A listing goes over to a graph in which the nodes have other names, where some other
nodes have been met already. -/
theorem map {T : Type} [DecidableEq T] {others : T → List (Field V T)} {rename : R → T}
    (listing : Preorder content visited fields tokens new) (injective : rename.Injective)
    (sameContent : ∀ node, others (rename node) = (content node).map (Field.map rename))
    {before : List T} (apart : ∀ node, rename node ∉ before) :
    Preorder others (before ++ visited.map rename) (fields.map (Field.map rename))
      (tokens.map (Token.map before.length rename)) (new.map rename) := by
  induction listing with
  | nil => exact .nil
  | value held _ ih => exact .value held ih
  | null _ ih => exact .null ih
  | @seen visited new fields tokens node met _ ih =>
      have position : before.length + visited.idxOf node =
          (before ++ visited.map rename).idxOf (rename node) := by
        rw [List.idxOf_append_of_notMem (apart node), idxOf_map injective]
      rw [List.map_cons, List.map_cons, Token.map, position]
      exact .seen (List.mem_append_right _ (List.mem_map_of_mem met)) ih
  | @node visited below after fields inner tokens node notMet _ _ ihInside ihRest =>
      have notMetAfter : rename node ∉ before ++ visited.map rename := by
        rw [List.mem_append, List.mem_map_of_injective injective]
        rintro (inBefore | inVisited)
        · exact apart node inBefore
        · exact notMet inVisited
      rw [List.map_append, List.map_singleton, ← List.append_assoc, ← sameContent] at ihInside
      rw [List.map_append, List.map_append, List.map_singleton, ← List.append_assoc,
        ← List.append_assoc] at ihRest
      simp only [List.map_cons, List.map_append]
      exact .node notMetAfter ihInside ihRest

end Preorder

end WebbitGwt.Graph
