import WebbitGwt.Graph.Preorder

/-!
# Unfolding a graph

What can be told of a node by following references: the labels at the ends of all
paths.  Two nodes of different graphs may unfold alike; a copy does.
-/

namespace WebbitGwt.Graph

variable {V R L : Type} (content : R → List (Field V R)) (label : R → L)

/-- The label at the end of a path, which gives the position of a reference among the
fields at each node. -/
def unfolding (start : R) : List Nat → Option L
  | [] => some (label start)
  | position :: path =>
      match (content start)[position]? with
      | some (.reference (some target)) => unfolding target path
      | _ => none

/-- Renaming that keeps labels and fields keeps what can be told. -/
theorem unfolding_rename {T : Type} {content : R → List (Field V R)} {label : R → L}
    {others : T → List (Field V T)} {otherLabel : T → L} {rename : R → T}
    {roots : List (Option R)}
    (sameContent : ∀ node, Reachable content roots node →
      others (rename node) = (content node).map (Field.map rename))
    (sameLabel : ∀ node, Reachable content roots node → otherLabel (rename node) = label node)
    {start : R} (reachable : Reachable content roots start) (path : List Nat) :
    unfolding others otherLabel (rename start) path = unfolding content label start path := by
  induction path generalizing start with
  | nil => rw [unfolding, unfolding, sameLabel start reachable]
  | cons position path ih =>
      rw [unfolding, unfolding, sameContent start reachable, List.getElem?_map]
      cases found : (content start)[position]? with
      | none => rfl
      | some field =>
          rcases field with held | _ | target
          · rfl
          · rfl
          · exact ih (reachable.field (List.mem_of_getElem? found))

end WebbitGwt.Graph
