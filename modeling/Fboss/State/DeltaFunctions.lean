import Fboss.Lib.FlatMap

/-!
# Walking the changes of a state delta

A `StateDelta` holds the old and the new switch state. A `NodeMapDelta` walks
one node map of each in key order and yields the nodes that differ: a node of
the new map only is added, one of the old map only is removed, and a key whose
node is another object in the new map is changed (`FlatMap.delta`). The model
compares nodes by value where the source compares their pointers; a node's key
is its ID, which the source reads off the node.

`DeltaFunctions::forEachChanged` calls one function per change: the changed
function with the old and the new node, the added function with the new node
and the removed function with the old one. The managers' functions can fail,
and the first failure ends the walk.
-/

namespace Fboss

namespace DeltaFunctions

variable {κ β σ ε : Type*}

/-- `forEachChanged(delta, changedFn, addedFn, removedFn)`. -/
def forEachChanged (delta : List (κ × Option β × Option β))
    (changedFn : κ → β → β → σ → Except ε σ) (addedFn removedFn : κ → β → σ → Except ε σ)
    (s : σ) : Except ε σ :=
  delta.foldlM (fun s d =>
    match d with
    | (k, some oldNode, some newNode) => changedFn k oldNode newNode s
    | (k, some oldNode, none) => removedFn k oldNode s
    | (k, none, some newNode) => addedFn k newNode s
    | (_, none, none) => pure s) s

end DeltaFunctions

/-- The delta of the node map that `f` reads off a node that may be absent in
either state (`VlanDelta::getArpDelta` and the like): an absent node has an
empty map. -/
def nodeMapDelta {V κ β : Type*} [LinearOrder κ] [DecidableEq β] (f : V → FlatMap κ β)
    (oldNode newNode : Option V) : List (κ × Option β × Option β) :=
  FlatMap.delta ((oldNode.map f).getD FlatMap.empty) ((newNode.map f).getD FlatMap.empty)

end Fboss
