/-
**Calls for nested constructs.** What reads a source recurs in two places, for a node and for a
block.

* `NestedCall` is such a call and where it is made. A node fits only at its bracket
  (`NestedCall.Fits`).
* `NestedCall.inside` is the measure of the recursion: the characters that are left where the inside
  of the construct starts, which for a node is behind its bracket.
* `NestedCall.lt_of_chain`: what every call lowers, all chains of calls lower.
-/

import Mathlib.Logic.Relation
import TypedMarkup.Proofs.Source.Reach

namespace TypedMarkup

/-- A call for a nested construct. -/
inductive NestedCall (σ : Type) where
  /-- For a node. -/
  | node (here : σ)
  /-- For a block. -/
  | content (here : σ)
deriving DecidableEq

namespace NestedCall

variable {σ τ : Type}

/-- Where the call is made. -/
def here : NestedCall σ → σ
  | node here => here
  | content here => here

/-- The call, made at what `f` gives. -/
def map (f : σ → τ) : NestedCall σ → NestedCall τ
  | node here => node (f here)
  | content here => content (f here)

/-- Whether the construct can stand where the call is made. -/
def Fits : NestedCall Cursor → Prop
  | node here => here.head = some '['
  | content _ => True

instance decidableFits : DecidablePred Fits
  | node here => inferInstanceAs (Decidable (here.head = some '['))
  | content _ => inferInstanceAs (Decidable True)

/-- The number of characters left where the inside of the construct starts. -/
def inside : NestedCall Cursor → Nat
  | node here => here.rest.length - 1
  | content here => here.rest.length

/-- At the bracket of a node, that is left too. -/
theorem inside_node {here : Cursor} (found : here.head = some '[') :
    (node here).inside + 1 = here.rest.length := by
  rw [inside, Cursor.rest_of_head found]
  rfl

/-- **What every call lowers, a chain of calls lowers.** -/
theorem lt_of_chain (rank : NestedCall σ → Nat) {calls : NestedCall σ → NestedCall σ → Prop}
    (lowers : ∀ {call made}, calls call made → rank made < rank call) {call last : NestedCall σ}
    (chain : Relation.TransGen calls call last) : rank last < rank call := by
  induction chain with
  | single made => exact lowers made
  | tail _ made ih => exact Nat.lt_trans (lowers made) ih

end NestedCall

end TypedMarkup
