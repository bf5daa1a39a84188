/-
Module: Unshield.Foundation.LinkedNodes
Purpose: Singly linked lists of nodes that are found by their addresses.
Trusted boundary: none
Main exports: LinkedNodes.Node, LinkedNodes.Linked, LinkedNodes.Linked.unique, LinkedNodes.setNext
-/
import Mathlib.Logic.Function.Basic

namespace LinkedNodes

variable {V : Type}

/-- A value, and the address of the node behind it. -/
structure Node (V : Type) where
  value : V
  next : Option Nat := none

/-- The values that are found from an address by following the nodes to the end. -/
inductive Linked (nodes : Nat → Option (Node V)) : Option Nat → List V → Prop where
  | nil : Linked nodes none []
  | cons {address : Nat} {node : Node V} {rest : List V} (found : nodes address = some node)
      (behind : Linked nodes node.next rest) : Linked nodes (some address) (node.value :: rest)

variable {nodes : Nat → Option (Node V)}

/-- An address leads to one list at most. -/
theorem Linked.unique {start : Option Nat} {one two : List V} (first : Linked nodes start one)
    (second : Linked nodes start two) : one = two := by
  induction first generalizing two with
  | nil =>
      cases second
      rfl
  | cons found _ ih =>
      cases second with
      | cons found' behind =>
          obtain rfl := Option.some.inj (found.symm.trans found')
          rw [ih behind]

/-- The store `node->next = next`. -/
def setNext (nodes : Nat → Option (Node V)) (address : Nat) (next : Option Nat) :
    Nat → Option (Node V) :=
  Function.update nodes address ((nodes address).map fun found => { found with next })

theorem setNext_self {address : Nat} {node : Node V} (found : nodes address = some node)
    (next : Option Nat) : setNext nodes address next address = some { node with next } := by
  rw [setNext, Function.update_self, found]
  rfl

theorem setNext_of_ne {address other : Nat} (apart : other ≠ address) (next : Option Nat) :
    setNext nodes address next other = nodes other :=
  Function.update_of_ne apart _ _

end LinkedNodes
