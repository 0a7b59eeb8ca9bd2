import Mathlib.Logic.Function.Basic

/-!
# A heap of shared objects

`Heap α` holds the objects that several owners share by reference.  References are handed out in
increasing order, so `next` counts the objects ever made.
-/

/-- A reference to an object of a `Heap`. -/
abbrev Ref := Nat

structure Heap (α : Type*) where
  cell : Ref → α
  next : Ref

namespace Heap

variable {α : Type*}

def get (h : Heap α) (p : Ref) : α := h.cell p

def set (h : Heap α) (p : Ref) (a : α) : Heap α := { h with cell := Function.update h.cell p a }

/-- A new object, at the reference `h.next`. -/
def alloc (h : Heap α) (a : α) : Heap α :=
  { cell := Function.update h.cell h.next a, next := h.next + 1 }

@[simp] theorem get_set_self (h : Heap α) (p : Ref) (a : α) : (h.set p a).get p = a :=
  Function.update_self _ _ _

theorem get_set_ne {h : Heap α} {p q : Ref} {a : α} (hne : q ≠ p) :
    (h.set p a).get q = h.get q :=
  Function.update_of_ne hne _ _

theorem get_set (h : Heap α) (p q : Ref) (a : α) :
    (h.set p a).get q = if q = p then a else h.get q := by
  split
  next hq => rw [hq, get_set_self]
  next hq => exact get_set_ne hq

@[simp] theorem get_alloc_self (h : Heap α) (a : α) : (h.alloc a).get h.next = a :=
  Function.update_self _ _ _

theorem get_alloc_ne {h : Heap α} {a : α} {q : Ref} (hne : q ≠ h.next) :
    (h.alloc a).get q = h.get q :=
  Function.update_of_ne hne _ _

@[simp] theorem next_alloc (h : Heap α) (a : α) : (h.alloc a).next = h.next + 1 := rfl

end Heap
