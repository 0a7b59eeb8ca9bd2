import Mathlib.Data.List.Infix

/-!
# Channels

A channel keeps all that was ever put into it and all that was ever taken out of it.  Items come out in
the order in which they went in; those that have not come out yet are under way.
-/

universe u

structure Channel (α : Type u) where
  sent : List α
  received : List α
  inOrder : received <+: sent

namespace Channel

variable {α : Type u}

def empty : Channel α := ⟨[], [], List.prefix_rfl⟩

def inFlight (c : Channel α) : List α := c.sent.drop c.received.length

def put (a : α) (c : Channel α) : Channel α where
  sent := c.sent ++ [a]
  received := c.received
  inOrder := c.inOrder.trans (List.prefix_append _ _)

/-- The next item comes out, if there is one. -/
def next (c : Channel α) : Channel α where
  sent := c.sent
  received := c.sent.take (c.received.length + 1)
  inOrder := List.take_prefix _ _

variable (c : Channel α) (a : α)

@[simp] theorem sent_put : (c.put a).sent = c.sent ++ [a] := rfl

@[simp] theorem received_put : (c.put a).received = c.received := rfl

@[simp] theorem sent_next : c.next.sent = c.sent := rfl

theorem sent_eq : c.sent = c.received ++ c.inFlight := by
  have htake : c.sent.take c.received.length = c.received := List.prefix_iff_eq_take.mp c.inOrder |>.symm
  calc c.sent = c.sent.take c.received.length ++ c.sent.drop c.received.length :=
        (List.take_append_drop _ _).symm
    _ = c.received ++ c.inFlight := by rw [htake]; rfl

variable {c a} {rest : List α}

theorem received_next (h : c.inFlight = a :: rest) : c.next.received = c.received ++ [a] := by
  show c.sent.take (c.received.length + 1) = _
  rw [sent_eq c, h, List.take_append, List.take_of_length_le (Nat.le_succ _)]
  simp

end Channel
