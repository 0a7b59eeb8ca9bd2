import Bem.Lib.Machine
import Mathlib.Data.List.Basic

/-!
# Queues that are written out piece by piece

Items come to the end of a queue.  A writer takes them off one after the other, encodes each and puts
it out in pieces.  What has been put out, what is left of the item in hand and what is queued are all
that ever came, unless the writer turns to the next item with something left.
-/

structure Outflow (M α : Type*) where
  /-- What has been put out. -/
  wire : List α := []
  /-- What is left of the item in hand. -/
  rest : List α := []
  queue : List M := []

namespace Outflow

variable {M α : Type*} (encode : M → List α)

def enter (item : M) (f : Outflow M α) : Outflow M α := { f with queue := f.queue ++ [item] }

/-- The next item is encoded. -/
def take (f : Outflow M α) : Outflow M α :=
  match f.queue with
  | [] => f
  | item :: queue => { f with rest := encode item, queue }

/-- The next `n` of what is left are put out. -/
def put (n : Nat) (f : Outflow M α) : Outflow M α :=
  { f with wire := f.wire ++ f.rest.take n, rest := f.rest.drop n }

/-- What is left is given up. -/
def discard (f : Outflow M α) : Outflow M α := { f with rest := [] }

/-- Put out or still there. -/
def present (f : Outflow M α) : List α := f.wire ++ f.rest ++ f.queue.flatMap encode

/-- Nothing of `items` is missing, and nothing is out of order. -/
def Whole (items : List M) (f : Outflow M α) : Prop := f.present encode = items.flatMap encode

variable {encode} {f : Outflow M α} {items : List M} {item : M} {n : Nat}

theorem present_enter : (f.enter item).present encode = f.present encode ++ encode item := by
  show f.wire ++ f.rest ++ (f.queue ++ [item]).flatMap encode = _
  rw [List.flatMap_append, List.flatMap_singleton, present, List.append_assoc (f.wire ++ f.rest)]

theorem present_take (hrest : f.rest = []) : (f.take encode).present encode = f.present encode := by
  unfold take present
  split
  · rfl
  next item queue hqueue =>
    rw [hrest, hqueue, List.append_nil, List.flatMap_cons, List.append_assoc]

theorem present_put : (f.put n).present encode = f.present encode := by
  show f.wire ++ f.rest.take n ++ f.rest.drop n ++ f.queue.flatMap encode = _
  rw [List.append_assoc f.wire, List.take_append_drop, present]

theorem length_present_discard :
    (f.discard.present encode).length + f.rest.length = (f.present encode).length := by
  show (f.wire ++ [] ++ f.queue.flatMap encode).length + f.rest.length = _
  simp only [present, List.append_nil, List.length_append]
  omega

theorem Whole.enter (h : f.Whole encode items) : (f.enter item).Whole encode (items ++ [item]) := by
  unfold Whole at h ⊢
  rw [present_enter, h, List.flatMap_append, List.flatMap_singleton]

/-- What has been put out is the beginning of all that came. -/
theorem Whole.wire_prefix (h : f.Whole encode items) : f.wire <+: items.flatMap encode :=
  ⟨f.rest ++ f.queue.flatMap encode, by rw [← h, present, List.append_assoc]⟩

/-! ## Machines that write a queue out -/

section Runs

variable {σ ι ε : Type*} {machine : Machine σ ι ε} {P Q : σ → ι → Prop}
variable {flow : σ → Outflow M α} {entered : ι → List M}

theorem present_run {s s' : σ} {ops : List ι}
    (hstep : ∀ s op s', P s op → machine.enabled s op → machine.step s op = .ok s' →
      (flow s').present encode = (flow s).present encode ++ (entered op).flatMap encode)
    (h : machine.Run P s ops s') :
    (flow s').present encode =
      (flow s).present encode ++ (ops.flatMap entered).flatMap encode := by
  induction h with
  | nil => simp
  | cons henabled hP hok _ ih =>
    rw [ih, hstep _ _ _ hP henabled hok, List.flatMap_cons, List.flatMap_append, List.append_assoc]

/-- When the steps that do not meet `Q` lose something, a run loses nothing exactly if all its steps
meet `Q`. -/
theorem present_run_iff {s s' : σ} {ops : List ι}
    (hkeep : ∀ s op s', P s op → Q s op → machine.enabled s op → machine.step s op = .ok s' →
      (flow s').present encode = (flow s).present encode ++ (entered op).flatMap encode)
    (hlose : ∀ s op s', P s op → ¬Q s op → machine.enabled s op → machine.step s op = .ok s' →
      ((flow s').present encode).length <
        ((flow s).present encode).length + ((entered op).flatMap encode).length)
    (h : machine.Run P s ops s') :
    (flow s').present encode =
      (flow s).present encode ++ (ops.flatMap entered).flatMap encode ↔ machine.Run Q s ops s' := by
  -- bytes that are once lost are missed to the end of the run, which lengths show
  have hboth : ((flow s').present encode).length ≤
      ((flow s).present encode).length + ((ops.flatMap entered).flatMap encode).length ∧
      (((flow s').present encode).length =
        ((flow s).present encode).length + ((ops.flatMap entered).flatMap encode).length →
          machine.Run Q s ops s') := by
    induction h with
    | nil s => exact ⟨by simp, fun _ => .nil s⟩
    | @cons s s₁ s₂ op ops henabled hP hok _ ih =>
      rw [List.flatMap_cons, List.flatMap_append, List.length_append]
      by_cases hQ : Q s op
      · have hlength := congrArg List.length (hkeep s op s₁ hP hQ henabled hok)
        rw [List.length_append] at hlength
        exact ⟨by omega, fun heq => .cons henabled hQ hok (ih.2 (by omega))⟩
      · have hless := hlose s op s₁ hP hQ henabled hok
        exact ⟨by omega, fun heq => by omega⟩
  constructor
  · intro heq
    apply hboth.2
    rw [heq, List.length_append]
  · intro hQ
    exact present_run (fun s op s' hPQ => hkeep s op s' hPQ.1 hPQ.2) (h.and hQ)

end Runs

end Outflow
