import Mathlib.Data.Fintype.Basic
import Mathlib.Logic.Function.Basic
import Bem.Lib.Machine

/-!
# Threads with mutexes and condition variables

A command language for threads that share data: mutexes, waits for a predicate at a condition
variable, notifications, procedures, and choices of the environment.  The mutexes are not recursive.
A thread carries the commands that it has still to run, and an interrupt puts its handler before
them.
-/

namespace Monitor

/-- `σ` is the shared data, `M` the mutexes, `C` the condition variables, `P` the procedures and `ι`
what the environment can choose. -/
inductive Cmd (σ M C P ι : Type*)
  | skip
  | seq (first rest : Cmd σ M C P ι)
  | lock (m : M)
  | unlock (m : M)
  | act (f : σ → σ)
  | ite (p : σ → Bool) (yes no : Cmd σ M C P ι)
  | any (f : ι → Cmd σ M C P ι)
  | call (p : P)
  /-- The whole program ends here. -/
  | abort
  /-- Test the predicate with the mutex held, and block while it is false. -/
  | wait (c : C) (m : M) (p : σ → Bool)
  | notifyOne (c : C)
  | notifyAll (c : C)
  -- The places of a wait that has begun: the predicate was false, the thread is blocked, the thread
  -- was woken and needs the mutex.
  | block (c : C) (m : M) (p : σ → Bool)
  | blocked (c : C) (m : M) (p : σ → Bool)
  | relock (c : C) (m : M) (p : σ → Bool)

/-- Commands run one after the other. -/
def Cmd.all {σ M C P ι : Type*} : List (Cmd σ M C P ι) → Cmd σ M C P ι
  | [] => .skip
  | [cmd] => cmd
  | cmd :: cmds => .seq cmd (all cmds)

/-- A branch that the environment chooses. -/
def Cmd.either {σ M C P : Type*} (yes no : Cmd σ M C P Nat) : Cmd σ M C P Nat :=
  .any fun i => if i = 0 then yes else no

/-- The command that comes first. -/
def Cmd.first {σ M C P ι : Type*} : Cmd σ M C P ι → Cmd σ M C P ι
  | .seq cmd _ => cmd.first
  | cmd => cmd

/-- The bodies of the procedures, and the procedure that an interrupt runs. -/
structure Program (σ M C P ι : Type*) where
  body : P → Cmd σ M C P ι
  handler : Option P := none

structure State (T σ M C P ι : Type*) where
  data : σ
  owner : M → Option T := fun _ => none
  code : T → List (Cmd σ M C P ι)

inductive Op (T C ι : Type*)
  /-- The thread takes its next step.  The environment chooses `i`, and a notification of one thread
  goes to `u`. -/
  | run (t : T) (i : ι) (u : T)
  /-- A blocked thread may wake up for no reason. -/
  | wake (t : T) (c : C)
  | interrupt (t : T)

section Semantics

variable {T σ M C P ι : Type*}

/-- A notification reaches a thread that is blocked. -/
def Cmd.woken [DecidableEq C] (c : C) : Cmd σ M C P ι → Cmd σ M C P ι
  | .blocked c' m p => if c' = c then .relock c' m p else .blocked c' m p
  | cmd => cmd

def Cmd.blockedAt [DecidableEq C] (c : C) : Cmd σ M C P ι → Bool
  | .blocked c' _ _ => c' == c
  | _ => false

namespace State

/-- The thread is blocked, and no notification has come. -/
def asleep [DecidableEq C] (s : State T σ M C P ι) (c : C) (t : T) : Bool :=
  (s.code t).any (Cmd.blockedAt c)

def goOn [DecidableEq T] (t : T) (code : List (Cmd σ M C P ι)) (s : State T σ M C P ι) :
    State T σ M C P ι :=
  { s with code := Function.update s.code t code }

@[simp] theorem code_goOn [DecidableEq T] (s : State T σ M C P ι) (t : T)
    (code : List (Cmd σ M C P ι)) : (s.goOn t code).code = Function.update s.code t code := rfl

@[simp] theorem owner_goOn [DecidableEq T] (s : State T σ M C P ι) (t : T)
    (code : List (Cmd σ M C P ι)) : (s.goOn t code).owner = s.owner := rfl

def take [DecidableEq M] (t : T) (m : M) (s : State T σ M C P ι) : State T σ M C P ι :=
  { s with owner := Function.update s.owner m (some t) }

def release [DecidableEq M] (m : M) (s : State T σ M C P ι) : State T σ M C P ι :=
  { s with owner := Function.update s.owner m none }

def wake [DecidableEq T] [DecidableEq C] (c : C) (t : T) (s : State T σ M C P ι) :
    State T σ M C P ι :=
  s.goOn t ((s.code t).map (Cmd.woken c))

def wakeAll [DecidableEq C] (c : C) (s : State T σ M C P ι) : State T σ M C P ι :=
  { s with code := fun t => (s.code t).map (Cmd.woken c) }

section Step

variable [DecidableEq T] [DecidableEq M] [DecidableEq C]

/-- The first command of a thread, with the ones behind it. -/
def exec (prog : Program σ M C P ι) (t : T) (i : ι) (u : T) (s : State T σ M C P ι)
    (rest : List (Cmd σ M C P ι)) : Cmd σ M C P ι → Except Unit (State T σ M C P ι)
  | .skip => .ok (s.goOn t rest)
  | .seq cmd cmd' => .ok (s.goOn t (cmd :: cmd' :: rest))
  | .lock m => .ok ((s.take t m).goOn t rest)
  | .unlock m => .ok ((s.release m).goOn t rest)
  | .act f => .ok { s.goOn t rest with data := f s.data }
  | .ite p yes no => .ok (s.goOn t ((if p s.data then yes else no) :: rest))
  | .any f => .ok (s.goOn t (f i :: rest))
  | .call p => .ok (s.goOn t (prog.body p :: rest))
  | .abort => .error ()
  | .wait c m p => .ok (if p s.data then s.goOn t rest else s.goOn t (.block c m p :: rest))
  | .notifyOne c => .ok ((s.goOn t rest).wake c u)
  | .notifyAll c => .ok ((s.goOn t rest).wakeAll c)
  | .block c m p => .ok ((s.release m).goOn t (.blocked c m p :: rest))
  | .blocked _ _ _ => .ok s
  | .relock c m p => .ok ((s.take t m).goOn t (.wait c m p :: rest))

def step (prog : Program σ M C P ι) (s : State T σ M C P ι) :
    Op T C ι → Except Unit (State T σ M C P ι)
  | .run t i u =>
    match s.code t with
    | [] => .ok s
    | cmd :: rest => s.exec prog t i u rest cmd
  | .wake t c => .ok (s.wake c t)
  | .interrupt t =>
    match prog.handler with
    | none => .ok s
    | some p => .ok (s.goOn t (.call p :: s.code t))

end Step

/-- The mutex that a thread needs for its next step. -/
def wants (s : State T σ M C P ι) (t : T) : Option M :=
  match s.code t with
  | .lock m :: _ => some m
  | .relock _ m _ :: _ => some m
  | _ => none

/-- The thread can run its next command, if the notification of one goes to `u`. -/
def ready [DecidableEq C] (s : State T σ M C P ι) (t u : T) : Prop :=
  match s.code t with
  | [] => False
  | .lock m :: _ => s.owner m = none
  | .relock _ m _ :: _ => s.owner m = none
  | .blocked _ _ _ :: _ => False
  | .notifyOne c :: _ => s.asleep c u ∨ ∀ v, ¬ s.asleep c v
  | _ => True

end State

variable [DecidableEq T] [DecidableEq M] [DecidableEq C]

/-- The threads of a program. -/
def Program.threads (prog : Program σ M C P ι) : Machine (State T σ M C P ι) (Op T C ι) Unit where
  enabled s
    | .run t _ u => s.ready t u
    | .wake _ _ => True
    | .interrupt _ => prog.handler.isSome
  step := State.step prog

instance [Fintype T] (s : State T σ M C P ι) (t u : T) : Decidable (s.ready t u) := by
  unfold State.ready
  split <;> infer_instance

instance [Fintype T] (prog : Program σ M C P ι) (s : State T σ M C P ι) (op : Op T C ι) :
    Decidable (prog.threads.enabled s op) :=
  match op with
  | .run t _ u => inferInstanceAs (Decidable (s.ready t u))
  | .wake _ _ => .isTrue trivial
  | .interrupt _ => inferInstanceAs (Decidable (prog.handler.isSome = true))

end Semantics

end Monitor
