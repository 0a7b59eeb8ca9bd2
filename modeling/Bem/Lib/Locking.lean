import Mathlib.Order.WellFounded
import Bem.Lib.Monitor

/-!
# The order of locking

A precondition calculus for the mutexes that a thread holds.  Mutexes have ranks, and a thread takes a
mutex only above all that it holds.  Threads whose code meets this never block each other.
-/

namespace Monitor

section Calculus

variable {T σ M C P ι R : Type*} [DecidableEq M] [Preorder R]

/-- The mutexes held before and after each procedure. -/
abbrev Contracts (P M : Type*) := P → List M × List M

/-- What must be held, last taken first, for the command to keep the order, wait with no further mutex
and end in `Q`. -/
def Cmd.wp (rank : M → R) (Γ : Contracts P M) : Cmd σ M C P ι → List M → (List M → Prop) → Prop
  | .seq cmd cmd', held, Q => cmd.wp rank Γ held fun held' => cmd'.wp rank Γ held' Q
  | .lock m, held, Q => (∀ m' ∈ held, rank m' < rank m) ∧ Q (m :: held)
  | .unlock m, held, Q => m ∈ held ∧ Q (held.erase m)
  | .ite _ yes no, held, Q => yes.wp rank Γ held Q ∧ no.wp rank Γ held Q
  | .any f, held, Q => ∀ i, (f i).wp rank Γ held Q
  | .call p, held, Q => held = (Γ p).1 ∧ Q (Γ p).2
  | .abort, _, _ => True
  | .wait _ m _, held, Q | .block _ m _, held, Q => held = [m] ∧ Q [m]
  | .blocked _ m _, held, Q | .relock _ m _, held, Q => held = [] ∧ Q [m]
  | .skip, held, Q | .act _, held, Q | .notifyOne _, held, Q | .notifyAll _, held, Q => Q held

/-- The procedures meet their contracts. -/
def Program.Orderly (rank : M → R) (Γ : Contracts P M) (prog : Program σ M C P ι) : Prop :=
  ∀ p, (prog.body p).wp rank Γ (Γ p).1 (· = (Γ p).2)

/-- The thread holds these mutexes, and can run its code to the end. -/
def Fits (rank : M → R) (Γ : Contracts P M) : List (Cmd σ M C P ι) → List M → Prop
  | [], held => held = []
  | cmd :: rest, held => cmd.wp rank Γ held (Fits rank Γ rest)

variable {rank : M → R} {Γ : Contracts P M}

theorem Cmd.wp_mono {cmd : Cmd σ M C P ι} {held : List M} {Q Q' : List M → Prop}
    (h : cmd.wp rank Γ held Q) (hQ : ∀ held, Q held → Q' held) : cmd.wp rank Γ held Q' := by
  induction cmd generalizing held Q Q' with
  | seq cmd cmd' ih ih' => exact ih h fun _ h' => ih' h' hQ
  | ite p yes no ihyes ihno => exact ⟨ihyes h.1 hQ, ihno h.2 hQ⟩
  | any f ih => exact fun i => ih i (h i) hQ
  | abort => trivial
  | skip | act | notifyOne | notifyAll => exact hQ _ h
  | lock | unlock | call | wait | block | blocked | relock => exact ⟨h.1, hQ _ h.2⟩

theorem Cmd.wp_either {yes no : Cmd σ M C P Nat} {held : List M} {Q : List M → Prop} :
    (Cmd.either yes no).wp rank Γ held Q ↔ yes.wp rank Γ held Q ∧ no.wp rank Γ held Q := by
  constructor
  · intro h
    exact ⟨h 0, h 1⟩
  · intro h i
    show Cmd.wp _ _ (if i = 0 then yes else no) _ _
    split
    · exact h.1
    · exact h.2

/-- A procedure that comes first finds its mutexes. -/
theorem Cmd.wp_first {cmd : Cmd σ M C P ι} {p : P} {held : List M} {Q : List M → Prop}
    (h : cmd.wp rank Γ held Q) (hfirst : cmd.first = .call p) : held = (Γ p).1 := by
  induction cmd generalizing Q with
  | seq cmd cmd' ih _ => exact ih h hfirst
  | call p' =>
    cases hfirst
    exact h.1
  | _ => cases hfirst

/-- A notification leaves a thread with the same mutexes to take. -/
theorem fits_woken [DecidableEq C] {c : C} {code : List (Cmd σ M C P ι)} {held : List M} :
    Fits rank Γ (code.map (Cmd.woken c)) held ↔ Fits rank Γ code held := by
  induction code generalizing held with
  | nil => rfl
  | cons cmd rest ih =>
    have hrest : Fits rank Γ (rest.map (Cmd.woken c)) = Fits rank Γ rest :=
      funext fun held => propext ih
    have hcmd : (cmd.woken c).wp rank Γ = cmd.wp rank Γ := by
      unfold Cmd.woken
      split
      · split <;> rfl
      · rfl
    show (cmd.woken c).wp rank Γ held (Fits rank Γ (rest.map (Cmd.woken c))) ↔ _
    rw [hrest, hcmd]
    rfl

end Calculus

/-! ## Runs -/

section Runs

variable {T σ M C P ι R : Type*} [DecidableEq M] [Preorder R]
variable {rank : M → R} {Γ : Contracts P M} {prog : Program σ M C P ι}
variable {s s' : State T σ M C P ι}

/-- Who holds what, and that every thread can go on with it. -/
structure State.Held (rank : M → R) (Γ : Contracts P M) (s : State T σ M C P ι) (held : T → List M) :
    Prop where
  owner : ∀ t m, m ∈ held t ↔ s.owner m = some t
  nodup : ∀ t, (held t).Nodup
  fits : ∀ t, Fits rank Γ (s.code t) (held t)

def State.Lockable (rank : M → R) (Γ : Contracts P M) (s : State T σ M C P ι) : Prop :=
  ∃ held, s.Held rank Γ held

namespace State.Held

variable {held : T → List M} {t : T} {rest : List (Cmd σ M C P ι)}

theorem wakeAll [DecidableEq C] (c : C) (h : s.Held rank Γ held) :
    (s.wakeAll c).Held rank Γ held where
  owner := h.owner
  nodup := h.nodup
  fits u := fits_woken.mpr (h.fits u)

variable [DecidableEq T]

/-- A thread goes on with the same mutexes. -/
theorem goOn (h : s.Held rank Γ held) (hrest : Fits rank Γ rest (held t)) :
    (s.goOn t rest).Held rank Γ held where
  owner := h.owner
  nodup := h.nodup
  fits u := by
    rw [code_goOn, Function.update_apply]
    split
    next heq =>
      rw [heq]
      exact hrest
    next => exact h.fits u

/-- A thread takes a mutex that is free. -/
theorem take {m : M} (h : s.Held rank Γ held) (hfree : s.owner m = none)
    (hrest : Fits rank Γ rest (m :: held t)) :
    ((s.take t m).goOn t rest).Held rank Γ (Function.update held t (m :: held t)) where
  owner u m' := by
    have howner := h.owner u m'
    by_cases hm : m' = m
    · subst hm
      have hnot : m' ∉ held u := fun hmem => by
        rw [howner.mp hmem] at hfree
        cases hfree
      by_cases hu : u = t
      · subst hu
        simp [State.take]
      · simp [State.take, Function.update_of_ne hu, hnot, Ne.symm hu]
    · by_cases hu : u = t
      · subst hu
        simp [State.take, hm, howner]
      · simp [State.take, Function.update_of_ne hm, Function.update_of_ne hu, howner]
  nodup u := by
    by_cases hu : u = t
    · subst hu
      rw [Function.update_self]
      refine List.nodup_cons.mpr ⟨fun hmem => ?_, h.nodup u⟩
      rw [(h.owner u m).mp hmem] at hfree
      cases hfree
    · rw [Function.update_of_ne hu]
      exact h.nodup u
  fits u := by
    by_cases hu : u = t
    · subst hu
      simpa using hrest
    · rw [code_goOn, Function.update_of_ne hu, Function.update_of_ne hu]
      exact h.fits u

/-- A thread gives a mutex back that it holds. -/
theorem release {m : M} (h : s.Held rank Γ held) (hmem : m ∈ held t)
    (hrest : Fits rank Γ rest ((held t).erase m)) :
    ((s.release m).goOn t rest).Held rank Γ (Function.update held t ((held t).erase m)) where
  owner u m' := by
    have howner := h.owner u m'
    by_cases hu : u = t
    · subst hu
      by_cases hm : m' = m
      · subst hm
        simp [State.release, (h.nodup u).mem_erase_iff]
      · simp [State.release, Function.update_of_ne hm, List.mem_erase_of_ne hm, howner]
    · by_cases hm : m' = m
      · subst hm
        -- nobody else can hold what this thread holds
        have hnot : m' ∉ held u := fun hmem' => by
          have hsame := (howner.mp hmem').symm.trans ((h.owner t m').mp hmem)
          exact hu (Option.some.inj hsame)
        simp [State.release, Function.update_of_ne hu, hnot]
      · simp [State.release, Function.update_of_ne hm, Function.update_of_ne hu, howner]
  nodup u := by
    by_cases hu : u = t
    · subst hu
      rw [Function.update_self]
      exact (h.nodup u).erase m
    · rw [Function.update_of_ne hu]
      exact h.nodup u
  fits u := by
    by_cases hu : u = t
    · subst hu
      simpa using hrest
    · rw [code_goOn, Function.update_of_ne hu, Function.update_of_ne hu]
      exact h.fits u

theorem wake [DecidableEq C] (c : C) (h : s.Held rank Γ held) : (s.wake c t).Held rank Γ held :=
  h.goOn (fits_woken.mpr (h.fits t))

end State.Held

variable [DecidableEq T] [DecidableEq C]

/-- Every step of a program whose procedures meet their contracts. -/
theorem lockable_run {t u : T} {i : ι} (hprog : prog.Orderly rank Γ) (h : s.Lockable rank Γ)
    (hready : s.ready t u) (hok : s.step prog (.run t i u) = .ok s') : s'.Lockable rank Γ := by
  rcases h with ⟨held, h⟩
  have hfits := h.fits t
  unfold State.step at hok
  unfold State.ready at hready
  dsimp only at hok
  cases hcode : s.code t with
  | nil =>
    rw [hcode] at hready
    exact hready.elim
  | cons cmd rest =>
    rw [hcode] at hok hready hfits
    dsimp only at hok
    unfold State.exec at hok
    cases cmd with
    | skip | seq =>
      cases hok
      exact ⟨held, h.goOn hfits⟩
    | act f =>
      cases hok
      have hrest := h.goOn (show Fits rank Γ rest (held t) from hfits)
      exact ⟨held, hrest.owner, hrest.nodup, hrest.fits⟩
    | lock m =>
      -- only a thread that finds the mutex free is ready
      cases hok
      exact ⟨_, h.take hready hfits.2⟩
    | unlock m =>
      cases hok
      exact ⟨_, h.release hfits.1 hfits.2⟩
    | ite p yes no =>
      cases hok
      refine ⟨held, h.goOn ?_⟩
      split
      · exact hfits.1
      · exact hfits.2
    | any f =>
      cases hok
      exact ⟨held, h.goOn (hfits i)⟩
    | call p =>
      -- the contract of the procedure stands for its body
      cases hok
      refine ⟨held, h.goOn ?_⟩
      show (prog.body p).wp rank Γ (held t) _
      rw [hfits.1]
      refine Cmd.wp_mono (hprog p) fun held' hpost => ?_
      rw [hpost]
      exact hfits.2
    | abort => cases hok
    | wait c m p =>
      have hrest : Fits rank Γ rest (held t) := by
        rw [hfits.1]
        exact hfits.2
      -- where the predicate holds the thread goes on, and otherwise it is to block
      cases hok
      split
      · exact ⟨held, h.goOn hrest⟩
      · exact ⟨held, h.goOn hfits⟩
    | notifyOne c =>
      cases hok
      have hrest := h.goOn (show Fits rank Γ rest (held t) from hfits)
      exact ⟨held, hrest.wake c⟩
    | notifyAll c =>
      cases hok
      have hrest := h.goOn (show Fits rank Γ rest (held t) from hfits)
      exact ⟨held, hrest.wakeAll c⟩
    | block c m p =>
      -- the one mutex that the thread holds is given up
      cases hok
      have hmem : m ∈ held t := by
        rw [hfits.1]
        exact List.mem_singleton_self m
      refine ⟨_, h.release hmem ⟨?_, hfits.2⟩⟩
      rw [hfits.1]
      exact List.erase_cons_head ..
    | blocked c m p => exact hready.elim
    | relock c m p =>
      cases hok
      refine ⟨_, h.take hready ⟨?_, hfits.2⟩⟩
      rw [hfits.1]

theorem lockable_step {op : Op T C ι} (hprog : prog.Orderly rank Γ) (hhandler : prog.handler = none)
    (h : s.Lockable rank Γ) (henabled : prog.threads.enabled s op)
    (hok : prog.threads.step s op = .ok s') : s'.Lockable rank Γ := by
  cases op with
  | run t i u => exact lockable_run hprog h henabled hok
  | wake t c =>
    cases hok
    exact h.imp fun held hheld => hheld.wake c
  | interrupt t =>
    have hsome : prog.handler.isSome := henabled
    rw [hhandler] at hsome
    cases hsome

/-- Threads that start with no mutex. -/
theorem lockable_threads {W : State T σ M C P ι → Op T C ι → Prop} {ops : List (Op T C ι)}
    (hprog : prog.Orderly rank Γ) (hhandler : prog.handler = none) (howner : ∀ m, s.owner m = none)
    (hstart : ∀ t, Fits rank Γ (s.code t) []) (hrun : prog.threads.Run W s ops s') :
    s'.Lockable rank Γ := by
  refine hrun.invariant (fun _ _ _ hs henabled _ hok => lockable_step hprog hhandler hs henabled hok)
    ⟨fun _ => [], fun t m => ?_, fun _ => List.nodup_nil, hstart⟩
  rw [howner m]
  simp

end Runs

/-! ## What holds of the threads -/

namespace State

variable {T σ M C P ι R : Type*} [DecidableEq M] [Preorder R]

def HoldsNothing (s : State T σ M C P ι) (t : T) : Prop := ∀ m, s.owner m ≠ some t

/-- Each thread of the set waits for a mutex that one of the set holds. -/
def MutuallyBlocked (s : State T σ M C P ι) (B : Set T) : Prop :=
  B.Nonempty ∧ ∀ t ∈ B, ∃ m, s.wants t = some m ∧ ∃ u ∈ B, s.owner m = some u

variable {rank : M → R} {Γ : Contracts P M} {s : State T σ M C P ι} {held : T → List M} {t : T}

theorem Held.holdsNothing (h : s.Held rank Γ held) (hheld : held t = []) : s.HoldsNothing t := by
  intro m hm
  have hmem := (h.owner t m).mpr hm
  rw [hheld] at hmem
  cases hmem

/-- A thread that holds a mutex waits for higher ones only. -/
theorem Held.rank_lt (h : s.Held rank Γ held) {m m' : M} (hm : s.owner m = some t)
    (hwants : s.wants t = some m') : rank m < rank m' := by
  have hmem := (h.owner t m).mpr hm
  have hfits := h.fits t
  unfold wants at hwants
  split at hwants
  next m'' rest hcode =>
    cases hwants
    rw [hcode] at hfits
    exact hfits.1 m hmem
  next c m'' p rest hcode =>
    -- a thread that was woken holds nothing
    rw [hcode] at hfits
    rw [hfits.1] at hmem
    cases hmem
  next => cases hwants

/-- No threads block each other: the highest mutex that one of them waits for is held by a thread that
waits for a higher one. -/
theorem Lockable.not_mutuallyBlocked [WellFoundedGT R] (h : s.Lockable rank Γ) (B : Set T) :
    ¬ s.MutuallyBlocked B := by
  rintro ⟨⟨t, ht⟩, hblocked⟩
  rcases h with ⟨held, h⟩
  let waited : Set R := { r | ∃ u ∈ B, ∃ m, s.wants u = some m ∧ rank m = r }
  have hwaited : waited.Nonempty := by
    obtain ⟨m, hwants, -⟩ := hblocked t ht
    exact ⟨rank m, t, ht, m, hwants, rfl⟩
  obtain ⟨r, ⟨u, hu, m, hwants, rfl⟩, hmax⟩ :=
    (wellFounded_gt : WellFounded fun r r' : R => r > r').has_min waited hwaited
  obtain ⟨m₁, hwants₁, v, hv, howner⟩ := hblocked u hu
  cases hwants.symm.trans hwants₁
  obtain ⟨m₂, hwants₂, -⟩ := hblocked v hv
  exact hmax (rank m₂) ⟨v, hv, m₂, hwants₂, rfl⟩ (h.rank_lt howner hwants₂)

theorem Lockable.finished (h : s.Lockable rank Γ) (hcode : s.code t = []) : s.HoldsNothing t := by
  rcases h with ⟨held, h⟩
  have hfits := h.fits t
  rw [hcode] at hfits
  exact h.holdsNothing hfits

/-- Before a procedure that needs no mutex, and so after the one before it. -/
theorem Lockable.between (h : s.Lockable rank Γ) {cmd : Cmd σ M C P ι} {p : P}
    {rest : List (Cmd σ M C P ι)} (hcode : s.code t = cmd :: rest) (hfirst : cmd.first = .call p)
    (hp : (Γ p).1 = []) : s.HoldsNothing t := by
  rcases h with ⟨held, h⟩
  have hfits := h.fits t
  rw [hcode] at hfits
  exact h.holdsNothing ((Cmd.wp_first hfits hfirst).trans hp)

theorem Lockable.blocked (h : s.Lockable rank Γ) {c : C} {m : M} {p : σ → Bool}
    {rest : List (Cmd σ M C P ι)} (hcode : s.code t = .blocked c m p :: rest) : s.HoldsNothing t := by
  rcases h with ⟨held, h⟩
  have hfits := h.fits t
  rw [hcode] at hfits
  exact h.holdsNothing hfits.1

/-- A thread that blocks gives back the only mutex that it holds. -/
theorem Lockable.block (h : s.Lockable rank Γ) {c : C} {m m' : M} {p : σ → Bool}
    {rest : List (Cmd σ M C P ι)} (hcode : s.code t = .block c m p :: rest)
    (hm : s.owner m' = some t) : m' = m := by
  rcases h with ⟨held, h⟩
  have hfits := h.fits t
  have hmem := (h.owner t m').mpr hm
  rw [hcode] at hfits
  rw [hfits.1] at hmem
  exact List.mem_singleton.mp hmem

end State

end Monitor
