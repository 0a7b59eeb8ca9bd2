import Bem.Lib.Monitor

/-!
# Wakeups that are lost

A flag is raised once and for all, and the thread that raises it notifies the waiting threads after
that.  No thread stays blocked, unless a notification comes when a thread has found the flag down and
has not blocked yet.
-/

namespace Monitor

variable {T σ M C P ι : Type*}

/-- The command is sure to notify all threads at `c`. -/
def Cmd.Promises (c : C) : Cmd σ M C P ι → Prop
  | .notifyAll c' => c' = c
  | .seq cmd cmd' => cmd.Promises c ∨ cmd'.Promises c
  | .ite _ yes no => yes.Promises c ∧ no.Promises c
  | _ => False

/-- Where the command raises the flag it goes on to notify the threads at `c`, at the latest in what
stands `behind` it.  A wait at `c` does not last while the flag is up. -/
def Cmd.Announces (flag : σ → Bool) (c : C) : Cmd σ M C P ι → Prop → Prop
  | .seq cmd cmd', behind => cmd.Announces flag c (cmd'.Promises c ∨ behind) ∧ cmd'.Announces flag c behind
  | .ite _ yes no, behind => yes.Announces flag c behind ∧ no.Announces flag c behind
  | .any f, behind => ∀ i, (f i).Announces flag c behind
  | .act f, behind => (∀ d, flag d → flag (f d)) ∧ ((∀ d, flag (f d) → flag d) ∨ behind)
  | .wait c' _ p, _ => c' = c → ∀ d, flag d → p d
  -- no code is written with a wait that has begun
  | .block _ _ _, _ | .blocked _ _ _, _ | .relock _ _ _, _ => False
  | _, _ => True

/-- The same for a command that a thread has still to run. -/
def Cmd.Stands (flag : σ → Bool) (c : C) : Cmd σ M C P ι → Prop → Prop
  | .block c' _ p, _ | .blocked c' _ p, _ | .relock c' _ p, _ => c' = c → ∀ d, flag d → p d
  | cmd, behind => cmd.Announces flag c behind

/-- The threads at `c` are still to be notified. -/
def Promised (c : C) (code : List (Cmd σ M C P ι)) : Prop := ∃ cmd ∈ code, cmd.Promises c

def Announced (flag : σ → Bool) (c : C) : List (Cmd σ M C P ι) → Prop
  | [] => True
  | cmd :: rest => cmd.Stands flag c (Promised c rest) ∧ Announced flag c rest

section Deciding

variable [DecidableEq C]

/-- The predicate was false, and the thread is about to block. -/
def Cmd.blockingAt (c : C) : Cmd σ M C P ι → Bool
  | .block c' _ _ => c' == c
  | _ => false

def Cmd.waitsAt (c : C) (cmd : Cmd σ M C P ι) : Bool := cmd.blockingAt c || cmd.blockedAt c

instance (c : C) : (cmd : Cmd σ M C P ι) → Decidable (cmd.Promises c)
  | .notifyAll c' => inferInstanceAs (Decidable (c' = c))
  | .seq cmd cmd' =>
    have := instDecidablePromises c cmd
    have := instDecidablePromises c cmd'
    inferInstanceAs (Decidable (cmd.Promises c ∨ cmd'.Promises c))
  | .ite _ yes no =>
    have := instDecidablePromises c yes
    have := instDecidablePromises c no
    inferInstanceAs (Decidable (yes.Promises c ∧ no.Promises c))
  | .skip | .lock _ | .unlock _ | .act _ | .any _ | .call _ | .abort | .wait _ _ _ | .notifyOne _
  | .block _ _ _ | .blocked _ _ _ | .relock _ _ _ => .isFalse id

/-- No thread is about to block at a condition variable when all its threads are notified. -/
def State.reachesAll (s : State T σ M C P ι) : Op T C ι → Prop
  | .run t _ _ =>
    match s.code t with
    | .notifyAll c :: _ => ∀ u, (s.code u).any (Cmd.blockingAt c) = false
    | _ => True
  | _ => True

/-- Some thread has raised the flag, and has not notified the threads at `c` since. -/
def State.Pending (s : State T σ M C P ι) (c : C) : Prop := ∃ t, Promised c (s.code t)

/-- The condition variable all of whose threads are notified next. -/
def notifiesNext : List (Cmd σ M C P ι) → Option C
  | .notifyAll c :: _ => some c
  | _ => none

theorem State.reachesAll_run_iff {s : State T σ M C P ι} {t u : T} {i : ι} :
    s.reachesAll (.run t i u) ↔
      ∀ c ∈ notifiesNext (s.code t), ∀ u, (s.code u).any (Cmd.blockingAt c) = false := by
  unfold State.reachesAll notifiesNext
  dsimp only
  split
  · simp
  · simp

instance [Fintype T] (s : State T σ M C P ι) : (op : Op T C ι) → Decidable (s.reachesAll op)
  | .run _ _ _ => decidable_of_iff _ State.reachesAll_run_iff.symm
  | .wake _ _ | .interrupt _ => .isTrue trivial

structure State.Watched (flag : σ → Bool) (c : C) (s : State T σ M C P ι) : Prop where
  announced : ∀ t, Announced flag c (s.code t)
  woken : flag s.data → s.Pending c ∨ ∀ t, ∀ cmd ∈ s.code t, cmd.waitsAt c = false

end Deciding

/-! ## Commands -/

section Commands

variable {flag : σ → Bool} {c : C}

theorem Cmd.Announces.mono {cmd : Cmd σ M C P ι} {behind behind' : Prop}
    (h : cmd.Announces flag c behind) (himp : behind → behind') : cmd.Announces flag c behind' := by
  induction cmd generalizing behind behind' with
  | seq cmd cmd' ih ih' => exact ⟨ih h.1 fun hor => hor.imp_right himp, ih' h.2 himp⟩
  | ite p yes no ihyes ihno => exact ⟨ihyes h.1 himp, ihno h.2 himp⟩
  | any f ih => exact fun i => ih i (h i) himp
  | act f => exact ⟨h.1, h.2.imp_right himp⟩
  | wait | block | blocked | relock => exact h
  | _ => trivial

theorem Cmd.announces_either {yes no : Cmd σ M C P Nat} {behind : Prop} :
    (Cmd.either yes no).Announces flag c behind ↔
      yes.Announces flag c behind ∧ no.Announces flag c behind := by
  constructor
  · intro h
    exact ⟨h 0, h 1⟩
  · intro h i
    show (if i = 0 then yes else no).Announces _ _ _
    split
    · exact h.1
    · exact h.2

theorem Cmd.Announces.stands {cmd : Cmd σ M C P ι} {behind : Prop}
    (h : cmd.Announces flag c behind) : cmd.Stands flag c behind := by
  cases cmd with
  | block | blocked | relock => exact h.elim
  | _ => exact h

theorem promised_cons {cmd : Cmd σ M C P ι} {rest : List (Cmd σ M C P ι)} :
    Promised c (cmd :: rest) ↔ cmd.Promises c ∨ Promised c rest := by
  simp [Promised]

variable [DecidableEq C]

theorem Cmd.Announces.waitsAt {cmd : Cmd σ M C P ι} {behind : Prop}
    (h : cmd.Announces flag c behind) : cmd.waitsAt c = false := by
  cases cmd with
  | block | blocked => exact h.elim
  | _ => rfl

theorem promises_woken (c' : C) (cmd : Cmd σ M C P ι) : (cmd.woken c').Promises c ↔ cmd.Promises c := by
  unfold Cmd.woken
  split
  · split <;> rfl
  · rfl

theorem stands_woken (c' : C) (cmd : Cmd σ M C P ι) (behind : Prop) :
    (cmd.woken c').Stands flag c behind ↔ cmd.Stands flag c behind := by
  unfold Cmd.woken
  split
  · split <;> rfl
  · rfl

theorem promised_woken (c' : C) (code : List (Cmd σ M C P ι)) :
    Promised c (code.map (Cmd.woken c')) ↔ Promised c code := by
  simp [Promised, promises_woken]

theorem announced_woken (c' : C) (code : List (Cmd σ M C P ι)) :
    Announced flag c (code.map (Cmd.woken c')) ↔ Announced flag c code := by
  induction code with
  | nil => rfl
  | cons cmd rest ih =>
    show (cmd.woken c').Stands flag c _ ∧ _ ↔ _
    rw [stands_woken, promised_woken, ih]
    rfl

theorem waitsAt_woken {c' : C} {cmd : Cmd σ M C P ι} (h : (cmd.woken c').waitsAt c = true) :
    cmd.waitsAt c = true := by
  unfold Cmd.woken at h
  split at h
  · split at h
    · cases h
    · exact h
  · exact h

/-- After a notification only a thread that has not blocked yet may wait. -/
theorem waitsAt_woken_self (cmd : Cmd σ M C P ι) :
    (cmd.woken c).waitsAt c = cmd.blockingAt c := by
  unfold Cmd.woken
  split
  next c' m p =>
    split
    next => rfl
    next hne =>
      show (false || c' == c) = false
      simpa using hne
  next hother =>
    cases cmd with
    | blocked c' m p => exact absurd rfl (hother c' m p)
    | block => exact Bool.or_false _
    | _ => rfl

end Commands

/-! ## Runs -/

section Runs

variable [DecidableEq C] {flag : σ → Bool} {c : C} {prog : Program σ M C P ι}
variable {s s' : State T σ M C P ι} {t : T}

/-- Who holds the mutexes does not matter. -/
theorem State.Watched.owner (h : s.Watched flag c) (owner : M → Option T) :
    State.Watched flag c { s with owner } := ⟨h.announced, h.woken⟩

theorem State.Watched.wakeAll (h : s.Watched flag c) (c' : C) : (s.wakeAll c').Watched flag c where
  announced u := (announced_woken c' _).mpr (h.announced u)
  woken hflag := by
    cases h.woken hflag with
    | inl hpending => exact .inl (hpending.imp fun u hu => (promised_woken c' _).mpr hu)
    | inr hnone =>
      refine .inr fun u cmd hcmd => ?_
      rcases List.mem_map.mp hcmd with ⟨old, hold, rfl⟩
      by_contra hwait
      have hwas := waitsAt_woken (Bool.not_eq_false _ ▸ hwait)
      exact Bool.noConfusion (hwas.symm.trans (hnone u old hold))

/-- The notification that was promised. -/
theorem State.Watched.notifyAll (h : ∀ u, Announced flag c (s.code u))
    (hblocking : ∀ u, (s.code u).any (Cmd.blockingAt c) = false) : (s.wakeAll c).Watched flag c where
  announced u := (announced_woken c _).mpr (h u)
  woken _ := by
    refine .inr fun u cmd hcmd => ?_
    rcases List.mem_map.mp hcmd with ⟨old, hold, rfl⟩
    rw [waitsAt_woken_self]
    exact Bool.eq_false_iff.mpr (List.any_eq_false.mp (hblocking u) old hold)

variable [DecidableEq T]

/-- A thread goes on with other commands, and takes none of its promises back. -/
theorem State.Watched.goOn (h : s.Watched flag c) {code : List (Cmd σ M C P ι)}
    (hcode : Announced flag c code) (hpromise : Promised c (s.code t) → Promised c code)
    (hwaits : flag s.data → ∀ cmd ∈ code, cmd.waitsAt c = true → ∃ cmd ∈ s.code t, cmd.waitsAt c = true) :
    (s.goOn t code).Watched flag c where
  announced u := by
    rw [code_goOn, Function.update_apply]
    split
    · exact hcode
    · exact h.announced u
  woken hflag := by
    cases h.woken hflag with
    | inl hpending =>
      rcases hpending with ⟨u, hu⟩
      refine .inl ⟨u, ?_⟩
      rw [code_goOn, Function.update_apply]
      split
      next heq =>
        rw [heq] at hu
        exact hpromise hu
      next => exact hu
    | inr hnone =>
      refine .inr fun u cmd hcmd => ?_
      rw [code_goOn, Function.update_apply] at hcmd
      split at hcmd
      · by_contra hwait
        rcases hwaits hflag cmd hcmd (Bool.not_eq_false _ ▸ hwait) with ⟨other, hother, hold⟩
        exact Bool.noConfusion (hold.symm.trans (hnone t other hother))
      · exact hnone u cmd hcmd

theorem State.Watched.wake (h : s.Watched flag c) (c' : C) (u : T) :
    (s.wake c' u).Watched flag c := by
  refine h.goOn ((announced_woken c' _).mpr (h.announced u)) (promised_woken c' _).mpr
    fun _ cmd hcmd hwait => ?_
  rcases List.mem_map.mp hcmd with ⟨old, hold, rfl⟩
  exact ⟨old, hold, waitsAt_woken hwait⟩

/-- Code of the program comes in the place of a command. -/
theorem State.Watched.expand {cmd : Cmd σ M C P ι} {rest : List (Cmd σ M C P ι)}
    (h : s.Watched flag c) (code : List (Cmd σ M C P ι)) (hcode : s.code t = cmd :: rest)
    (hann : Announced flag c (code ++ rest)) (hwaits : ∀ x ∈ code, x.waitsAt c = false)
    (hpromise : cmd.Promises c → Promised c code) : (s.goOn t (code ++ rest)).Watched flag c := by
  refine h.goOn hann (fun hold => ?_) fun _ x hx hwait => ?_
  · rw [hcode, promised_cons] at hold
    cases hold with
    | inl hcmd =>
      exact (hpromise hcmd).imp fun x hx => ⟨List.mem_append_left _ hx.1, hx.2⟩
    | inr hrest => exact hrest.imp fun x hx => ⟨List.mem_append_right _ hx.1, hx.2⟩
  · rw [hcode]
    cases List.mem_append.mp hx with
    | inl hnew => exact Bool.noConfusion (hwait.symm.trans (hwaits x hnew))
    | inr hold => exact ⟨x, List.mem_cons_of_mem _ hold, hwait⟩

/-- A command that promises nothing comes in the place of one that promises nothing either. -/
theorem State.Watched.swap {cmd cmd' : Cmd σ M C P ι} {rest : List (Cmd σ M C P ι)}
    (h : s.Watched flag c) (hcode : s.code t = cmd :: rest)
    (hstands : cmd'.Stands flag c (Promised c rest)) (hpromise : ¬ cmd.Promises c)
    (hwaits : flag s.data → cmd'.waitsAt c = true → cmd.waitsAt c = true) :
    (s.goOn t (cmd' :: rest)).Watched flag c := by
  have hann := h.announced t
  rw [hcode] at hann
  refine h.goOn ⟨hstands, hann.2⟩ (fun hold => ?_) fun hflag x hx hwait => ?_
  · rw [hcode, promised_cons] at hold
    exact promised_cons.mpr (.inr (hold.resolve_left hpromise))
  · rw [hcode]
    cases List.mem_cons.mp hx with
    | inl heq =>
      rw [heq] at hwait
      exact ⟨cmd, List.mem_cons_self, hwaits hflag hwait⟩
    | inr hold => exact ⟨x, List.mem_cons_of_mem _ hold, hwait⟩

variable [DecidableEq M]

theorem watched_run {i : ι} {u : T} (hprog : ∀ p, (prog.body p).Announces flag c False)
    (h : s.Watched flag c) (hreaches : s.reachesAll (.run t i u))
    (hok : s.step prog (.run t i u) = .ok s') : s'.Watched flag c := by
  have hann := h.announced t
  unfold State.step at hok
  unfold State.reachesAll at hreaches
  dsimp only at hok hreaches
  cases hcode : s.code t with
  | nil =>
    rw [hcode] at hok
    cases hok
    exact h
  | cons cmd rest =>
    rw [hcode] at hok hreaches hann
    dsimp only at hok
    -- a command that promises nothing is done with
    have hdone (hcmd : ¬ cmd.Promises c) : (s.goOn t rest).Watched flag c :=
      h.expand [] hcode hann.2 (List.forall_mem_nil _) fun hpromise => absurd hpromise hcmd
    -- one piece of code comes in its place
    have hone (code : Cmd σ M C P ι) (hnew : code.Announces flag c (Promised c rest))
        (hpromise : cmd.Promises c → code.Promises c) : (s.goOn t (code :: rest)).Watched flag c :=
      h.expand [code] hcode ⟨hnew.stands, hann.2⟩
        (List.forall_mem_singleton.mpr hnew.waitsAt)
        fun hcmd => ⟨code, List.mem_singleton_self _, hpromise hcmd⟩
    unfold State.exec at hok
    cases cmd with
    | skip =>
      cases hok
      exact hdone id
    | seq cmd cmd' =>
      cases hok
      have hfirst : cmd.Announces flag c (Promised c (cmd' :: rest)) :=
        Cmd.Announces.mono hann.1.1 promised_cons.mpr
      refine h.expand [cmd, cmd'] hcode
        ⟨hfirst.stands, Cmd.Announces.stands hann.1.2, hann.2⟩ ?_ ?_
      · simp [hann.1.1.waitsAt, hann.1.2.waitsAt]
      · intro hpromise
        have hor : cmd.Promises c ∨ cmd'.Promises c := hpromise
        simpa [Promised] using hor
    | lock m =>
      cases hok
      exact (hdone id).owner _
    | unlock m =>
      cases hok
      exact (hdone id).owner _
    | act f =>
      cases hok
      have hrest := hdone id
      refine ⟨hrest.announced, fun hflag => ?_⟩
      cases hann.1.2 with
      | inl hquiet => exact hrest.woken (hquiet _ hflag)
      | inr hbehind =>
        -- the flag is raised, and the notification stands behind
        refine .inl ⟨t, ?_⟩
        show Promised c (Function.update s.code t rest t)
        rw [Function.update_self]
        exact hbehind
    | ite p yes no =>
      cases hok
      split
      · exact hone yes hann.1.1 fun hpromise => hpromise.1
      · exact hone no hann.1.2 fun hpromise => hpromise.2
    | any f =>
      cases hok
      exact hone (f i) (hann.1 i) False.elim
    | call p =>
      cases hok
      exact hone (prog.body p) ((hprog p).mono False.elim) False.elim
    | abort => cases hok
    | wait c' m p =>
      cases hok
      split
      next => exact hdone id
      next hfalse =>
        refine h.swap hcode hann.1 id fun hflag hwait => ?_
        -- no thread starts to wait while the flag is up
        have hc : c' = c := by simpa [Cmd.waitsAt, Cmd.blockingAt, Cmd.blockedAt] using hwait
        exact absurd (hann.1 hc s.data hflag) hfalse
    | notifyOne c' =>
      cases hok
      exact (hdone id).wake c' u
    | notifyAll c' =>
      cases hok
      by_cases hc : c' = c
      · subst hc
        refine State.Watched.notifyAll (fun v => ?_) fun v => ?_
        all_goals rw [State.code_goOn, Function.update_apply]
        · split
          · exact hann.2
          · exact h.announced v
        · split
          · have hall := hreaches t
            rw [hcode, List.any_cons, Bool.or_eq_false_iff] at hall
            exact hall.2
          · exact hreaches v
      · exact (hdone hc).wakeAll c'
    | block c' m p =>
      cases hok
      refine State.Watched.swap (s := s.release m) (h.owner _) hcode hann.1 id fun _ hwait => ?_
      simpa [Cmd.waitsAt, Cmd.blockingAt, Cmd.blockedAt] using hwait
    | blocked c' m p =>
      cases hok
      exact h
    | relock c' m p =>
      cases hok
      exact (hone (.wait c' m p) hann.1 False.elim).owner _

theorem watched_step {op : Op T C ι} (hprog : ∀ p, (prog.body p).Announces flag c False)
    (h : s.Watched flag c) (hreaches : s.reachesAll op) (hok : prog.threads.step s op = .ok s') :
    s'.Watched flag c := by
  cases op with
  | run t i u => exact watched_run hprog h hreaches hok
  | wake t c' =>
    cases hok
    exact h.wake c' t
  | interrupt t =>
    have hstep : s.step prog (.interrupt t) = .ok s' := hok
    unfold State.step at hstep
    dsimp only at hstep
    split at hstep <;> cases hstep
    next => exact h
    next p hp =>
      refine h.goOn ⟨trivial, h.announced t⟩ (fun hpromise => promised_cons.mpr (.inr hpromise))
        fun _ x hx hwait => ?_
      cases List.mem_cons.mp hx with
      | inl heq =>
        rw [heq] at hwait
        cases hwait
      | inr hold => exact ⟨x, hold, hwait⟩

/-- Once the flag is up and all notifications are sent, nobody is left blocked. -/
theorem no_lost_wakeup {ops : List (Op T C ι)} (hprog : ∀ p, (prog.body p).Announces flag c False)
    (hdown : flag s.data = false) (hstart : ∀ t, Announced flag c (s.code t))
    (hrun : prog.threads.Run State.reachesAll s ops s') (hup : flag s'.data) (hdone : ¬ s'.Pending c)
    (t : T) : s'.asleep c t = false := by
  have hwatched : s'.Watched flag c :=
    hrun.invariant (fun _ _ _ hs _ hreaches hok => watched_step hprog hs hreaches hok)
      ⟨hstart, fun hflag => Bool.noConfusion (hdown.symm.trans hflag)⟩
  have hnone := (hwatched.woken hup).resolve_left hdone t
  refine List.any_eq_false.mpr fun cmd hcmd => ?_
  have hwait := hnone cmd hcmd
  rw [Cmd.waitsAt, Bool.or_eq_false_iff] at hwait
  exact Bool.eq_false_iff.mp hwait.2

end Runs

end Monitor
