import Mathlib.Data.List.Forall2
import Bem.Node.Program

/-!
# What a node reports

However the two threads interleave, a result that is sent belongs to a task that was played to its
end, and the results are sent in the order in which the tasks came.
-/

namespace Bem

namespace NodeProgram

/-! ## The logs -/

namespace State

/-- The tasks whose messages were handled, in their order. -/
def receivedTasks (s : State) : List Task :=
  s.handled.filterMap fun
    | .task msg => some msg.task
    | _ => none

/-- The results that were ever sent, in their order. -/
def reported (s : State) : List ResultMessage :=
  s.history.filterMap fun
    | .result msg => some msg
    | _ => none

theorem receivedTasks_finishHandling_task (s : State) (msg : TaskMessage) :
    (s.finishHandling (.task msg)).receivedTasks = s.receivedTasks ++ [msg.task] :=
  List.filterMap_append

theorem receivedTasks_finishHandling_taskNotify (s : State) (msg : TaskNotifyMessage) :
    (s.finishHandling (.taskNotify msg)).receivedTasks = s.receivedTasks :=
  List.filterMap_append.trans (List.append_nil _)

theorem reported_sendMessage_taskNotify (s : State) (msg : TaskNotifyMessage) :
    (s.sendMessage (.taskNotify msg)).reported = s.reported := by
  show List.filterMap _ (s.sendMessage _).history = _
  rw [history_sendMessage, List.filterMap_append]
  exact List.append_nil _

theorem reported_sendMessage_result (s : State) (msg : ResultMessage) :
    (s.sendMessage (.result msg)).reported = s.reported ++ [msg] := by
  show List.filterMap _ (s.sendMessage _).history = _
  rw [history_sendMessage, List.filterMap_append]
  rfl

theorem history_takeMessage (s : State) : s.takeMessage.history = s.history := by
  unfold takeMessage
  split
  next => rfl
  next msg sendMessageQueue hqueue =>
    show (s.written ++ [msg]) ++ sendMessageQueue = s.written ++ s.sendMessageQueue
    rw [hqueue, List.append_assoc]
    rfl

end State

/-! ## The steps beside the executor -/

/-- What a step of any other thread is to the executor. -/
structure Beside (s s' : State) : Prop where
  executor : s'.executor = s.executor
  started : s'.started = s.started
  config : s'.config = s.config
  quit : s.shouldQuit = true → s'.shouldQuit = true
  current : s'.currentTaskId = s.currentTaskId ∨ s'.currentTaskId = taskIdNone
  reported : s'.reported = s.reported
  queued : ∃ tasks, s'.receivedTasks = s.receivedTasks ++ tasks ∧
    s'.taskQueue = s.taskQueue ++ tasks

theorem beside_instructions (s : State) (place : Instructions) (queue : List Message) :
    Beside s { s with instructions := place, recvMessageQueue := queue } :=
  ⟨rfl, rfl, rfl, id, .inl rfl, rfl, [], (List.append_nil _).symm, (List.append_nil _).symm⟩

theorem beside_quit (s : State) : Beside s { s with shouldQuit := true } :=
  ⟨rfl, rfl, rfl, fun _ => rfl, .inl rfl, rfl, [], (List.append_nil _).symm,
    (List.append_nil _).symm⟩

/-- A notification is done with. -/
theorem Beside.finishHandling {s s' : State} (h : Beside s s') (msg : TaskNotifyMessage) :
    Beside s (s'.finishHandling (.taskNotify msg)) where
  executor := h.executor
  started := h.started
  config := h.config
  quit := h.quit
  current := h.current
  reported := h.reported
  queued := by
    cases h.queued with
    | intro tasks htasks =>
      exact ⟨tasks, (s'.receivedTasks_finishHandling_taskNotify msg).trans htasks.1, htasks.2⟩

theorem beside_instruct {s s' : State} (h : s.instruct = .ok s') : Beside s s' := by
  cases instructed h with
  | move place queue => exact beside_instructions s place queue
  | task msg hplace =>
    exact ⟨rfl, rfl, rfl, id, .inl rfl, rfl, [msg.task],
      State.receivedTasks_finishHandling_task _ msg, rfl⟩
  | ignore msg hplace =>
    exact (beside_instructions s s.instructions s.recvMessageQueue).finishHandling msg
  | reply question msg hplace =>
    have hsend : Beside s (s.sendMessage (.taskNotify msg)) :=
      ⟨rfl, rfl, rfl, id, .inl rfl, s.reported_sendMessage_taskNotify msg, [],
        (List.append_nil _).symm, (List.append_nil _).symm⟩
    exact hsend.finishHandling question
  | cancel taskId hplace =>
    have hstore : Beside s { s with currentTaskId := taskIdNone } :=
      ⟨rfl, rfl, rfl, id, .inr rfl, rfl, [], (List.append_nil _).symm, (List.append_nil _).symm⟩
    exact hstore.finishHandling _
  | quit =>
    exact ⟨rfl, rfl, rfl, fun _ => rfl, .inl rfl, rfl, [], (List.append_nil _).symm,
      (List.append_nil _).symm⟩

theorem beside_takeMessage (s : State) : Beside s s.takeMessage := by
  have hreported : s.takeMessage.reported = s.reported :=
    congrArg (List.filterMap _) s.history_takeMessage
  unfold State.takeMessage at hreported ⊢
  split at hreported
  · exact beside_instructions s s.instructions s.recvMessageQueue
  · exact ⟨rfl, rfl, rfl, id, .inl rfl, hreported, [], (List.append_nil _).symm,
      (List.append_nil _).symm⟩

/-! ## The games of a task -/

/-- All games so far are counted. -/
def Play.Counted (p : Play) : Prop :=
  ∃ outcomes : List GameOutcomeFlags, (∀ flags ∈ outcomes, flags.IsOutcome) ∧
    outcomes.length = p.i.toNat ∧ p.result = tally outcomes

theorem toNat_succ_of_lt {i n : UInt32} (h : i < n) : (i + 1).toNat = i.toNat + 1 := by
  have hlt := UInt32.lt_iff_toNat_lt.mp h
  have hn := n.toNat_lt
  exact toNat_add_one (by omega)

theorem Play.Counted.countGame {p : Play} {flags : GameOutcomeFlags} (h : p.Counted)
    (hflags : flags.IsOutcome) (hi : p.i < p.task.games) :
    Counted { p with i := p.i + 1, result := Bem.countGame p.result flags } := by
  unfold Counted at h
  rcases h with ⟨outcomes, houtcomes, hlength, hresult⟩
  refine ⟨outcomes ++ [flags], ?_, ?_, ?_⟩
  · rw [List.forall_mem_append, List.forall_mem_singleton]
    exact ⟨houtcomes, hflags⟩
  · rw [List.length_append, List.length_singleton, hlength]
    exact (toNat_succ_of_lt hi).symm
  · show Bem.countGame p.result flags = _
    rw [tally_concat, hresult]

theorem Play.Counted.produces {p : Play} (h : p.Counted) (hi : p.i = p.task.games) :
    Produces p.task p.result := by
  unfold Counted at h
  rw [hi] at h
  exact h

/-- What holds of a task while it is played, by the two variables that can stop it. -/
structure Play.Sound (shouldQuit : Bool) (currentTaskId : TaskId) (p : Play) : Prop where
  counted : p.Counted
  -- only the executor makes a task the current one
  current : currentTaskId = p.task.id ∨ currentTaskId = taskIdNone
  stopped : p.cutShort = true → shouldQuit = true ∨ currentTaskId = taskIdNone

theorem Play.Sound.beside {s s' : State} {p : Play} (h : p.Sound s.shouldQuit s.currentTaskId)
    (hbeside : Beside s s') : p.Sound s'.shouldQuit s'.currentTaskId := by
  cases hbeside.current with
  | inr heq => exact ⟨h.counted, .inr heq, fun _ => .inr heq⟩
  | inl heq =>
    rw [heq]
    exact ⟨h.counted, h.current, fun hcut => (h.stopped hcut).imp_left hbeside.quit⟩

/-- What holds at the places of the executor. -/
def State.Sound (s : State) : Prop :=
  match s.executor with
  | .preparing task => s.currentTaskId = task.id ∨ s.currentTaskId = taskIdNone
  | .playing p => p.Sound s.shouldQuit s.currentTaskId ∧ p.i ≤ p.task.games
  | .checking p | .launching p | .reading p _ _ | .readingId p _ | .fetching p _ | .closing p _ =>
    p.Sound s.shouldQuit s.currentTaskId ∧ p.i < p.task.games
  | .played p => p.Sound s.shouldQuit s.currentTaskId ∧ (p.cutShort = false → p.i = p.task.games)
  | .deciding p =>
    p.Sound s.shouldQuit s.currentTaskId ∧ (p.cutShort = false → p.i = p.task.games) ∧
      (p.cutShort = true → s.currentTaskId = taskIdNone)
  | .sending p => p.Sound s.shouldQuit s.currentTaskId ∧ p.i = p.task.games ∧ p.cutShort = false
  | _ => True

section Sound

variable {s s' : State}

theorem State.Sound.beside (h : s.Sound) (hbeside : Beside s s') : s'.Sound := by
  unfold State.Sound at h ⊢
  rw [hbeside.executor]
  split at h
  case h_1 =>
    cases hbeside.current with
    | inl heq =>
      rw [heq]
      exact h
    | inr heq => exact .inr heq
  case h_10 =>
    refine ⟨h.1.beside hbeside, h.2.1, fun hcut => ?_⟩
    cases hbeside.current with
    | inl heq => exact heq.trans (h.2.2 hcut)
    | inr heq => exact heq
  case h_12 => trivial
  all_goals exact ⟨h.1.beside hbeside, h.2⟩

theorem sound_execute (h : s.execute = .ok s') (hs : s.Sound) : s'.Sound := by
  unfold State.Sound at hs
  cases executed h with
  | idle => exact hs
  | prepare hplace =>
    rw [hplace] at hs
    -- no game is counted yet
    exact ⟨⟨⟨[], List.forall_mem_nil _, rfl, rfl⟩, hs, Bool.noConfusion⟩, UInt32.zero_le⟩
  | check hplace hgame =>
    rw [hplace] at hs
    exact ⟨hs.1, hgame⟩
  | interrupt hplace hquit =>
    rw [hplace] at hs
    exact ⟨⟨hs.1.counted, hs.1.current, fun _ => .inl hquit⟩, Bool.noConfusion⟩
  | complete hplace hgames =>
    rw [hplace] at hs
    exact ⟨hs.1, fun _ => UInt32.le_antisymm hs.2 (UInt32.not_lt.mp hgames)⟩
  | cancel hplace hnone =>
    rw [hplace] at hs
    exact ⟨⟨hs.1.counted, hs.1.current, fun _ => .inr hnone⟩, Bool.noConfusion⟩
  | interruptGame hplace hquit =>
    rw [hplace] at hs
    exact ⟨⟨hs.1.counted, hs.1.current, fun _ => .inl hquit⟩, hs.2⟩
  | cancelGame hplace hnone =>
    rw [hplace] at hs
    exact ⟨⟨hs.1.counted, hs.1.current, fun _ => .inr hnone⟩, hs.2⟩
  | launch hplace | close hplace | look hplace | fetch hplace =>
    rw [hplace] at hs
    exact hs
  | compare hplace hrun =>
    rw [hplace] at hs
    exact ⟨hs.1, hs.2, fun hcut => (hs.1.stopped hcut).resolve_left hrun⟩
  | send hplace hsome =>
    rw [hplace] at hs
    -- a task that was cut short is not the current one any more
    have hcut := Bool.eq_false_iff.mpr fun hcut => hsome (hs.2.2 hcut)
    exact ⟨hs.1, hs.2.1 hcut, hcut⟩
  | store => exact .inl rfl
  | wait | leave | take | ignore | report | clear | finish => trivial

theorem Play.Sound.finishGame {p : Play} {flags : GameOutcomeFlags} (hs : p.Sound s.shouldQuit s.currentTaskId)
    (hi : p.i < p.task.games) (hflags : flags.IsOutcome) :
    State.Sound { s with executor := State.finishGame p flags } := by
  have hle : p.i + 1 ≤ p.task.games := by
    rw [UInt32.le_iff_toNat_le, toNat_succ_of_lt hi]
    exact UInt32.lt_iff_toNat_lt.mp hi
  exact ⟨⟨hs.counted.countGame hflags hi, hs.current, hs.stopped⟩, hle⟩

theorem sound_popen (opened : Bool) (hs : s.Sound) : (s.popen opened).Sound := by
  unfold State.popen
  split
  next p hplace =>
    simp only [State.Sound, hplace] at hs
    split
    · exact hs
    · exact hs.1.finishGame hs.2 (by decide)
  next => exact hs

theorem sound_fgets (line : Option (List Char)) (eof : Bool) (hs : s.Sound) :
    (s.fgets line eof).Sound := by
  unfold State.fgets
  split
  next p output hplace =>
    simp only [State.Sound, hplace] at hs
    exact hs
  next => exact hs

theorem sound_pclose (exitStatus : UInt8) (hs : s.Sound) : (s.pclose exitStatus).Sound := by
  unfold State.pclose
  split
  next p output hplace =>
    simp only [State.Sound, hplace] at hs
    exact hs.1.finishGame hs.2 (isOutcome_gameOutcome exitStatus output)
  next => exact hs

theorem sound_step {op : Op} (h : program.step s op = .ok s') (hs : s.Sound) : s'.Sound := by
  cases op with
  | deliver msg =>
    cases h
    exact hs.beside (beside_instructions s s.instructions _)
  | write =>
    cases h
    exact hs.beside (beside_takeMessage s)
  | quit =>
    cases h
    exact hs.beside (beside_quit s)
  | instruct => exact hs.beside (beside_instruct h)
  | execute => exact sound_execute h hs
  | popen opened =>
    cases h
    exact sound_popen opened hs
  | fgets line eof =>
    cases h
    exact sound_fgets line eof hs
  | pclose exitStatus =>
    cases h
    exact sound_pclose exitStatus hs

theorem sound_run {P : State → Op → Prop} {config : NodeConfig} {ops : List Op}
    (hrun : program.Run P (initial config) ops s) : s.Sound :=
  hrun.invariant (fun _ _ _ hs _ _ hok => sound_step hok hs) trivial

end Sound

/-! ## The order of the results -/

/-- The result is one of the task, and adds up. -/
structure Reports (msg : ResultMessage) (task : Task) : Prop where
  taskId : msg.taskId = task.id
  games : msg.result.games = task.games
  consistent : msg.result.Consistent

/-- The task that the executor has taken and not yet given up or reported. -/
def Executor.inHand : Executor → List Task
  | storing task | preparing task => [task]
  | playing p | checking p | launching p | reading p _ _ | readingId p _ | fetching p _
  | closing p _ | played p | deciding p | sending p => [p.task]
  | _ => []

/-- The executor takes the tasks in the order in which they come, and reports some of them. -/
structure State.InOrder (s : State) : Prop where
  taken : s.receivedTasks = s.started ++ s.taskQueue
  sent : ∃ given, s.started = given ++ s.executor.inHand ∧
    List.SublistForall₂ Reports s.reported given

section Sublist

variable {α β : Type*} {R : α → β → Prop} {l₁ : List α} {l₂ : List β}

theorem sublistForall₂_concat {a : α} {b : β} (h : List.SublistForall₂ R l₁ l₂) (hlast : R a b) :
    List.SublistForall₂ R (l₁ ++ [a]) (l₂ ++ [b]) := by
  rw [List.sublistForall₂_iff] at h ⊢
  rcases h with ⟨l, hmatch, hsub⟩
  exact ⟨l ++ [b], List.rel_append hmatch (.cons hlast .nil), hsub.append_right _⟩

theorem exists_of_sublistForall₂ (h : List.SublistForall₂ R l₁ l₂) {a : α} (ha : a ∈ l₁) :
    ∃ b ∈ l₂, R a b := by
  induction h with
  | nil => exact absurd ha List.not_mem_nil
  | cons hR _ ih =>
    rcases List.mem_cons.mp ha with rfl | ha
    · exact ⟨_, List.mem_cons_self, hR⟩
    · obtain ⟨b, hb, hab⟩ := ih ha
      exact ⟨b, List.mem_cons_of_mem _ hb, hab⟩
  | cons_right _ ih =>
    obtain ⟨b, hb, hab⟩ := ih ha
    exact ⟨b, List.mem_cons_of_mem _ hb, hab⟩

theorem sublistForall₂_append_right (h : List.SublistForall₂ R l₁ l₂) (l₃ : List β) :
    List.SublistForall₂ R l₁ (l₂ ++ l₃) := by
  rw [List.sublistForall₂_iff] at h ⊢
  rcases h with ⟨l, hmatch, hsub⟩
  exact ⟨l, hmatch, hsub.trans (List.sublist_append_left l₂ l₃)⟩

end Sublist

section InOrder

variable {s s' : State}

theorem State.InOrder.sublist (h : s.InOrder) :
    List.SublistForall₂ Reports s.reported s.receivedTasks := by
  rcases h.sent with ⟨given, hstarted, hsent⟩
  rw [h.taken, hstarted, List.append_assoc]
  exact sublistForall₂_append_right hsent _

theorem State.InOrder.beside (h : s.InOrder) (hbeside : Beside s s') : s'.InOrder where
  taken := by
    cases hbeside.queued with
    | intro tasks htasks =>
      rw [htasks.1, htasks.2, hbeside.started, h.taken, List.append_assoc]
  sent := by
    rw [hbeside.started, hbeside.executor, hbeside.reported]
    exact h.sent

/-- The executor goes on with the same task. -/
theorem State.InOrder.goOn (h : s.InOrder) {place place' : Executor} {id : TaskId}
    (hplace : s.executor = place) (hsame : place'.inHand = place.inHand) :
    State.InOrder { s with executor := place', currentTaskId := id } where
  taken := h.taken
  sent := by
    show ∃ given, s.started = given ++ place'.inHand ∧ _
    rw [hsame, ← hplace]
    exact h.sent

/-- The executor gives its task up. -/
theorem State.InOrder.giveUp (h : s.InOrder) {place : Executor} {quit : Bool}
    (hplace : place.inHand = []) :
    State.InOrder { s with executor := place, shouldQuit := quit } where
  taken := h.taken
  sent := by
    rcases h.sent with ⟨given, hstarted, hsent⟩
    refine ⟨s.started, ?_, ?_⟩
    · show s.started = s.started ++ place.inHand
      rw [hplace, List.append_nil]
    · show List.SublistForall₂ Reports s.reported s.started
      rw [hstarted]
      exact sublistForall₂_append_right hsent _

theorem inOrder_execute (h : s.execute = .ok s') (hsound : s.Sound) (hs : s.InOrder) :
    s'.InOrder := by
  cases executed h with
  | idle => exact hs
  | take hplace _ hqueue =>
    rcases hs.sent with ⟨given, hstarted, hsent⟩
    rw [hplace] at hstarted
    constructor
    · show s.receivedTasks = (s.started ++ [_]) ++ _
      rw [hs.taken, hqueue, List.append_assoc]
      rfl
    · exact ⟨given ++ [], congrArg (· ++ [_]) hstarted, sublistForall₂_append_right hsent []⟩
  | @report p hplace =>
    simp only [State.Sound, hplace] at hsound
    rcases hs.sent with ⟨given, hstarted, hsent⟩
    rw [hplace] at hstarted
    have hproduces := hsound.1.counted.produces hsound.2.1
    constructor
    · exact hs.taken
    · refine ⟨given ++ [p.task], hstarted.trans (List.append_nil _).symm, ?_⟩
      show List.SublistForall₂ Reports (s.sendMessage (.result _)).reported _
      rw [State.reported_sendMessage_result]
      exact sublistForall₂_concat hsent ⟨rfl, hproduces.games_eq, hproduces.consistent⟩
  | leave | ignore | finish => exact hs.giveUp rfl
  | wait hplace | store hplace | prepare hplace | check hplace | interrupt hplace
  | complete hplace | launch hplace | cancel hplace | close hplace | look hplace
  | interruptGame hplace | fetch hplace | cancelGame hplace | compare hplace | send hplace
  | clear hplace => exact hs.goOn hplace rfl

theorem inOrder_popen (opened : Bool) (hs : s.InOrder) : (s.popen opened).InOrder := by
  unfold State.popen
  split
  next p hplace =>
    split
    · exact hs.goOn hplace rfl
    · exact hs.goOn hplace rfl
  next => exact hs

theorem inOrder_fgets (line : Option (List Char)) (eof : Bool) (hs : s.InOrder) :
    (s.fgets line eof).InOrder := by
  unfold State.fgets
  split
  next p output hplace => exact hs.goOn hplace rfl
  next => exact hs

theorem inOrder_pclose (exitStatus : UInt8) (hs : s.InOrder) : (s.pclose exitStatus).InOrder := by
  unfold State.pclose
  split
  next p output hplace => exact hs.goOn hplace rfl
  next => exact hs

theorem inOrder_step {op : Op} (h : program.step s op = .ok s') (hsound : s.Sound)
    (hs : s.InOrder) : s'.InOrder := by
  cases op with
  | deliver msg =>
    cases h
    exact hs.beside (beside_instructions s s.instructions _)
  | write =>
    cases h
    exact hs.beside (beside_takeMessage s)
  | quit =>
    cases h
    exact hs.beside (beside_quit s)
  | instruct => exact hs.beside (beside_instruct h)
  | execute => exact inOrder_execute h hsound hs
  | popen opened =>
    cases h
    exact inOrder_popen opened hs
  | fgets line eof =>
    cases h
    exact inOrder_fgets line eof hs
  | pclose exitStatus =>
    cases h
    exact inOrder_pclose exitStatus hs

theorem inOrder_run {P : State → Op → Prop} {config : NodeConfig} {ops : List Op}
    (hrun : program.Run P (initial config) ops s) : s.Sound ∧ s.InOrder :=
  hrun.invariant (I := fun s => s.Sound ∧ s.InOrder)
    (fun _ _ _ hs _ _ hok => ⟨sound_step hok hs.1, inOrder_step hok hs.1 hs.2⟩)
    ⟨trivial, rfl, [], rfl, .nil⟩

/-- Each result reported is one of a received task, played to its end; each received task is
reported at most once, and in its turn.  What was cut short is never sent. -/
theorem reports_in_order {config : NodeConfig} {ops : List Op}
    (hrun : program.FreeRun (initial config) ops s) :
    List.SublistForall₂ Reports s.reported s.receivedTasks ∧
      (s.reported.map ResultMessage.taskId).Sublist (s.receivedTasks.map Task.id) ∧
      ∀ p, s.executor = .sending p →
        p.cutShort = false ∧ p.i = p.task.games ∧ Produces p.task p.result := by
  have hs := inOrder_run hrun
  have hreports := hs.2.sublist
  refine ⟨hreports, ?_, ?_⟩
  · rw [List.sublistForall₂_iff] at hreports
    rcases hreports with ⟨tasks, hmatch, hsub⟩
    have hids : s.reported.map ResultMessage.taskId = tasks.map Task.id := by
      rw [← List.forall₂_eq_eq_eq, List.forall₂_map_left_iff, List.forall₂_map_right_iff]
      exact hmatch.imp fun _ _ h => h.taskId
    rw [hids]
    exact hsub.map Task.id
  · intro p hplace
    have hsound := hs.1
    simp only [State.Sound, hplace] at hsound
    exact ⟨hsound.2.2, hsound.2.1, hsound.1.counted.produces hsound.2.1⟩

end InOrder

/-- The first task is played and reported, the second one cancelled in its game. -/
theorem reports_in_order_cancelled :
    let s := program.after (initial soloNode)
      (receiving (taskMessage 1 1) ++ [.instruct] ++ receiving (taskMessage 2 1) ++ [.instruct] ++
        starting ++ playing ++ reporting ++ starting ++ [.execute, .execute, .popen true] ++
        receiving (cancelMessage 2) ++ [.instruct, .instruct, .execute, .execute, .pclose 0] ++
        [.execute, .execute, .execute])
    List.SublistForall₂ Reports s.reported s.receivedTasks ∧
      (s.reported.map ResultMessage.taskId).Sublist (s.receivedTasks.map Task.id) ∧
      ∀ p, s.executor = .sending p →
        p.cutShort = false ∧ p.i = p.task.games ∧ Produces p.task p.result :=
  reports_in_order (Machine.run_after (by decide +kernel))

end NodeProgram

end Bem
