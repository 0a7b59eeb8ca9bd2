import Bem.Coordinator.Totals

/-!
# Whose results make up a total

The account of a group is followed from the start of a run on, from before the group is opened.  When
the group is done, each of its tasks stands for one result that was handled.
-/

namespace Bem

namespace Result

theorem totals_of_perm {r : Result} {rs rs' : List Result} (hperm : rs.Perm rs') (h : r.Totals rs) :
    r.Totals rs' := by
  intro f hf
  rw [h f hf]
  exact (hperm.map _).sum_eq

end Result

namespace State

variable {Q : ResultMessage → Prop} {s s' : State} {g : TaskId} {log : List (TaskId × Result)}

/-- The ids of the tasks of a group. -/
def groupTaskIds (s : State) (g : TaskId) : List TaskId :=
  (s.tasks.pointees.filter fun e => (s.taskHeap.get e.2).groupId = g).map Prod.fst

theorem mem_groupTaskIds {t : TaskId} :
    t ∈ s.groupTaskIds g ↔ ∃ task, s.task? t = some task ∧ task.groupId = g := by
  unfold groupTaskIds
  rw [List.mem_map]
  constructor
  · intro h
    obtain ⟨e, he, rfl⟩ := h
    rw [List.mem_filter, decide_eq_true_eq] at he
    exact ⟨_, task?_eq_some.mpr ⟨e.2, KeyedMap.mem_pointees.mp he.1, rfl⟩, he.2⟩
  · intro h
    obtain ⟨task, htask, hg⟩ := h
    obtain ⟨r, hr, rfl⟩ := task?_eq_some.mp htask
    exact ⟨(t, r), List.mem_filter.mpr ⟨KeyedMap.mem_pointees.mpr hr, by simpa using hg⟩, rfl⟩

theorem nodup_groupTaskIds (s : State) (g : TaskId) : (s.groupTaskIds g).Nodup :=
  s.tasks.nodup_pointees.sublist (List.filter_sublist.map _)

/-- A result that is handled meets `Q`, and is one of a task that was given out. -/
def resultsGiven (Q : ResultMessage → Prop) (s : State) : Op → Prop
  | .result msg => Q msg ∧ ∃ call ∈ s.assignCalls, NodeProgram.Reports msg call.task
  | _ => True

/-- What is reported of a task that was given out is the result of all its games. -/
theorem Regular.whole_of_call (hs : s.Regular) (hlogged : s.Logged) {msg : ResultMessage} {r : Ref}
    (hr : s.tasks.at? msg.taskId = some r) {call : AssignCall} (hcall : call ∈ s.assignCalls)
    (hreports : NodeProgram.Reports msg call.task) :
    msg.result.games = (s.taskHeap.get r).games ∧ msg.result.Consistent := by
  obtain ⟨q, hq, horder⟩ := hlogged call hcall
  have hindex := (hs.task?_id hq).1
  rw [Task.congr_order Task.id (fun _ => rfl) horder, ← hreports.taskId, hr] at hindex
  obtain rfl : r = q := Option.some.inj hindex
  exact ⟨hreports.games.trans (Task.congr_order Task.games (fun _ => rfl) horder).symm,
    hreports.consistent⟩

/-- The account of a group, which may not have been opened. -/
inductive Tallied (Q : ResultMessage → Prop) (s : State) (g : TaskId) :
    List (TaskId × Result) → Prop
  | unopened (hnone : s.group? g = none) : Tallied Q s g []
  | opened {nNodes : Nat} {requested : UInt32} {log : List (TaskId × Result)}
    (hbooked : s.ledger.Booked g nNodes log) (hwhole : s.ledger.Whole g requested.toNat log)
    (hmet : ∀ e ∈ log, Q { taskId := e.1, result := e.2 }) : Tallied Q s g log

/-- Where there is no group nothing is accepted for it. -/
theorem accepted_eq_nil (hnone : s.group? g = none) (op : Op) :
    s.accepted g op = [] := by
  cases op with
  | result msg =>
    refine if_neg fun haccepts => ?_
    obtain ⟨-, -, -, -, group, hgroup, -⟩ := haccepts
    rw [show s.group? g = some group from hgroup] at hnone
    cases hnone
  | _ => rfl

/-- A result of a given task keeps the results of the account whole. -/
theorem whole_result {msg : ResultMessage} {requested : Nat} (hs : s.Regular) (hlogged : s.Logged)
    (hwhole : s.ledger.Whole g requested log) (hgiven : s.resultsGiven Q (.result msg))
    (hok : s.step (.result msg) = .ok s') :
    s'.ledger.Whole g requested (log ++ s.accepted g (.result msg)) := by
  have hkept : s'.ledger.Sound ∧ s'.ledger.Whole g requested log := by
    apply (follows_step hs.wellFormed hok).does.invariant
      (I := fun L => L.Sound ∧ L.Whole g requested log) _ ⟨hs.wellFormed.sound, hwhole⟩
    intro L a L' hL hQ hstep
    exact ⟨hL.1.step hstep, hL.2.step hL.1 hstep fun n task ha => by subst ha; exact hQ.elim⟩
  refine ⟨hkept.2.games, fun e he => ?_⟩
  cases List.mem_append.mp he with
  | inl hold => exact hkept.2.results e hold
  | inr hnew =>
    change e ∈ (if s.accepts g msg then [(msg.taskId, msg.result)] else []) at hnew
    split at hnew
    next haccepts =>
      obtain ⟨task, htask, hg, -⟩ := haccepts
      obtain ⟨r, hr, rfl⟩ := task?_eq_some.mp htask
      obtain ⟨-, call, hcall, hreports⟩ := hgiven
      obtain ⟨hgames, hconsistent⟩ := hs.whole_of_call hlogged hr hcall hreports
      have horder := (order_step hs.wellFormed hok (hs.wellFormed.sound.index _ _ hr).1).2
      rw [List.mem_singleton.mp hnew]
      exact ⟨r, at?_step hs.wellFormed hok hr,
        (Task.congr_order Task.groupId (fun _ => rfl) horder).trans hg,
        hgames.trans (Task.congr_order Task.games (fun _ => rfl) horder).symm, hconsistent⟩
    next => exact absurd hnew List.not_mem_nil

theorem Tallied.step {op : Op} (h : s.Tallied Q g log) (hs : s.Regular) (hlogged : s.Logged)
    (hgiven : s.resultsGiven Q op) (hfresh : s.opensFresh op) (hok : s.step op = .ok s') :
    s'.Tallied Q g (log ++ s.accepted g op) := by
  cases h with
  | unopened hnone =>
    rw [List.nil_append, accepted_eq_nil hnone]
    by_cases hopened : s'.group? g = none
    · exact .unopened hopened
    · -- the step is the one that opens the group
      obtain ⟨rfl, selection, hselection, rfl⟩ := group?_step hs.wellFormed hok hnone hopened
      exact .opened (booked_assignShares hs.wellFormed hs.populated hnone hselection hok)
        (whole_assignShares hs hnone hselection hok) fun e he => absurd he List.not_mem_nil
  | opened hbooked hwhole hmet =>
    have hbooked' := booked_step hs.wellFormed hbooked hfresh hok
    have hknown : s.group? g ≠ none := by
      obtain ⟨G, hG, -⟩ := hbooked.group
      rw [show s.group? g = some G from hG]
      exact Option.some_ne_none G
    cases op with
    | result msg =>
      refine .opened hbooked' (whole_result hs hlogged hwhole hgiven hok) fun e he => ?_
      cases List.mem_append.mp he with
      | inl hold => exact hmet e hold
      | inr hnew =>
        change e ∈ (if s.accepts g msg then [(msg.taskId, msg.result)] else []) at hnew
        split at hnew
        next =>
          rw [List.mem_singleton.mp hnew]
          exact hgiven.1
        next => exact absurd hnew List.not_mem_nil
    | _ =>
      refine .opened hbooked' (whole_step hs hlogged hwhole hknown trivial hfresh hok) fun e he => ?_
      change e ∈ _ ++ [] at he
      rw [List.append_nil] at he
      exact hmet e he

/-- When the group is done, its log has one result for each of its tasks. -/
theorem Tallied.exists_results {G : TaskGroup} (h : s.Tallied Q g log) (hs : s.Regular)
    (hG : s.group? g = some G) (hdone : G.status = .tsDone) : ∃ results : TaskId → Result,
      (∀ t ∈ s.groupTaskIds g, Q { taskId := t, result := results t }) ∧
        G.aggregateResult.Totals ((s.groupTaskIds g).map results) ∧ G.aggregateResult.Consistent := by
  cases h with
  | unopened hnone => cases hG.symm.trans hnone
  | opened hbooked hwhole hmet =>
    have haddsUp := addsUp hs hbooked hwhole hG hdone
    have haccounted := accounted_of_booked hs.wellFormed hbooked
    -- the ids in the log are those of the tasks of the group
    have hids (t : TaskId) : t ∈ log.map Prod.fst ↔ t ∈ s.groupTaskIds g := by
      rw [haccounted.done, mem_groupTaskIds]
      exact exists_congr fun task => and_congr_right fun htask => and_iff_left_of_imp fun hg =>
        haccounted.finished G hG hdone t task htask hg
    have hentry (t : TaskId) : ∃ result, t ∈ s.groupTaskIds g → (t, result) ∈ log := by
      by_cases ht : t ∈ s.groupTaskIds g
      · obtain ⟨e, he, rfl⟩ := List.mem_map.mp ((hids t).mpr ht)
        exact ⟨e.2, fun _ => he⟩
      · exact ⟨{}, fun h => absurd h ht⟩
    choose results hresults using hentry
    have hof (e : TaskId × Result) (he : e ∈ log) : results e.1 = e.2 := by
      have hin := hresults e.1 ((hids e.1).mp (List.mem_map_of_mem he))
      exact congrArg Prod.snd (List.inj_on_of_nodup_map hbooked.nodup hin he rfl)
    have hperm : (log.map Prod.snd).Perm ((s.groupTaskIds g).map results) := by
      have hsame : log.map Prod.snd = (log.map Prod.fst).map results := by
        rw [List.map_map]
        exact List.map_congr_left fun e he => (hof e he).symm
      rw [hsame]
      exact ((List.perm_ext_iff_of_nodup hbooked.nodup (nodup_groupTaskIds s g)).mpr hids).map _
    exact ⟨results, fun t ht => hmet _ (hresults t ht), Result.totals_of_perm hperm haddsUp.totals,
      haddsUp.consistent⟩

end State

/-- In a run whose results are those of given tasks, every group has an account at any time. -/
theorem tallied_of_run {Q : ResultMessage → Prop} {config : CoordinatorConfig} {ops : List Op} {s : State}
    (hrun : coordinator.Run (fun s op => s.resultsGiven Q op ∧ s.opensFresh op) (initial config) ops s)
    (hfew : s.subTasks < 2 ^ 32) (g : TaskId) : s.Regular ∧ ∃ log, s.Tallied Q g log := by
  have hregular := regular_throughout hrun (regular_initial config) hfew
  have hend := (hrun.and hregular.1).invariant (I := fun t => t.Logged ∧ ∃ log, t.Tallied Q g log)
    (by
      intro t op t' ht _ hP hok
      obtain ⟨hlogged, log, hlog⟩ := ht
      obtain ⟨⟨hgiven, hfresh⟩, ht⟩ := hP
      have hstep : t.step op = .ok t' := hok
      exact ⟨State.logged_step ht.wellFormed hlogged hstep, _,
        hlog.step ht hlogged hgiven hfresh hstep⟩)
    ⟨fun call hcall => absurd hcall List.not_mem_nil, [], .unopened rfl⟩
  exact ⟨hregular.2, hend.2⟩

end Bem
