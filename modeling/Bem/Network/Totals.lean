import Bem.Coordinator.Tallies
import Bem.Network.Provenance

/-!
# The totals of the network

Nothing is assumed of the results here: the coordinator only gets those that the programs of its nodes
have counted.
-/

namespace Bem

namespace Network

variable {N N' : Network} {n : NodeId}

/-- If the step opens a group, it is not known yet. -/
def opensFresh (N : Network) : NetworkOp → Prop
  | .own op => N.coordinator.opensFresh op
  | _ => True

instance (N : Network) (op : NetworkOp) : Decidable (N.opensFresh op) :=
  match op with
  | .own op => inferInstanceAs (Decidable (N.coordinator.opensFresh op))
  | .accept _ | .join _ _ | .write _ | .deliver _ | .act _ _ | .send _ | .read _ | .handle _ =>
    .isTrue trivial

/-- The result has come from some node. -/
def hasCome (N : Network) (msg : ResultMessage) : Prop := ∃ n, msg ∈ resultsIn (N.takenFrom n)

theorem Stepped.inbox {op : NetworkOp} (h : Stepped N op N') : N.inbox.sent <+: N'.inbox.sent := by
  cases h with
  | read hlink hnext => exact List.prefix_append _ _
  | @write m =>
    show N.inbox.sent <+: (N.onLink m _).inbox.sent
    unfold onLink
    split <;> exact List.prefix_rfl
  | _ => exact List.prefix_rfl

/-- What has come has come for good. -/
theorem Stepped.hasCome {op : NetworkOp} (h : Stepped N op N') {msg : ResultMessage}
    (hmsg : N.hasCome msg) : N'.hasCome msg := by
  obtain ⟨n, hn⟩ := hmsg
  have htaken : N.takenFrom n <+: N'.takenFrom n := (h.inbox.filter _).map _
  exact ⟨n, (resultsIn_of_isPrefix htaken).subset hn⟩

theorem hasCome_of_next {msg : ResultMessage} {rest : List (NodeId × Message)}
    (hnext : N.inbox.inFlight = (n, .result msg) :: rest) : msg ∈ resultsIn (N.takenFrom n) := by
  have he : (n, Message.result msg) ∈ N.inbox.sent := by
    rw [N.inbox.sent_eq, hnext]
    exact List.mem_append_right _ List.mem_cons_self
  have htaken : Message.result msg ∈ N.takenFrom n :=
    List.mem_map.mpr ⟨_, List.mem_filter.mpr ⟨he, decide_eq_true rfl⟩, rfl⟩
  exact List.mem_filterMap.mpr ⟨_, htaken, rfl⟩

/-- A result that has come is one of a task that was assigned to its node. -/
theorem Traced.exists_call (h : N.Traced) {msg : ResultMessage} (hmsg : msg ∈ resultsIn (N.takenFrom n)) :
    ∃ call ∈ N.coordinator.assignCalls, call.nodeId = n ∧ NodeProgram.Reports msg call.task := by
  obtain ⟨task, htask, hreports⟩ := NodeProgram.exists_of_sublistForall₂ (h.results n) hmsg
  obtain ⟨call, hcall, rfl⟩ := List.mem_map.mp htask
  obtain ⟨hcall, hid⟩ := List.mem_filter.mp hcall
  exact ⟨call, hcall, of_decide_eq_true hid, hreports⟩

/-- The sections of a step handle only results that have come. -/
theorem Stepped.sections_given {op : NetworkOp} (h : Stepped N op N') (htraced : N.Traced)
    (hfresh : N.opensFresh op) : Bem.coordinator.Run
      (fun s op => s.resultsGiven N.hasCome op ∧ s.opensFresh op) N.coordinator (N.sections op)
      N'.coordinator := by
  have hquiet {op' : Op} (hop : N.sections op = [op']) (hresult : ∀ msg, op' ≠ .result msg)
      (hassign : N.coordinator.opensFresh op') : Bem.coordinator.Run
        (fun s op => s.resultsGiven N.hasCome op ∧ s.opensFresh op) N.coordinator (N.sections op)
        N'.coordinator := by
    have hrun := h.sections
    rw [hop] at hrun ⊢
    obtain ⟨henabled, -, hok⟩ := hrun.step_eq_ok
    refine .cons henabled ⟨?_, hassign⟩ hok (.nil _)
    cases op' with
    | result msg => exact absurd rfl (hresult msg)
    | _ => trivial
  cases h with
  | @own op' s hown henabled hok =>
    refine hquiet rfl (fun msg heq => ?_) hfresh
    subst heq
    cases hown
  | accept | join | write => exact hquiet rfl (by simp) trivial
  | @handle now e rest op' s hnext hsection hok =>
    rw [sections_handle hnext hsection]
    refine .cons (enabled_handlerSection hsection) ⟨?_, ?_⟩ hok (.nil _)
    · obtain ⟨m, message⟩ := e
      cases message with
      | result msg =>
        cases hsection
        have hcome := hasCome_of_next hnext
        obtain ⟨call, hcall, -, hreports⟩ := htraced.exists_call hcome
        exact ⟨⟨m, hcome⟩, call, hcall, hreports⟩
      | task msg => cases hsection
      | _ =>
        cases hsection
        trivial
    · obtain ⟨m, message⟩ := e
      cases message <;> cases hsection <;> trivial
  | _ => exact .nil _

theorem run_given {config : CoordinatorConfig} {ops : List NetworkOp}
    (hrun : network.Run opensFresh { coordinator := initial config } ops N) : N.Traced ∧
      ∃ sections, Bem.coordinator.Run (fun s op => s.resultsGiven N.hasCome op ∧ s.opensFresh op)
        (initial config) sections N.coordinator := by
  refine hrun.invariant (I := fun N => N.Traced ∧ ∃ sections, Bem.coordinator.Run
    (fun s op => s.resultsGiven N.hasCome op ∧ s.opensFresh op) (initial config) sections N.coordinator)
    (fun N op N' h henabled hfresh hok => ?_) ⟨traced_initial config, [], .nil _⟩
  have hstep := stepped henabled hok
  obtain ⟨htraced, ops, hops⟩ := h
  have hmore {s : State} {op : Op} (hP : s.resultsGiven N.hasCome op ∧ s.opensFresh op) :
      s.resultsGiven N'.hasCome op ∧ s.opensFresh op := by
    refine ⟨?_, hP.2⟩
    cases op with
    | result msg => exact ⟨hstep.hasCome hP.1.1, hP.1.2⟩
    | _ => trivial
  exact ⟨htraced.step hstep, ops ++ _,
    (hops.append (hstep.sections_given htraced hfresh)).imp fun _ _ => hmore⟩

/-- In every run of the network whose commands find the ids of their groups free, a group that is done
shows the exact sums of one result for each of its sub-tasks, and each of these results is the count of
all games of the sub-task by the program of a node that it was assigned to. -/
theorem group_adds_up {config : CoordinatorConfig} {ops : List NetworkOp}
    (hrun : network.Run opensFresh { coordinator := initial config } ops N)
    (hfew : N.coordinator.subTasks < 2 ^ 32) {g : TaskId} {G : TaskGroup}
    (hG : N.coordinator.group? g = some G) (hdone : G.status = .tsDone) :
    ∃ results : TaskId → Result,
      (∀ t ∈ N.coordinator.groupTaskIds g, ∃ n,
        { taskId := t, result := results t } ∈ resultsIn (N.takenFrom n) ∧
        ∃ call ∈ N.coordinator.assignCalls, call.nodeId = n ∧
          NodeProgram.Reports { taskId := t, result := results t } call.task) ∧
      G.aggregateResult.Totals ((N.coordinator.groupTaskIds g).map results) ∧
      G.aggregateResult.Consistent := by
  obtain ⟨htraced, sections, hsections⟩ := run_given hrun
  obtain ⟨hregular, log, hlog⟩ := tallied_of_run hsections hfew g
  obtain ⟨results, hcome, hsums⟩ := hlog.exists_results hregular hG hdone
  refine ⟨results, fun t ht => ?_, hsums⟩
  obtain ⟨n, hn⟩ := hcome t ht
  exact ⟨n, hn, htraced.exists_call hn⟩

end Network

end Bem
