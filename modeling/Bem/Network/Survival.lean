import Bem.Coordinator.Faults
import Bem.Network.Provenance
import Bem.Node.Answering

/-!
# What brings the coordinator down

As long as its nodes are programs of this repository, there are two things.  A node is gone when
`command_task` comes to assign its share; or a node answers that the task with no id is running.
-/

namespace Bem

namespace NodeProgram.Session

variable {s : Session} {given : List Message}

/-- Besides its HELLO a program says nothing but results and answers. -/
theorem Took.report_or_hello (h : s.Took given) {m : Message} (hm : m ∈ s.node.history) :
    m.isReport ∨ m = s.hello := by
  by_cases hreport : m.isReport
  · exact .inl hreport
  · right
    have hsaid : m ∈ s.greetings := by
      rw [← h.said, List.mem_filter]
      exact ⟨hm, by simpa using hreport⟩
    unfold greetings at hsaid
    split at hsaid
    · exact absurd hsaid List.not_mem_nil
    · exact List.mem_singleton.mp hsaid

end NodeProgram.Session

namespace Network

variable {N N' : Network} {n : NodeId}

/-- What the answers of the nodes can name. -/
structure Heard (N : Network) : Prop where
  traced : N.Traced
  credible : ∀ n l, N.link? n = some l → l.session.node.Credible

theorem heard_initial (config : CoordinatorConfig) : Heard { coordinator := initial config } where
  traced := traced_initial config
  credible n l hlink := by cases hlink

theorem Heard.step (h : N.Heard) {op : NetworkOp} (hstep : Stepped N op N') : N'.Heard where
  traced := h.traced.step hstep
  credible n l' hlink' := by
    cases hstep.link hlink' with
    | inl hnew =>
      obtain ⟨protocolVersion, config, -, -, rfl⟩ := hnew
      exact NodeProgram.Session.credible_start protocolVersion config
    | inr hold =>
      obtain ⟨l, hlink, hlstep⟩ := hold
      have hl := h.credible n l hlink
      cases hlstep with
      | deliver halive hnext =>
        exact NodeProgram.State.credible_step hl (show NodeProgram.program.step _ (.deliver _) = _ from rfl)
      | act halive hown henabled hok =>
        exact (NodeProgram.Session.stepped henabled hok hown).credible hl
      | send halive hqueue => exact NodeProgram.State.credible_step hl (show NodeProgram.program.step _ .write = _ from rfl)
      | _ => exact hl

/-- The next message for the handler is an answer that the task with no id is running. -/
def tellsNothingRuns (N : Network) : Prop :=
  ∃ nodeId, N.inbox.inFlight.head? = some (nodeId, .taskNotify NodeProgram.State.nothingRuns) ∧
    taskIdNone ∉ N.coordinator.tasks ∧ ∃ node ∈ N.coordinator.node? nodeId, node.isRegistered

/-- What brings the coordinator down. -/
def strands (N : Network) : NetworkOp → Prop
  | .own .assign => ∃ selection ∈ N.coordinator.selection, ∃ share ∈ selection.used,
    N.coordinator.node? share.1 = none
  | .handle _ => N.tellsNothingRuns
  | _ => False

/-- A message that has come is something that the program at the other end has said. -/
theorem Heard.exists_said (h : N.Heard) {e : NodeId × Message} (he : e ∈ N.inbox.sent) :
    ∃ l m, N.link? e.1 = some l ∧ m ∈ l.session.node.history ∧ m.delivered = e.2 := by
  obtain ⟨l, hlink⟩ := Option.isSome_iff_exists.mp (h.traced.sound.inbox e he)
  have htaken : e.2 ∈ N.takenFrom e.1 :=
    List.mem_map.mpr ⟨e, List.mem_filter.mpr ⟨he, decide_eq_true rfl⟩, rfl⟩
  have hwritten := (h.traced.sound.prefix_takenFrom hlink).subset htaken
  obtain ⟨m, hm, heq⟩ := List.mem_map.mp hwritten
  exact ⟨l, m, hlink, List.mem_append_left _ hm, heq⟩

/-- What the executor of a node has taken was assigned to the node. -/
theorem Heard.exists_call (h : N.Heard) {l : Link} (hlink : N.link? n = some l) {task : Task}
    (htask : task ∈ l.session.node.started) : ∃ call ∈ N.coordinator.calls n, call.received = task := by
  have hcustody := h.traced.sound.custody n l hlink
  have hreceived : task ∈ l.session.node.receivedTasks := by
    rw [hcustody.took.inOrder.taken]
    exact List.mem_append_left _ htask
  have hgiven := (NodeProgram.Session.receivedTasks_sublist hcustody.took).subset hreceived
  have hsent : task ∈ tasksIn l.down.sent := ((l.down.inOrder.filterMap _).subset) hgiven
  exact List.mem_map.mp ((h.traced.sent n l hlink).subset hsent)

/-- An answer that has come names a task of the table, or none. -/
theorem Heard.named (h : N.Heard) {nodeId : NodeId} {msg : TaskNotifyMessage}
    (he : (nodeId, .taskNotify msg) ∈ N.inbox.sent) (hrunning : msg.taskStatus = .tsRunning) :
    msg.taskId = taskIdNone ∨ ∃ task ∈ N.coordinator.calls nodeId, task.id = msg.taskId := by
  obtain ⟨l, m, hlink, hm, heq⟩ := h.exists_said he
  have hsame : m = .taskNotify msg := by cases m <;> cases heq; rfl
  subst hsame
  cases (h.credible nodeId l hlink).answers msg hm hrunning with
  | inl hnone => exact .inl hnone
  | inr hstarted =>
    obtain ⟨task, htask, hid⟩ := hstarted
    obtain ⟨call, hcall, rfl⟩ := h.exists_call hlink htask
    exact .inr ⟨call, hcall, hid⟩

theorem Traced.mem_tasks (h : N.Traced) {task : Task} (htask : task ∈ N.coordinator.calls n) :
    task.id ∈ N.coordinator.tasks := by
  obtain ⟨call, hcall, rfl⟩ := List.mem_map.mp htask
  have hknown := h.dealt.known call (List.mem_filter.mp hcall).1
  obtain ⟨r, hr⟩ := Option.isSome_iff_exists.mp hknown
  exact KeyedMap.mem_of_at? hr

theorem own_error_iff (hs : N.coordinator.WellFormed) (op : Op) :
    (∃ e, N.own op = .error e) ↔ ¬ N.coordinator.canFinish op := by
  rw [← State.step_ok_iff hs op]
  unfold own
  cases N.coordinator.step op with
  | ok s => exact iff_of_false Except.not_error_ok fun h => h ⟨s, rfl⟩
  | error e => exact iff_of_true ⟨e, rfl⟩ fun h => by obtain ⟨s, hs⟩ := h; cases hs

/-- The handler gets through a message of a node's program unless it is the answer that names none. -/
theorem Heard.canFinish_iff (h : N.Heard) {now : TimePoint} {e : NodeId × Message}
    {rest : List (NodeId × Message)} {op : Op} (hnext : N.inbox.inFlight = e :: rest)
    (hsection : handlerSection now e = some op) :
    ¬ N.coordinator.canFinish op ↔ N.tellsNothingRuns := by
  have he : e ∈ N.inbox.sent := by
    rw [N.inbox.sent_eq, hnext]
    exact List.mem_append_right _ List.mem_cons_self
  have hhead : N.inbox.inFlight.head? = some e := by rw [hnext]; rfl
  obtain ⟨nodeId, msg⟩ := e
  -- only an answer can be the one that names none
  have hother (hfinish : N.coordinator.canFinish op)
      (hmsg : msg ≠ .taskNotify NodeProgram.State.nothingRuns) :
      ¬ N.coordinator.canFinish op ↔ N.tellsNothingRuns := by
    refine iff_of_false (not_not.mpr hfinish) fun htells => ?_
    obtain ⟨n, hhead', -⟩ := htells
    exact hmsg (congrArg Prod.snd (Option.some.inj (hhead.symm.trans hhead')))
  cases msg with
  | task msg => cases hsection
  | hello msg =>
    cases hsection
    exact hother trivial (by simp)
  | invalid =>
    cases hsection
    exact hother trivial (by simp)
  | result msg =>
    cases hsection
    refine hother ?_ (by simp)
    have htaken : Message.result msg ∈ N.takenFrom nodeId :=
      List.mem_map.mpr ⟨_, List.mem_filter.mpr ⟨he, decide_eq_true rfl⟩, rfl⟩
    have hresult : msg ∈ resultsIn (N.takenFrom nodeId) := List.mem_filterMap.mpr ⟨_, htaken, rfl⟩
    obtain ⟨r, hr⟩ := Option.isSome_iff_exists.mp (h.traced.known hresult)
    exact KeyedMap.mem_of_at? hr
  | taskNotify msg =>
    cases hsection
    show ¬ N.coordinator.followsKnown nodeId (.taskNotify msg) ↔ _
    unfold State.followsKnown tellsNothingRuns
    rw [hhead]
    constructor
    · intro hfaults
      simp only [not_forall] at hfaults
      obtain ⟨hrunning, hregistered, hunknown⟩ := hfaults
      have hnone : msg.taskId = taskIdNone := by
        refine (h.named he hrunning).resolve_right fun hcall => ?_
        obtain ⟨task, htask, hid⟩ := hcall
        exact hunknown (hid ▸ h.traced.mem_tasks htask)
      refine ⟨nodeId, ?_, hnone ▸ hunknown, hregistered⟩
      obtain ⟨taskId, taskStatus⟩ := msg
      cases hnone
      cases hrunning
      rfl
    · intro htells hfollows
      obtain ⟨n, heq, hunknown, hregistered⟩ := htells
      cases heq
      exact hunknown (hfollows rfl hregistered)

/-- What is known of the messages tells which steps bring the coordinator down. -/
theorem Heard.step_error_iff (h : N.Heard) {op : NetworkOp} (henabled : network.enabled N op) :
    (∃ e, network.step N op = .error e) ↔ N.strands op := by
  have hs := h.traced.sound.wellFormed
  cases op with
  | own op =>
    refine (own_error_iff hs op).trans ?_
    have hown : op.isOwn := henabled.1
    cases op with
    | assign =>
      show ¬ (∀ selection ∈ _, ∀ share ∈ _, _) ↔ _
      simp only [strands, not_forall, Bool.not_eq_true, Option.isSome_eq_false_iff,
        Option.isNone_iff_eq_none, exists_prop]
    | result | hello | notify | accept | insert | write => cases hown
    | _ => exact iff_of_false (fun h => h trivial) id
  | handle now =>
    obtain ⟨e, rest, hnext⟩ := List.exists_cons_of_ne_nil henabled
    show (∃ e, N.handle now = .error e) ↔ N.tellsNothingRuns
    unfold handle
    rw [hnext]
    dsimp only
    have he : e ∈ N.inbox.sent := by
      rw [N.inbox.sent_eq, hnext]
      exact List.mem_append_right _ List.mem_cons_self
    cases hsection : handlerSection now e with
    | none =>
      -- no program sends a task
      obtain ⟨nodeId, msg⟩ := e
      obtain ⟨l, m, hlink, hm, heq⟩ := h.exists_said he
      cases msg with
      | task msg =>
        cases m with
        | task m =>
          have hmessage := (h.traced.sound.custody nodeId l hlink).took.report_or_hello hm
          exact absurd hmessage (by simp [Message.isReport, NodeProgram.Session.hello])
        | _ => cases heq
      | _ => cases hsection
    | some op =>
      dsimp only
      refine Iff.trans ?_ (h.canFinish_iff hnext hsection)
      exact own_error_iff (N := { N with inbox := N.inbox.next }) hs op
  | accept nodeSocket => exact iff_of_false Except.not_error_ok id
  | _ => exact iff_of_false Except.not_error_ok id

end Network

end Bem
