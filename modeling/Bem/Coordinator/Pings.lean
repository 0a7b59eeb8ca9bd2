import Bem.Coordinator.Posting

/-!
# Pings and answers

Whether a ping is open is not stored: `awaiting_response` compares the readings of the clock at the last
ping and at the last answer.
-/

namespace Bem

namespace Node

/-- What pings and answers leave at a node: the two readings, and how many pings were sent. -/
structure Exchange where
  requestTs : TimePoint
  responseTs : TimePoint
  pings : Nat

def exchange (node : Node) : Exchange where
  requestTs := node.requestTs
  responseTs := node.responseTs
  pings := node.history.count ping

variable (heap : Heap Task) (task : Ref) (taskId : TaskId) (node : Node)

/-- A message that is no ping does not count. -/
theorem pings_append {messages more : List Message} (h : ∀ message ∈ more, message ≠ ping) :
    (messages ++ more).count ping = messages.count ping := by
  rw [List.count_append, List.count_eq_zero.mpr fun hmem => h ping hmem rfl, Nat.add_zero]

theorem exchange_send {message : Message} (h : message ≠ ping) :
    (node.send message).exchange = node.exchange := by
  unfold exchange
  rw [history_send, pings_append (by simpa using h)]
  rfl

theorem exchange_assignTask : (node.assignTask heap task).exchange = node.exchange := by
  unfold assignTask
  split
  · rfl
  · exact exchange_send { node with tasks := node.tasks ++ [task] } (by simp [ping])

theorem exchange_unassignTask : (node.unassignTask heap taskId).exchange = node.exchange := by
  unfold unassignTask
  split
  · exact exchange_send { node with tasks := node.tasks.eraseP fun r => (heap.get r).id == taskId }
      (by simp [ping, cancelled])
  · rfl

theorem exchange_foldl_unassignTask (ids : List TaskId) :
    (ids.foldl (fun node taskId => node.unassignTask heap taskId) node).exchange = node.exchange := by
  induction ids generalizing node with
  | nil => rfl
  | cons taskId ids ih => exact (ih _).trans (exchange_unassignTask heap taskId node)

theorem exchange_takeMessage : node.takeMessage.exchange = node.exchange := by
  unfold exchange
  rw [history_takeMessage]
  unfold takeMessage
  split
  · rfl
  · rfl

end Node

namespace State

variable {s s' : State} {n : NodeId} {node : Node}

def exchange (s : State) (n : NodeId) : Option Node.Exchange := (s.nodes.at? n).map Node.exchange

theorem exchange_foldlM {α : Type} {f : State → α → Except Fault State} {l : List α}
    (hbody : ∀ t a t', f t a = .ok t' → t'.exchange n = t.exchange n) (h : l.foldlM f s = .ok s') :
    s'.exchange n = s.exchange n := by
  apply Except.foldlM_rest (I := fun _ t => t.exchange n = s.exchange n) _ rfl h
  intro a l t t' ht hstep
  rw [hbody t a t' hstep, ht]

theorem exchange_store {m : NodeId} {node' : Node} (hnode : s.nodes.at? m = some node)
    (h : node'.exchange = node.exchange) :
    ((s.nodes.store m node').at? n).map Node.exchange = s.exchange n :=
  congrFun (KeyedMap.map_at?_store_same hnode h) n

theorem exchange_balanceTask {r : Ref} (h : s.balanceTask r = .ok s') :
    s'.exchange n = s.exchange n := by
  cases balanceTask_cases h with
  | inl hsame => rw [hsame]
  | inr hassigned =>
    obtain ⟨m, node, hnode, -, -, rfl⟩ := hassigned
    exact exchange_store hnode (Node.exchange_assignTask _ _ _)

theorem exchange_assignShare {task : Task} {share : NodeId × UInt32}
    (h : assignShare task s share = .ok s') : s'.exchange n = s.exchange n := by
  cases assignShare_cases h with
  | inl hsame => rw [hsame.2]
  | inr hassigned =>
    obtain ⟨-, node, tt, heap, hnode, -, -, rfl⟩ := hassigned
    exact exchange_store hnode (Node.exchange_assignTask _ _ _)

theorem exchange_cancelTask {g : TaskId} {e : TaskId × Ref} (h : cancelTask g s e = .ok s') :
    s'.exchange n = s.exchange n := by
  cases cancelTask_cases h with
  | inl hsame => rw [hsame.2]
  | inr hcancelled =>
    obtain ⟨-, -, rfl⟩ := hcancelled
    unfold exchange
    rw [KeyedMap.at?_mapPointees, Option.map_map]
    congr 1
    funext node
    exact Node.exchange_unassignTask _ _ _

/-- Only ticks and notifications have to do with pings. -/
theorem exchange_step {op : Op} (hok : s.step op = .ok s') (hnode : s.node? n = some node)
    (herase : op ≠ .erase n) (hmaintain : ∀ clock, op ≠ .maintain clock)
    (hnotify : ∀ msg now, op ≠ .notify n msg now) : s'.exchange n = s.exchange n := by
  -- each of the other sections leaves the node as it is or stores one with the same exchange
  cases op with
  | select args =>
    cases selectNodes_cases hok with
    | inl hsame => rw [hsame]
    | inr hselected =>
      obtain ⟨nodeIds, -, -, rfl⟩ := hselected
      rfl
  | assign =>
    cases assignShares_cases hok with
    | inl hsame => rw [hsame.2]
    | inr hassigned =>
      obtain ⟨selection, -, hloop⟩ := hassigned
      have hkept : s'.exchange n = (s.openGroup selection.nodeIds.length).exchange n :=
        exchange_foldlM (fun _ _ _ => exchange_assignShare) hloop
      exact hkept
  | cancel g =>
    cases commandCancel_cases hok with
    | inl hsame => rw [hsame.2]
    | inr hcancelled =>
      obtain ⟨G, -, -, hloop⟩ := hcancelled
      have hkept := @exchange_foldlM _ _ n _ _ _ (fun _ _ _ => exchange_cancelTask) hloop
      exact hkept
  | erase m =>
    cases eraseNode_cases hok with
    | inl hsame => rw [hsame.2]
    | inr herased =>
      obtain ⟨node, -, rfl⟩ := herased
      unfold exchange
      rw [KeyedMap.at?_erase_ne fun heq => herase (by rw [heq])]
  | balance =>
    obtain ⟨s₁, hloop, rfl⟩ := balanceTasks_eq_ok hok
    have hkept : s₁.exchange n = s.exchange n :=
      exchange_foldlM (fun _ _ _ => exchange_balanceTask) hloop
    exact hkept
  | maintain clock => exact absurd rfl (hmaintain clock)
  | accept nodeSocket =>
    cases hok
    unfold exchange
    rw [nodes_acceptConnection]
  | insert =>
    cases hok
    exact congrArg (Option.map Node.exchange) ((s.node?_insertNode hnode).trans hnode.symm)
  | result msg =>
    obtain ⟨r, -, hcases⟩ := handleResultMessage_cases hok
    cases hcases with
    | inl hsame => rw [hsame.2]
    | inr hrunning =>
      obtain ⟨G, -, -, hcases⟩ := hrunning
      cases hcases with
      | inl hdone => rw [hdone.2]
      | inr hmerged => rw [hmerged.2]; rfl
  | hello m msg =>
    cases handleHelloMessage_cases hok with
    | inl hsame => rw [hsame.2]
    | inr hregistered =>
      obtain ⟨node, hnode, rfl⟩ := hregistered
      refine exchange_store hnode ?_
      exact Node.exchange_send { node.markRegistered with gamelist := msg.gamelist }
        (by simp [Node.ping, helloReply])
  | notify m msg now =>
    cases handleNotifyTaskMessage_cases hok with
    | inl hsame => rw [hsame]
    | inr hanswered =>
      obtain ⟨other, g, hother, rfl⟩ := hanswered
      unfold exchange
      rw [KeyedMap.at?_store_of_at? hother, Function.update_of_ne]
      exact fun heq => hnotify msg now (by rw [heq])
  | write m =>
    cases hok
    unfold exchange takeMessage
    by_cases hm : n = m
    · -- a message that was taken from the queue still counts as sent
      rw [hm, KeyedMap.at?_modify_self, Option.map_map]
      congr 1
      funext node
      exact Node.exchange_takeMessage node
    · rw [KeyedMap.at?_modify_ne hm]
  | rehash nodes groups tasks =>
    cases hok
    unfold exchange
    rw [KeyedMap.at?_reorder]

/-! ## Ticks and answers -/

theorem exchange_maintainNode {clock : NodeId → TimePoint} (hnode : s.nodes.at? n = some node) :
    (¬node.awaitingResponse ∧ (maintainNode clock s (n, node)).exchange n = some
      { requestTs := clock n, responseTs := node.responseTs, pings := node.exchange.pings + 1 }) ∨
    (node.awaitingResponse ∧ (maintainNode clock s (n, node)).exchange n = some node.exchange) := by
  cases maintainNode_cases s clock (n, node) with
  | inl hping =>
    obtain ⟨hawait, b, heq⟩ := hping
    refine Or.inl ⟨hawait, ?_⟩
    rw [heq]
    unfold exchange
    rw [KeyedMap.at?_store_self hnode]
    -- a ping more has been sent
    have hpings : (node.history ++ [Node.ping]).count Node.ping = node.exchange.pings + 1 := by
      rw [List.count_append]
      simp [Node.exchange]
    rw [← hpings, ← Node.history_send]
    rfl
  | inr hwaits =>
    cases hwaits with
    | inl hsilent =>
      obtain ⟨hsilent, other, marked, b, hother, -, heq⟩ := hsilent
      refine Or.inr ⟨hsilent.1, ?_⟩
      rw [heq]
      unfold exchange
      -- giving tasks up sends nothing but notices of cancelled tasks
      rw [KeyedMap.at?_store_self hnode, Option.map_some, Node.exchange_foldl_unassignTask, hother]
      rfl
    | inr hkept =>
      obtain ⟨hawait, -, heq⟩ := hkept
      refine Or.inr ⟨hawait, ?_⟩
      rw [heq]
      exact congrArg (Option.map Node.exchange) hnode

theorem exchange_maintain {clock : NodeId → TimePoint} (hs : s.WellFormed)
    (h : s.maintain clock = .ok s') (hnode : s.node? n = some node) :
    (¬node.awaitingResponse ∧ s'.exchange n = some
      { requestTs := clock n, responseTs := node.responseTs, pings := node.exchange.pings + 1 }) ∨
    (node.awaitingResponse ∧ s'.exchange n = some node.exchange) := by
  obtain ⟨t, -, -, ht, heq⟩ := node?_maintain hs h hnode
  have hsame : s'.exchange n = (maintainNode clock t (n, node)).exchange n :=
    congrArg (Option.map Node.exchange) heq
  rw [hsame]
  exact exchange_maintainNode ht

theorem exchange_handleNotifyTaskMessage {msg : TaskNotifyMessage} {now : TimePoint}
    (h : s.handleNotifyTaskMessage n msg now = .ok s') (hnode : s.node? n = some node)
    (hregistered : node.isRegistered) :
    s'.exchange n = some { node.exchange with responseTs := now } := by
  have hat : s.nodes.at? n = some node := hnode
  have hstored (g : TaskId) : ((s.nodes.store n { node.markResponse now with
      activeTaskGroup := g }).at? n).map Node.exchange =
        some { node.exchange with responseTs := now } := by
    rw [KeyedMap.at?_store_self hat]
    rfl
  unfold handleNotifyTaskMessage nodeExists at h
  rw [if_pos (by simpa using KeyedMap.mem_of_at? hat), KeyedMap.index_of_at? hat] at h
  dsimp only at h
  rw [if_pos hregistered] at h
  split at h
  · split at h
    · cases h
    · cases h
      exact hstored _
  · cases h
    exact hstored _

/-- Only a tick takes a node for broken, and only one that is awaited. -/
theorem awaiting_of_broken {op : Op} {node' : Node} (hok : s.step op = .ok s')
    (hnode : s.node? n = some node) (hnode' : s'.node? n = some node')
    (hsound : node.flags.connBroken = false) (hbroken : node'.flags.connBroken = true) :
    node.awaitingResponse ∧ ∃ clock, op = .maintain clock := by
  have hprofile' : s'.outline.profile n = some node'.profile := profile_of_at? hnode'
  have hprofile : s.outline.profile n = some node.profile := profile_of_at? hnode
  -- the flag is part of the profile, which only ticks and HELLOs change
  have hsame (h : s'.outline.profile n = some node.profile) : False := by
    rw [hprofile'] at h
    have hflags : node'.flags = node.flags := congrArg Node.Profile.flags (Option.some.inj h)
    rw [hflags, hsound] at hbroken
    cases hbroken
  by_cases hmaintain : ∃ clock, op = .maintain clock
  · refine ⟨?_, hmaintain⟩
    obtain ⟨clock, rfl⟩ := hmaintain
    obtain ⟨profile, houtline, -, hdone⟩ := outline_maintain hok
    obtain ⟨broken, hiff, hbrokenProfile⟩ := hdone n node hnode
    rw [houtline] at hprofile'
    have hflag : node'.flags.connBroken = broken := by
      have heq := Option.some.inj (hprofile'.symm.trans hbrokenProfile)
      exact congrArg (fun p : Node.Profile => p.flags.connBroken) heq
    rw [hflag] at hbroken
    exact (hiff.mp hbroken).1
  by_cases hhello : ∃ msg, op = .hello n msg
  · obtain ⟨msg, rfl⟩ := hhello
    cases outline_handleHelloMessage hok with
    | inl hnone =>
      rw [hnone.1] at hprofile
      cases hprofile
    | inr hregistered =>
      obtain ⟨p, hp, houtline⟩ := hregistered
      rw [hp] at hprofile
      cases hprofile
      rw [houtline] at hprofile'
      have heq := Option.some.inj ((Function.update_self n _ s.outline.profile).symm.trans hprofile')
      have hflag : node.flags.connBroken = node'.flags.connBroken :=
        congrArg (fun p : Node.Profile => p.flags.connBroken) heq
      rw [← hflag, hsound] at hbroken
      cases hbroken
  by_cases herase : op = .erase n
  · subst herase
    rw [node?_eraseNode hok] at hnode'
    cases hnode'
  · exact (hsame (profile_step hok hnode herase (fun msg heq => hhello ⟨msg, heq⟩)
      fun clock heq => hmaintain ⟨clock, heq⟩)).elim

end State

/-! ## Open pings -/

/-- The coordinator handles a notification from the node. -/
def Op.answers (n : NodeId) : Op → Bool
  | .notify m _ _ => m == n
  | _ => false

/-- How many pings were sent to the node. -/
def State.pingsTo (s : State) (n : NodeId) : Nat := ((s.exchange n).map Node.Exchange.pings).getD 0

/-- The coordinator, with the number of pings that node `n` was sent since it last answered. -/
def watching (n : NodeId) : Machine (State × Nat) Op Fault where
  enabled w := w.1.enabled
  step w op := (w.1.step op).map fun s' =>
    (s', if op.answers n then 0 else w.2 + (s'.pingsTo n - w.1.pingsTo n))

instance (n : NodeId) (w : State × Nat) (op : Op) : Decidable ((watching n).enabled w op) :=
  inferInstanceAs (Decidable (w.1.enabled op))

/-- The node is there and registered. -/
def Attended (n : NodeId) (w : State × Nat) : Prop := ∃ node ∈ w.1.node? n, node.isRegistered

/-- The two readings tell whether a ping is open. -/
def Telling (n : NodeId) (w : State × Nat) : Prop :=
  ∀ node ∈ w.1.node? n, (node.awaitingResponse = true ↔ 0 < w.2)

/-- The clock reads more at a ping than at the last answer, and no less at an answer than at the last
ping. -/
def InOrder (n : NodeId) (w : State × Nat) : Op → Prop
  | .maintain clock => w.2 = 0 → ∀ node ∈ w.1.node? n, node.responseTs < clock n
  | .notify m _ now => m = n → ∀ node ∈ w.1.node? n, node.requestTs ≤ now
  | _ => True

instance (n : NodeId) (w : State × Nat) : Decidable (Attended n w) :=
  inferInstanceAs (Decidable (∃ node ∈ w.1.node? n, node.isRegistered = true))

instance (n : NodeId) (w : State × Nat) : Decidable (Telling n w) :=
  inferInstanceAs (Decidable (∀ node ∈ w.1.node? n, (node.awaitingResponse = true ↔ 0 < w.2)))

/-- The step takes the node for broken. -/
def Breaks (n : NodeId) (w : State × Nat) (op : Op) : Prop :=
  ∃ s' node node', w.1.step op = .ok s' ∧ w.1.node? n = some node ∧ s'.node? n = some node' ∧
    node.flags.connBroken = false ∧ node'.flags.connBroken = true

section Watching

variable {n : NodeId} {w w' : State × Nat} {op : Op} {ops : List Op}

theorem watching_step_eq_ok (h : (watching n).step w op = .ok w') : w.1.step op = .ok w'.1 ∧
    w'.2 = if op.answers n then 0 else w.2 + (w'.1.pingsTo n - w.1.pingsTo n) := by
  obtain ⟨s', hok, rfl⟩ := Except.map_eq_ok.mp h
  exact ⟨hok, rfl⟩

theorem Node.awaitingResponse_iff {node : Node} :
    node.awaitingResponse = true ↔ node.exchange.responseTs < node.exchange.requestTs := by
  unfold awaitingResponse exchange
  simp

theorem telling_iff (hw : Attended n w) : Telling n w ↔
    ∃ e ∈ w.1.exchange n, (e.responseTs < e.requestTs ↔ 0 < w.2) := by
  obtain ⟨node, hnode, -⟩ := hw
  have hexchange : w.1.exchange n = some node.exchange := congrArg (Option.map Node.exchange) hnode
  unfold Telling
  rw [hexchange, show w.1.node? n = some node from hnode]
  simp [Node.awaitingResponse_iff]

theorem State.pingsTo_of_some {s : State} {e : Node.Exchange} (h : s.exchange n = some e) :
    s.pingsTo n = e.pings := by
  unfold pingsTo
  rw [h]
  rfl

/-- What a step does to the readings and to the open pings, from those that `node` has and from `opened`
pings. -/
inductive Exchanged (n : NodeId) (node : Node) (opened : Nat) : Op → Option Node.Exchange → Nat → Prop
  | ping (clock : NodeId → TimePoint) (hidle : ¬node.awaitingResponse) :
    Exchanged n node opened (.maintain clock)
      (some { requestTs := clock n, responseTs := node.responseTs, pings := node.exchange.pings + 1 })
      (opened + 1)
  | await (clock : NodeId → TimePoint) (hawait : node.awaitingResponse) :
    Exchanged n node opened (.maintain clock) (some node.exchange) opened
  | answer (msg : TaskNotifyMessage) (now : TimePoint) :
    Exchanged n node opened (.notify n msg now) (some { node.exchange with responseTs := now }) 0
  | erase : Exchanged n node opened (.erase n) none opened
  | other (op : Op) (hmaintain : ∀ clock, op ≠ .maintain clock)
    (hnotify : ∀ msg now, op ≠ .notify n msg now) :
    Exchanged n node opened op (some node.exchange) opened

theorem exchanged {node : Node} (hwell : w.1.WellFormed) (hnode : w.1.node? n = some node)
    (hregistered : node.isRegistered) (hok : (watching n).step w op = .ok w') :
    Exchanged n node w.2 op (w'.1.exchange n) w'.2 := by
  obtain ⟨hstep, hcount⟩ := watching_step_eq_ok hok
  have hexchange : w.1.exchange n = some node.exchange := congrArg (Option.map Node.exchange) hnode
  rw [State.pingsTo_of_some hexchange] at hcount
  rw [hcount]
  by_cases hmaintain : ∃ clock, op = .maintain clock
  · obtain ⟨clock, rfl⟩ := hmaintain
    rw [if_neg (by simp [Op.answers])]
    cases State.exchange_maintain hwell hstep hnode with
    | inl hpinged =>
      obtain ⟨hidle, hafter⟩ := hpinged
      rw [State.pingsTo_of_some hafter, hafter, Nat.add_sub_cancel_left]
      exact .ping clock hidle
    | inr hkept =>
      obtain ⟨hawait, hafter⟩ := hkept
      rw [State.pingsTo_of_some hafter, hafter, Nat.sub_self]
      exact .await clock hawait
  by_cases hnotify : ∃ msg now, op = .notify n msg now
  · obtain ⟨msg, now, rfl⟩ := hnotify
    rw [if_pos (by simp [Op.answers]), State.exchange_handleNotifyTaskMessage hstep hnode hregistered]
    exact .answer msg now
  -- nothing else answers the node
  have hanswers : ¬op.answers n = true := by
    intro hanswers
    cases op with
    | notify m msg now => exact hnotify ⟨msg, now, by rw [beq_iff_eq.mp hanswers]⟩
    | _ => cases hanswers
  rw [if_neg hanswers]
  by_cases herase : op = .erase n
  · subst herase
    have hgone : w'.1.exchange n = none :=
      congrArg (Option.map Node.exchange) (State.node?_eraseNode hstep)
    have hnone : w'.1.pingsTo n = 0 := by
      unfold State.pingsTo
      rw [hgone]
      rfl
    rw [hgone, hnone, Nat.zero_sub]
    exact .erase
  have hafter := State.exchange_step hstep hnode herase (fun clock heq => hmaintain ⟨clock, heq⟩)
    fun msg now heq => hnotify ⟨msg, now, heq⟩
  rw [hexchange] at hafter
  rw [State.pingsTo_of_some hafter, hafter, Nat.sub_self]
  exact .other op (fun clock heq => hmaintain ⟨clock, heq⟩) fun msg now heq => hnotify ⟨msg, now, heq⟩

theorem telling_step_iff (hwell : w.1.WellFormed) (hw : Attended n w) (htelling : Telling n w)
    (hok : (watching n).step w op = .ok w') (hw' : Attended n w') :
    Telling n w' ↔ InOrder n w op := by
  obtain ⟨node, hnode, hregistered⟩ := hw
  have hnode? : w.1.node? n = some node := hnode
  have htold := htelling node hnode
  have hexchanged := exchanged hwell hnode hregistered hok
  rw [telling_iff hw']
  generalize he : w'.1.exchange n = e at hexchanged
  generalize hopen : w'.2 = opened at hexchanged
  cases hexchanged with
  | ping clock hidle =>
    -- a ping is sent where none is open, so that it is told by its reading alone
    have hzero : w.2 = 0 := by
      by_contra hpos
      exact hidle (htold.mpr (Nat.pos_of_ne_zero hpos))
    unfold InOrder
    simp [hnode?, hzero]
  | await clock hawait =>
    have hpos := htold.mp hawait
    have hlt := Node.awaitingResponse_iff.mp hawait
    unfold InOrder
    simp [hnode?, hlt, hpos, hpos.ne']
  | answer msg now =>
    unfold InOrder
    simp [hnode?, Node.exchange]
  | erase =>
    obtain ⟨node', hnode', -⟩ := hw'
    have hsome : w'.1.exchange n = some node'.exchange := congrArg (Option.map Node.exchange) hnode'
    rw [hsome] at he
    cases he
  | other op hmaintain hnotify =>
    have horder : InOrder n w op := by
      cases op with
      | maintain clock => exact absurd rfl (hmaintain clock)
      | notify m msg now => exact fun heq => absurd (by rw [heq]) (hnotify msg now)
      | _ => trivial
    refine iff_of_true ⟨node.exchange, rfl, ?_⟩ horder
    rw [← Node.awaitingResponse_iff]
    exact htold

/-- A tick sends no ping while one is open. -/
theorem unanswered_le_one (hwell : w.1.WellFormed) (hw : Attended n w) (htelling : Telling n w)
    (hle : w.2 ≤ 1) (hok : (watching n).step w op = .ok w') : w'.2 ≤ 1 := by
  obtain ⟨node, hnode, hregistered⟩ := hw
  have htold := htelling node hnode
  have hexchanged := exchanged hwell hnode hregistered hok
  generalize w'.1.exchange n = e at hexchanged
  generalize w'.2 = opened at hexchanged
  cases hexchanged with
  | ping clock hidle =>
    have hzero : ¬0 < w.2 := fun hpos => hidle (htold.mpr hpos)
    omega
  | await | erase | other => exact hle
  | answer => exact Nat.zero_le 1

end Watching

/-- The readings tell exactly as long as they come in order.  Then no second ping is sent before an
answer, and only a node that has not answered is taken for broken. -/
theorem pings_told_iff {config : CoordinatorConfig} {ops₀ ops : List Op} {s s' : State} {n : NodeId}
    {open₀ open₁ : Nat} (h₀ : coordinator.FreeRun (initial config) ops₀ s)
    (hrun : (watching n).Run (fun w _ => Attended n w) (s, open₀) ops (s', open₁))
    (hlast : Attended n (s', open₁)) (hstart : Telling n (s, open₀)) (hopen : open₀ ≤ 1) :
    ((watching n).Throughout (Telling n) (s, open₀) ops (s', open₁) ↔
      (watching n).Run (InOrder n) (s, open₀) ops (s', open₁)) ∧
    ((watching n).Run (InOrder n) (s, open₀) ops (s', open₁) →
      (watching n).Throughout (fun w => w.2 ≤ 1) (s, open₀) ops (s', open₁) ∧
      (watching n).Run (fun w op => Breaks n w op → 0 < w.2) (s, open₀) ops (s', open₁)) := by
  have hwell₀ : s.WellFormed := (wellFormed_throughout h₀ (wellFormed_initial config)).2
  have hwell := hrun.along (K := fun w => w.1.WellFormed)
    (fun w op w' hw _ _ hok =>
      (State.follows_step hw (watching_step_eq_ok hok).1).wellFormed) hwell₀
  have hiff : (watching n).Throughout (Telling n) (s, open₀) ops (s', open₁) ↔
      (watching n).Run (InOrder n) (s, open₀) ops (s', open₁) := by
    apply Machine.throughout_iff (K := fun w => w.1.WellFormed ∧ Attended n w) (J := fun _ => True) _
      (fun _ _ _ _ _ _ _ _ _ => trivial) hwell.1 ⟨hwell.2, hlast⟩ trivial hstart
    intro w op w' hw _ htelling _ hok hw'
    exact telling_step_iff hw.1 hw.2 htelling hok hw'.2
  refine ⟨hiff, fun horder => ?_⟩
  have hall := hwell.1.and (hiff.mpr horder).1
  have hcounted := hall.along (K := fun w => w.2 ≤ 1)
    (fun w op w' hle _ hw hok => unanswered_le_one hw.1.1 hw.1.2 hw.2 hle hok) hopen
  refine ⟨⟨hcounted.1.imp fun _ _ hw => hw.1, hcounted.2⟩, hall.imp fun w op hw hbreaks => ?_⟩
  obtain ⟨s₁, node, node', hok, hnode, hnode', hsound, hbroken⟩ := hbreaks
  exact (hw.2 node hnode).mp (State.awaiting_of_broken hok hnode hnode' hsound hbroken).1

/-- A node that runs nothing says so. -/
def idle : TaskNotifyMessage := { taskId := taskIdNone, taskStatus := .tsNone }

/-- Node 1 is pinged, answers and is pinged again. -/
theorem pings_told_joining :
    ((watching 1).Throughout (Telling 1) (after soloConfig (joining 1 6), 0)
        [.maintain fun _ => 5, .notify 1 idle 7, .maintain fun _ => 8]
        ((watching 1).after (after soloConfig (joining 1 6), 0)
          [.maintain fun _ => 5, .notify 1 idle 7, .maintain fun _ => 8]) ↔
      (watching 1).Run (InOrder 1) (after soloConfig (joining 1 6), 0)
        [.maintain fun _ => 5, .notify 1 idle 7, .maintain fun _ => 8]
        ((watching 1).after (after soloConfig (joining 1 6), 0)
          [.maintain fun _ => 5, .notify 1 idle 7, .maintain fun _ => 8])) := by
  have h₀ : coordinator.FreeRun (initial soloConfig) (joining 1 6) (after soloConfig (joining 1 6)) :=
    run_after (by decide +kernel)
  have hrun : (watching 1).Run (fun w _ => Attended 1 w) (after soloConfig (joining 1 6), 0)
      [.maintain fun _ => 5, .notify 1 idle 7, .maintain fun _ => 8] _ :=
    Machine.run_after (by decide +kernel)
  exact (pings_told_iff h₀ hrun (by decide +kernel) (by decide +kernel) (by decide)).1

/-- The clock steps back between a ping and the answer, and the node is still awaited. -/
theorem answered_and_awaited : ¬ ∀ (config : CoordinatorConfig) (ops₀ ops : List Op) (s s' : State)
    (n : NodeId) (open₁ : Nat), coordinator.FreeRun (initial config) ops₀ s →
      (watching n).Run (fun w _ => Attended n w) (s, 0) ops (s', open₁) → Attended n (s', open₁) →
      Telling n (s, 0) → Telling n (s', open₁) := by
  intro h
  have h₀ : coordinator.FreeRun (initial soloConfig) (joining 1 6) (after soloConfig (joining 1 6)) :=
    run_after (by decide +kernel)
  have hrun : (watching 1).Run (fun w _ => Attended 1 w) (after soloConfig (joining 1 6), 0)
      [.maintain fun _ => 5, .notify 1 idle 4] _ := Machine.run_after (by decide +kernel)
  exact absurd (h soloConfig (joining 1 6) _ _ _ 1 _ h₀ hrun (by decide +kernel) (by decide +kernel))
    (by decide +kernel)

end Bem
