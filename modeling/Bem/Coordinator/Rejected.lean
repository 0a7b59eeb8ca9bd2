import Bem.Coordinator.Handshake

/-!
# Rejected nodes

A HELLO of another version is answered with REJECT, and all the same registers the node.
-/

namespace Bem

/-- One more message: what was sent since the last reply, if that reply was a rejection. -/
def Message.sinceRejection (since : Option (List Message)) : Message → Option (List Message)
  | .hello msg => if msg.flag = HelloMessage.flagReject then some [] else none
  | message => since.map (· ++ [message])

namespace Node

/-- What was sent to the node since the last reply to a HELLO of it, if that reply was REJECT. -/
def sinceRejection (node : Node) : Option (List Message) :=
  node.history.foldl Message.sinceRejection none

end Node

/-- Some game of the list has an agent. -/
def GameList.playable (gamelist : GameList) : Bool :=
  gamelist.games.entries.any fun e => ! e.2.agents.entries.isEmpty

/-- Every task needs a game with an agent. -/
theorem GameList.not_offers {gamelist : GameList} (h : ¬ gamelist.playable) (task : Task) :
    ¬ gamelist.offers task := by
  intro hoffers
  unfold offers containsAgent at hoffers
  rw [Bool.and_eq_true, Bool.and_eq_true] at hoffers
  apply h
  cases hgame : gamelist.games.lookup task.gameId with
  | none =>
    rw [hgame] at hoffers
    cases hoffers.1.2
  | some game =>
    rw [hgame] at hoffers
    refine List.any_eq_true.mpr ⟨⟨task.gameId, game⟩, AList.mem_lookup_iff.mp hgame, ?_⟩
    have hagent : game.agents.lookup task.agent1 ≠ none := Option.isSome_iff_ne_none.mp hoffers.1.2
    have hmem := AList.lookup_eq_none.not.mp hagent
    rw [Bool.not_eq_true', List.isEmpty_eq_false_iff]
    intro hnil
    rw [not_not, AList.mem_keys, AList.keys, hnil] at hmem
    exact List.not_mem_nil hmem

namespace Message

/-- The message is neither a reply to a HELLO nor a task. -/
def IsNotice (message : Message) : Prop :=
  message.getType ≠ .hello ∧ message.getType ≠ .task

theorem isNotice_cancelled (t : TaskId) : (Node.cancelled t).IsNotice := by
  constructor <;> exact MessageType.noConfusion

theorem isNotice_ping : Node.ping.IsNotice := isNotice_cancelled taskIdNone

theorem sinceRejection_of_ne {since : Option (List Message)} {message : Message}
    (h : message.getType ≠ .hello) :
    sinceRejection since message = since.map (· ++ [message]) := by
  cases message with
  | hello m => exact absurd rfl h
  | _ => rfl

end Message

namespace Node

variable {node node' : Node} {more : List Message}

theorem sinceRejection_append (h : node'.history = node.history ++ more)
    (hmore : ∀ message ∈ more, message.getType ≠ .hello) :
    node'.sinceRejection = node.sinceRejection.map (· ++ more) := by
  unfold sinceRejection
  rw [h, List.foldl_append]
  generalize node.history.foldl Message.sinceRejection none = since
  clear h
  induction more generalizing since with
  | nil => cases since <;> simp
  | cons message more ih =>
    rw [List.forall_mem_cons] at hmore
    rw [List.foldl_cons, ih hmore.2, Message.sinceRejection_of_ne hmore.1]
    cases since <;> simp

/-- The reply to a HELLO decides anew. -/
theorem sinceRejection_reply {config : CoordinatorConfig} {msg : HelloMessage}
    (h : node'.history = node.history ++ [State.helloReply config msg]) :
    node'.sinceRejection = if msg.protoVer ≠ config.protocolVersion then some [] else none := by
  unfold sinceRejection
  rw [h, List.foldl_append]
  unfold State.helloReply
  split
  · rfl
  · rfl

end Node

namespace State

variable {s s' : State} {n : NodeId} {node : Node}

/-- A node that was rejected is eligible for no task, and was not sent any since. -/
def TurnedAway (n : NodeId) (s : State) : Prop :=
  ∀ node ∈ s.node? n, ∀ since ∈ node.sinceRejection,
    (∀ task, ¬ node.eligible task) ∧ ∀ message ∈ since, message.getType ≠ .task

/-- No command is between its sections with games for the node. -/
def Unselected (n : NodeId) (s : State) : Prop :=
  ∀ node ∈ s.node? n, node.sinceRejection.isSome →
    ∀ selection ∈ s.selection, ∀ share ∈ selection.used, share.1 ≠ n

/-- No rejected node is made eligible, and none is rejected that has a share of a pending task. -/
def turnsAway (n : NodeId) (s : State) : Op → Prop
  | .hello m msg => m = n → msg.protoVer ≠ s.config.protocolVersion →
    ∀ node ∈ s.node? n, (node.flags.connBroken ∨ ¬ msg.gamelist.playable) ∧
      ∀ selection ∈ s.selection, ∀ share ∈ selection.used, share.1 ≠ n
  | .maintain _ => ∀ node ∈ s.node? n, node.sinceRejection.isSome → ¬ node.awaitingResponse →
    node.flags.connBroken → ¬ node.gamelist.playable
  | _ => True

instance (s : State) (op : Op) : Decidable (s.turnsAway n op) :=
  match op with
  | .hello m msg =>
    inferInstanceAs (Decidable (m = n → msg.protoVer ≠ s.config.protocolVersion →
      ∀ node ∈ s.node? n, (node.flags.connBroken = true ∨ ¬ msg.gamelist.playable = true) ∧
        ∀ selection ∈ s.selection, ∀ share ∈ selection.used, share.1 ≠ n))
  | .maintain _ =>
    inferInstanceAs (Decidable (∀ node ∈ s.node? n, node.sinceRejection.isSome = true →
      ¬ node.awaitingResponse = true → node.flags.connBroken = true →
        ¬ node.gamelist.playable = true))
  | .select _ | .assign | .cancel _ | .erase _ | .balance | .accept _ | .insert | .result _
  | .notify _ _ _ | .write _ | .rehash _ _ _ => .isTrue trivial

theorem turnedAway_of_node (hnode : s.node? n = some node)
    (h : ∀ since ∈ node.sinceRejection,
      (∀ task, ¬ node.eligible task) ∧ ∀ message ∈ since, message.getType ≠ .task) :
    s.TurnedAway n := by
  intro other hother
  cases hnode.symm.trans hother
  exact h

/-- Where the node is gone, or just entered, there is no rejection. -/
theorem turnedAway_of_untouched (h : ∀ node ∈ s.node? n, node.Untouched) : s.TurnedAway n := by
  intro node hnode since hsince
  unfold Node.sinceRejection at hsince
  rw [(h node hnode).history] at hsince
  cases hsince

/-- Notices, to a node that is eligible for nothing new. -/
theorem TurnedAway.notices (h : s.TurnedAway n) (hnode : s.node? n = some node) {node' : Node}
    (hnode' : s'.node? n = some node') {more : List Message}
    (hmore : node'.history = node.history ++ more) (hnotices : ∀ message ∈ more, message.IsNotice)
    (heligible : node.sinceRejection.isSome → (∀ task, ¬ node.eligible task) →
      ∀ task, ¬ node'.eligible task) : s'.TurnedAway n := by
  apply turnedAway_of_node hnode'
  intro since hsince
  rw [Node.sinceRejection_append hmore fun message hmem => (hnotices message hmem).1] at hsince
  obtain ⟨since₀, hsince₀, rfl⟩ := Option.map_eq_some_iff.mp hsince
  have hold := h node hnode since₀ hsince₀
  refine ⟨heligible (by rw [hsince₀]; rfl) hold.1, ?_⟩
  rw [List.forall_mem_append]
  exact ⟨hold.2, fun message hmem => (hnotices message hmem).2⟩

theorem turnedAway_maintain {clock : NodeId → TimePoint} (hs : s.WellFormed)
    (h : s.TurnedAway n) (hop : s.turnsAway n (.maintain clock))
    (hok : s.maintain clock = .ok s') (hnode : s.node? n = some node) : s'.TurnedAway n := by
  have hstep : s.step (.maintain clock) = .ok s' := hok
  obtain ⟨node', more, hnode', hmore, hposts⟩ := history_step hs hstep hnode nofun
  have hnotices : ∀ message ∈ more, message.IsNotice := by
    intro message hmem
    obtain ⟨a, ha, hposted⟩ := hposts message hmem
    -- the loop sends pings, and notices for the tasks it gives back
    cases a with
    | note m message' =>
      rw [← hposted.2, show message' = Node.ping from ha]
      exact Message.isNotice_ping
    | release m =>
      obtain ⟨t, rfl⟩ := hposted.2
      exact Message.isNotice_cancelled t
    | _ => exact ha.elim
  apply h.notices hnode hnode' hmore hnotices
  intro hrejected hineligible task heligible
  obtain ⟨profile, houtline, -, hsome⟩ := outline_maintain hok
  obtain ⟨broken, hbroken, hprofile⟩ := hsome n node hnode
  have hprofile' : node'.profile =
      { node.profile with flags := { node.flags with connBroken := broken } } := by
    have hat := profile_of_at? hnode'
    rw [houtline] at hat
    exact Option.some.inj (hat.symm.trans hprofile)
  have hfit := Node.eligible_iff.mp heligible
  rw [hprofile'] at hfit
  by_cases hconn : node.flags.connBroken
  · by_cases hawait : node.awaitingResponse
    · exact hfit.connected (hbroken.mpr ⟨hawait, Or.inr hconn⟩)
    · -- the connection is restored, but there is no game to play
      have hunplayable := hop node hnode hrejected hawait hconn
      exact GameList.not_offers hunplayable task hfit.offers
  · exact hineligible task (Node.eligible_iff.mpr ⟨hfit.registered, hconn, hfit.offers⟩)

theorem turnedAway_hello {m : NodeId} {msg : HelloMessage} (hs : s.WellFormed)
    (h : s.TurnedAway n) (hop : s.turnsAway n (.hello m msg))
    (hok : s.handleHelloMessage m msg = .ok s') (hnode : s.node? n = some node) :
    s'.TurnedAway n := by
  by_cases hm : m = n
  · subst hm
    rcases handleHelloMessage_cases hok with ⟨hnot, -⟩ | ⟨other, hother, rfl⟩
    · exact absurd (KeyedMap.mem_of_at? hnode) hnot
    cases (show some node = some other from hnode.symm.trans hother)
    intro node' hnode' since hsince
    change KeyedMap.at? (s.nodes.store m _) m = some node' at hnode'
    rw [KeyedMap.at?_store_self hother] at hnode'
    cases hnode'
    -- a reply of acceptance ends what was since a rejection, and one of rejection starts it anew
    rw [Node.sinceRejection_reply (Node.history_send _ _)] at hsince
    split at hsince
    next hversion =>
      cases hsince
      refine ⟨fun task heligible => ?_, fun _ hmem => absurd hmem List.not_mem_nil⟩
      have hfit := Node.eligible_iff.mp heligible
      rcases (hop rfl hversion node hnode).1 with hbroken | hunplayable
      · exact hfit.connected hbroken
      · exact GameList.not_offers hunplayable task hfit.offers
    next => cases hsince
  · -- another node's HELLO
    have hstep : s.step (.hello m msg) = .ok s' := hok
    obtain ⟨node', more, hnode', hmore, hposts⟩ := history_step hs hstep hnode nofun
    have hprofile := profile_step hstep hnode nofun
      (fun msg' heq => hm (by cases heq; rfl)) nofun
    have hsame := Option.some.inj ((profile_of_at? hnode').symm.trans hprofile)
    apply h.notices hnode hnode' hmore
    · intro message hmem
      obtain ⟨a, ha, hposted⟩ := hposts message hmem
      cases a with
      | note m' message' => exact absurd ((show m' = m from ha).symm.trans hposted.1) hm
      | _ => exact ha.elim
    · intro _ hineligible task
      rw [Node.eligible_congr hsame]
      exact hineligible task

/-- Only a HELLO of the node itself is answered with a rejection. -/
theorem rejected_of_step {op : Op} (hs : s.WellFormed) (hok : s.step op = .ok s')
    (hhello : ∀ msg, op ≠ .hello n msg) {node' : Node} (hnode' : s'.node? n = some node')
    (hrejected : node'.sinceRejection.isSome) :
    ∃ node, s.node? n = some node ∧ node.sinceRejection.isSome := by
  cases hnode : s.node? n with
  | none =>
    have huntouched := untouched_of_absent hs hok hnode node' hnode'
    unfold Node.sinceRejection at hrejected
    rw [huntouched.history] at hrejected
    cases hrejected
  | some node =>
    have herase : op ≠ .erase n := by
      intro heq
      subst heq
      cases (node?_eraseNode hok).symm.trans hnode'
    obtain ⟨node'', more, hnode'', hmore, hposts⟩ := history_step hs hok hnode herase
    cases hnode'.symm.trans hnode''
    refine ⟨node, rfl, ?_⟩
    rw [Node.sinceRejection_append hmore] at hrejected
    · simpa using hrejected
    · intro message hmem
      obtain ⟨a, ha, hposted⟩ := hposts message hmem
      cases a with
      | note m message' =>
        rw [← hposted.2]
        cases op with
        | hello m' msg => exact absurd (by rw [← hposted.1, show m = m' from ha]) (hhello msg)
        | maintain clock =>
          rw [show message' = Node.ping from ha]
          exact Message.isNotice_ping.1
        | _ => exact ha.elim
      | hand m r | create m task =>
        obtain ⟨m, rfl⟩ := hposted.2
        exact MessageType.noConfusion
      | release m =>
        obtain ⟨t, rfl⟩ := hposted.2
        exact MessageType.noConfusion
      | withdraw t =>
        rw [show message = Node.cancelled t from hposted]
        exact MessageType.noConfusion
      | _ => exact hposted.elim

/-- A node that gets tasks was not rejected. -/
theorem turnedAway_of_tasks {op : Op} (hs : s.WellFormed) (hok : s.step op = .ok s')
    (hnode : s.node? n = some node) (hhello : ∀ msg, op ≠ .hello n msg)
    (hunrejected : node.sinceRejection = none) : s'.TurnedAway n := by
  intro node' hnode' since hsince
  obtain ⟨other, hother, hrejected⟩ := rejected_of_step hs hok hhello hnode' (by rw [hsince]; rfl)
  cases hnode.symm.trans hother
  rw [hunrejected] at hrejected
  cases hrejected

/-- A rejected node is not eligible, so it is not selected afterwards. -/
theorem unselected_step {op : Op} (hs : s.WellFormed) (h : s.TurnedAway n) (hunselected : s.Unselected n)
    (hop : s.turnsAway n op) (hok : s.step op = .ok s') : s'.Unselected n := by
  intro node' hnode' hrejected selection hselection share hshare
  by_cases hhello : ∃ msg, op = .hello n msg
  · obtain ⟨msg, rfl⟩ := hhello
    have hkept : s'.selection = s.selection := selection_step hok (fun _ => Op.noConfusion) Op.noConfusion
    rw [hkept] at hselection
    rcases handleHelloMessage_cases hok with ⟨-, rfl⟩ | ⟨node, hnode, rfl⟩
    · exact hunselected node' hnode' hrejected selection hselection share hshare
    · change KeyedMap.at? (s.nodes.store n _) n = some node' at hnode'
      rw [KeyedMap.at?_store_self hnode] at hnode'
      cases hnode'
      rw [Node.sinceRejection_reply (Node.history_send _ _)] at hrejected
      split at hrejected
      next hversion => exact (hop rfl hversion node hnode).2 selection hselection share hshare
      next => cases hrejected
  · obtain ⟨node, hnode, hrejected⟩ := rejected_of_step hs hok (not_exists.mp hhello) hnode' hrejected
    by_cases hselect : ∃ args, op = .select args
    · obtain ⟨args, rfl⟩ := hselect
      rcases selectNodes_cases hok with rfl | ⟨nodeIds, hnodeIds, -, rfl⟩
      · exact hunselected node hnode hrejected selection hselection share hshare
      · cases hselection
        have hmem : share.1 ∈ nodeIds := (List.of_mem_zip (List.mem_filter.mp hshare).1).1
        obtain ⟨other, hother, heligible⟩ := eligible_of_getEligibleNodesForTask hnodeIds hmem
        obtain ⟨since, hsince⟩ := Option.isSome_iff_exists.mp hrejected
        intro heq
        rw [heq] at hother
        cases hnode.symm.trans hother
        exact (h node hnode since hsince).1 _ heligible
    · by_cases hassign : op = .assign
      · subst hassign
        rcases outline_assignShares hok with ⟨-, rfl⟩ | ⟨selection', -, houtline⟩
        · exact hunselected node hnode hrejected selection hselection share hshare
        · -- nothing is selected any more
          have hnone : s'.selection = none := congrArg Outline.selection houtline
          cases hnone.symm.trans hselection
      · have hkept : s'.selection = s.selection := selection_step hok (not_exists.mp hselect) hassign
        exact hunselected node hnode hrejected selection (hkept.symm.trans hselection) share hshare

theorem turnedAway_step {op : Op} (hs : s.WellFormed) (h : s.TurnedAway n) (hunselected : s.Unselected n)
    (hop : s.turnsAway n op) (hok : s.step op = .ok s') : s'.TurnedAway n := by
  cases hnode : s.node? n with
  | none => exact turnedAway_of_untouched (untouched_of_absent hs hok hnode)
  | some node =>
    have hgone (hnone : s'.node? n = none) : s'.TurnedAway n := by
      intro other hother
      cases hnone.symm.trans hother
    have hkept (hsame : s'.node? n = some node) : s'.TurnedAway n :=
      turnedAway_of_node hsame (h node hnode)
    -- any other section sends at most notices to the node
    have hrest (herase : op ≠ .erase n) (hhello : ∀ m msg, op ≠ .hello m msg)
        (hmaintain : ∀ clock, op ≠ .maintain clock) (hbalance : op ≠ .balance)
        (hassign : op ≠ .assign) : s'.TurnedAway n := by
      obtain ⟨node', more, hnode', hmore, hposts⟩ := history_step hs hok hnode herase
      have hprofile := profile_step hok hnode herase (hhello n) hmaintain
      have hsame := Option.some.inj ((profile_of_at? hnode').symm.trans hprofile)
      apply h.notices hnode hnode' hmore
      · intro message hmem
        obtain ⟨a, ha, hposted⟩ := hposts message hmem
        cases a with
        | withdraw t =>
          rw [show message = Node.cancelled t from hposted]
          exact Message.isNotice_cancelled t
        | note m message' =>
          cases op with
          | hello m' msg => exact absurd rfl (hhello m' msg)
          | maintain clock => exact absurd rfl (hmaintain clock)
          | _ => exact ha.elim
        | hand m r =>
          cases op with
          | balance => exact absurd rfl hbalance
          | _ => exact ha.elim
        | create m task =>
          cases op with
          | assign => exact absurd rfl hassign
          | _ => exact ha.elim
        | release m =>
          cases op with
          | maintain clock => exact absurd rfl (hmaintain clock)
          | _ => exact ha.elim
        | _ => exact hposted.elim
      · intro _ hineligible task
        rw [Node.eligible_congr hsame]
        exact hineligible task
    cases op with
    | erase m =>
      by_cases hm : m = n
      · subst hm
        exact hgone (node?_eraseNode hok)
      · exact hrest (fun heq => hm (by cases heq; rfl)) nofun nofun nofun nofun
    | hello m msg => exact turnedAway_hello hs h hop hok hnode
    | maintain clock => exact turnedAway_maintain hs h hop hok hnode
    -- a node that was rejected is not eligible, so it is not given a task
    | balance =>
      cases hrejected : node.sinceRejection with
      | none => exact turnedAway_of_tasks hs hok hnode nofun hrejected
      | some since => exact hkept (at?_balanceTasks hok hnode (h node hnode since hrejected).1)
    | assign =>
      cases hrejected : node.sinceRejection with
      | none => exact turnedAway_of_tasks hs hok hnode nofun hrejected
      | some since =>
        have hunused := hunselected node hnode (by rw [hrejected]; rfl)
        cases hselection : s.selection with
        | none =>
          rcases assignShares_cases hok with ⟨-, rfl⟩ | ⟨selection, hselection', -⟩
          · exact h
          · cases hselection.symm.trans hselection'
        | some selection =>
          exact hkept (at?_assignShares hok hselection hnode (hunused selection hselection))
    | _ => exact hrest nofun nofun nofun nofun nofun

end State

/-- A rejected node gets nothing, as long as no HELLO of another version and no restored connection
makes it eligible, and no HELLO of another version comes from a node that `command_task` has just
selected. -/
theorem rejected_turned_away {config : CoordinatorConfig} {ops : List Op} {s : State} {n : NodeId}
    (hrun : coordinator.Run (State.turnsAway n) (initial config) ops s) : s.TurnedAway n := by
  have hinvariant := hrun.invariant (I := fun s => s.WellFormed ∧ s.TurnedAway n ∧ s.Unselected n)
    (fun s op s' hs _ hop hok => ⟨(State.follows_step hs.1 hok).wellFormed,
      State.turnedAway_step hs.1 hs.2.1 hs.2.2 hop hok, State.unselected_step hs.1 hs.2.1 hs.2.2 hop hok⟩)
    ⟨wellFormed_initial config, nofun, nofun⟩
  exact hinvariant.2.1

/-- A node without games is rejected, and the task goes to the other one. -/
theorem rejected_turned_away_empty :
    (after soloConfig ([.accept 5, .insert, .hello 1 { protoVer := 2 }] ++ joining 2 6 ++
      tasking 1)).TurnedAway 1 :=
  rejected_turned_away (run_after (by decide +kernel))

/-- The rejected node is selected, and gets the task. -/
theorem given_to_rejected : ¬ ∀ (config : CoordinatorConfig) (ops : List Op) (s : State)
    (n : NodeId), coordinator.FreeRun (initial config) ops s → s.TurnedAway n := by
  intro h
  have hrun := run_after (show (coordinator.exec (fun _ _ => True) (initial soloConfig)
    ([.accept 5, .insert, .hello 1 { protoVer := 2, gamelist := soloGames }] ++
      tasking 1)).isSome by decide +kernel)
  have hgiven : ∃ node ∈ (after soloConfig ([.accept 5, .insert,
      .hello 1 { protoVer := 2, gamelist := soloGames }] ++ tasking 1)).node? 1,
      ∃ since ∈ node.sinceRejection, ∃ message ∈ since, message.getType = .task := by
    decide +kernel
  obtain ⟨node, hnode, since, hsince, message, hmem, htask⟩ := hgiven
  exact (h _ _ _ 1 hrun node hnode since hsince).2 message hmem htask

end Bem
