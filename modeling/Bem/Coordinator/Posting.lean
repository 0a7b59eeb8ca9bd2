import Bem.Coordinator.Fitness

/-!
# What is sent to a node

The queue of a node only grows, and each message in it comes from an entry in the ledger.
-/

namespace Bem

/-- The act may send the message to the node. -/
def Act.Posts (n : NodeId) (message : Message) : Act → Prop
  | .note n' message' => n' = n ∧ message' = message
  | .hand n' _ | .create n' _ => n' = n ∧ ∃ m, message = .task m
  | .release n' => n' = n ∧ ∃ t, message = Node.cancelled t
  | .withdraw t => message = Node.cancelled t
  | _ => False

namespace Ledger

variable {L L' : Ledger} {a : Act} {n : NodeId} {d : Desk}

theorem sent_assign (heap : Heap Task) (r : Ref) (d : Desk) : ∃ more,
    (d.assign heap r).sent = d.sent ++ more ∧ ∀ message ∈ more, ∃ m, message = .task m := by
  by_cases hl : d.lists heap (heap.get r).id
  · rw [Desk.assign_of_lists hl]
    exact ⟨[], (List.append_nil _).symm, fun _ h => absurd h List.not_mem_nil⟩
  · rw [Desk.assign_of_not_lists (by simpa using hl)]
    exact ⟨[_], rfl, fun message h => ⟨_, List.mem_singleton.mp h⟩⟩

theorem sent_unassign (heap : Heap Task) (t : TaskId) (d : Desk) : ∃ more,
    (d.unassign heap t).sent = d.sent ++ more ∧ ∀ message ∈ more, message = Node.cancelled t := by
  by_cases hl : d.lists heap t
  · rw [Desk.unassign_of_lists hl]
    exact ⟨[_], rfl, fun message h => List.mem_singleton.mp h⟩
  · rw [Desk.unassign_of_not_lists (by simpa using hl)]
    exact ⟨[], (List.append_nil _).symm, fun _ h => absurd h List.not_mem_nil⟩

/-- A desk that stays keeps what was sent, and adds what the act posts. -/
theorem Step.sent (h : Step L a L') (hd : L.desk n = some d) (hdrop : a ≠ .drop n) :
    ∃ d' more, L'.desk n = some d' ∧ d'.sent = d.sent ++ more ∧
      ∀ message ∈ more, a.Posts n message := by
  -- an act leaves the desk alone, or changes this one or another
  have hsame (hdesk : L'.desk n = L.desk n) : ∃ d' more, L'.desk n = some d' ∧
      d'.sent = d.sent ++ more ∧ ∀ message ∈ more, a.Posts n message :=
    ⟨d, [], hdesk.trans hd, (List.append_nil _).symm, fun _ h => absurd h List.not_mem_nil⟩
  have hupdate {n' : NodeId} {d₀ d' : Desk} {more : List Message} (hd₀ : L.desk n' = some d₀)
      (hdesk : L'.desk = Function.update L.desk n' (some d')) (hsent : d'.sent = d₀.sent ++ more)
      (hposts : ∀ message ∈ more, n' = n → a.Posts n message) : ∃ d' more, L'.desk n = some d' ∧
      d'.sent = d.sent ++ more ∧ ∀ message ∈ more, a.Posts n message := by
    by_cases hn : n = n'
    · subst hn
      cases hd.symm.trans hd₀
      refine ⟨d', more, ?_, hsent, fun message hmem => hposts message hmem rfl⟩
      rw [hdesk, Function.update_self]
    · apply hsame
      rw [hdesk, Function.update_of_ne hn]
  cases h with
  | @join n' hnew =>
    apply hsame
    apply Function.update_of_ne
    intro heq
    rw [heq, hnew] at hd
    cases hd
  | @drop n' =>
    apply hsame
    exact Function.update_of_ne (fun heq => hdrop (by rw [heq])) _ _
  | note hdesk =>
    apply hupdate hdesk rfl rfl
    exact fun message hmem heq => ⟨heq, (List.mem_singleton.mp hmem).symm⟩
  | @hand _ d₀ r hdesk =>
    obtain ⟨more, hsent, htask⟩ := sent_assign L.heap r d₀
    exact hupdate hdesk rfl hsent fun message hmem heq => ⟨heq, htask message hmem⟩
  | release hdesk =>
    apply hupdate hdesk rfl rfl
    intro message hmem heq
    obtain ⟨r, -, hr⟩ := List.mem_map.mp hmem
    exact ⟨heq, _, hr.symm⟩
  | openGroup => exact hsame (congrFun (desk_openGroup _ _ _) n)
  | @create _ d₀ task hdesk =>
    obtain ⟨more, hsent, htask⟩ := sent_assign (L.heap.alloc task) L.heap.next d₀
    exact hupdate hdesk rfl hsent fun message hmem heq => ⟨heq, htask message hmem⟩
  | @withdraw t r G =>
    obtain ⟨more, hsent, hcancelled⟩ := sent_unassign L.heap t d
    refine ⟨d.unassign L.heap t, more, ?_, hsent, hcancelled⟩
    show (L.desk n).map (Desk.unassign L.heap t) = _
    rw [hd]
    rfl
  | cancelGroup => exact hsame rfl
  | settle => exact hsame rfl

theorem sent_of_does {Q : Act → Prop} (h : Does Step Q L L') (hd : L.desk n = some d)
    (hdrop : ¬ Q (.drop n)) : ∃ d' more, L'.desk n = some d' ∧ d'.sent = d.sent ++ more ∧
      ∀ message ∈ more, ∃ a, Q a ∧ a.Posts n message := by
  apply h.invariant (I := fun M => ∃ d' more, M.desk n = some d' ∧ d'.sent = d.sent ++ more ∧
    ∀ message ∈ more, ∃ a, Q a ∧ a.Posts n message)
  · intro M a M' hM ha hstep
    obtain ⟨d', more, hd', hsent, hposts⟩ := hM
    obtain ⟨d'', more', hd'', hsent', hposts'⟩ := hstep.sent hd' fun heq => hdrop (heq ▸ ha)
    refine ⟨d'', more ++ more', hd'', ?_, ?_⟩
    · rw [hsent', hsent, List.append_assoc]
    · rw [List.forall_mem_append]
      exact ⟨hposts, fun message hmem => ⟨a, ha, hposts' message hmem⟩⟩
  · exact ⟨d, [], hd, (List.append_nil _).symm, fun _ h => absurd h List.not_mem_nil⟩

end Ledger

namespace State

variable {s s' : State} {n : NodeId} {node : Node}

/-- A section that does not remove the node adds to its queue only what one of its acts posts. -/
theorem history_step {op : Op} (hs : s.WellFormed) (hok : s.step op = .ok s')
    (hnode : s.node? n = some node) (hop : op ≠ .erase n) : ∃ node' more,
      s'.node? n = some node' ∧ node'.history = node.history ++ more ∧
      ∀ message ∈ more, ∃ a, s.mayDo op a ∧ a.Posts n message := by
  have hdrop : ¬ s.mayDo op (.drop n) := by
    cases op with
    | erase m => exact fun heq => hop (by rw [show n = m from heq])
    | _ => exact fun h => h
  obtain ⟨d', more, hd', hsent, hposts⟩ :=
    Ledger.sent_of_does (follows_step hs hok).does (ledger_desk hnode) hdrop
  obtain ⟨node', hnode', rfl⟩ := ledger_desk_iff.mp hd'
  exact ⟨node', more, hnode', hsent, hposts⟩

theorem config_step {op : Op} (hok : s.step op = .ok s') : s'.config = s.config := by
  by_cases hassign : op = .assign
  · subst hassign
    rcases outline_assignShares hok with ⟨-, rfl⟩ | ⟨selection, -, houtline⟩
    · rfl
    · exact congrArg Outline.config houtline
  · exact congrArg Outline.config (outline_step hok fun h => absurd h hassign)

theorem node?_eraseNode (h : s.eraseNode n = .ok s') : s'.node? n = none := by
  rcases eraseNode_cases h with ⟨hnot, rfl⟩ | ⟨node, -, rfl⟩
  · exact KeyedMap.at?_eq_none_of_notMem hnot
  · exact KeyedMap.at?_erase_self s.nodes n

/-- A node that stays keeps its profile, but for a HELLO and a tick. -/
theorem profile_step {op : Op} (hok : s.step op = .ok s') (hnode : s.node? n = some node)
    (herase : op ≠ .erase n) (hhello : ∀ msg, op ≠ .hello n msg)
    (hmaintain : ∀ clock, op ≠ .maintain clock) : s'.outline.profile n = some node.profile := by
  have hprofile := profile_of_at? hnode
  cases op with
  | select args =>
    rcases selectNodes_cases hok with rfl | ⟨nodeIds, -, -, rfl⟩
    · exact hprofile
    · exact hprofile
  | assign =>
    rcases outline_assignShares hok with ⟨-, rfl⟩ | ⟨selection, -, houtline⟩
    · exact hprofile
    · rw [houtline]
      exact hprofile
  | cancel g => rwa [outline_commandCancel hok]
  | erase m =>
    rw [outline_eraseNode hok]
    -- it is another node that goes
    exact (Function.update_of_ne (fun heq => herase (by rw [heq])) _ _).trans hprofile
  | balance => rwa [outline_balanceTasks hok]
  | maintain clock => exact absurd rfl (hmaintain clock)
  | accept nodeSocket =>
    cases hok
    apply profile_of_at?
    rw [nodes_acceptConnection]
    exact hnode
  | insert =>
    cases hok
    exact profile_of_at? (s.node?_insertNode hnode)
  | result msg => rwa [outline_handleResultMessage hok]
  | hello m msg =>
    rcases outline_handleHelloMessage hok with ⟨-, rfl⟩ | ⟨p, -, houtline⟩
    · exact hprofile
    · rw [houtline]
      -- it is another node that says HELLO
      exact (Function.update_of_ne (fun heq => hhello msg (by rw [heq])) _ _).trans hprofile
  | notify m msg now => rwa [outline_handleNotifyTaskMessage hok]
  | write m =>
    cases hok
    rwa [outline_takeMessage]
  | rehash nodes groups tasks =>
    cases hok
    apply profile_of_at?
    rw [KeyedMap.at?_reorder]
    exact hnode

/-- What a tick makes of a node, in the heap that the nodes before it have left. -/
theorem node?_maintain {clock : NodeId → TimePoint} (hs : s.WellFormed)
    (h : s.maintain clock = .ok s') (hnode : s.node? n = some node) : ∃ t : State,
      t.WellFormed ∧ t.config = s.config ∧ t.node? n = some node ∧
      s'.node? n = (maintainNode clock t (n, node)).node? n := by
  let I (l : List (NodeId × Node)) (u : State) : Prop := (n, node) ∈ l ∨ ∃ t : State,
    t.WellFormed ∧ t.config = s.config ∧ t.node? n = some node ∧
      u.node? n = (maintainNode clock t (n, node)).node? n
  have hI := maintain_rule clock (I := I) hs (Or.inl (KeyedMap.mem_pointees.mpr hnode))
    (by
      intro m other l u hother hother' hconfig hu hI
      by_cases hm : n = m
      · subst hm
        cases (show some node = some other from hnode.symm.trans hother)
        exact Or.inr ⟨u, hu, hconfig, hother', rfl⟩
      · rcases hI with hmem | ⟨t, ht, htconfig, htnode, hut⟩
        · refine Or.inl ((List.mem_cons.mp hmem).resolve_left ?_)
          exact fun heq => hm (congrArg Prod.fst heq)
        · exact Or.inr ⟨t, ht, htconfig, htnode, (nodes_maintainNode_ne hm).trans hut⟩)
    h
  exact hI.2.resolve_left List.not_mem_nil

/-- A node that is eligible for nothing is left alone by balancing. -/
theorem at?_balanceTasks (h : s.balanceTasks = .ok s') (hnode : s.nodes.at? n = some node)
    (hineligible : ∀ task, ¬ node.eligible task) : s'.nodes.at? n = some node := by
  obtain ⟨s₁, hloop, rfl⟩ := balanceTasks_eq_ok h
  apply Except.foldlM_rest (I := fun (_ : List Ref) (t : State) => t.nodes.at? n = some node) _ hnode hloop
  intro r l t t' ht hstep
  rcases balanceTask_cases hstep with rfl | ⟨m, other, hother, heligible, -, rfl⟩
  · exact ht
  · rw [KeyedMap.at?_store_of_at? hother, Function.update_of_ne]
    · exact ht
    · intro heq
      rw [← heq] at hother
      cases hother.symm.trans ht
      exact hineligible _ heligible

/-- A node without a share is left alone by `command_task`. -/
theorem at?_assignShares {selection : Selection} (h : s.assignShares = .ok s')
    (hselection : s.selection = some selection) (hnode : s.nodes.at? n = some node)
    (hunused : ∀ share ∈ selection.used, share.1 ≠ n) : s'.nodes.at? n = some node := by
  rcases assignShares_cases h with ⟨hnone, -⟩ | ⟨selection', hselection', hloop⟩
  · cases hselection.symm.trans hnone
  · cases hselection.symm.trans hselection'
    let I (l : List (NodeId × UInt32)) (t : State) : Prop :=
      (∀ share ∈ l, share.2 ≠ 0 → share.1 ≠ n) ∧ t.nodes.at? n = some node
    have hI : I [] s' := by
      apply Except.foldlM_rest (I := I) _ _ hloop
      · intro share l t t' ht hstep
        have hothers := List.forall_mem_cons.mp ht.1
        refine ⟨hothers.2, ?_⟩
        rcases assignShare_cases hstep with ⟨-, rfl⟩ | ⟨hne, other, tt, heap, hother, -, -, rfl⟩
        · exact ht.2
        · rw [KeyedMap.at?_store_of_at? hother, Function.update_of_ne (hothers.1 hne).symm]
          exact ht.2
      · refine ⟨fun share hshare hne => ?_, hnode⟩
        exact hunused share (List.mem_filter.mpr ⟨hshare, by simpa using hne⟩)
    exact hI.2

end State

end Bem
