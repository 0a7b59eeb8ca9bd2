import Bem.Common.Writing
import Bem.Network.Pings

/-!
# Before and after a HELLO

A program says HELLO, and nothing more until the coordinator has handled it.  The coordinator sends
nothing but pings before its reply.
-/

namespace Bem

namespace State

variable {s s' : State}

/-- But for the replies to HELLOs, which name no game, the messages to the nodes are of fixed length. -/
def Terse (s : State) : Prop := ∀ n node, s.node? n = some node → ∀ m ∈ node.history,
  m.IsFixed ∨ ∃ config msg, m = helloReply config msg

theorem terse_step {op : Op} (hs : s.WellFormed) (h : s.Terse) (hok : s.step op = .ok s') : s'.Terse := by
  intro n node' hnode' m hm
  cases history_cases hs hok hnode' hm with
  | inl hold =>
    obtain ⟨node, hnode, hm⟩ := hold
    exact h n node hnode m hm
  | inr hnew =>
    cases hnew with
    | inl hreply =>
      obtain ⟨msg, rfl⟩ := hreply
      exact .inr ⟨_, msg, rfl⟩
    | inr hposted =>
      obtain ⟨a, ha, hpost, hhello⟩ := hposted
      left
      cases posted_cases ha hpost hhello with
      | inl hping =>
        rw [hping]
        trivial
      | inr hother =>
        cases hother with
        | inl htask =>
          obtain ⟨msg, rfl⟩ := htask
          trivial
        | inr hcancelled =>
          obtain ⟨t, rfl⟩ := hcancelled
          trivial

end State

/-- What a program says of itself does not change. -/
theorem NodeProgram.Session.Stepped.hello {s s' : Session} {op : Op} (h : Stepped s op s') (hown : op.isOwn) :
    s'.hello = s.hello := by
  cases h with
  | program hmain henabled hok =>
    unfold Session.hello
    rw [(State.works_step hok hown).config]
  | _ => rfl

namespace Network

variable {N N' : Network} {n : NodeId} {l : Link}

theorem Stepped.hasGreeted {op : NetworkOp} (h : Stepped N op N') (hgreeted : N.hasGreeted n) :
    N'.hasGreeted n := by
  obtain ⟨msg, hmsg⟩ := hgreeted
  refine ⟨msg, ?_⟩
  cases h.coordinator with
  | inl hsame =>
    rw [hsame.2]
    exact hmsg
  | inr hsection =>
    obtain ⟨op', -, hinbox⟩ := hsection
    cases hinbox with
    | inl hother =>
      rw [hother.2.2]
      exact hmsg
    | inr hhandled =>
      obtain ⟨now, e, rest, -, -, hreceived⟩ := hhandled
      rw [hreceived]
      exact List.mem_append_left _ hmsg

/-- What is known of what is said before and after a HELLO. -/
structure Acquainted (N : Network) : Prop where
  mannered : N.Mannered
  spoken : ∀ n l, N.link? n = some l → l.session.Spoken
  terse : N.coordinator.Terse
  replied : ∀ n l, N.link? n = some l → l.down.sent.any Message.isHello → N.hasGreeted n

theorem acquainted_initial (config : CoordinatorConfig) : Acquainted { coordinator := initial config } where
  mannered := mannered_initial config
  spoken n l hlink := by cases hlink
  terse n node h := by cases h
  replied n l hlink := by cases hlink

theorem Acquainted.step (h : N.Acquainted) {op : NetworkOp} (hstep : Stepped N op N') : N'.Acquainted := by
  have hsound := h.mannered.heard.traced.sound
  have hmannered := h.mannered.step hstep
  refine ⟨hmannered, spoken_step hsound h.spoken hstep, ?_, fun n l' hlink' hhello => ?_⟩
  · cases hstep.coordinator with
    | inl hsame =>
      rw [hsame.1]
      exact h.terse
    | inr hsection =>
      obtain ⟨op', hok, -⟩ := hsection
      exact State.terse_step hsound.wellFormed h.terse hok
  · cases hstep.down hlink' with
    | inl hnone =>
      rw [hnone] at hhello
      cases hhello
    | inr hrest =>
      cases hrest with
      | inl hsame =>
        obtain ⟨l, hlink, hsent⟩ := hsame
        rw [hsent] at hhello
        exact hstep.hasGreeted (h.replied n l hlink hhello)
      | inr hwritten =>
        -- the node is there, and has been sent the reply
        obtain ⟨-, node, hnode⟩ := hwritten
        rw [(hmannered.heard.traced.sound.custody n l' hlink').written node hnode, List.any_map,
          List.any_eq_true] at hhello
        obtain ⟨m, hm, hhello⟩ := hhello
        rw [← hmannered.greeted n node hnode]
        by_contra hunregistered
        have hping := (hmannered.courteous.unregistered n node hnode hunregistered).2 m
          (List.mem_append_left _ hm)
        rw [hping] at hhello
        cases hhello

/-- Nothing comes before a HELLO. -/
theorem Acquainted.opening (h : N.Acquainted) (hlink : N.link? n = some l) {pre post : List Message}
    {m : Message} (hsent : l.up.sent = pre ++ m :: post) (hhello : m.isHello) : pre = [] := by
  have hcustody := h.mannered.heard.traced.sound.custody n l hlink
  have honce := hcustody.took.countP_isHello_le
  cases pre with
  | nil => rfl
  | cons first pre =>
    exfalso
    have hwritten : l.session.node.written.map Message.delivered = first :: (pre ++ m :: post) :=
      hcustody.said.symm.trans hsent
    obtain ⟨m₀, rest, hall, hfirst, hrest⟩ := List.map_eq_cons_iff.mp hwritten
    have hhistory : l.session.node.history = m₀ :: (rest ++ l.session.node.sendMessageQueue) := by
      unfold NodeProgram.State.history
      rw [hall, List.cons_append]
    -- the first message is a HELLO already
    have hhello₀ : m₀.isHello := by
      cases (h.spoken n l hlink).opening with
      | inl hnone => cases hhistory.symm.trans hnone
      | inr hopened =>
        obtain ⟨_, hopened⟩ := hopened
        rw [(List.cons.inj (hhistory.symm.trans hopened)).1]
        rfl
    have hlater : 0 < rest.countP Message.isHello := by
      have hmem : m ∈ rest.map Message.delivered := by
        rw [hrest]
        exact List.mem_append_right _ List.mem_cons_self
      obtain ⟨m', hm', rfl⟩ := List.mem_map.mp hmem
      rw [Message.isHello_delivered] at hhello
      exact List.countP_pos_iff.mpr ⟨m', hm', hhello⟩
    rw [hhistory, List.countP_cons_of_pos hhello₀, List.countP_append] at honce
    omega

/-- Nothing comes behind a HELLO that has not been handled. -/
theorem Acquainted.received_ne_nil (h : N.Acquainted) (hlink : N.link? n = some l)
    (hmore : 2 ≤ l.up.sent.length) : l.up.received ≠ [] := by
  have hcustody := h.mannered.heard.traced.sound.custody n l hlink
  rw [hcustody.said, List.length_map] at hmore
  -- a message besides the HELLO is a report
  have hreport : ∃ m ∈ l.session.node.history, m.isReport := by
    by_contra hnone
    have hall : l.session.node.history.filter (fun m => !m.isReport) = l.session.node.history := by
      rw [List.filter_eq_self]
      intro m hm
      have hother := fun hm' => hnone ⟨m, hm, hm'⟩
      simpa using hother
    have hlength := congrArg List.length (hall.symm.trans hcustody.took.said)
    have hgreetings : l.session.greetings.length ≤ 1 := by
      unfold NodeProgram.Session.greetings
      split <;> simp
    unfold NodeProgram.State.history at hlength
    rw [List.length_append] at hlength
    omega
  obtain ⟨m, hm, hreport⟩ := hreport
  obtain ⟨⟨protocolVersion, config, ops, hrun⟩, hreplied⟩ := h.mannered.heeded n l hlink
  -- so the reply has come
  have hcome : l.session.replied = true := by
    by_contra hsilent
    have hnone := NodeProgram.Session.unanswered_run hrun (by simpa using hsilent)
    exact NodeProgram.Session.not_isReport_of_idle hcustody.took (h.spoken n l hlink).replied hnone hm hreport
  have hsent : l.down.sent.any Message.isHello := by
    rw [hreplied, List.any_eq_true] at hcome
    obtain ⟨m, hm, hhello⟩ := hcome
    exact List.any_eq_true.mpr ⟨m, l.down.inOrder.subset hm, hhello⟩
  obtain ⟨msg, hmsg⟩ := h.replied n l hlink hsent
  have htaken : Message.hello msg ∈ N.takenFrom n := List.mem_map.mpr
    ⟨_, List.mem_filter.mpr ⟨N.inbox.inOrder.subset hmsg, decide_eq_true rfl⟩, rfl⟩
  rw [hcustody.taken] at htaken
  exact List.ne_nil_of_mem htaken

/-! ## The HELLOs of the nodes -/

/-- The nodes that are started have a HELLO of this kind. -/
def startsGreeting (p : Message → Prop) (_ : Network) : NetworkOp → Prop
  | .join protocolVersion config => p (NodeProgram.start protocolVersion config).hello
  | _ => True

instance (p : Message → Prop) [DecidablePred p] (N : Network) (op : NetworkOp) :
    Decidable (N.startsGreeting p op) :=
  match op with
  | .join protocolVersion config =>
    inferInstanceAs (Decidable (p (NodeProgram.start protocolVersion config).hello))
  | .own _ | .accept _ | .write _ | .deliver _ | .act _ _ | .send _ | .read _ | .handle _ => .isTrue trivial

theorem startsGreeting.imp {p q : Message → Prop} {N V : Network} {op : NetworkOp} (h : N.startsGreeting p op)
    (himp : ∀ m, p m → q m) : V.startsGreeting q op := by
  cases op with
  | join protocolVersion config => exact himp _ h
  | _ => trivial

def Greets (p : Message → Prop) (N : Network) : Prop := ∀ n l, N.link? n = some l → p l.session.hello

theorem Greets.step {p : Message → Prop} (h : N.Greets p) {op : NetworkOp} (hop : N.startsGreeting p op)
    (hstep : Stepped N op N') : N'.Greets p := by
  intro n l' hlink'
  cases hstep.link hlink' with
  | inl hnew =>
    obtain ⟨protocolVersion, config, -, rfl, rfl⟩ := hnew
    exact hop
  | inr hold =>
    obtain ⟨l, hlink, hlstep⟩ := hold
    have hl := h n l hlink
    cases hlstep with
    | act halive hown henabled hok =>
      rw [(NodeProgram.Session.stepped henabled hok hown).hello hown]
      exact hl
    | send =>
      have hsame : l.session.takeMessage.hello = l.session.hello := by
        unfold NodeProgram.Session.hello NodeProgram.Session.takeMessage
        rw [(NodeProgram.beside_takeMessage l.session.node).config]
      show p l.session.takeMessage.hello
      rw [hsame]
      exact hl
    | _ => exact hl

theorem greets_initial (p : Message → Prop) (config : CoordinatorConfig) :
    Greets p { coordinator := initial config } := fun n l hlink => by cases hlink

/-- A program writes answers, results and its HELLO. -/
theorem Acquainted.written_cases (h : N.Acquainted) (hlink : N.link? n = some l) {m : Message}
    (hm : m ∈ l.session.node.history) : m.IsFixed ∨ m = l.session.hello := by
  cases (h.mannered.heard.traced.sound.custody n l hlink).took.report_or_hello hm with
  | inr hhello => exact .inr hhello
  | inl hreport =>
    left
    cases m with
    | result msg | taskNotify msg => trivial
    | _ => cases hreport

theorem greets_run {p : Message → Prop} {config : CoordinatorConfig} {ops : List NetworkOp}
    (hrun : network.Run (startsGreeting p) { coordinator := initial config } ops N) : N.Greets p :=
  hrun.invariant (fun _ _ _ h henabled hop hok => h.step hop (stepped henabled hok)) (greets_initial p config)

end Network

end Bem
