import Bem.Lib.Ranking
import Bem.Network.Readers

/-!
# The messages, carried by their bytes

What the programs can do with messages they can do with bytes.  Where a message is to come, its bytes are
read one by one.
-/

namespace Bem

/-- The message can be serialized, and a reader has room for it. -/
def Message.Sendable (lib : BsonLibrary) (m : Message) : Prop :=
  m.Small lib ∧ ∃ b, m.serialize lib = .ok b

/-- The node that is started. -/
def NetworkOp.started : NetworkOp → Option (UInt8 × NodeConfig)
  | .join protocolVersion config => some (protocolVersion, config)
  | _ => none

namespace WiredNetwork

variable {lib : BsonLibrary} {W W' : WiredNetwork} {N N' : Network} {n : NodeId}

/-- No program has ended on the wire only. -/
def Alike (W : WiredNetwork) (N : Network) : Prop :=
  ∀ n w l, W.link? n = some w → N.link? n = some l → w.dead = true → l.dead = true

/-- The wire is where the network of messages is. -/
structure Carries (lib : BsonLibrary) (N : Network) (W : WiredNetwork) : Prop where
  follows : Follows lib W N
  alike : Alike W N

theorem link?_setLink (W : WiredNetwork) (n : NodeId) (w : WiredLink) (m : NodeId) :
    (W.setLink n w).link? m = if m = n then some w else W.link? m := by
  show Function.update W.links n (some w) m = _
  by_cases hm : m = n
  · rw [hm, Function.update_self, if_pos rfl]
  · rw [Function.update_of_ne hm, if_neg hm]
    rfl

theorem Alike.setLink (h : Alike W N) {w : WiredLink} {l : Link} (hdead : w.dead = true → l.dead = true) :
    Alike (W.setLink n w) (N.setLink n l) := by
  intro m w' l' hw' hl'
  rw [link?_setLink] at hw'
  by_cases hm : m = n
  · subst hm
    rw [if_pos rfl] at hw'
    cases hw'
    rw [Network.link?_setLink_self] at hl'
    cases hl'
    exact hdead
  · rw [if_neg hm] at hw'
    rw [Network.link?_setLink_ne _ _ hm] at hl'
    exact h m w' l' hw' hl'

theorem Carries.setLink (h : Carries lib N W) {w : WiredLink} {l : Link} (hfollows : WiredLink.Follows lib w l)
    (hdead : w.dead = true → l.dead = true) : Carries lib (N.setLink n l) (W.setLink n w) :=
  ⟨h.follows.setLink hfollows, h.alike.setLink hdead⟩

/-- The network of messages does not see the step. -/
theorem Carries.setLink_of_link? (h : Carries lib N W) {w : WiredLink} {l : Link} (hl : N.link? n = some l)
    (hfollows : WiredLink.Follows lib w l) (hdead : w.dead = true → l.dead = true) :
    Carries lib N (W.setLink n w) := by
  have hset := h.setLink (n := n) hfollows hdead
  rwa [Network.setLink_of_link? hl] at hset

/-- The steps by which the wire carries a step of the network: it is the only one that can be seen. -/
def takes (N : Network) (op : NetworkOp) (W : WiredNetwork) (op' : WiredOp) : Prop :=
  op'.writesWhole ∧ ∀ shown ∈ op'.shown, shown = op ∧ W.coordinator = N.coordinator ∧ W.inbox = N.inbox

/-- What the coordinator has written to a node is short. -/
theorem Follows.small_down (h : Follows lib W N) (hempty : lib.WritesEmpty) {w : WiredLink}
    (hlink : W.link? n = some w) : ∀ m ∈ w.down.written, m.Small lib := by
  intro m hm
  obtain ⟨l, -, hfollows⟩ := h.exists_link hlink
  cases hfollows.terse m hm with
  | inl hfixed => exact hfixed.small
  | inr hreply =>
    obtain ⟨config, msg, rfl⟩ := hreply
    exact (Message.serialize_reply hempty config msg).1

/-! ## Reading byte by byte -/

/-- Bytes are read until a message is ready, where one is under way.  `wire` and `channel` are those of one
direction, and `op` reads a byte of it. -/
theorem Carries.exists_ready (h : Carries lib N W) (hlib : lib.Faithful) {l : Link} (hl : N.link? n = some l)
    (wire : WiredLink → Wire) (channel : Link → Channel Message) {op : WiredOp}
    {P : WiredNetwork → WiredOp → Prop} (hop : ∀ W, P W op)
    (hconveys : ∀ w, WiredLink.Follows lib w l → Wire.Conveys lib (wire w) (channel l))
    (hsmall : ∀ W w, Follows lib W N → W.link? n = some w → ∀ m ∈ (wire w).written, m.Small lib)
    (hfill : ∀ W w v, W.link? n = some w → (w.dead = true → l.dead = true) → WiredLink.Follows lib w l →
      (wire w).canFill 1 → (wire w).fill lib 1 = .ok v → (wired lib).enabled W op ∧ ∃ w', wire w' = v ∧
        w'.dead = w.dead ∧ WiredLink.Follows lib w' l ∧ (wired lib).step W op = .ok (W.setLink n w'))
    (hnext : (channel l).inFlight ≠ []) :
    ∃ k W', (wired lib).Run P W (List.replicate k op) W' ∧ Carries lib N W' ∧
      ∃ w ∈ W'.link? n, (wire w).ready ≠ [] := by
  refine Machine.exists_repeat (fun W => ((W.link? n).map fun w => (wire w).underWay.length).getD 0)
    (fun W₁ h₁ hnot => ?_) h
  obtain ⟨w, hw, hfollows⟩ := h₁.follows.exists_wire hl
  have hdead := h₁.alike n w l hw hl
  have hready : (wire w).ready = [] := by
    by_contra hready
    exact hnot ⟨w, hw, hready⟩
  have hshort := hsmall W₁ w h₁.follows hw
  have hunderWay : (wire w).underWay ≠ [] := fun hnone =>
    (hconveys w hfollows).ready_ne_nil hlib hshort hnone hnext hready
  obtain ⟨hcan, v, hv⟩ := (hconveys w hfollows).exists_fill_one hlib hready hunderWay hshort
  obtain ⟨henabled, w', hwire, hdead', hfollows', hok⟩ := hfill W₁ w v hw hdead hfollows hcan hv
  refine ⟨_, henabled, hop W₁, hok, h₁.setLink_of_link? hl hfollows' (fun hd => hdead (hdead' ▸ hd)), ?_⟩
  have hpos := List.length_pos_iff.mpr hunderWay
  rw [link?_setLink, if_pos rfl, hw]
  simp only [Option.map_some, Option.getD_some, hwire, Wire.underWay_fill hv, List.length_drop]
  omega

/-- The reader of the program reads until the next message is ready. -/
theorem Carries.exists_ready_down (h : Carries lib N W) (hlib : lib.Faithful) (hempty : lib.WritesEmpty)
    {l : Link} (hl : N.link? n = some l) (halive : ¬ l.dead = true) (hnext : l.down.inFlight ≠ [])
    (op : NetworkOp) : ∃ k W', (wired lib).Run (takes N op) W (List.replicate k (.fillNode n 1)) W' ∧ Carries lib N W' ∧
      ∃ w ∈ W'.link? n, w.down.ready ≠ [] := by
  refine h.exists_ready hlib hl WiredLink.down Link.down (fun W => ⟨rfl, List.forall_mem_nil _⟩) (fun w hw => hw.down)
    (fun W w hfollows hw => hfollows.small_down hempty hw) (fun W w down hw hdead hfollows hcan hdown => ?_) hnext
  refine ⟨⟨w, hw, fun hd => halive (hdead hd), hcan⟩, { w with down }, rfl, rfl, hfollows.filled hcan hdown, ?_⟩
  show Except.ok (W.onLink n (WiredLink.fill lib 1)) = _
  unfold onLink WiredLink.fill
  rw [hw]
  dsimp only
  rw [hdown]

/-- The reader of the coordinator does. -/
theorem Carries.exists_ready_up (h : Carries lib N W) (hlib : lib.Faithful) (hacquainted : N.Acquainted)
    (hgreets : N.Greets (Message.Small lib)) {l : Link} (hl : N.link? n = some l) (hnext : l.up.inFlight ≠ [])
    (op : NetworkOp) : ∃ k W', (wired lib).Run (takes N op) W (List.replicate k (.fillCoordinator n 1)) W' ∧ Carries lib N W' ∧
      ∃ w ∈ W'.link? n, w.up.ready ≠ [] := by
  refine h.exists_ready hlib hl WiredLink.up Link.up (fun W => ⟨rfl, List.forall_mem_nil _⟩) (fun w hw => hw.up)
    (fun W w hfollows hw => hfollows.small_up hacquainted hgreets hw)
    (fun W w up hw hdead hfollows hcan hup => ?_) hnext
  refine ⟨⟨w, hw, hcan⟩, { w with up }, rfl, rfl, hfollows.filledUp hcan hup, ?_⟩
  show W.fillCoordinator lib n 1 = _
  unfold fillCoordinator
  rw [hw]
  exact Except.bind_eq_ok.mpr ⟨up, hup, rfl⟩

/-! ## The steps of the network -/

theorem flatMap_shown_replicate {op : WiredOp} (hop : op.shown = []) (k : Nat) (op' : NetworkOp) :
    (List.replicate k op ++ [WiredOp.net op']).flatMap WiredOp.shown = [op'] := by
  have hnone : (List.replicate k op).flatMap WiredOp.shown = [] :=
    List.flatMap_eq_nil_iff.mpr fun op₁ hop₁ => by rw [List.eq_of_mem_replicate hop₁, hop]
  rw [List.flatMap_append, hnone]
  rfl

/-- The wire takes the same step. -/
theorem Carries.run_net (h : Carries lib N W) {op : NetworkOp} (henabled : (wired lib).enabled W (.net op))
    (hok : (wired lib).step W (.net op) = .ok W') : (wired lib).Run (takes N op) W [.net op] W' :=
  .cons henabled ⟨rfl, List.forall_mem_singleton.mpr ⟨rfl, h.follows.coordinator, h.follows.inbox⟩⟩ hok (.nil W')

theorem Carries.onLink (h : Carries lib N W) {w : WiredLink} {l : Link} {f : WiredLink → WiredLink}
    {g : Link → Link} (hw : W.link? n = some w) (hl : N.link? n = some l)
    (hfollows : WiredLink.Follows lib (f w) (g l)) (hdead : (f w).dead = true → (g l).dead = true) :
    Carries lib (N.onLink n g) (W.onLink n f) := by
  unfold WiredNetwork.onLink
  rw [hw, Network.onLink_of_link? hl]
  exact h.setLink hfollows hdead

theorem Carries.own (h : Carries lib N W) {op : Op} (hok : N.own op = .ok N') :
    ∃ W', W.own op = .ok W' ∧ Carries lib N' W' := by
  obtain ⟨s, hs, rfl⟩ := Network.own_eq_ok hok
  rw [← h.follows.coordinator] at hs
  have hok' : W.own op = .ok { W with coordinator := s } := by
    unfold WiredNetwork.own
    rw [hs]
    rfl
  exact ⟨_, hok', ⟨rfl, h.follows.connections, h.follows.inbox, h.follows.links⟩, h.alike⟩

theorem Carries.handle (h : Carries lib N W) {now : TimePoint} (hok : N.handle now = .ok N') :
    ∃ W', W.handle now = .ok W' ∧ Carries lib N' W' := by
  unfold Network.handle at hok
  unfold WiredNetwork.handle
  rw [h.follows.inbox]
  cases hnext : N.inbox.inFlight with
  | nil =>
    rw [hnext] at hok
    cases hok
    exact ⟨W, rfl, h⟩
  | cons e rest =>
    rw [hnext] at hok
    dsimp only at hok ⊢
    cases hsection : Network.handlerSection now e with
    | none =>
      rw [hsection] at hok
      cases hok
    | some op =>
      rw [hsection] at hok
      have hpopped : Carries lib { N with inbox := N.inbox.next } { W with inbox := N.inbox.next } :=
        ⟨⟨h.follows.coordinator, h.follows.connections, rfl, h.follows.links⟩, h.alike⟩
      exact hpopped.own hok

theorem Carries.join (h : Carries lib N W) (protocolVersion : UInt8) (config : NodeConfig) :
    Carries lib (N.join protocolVersion config) (W.join protocolVersion config) := by
  refine ⟨h.follows.join protocolVersion config, ?_⟩
  unfold WiredNetwork.join Network.join
  rw [h.follows.coordinator]
  cases N.coordinator.accepting with
  | none => exact h.alike
  | some socket => exact h.alike.setLink id

theorem Carries.write (h : Carries lib N W) (hempty : lib.WritesEmpty) (hacquainted : N.Acquainted) :
    ∃ W', W.write lib n = .ok W' ∧ Carries lib (N.write n) W' := by
  obtain ⟨W', hok⟩ := h.follows.exists_write hempty hacquainted (n := n)
  have hmannered := hacquainted.mannered
  refine ⟨W', hok, h.follows.write hmannered.heard.traced.sound (fun node hnode m hm =>
    ⟨hmannered.valid_queue hnode m hm, hacquainted.terse n node hnode m (List.mem_append_right _ hm)⟩) hok, ?_⟩
  unfold WiredNetwork.write at hok
  unfold Network.write
  rw [h.follows.coordinator] at hok
  cases hnode : N.coordinator.node? n with
  | none =>
    rw [hnode] at hok
    cases hok
    exact h.alike
  | some node =>
    obtain ⟨l, hl⟩ := Option.isSome_iff_exists.mp
      (hmannered.heard.traced.sound.nodes n (by rw [hnode]; rfl))
    obtain ⟨w, hw, hfollows⟩ := h.follows.exists_wire hl
    rw [hnode, hw] at hok
    dsimp only at hok ⊢
    cases hqueue : node.messageQueue with
    | nil =>
      rw [hqueue] at hok
      cases hok
      exact h.alike
    | cons msg rest =>
      rw [hqueue] at hok
      obtain ⟨down, -, hok⟩ := Except.bind_eq_ok.mp hok
      cases hok
      dsimp only
      rw [Network.onLink_of_link? hl]
      exact h.alike.setLink (h.alike n w l hw hl)

/-- The program takes the step on both sides, or ends on both. -/
theorem dead_run {w : WiredLink} {l : Link} (hfollows : WiredLink.Follows lib w l)
    (hdead : w.dead = true → l.dead = true) (op : NodeProgram.Op) :
    (w.run op).dead = true → (l.run op).dead = true := by
  unfold WiredLink.run Link.run
  rw [hfollows.session]
  cases l.session.step op with
  | ok session => exact hdead
  | error e => exact fun _ => rfl

/-- A message of the program that is to be sent can be serialized. -/
theorem exists_put (hacquainted : N.Acquainted) (hgreets : N.Greets (Message.Sendable lib)) {l : Link}
    (hl : N.link? n = some l) {m : Message} (hm : m ∈ l.session.node.sendMessageQueue) (w : Wire) :
    ∃ up, w.put lib m = .ok up := by
  have hserialize : ∃ b, m.serialize lib = .ok b := by
    cases hacquainted.written_cases hl (List.mem_append_right _ hm) with
    | inl hfixed => exact hfixed.serialize
    | inr hhello =>
      rw [hhello]
      exact (hgreets n l hl).2
  obtain ⟨b, hb⟩ := hserialize
  exact ⟨_, Except.bind_eq_ok.mpr ⟨b, hb, rfl⟩⟩

theorem Carries.send (h : Carries lib N W) (hacquainted : N.Acquainted)
    (hgreets : N.Greets (Message.Sendable lib)) {l : Link} (hl : N.link? n = some l)
    (hqueue : l.session.node.sendMessageQueue ≠ []) :
    Carries lib (N.onLink n Link.send) (W.onLink n (WiredLink.send lib)) := by
  obtain ⟨w, hw, hfollows⟩ := h.follows.exists_wire hl
  obtain ⟨msg, rest, hqueue⟩ := List.exists_cons_of_ne_nil hqueue
  have hmsg : msg ∈ l.session.node.sendMessageQueue := by rw [hqueue]; exact List.mem_cons_self
  obtain ⟨up, hup⟩ := exists_put hacquainted hgreets hl hmsg w.up
  have hsend : w.send lib = { w.run .write with up } := by
    unfold WiredLink.send
    rw [hfollows.session, hqueue]
    dsimp only
    rw [hup]
  refine h.onLink hw hl ?_ ?_
  · rw [hsend]
    exact hfollows.put hqueue (hacquainted.mannered.valid_sendQueue hl msg hmsg) hup
  · intro hdead
    rw [hsend] at hdead
    unfold Link.send
    rw [hqueue]
    exact dead_run hfollows (h.alike n w l hw hl) .write hdead

/-- The program reads up to the end of the next message, and gets it. -/
theorem Carries.deliver (h : Carries lib N W) (hlib : lib.Faithful) (hempty : lib.WritesEmpty) {l : Link}
    (hl : N.link? n = some l) (halive : ¬ l.dead = true) (hnext : l.down.inFlight ≠ []) :
    ∃ ops W', ops.flatMap WiredOp.shown = [.deliver n] ∧ (wired lib).Run (takes N (.deliver n)) W ops W' ∧
      Carries lib (N.onLink n Link.deliver) W' := by
  obtain ⟨k, W₁, hrun, h₁, w, hw, hready⟩ := h.exists_ready_down hlib hempty hl halive hnext (.deliver n)
  obtain ⟨l', hl', hfollows⟩ := h₁.follows.exists_link hw
  cases hl.symm.trans hl'
  have hdead := h₁.alike n w l hw hl
  have henabled : (wired lib).enabled W₁ (.net (.deliver n)) := ⟨w, hw, fun hd => halive (hdead hd), hready⟩
  refine ⟨_, _, flatMap_shown_replicate rfl k (.deliver n), hrun.append (h₁.run_net henabled rfl),
    h₁.onLink hw hl (hfollows.deliver hlib hready).2 fun hd => ?_⟩
  obtain ⟨msg, rest, hready⟩ := List.exists_cons_of_ne_nil hready
  unfold WiredLink.deliver at hd
  rw [hready] at hd
  exact absurd (hdead hd) halive

/-- So does the coordinator. -/
theorem Carries.read (h : Carries lib N W) (hlib : lib.Faithful) (hacquainted : N.Acquainted)
    (hgreets : N.Greets (Message.Small lib)) {l : Link} (hl : N.link? n = some l) (hnext : l.up.inFlight ≠ []) :
    ∃ ops W', ops.flatMap WiredOp.shown = [.read n] ∧ (wired lib).Run (takes N (.read n)) W ops W' ∧
      Carries lib (N.read n) W' := by
  obtain ⟨k, W₁, hrun, h₁, w, hw, hready⟩ := h.exists_ready_up hlib hacquainted hgreets hl hnext (.read n)
  obtain ⟨l', hl', hfollows⟩ := h₁.follows.exists_link hw
  cases hl.symm.trans hl'
  refine ⟨_, _, flatMap_shown_replicate rfl k (.read n), hrun.append (h₁.run_net ⟨w, hw, hready⟩ rfl),
    (h₁.follows.read hlib hw hl hfollows hready).2, ?_⟩
  obtain ⟨msg, rest, hready⟩ := List.exists_cons_of_ne_nil hready
  obtain ⟨msg', rest', hnext⟩ := List.exists_cons_of_ne_nil hnext
  unfold WiredNetwork.read Network.read
  rw [hw, hl]
  dsimp only
  rw [hready, hnext]
  exact h₁.alike.setLink (h₁.alike n w l hw hl)

/-- The wire carries each step of the network, where the HELLOs of the nodes can be sent. -/
theorem Carries.step (h : Carries lib N W) (hlib : lib.Faithful) (hempty : lib.WritesEmpty)
    (hacquainted : N.Acquainted) (hgreets : N.Greets (Message.Sendable lib)) {op : NetworkOp}
    (henabled : network.enabled N op) (hok : network.step N op = .ok N') :
    ∃ ops W', ops.flatMap WiredOp.shown = [op] ∧ (wired lib).Run (takes N op) W ops W' ∧ Carries lib N' W' := by
  cases op with
  | own op =>
    obtain ⟨W', hok', hcarries⟩ := h.own hok
    have henabled' : (wired lib).enabled W (.net (.own op)) :=
      ⟨henabled.1, h.follows.coordinator.symm ▸ henabled.2⟩
    exact ⟨_, W', rfl, h.run_net henabled' hok', hcarries⟩
  | accept nodeSocket =>
    have haccepted : N.own (.accept nodeSocket) = .ok N' := hok
    obtain ⟨W', hok', hcarries⟩ := h.own haccepted
    have henabled' : (wired lib).enabled W (.net (.accept nodeSocket)) :=
      ⟨h.follows.coordinator.symm ▸ henabled.1, h.follows.connections.symm ▸ henabled.2⟩
    exact ⟨_, W', rfl, h.run_net henabled' hok', hcarries⟩
  | join protocolVersion config =>
    cases hok
    have henabled' : (wired lib).enabled W (.net (.join protocolVersion config)) := by
      show W.coordinator.enabled .insert
      rw [h.follows.coordinator]
      exact henabled
    exact ⟨_, _, rfl, h.run_net henabled' rfl, h.join protocolVersion config⟩
  | write n =>
    cases hok
    obtain ⟨W', hok', hcarries⟩ := h.write hempty hacquainted (n := n)
    have henabled' : (wired lib).enabled W (.net (.write n)) := by
      show ∃ node ∈ W.coordinator.node? n, node.messageQueue ≠ []
      rw [h.follows.coordinator]
      exact henabled
    exact ⟨_, W', rfl, h.run_net henabled' hok', hcarries⟩
  | deliver n =>
    cases hok
    obtain ⟨l, hl, halive, hnext⟩ := henabled
    exact h.deliver hlib hempty hl halive hnext
  | act n op =>
    cases hok
    obtain ⟨hown, l, hl, halive, hacts⟩ := henabled
    obtain ⟨w, hw, hfollows⟩ := h.follows.exists_wire hl
    have hdead := h.alike n w l hw hl
    have henabled' : (wired lib).enabled W (.net (.act n op)) :=
      ⟨hown, w, hw, fun hd => halive (hdead hd), hfollows.session.symm ▸ hacts⟩
    exact ⟨_, _, rfl, h.run_net henabled' rfl, h.onLink hw hl (hfollows.run op fun session hok =>
      (NodeProgram.Session.stepped hacts hok hown).written hown) (dead_run hfollows hdead op)⟩
  | send n =>
    cases hok
    obtain ⟨l, hl, halive, hqueue⟩ := henabled
    obtain ⟨w, hw, hfollows⟩ := h.follows.exists_wire hl
    have hdead := h.alike n w l hw hl
    have henabled' : (wired lib).enabled W (.net (.send n)) :=
      ⟨w, hw, fun hd => halive (hdead hd), hfollows.session.symm ▸ hqueue⟩
    exact ⟨_, _, rfl, h.run_net henabled' rfl, h.send hacquainted hgreets hl hqueue⟩
  | read n =>
    cases hok
    obtain ⟨l, hl, hnext⟩ := henabled
    exact h.read hlib hacquainted (fun m l hl => (hgreets m l hl).1) hl hnext
  | handle now =>
    obtain ⟨W', hok', hcarries⟩ := h.handle hok
    have henabled' : (wired lib).enabled W (.net (.handle now)) := by
      show W.inbox.inFlight ≠ []
      rw [h.follows.inbox]
      exact henabled
    exact ⟨_, W', rfl, h.run_net henabled' hok', hcarries⟩

/-! ## Runs -/

/-- The wire is where the network of messages is, and the HELLOs of its nodes can be sent. -/
structure Keeps (lib : BsonLibrary) (N : Network) (W : WiredNetwork) : Prop where
  carries : Carries lib N W
  acquainted : N.Acquainted
  greets : N.Greets (Message.Sendable lib)

theorem keeps_initial (lib : BsonLibrary) (config : CoordinatorConfig) :
    Keeps lib { coordinator := initial config } { coordinator := initial config } where
  carries := ⟨⟨rfl, rfl, rfl, fun _ => .none⟩, fun n w l hw => by cases hw⟩
  acquainted := Network.acquainted_initial config
  greets := Network.greets_initial _ config

/-- What happens in the network of messages can happen on the wire, by the same steps with those of the
readers in between.  The condition on the steps looks at the coordinator and its queue only. -/
theorem Keeps.carried (h : Keeps lib N W) (hlib : lib.Faithful) (hempty : lib.WritesEmpty)
    {Q : Network → NetworkOp → Prop}
    (hQ : ∀ V N op, V.coordinator = N.coordinator → V.inbox = N.inbox → Q N op → Q V op)
    (hgreets : ∀ N op, Q N op → N.startsGreeting (Message.Sendable lib) op) {ops : List NetworkOp}
    (hrun : network.Run Q N ops N') :
    ∃ ops' W', ops'.flatMap WiredOp.shown = ops ∧ (wired lib).Run (meets Q) W ops' W' ∧ Keeps lib N' W' := by
  refine hrun.carried (Q := meets Q) WiredOp.shown (fun N op N' W h henabled hop hok => ?_) h
  obtain ⟨ops, W', hops, hrun, hcarries⟩ := h.carries.step hlib hempty h.acquainted h.greets henabled hok
  have hstepped := Network.stepped henabled hok
  refine ⟨ops, W', hops, hrun.imp fun V op' htakes => ⟨htakes.1, fun shown hshown => ?_⟩, hcarries,
    h.acquainted.step hstepped, h.greets.step (hgreets N op hop) hstepped⟩
  obtain ⟨rfl, hsame, hinbox⟩ := htakes.2 shown hshown
  exact hQ V.view N shown hsame hinbox hop

theorem run_carried (hlib : lib.Faithful) (hempty : lib.WritesEmpty) {Q : Network → NetworkOp → Prop}
    (hQ : ∀ V N op, V.coordinator = N.coordinator → V.inbox = N.inbox → Q N op → Q V op)
    (hgreets : ∀ N op, Q N op → N.startsGreeting (Message.Sendable lib) op) {config : CoordinatorConfig}
    {ops : List NetworkOp} (hrun : network.Run Q { coordinator := initial config } ops N) :
    ∃ ops' W, ops'.flatMap WiredOp.shown = ops ∧
      (wired lib).Run (meets Q) { coordinator := initial config } ops' W ∧ Follows lib W N := by
  obtain ⟨ops', W, hops, hrun', h⟩ := (keeps_initial lib config).carried hlib hempty hQ hgreets hrun
  exact ⟨ops', W, hops, hrun', h.carries.follows⟩

/-- Where the HELLOs of the nodes can be sent, each step on the wire that can be seen is one of the network. -/
theorem Follows.run_shown (h : Follows lib W N) (hlib : lib.Faithful) (hacquainted : N.Acquainted)
    (hgreets : N.Greets (Message.Sendable lib)) {Q : Network → NetworkOp → Prop} {op : WiredOp}
    (henabled : (wired lib).enabled W op) (hwhole : op.writesWhole) (hop : ∀ op' ∈ op.shown, Q N op')
    (hok : (wired lib).step W op = .ok W') : ∃ N', network.Run Q N op.shown N' ∧ Follows lib W' N' := by
  cases h.step hlib hacquainted henabled hwhole hok with
  | inl hsame =>
    obtain ⟨hfollows, hcases⟩ := hsame
    cases hcases with
    | inl hnone => exact ⟨N, hnone ▸ .nil N, hfollows⟩
    | inr hfails =>
      obtain ⟨n, w, -, hw, msg, hmsg, hfails⟩ := hfails
      obtain ⟨l, hl, hprogram⟩ := h.exists_link hw
      have hqueued : msg ∈ l.session.node.sendMessageQueue :=
        hprogram.session ▸ List.mem_of_mem_head? hmsg
      obtain ⟨up, hup⟩ := exists_put hacquainted hgreets hl hqueued w.up
      exact absurd hup (hfails up)
  | inr hstep =>
    obtain ⟨op', N', rfl, henabled', hok', hfollows⟩ := hstep
    exact ⟨N', .cons henabled' (hop op' (List.mem_singleton_self op')) hok' (.nil N'), hfollows⟩

/-- So is each run, with all its steps that can be seen. -/
theorem Follows.run_matched (h : Follows lib W N) (hlib : lib.Faithful) (hacquainted : N.Acquainted)
    (hgreet : N.Greets (Message.Sendable lib)) {Q : Network → NetworkOp → Prop}
    (hQ : ∀ V N op, V.coordinator = N.coordinator → V.inbox = N.inbox → Q V op → Q N op)
    (hgreets : ∀ N op, Q N op → N.startsGreeting (Message.Sendable lib) op) {ops : List WiredOp}
    (hrun : (wired lib).Run (meets Q) W ops W') :
    ∃ N', network.Run Q N (ops.flatMap WiredOp.shown) N' ∧
      Follows lib W' N' ∧ N'.Acquainted ∧ N'.Greets (Message.Sendable lib) := by
  refine hrun.matched (R := fun W N => Follows lib W N ∧ N.Acquainted ∧ N.Greets (Message.Sendable lib))
    WiredOp.shown (fun W op W' N h henabled hop hok => ?_) ⟨h, hacquainted, hgreet⟩
  obtain ⟨hfollows, hacquainted, hgreet⟩ := h
  obtain ⟨N', hrun, hfollows'⟩ := hfollows.run_shown hlib hacquainted hgreet henabled hop.1
    (fun op' hop' => hQ W.view N op' hfollows.coordinator hfollows.inbox (hop.2 op' hop')) hok
  refine ⟨N', hrun, hfollows', ?_, ?_⟩
  · exact hrun.invariant (fun _ _ _ h henabled _ hok => h.step (Network.stepped henabled hok)) hacquainted
  · exact hrun.invariant
      (fun N op _ h henabled hop hok => h.step (hgreets N op hop) (Network.stepped henabled hok)) hgreet

/-- With nodes whose HELLOs can be sent, and with each message of a node taken by one `write`, the runs on the
wire are those of the network of messages. -/
theorem wired_runs_agree (hlib : lib.Faithful) (hempty : lib.WritesEmpty) (config : CoordinatorConfig) :
    (∀ ops W, (wired lib).Run (meets (Network.startsGreeting (Message.Sendable lib)))
        { coordinator := initial config } ops W →
      ∃ N, network.Run (Network.startsGreeting (Message.Sendable lib)) { coordinator := initial config }
        (ops.flatMap WiredOp.shown) N ∧ Follows lib W N) ∧
    ∀ ops N, network.Run (Network.startsGreeting (Message.Sendable lib)) { coordinator := initial config } ops N →
      ∃ ops' W, ops'.flatMap WiredOp.shown = ops ∧
        (wired lib).Run (meets (Network.startsGreeting (Message.Sendable lib)))
          { coordinator := initial config } ops' W ∧ Follows lib W N := by
  constructor
  · intro ops W hrun
    have hstart := keeps_initial lib config
    obtain ⟨N, hrun', hfollows, -⟩ := hstart.carries.follows.run_matched hlib hstart.acquainted hstart.greets
      (fun _ _ _ _ _ hop => hop.imp fun _ => id) (fun _ _ hop => hop) hrun
    exact ⟨N, hrun', hfollows⟩
  · intro ops N hrun
    exact run_carried hlib hempty (fun _ _ _ _ _ hop => hop.imp fun _ => id) (fun _ _ hop => hop) hrun

/-! ## Runs that can be evaluated -/

theorem soloLibrary_writesEmpty : soloLibrary.WritesEmpty := ⟨emptyBson, rfl, by decide⟩

theorem soloNode_sendable : Message.Sendable soloLibrary (NodeProgram.start 1 NodeProgram.soloNode).hello := by
  have hserialize : (NodeProgram.start 1 NodeProgram.soloNode).hello.serialize soloLibrary = _ := serialize_soloHello
  refine ⟨?_, _, hserialize⟩
  unfold Message.Small
  rw [Message.serialized_of_serialize hserialize]
  decide +kernel

/-- All programs that are started, `k` of them, are of one kind. -/
theorem run_solo {Q : Network → NetworkOp → Prop} {ops : List NetworkOp} (k : Nat)
    (hstarts : ops.filterMap NetworkOp.started = List.replicate k (1, NodeProgram.soloNode))
    (hrun : network.Run Q N ops N') :
    network.Run (fun N op => Q N op ∧ N.startsGreeting (Message.Sendable soloLibrary) op) N ops N' := by
  refine hrun.imp_mem fun op hop N hQ => ⟨hQ, ?_⟩
  cases op with
  | join protocolVersion config =>
    have hstarted : (protocolVersion, config) ∈ ops.filterMap NetworkOp.started :=
      List.mem_filterMap.mpr ⟨_, hop, rfl⟩
    rw [hstarts] at hstarted
    cases List.eq_of_mem_replicate hstarted
    exact soloNode_sendable
  | _ => trivial

theorem run_carried_solo {Q : Network → NetworkOp → Prop} [∀ N op, Decidable (Q N op)]
    (hQ : ∀ V N op, V.coordinator = N.coordinator → V.inbox = N.inbox → Q N op → Q V op) (ops : List NetworkOp)
    (k : Nat) (hstarts : ops.filterMap NetworkOp.started = List.replicate k (1, NodeProgram.soloNode))
    (hexec : (network.exec Q { coordinator := initial soloConfig } ops).isSome) :
    ∃ ops' W, ops'.flatMap WiredOp.shown = ops ∧
      (wired soloLibrary).Run (meets fun N op => Q N op ∧ N.startsGreeting (Message.Sendable soloLibrary) op)
        { coordinator := initial soloConfig } ops' W ∧ Keeps soloLibrary (Network.after soloConfig ops) W :=
  (keeps_initial soloLibrary soloConfig).carried soloLibrary_faithful soloLibrary_writesEmpty
    (fun V N op hsame hinbox hop => ⟨hQ V N op hsame hinbox hop.1, hop.2.imp fun _ => id⟩)
    (fun _ _ hop => hop.2) (run_solo k hstarts (Network.run_after hexec))

/-- A node connects, says HELLO and is accepted, on the wire. -/
theorem wired_runs_agree_greeting : ∃ ops W N, ops.flatMap WiredOp.shown = Network.greeting ∧
    (wired soloLibrary).Run (meets (Network.startsGreeting (Message.Sendable soloLibrary)))
      { coordinator := initial soloConfig } ops W ∧
    network.Run (Network.startsGreeting (Message.Sendable soloLibrary)) { coordinator := initial soloConfig }
      (ops.flatMap WiredOp.shown) N ∧ Follows soloLibrary W N := by
  obtain ⟨hfollowed, hcarried⟩ := wired_runs_agree soloLibrary_faithful soloLibrary_writesEmpty soloConfig
  have hgreeting : network.FreeRun { coordinator := initial soloConfig } Network.greeting
      (Network.after soloConfig Network.greeting) := Network.run_after (by decide +kernel)
  obtain ⟨ops, W, hops, hrun, -⟩ := hcarried Network.greeting _ ((run_solo 1 rfl hgreeting).imp fun _ _ hop => hop.2)
  obtain ⟨N, hrun', hfollows⟩ := hfollowed ops W hrun
  exact ⟨ops, W, N, hops, hrun, hrun', hfollows⟩

/-- What happens on the wire, with the bytes in any pieces and each message of a node taken by one `write`,
happens in the network of messages, as long as no factory of the coordinator throws. -/
theorem wired_run_followed (hlib : lib.Faithful) {config : CoordinatorConfig} {ops : List WiredOp}
    (hrun : (wired lib).Run (fun _ op => op.writesWhole) { coordinator := initial config } ops W) :
    ∃ ops' N, ops'.Sublist (ops.flatMap WiredOp.shown) ∧
      network.FreeRun { coordinator := initial config } ops' N ∧ Follows lib W N := by
  obtain ⟨ops', N, hops, hrun', hfollows, -⟩ := run_followed hlib (Q := fun _ _ => True)
    (fun _ _ _ _ _ _ => trivial) (hrun.imp fun _ _ => meets_of_writesWhole)
  exact ⟨ops', N, hops, hrun', hfollows⟩

theorem wired_run_followed_greeting : ∃ (ops : List WiredOp) (W : WiredNetwork),
    ops.flatMap WiredOp.shown = Network.greeting ∧
    ∃ ops' N, ops'.Sublist (ops.flatMap WiredOp.shown) ∧
      network.FreeRun { coordinator := initial soloConfig } ops' N ∧ Follows soloLibrary W N := by
  obtain ⟨ops, W, hops, hrun, -⟩ := run_carried_solo (Q := fun _ _ => True) (fun _ _ _ _ _ => id) Network.greeting 1
    rfl (by decide +kernel)
  exact ⟨ops, W, hops, wired_run_followed soloLibrary_faithful (hrun.imp fun _ _ hop => hop.1)⟩

end WiredNetwork

end Bem
