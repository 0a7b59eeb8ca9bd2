import Bem.Network.Carrying
import Bem.Network.Programs

/-!
# What brings the programs down, with the bytes

As long as each node's `write` takes its message in full, no reader and no writer of the coordinator throws.
A program of a node can fall where it writes its HELLO or reads the reply, besides where it takes a null
pointer for that reply.
-/

namespace Bem

namespace WiredNetwork

variable {lib : BsonLibrary} {W W' : WiredNetwork} {N : Network} {n : NodeId}

/-! ## The coordinator -/

/-- What brings the coordinator down. -/
def strands (W : WiredNetwork) (op : WiredOp) : Prop := ∃ op' ∈ op.shown, W.view.strands op'

theorem Follows.strands_iff (h : Follows lib W N) (op : NetworkOp) : W.strands (.net op) ↔ N.strands op := by
  have hview : W.strands (.net op) ↔ W.view.strands op := by
    unfold strands WiredOp.shown
    simp only [List.mem_singleton, exists_eq_left]
  rw [hview]
  cases op with
  | own op =>
    cases op with
    | assign =>
      show (∃ selection ∈ W.coordinator.selection, _) ↔ _
      unfold view Network.strands
      rw [h.coordinator]
    | _ => rfl
  | handle now =>
    show W.view.tellsNothingRuns ↔ N.tellsNothingRuns
    unfold view Network.tellsNothingRuns
    rw [h.coordinator, h.inbox]
  | _ => rfl

theorem not_strands_of_shown {op : WiredOp} (h : op.shown = []) : ¬ W.strands op := by
  intro hstrands
  obtain ⟨op', hop', -⟩ := hstrands
  rw [h] at hop'
  exact absurd hop' List.not_mem_nil

theorem Follows.own_error_iff (h : Follows lib W N) (op : Op) :
    (∃ e, W.own op = .error e) ↔ ∃ e, N.own op = .error e := by
  unfold WiredNetwork.own Network.own
  rw [h.coordinator]
  cases N.coordinator.step op with
  | ok s => exact iff_of_false Except.not_error_ok Except.not_error_ok
  | error e => exact iff_of_true ⟨e, rfl⟩ ⟨e, rfl⟩

theorem Follows.handle_error_iff (h : Follows lib W N) (now : TimePoint) :
    (∃ e, W.handle now = .error e) ↔ ∃ e, N.handle now = .error e := by
  unfold WiredNetwork.handle Network.handle
  rw [h.inbox]
  cases N.inbox.inFlight with
  | nil => exact iff_of_false Except.not_error_ok Except.not_error_ok
  | cons e rest =>
    dsimp only
    cases Network.handlerSection now e with
    | none => exact iff_of_true ⟨_, rfl⟩ ⟨_, rfl⟩
    | some op =>
      have hpopped : Follows lib { W with inbox := N.inbox.next } { N with inbox := N.inbox.next } :=
        ⟨h.coordinator, h.connections, rfl, h.links⟩
      exact hpopped.own_error_iff op

/-- In every run on the wire, with the bytes of the nodes' programs in any pieces and each of their messages
taken by one `write`, a step brings the coordinator down exactly if it would in the network of messages: no
reader and no writer does. -/
theorem wired_coordinator_falls_iff (hlib : lib.Faithful) (hempty : lib.WritesEmpty)
    {config : CoordinatorConfig} {ops : List WiredOp}
    (hrun : (wired lib).Run (meets (Network.startsGreeting (Message.Small lib)))
      { coordinator := initial config } ops W) {op : WiredOp} (henabled : (wired lib).enabled W op) :
    (∃ e, (wired lib).step W op = .error e) ↔ W.strands op := by
  obtain ⟨ops', N, -, hrun', hfollows, hacquainted⟩ :=
    run_followed hlib (fun V N op _ _ hop => hop.imp fun _ => id) hrun
  have hgreets := Network.greets_run hrun'
  have hgoesOn {W' : Except Fault WiredNetwork} (hok : ∃ W'', W' = .ok W'') (hstrands : ¬ W.strands op) :
      (∃ e, W' = .error e) ↔ W.strands op := by
    obtain ⟨W'', rfl⟩ := hok
    exact iff_of_false Except.not_error_ok hstrands
  cases op with
  | net op =>
    cases op with
    | own op =>
      have henabled' : network.enabled N (.own op) := ⟨henabled.1, hfollows.coordinator ▸ henabled.2⟩
      rw [hfollows.strands_iff, ← hacquainted.mannered.heard.step_error_iff henabled']
      exact hfollows.own_error_iff op
    | handle now =>
      have hnext : W.inbox.inFlight ≠ [] := henabled
      rw [hfollows.inbox] at hnext
      have henabled' : network.enabled N (.handle now) := hnext
      rw [hfollows.strands_iff, ← hacquainted.mannered.heard.step_error_iff henabled']
      exact hfollows.handle_error_iff now
    | write n => exact hgoesOn (hfollows.exists_write hempty hacquainted) ((hfollows.strands_iff _).not.mpr id)
    | _ => exact hgoesOn ⟨_, rfl⟩ ((hfollows.strands_iff _).not.mpr id)
  | cut n ret => exact hgoesOn ⟨_, rfl⟩ (not_strands_of_shown rfl)
  | fillNode n len => exact hgoesOn ⟨_, rfl⟩ (not_strands_of_shown rfl)
  | fillCoordinator n len =>
    obtain ⟨w, hw, hcan⟩ := henabled
    obtain ⟨up, hup⟩ := hfollows.exists_fill hlib hacquainted hgreets hw hcan
    refine hgoesOn ⟨W.setLink n { w with up }, ?_⟩ (not_strands_of_shown rfl)
    show W.fillCoordinator lib n len = _
    unfold fillCoordinator
    rw [show W.link? n = some w from hw]
    exact Except.bind_eq_ok.mpr ⟨up, hup, rfl⟩

/-- The node is asked while its executor has taken a task and not yet stored its id. -/
def torn : List NetworkOp :=
  Network.greeting ++ Network.commanding ++
    ([.instruct, .instruct, .instruct, .execute, .execute] : List NodeProgram.Op).map (.act 1) ++
    [.own (.maintain fun _ => 1), .write 1, .deliver 1] ++
    ([.instruct, .instruct, .instruct, .execute, .instruct, .instruct] : List NodeProgram.Op).map
      (.act 1) ++ [.send 1, .read 1]

theorem wired_coordinator_falls_torn : ∃ (ops : List WiredOp) (W : WiredNetwork), ops.flatMap WiredOp.shown = torn ∧
    ∃ e, (wired soloLibrary).step W (.net (.handle 3)) = .error e := by
  obtain ⟨ops, W, hops, hrun, hkeeps⟩ := run_carried_solo (Q := fun _ _ => True) (fun _ _ _ _ _ => id) torn 1
    rfl (by decide +kernel)
  have hfollows := hkeeps.carries.follows
  have hrun' := hrun.imp (Q := meets (Network.startsGreeting (Message.Small soloLibrary)))
    fun _ _ hop => hop.imp fun _ h => h.2.imp fun _ hm => hm.1
  have hnext : (wired soloLibrary).enabled W (.net (.handle 3)) := by
    show W.inbox.inFlight ≠ []
    rw [hfollows.inbox]
    decide +kernel
  refine ⟨ops, W, hops,
    (wired_coordinator_falls_iff soloLibrary_faithful soloLibrary_writesEmpty hrun' hnext).mpr ?_⟩
  rw [hfollows.strands_iff]
  refine ⟨1, by decide +kernel, by decide +kernel, ?_⟩
  decide +kernel

end WiredNetwork

/-! ## The programs of the nodes -/

/-- A step of the coordinator, or of a thread of it that reads or writes. -/
def WiredOp.isCoordinators : WiredOp → Bool
  | .net (.deliver _) | .net (.act _ _) | .net (.send _) | .cut _ _ | .fillNode _ _ => false
  | _ => true

namespace WiredLink

variable {lib : BsonLibrary} {w : WiredLink} {l : Link} {msg : Message} {rest : List Message}

/-- The next message of the program is its HELLO, and cannot be serialized. -/
def cannotGreet (lib : BsonLibrary) (w : WiredLink) : Prop :=
  w.session.node.sendMessageQueue.head? = some w.session.hello ∧ ∀ b, w.session.hello.serialize lib ≠ .ok b

/-- All other messages of a program can be serialized. -/
theorem cannotGreet_iff (hqueue : w.session.node.sendMessageQueue = msg :: rest)
    (hmsg : msg.IsFixed ∨ msg = w.session.hello) : w.cannotGreet lib ↔ ∀ b, msg.serialize lib ≠ .ok b := by
  unfold cannotGreet
  rw [hqueue, List.head?_cons]
  cases hmsg with
  | inl hfixed =>
    refine iff_of_false (fun hgreets => ?_) fun hnone => ?_
    · rw [Option.some.inj hgreets.1] at hfixed
      exact hfixed
    · obtain ⟨b, hb⟩ : ∃ b, msg.serialize lib = .ok b := hfixed.serialize
      exact hnone b hb
  | inr hhello =>
    subst hhello
    exact and_iff_right rfl

theorem dead_run_iff (halive : w.dead = false) (op : NodeProgram.Op) :
    (w.run op).dead = true ↔ ∃ e, w.session.step op = .error e := by
  unfold run
  cases hstep : w.session.step op with
  | ok session => simp [halive]
  | error e => simp

theorem dead_deliver (w : WiredLink) : w.deliver.dead = w.dead := by
  unfold deliver
  split <;> rfl

/-- `write` puts nothing on the connection that has not been serialized. -/
theorem dead_send_iff (halive : w.dead = false) (hqueue : w.session.node.sendMessageQueue = msg :: rest) :
    (w.send lib).dead = true ↔ ∀ b, msg.serialize lib ≠ .ok b := by
  unfold send
  rw [hqueue]
  dsimp only
  cases hmbuf : msg.serialize lib with
  | ok mbuf =>
    have hput : w.up.put lib msg = .ok _ := Except.bind_eq_ok.mpr ⟨mbuf, hmbuf, rfl⟩
    have hgoesOn : (w.run .write).dead = false := halive
    rw [hput]
    exact iff_of_false (by simpa using hgoesOn) fun hnone => hnone mbuf rfl
  | error e =>
    have hput : w.up.put lib msg = .error e := by
      unfold Wire.put
      rw [hmbuf]
      rfl
    rw [hput]
    exact iff_of_true rfl fun b hb => by cases hb

theorem dead_cut_iff (halive : w.dead = false) (hqueue : w.session.node.sendMessageQueue = msg :: rest) (ret : Int) :
    (w.cut lib ret).dead = true ↔ ∀ b, msg.serialize lib ≠ .ok b := by
  unfold cut
  rw [hqueue]
  dsimp only
  cases hmbuf : msg.serialize lib with
  | error e => exact iff_of_true rfl fun b hb => by cases hb
  | ok mbuf =>
    refine iff_of_false ?_ fun hnone => hnone mbuf rfl
    obtain ⟨b, hwrites⟩ := ByteBuffer.writeOut_fresh mbuf.internal ret
    rw [← Message.serialized_of_serialize hmbuf, ← Message.serialize_eq_reading hmbuf] at hwrites
    dsimp only
    split
    · have hquits : ((w.run .write).run .quit).dead = false := halive
      simpa using hquits
    · rw [hwrites]
      have hgoesOn : (w.run .write).dead = false := halive
      simpa using hgoesOn

theorem dead_fill_iff (halive : w.dead = false) (len : Nat) :
    (w.fill lib len).dead = true ↔ ¬ ∃ down, w.down.fill lib len = .ok down := by
  unfold fill
  cases hfill : w.down.fill lib len with
  | ok down => simp [halive]
  | error e => simp

end WiredLink

namespace WiredNetwork

variable {lib : BsonLibrary} {W W' : WiredNetwork} {N : Network} {n : NodeId} {w : WiredLink}

/-- The program of the node has ended with a fault. -/
def isDown (W : WiredNetwork) (n : NodeId) : Prop := ∃ w ∈ W.link? n, w.dead = true

/-- What brings the program of a node down. -/
def topples (lib : BsonLibrary) (n : NodeId) (W : WiredNetwork) : WiredOp → Prop
  | .net (.act nodeId op) => nodeId = n ∧ ∃ w ∈ W.link? n, w.session.quitsUnregistered op
  | .net (.send nodeId) | .cut nodeId _ => nodeId = n ∧ ∃ w ∈ W.link? n, w.cannotGreet lib
  | .fillNode nodeId len => nodeId = n ∧ ∃ w ∈ W.link? n, w.down.overruns lib len
  | _ => False

theorem isDown_setLink_iff (hlink : W.link? n = some w) (halive : w.dead = false) (m : NodeId) (v : WiredLink) :
    (W.setLink m v).isDown n ↔ m = n ∧ v.dead = true := by
  unfold isDown
  rw [link?_setLink]
  by_cases hm : n = m
  · rw [if_pos hm]
    simp [hm]
  · rw [if_neg hm, hlink]
    simp [halive, Ne.symm hm]

/-- At the other nodes nothing happens. -/
theorem isDown_onLink_iff (hlink : W.link? n = some w) (halive : w.dead = false) (m : NodeId)
    (f : WiredLink → WiredLink) : (W.onLink m f).isDown n ↔ m = n ∧ (f w).dead = true := by
  unfold onLink
  cases hm : W.link? m with
  | none =>
    have hne : m ≠ n := fun heq => by
      rw [heq, hlink] at hm
      cases hm
    have halive' : ¬ W.isDown n := fun hdown => by
      obtain ⟨w', hw', hdead⟩ := hdown
      cases hlink.symm.trans hw'
      cases halive.symm.trans hdead
    exact iff_of_false halive' fun h => hne h.1
  | some v =>
    rw [isDown_setLink_iff hlink halive]
    refine and_congr_right fun heq => ?_
    subst heq
    cases hlink.symm.trans hm
    rfl

/-- What happens at a connection matters if it is the one of the program. -/
theorem isDown_onLink_iff_of (hlink : W.link? n = some w) (halive : w.dead = false) {m : NodeId}
    {f : WiredLink → WiredLink} {p : WiredLink → Prop} (hiff : m = n → ((f w).dead = true ↔ p w)) :
    (W.onLink m f).isDown n ↔ m = n ∧ ∃ v ∈ W.link? n, p v := by
  rw [isDown_onLink_iff hlink halive, hlink]
  simpa using hiff

/-- The next message of a program is its HELLO, or one that can be serialized. -/
theorem Follows.exists_next (h : Follows lib W N) (hacquainted : N.Acquainted) (hlink : W.link? n = some w)
    (hqueue : w.session.node.sendMessageQueue ≠ []) : ∃ msg rest,
      w.session.node.sendMessageQueue = msg :: rest ∧ (msg.IsFixed ∨ msg = w.session.hello) := by
  obtain ⟨l, hl, hprogram⟩ := h.exists_link hlink
  obtain ⟨msg, rest, hqueue⟩ := List.exists_cons_of_ne_nil hqueue
  refine ⟨msg, rest, hqueue, ?_⟩
  rw [hprogram.session] at hqueue ⊢
  exact hacquainted.written_cases hl (List.mem_append_right _ (by rw [hqueue]; exact List.mem_cons_self))

/-- A step at a connection that does not concern the program. -/
theorem not_isDown_setLink (hlink : W.link? n = some w) (halive : w.dead = false) {m : NodeId} {v v' : WiredLink}
    (hm : W.link? m = some v) (hsame : v'.dead = v.dead) : ¬ (W.setLink m v').isDown n := by
  rw [isDown_setLink_iff hlink halive]
  intro h
  obtain ⟨rfl, hdead⟩ := h
  cases hlink.symm.trans hm
  cases halive.symm.trans (hsame.symm.trans hdead)

theorem links_own {op : Op} (hok : W.own op = .ok W') : W'.links = W.links := by
  unfold own at hok
  cases hstep : W.coordinator.step op with
  | error e =>
    rw [hstep] at hok
    cases hok
  | ok s =>
    rw [hstep] at hok
    cases hok
    rfl

theorem links_handle {now : TimePoint} (hok : W.handle now = .ok W') : W'.links = W.links := by
  unfold handle at hok
  split at hok
  · cases hok
    rfl
  · split at hok
    · cases hok
    · have hsame := links_own hok
      exact hsame

/-- It brings no program down. -/
theorem not_isDown_of_isCoordinators (hlink : W.link? n = some w) (halive : w.dead = false) {op : WiredOp}
    (hop : op.isCoordinators) (hok : (wired lib).step W op = .ok W') : ¬ W'.isDown n := by
  have hup : ¬ W.isDown n := fun hdown => by
    obtain ⟨w', hw', hdead⟩ := hdown
    cases hlink.symm.trans hw'
    cases halive.symm.trans hdead
  have hkept (hlinks : W'.links = W.links) : ¬ W'.isDown n := by
    unfold isDown link?
    rw [hlinks]
    exact hup
  cases op with
  | cut m ret => cases hop
  | fillNode m len => cases hop
  | fillCoordinator m len =>
    change W.fillCoordinator lib m len = .ok W' at hok
    unfold fillCoordinator at hok
    cases hm : W.link? m with
    | none =>
      rw [hm] at hok
      cases hok
      exact hup
    | some v =>
      rw [hm] at hok
      obtain ⟨up, -, hok⟩ := Except.bind_eq_ok.mp hok
      cases hok
      exact not_isDown_setLink hlink halive hm rfl
  | net op =>
    cases op with
    | own op => exact hkept (links_own hok)
    | accept nodeSocket =>
      have haccepted : W.own (.accept nodeSocket) = .ok W' := hok
      exact hkept (links_own haccepted)
    | handle now => exact hkept (links_handle hok)
    | join protocolVersion config =>
      cases hok
      unfold join
      split
      · exact hup
      · show ¬ (W.setLink _ _).isDown n
        rw [isDown_setLink_iff hlink halive]
        exact fun h => Bool.noConfusion h.2
    | write m =>
      change W.write lib m = .ok W' at hok
      unfold write at hok
      split at hok
      next node v hnode hm =>
        split at hok
        · cases hok
          exact hup
        · obtain ⟨down, -, hok⟩ := Except.bind_eq_ok.mp hok
          cases hok
          exact not_isDown_setLink hlink halive hm rfl
      next =>
        cases hok
        exact hup
    | read m =>
      cases hok
      unfold read
      cases hm : W.link? m with
      | none => exact hup
      | some v =>
        dsimp only
        split
        · exact hup
        · exact not_isDown_setLink hlink halive hm rfl
    | _ => cases hop

/-- In every run on the wire with nodes that have read their games from documents and whose messages are
taken by one `write` each, a step brings the program of a node down exactly in three cases.  It has quit and
waits for the reply to its HELLO; it cannot serialize its HELLO; or it reads on behind the end of that
reply. -/
theorem wired_program_falls_iff (hlib : lib.Faithful) (hempty : lib.WritesEmpty) {config : CoordinatorConfig}
    {ops : List WiredOp}
    (hrun : (wired lib).Run (meets Network.loadsGames) { coordinator := initial config } ops W)
    (hlink : W.link? n = some w) (halive : w.dead = false) {op : WiredOp}
    (henabled : (wired lib).enabled W op) (hok : (wired lib).step W op = .ok W') :
    W'.isDown n ↔ W.topples lib n op := by
  obtain ⟨ops', N, -, hrun', hfollows, hacquainted⟩ :=
    run_followed hlib (fun V N op _ _ hop => by cases op <;> exact hop) hrun
  have hsupplied := Network.supplied_run hrun'
  obtain ⟨l, hl, hprogram⟩ := hfollows.exists_link hlink
  by_cases hop : op.isCoordinators
  · refine iff_of_false (not_isDown_of_isCoordinators hlink halive hop hok) ?_
    unfold topples
    split
    all_goals first | cases hop | exact id
  cases op with
  | fillCoordinator m len => exact absurd rfl hop
  | cut m ret =>
    cases hok
    obtain ⟨v, hv, -, hcan⟩ := henabled
    refine isDown_onLink_iff_of hlink halive fun hm => ?_
    subst hm
    cases hlink.symm.trans hv
    obtain ⟨msg, rest, hqueue, hmsg⟩ :=
      hfollows.exists_next hacquainted hlink (WiredLink.ne_nil_of_canCut hcan)
    rw [WiredLink.dead_cut_iff halive hqueue, WiredLink.cannotGreet_iff hqueue hmsg]
  | fillNode m len =>
    cases hok
    obtain ⟨v, hv, -, hcan⟩ := henabled
    refine isDown_onLink_iff_of hlink halive fun hm => ?_
    subst hm
    cases hlink.symm.trans hv
    rw [WiredLink.dead_fill_iff halive, hprogram.down.fill_ok_iff hlib hcan (hfollows.small_down hempty hlink),
      not_not]
  | net op =>
    cases op with
    | act m op =>
      cases hok
      refine isDown_onLink_iff_of hlink halive fun _ => ?_
      rw [WiredLink.dead_run_iff halive, hprogram.session]
      exact hsupplied.falls_iff hl op
    | send m =>
      cases hok
      obtain ⟨v, hv, -, hqueue⟩ := henabled
      refine isDown_onLink_iff_of hlink halive fun hm => ?_
      subst hm
      cases hlink.symm.trans hv
      obtain ⟨msg, rest, hqueue, hmsg⟩ := hfollows.exists_next hacquainted hlink hqueue
      rw [WiredLink.dead_send_iff halive hqueue, WiredLink.cannotGreet_iff hqueue hmsg]
    | deliver m =>
      cases hok
      rw [isDown_onLink_iff hlink halive, WiredLink.dead_deliver, halive]
      exact iff_of_false (fun h => Bool.noConfusion h.2) id
    | _ => exact absurd rfl hop

/-- A game with an id that BSON has no number for. -/
def hugeNode : NodeConfig :=
  { NodeProgram.soloNode with
    gamelist := { games := AList.singleton (2 ^ 63) { gameId := 2 ^ 63, name := "", dirname := "", agents := ∅ } } }

/-- The node connects, and its HELLO is to be sent. -/
def calling : List WiredOp := [.net (.accept 5), .net (.join 1 hugeNode), .net (.act 1 .instruct)]

def called : WiredNetwork := (wired soloLibrary).after { coordinator := initial soloConfig } calling

theorem run_calling :
    (wired soloLibrary).Run (meets Network.loadsGames) { coordinator := initial soloConfig } calling called := by
  have hfree : (wired soloLibrary).FreeRun { coordinator := initial soloConfig } calling called :=
    Machine.run_after (by decide +kernel)
  refine hfree.imp_mem fun op hop W _ => ?_
  have hloads : ∃ document, GameList.fromJson {} document = .ok hugeNode.gamelist :=
    ⟨hugeNode.gamelist.toJson, by rw [GameList.fromJson_toJson]; rfl⟩
  have hmeets : ∀ op ∈ calling, op.writesWhole ∧ ∀ op' ∈ op.shown, Network.loadsGames W.view op' := by
    simpa [calling, WiredOp.writesWhole, WiredOp.shown, Network.loadsGames] using hloads
  exact hmeets op hop

theorem wired_program_falls_calling :
    ∃ W', (wired soloLibrary).step called (.net (.send 1)) = .ok W' ∧ W'.isDown 1 := by
  have hlinked : (called.link? 1).isSome := by decide +kernel
  obtain ⟨w, hlink⟩ := Option.isSome_iff_exists.mp hlinked
  have halive : ∀ w ∈ called.link? 1, w.dead = false := by decide +kernel
  have hfails : ∀ w ∈ called.link? 1, (w.session.hello.serialize soloLibrary).isOk = false := by decide +kernel
  have hsays : (called.link? 1).map (fun w => w.session.node.sendMessageQueue.head?) =
      (called.link? 1).map fun w => some w.session.hello := rfl
  rw [hlink] at hsays
  have henabled : (wired soloLibrary).enabled called (.net (.send 1)) := by decide +kernel
  refine ⟨_, rfl, (wired_program_falls_iff soloLibrary_faithful soloLibrary_writesEmpty run_calling hlink
    (halive w hlink) henabled rfl).mpr ⟨rfl, w, hlink, Option.some.inj hsays, fun b hb => ?_⟩⟩
  have hnot := hfails w hlink
  rw [hb] at hnot
  cases hnot

end WiredNetwork

end Bem
