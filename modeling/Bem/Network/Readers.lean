import Bem.Network.Wired

/-!
# The readers of the coordinator

A program says HELLO, and nothing more until the coordinator has handled it.  So the HELLO is read up to
its end before there is a byte behind it, and no reader of the coordinator throws.
-/

namespace Bem

/-- The library has bytes for a game list with no game, and a reader has room for them. -/
def BsonLibrary.WritesEmpty (lib : BsonLibrary) : Prop :=
  ∃ bytes, lib.to_bson (HelloMessage.document {}) = some bytes ∧
    headerSize + (bytes.length + 2) + readSize < 2 ^ 31

namespace Message

variable {lib : BsonLibrary}

theorem IsFixed.small {m : Message} (h : m.IsFixed) : m.Small lib := by
  obtain ⟨b, hb⟩ : ∃ b, m.serialize lib = .ok b := h.serialize
  have hle := h.length_serialize_le hb
  rw [Small, serialized_of_serialize hb]
  change b.internal.length ≤ _ at hle
  unfold readSize
  omega

/-- The reply names no game. -/
theorem serialize_reply (h : lib.WritesEmpty) (config : CoordinatorConfig) (msg : HelloMessage) :
    (State.helloReply config msg).Small lib ∧ ∃ b, (State.helloReply config msg).serialize lib = .ok b := by
  obtain ⟨bytes, hbytes, hlen⟩ := h
  have hserialize (m : HelloMessage) (hm : m.gamelist = {}) : (hello m).serialize lib =
      .ok (ByteBuffer.reading [] (frameBytes .hello (m.protoVer :: m.flag :: bytes))) := by
    refine serialize_hello (m := m) ?_ (by simp only [List.length_cons]; omega)
    rw [← hbytes]
    unfold HelloMessage.document
    rw [hm]
  have hreply := hserialize { protoVer := config.protocolVersion, gamelist := {}, flag := if
    msg.protoVer ≠ config.protocolVersion then HelloMessage.flagReject else HelloMessage.flagAccept } rfl
  refine ⟨?_, _, hreply⟩
  unfold Small
  rw [State.helloReply, serialized_of_serialize hreply]
  show (frameBytes _ _).length + readSize < 2 ^ 31
  simp only [length_frameBytes, List.length_cons]
  omega

end Message

namespace WiredNetwork

variable {lib : BsonLibrary} {W W' : WiredNetwork} {N : Network} {n : NodeId}

/-- What a node has written is short, if its HELLO is. -/
theorem Follows.small_up (h : Follows lib W N) (hacquainted : N.Acquainted) (hgreets : N.Greets (Message.Small lib))
    {w : WiredLink} (hlink : W.link? n = some w) : ∀ m ∈ w.up.written, m.Small lib := by
  intro m hm
  obtain ⟨l, hl, hfollows⟩ := h.exists_link hlink
  rw [hfollows.said] at hm
  cases hacquainted.written_cases hl (List.mem_append_left _ hm) with
  | inl hfixed => exact hfixed.small
  | inr hhello =>
    rw [hhello]
    exact hgreets n l hl

/-- The reader of a node's connection does not throw. -/
theorem Follows.exists_fill (hlib : lib.Faithful) (h : Follows lib W N) (hacquainted : N.Acquainted)
    (hgreets : N.Greets (Message.Small lib)) {w : WiredLink} (hlink : W.link? n = some w) {len : Nat}
    (hcan : w.up.canFill len) : ∃ up, w.up.fill lib len = .ok up := by
  obtain ⟨l, hl, hfollows⟩ := h.exists_link hlink
  exact hfollows.up.exists_fill hlib hcan (h.small_up hacquainted hgreets hlink)
    (fun pre m post hsent hhello => hacquainted.opening hl hsent hhello) (hacquainted.received_ne_nil hl)

/-- The writer of a node's connection can serialize what is in the queue. -/
theorem Follows.exists_write (hempty : lib.WritesEmpty) (h : Follows lib W N) (hacquainted : N.Acquainted) :
    ∃ W', W.write lib n = .ok W' := by
  unfold WiredNetwork.write
  rw [h.coordinator]
  cases hnode : N.coordinator.node? n with
  | none => exact ⟨W, rfl⟩
  | some node =>
    cases W.link? n with
    | none => exact ⟨W, rfl⟩
    | some w =>
      dsimp only
      cases hqueue : node.messageQueue with
      | nil => exact ⟨W, rfl⟩
      | cons msg rest =>
        have hmsg : msg ∈ node.history := List.mem_append_right _ (by rw [hqueue]; exact List.mem_cons_self)
        have hserialize : ∃ b, msg.serialize lib = .ok b := by
          cases hacquainted.terse n node hnode msg hmsg with
          | inl hfixed => exact hfixed.serialize
          | inr hreply =>
            obtain ⟨config, hello, rfl⟩ := hreply
            exact (Message.serialize_reply hempty config hello).2
        obtain ⟨b, hb⟩ := hserialize
        exact ⟨_, Except.bind_eq_ok.mpr ⟨_, Except.bind_eq_ok.mpr ⟨b, hb, rfl⟩, rfl⟩⟩

end WiredNetwork

end Bem
