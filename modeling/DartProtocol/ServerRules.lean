import DartProtocol.Server

/-!
# What one event can do to the server

* `Relay` — a relation that allows sending and drawing random bytes describes every branch of
  `handleMessage` that only relays;
* `dispatch_obeysAt`, `step_obeysAt` — what a frame and an event can do, given the few changes of
  state there are: learning an identity, caching a dart, registering and striking a member.
-/

namespace DartProtocol.GroupServer

open Prog

variable {C : Crypto} {keys : ServerKeys}

/-! ### Evaluation -/

/-- What handing frames to peers puts out. -/
def sends (s : GroupServer) (frames : List (Buffer × Peer)) : List ServerOutput :=
  if s.closed then [] else frames.map fun f => .sent f.1 f.2 (s.wireForm f.1 f.2)

theorem sends_cons (s : GroupServer) (f : Buffer × Peer) (fs : List (Buffer × Peer)) :
    s.sends (f :: fs) = s.sends [f] ++ s.sends fs := by
  rw [sends, sends, sends]
  split <;> simp

theorem sendToPeer_run (buf : Buffer) (peer : Peer) (s : GroupServer) :
    sendToPeer buf peer s = ⟨some (), s, s.sends [(buf, peer)]⟩ := by
  rw [sendToPeer, get_bind, sends]
  split <;> rfl

/-- A loop that only sends leaves the state alone and runs to its end. -/
theorem forEach_sendToPeer_run {β : Type} (frame : β → Buffer × Peer) (bs : List β)
    (s : GroupServer) :
    forEach (fun b => sendToPeer (frame b).1 (frame b).2) bs s
      = ⟨some (), s, s.sends (bs.map frame)⟩ := by
  induction bs with
  | nil =>
    rw [forEach_nil, pure_run, sends]
    split <;> rfl
  | cons b bs ih =>
    rw [forEach_cons, bind_of_some (a := ()) (by rw [sendToPeer_run]), sendToPeer_run, ih,
      List.map_cons, sends_cons s (frame b) (bs.map frame)]
    rfl

theorem relayToGroup_run (buf : Buffer) (convId : ℕ) (peerId : String) (s : GroupServer) :
    relayToGroup buf convId peerId s
      = ⟨some (), s, s.sends ((s.othersIn convId peerId).map fun p => (buf, p))⟩ := by
  rw [relayToGroup, get_bind]
  exact forEach_sendToPeer_run (fun p => (buf, p)) _ s

/-! ### Relaying -/

section Rules

variable {R : GroupServer → List ServerOutput → GroupServer → Prop}

/-- Sending and drawing random bytes. -/
structure Relay (R : GroupServer → List ServerOutput → GroupServer → Prop) : Prop where
  comp : Composable R
  draw : ∀ (s : GroupServer) n, R s [] { s with draws := n }
  sent : ∀ (s : GroupServer) buf peer, s.closed = false →
    R s [.sent buf peer (s.wireForm buf peer)] s

theorem sendToPeer_obeys (hR : Relay R) (buf : Buffer) (peer : Peer) :
    Obeys R (sendToPeer buf peer) := by
  intro s
  rw [ObeysAt, sendToPeer_run, sends]
  split
  · exact hR.comp.refl s
  · rename_i hopen
    exact hR.sent s buf peer (by simpa using hopen)

theorem relayToGroup_obeys (hR : Relay R) (buf : Buffer) (convId : ℕ) (peerId : String) :
    Obeys R (relayToGroup buf convId peerId) := by
  rw [relayToGroup]
  apply Obeys.get_bind
  intro s
  exact .forEach hR.comp fun p _ => sendToPeer_obeys hR buf p

theorem relayToMember_obeys (hR : Relay R) (buf : Buffer) (convId targetId : ℕ) :
    Obeys R (relayToMember buf convId targetId) := by
  rw [relayToMember]
  apply Obeys.get_bind
  intro s
  split
  · exact .pure hR.comp _
  · exact sendToPeer_obeys hR buf _

theorem handleTargeted_obeys (hR : Relay R) (buf : Buffer) (convId : ℕ) :
    Obeys R (handleTargeted buf convId) := by
  rw [handleTargeted]
  apply Obeys.ofOption_bind hR.comp
  intro targetId
  exact relayToMember_obeys hR buf convId targetId

theorem handleNack_obeys (hR : Relay R) (buf : Buffer) (peer : Peer) :
    Obeys R (handleNack buf peer) := by
  rw [handleNack]
  cases (stripControlFrame buf).bind Codec.parseNack with
  | none => exact .pure hR.comp _
  | some nack =>
    show Obeys R (repair nack buf peer)
    rw [repair]
    apply Obeys.get_bind
    intro s
    apply Obeys.bind hR.comp
      (.forEach hR.comp fun dart _ => sendToPeer_obeys hR dart peer)
    intro _
    have hgroup := relayToGroup_obeys hR buf nack.convId peer.id
    split
    · apply Obeys.ite (sendToPeer_obeys hR buf _)
      exact .ite hgroup (.pure hR.comp _)
    · exact .ite hgroup (.pure hR.comp _)

theorem handleRelayed_obeys (hR : Relay R) (buf : Buffer) (peer : Peer) (convId : ℕ) :
    Obeys R (handleRelayed C keys buf peer convId) := by
  rw [handleRelayed]
  apply Obeys.get_bind
  intro s
  apply Obeys.ofOption_bind hR.comp
  intro verified
  exact .ite (relayToGroup_obeys hR buf convId peer.id) (.pure hR.comp _)

theorem notifyMember_obeys (hR : Relay R) (convId : ℕ) (mems : NumMap Buffer) (e : ℕ × Buffer) :
    Obeys R (notifyMember C keys convId mems e) := by
  rw [notifyMember]
  apply Obeys.ofOption_bind hR.comp
  intro transportKey
  apply Obeys.get_bind
  intro s
  split
  · exact .pure hR.comp _
  · rw [randomBytes]
    apply Obeys.bind hR.comp
    · apply Obeys.get_bind
      intro t
      apply Obeys.bind hR.comp (.modify fun u => hR.draw u _)
      exact fun _ => .pure hR.comp _
    intro nonce
    apply Obeys.ofOption_bind hR.comp
    intro buf
    exact sendToPeer_obeys hR buf _

theorem notifyMembers_obeys (hR : Relay R) (convId : ℕ) : Obeys R (notifyMembers C keys convId) := by
  rw [notifyMembers]
  apply Obeys.get_bind
  intro s
  split
  · exact .pure hR.comp _
  · exact .forEach hR.comp fun e _ => notifyMember_obeys hR convId _ e

variable {s : GroupServer}

/-! ### Frames and events -/

/-- **What a frame can do**, given what it teaches, what is cached and what a KeyReq does. -/
theorem dispatch_obeysAt (hR : Relay R) {buf : Buffer} {peer : Peer}
    (hnote : ∀ type convId, R s [] (notePeer type convId buf peer s))
    (hcache : ∀ t convId senderId seq, R t [] (cacheData convId senderId seq buf t))
    (hreq : ∀ convId, buf.readUInt16BE 1 = some convId →
      ObeysAt R (handleKeyReq C keys buf) (notePeer TYPE_KEY_REQ convId buf peer s)) :
    ObeysAt R (dispatch C keys buf peer) s := by
  rw [ObeysAt, dispatch]
  cases buf.readUInt8 0 with
  | none => exact hR.comp.refl s
  | some type =>
    rw [ofOption_some_bind]
    cases hconv : buf.readUInt16BE 1 with
    | none => exact hR.comp.refl s
    | some convId =>
      rw [ofOption_some_bind, modify_bind]
      have hnoted : R s [] (notePeer type convId buf peer s) := hnote type convId
      apply hR.comp.trans hnoted
      rw [handlerOf]
      by_cases hdata : type = TYPE_DATA
      · rw [if_pos hdata, handleData, get_bind]
        cases (notePeer type convId buf peer s).peerIdentity.get peer.id with
        | none => exact hR.comp.refl _
        | some senderId =>
          apply ObeysAt.bind hR.comp (Obeys.ofOption hR.comp _ _)
          intro seq _
          apply Obeys.bind hR.comp (.modify fun t => hcache t _ _ _)
          exact fun _ => relayToGroup_obeys hR buf convId peer.id
      rw [if_neg hdata]
      by_cases hkey : type = TYPE_KEY_REQ
      · rw [if_pos hkey, hkey]
        exact hreq convId hconv
      rw [if_neg hkey]
      have hrest : Obeys R
          (if type = TYPE_KEY_SHARE ∨ type = TYPE_CHAIN_SHARE then handleTargeted buf convId
            else if type = TYPE_NACK then handleNack buf peer
            else if type = TYPE_SYNC then handleRelayed C keys buf peer convId
            else if type = TYPE_DICT_RESET then handleRelayed C keys buf peer convId
            else if type = TYPE_ACK then handleTargeted buf convId
            else pure ()) := by
        apply Obeys.ite (handleTargeted_obeys hR buf convId)
        apply Obeys.ite (handleNack_obeys hR buf peer)
        apply Obeys.ite (handleRelayed_obeys hR buf peer convId)
        apply Obeys.ite (handleRelayed_obeys hR buf peer convId)
        exact .ite (handleTargeted_obeys hR buf convId) (.pure hR.comp _)
      exact hrest _

theorem handleMessage_run (now : ℕ) (buf : Buffer) (peer : Peer) (s : GroupServer) :
    handleMessage C keys now buf peer s
      = if 500 < (countPacket now peer).packetCount then ⟨some (), s, []⟩
        else ⟨some (), (dispatch C keys buf (countPacket now peer) s).state,
          (dispatch C keys buf (countPacket now peer) s).output⟩ := by
  rw [handleMessage]
  split
  · rfl
  · rw [attempt_bind, pure_run]
    simp [Outcome.prepend]

/-- The limiter counts on the peer object, and every datagram brings a new one: no packet is ever
dropped by it. -/
theorem countPacket_fresh (now : ℕ) (id : String) (link : PeerLink) :
    countPacket now { id, link } = { id, link, lastPacketTime := some now, packetCount := 1 } := by
  have hstart : ¬ orDefault (some now) 0 + 1000 < now := by
    rw [orDefault_zero, Option.getD_some]
    omega
  simp [countPacket, hstart]

theorem step_message (now : ℕ) (id : String) (link : PeerLink) (buf : Buffer) (s : GroupServer) :
    step C keys (.message now id link buf) s
      = ⟨some (), (dispatch C keys buf ⟨id, link, some now, 1⟩ s).state,
          (dispatch C keys buf ⟨id, link, some now, 1⟩ s).output⟩ := by
  show handleMessage C keys now buf { id, link } s = _
  rw [handleMessage_run, countPacket_fresh, if_neg (by simp)]

/-- **What an event can do**, given frames and closed sockets. -/
theorem step_obeysAt {e : Event} (hmessage : ∀ buf peer, ObeysAt R (dispatch C keys buf peer) s)
    (hremove : ∀ peerId, ObeysAt R (removePeer C keys peerId) s)
    (hsocket : ∀ f, R s [] { s with closedSockets := f })
    (hclose : R s [] { s with closed := true }) : ObeysAt R (step C keys e) s := by
  cases e with
  | message now id link buf =>
    rw [ObeysAt, step_message]
    exact hmessage buf _
  | removePeer peerId => exact hremove peerId
  | socketClosing socket => exact hsocket _
  | close => exact hclose

end Rules

theorem stateAfter_concat (es : List Event) (e : Event) :
    stateAfter C keys (es ++ [e]) = (step C keys e (stateAfter C keys es)).state := by
  rw [stateAfter, run, eventLoop_append]
  rfl

end DartProtocol.GroupServer
