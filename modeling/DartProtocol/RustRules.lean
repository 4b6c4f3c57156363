import DartProtocol.RustServer

/-!
# What the tasks of the Rust server can do

A relation between the state a section finds, what it puts out and the state it leaves is kept by all
tasks as soon as it is kept by the few kinds of sections there are.

* `RelayRules` — sections that look, send and draw random bytes; all the relaying code is made of
  these (`notifyMembers_within`, `handleNack_within`, `handleRelayed_within`, …);
* `handlerOf_within`, `handleMessage_within`, `cleanupPeer_within` — a task, given the rules for the
  sections that change the server;
* `TaskRules`, `step_within` — the rules for all events, and one event of a pool with any tasks at
  work;
* `Led` — who leads a room.
-/

namespace DartProtocol.RustServer

open InsertionMap Slice

variable {C : Crypto} {keys : ServerKeys}

section Tasks

variable {R : ServerState → List Output → ServerState → Prop}

/-- Looking, sending and drawing random bytes. -/
structure RelayRules (R : ServerState → List Output → ServerState → Prop) : Prop where
  refl : ∀ s, R s [] s
  sent : ∀ s msg peer, R s [.sent msg peer (carries s peer)] s
  drawn : ∀ s : ServerState, R s [] { s with draws := s.draws + 1 }

theorem sendToPeer_within (hR : RelayRules R) (msg : Buffer) (peer : PeerId) :
    (sendToPeer msg peer).Within R :=
  Thread.Within.emit fun s => hR.sent s msg peer

theorem relayToGroup_within (hR : RelayRules R) (msg : Buffer) (convId : ℕ) (peer : PeerId) :
    (relayToGroup msg convId peer).Within R := by
  apply Thread.Within.bind (.read hR.refl _)
  exact fun group => .forEach fun p _ => sendToPeer_within hR msg p

theorem relayToMember_within (hR : RelayRules R) (msg : Buffer) (convId targetId : ℕ) :
    (relayToMember msg convId targetId).Within R := by
  apply Thread.Within.bind (.read hR.refl _)
  intro target
  split
  · exact .pure _
  · exact sendToPeer_within hR msg _

theorem notifyMember_within (hR : RelayRules R) (convId : ℕ) (roster : List RosterEntry)
    (e : ℕ × Buffer) : (notifyMember C keys convId roster e).Within R := by
  rw [notifyMember]
  split
  · exact .pure _
  · apply Thread.Within.bind (.read hR.refl _)
    intro creator
    have hdraw : (randomBytes keys 12).Within R := fun s => ⟨hR.drawn s, trivial⟩
    apply Thread.Within.bind hdraw
    intro nonce
    apply Thread.Within.bind (.ofOption _)
    intro out
    split
    · exact .pure _
    · exact relayToMember_within hR _ _ _

theorem notifyMembers_within (hR : RelayRules R) (convId : ℕ) :
    (notifyMembers C keys convId).Within R := by
  apply Thread.Within.bind (.read hR.refl _)
  intro mems
  split
  · exact .pure _
  · apply Thread.Within.bind (.read hR.refl _)
    exact fun targets => .forEach fun e _ => notifyMember_within hR convId _ e

variable {peer : PeerId} {msg : Buffer}

theorem cleanupPeer_within (hR : RelayRules R)
    (hremove : ∀ s, R s [] (removePeer peer s)) : (cleanupPeer C keys peer).Within R := by
  have hsection : (Thread.atomic (fun s => (removePeer peer s, [])) fun s => .done (roomsOf s peer) :
      RustTask (List ℕ)).Within R := fun s => ⟨hremove s, trivial⟩
  apply Thread.Within.bind hsection
  exact fun convs => .forEach fun convId _ => notifyMembers_within hR convId

theorem handleData_within (hR : RelayRules R) {convId : ℕ}
    (hcache : ∀ s senderId seq, dataSeq msg = some seq →
      R s [.cached convId senderId seq msg] (cacheData convId senderId seq msg s)) :
    (handleData msg peer convId).Within R := by
  rw [handleData]
  apply Thread.Within.ite (.pure _)
  apply Thread.Within.bind (.read hR.refl _)
  intro sender
  split
  · exact .pure _
  · rename_i senderId
    apply Thread.Within.ofOption_bind
    intro seq hseq
    have hsection : (Thread.atomic
        (fun s => (cacheData convId senderId seq msg s, [.cached convId senderId seq msg]))
        fun s => .done (othersIn s convId peer) : RustTask (List PeerId)).Within R :=
      fun s => ⟨hcache s senderId seq hseq, trivial⟩
    apply Thread.Within.bind hsection
    exact fun group => .forEach fun p _ => sendToPeer_within hR msg p

theorem handleKeyReq_within (hR : RelayRules R)
    (hregister : ∀ s req, RustCodec.decodeKeyReq msg = some (some req) →
      R s [] (registerMember req s)) : (handleKeyReq C keys msg).Within R := by
  apply Thread.Within.ofOption_bind
  intro req hreq
  cases req with
  | none => exact .pure _
  | some req =>
    apply Thread.Within.bind (.update fun s => hregister s req hreq)
    exact fun _ => notifyMembers_within hR _

theorem handleTargeted_within (hR : RelayRules R) (msg : Buffer) (convId : ℕ) :
    (handleTargeted msg convId).Within R := by
  rw [handleTargeted]
  apply Thread.Within.ite (.pure _)
  apply Thread.Within.bind (.ofOption _)
  exact fun targetId => relayToMember_within hR msg convId targetId

theorem handleNack_within (hR : RelayRules R) (msg : Buffer) (peer : PeerId) :
    (handleNack msg peer).Within R := by
  rw [handleNack]
  split
  · exact .pure _
  apply Thread.Within.bind (.ofOption _)
  intro nack
  split
  · exact .pure _
  apply Thread.Within.bind (.read hR.refl _)
  rintro ⟨toSend, missingFromServer, group⟩
  apply Thread.Within.bind (.forEach fun cached _ => sendToPeer_within hR cached peer)
  intro _
  apply Thread.Within.bind (.read hR.refl _)
  intro target
  split
  · exact .ite (sendToPeer_within hR msg _) (.pure _)
  · exact .ite (.forEach fun p _ => sendToPeer_within hR msg p)
      (.pure _)

theorem handleRelayed_within (hR : RelayRules R) (msg : Buffer) (peer : PeerId) :
    (handleRelayed C keys msg peer).Within R := by
  apply Thread.Within.bind (.ofOption _)
  intro convId
  apply Thread.Within.bind (.ofOption _)
  intro senderId
  apply Thread.Within.bind (.read hR.refl _)
  intro memberPub
  split
  · exact .pure _
  · exact .ite (relayToGroup_within hR msg convId peer) (.pure _)

/-- What a task does once its frame is noted: it caches a dart, registers a member, or relays. -/
theorem handlerOf_within (hR : RelayRules R) {typ convId : ℕ}
    (hcache : ∀ s senderId seq, dataSeq msg = some seq →
      R s [.cached convId senderId seq msg] (cacheData convId senderId seq msg s))
    (hregister : ∀ s req, RustCodec.decodeKeyReq msg = some (some req) →
      typ = TYPE_KEY_REQ → R s [] (registerMember req s)) :
    (handlerOf C keys typ msg peer convId).Within R := by
  rw [handlerOf]
  apply Thread.Within.ite (handleData_within hR hcache)
  by_cases hkeyReq : typ = TYPE_KEY_REQ
  · rw [if_pos hkeyReq]
    exact handleKeyReq_within hR fun s req hreq => hregister s req hreq hkeyReq
  rw [if_neg hkeyReq]
  apply Thread.Within.ite (handleTargeted_within hR msg convId)
  apply Thread.Within.ite (handleNack_within hR msg peer)
  apply Thread.Within.ite (handleRelayed_within hR msg peer)
  apply Thread.Within.ite (handleRelayed_within hR msg peer)
  exact .ite (handleTargeted_within hR msg convId) (.pure _)

/-- The rules for everything that happens to a server. -/
structure TaskRules (R : ServerState → List Output → ServerState → Prop) : Prop extends RelayRules R where
  counted : ∀ s peer, R s [] (countPacket peer s)
  noted : ∀ s typ convId msg peer, msg.readUInt16BE 1 = some convId →
    R s [] (notePeer typ convId msg peer s)
  cached : ∀ s convId senderId seq msg, msg.readUInt16BE 1 = some convId →
    msg.readUIntBE 3 3 = some seq →
    R s [.cached convId senderId seq msg] (cacheData convId senderId seq msg s)
  registered : ∀ s msg req, RustCodec.decodeKeyReq msg = some (some req) → R s [] (registerMember req s)
  removed : ∀ s peer, R s [] (removePeer peer s)
  connected : ∀ (s : ServerState) peers, R s [] { s with streamPeers := peers }
  ticked : ∀ (s : ServerState) now, R s [] { s with now := now }

/-- **Every section of a frame's task** keeps to the rules. -/
theorem handleMessage_within (hR : TaskRules R) (msg : Buffer) (peer : PeerId) :
    (handleMessage C keys msg peer).Within R := by
  rw [handleMessage]
  apply Thread.Within.ite (.pure _)
  have hcount : (Thread.atomic (fun s => (countPacket peer s, [])) fun s =>
      .done (packetCount peer s) : RustTask (ℕ × ℕ)).Within R :=
    fun s => ⟨hR.counted s peer, trivial⟩
  apply Thread.Within.bind hcount
  rintro ⟨-, count⟩
  apply Thread.Within.ite (.pure _)
  apply Thread.Within.bind (.ofOption _)
  intro typ
  apply Thread.Within.ite (.pure _)
  apply Thread.Within.ofOption_bind
  intro convId hconv
  have hread : msg.readUInt16BE 1 = some convId := (uint16_of_index msg 1).symm.trans hconv
  apply Thread.Within.bind (.update fun s => hR.noted s typ convId msg peer hread)
  intro _
  refine handlerOf_within hR.toRelayRules ?_ fun s req hreq _ => hR.registered s msg req hreq
  intro s senderId seq hseq
  exact hR.cached s convId senderId seq msg hread ((uint24_of_index msg 3).symm.trans hseq)

/-- **One event of a pool.**  Whatever tasks are at work, the next section of any of them keeps to the
rules, and so do the tasks that are left. -/
theorem step_within (hR : TaskRules R) {p : RustPool} (h : ∀ t ∈ p.threads, t.Within R) (e : Event) :
    R p.state (step C keys e p).output (step C keys e p).state.state ∧
      ∀ t ∈ (step C keys e p).state.threads, t.Within R := by
  have hspawn : ∀ t : RustTask Unit, t.Within R → ∀ t' ∈ (Pool.spawn t p).threads,
      t'.Within R := by
    intro t ht t' ht'
    rcases List.mem_append.mp ht' with hold | hnew
    · exact h t' hold
    · rw [List.mem_singleton.mp hnew]
      exact ht
  cases e with
  | message msg peer => exact ⟨hR.refl _, hspawn _ (handleMessage_within hR msg peer)⟩
  | connect peer => exact ⟨hR.connected _ _, h⟩
  | closed peer =>
    exact ⟨hR.refl _, hspawn _ (cleanupPeer_within hR.toRelayRules fun s => hR.removed s peer)⟩
  | tick ms => exact ⟨hR.ticked _ _, h⟩
  | turn task => exact Pool.turn_within hR.refl h task

theorem poolAfter_within (hR : TaskRules R) (es : List Event) :
    ∀ t ∈ (poolAfter C keys es).threads, t.Within R := by
  induction es using List.reverseRecOn with
  | nil => exact fun t ht => by cases ht
  | append_singleton es e ih =>
    rw [poolAfter_concat]
    exact (step_within hR ih e).2

/-- **An invariant of every section holds in every reachable state.** -/
theorem invariant_stateAfter {P : ServerState → Prop} (hR : TaskRules fun s _ t => P s → P t)
    (hinit : P {}) (es : List Event) : P (stateAfter C keys es) := by
  induction es using List.reverseRecOn with
  | nil => exact hinit
  | append_singleton es e ih =>
    rw [stateAfter, poolAfter_concat]
    exact (step_within hR (poolAfter_within hR es) e).1 ih

end Tasks

/-! ### What a cleanup leaves -/

/-- Striking a member from a room leaves every other registration. -/
theorem get₂_removeMember (senderId : ℕ) (s : ServerState) (convId c k : ℕ) :
    get₂ (removeMember senderId s convId).members c k
      = if convId = c ∧ senderId = k then none else get₂ s.members c k := by
  simp only [removeMember, get₂]
  cases hmems : s.members.get convId with
  | none =>
    simp only [Option.map_none]
    by_cases hc : convId = c
    · subst hc
      simp [hmems]
    · simp [hc]
  | some mems =>
    simp only [Option.map_some]
    by_cases hc : convId = c
    · subst hc
      -- the room is dropped exactly when nothing is left in it
      have hleft : ((if (mems.delete senderId).size = 0 then s.members.delete convId
          else s.members.set convId (mems.delete senderId)).get convId).bind (fun m => m.get k)
            = (mems.delete senderId).get k := by
        split
        · rename_i hempty
          rw [get_delete_self, Option.bind_none, size_eq_zero_iff.mp hempty k]
        · rw [get_set_self, Option.bind_some]
      rw [hleft, get_delete, hmems, Option.bind_some]
      simp
    · have hother : (if (mems.delete senderId).size = 0 then s.members.delete convId
          else s.members.set convId (mems.delete senderId)).get c = s.members.get c := by
        split
        · rw [get_delete_of_ne _ hc]
        · rw [get_set_of_ne _ _ hc]
      rw [hother]
      simp [hc]

theorem foldl_removeMember (senderId : ℕ) (convs : List ℕ) :
    ∀ s : ServerState,
      (∀ c k, get₂ (convs.foldl (removeMember senderId) s).members c k
        = if c ∈ convs ∧ senderId = k then none else get₂ s.members c k) ∧
      (convs.foldl (removeMember senderId) s).rooms = s.rooms ∧
      (convs.foldl (removeMember senderId) s).peerIds = s.peerIds ∧
      (convs.foldl (removeMember senderId) s).clientMap = s.clientMap := by
  induction convs with
  | nil =>
    intro s
    refine ⟨fun c k => ?_, rfl, rfl, rfl⟩
    simp
  | cons convId convs ih =>
    intro s
    obtain ⟨hmembers, hrest⟩ := ih (removeMember senderId s convId)
    refine ⟨fun c k => ?_, hrest⟩
    rw [List.foldl_cons, hmembers, get₂_removeMember]
    by_cases hk : senderId = k
    · by_cases hc : convId = c
      · simp [hk, hc]
      · have hc' : ¬ c = convId := fun h => hc h.symm
        simp [hk, hc, hc']
    · simp [hk]

/-- The registrations after a cleanup: those of the member the peer spoke for, in its rooms, are
gone. -/
theorem get₂_removePeer (peer : PeerId) (s : ServerState) (c k : ℕ) :
    get₂ (removePeer peer s).members c k
      = if c ∈ roomsOf s peer ∧ s.peerIds.get peer = some k then none else get₂ s.members c k := by
  rw [removePeer]
  cases hid : s.peerIds.get peer with
  | none => simp
  | some senderId =>
    simp only
    rw [(foldl_removeMember senderId (roomsOf s peer) _).1]
    simp

/-! ### Who leads a room -/

/-- A creator is registered in its room, and a room with members has a creator. -/
def Led (s : ServerState) : Prop :=
  ∀ c, (∀ m, s.creator.get c = some m → (get₂ s.members c m).isSome) ∧
    ∀ k, (get₂ s.members c k).isSome → (s.creator.get c).isSome

theorem Led.registered {s : ServerState} (h : Led s) (req : RustCodec.KeyReqDart) :
    Led (registerMember req s) := by
  intro c
  have hold := h c
  simp only [registerMember, get₂_set₂]
  cases hc : s.creator.get req.convId <;> split <;> grind [get_set]

theorem Led.struck {s : ServerState} (h : Led s) (senderId convId : ℕ) :
    Led (removeMember senderId s convId) := by
  intro c
  have hold := h c
  have hleft : ∀ k, k ∈ (((s.members.get convId).map (InsertionMap.delete · senderId)).getD ∅).keys ↔
      senderId ≠ k ∧ (get₂ s.members convId k).isSome := by
    intro k
    rw [mem_keys_iff, ← Option.isSome_iff_exists, get₂]
    cases s.members.get convId <;> grind [get_delete, get_empty]
  simp only [get₂_removeMember]
  simp only [removeMember]
  -- the smallest remaining id follows a creator that leaves
  split
  · split
    · rename_i hmin
      rw [List.min?_eq_none_iff] at hmin
      grind [get_delete]
    · rename_i hmin
      have := List.min?_mem hmin
      grind [get_set]
  · grind

/-- **In every interleaving of the tasks, a room with members is led by one of them.** -/
theorem creator_is_member (C : Crypto) (keys : ServerKeys) (es : List Event) :
    Led (stateAfter C keys es) := by
  refine invariant_stateAfter ⟨⟨fun _ hs => hs, fun _ _ _ hs => hs, fun _ hs => hs⟩,
    fun _ _ hs => hs, ?_, fun _ _ _ _ _ _ _ hs => hs, fun _ _ req _ hs => hs.registered req, ?_,
    fun _ _ hs => hs, fun _ _ hs => hs⟩ (fun _ => ⟨nofun, nofun⟩) es
  · intro s typ convId msg peer _ hs
    rw [notePeer]
    split
    · split <;> exact hs
    · exact hs
  · intro s peer hs
    rw [removePeer]
    split
    · exact hs
    · exact List.foldlRecOn _ _ hs fun t ht c _ => Led.struck ht _ c

end DartProtocol.RustServer
