import DartProtocol.Announcement

/-!
# Routes, identities and rejected frames

The server keeps three indexes of who is who: `peerIdentity` (whom a transport peer speaks for),
`clientMap` (over which peer a member is reached) and `groups`.  Every control frame writes the first
two before it is looked at, and nothing removes an entry from them.

* `closed_socket_cleans_up_iff` — what a closed socket takes along: the member its peer last claimed
  to be, wherever that member is reached now, and no route at all;
* `rejected_frame_unchanged_iff` — a SYNC or Dict-Reset that fails verification is not relayed, but
  leaves identities and routes alone only when it teaches nothing new.
-/

namespace DartProtocol.GroupServer

open Prog InsertionMap Buffer

variable {C : Crypto} {keys : ServerKeys}

/-! ### How far a departure gets -/

/-- The conversations a departure works off: up to and including the first one whose remaining
roster cannot be announced. -/
def reachedConvs (C : Crypto) (keys : ServerKeys) (senderId : ℕ) (s : GroupServer) :
    List ℕ → List ℕ
  | [] => []
  | convId :: convs =>
    convId :: if ∀ mems ∈ s.members.get convId, Announceable C keys (mems.delete senderId) then
      reachedConvs C keys senderId s convs
    else []

variable {senderId : ℕ} {s : GroupServer}

theorem reachedConvs_congr {t : GroupServer} {convs : List ℕ}
    (h : ∀ c ∈ convs, t.members.get c = s.members.get c) :
    reachedConvs C keys senderId t convs = reachedConvs C keys senderId s convs := by
  induction convs with
  | nil => rfl
  | cons convId convs ih =>
    rw [reachedConvs, reachedConvs, h convId List.mem_cons_self,
      ih fun c hc => h c (List.mem_cons_of_mem _ hc)]

theorem reachedConvs_sublist (senderId : ℕ) (s : GroupServer) (convs : List ℕ) :
    (reachedConvs C keys senderId s convs).Sublist convs := by
  induction convs with
  | nil => exact List.Sublist.refl _
  | cons convId convs ih =>
    rw [reachedConvs]
    apply List.Sublist.cons_cons
    split
    · exact ih
    · exact List.nil_sublist _

/-- **What a departure changes, exactly.** -/
theorem Rooms.forEach_leave_reached (hC : C.Lawful) {convs : List ℕ} :
    ∀ {s : GroupServer}, Rooms s → convs.Nodup →
      SameRooms (GroupServer.struckAll senderId (reachedConvs C keys senderId s convs) s) []
        (forEach (leaveConversation C keys senderId) convs s).state := by
  induction convs with
  | nil => exact fun _ _ => rfl
  | cons convId convs ih =>
    intro s hs hnodup
    rw [List.nodup_cons] at hnodup
    have hstate := leaveConversation_state C keys senderId convId s
    have hiff : (leaveConversation C keys senderId convId s).result.isSome
        ↔ ∀ mems ∈ s.members.get convId, Announceable C keys (mems.delete senderId) :=
      hs.leaveConversation_isSome_iff hC convId
    rw [forEach_cons, reachedConvs]
    cases hres : (leaveConversation C keys senderId convId s).result with
    | none =>
      rw [hres] at hiff
      rw [bind_of_none hres, if_neg (fun h => by cases hiff.mpr h)]
      exact hstate
    | some a =>
      rw [hres] at hiff
      rw [bind_of_some hres, if_pos (hiff.mp rfl)]
      have hsame : ∀ c ∈ convs,
          (leaveConversation C keys senderId convId s).state.members.get c = s.members.get c := by
        intro c hc
        have hne : convId ≠ c := by
          rintro rfl
          exact hnodup.1 hc
        exact (Prod.mk.inj (room_leaveConversation_of_ne C keys senderId s hne)).1
      have hrest := ih (hstate.rooms (hs.struck senderId convId)) hnodup.2
      rw [reachedConvs_congr hsame] at hrest
      exact sameRooms_relay.comp.trans (hstate.struckAll senderId _) hrest

theorem get₂_struck (senderId c k : ℕ) (s : GroupServer) :
    get₂ (struck senderId c s).members c k
      = if senderId = k then none else get₂ s.members c k := by
  rw [get₂, members_struck, if_pos rfl, get₂]
  cases s.members.get c with
  | none => simp
  | some mems =>
    rw [Option.map_some, Option.bind_some, ← get_delete]
    by_cases hsize : (mems.delete senderId).size = 0
    · rw [size_eq_zero_iff.mp hsize k]
      simp [Option.filter, hsize]
    · simp [Option.filter, hsize]

/-- **The members after a closed socket.**  Gone is the member the peer last claimed to be, from the
conversations that were worked off. -/
theorem Rooms.get₂_removePeer (hC : C.Lawful) (hs : Rooms s) {peerId : String}
    (hid : s.peerIdentity.get peerId = some senderId) (c k : ℕ) :
    get₂ (removePeer C keys peerId s).state.members c k
      = if c ∈ reachedConvs C keys senderId s (s.leftConvs peerId) ∧ senderId = k then none
        else get₂ s.members c k := by
  have hleave : Rooms (leaveGroups peerId s) := hs.of_fields rfl rfl fun _ _ h => h
  have hnodup := nodup_leftConvs s peerId
  have hreach : (reachedConvs C keys senderId s (s.leftConvs peerId)).Nodup :=
    hnodup.sublist (reachedConvs_sublist senderId s _)
  have hsame : SameRooms (GroupServer.struckAll senderId
      (reachedConvs C keys senderId s (s.leftConvs peerId)) (leaveGroups peerId s)) []
      (removePeer C keys peerId s).state := by
    have hreached : reachedConvs C keys senderId (leaveGroups peerId s) (s.leftConvs peerId)
        = reachedConvs C keys senderId s (s.leftConvs peerId) :=
      reachedConvs_congr fun c _ => rfl
    rw [removePeer_of_identity hid, ← hreached]
    exact hleave.forEach_leave_reached hC hnodup
  have hroom := hsame.room c
  have hroom' : (leaveGroups peerId s).room c = s.room c := rfl
  rw [room_struckAll hreach, room_struck_congr hroom', hroom'] at hroom
  by_cases hc : c ∈ reachedConvs C keys senderId s (s.leftConvs peerId)
  · rw [if_pos hc] at hroom
    have hmem : (removePeer C keys peerId s).state.members.get c
        = (GroupServer.struck senderId c s).members.get c := (Prod.mk.inj hroom).1
    rw [get₂, hmem, ← get₂, get₂_struck]
    simp [hc]
  · rw [if_neg hc] at hroom
    have hmem : (removePeer C keys peerId s).state.members.get c = s.members.get c :=
      (Prod.mk.inj hroom).1
    rw [get₂, hmem, if_neg (fun h => hc h.1)]
    rfl

theorem members_removePeer_of_none {peerId : String} (hid : s.peerIdentity.get peerId = none) :
    (removePeer C keys peerId s).state.members = s.members := by
  rw [removePeer, get_bind, modify_bind, hid]
  rfl

theorem clientMap_removePeer (peerId : String) (s : GroupServer) :
    (removePeer C keys peerId s).state.clientMap = s.clientMap := by
  obtain ⟨convs, -, -, hsame⟩ := removePeer_state C keys peerId s
  have hstruck : ∀ (senderId : ℕ) (convs : List ℕ) (t : GroupServer),
      (struckAll senderId convs t).clientMap = t.clientMap := by
    intro senderId convs
    induction convs with
    | nil => exact fun t => rfl
    | cons convId convs ih =>
      intro t
      show (struckAll senderId convs (struck senderId convId t)).clientMap = _
      rw [ih, struck_frame]
  rw [SameRooms] at hsame
  rw [hsame]
  exact hstruck _ _ _

/-! ### Closed sockets -/

/-- A closed socket strikes only members that are reached over it, and leaves all others. -/
def StrikesOnlyOwn (C : Crypto) (keys : ServerKeys) (s : GroupServer) (peerId : String) : Prop :=
  ∀ c k pub, get₂ s.members c k = some pub →
    get₂ (removePeer C keys peerId s).state.members c k = some pub ∨
    (get₂ (removePeer C keys peerId s).state.members c k = none ∧
      ∃ peer, get₂ s.clientMap c k = some peer ∧ peer.id = peerId)

/-- After a closed socket no route leads over it. -/
def ForgetsRoutes (C : Crypto) (keys : ServerKeys) (s : GroupServer) (peerId : String) : Prop :=
  ∀ c k peer, get₂ (removePeer C keys peerId s).state.clientMap c k = some peer → peer.id ≠ peerId

/-- The condition for striking own members only: wherever the member the peer last claimed to be is
registered, in a conversation that is worked off, it is still reached over that peer. -/
def SpeaksForOwn (C : Crypto) (keys : ServerKeys) (s : GroupServer) (peerId : String) : Prop :=
  ∀ senderId ∈ s.peerIdentity.get peerId,
    ∀ c ∈ reachedConvs C keys senderId s (s.leftConvs peerId),
      ∀ _pub ∈ get₂ s.members c senderId,
        ∃ peer ∈ get₂ s.clientMap c senderId, peer.id = peerId

theorem Rooms.strikesOnlyOwn_iff (hC : C.Lawful) (hs : Rooms s)
    (peerId : String) : StrikesOnlyOwn C keys s peerId ↔ SpeaksForOwn C keys s peerId := by
  constructor
  · intro h senderId hid c hc pub hpub
    rcases h c senderId pub hpub with hstays | ⟨-, peer, hpeer, howner⟩
    · rw [hs.get₂_removePeer hC hid, if_pos ⟨hc, rfl⟩] at hstays
      cases hstays
    · exact ⟨peer, hpeer, howner⟩
  · intro h c k pub hpub
    cases hid : s.peerIdentity.get peerId with
    | none =>
      rw [members_removePeer_of_none hid]
      exact Or.inl hpub
    | some senderId =>
      rw [hs.get₂_removePeer hC hid]
      by_cases hgone : c ∈ reachedConvs C keys senderId s (s.leftConvs peerId) ∧ senderId = k
      · rw [if_pos hgone]
        obtain ⟨hc, rfl⟩ := hgone
        exact Or.inr ⟨rfl, h senderId hid c hc pub hpub⟩
      · rw [if_neg hgone]
        exact Or.inl hpub

/-- **What a closed socket takes along.**  In every reachable state, a closed socket removes only
what it owned and leaves no route over it exactly when the member its peer last claimed to be is
still reached over it wherever it is struck, and no route leads over it to begin with. -/
theorem closed_socket_cleans_up_iff {C : Crypto} (hC : C.Lawful) (keys : ServerKeys)
    (es : List Event) (peerId : String) :
    (StrikesOnlyOwn C keys (stateAfter C keys es) peerId ∧
      ForgetsRoutes C keys (stateAfter C keys es) peerId)
    ↔ (SpeaksForOwn C keys (stateAfter C keys es) peerId ∧
      ∀ c k peer, get₂ (stateAfter C keys es).clientMap c k = some peer → peer.id ≠ peerId) := by
  have hs := rooms_stateAfter C keys es
  rw [hs.strikesOnlyOwn_iff hC, ForgetsRoutes, clientMap_removePeer]

/-- Member `1` registers over TCP and again, with the same key, over UDP; a bystander on a second
TCP socket has sent nothing but a Data dart. -/
def secondTransport : List Event :=
  [registers 7 1 (bytesBE 65 1),
    .message 2 "udp:1" (.udp "10.0.0.1" 4000) (sumKeyReq 7 1 (bytesBE 65 1)),
    registers 7 2 (bytesBE 65 2),
    .message 3 "tcp:5" (.tcp 5) (bytesBE 1 TYPE_DATA ++ bytesBE 2 7 ++ Buffer.alloc 28)]

/-- The socket of a peer that never sent a control frame leaves everything in place. -/
theorem closed_socket_cleans_up_bystander :
    StrikesOnlyOwn sumCrypto sumServer (stateAfter sumCrypto sumServer secondTransport) "tcp:5" ∧
    ForgetsRoutes sumCrypto sumServer (stateAfter sumCrypto sumServer secondTransport) "tcp:5" := by
  have heval : SpeaksForOwn sumCrypto sumServer
      (stateAfter sumCrypto sumServer secondTransport) "tcp:5" ∧
      ∀ row ∈ (stateAfter sumCrypto sumServer secondTransport).clientMap.entries,
        ∀ e ∈ row.2.entries, e.2.id ≠ "tcp:5" := by
    unfold SpeaksForOwn
    decide +kernel
  refine (closed_socket_cleans_up_iff sumCrypto_lawful sumServer secondTransport "tcp:5").mpr
    ⟨heval.1, ?_⟩
  intro c k peer hpeer
  obtain ⟨row, hrow, hk⟩ := Option.bind_eq_some_iff.mp hpeer
  exact heval.2 (c, row) (mem_entries_iff_get.mpr hrow) (k, peer)
    (mem_entries_iff_get.mpr hk)

/-- **A closed socket takes along a member that left it.**  Member `1` is reached over UDP when its
old TCP socket closes, and is struck from the room all the same; and when the socket of member `2`
closes, the route of member `2` still leads over it. -/
theorem closed_socket_strikes_moved_member :
    ¬ StrikesOnlyOwn sumCrypto sumServer (stateAfter sumCrypto sumServer secondTransport) "tcp:1" ∧
    ¬ ForgetsRoutes sumCrypto sumServer (stateAfter sumCrypto sumServer secondTransport) "tcp:2" ∧
    (get₂ (stateAfter sumCrypto sumServer secondTransport).clientMap 7 1).map (·.id)
      = some "udp:1" := by
  have hroute : (get₂ (stateAfter sumCrypto sumServer secondTransport).clientMap 7 1).map (·.id)
      = some "udp:1" := by
    decide +kernel
  have hstale : (get₂ (removePeer sumCrypto sumServer "tcp:2"
      (stateAfter sumCrypto sumServer secondTransport)).state.clientMap 7 2).map (·.id)
        = some "tcp:2" := by
    decide +kernel
  refine ⟨fun h => ?_, fun h => ?_, hroute⟩
  · rcases h 7 1 (bytesBE 65 1) (by decide +kernel) with hstays | ⟨-, peer, hpeer, howner⟩
    · exact absurd hstays (by decide +kernel)
    · rw [hpeer, Option.map_some, howner] at hroute
      exact absurd hroute (by decide)
  · obtain ⟨peer, hpeer, hid⟩ := Option.map_eq_some_iff.mp hstale
    exact h 7 2 peer hpeer hid

/-! ### Rejected frames -/

/-- The address a peer object stands for. -/
def route (peer : Peer) : String × PeerLink := (peer.id, peer.link)

/-- A SYNC or Dict-Reset that the server does not accept: the sender it names is not registered, the
registered key is no curve point, or the MAC is wrong. -/
def Rejected (C : Crypto) (keys : ServerKeys) (s : GroupServer) (buf : Buffer) : Prop :=
  (buf.readUInt8 0 = some TYPE_SYNC ∨ buf.readUInt8 0 = some TYPE_DICT_RESET) ∧
    ∀ convId, buf.readUInt16BE 1 = some convId → s.verifyRelayed C keys buf convId ≠ some true

/-- Members, creators, identities, routes and the repair cache are what they were. -/
structure SameIndexes (s t : GroupServer) : Prop where
  members : t.members = s.members
  creator : t.creator = s.creator
  peerIdentity : ∀ peerId, t.peerIdentity.get peerId = s.peerIdentity.get peerId
  clientMap : ∀ c k, (get₂ t.clientMap c k).map route = (get₂ s.clientMap c k).map route
  messageCache : t.messageCache = s.messageCache
  highestSeq : t.highestSeq = s.highestSeq

/-- A frame tells the server something new: it names a sender for whom its peer does not speak yet, or
who is not reached over its peer yet. -/
def Teaches (s : GroupServer) (id : String) (link : PeerLink) (buf : Buffer) : Prop :=
  ∃ convId senderId, buf.readUInt16BE 1 = some convId ∧ buf.readUInt16BE 3 = some senderId ∧
    (s.peerIdentity.get id ≠ some senderId ∨
      (get₂ s.clientMap convId senderId).map route ≠ some (id, link))

theorem sameIndexes_notePeer_iff {type convId : ℕ} (htype : type ≠ TYPE_DATA) {buf : Buffer}
    (hconv : buf.readUInt16BE 1 = some convId) (s : GroupServer) (peer : Peer) :
    SameIndexes s (notePeer type convId buf peer s) ↔ ¬ Teaches s peer.id peer.link buf := by
  rw [notePeer, if_neg htype]
  cases hsender : buf.readUInt16BE 3 with
  | none =>
    constructor
    · rintro - ⟨_, senderId, _, h, _⟩
      rw [hsender] at h
      cases h
    · exact fun _ => ⟨rfl, rfl, fun _ => rfl, fun _ _ => rfl, rfl, rfl⟩
  | some senderId =>
    show SameIndexes s (learnIdentity convId senderId peer (joinGroup convId peer s)) ↔ _
    constructor
    · rintro h ⟨convId', senderId', hconv', hsender', hnew⟩
      cases hconv.symm.trans hconv'
      cases hsender.symm.trans hsender'
      -- the entries that were written are the ones that were there
      have hid := h.peerIdentity peer.id
      have hroute := h.clientMap convId senderId
      change (s.peerIdentity.set peer.id senderId).get peer.id = _ at hid
      change (get₂ (set₂ s.clientMap convId senderId peer) convId senderId).map route = _ at hroute
      rw [get_set_self] at hid
      rw [get₂_set₂, if_pos ⟨rfl, rfl⟩] at hroute
      rcases hnew with hne | hne
      · exact hne hid.symm
      · exact hne hroute.symm
    · intro h
      have hid : s.peerIdentity.get peer.id = some senderId := by
        by_contra hne
        exact h ⟨convId, senderId, hconv, hsender, Or.inl hne⟩
      have hroute : (get₂ s.clientMap convId senderId).map route = some (peer.id, peer.link) := by
        by_contra hne
        exact h ⟨convId, senderId, hconv, hsender, Or.inr hne⟩
      refine ⟨rfl, rfl, fun peerId => ?_, fun c k => ?_, rfl, rfl⟩
      · show (s.peerIdentity.set peer.id senderId).get peerId = _
        rw [get_set]
        split
        · rename_i hp
          rw [← hp, hid]
        · rfl
      · show (get₂ (set₂ s.clientMap convId senderId peer) c k).map route = _
        rw [get₂_set₂]
        split
        · rename_i hck
          rw [← hck.1, ← hck.2, hroute]
          rfl
        · rfl

theorem dispatch_rejected {buf : Buffer} (h : Rejected C keys s buf) (peer : Peer) :
    (dispatch C keys buf peer s).output = [] ∧
    (dispatch C keys buf peer s).state
      = match buf.readUInt16BE 1 with
        | none => s
        | some convId => notePeer TYPE_SYNC convId buf peer s := by
  obtain ⟨htype, hreject⟩ := h
  -- both types take the same way through the handler
  have hrelayed : ∀ type, (type = TYPE_SYNC ∨ type = TYPE_DICT_RESET) → ∀ convId,
      handlerOf C keys type buf peer convId = handleRelayed C keys buf peer convId ∧
      notePeer type convId buf peer s = notePeer TYPE_SYNC convId buf peer s := by
    rintro type (rfl | rfl) convId
    · exact ⟨rfl, rfl⟩
    · exact ⟨rfl, rfl⟩
  obtain ⟨type, hread, htype⟩ : ∃ type, buf.readUInt8 0 = some type ∧
      (type = TYPE_SYNC ∨ type = TYPE_DICT_RESET) := by
    rcases htype with h | h
    · exact ⟨_, h, Or.inl rfl⟩
    · exact ⟨_, h, Or.inr rfl⟩
  rw [dispatch, hread, ofOption_some_bind]
  cases hconv : buf.readUInt16BE 1 with
  | none => exact ⟨rfl, rfl⟩
  | some convId =>
    rw [ofOption_some_bind, modify_bind, (hrelayed type htype convId).1,
      (hrelayed type htype convId).2, handleRelayed, get_bind]
    -- verification looks at the registered keys, which the frame cannot have changed
    have hverify : (notePeer TYPE_SYNC convId buf peer s).verifyRelayed C keys buf convId
        = s.verifyRelayed C keys buf convId := by
      have hmem : (notePeer TYPE_SYNC convId buf peer s).members = s.members := by
        rw [notePeer, if_neg (by decide)]
        cases buf.readUInt16BE 3 <;> rfl
      rw [verifyRelayed, verifyRelayed, hmem]
    rw [hverify]
    have hno := hreject convId hconv
    cases hv : s.verifyRelayed C keys buf convId with
    | none => exact ⟨rfl, rfl⟩
    | some verified =>
      cases verified with
      | true => exact absurd hv hno
      | false => exact ⟨rfl, rfl⟩

/-- **What a rejected frame leaves behind.**  In every reachable state, a SYNC or Dict-Reset that
fails verification is never relayed, and it leaves members, creators, identities, routes and the
repair cache unchanged exactly when it teaches the server nothing about its peer. -/
theorem rejected_frame_unchanged_iff (C : Crypto) (keys : ServerKeys) (es : List Event) (now : ℕ)
    (id : String) (link : PeerLink) (buf : Buffer)
    (h : Rejected C keys (stateAfter C keys es) buf) :
    ((step C keys (.message now id link buf) (stateAfter C keys es)).output = [] ∧
      SameIndexes (stateAfter C keys es)
        (step C keys (.message now id link buf) (stateAfter C keys es)).state)
    ↔ ¬ Teaches (stateAfter C keys es) id link buf := by
  rw [step_message]
  obtain ⟨hout, hstate⟩ := dispatch_rejected h ⟨id, link, some now, 1⟩
  show (_ = [] ∧ SameIndexes _ (dispatch C keys buf ⟨id, link, some now, 1⟩ _).state) ↔ _
  rw [hout, hstate]
  cases hconv : buf.readUInt16BE 1 with
  | none =>
    constructor
    · rintro - ⟨convId, _, hread, _⟩
      rw [hconv] at hread
      cases hread
    · exact fun _ => ⟨rfl, rfl, rfl, fun _ => rfl, fun _ _ => rfl, rfl, rfl⟩
  | some convId =>
    have hiff := sameIndexes_notePeer_iff (by decide : TYPE_SYNC ≠ TYPE_DATA) hconv
      (stateAfter C keys es) ⟨id, link, some now, 1⟩
    exact ⟨fun hboth => hiff.mp hboth.2, fun hno => ⟨rfl, hiff.mpr hno⟩⟩

/-- A SYNC that names a member and carries no valid MAC. -/
def unsignedSync (convId senderId : ℕ) : Buffer :=
  bytesBE 1 TYPE_SYNC ++ bytesBE 2 convId ++ bytesBE 2 senderId ++
    Buffer.alloc 63

theorem unsignedSync_rejected :
    Rejected sumCrypto sumServer (stateAfter sumCrypto sumServer secondTransport)
      (unsignedSync 7 1) :=
  ⟨Or.inl (by decide +kernel), show ∀ convId ∈ (unsignedSync 7 1).readUInt16BE 1, _ by decide +kernel⟩

/-- From the peer over which the member is reached, it changes nothing. -/
theorem rejected_frame_unchanged_own_peer :
    (step sumCrypto sumServer (.message 9 "udp:1" (.udp "10.0.0.1" 4000) (unsignedSync 7 1))
      (stateAfter sumCrypto sumServer secondTransport)).output = [] ∧
    SameIndexes (stateAfter sumCrypto sumServer secondTransport)
      (step sumCrypto sumServer (.message 9 "udp:1" (.udp "10.0.0.1" 4000) (unsignedSync 7 1))
        (stateAfter sumCrypto sumServer secondTransport)).state := by
  refine (rejected_frame_unchanged_iff sumCrypto sumServer secondTransport 9 "udp:1"
    (.udp "10.0.0.1" 4000) (unsignedSync 7 1) unsignedSync_rejected).mpr ?_
  rintro ⟨convId, senderId, hconv, hsender, hnew⟩
  cases (show (unsignedSync 7 1).readUInt16BE 1 = some 7 by decide +kernel).symm.trans hconv
  cases (show (unsignedSync 7 1).readUInt16BE 3 = some 1 by decide +kernel).symm.trans hsender
  rcases hnew with hne | hne
  · exact hne (by decide +kernel)
  · exact hne (by decide +kernel)

/-- **A rejected frame redirects a member.**  A peer that cannot sign for member `1` sends a SYNC in
its name.  Nothing is relayed, but the server now takes that peer for member `1`: what is addressed
to member `1` goes there, and Data from there is cached as a dart of member `1`. -/
theorem rejected_frame_redirects :
    Rejected sumCrypto sumServer (stateAfter sumCrypto sumServer secondTransport)
      (unsignedSync 7 1) ∧
    ¬ SameIndexes (stateAfter sumCrypto sumServer secondTransport)
      (stateAfter sumCrypto sumServer (secondTransport ++
        [.message 9 "udp:evil" (.udp "10.6.6.6" 666) (unsignedSync 7 1)])) ∧
    (get₂ (stateAfter sumCrypto sumServer (secondTransport ++
      [.message 9 "udp:evil" (.udp "10.6.6.6" 666) (unsignedSync 7 1)])).clientMap 7 1).map route
        = some ("udp:evil", .udp "10.6.6.6" 666) ∧
    (get₂ (stateAfter sumCrypto sumServer (secondTransport ++
      [.message 9 "udp:evil" (.udp "10.6.6.6" 666) (unsignedSync 7 1),
        .message 9 "udp:evil" (.udp "10.6.6.6" 666)
          (bytesBE 1 TYPE_DATA ++ bytesBE 2 7 ++ Buffer.alloc 28)])).messageCache
            7 1).isSome := by
  refine ⟨unsignedSync_rejected, fun h => ?_, by decide +kernel, by decide +kernel⟩
  exact absurd (h.clientMap 7 1) (by decide +kernel)

end DartProtocol.GroupServer
