import DartProtocol.Announcement
import DartProtocol.RustRules

/-!
# What a closed connection leaves on the Rust server

Every frame of a TCP connection is handled by a task of its own, and when the connection ends its
reader and its writer call `cleanup_peer`.  The sections of these tasks may come in any order.  A task
notes the peer of its frame in one section and registers the member of a KeyReq in a later one, and a
cleanup forgets in one section what it finds; so what a frame enters after the last cleanup stays.

* `connection` — the tasks of a connection; `poolOf` — the pool after a schedule of them;
* `Entering` — the next section of a task notes the peer, or registers a member routed to it;
* `Busy`, `busy_step` — how far the task of a frame is, and what its next section does;
* `leftNothing_removePeer_iff` — a cleanup leaves nothing exactly when every member that is routed to
  the peer is the one the peer speaks for, in a room it is in;
* `closed_leaves_nothing_iff` — a connection leaves nothing exactly when this is so at its last cleanup
  and no section still ahead notes the peer or registers a member routed to it.
-/

namespace DartProtocol.RustServer

open InsertionMap Buffer Slice

variable {C : Crypto} {keys : ServerKeys} {peer : PeerId}

/-! ### What a peer leaves behind -/

/-- The peer is in a room. -/
def InRoom (s : ServerState) (peer : PeerId) (convId : ℕ) : Prop :=
  ∃ room, s.rooms.get convId = some room ∧ peer ∈ room

/-- The member is registered and the server reaches it over this peer. -/
def RoutedTo (s : ServerState) (peer : PeerId) (convId senderId : ℕ) : Prop :=
  (∃ key, get₂ s.members convId senderId = some key) ∧ get₂ s.clientMap convId senderId = some peer

/-- Nothing is left of a peer: it is in no room, speaks for nobody, and no registered member, let alone
the creator of a room, depends on it. -/
structure LeftNothing (s : ServerState) (peer : PeerId) : Prop where
  rooms : ∀ convId, ¬ InRoom s peer convId
  peerIds : s.peerIds.get peer = none
  members : ∀ convId senderId, ¬ RoutedTo s peer convId senderId
  creators : ∀ convId senderId, s.creator.get convId = some senderId →
    ¬ RoutedTo s peer convId senderId

/-- Every member that is routed to the peer is the one it speaks for, in a room it is in. -/
def SpeaksForRouted (s : ServerState) (peer : PeerId) : Prop :=
  ∀ convId senderId, RoutedTo s peer convId senderId →
    InRoom s peer convId ∧ s.peerIds.get peer = some senderId

variable {s s' : ServerState} {msg : Buffer} {q : RustPool} {es : List Event}
  {act : ServerState → ServerState × List Output} {next : ServerState → RustTask Unit}

theorem mem_roomsOf {convId : ℕ} : convId ∈ roomsOf s peer ↔ InRoom s peer convId := by
  simp only [roomsOf, InRoom, List.mem_map, List.mem_filter, decide_eq_true_eq]
  constructor
  · rintro ⟨⟨c, room⟩, ⟨hmem, hin⟩, rfl⟩
    exact ⟨room, mem_entries_iff_get.mp hmem, hin⟩
  · rintro ⟨room, hget, hin⟩
    exact ⟨(convId, room), ⟨mem_entries_iff_get.mpr hget, hin⟩, rfl⟩

theorem removePeer_fields (s : ServerState) (peer : PeerId) :
    (removePeer peer s).rooms
        = s.rooms.mapValues (fun _ room => room.filter fun p => decide (p ≠ peer)) ∧
      (removePeer peer s).peerIds.get peer = none ∧
      (removePeer peer s).clientMap = s.clientMap := by
  rw [removePeer]
  cases hid : s.peerIds.get peer with
  | none => exact ⟨rfl, hid, rfl⟩
  | some senderId =>
    obtain ⟨-, hrooms, hids, hroutes⟩ := foldl_removeMember senderId (roomsOf s peer)
      { s with
        streamPeers := s.streamPeers.filter fun p => decide (p ≠ peer)
        rooms := s.rooms.mapValues fun _ room => room.filter fun p => decide (p ≠ peer)
        peerIds := s.peerIds.delete peer }
    refine ⟨hrooms, ?_, hroutes⟩
    simp only
    rw [hids, get_delete_self]

/-- **What a cleanup leaves.** -/
theorem leftNothing_removePeer_iff (s : ServerState) (peer : PeerId) :
    LeftNothing (removePeer peer s) peer ↔ SpeaksForRouted s peer := by
  obtain ⟨hrooms, hids, hroutes⟩ := removePeer_fields s peer
  have hrouted : ∀ c k, RoutedTo (removePeer peer s) peer c k ↔
      RoutedTo s peer c k ∧ ¬ (InRoom s peer c ∧ s.peerIds.get peer = some k) := by
    intro c k
    rw [RoutedTo, RoutedTo, hroutes, get₂_removePeer]
    by_cases h : c ∈ roomsOf s peer ∧ s.peerIds.get peer = some k
    · rw [if_pos h]
      simp [mem_roomsOf.mp h.1, h.2]
    · have hnot : ¬ (InRoom s peer c ∧ s.peerIds.get peer = some k) :=
        fun h' => h ⟨mem_roomsOf.mpr h'.1, h'.2⟩
      rw [if_neg h]
      simp [hnot]
  constructor
  · intro h c k hr
    by_contra hnot
    exact h.members c k ((hrouted c k).mpr ⟨hr, hnot⟩)
  · intro h
    have hnone : ∀ c k, ¬ RoutedTo (removePeer peer s) peer c k := by
      intro c k hr
      obtain ⟨hr, hnot⟩ := (hrouted c k).mp hr
      exact hnot (h c k hr)
    refine ⟨?_, hids, hnone, fun c k _ => hnone c k⟩
    rintro c ⟨room, hget, hin⟩
    rw [hrooms, get_mapValues, Option.map_eq_some_iff] at hget
    obtain ⟨old, -, rfl⟩ := hget
    simp at hin

/-! ### What the sections of a frame do -/

/-- Rooms, peer ids, routes and members are as they were. -/
structure SameRoutes (s s' : ServerState) : Prop where
  rooms : s'.rooms = s.rooms
  peerIds : s'.peerIds = s.peerIds
  clientMap : s'.clientMap = s.clientMap
  members : s'.members = s.members

theorem SameRoutes.refl (s : ServerState) : SameRoutes s s := ⟨rfl, rfl, rfl, rfl⟩

/-- The next section of the task notes the peer, or registers a member that is routed to it. -/
inductive Entering (C : Crypto) (keys : ServerKeys) (peer : PeerId) (s : ServerState) :
    RustTask Unit → Prop
  | noting (typ convId : ℕ) (msg : Buffer) (hconv : msg.readUInt16BE 1 = some convId) :
      Entering C keys peer s (do
        Thread.update (notePeer typ convId msg peer)
        handlerOf C keys typ msg peer convId)
  | registering (req : RustCodec.KeyReqDart)
      (hroute : get₂ s.clientMap req.convId req.senderId = some peer) :
      Entering C keys peer s (do
        Thread.update (registerMember req)
        notifyMembers C keys req.convId)

/-- How far the task of a frame of the peer is: not begun, about to note the peer or to register a
member, or with nothing ahead that touches the routes. -/
inductive Busy (C : Crypto) (keys : ServerKeys) (peer : PeerId) (s : ServerState) :
    RustTask Unit → Prop
  | start (msg : Buffer) : Busy C keys peer s (handleMessage C keys msg peer)
  | entering (t : RustTask Unit) (h : Entering C keys peer s t) : Busy C keys peer s t
  | quiet (t : RustTask Unit) (h : t.Within fun s _ s' => SameRoutes s s') : Busy C keys peer s t

theorem quiet_rules : RelayRules fun s _ s' => SameRoutes s s' where
  refl := SameRoutes.refl
  sent := fun s _ _ => SameRoutes.refl s
  drawn := fun _ => ⟨rfl, rfl, rfl, rfl⟩

/-- The routes to the peer stay. -/
def KeepsRoutes (peer : PeerId) (s s' : ServerState) : Prop :=
  ∀ c k, get₂ s.clientMap c k = some peer → get₂ s'.clientMap c k = some peer

theorem Busy.mono (h : KeepsRoutes peer s s') {t : RustTask Unit}
    (ht : Busy C keys peer s t) : Busy C keys peer s' t := by
  cases ht with
  | start msg => exact .start msg
  | entering t hent =>
    cases hent with
    | noting typ convId msg hconv => exact .entering _ (.noting typ convId msg hconv)
    | registering req hroute => exact .entering _ (.registering req (h _ _ hroute))
  | quiet t hw => exact .quiet t hw

theorem get₂_notePeer (typ convId : ℕ) (msg : Buffer) (s : ServerState) (c k : ℕ) :
    get₂ (notePeer typ convId msg peer s).clientMap c k
      = if (typ ≠ TYPE_DATA ∧ 5 ≤ msg.length) ∧ convId = c ∧ msg.readUInt16BE 3 = some k then some peer
        else get₂ s.clientMap c k := by
  rw [notePeer]
  by_cases hnames : typ ≠ TYPE_DATA ∧ 5 ≤ msg.length
  · rw [if_pos hnames]
    cases hsender : msg.readUInt16BE 3 with
    | none => simp
    | some senderId =>
      simp only [get₂_set₂, hnames, true_and, Option.some.injEq, ne_eq, not_false_eq_true]
  · simp only [hnames, if_false, false_and]

theorem SameRoutes.keepsRoutes (h : SameRoutes s s') : KeepsRoutes peer s s' := by
  intro c k hroute
  rw [h.clientMap]
  exact hroute

/-- The task of a frame after it counted its packet. -/
def counted (C : Crypto) (keys : ServerKeys) (msg : Buffer) (peer : PeerId) (count : ℕ) :
    RustTask Unit :=
  if 500 < count then pure ()
  else do
    let typ ← Thread.ofOption (index msg 0)
    if msg.length < 3 then pure ()
    else
      let convId ← Thread.ofOption (fromBeBytes msg 1)
      Thread.update (notePeer typ convId msg peer)
      handlerOf C keys typ msg peer convId

theorem handleMessage_eq (h : msg ≠ []) :
    handleMessage C keys msg peer
      = .atomic (fun s => (countPacket peer s, [])) fun s =>
          counted C keys msg peer (packetCount peer s).2 := by
  rw [handleMessage, if_neg h]
  rfl

theorem busy_counted (msg : Buffer) (count : ℕ) (s : ServerState) :
    Busy C keys peer s (counted C keys msg peer count) := by
  have hended : Busy C keys peer s (pure ()) := .quiet _ (Thread.Within.pure _)
  rw [counted]
  split
  · exact hended
  · cases htyp : index msg 0 with
    | none => exact .quiet _ trivial
    | some typ =>
      show Busy C keys peer s (if msg.length < 3 then pure () else _)
      split
      · exact hended
      · cases hconv : fromBeBytes msg 1 with
        | none => exact .quiet _ trivial
        | some convId =>
          exact .entering _ (.noting typ convId msg ((uint16_of_index msg 1).symm.trans hconv))

theorem keyReq_names {req : RustCodec.KeyReqDart}
    (h : RustCodec.decodeKeyReq msg = some (some req)) :
    21 ≤ msg.length ∧ msg.readUInt16BE 1 = some req.convId ∧ msg.readUInt16BE 3 = some req.senderId := by
  rw [RustCodec.decodeKeyReq] at h
  split at h
  · cases h
  · rename_i hlen
    simp only [Option.bind_eq_bind, uint16_slice rfl, Option.bind_eq_some_iff] at h
    obtain ⟨reqNonce, -, convId, hconv, senderId, hsender, clientPubKey, -, hreq⟩ := h
    cases hreq
    exact ⟨by omega, hconv, hsender⟩

/-- Once a frame is noted, its task registers the member of a KeyReq, who is routed to the peer, or it
touches no routes any more. -/
theorem busy_handlerOf {typ convId : ℕ} (hconv : msg.readUInt16BE 1 = some convId)
    (s : ServerState) :
    Busy C keys peer (notePeer typ convId msg peer s) (handlerOf C keys typ msg peer convId) := by
  by_cases htyp : typ = TYPE_KEY_REQ
  · subst htyp
    show Busy C keys peer _ (handleKeyReq C keys msg)
    rw [handleKeyReq]
    cases hreq : RustCodec.decodeKeyReq msg with
    | none => exact .quiet _ trivial
    | some req =>
      cases req with
      | none => exact .quiet _ trivial
      | some req =>
        refine .entering _ (.registering req ?_)
        obtain ⟨hlen, hconv', hsender⟩ := keyReq_names hreq
        rw [hconv, Option.some.injEq] at hconv'
        rw [get₂_notePeer, if_pos ⟨⟨by decide, by omega⟩, hconv', hsender⟩]
  · exact .quiet _ (handlerOf_within quiet_rules (fun _ _ _ _ => ⟨rfl, rfl, rfl, rfl⟩)
      fun _ _ _ hkey => absurd hkey htyp)

/-- **One section of a frame's task.**  It keeps the routes to the peer, and only a section that notes
or registers touches them. -/
theorem busy_step (h : Busy C keys peer s (.atomic act next)) :
    KeepsRoutes peer s (act s).1 ∧ Busy C keys peer (act s).1 (next s) ∧
      (¬ Entering C keys peer s (.atomic act next) → SameRoutes s (act s).1) := by
  generalize ht : Thread.atomic act next = t at h
  cases h with
  | start msg =>
    by_cases hmsg : msg = []
    · rw [handleMessage, if_pos hmsg] at ht
      cases ht
    · rw [handleMessage_eq hmsg] at ht
      cases ht
      have hsame : SameRoutes s (countPacket peer s) := ⟨rfl, rfl, rfl, rfl⟩
      exact ⟨hsame.keepsRoutes, busy_counted msg _ _, fun _ => hsame⟩
  | entering t hent =>
    refine ⟨?_, ?_, fun hnot => absurd hent hnot⟩
    · intro c k hroute
      cases hent with
      | noting typ convId msg hconv =>
        cases ht
        show get₂ (notePeer typ convId msg peer s).clientMap c k = _
        rw [get₂_notePeer]
        split
        · rfl
        · exact hroute
      | registering req _ =>
        cases ht
        exact hroute
    · cases hent with
      | noting typ convId msg hconv =>
        cases ht
        exact busy_handlerOf hconv s
      | registering req _ =>
        cases ht
        exact .quiet _ (notifyMembers_within quiet_rules req.convId)
  | quiet t hw =>
    subst ht
    obtain ⟨hsame, hnext⟩ := hw s
    exact ⟨hsame.keepsRoutes, .quiet _ hnext, fun _ => hsame⟩

theorem SameRoutes.leftNothing_iff (h : SameRoutes s s') :
    LeftNothing s' peer ↔ LeftNothing s peer := by
  have hin : ∀ c, InRoom s' peer c ↔ InRoom s peer c := fun c => by rw [InRoom, InRoom, h.rooms]
  have hrouted : ∀ c k, RoutedTo s' peer c k ↔ RoutedTo s peer c k :=
    fun c k => by rw [RoutedTo, RoutedTo, h.members, h.clientMap]
  constructor
  · intro hl
    have hmem : ∀ c k, ¬ RoutedTo s peer c k := fun c k hr => hl.members c k ((hrouted c k).mpr hr)
    exact ⟨fun c hr => hl.rooms c ((hin c).mpr hr), h.peerIds ▸ hl.peerIds, hmem, fun c k _ => hmem c k⟩
  · intro hl
    have hmem : ∀ c k, ¬ RoutedTo s' peer c k := fun c k hr => hl.members c k ((hrouted c k).mp hr)
    exact ⟨fun c hr => hl.rooms c ((hin c).mp hr), h.peerIds.symm ▸ hl.peerIds, hmem,
      fun c k _ => hmem c k⟩

/-- **What is entered stays.** -/
theorem Entering.not_leftNothing (h : Entering C keys peer s (.atomic act next)) :
    ¬ LeftNothing (act s).1 peer := by
  intro hleft
  generalize ht : Thread.atomic act next = t at h
  cases h with
  | noting typ convId msg =>
    cases ht
    refine absurd ?_ (hleft.rooms convId)
    have hrooms : (notePeer typ convId msg peer s).rooms = s.rooms.set convId
        (if peer ∈ (s.rooms.get convId).getD [] then (s.rooms.get convId).getD []
          else (s.rooms.get convId).getD [] ++ [peer]) := by
      rw [notePeer]
      split
      · split <;> rfl
      · rfl
    refine ⟨_, by rw [hrooms, get_set_self], ?_⟩
    split
    · assumption
    · simp
  | registering req hroute =>
    cases ht
    refine absurd ⟨⟨req.clientPubKey, ?_⟩, hroute⟩ (hleft.members req.convId req.senderId)
    show get₂ (set₂ s.members req.convId req.senderId req.clientPubKey) _ _ = _
    rw [get₂_set₂, if_pos ⟨rfl, rfl⟩]

/-- After a section of a frame's task nothing is left exactly when nothing was left before and the
section neither notes the peer nor registers a member. -/
theorem Busy.leftNothing_iff (h : Busy C keys peer s (.atomic act next)) :
    LeftNothing (act s).1 peer ↔
      LeftNothing s peer ∧ ¬ Entering C keys peer s (.atomic act next) := by
  by_cases hent : Entering C keys peer s (.atomic act next)
  · simp [hent, hent.not_leftNothing]
  · rw [((busy_step h).2.2 hent).leftNothing_iff, and_iff_left hent]

theorem Entering.atomic {t : RustTask Unit} (h : Entering C keys peer s t) :
    ∃ act next, t = .atomic act next := by
  cases h <;> exact ⟨_, _, rfl⟩

/-! ### The tasks of a connection -/

/-- The tasks of a connection: one for each frame that was read, then the cleanups of its reader and
its writer. -/
def connection (C : Crypto) (keys : ServerKeys) (peer : PeerId) (s : ServerState)
    (frames : List Buffer) (cleanups : ℕ) : RustPool where
  state := s
  threads :=
    frames.map (handleMessage C keys · peer) ++ List.replicate cleanups (cleanupPeer C keys peer)

/-- A schedule: turns of tasks, with time passing in between. -/
def Event.Schedules : Event → Prop
  | .turn _ => True
  | .tick _ => True
  | _ => False

instance (e : Event) : Decidable e.Schedules :=
  match e with
  | .turn _ => isTrue trivial
  | .tick _ => isTrue trivial
  | .message _ _ => isFalse id
  | .connect _ => isFalse id
  | .closed _ => isFalse id

/-- Every task came to its end. -/
def Finished (q : RustPool) : Prop := ∀ t ∈ q.threads, t.ended = true

instance (q : RustPool) : Decidable (Finished q) := inferInstanceAs (Decidable (∀ t ∈ q.threads, _))

/-- The pool after a schedule. -/
def poolOf (C : Crypto) (keys : ServerKeys) (q : RustPool) (es : List Event) : RustPool :=
  (run C keys es q).state

theorem poolOf_cons (q : RustPool) (e : Event) (es : List Event) :
    poolOf C keys q (e :: es) = poolOf C keys (step C keys e q).state es := rfl

theorem poolOf_append (q : RustPool) (es es' : List Event) :
    poolOf C keys q (es ++ es') = poolOf C keys (poolOf C keys q es) es' := by
  rw [poolOf, run, Prog.eventLoop_append]
  rfl

/-- No section of the schedule notes the peer or registers a member that is routed to it. -/
def Untouched (C : Crypto) (keys : ServerKeys) (peer : PeerId) : RustPool → List Event → Prop
  | _, [] => True
  | q, e :: es =>
    (∀ i t, e = .turn i → q.threads[i]? = some t → ¬ Entering C keys peer q.state t) ∧
      Untouched C keys peer (step C keys e q).state es

/-- All tasks are busy with frames of the peer. -/
def AllBusy (C : Crypto) (keys : ServerKeys) (peer : PeerId) (q : RustPool) : Prop :=
  ∀ t ∈ q.threads, Busy C keys peer q.state t

/-- One event of a schedule, when all tasks are busy with frames. -/
theorem allBusy_step (hq : AllBusy C keys peer q) {e : Event} (he : e.Schedules) :
    AllBusy C keys peer (step C keys e q).state ∧
      (LeftNothing (step C keys e q).state.state peer ↔ LeftNothing q.state peer ∧
        ∀ i t, e = .turn i → q.threads[i]? = some t → ¬ Entering C keys peer q.state t) := by
  cases e with
  | turn i =>
    show AllBusy C keys peer (Pool.turn i q).state ∧ (LeftNothing (Pool.turn i q).state.state peer ↔ _)
    rcases Pool.turn_cases i q with ⟨act, next, hget, hstate⟩ | ⟨hidle, hstate⟩
    · have hbusy := hq _ (List.mem_of_getElem? hget)
      obtain ⟨hroutes, hnext, -⟩ := busy_step hbusy
      rw [hstate]
      refine ⟨fun t ht => ?_, ?_⟩
      · rcases List.mem_or_eq_of_mem_set ht with hold | rfl
        · exact (hq t hold).mono hroutes
        · exact hnext
      · rw [hbusy.leftNothing_iff]
        refine and_congr_right fun _ => ⟨?_, fun hnot => hnot i _ rfl hget⟩
        rintro hnot j t hj ht
        cases hj
        cases hget.symm.trans ht
        exact hnot
    · rw [hstate]
      refine ⟨hq, (and_iff_left ?_).symm⟩
      rintro j t hj ht hent
      cases hj
      obtain ⟨act, next, rfl⟩ := hent.atomic
      exact hidle act next ht
  | tick ms =>
    have hsame : SameRoutes q.state (step C keys (.tick ms) q).state.state := ⟨rfl, rfl, rfl, rfl⟩
    refine ⟨fun t ht => (hq t ht).mono hsame.keepsRoutes, ?_⟩
    rw [hsame.leftNothing_iff]
    simp
  | message msg p => exact he.elim
  | connect p => exact he.elim
  | closed p => exact he.elim

/-- **After the last cleanup** nothing is left at the end exactly when nothing was left then and no
later section notes the peer or registers a member. -/
theorem leftNothing_iff_untouched (hes : ∀ e ∈ es, e.Schedules) :
    ∀ {q : RustPool}, AllBusy C keys peer q →
      (LeftNothing (poolOf C keys q es).state peer ↔
        LeftNothing q.state peer ∧ Untouched C keys peer q es) := by
  induction es with
  | nil =>
    intro q _
    exact (and_iff_left trivial).symm
  | cons e es ih =>
    intro q hq
    obtain ⟨hbusy, hleft⟩ := allBusy_step hq (hes e (by simp))
    rw [poolOf_cons, ih (fun e' he' => hes e' (by simp [he'])) hbusy, hleft, and_assoc, Untouched]

/-! ### Cleanups that have not begun -/

/-- Where the tasks of a connection are after a schedule: a cleanup that had no turn has not begun, and
every other task is busy with a frame or done with its cleanup. -/
structure Tracked (C : Crypto) (keys : ServerKeys) (peer : PeerId) (frames : List Buffer) (cleanups : ℕ)
    (es : List Event) (q : RustPool) : Prop where
  length : q.threads.length = frames.length + cleanups
  threads : ∀ j t, q.threads[j]? = some t →
    if frames.length ≤ j ∧ .turn j ∉ es then t = cleanupPeer C keys peer else Busy C keys peer q.state t

variable {frames : List Buffer} {cleanups : ℕ}

theorem tracked_connection (s : ServerState) :
    Tracked C keys peer frames cleanups [] (connection C keys peer s frames cleanups) := by
  constructor
  · simp [connection]
  · intro j t ht
    rw [connection, List.getElem?_append, List.length_map] at ht
    split at ht
    · rename_i hlt
      rw [if_neg (by omega)]
      obtain ⟨msg, -, rfl⟩ := List.mem_map.mp (List.mem_of_getElem? ht)
      exact .start msg
    · rename_i hge
      rw [if_pos ⟨by omega, by simp⟩]
      exact List.eq_of_mem_replicate (List.mem_of_getElem? ht)

theorem Tracked.others (h : Tracked C keys peer frames cleanups es q) {e : Event}
    (hroutes : KeepsRoutes peer q.state s') {j : ℕ} (hj : e ≠ .turn j) {t : RustTask Unit}
    (ht : q.threads[j]? = some t) :
    if frames.length ≤ j ∧ .turn j ∉ es ++ [e] then t = cleanupPeer C keys peer
      else Busy C keys peer s' t := by
  have hmem : (Event.turn j ∉ es ++ [e]) ↔ Event.turn j ∉ es := by
    simp [Ne.symm hj]
  have hold := h.threads j t ht
  by_cases hc : frames.length ≤ j ∧ Event.turn j ∉ es
  · rw [if_pos hc] at hold
    rw [if_pos ⟨hc.1, hmem.mpr hc.2⟩]
    exact hold
  · rw [if_neg hc] at hold
    rw [if_neg fun h' => hc ⟨h'.1, hmem.mp h'.2⟩]
    exact hold.mono hroutes

theorem Tracked.turned (h : Tracked C keys peer frames cleanups es q)
    {i : ℕ} (hroutes : KeepsRoutes peer q.state s') {t' : RustTask Unit}
    (hbusy : Busy C keys peer s' t') :
    Tracked C keys peer frames cleanups (es ++ [.turn i]) ⟨s', q.threads.set i t'⟩ := by
  constructor
  · rw [List.length_set]
    exact h.length
  · intro j t ht
    by_cases hij : i = j
    · subst hij
      rw [if_neg (by simp)]
      rw [List.getElem?_set] at ht
      simp only [if_true] at ht
      split at ht
      · cases ht
        exact hbusy
      · cases ht
    · rw [List.getElem?_set_ne hij] at ht
      exact h.others hroutes (by simpa using hij) ht

theorem cleanupPeer_eq : cleanupPeer C keys peer
    = .atomic (fun s => (removePeer peer s, [])) fun s =>
        Thread.forEach (notifyMembers C keys) (roomsOf s peer) := rfl

theorem removePeer_keepsRoutes (s : ServerState) : KeepsRoutes peer s (removePeer peer s) := by
  intro c k hroute
  rw [(removePeer_fields s peer).2.2]
  exact hroute

theorem busy_notify (convs : List ℕ) (s : ServerState) :
    Busy C keys peer s (Thread.forEach (notifyMembers C keys) convs) :=
  .quiet _ (Thread.Within.forEach fun convId _ => notifyMembers_within quiet_rules convId)

/-- **One event keeps track of the tasks.** -/
theorem Tracked.step (h : Tracked C keys peer frames cleanups es q) {e : Event} (he : e.Schedules) :
    Tracked C keys peer frames cleanups (es ++ [e]) (step C keys e q).state := by
  cases e with
  | turn i =>
    show Tracked C keys peer frames cleanups _ (Pool.turn i q).state
    rcases Pool.turn_cases i q with ⟨act, next, hget, hstate⟩ | ⟨hidle, hstate⟩
    · have hthread := h.threads i _ hget
      rw [hstate]
      split at hthread
      · rw [cleanupPeer_eq] at hthread
        cases hthread
        exact h.turned (removePeer_keepsRoutes q.state) (busy_notify _ _)
      · obtain ⟨hroutes, hbusy, -⟩ := busy_step hthread
        exact h.turned hroutes hbusy
    · rw [hstate]
      refine ⟨h.length, fun j t ht => ?_⟩
      by_cases hij : i = j
      · -- a task at its end is no cleanup that has yet to begin
        subst hij
        have hthread := h.threads i t ht
        rw [if_neg (by simp)]
        split at hthread
        · rw [hthread, cleanupPeer_eq] at ht
          exact absurd ht (hidle _ _)
        · exact hthread
      · exact h.others (fun _ _ hroute => hroute) (by simpa using hij) ht
  | tick ms =>
    have hroutes : KeepsRoutes peer q.state (RustServer.step C keys (.tick ms) q).state.state :=
      fun _ _ hroute => hroute
    exact ⟨h.length, fun j t ht => h.others hroutes (by simp) ht⟩
  | message msg p => exact he.elim
  | connect p => exact he.elim
  | closed p => exact he.elim

theorem tracked_poolOf (s : ServerState) (hes : ∀ e ∈ es, e.Schedules) :
    Tracked C keys peer frames cleanups es
      (poolOf C keys (connection C keys peer s frames cleanups) es) := by
  induction es using List.reverseRecOn with
  | nil => exact tracked_connection s
  | append_singleton es e ih =>
    rw [poolOf_append]
    exact (ih fun e' he' => hes e' (by simp [he'])).step (hes e (by simp))

/-- The turn of task `i` begins the last cleanup that begins at all. -/
structure LastCleanup (frames : List Buffer) (cleanups : ℕ) (before : List Event) (i : ℕ) : Prop where
  isCleanup : frames.length ≤ i ∧ i < frames.length + cleanups
  begins : Event.turn i ∉ before
  others : ∀ j, frames.length ≤ j → j < frames.length + cleanups → j ≠ i → Event.turn j ∈ before

/-- Something that is not so at first and is so in the end becomes so at some event. -/
theorem exists_first {P : List Event → Prop} (hfirst : ¬ P []) (hlast : P es) :
    ∃ before e after, es = before ++ e :: after ∧ ¬ P before ∧ P (before ++ [e]) := by
  induction es using List.reverseRecOn with
  | nil => exact absurd hlast hfirst
  | append_singleton es e ih =>
    by_cases hes : P es
    · obtain ⟨before, e', after, rfl, hbefore, hthen⟩ := ih hes
      exact ⟨before, e', after ++ [e], by simp, hbefore, hthen⟩
    · exact ⟨es, e, [], rfl, hes, hlast⟩

/-- In a schedule that brings all tasks to their end, some turn begins the last cleanup. -/
theorem exists_lastCleanup (hclean : 0 < cleanups) (hes : ∀ e ∈ es, e.Schedules)
    (hfin : Finished (poolOf C keys (connection C keys peer s frames cleanups) es)) :
    ∃ before i after, es = before ++ .turn i :: after ∧ LastCleanup frames cleanups before i := by
  have htracked : Tracked C keys peer frames cleanups es
      (poolOf C keys (connection C keys peer s frames cleanups) es) := tracked_poolOf s hes
  have hbegun : ∀ j, frames.length ≤ j → j < frames.length + cleanups → Event.turn j ∈ es := by
    intro j hj hlt
    by_contra hmem
    obtain ⟨t, ht⟩ : ∃ t, (poolOf C keys (connection C keys peer s frames cleanups) es).threads[j]?
        = some t := by
      rw [← htracked.length] at hlt
      exact ⟨_, List.getElem?_eq_getElem hlt⟩
    have hthread := htracked.threads j t ht
    rw [if_pos ⟨hj, hmem⟩, cleanupPeer_eq] at hthread
    have hended := hfin t (List.mem_of_getElem? ht)
    rw [hthread] at hended
    cases hended
  obtain ⟨before, e, after, rfl, hnot, hall⟩ := exists_first
    (P := fun es => ∀ j, frames.length ≤ j → j < frames.length + cleanups → Event.turn j ∈ es)
    (fun h => by simpa using h frames.length (le_refl _) (by omega)) hbegun
  simp only [not_forall] at hnot
  obtain ⟨i, hi, hlt, hmem⟩ := hnot
  have he : e = .turn i := by
    rcases List.mem_append.mp (hall i hi hlt) with h | h
    · exact absurd h hmem
    · exact (List.mem_singleton.mp h).symm
  subst he
  refine ⟨before, i, after, rfl, ⟨hi, hlt⟩, hmem, fun j hj hjlt hne => ?_⟩
  rcases List.mem_append.mp (hall j hj hjlt) with h | h
  · exact h
  · exact absurd (by simpa using h) hne

/-- **What a closed connection leaves.**  From any state of the server, for all frames of a connection,
and for every schedule of their tasks and of the cleanups that brings all of them to their end: nothing
is left of the connection exactly when, as its last cleanup begins, every member routed to the peer is
the one it speaks for, in a room it is in, and no section still ahead notes the peer or registers a
member routed to it. -/
theorem closed_leaves_nothing_iff (C : Crypto) (keys : ServerKeys) (peer : PeerId) (s : ServerState)
    (frames : List Buffer) {cleanups : ℕ} (hclean : 0 < cleanups) {es : List Event}
    (hes : ∀ e ∈ es, e.Schedules)
    (hfin : Finished (poolOf C keys (connection C keys peer s frames cleanups) es)) :
    ∃ before i after, es = before ++ .turn i :: after ∧ LastCleanup frames cleanups before i ∧
      (LeftNothing (poolOf C keys (connection C keys peer s frames cleanups) es).state peer ↔
        SpeaksForRouted (poolOf C keys (connection C keys peer s frames cleanups) before).state peer ∧
          Untouched C keys peer
            (poolOf C keys (connection C keys peer s frames cleanups) (before ++ [.turn i])) after) := by
  obtain ⟨before, i, after, rfl, hlast⟩ := exists_lastCleanup hclean hes hfin
  refine ⟨before, i, after, rfl, hlast, ?_⟩
  obtain ⟨q, hq⟩ : ∃ q, q = poolOf C keys (connection C keys peer s frames cleanups) before := ⟨_, rfl⟩
  have htracked : Tracked C keys peer frames cleanups before q := by
    rw [hq]
    exact tracked_poolOf s fun e he => hes e (by simp [he])
  -- the turn begins the cleanup
  obtain ⟨t, ht⟩ : ∃ t, q.threads[i]? = some t := by
    have hlt := hlast.isCleanup.2
    rw [← htracked.length] at hlt
    exact ⟨_, List.getElem?_eq_getElem hlt⟩
  have hthread := htracked.threads i t ht
  rw [if_pos ⟨hlast.isCleanup.1, hlast.begins⟩, cleanupPeer_eq] at hthread
  have hremoved : (step C keys (.turn i) q).state.state = removePeer peer q.state := by
    show (Pool.turn i q).state.state = _
    rw [Pool.turn, ht, hthread]
  -- after it all tasks are busy with frames or done with their cleanup
  have hbusy : AllBusy C keys peer (step C keys (.turn i) q).state := by
    have hthen := htracked.step (e := .turn i) trivial
    intro t ht
    obtain ⟨j, hj⟩ := List.getElem?_of_mem ht
    have hlt : j < frames.length + cleanups := by
      rw [← hthen.length]
      exact (List.getElem?_eq_some_iff.mp hj).1
    have hbusy := hthen.threads j t hj
    rwa [if_neg ?_] at hbusy
    rintro ⟨hle, hmem⟩
    by_cases hji : j = i
    · exact hmem (by simp [hji])
    · exact hmem (by simp [hlast.others j hle hlt hji])
  have hafter := @leftNothing_iff_untouched C keys peer after (fun e he => hes e (by simp [he])) _ hbusy
  rw [hremoved, leftNothing_removePeer_iff] at hafter
  rw [poolOf_append, ← hq, poolOf_cons, poolOf_append, ← hq]
  exact hafter

/-! ### Two schedules -/

/-- A client connects over TCP, asks to join room `5` as member `1`, and hangs up; its reader and its
writer clean up. -/
def joinAndLeave : RustPool :=
  connection sumCrypto GroupServer.sumServer (.tcp "10.0.0.1:5000") {}
    [GroupServer.sumKeyReq 5 1 (bytesBE 65 1)] 2

/-- The frame is handled before the cleanups. -/
def inOrder : List Event :=
  List.replicate 12 (.turn 0) ++ List.replicate 3 (.turn 1) ++ List.replicate 3 (.turn 2)

/-- Handled in this order, the connection leaves nothing, and its last cleanup found what it needs. -/
theorem inOrder_leaves_nothing :
    LeftNothing (poolOf sumCrypto GroupServer.sumServer joinAndLeave inOrder).state
        (.tcp "10.0.0.1:5000") ∧
      ∃ before i after, inOrder = before ++ .turn i :: after ∧
        SpeaksForRouted (poolOf sumCrypto GroupServer.sumServer joinAndLeave before).state
          (.tcp "10.0.0.1:5000") ∧
        Untouched sumCrypto GroupServer.sumServer (.tcp "10.0.0.1:5000")
          (poolOf sumCrypto GroupServer.sumServer joinAndLeave (before ++ [.turn i])) after := by
  have hrooms : (poolOf sumCrypto GroupServer.sumServer joinAndLeave inOrder).state.rooms.entries
      = [(5, [])] := by decide +kernel
  have hmembers : (poolOf sumCrypto GroupServer.sumServer joinAndLeave inOrder).state.members.entries
      = [] := by decide +kernel
  have hrouted : ∀ c k, ¬ RoutedTo (poolOf sumCrypto GroupServer.sumServer joinAndLeave inOrder).state
      (.tcp "10.0.0.1:5000") c k := by
    rintro c k ⟨⟨key, hkey⟩, -⟩
    obtain ⟨mems, hget, -⟩ := Option.bind_eq_some_iff.mp hkey
    have hmem := mem_entries_iff_get.mpr hget
    rw [hmembers] at hmem
    cases hmem
  have hleft : LeftNothing (poolOf sumCrypto GroupServer.sumServer joinAndLeave inOrder).state
      (.tcp "10.0.0.1:5000") := by
    refine ⟨?_, by decide +kernel, hrouted, fun c k _ => hrouted c k⟩
    rintro c ⟨room, hget, hin⟩
    have hmem := mem_entries_iff_get.mpr hget
    rw [hrooms, List.mem_singleton, Prod.mk.injEq] at hmem
    rw [hmem.2] at hin
    cases hin
  have hes : ∀ e ∈ inOrder, e.Schedules := by decide
  obtain ⟨before, i, after, hsplit, -, hiff⟩ := closed_leaves_nothing_iff sumCrypto
    GroupServer.sumServer (.tcp "10.0.0.1:5000") {} [GroupServer.sumKeyReq 5 1 (bytesBE 65 1)]
    (by decide : 0 < 2) hes (by decide +kernel)
  exact ⟨hleft, before, i, after, hsplit, hiff.mp hleft⟩

/-- The cleanups come first. -/
def overtaken : List Event :=
  List.replicate 3 (.turn 1) ++ List.replicate 3 (.turn 2) ++ List.replicate 12 (.turn 0)

/-- **A late task leaves a ghost.**  All tasks are done, and the closed peer is in the room, has a peer
id, and is the only route to the registered member that is the creator of the room. -/
theorem overtaken_leaves_ghost :
    Finished (poolOf sumCrypto GroupServer.sumServer joinAndLeave overtaken) ∧
      InRoom (poolOf sumCrypto GroupServer.sumServer joinAndLeave overtaken).state
        (.tcp "10.0.0.1:5000") 5 ∧
      (poolOf sumCrypto GroupServer.sumServer joinAndLeave overtaken).state.peerIds.get
        (.tcp "10.0.0.1:5000") = some 1 ∧
      RoutedTo (poolOf sumCrypto GroupServer.sumServer joinAndLeave overtaken).state
        (.tcp "10.0.0.1:5000") 5 1 ∧
      (poolOf sumCrypto GroupServer.sumServer joinAndLeave overtaken).state.creator.get 5 = some 1 := by
  refine ⟨by decide +kernel, ⟨[.tcp "10.0.0.1:5000"], by decide +kernel, by simp⟩, by decide +kernel,
    ⟨⟨bytesBE 65 1, by decide +kernel⟩, by decide +kernel⟩, by decide +kernel⟩

end DartProtocol.RustServer
