import DartProtocol.Membership
import DartProtocol.WireRoundTrip

/-!
# Announcing a roster

`notifyMembers` computes a shared secret with every registered key, in the order of registration, and
an exception on the way ends the announcement.  `removePeer` makes one announcement for every
conversation of the departed peer, and the same exception ends that loop too.

* `notifyMembers_isSome_iff` — an announcement is completed exactly when all registered keys are
  curve points and the roster fits its count field;
* `forEach_leave_isSome_iff` — a departure is completed exactly when this holds of what is left of
  every room;
* `notifyMembers_tells` — an announcement sends one frame to each member, in the order of registration;
* `announcement_completes_iff` — when everybody is told, by an announcement and by a departure;
* `rooms_led_by_one_member` — every room has one creator, and every announcement says so.
-/

namespace DartProtocol.GroupServer

open Prog InsertionMap Buffer

variable {C : Crypto} {keys : ServerKeys}

/-- Every registered key is a curve point, and the roster fits its two-byte count. -/
def Announceable (C : Crypto) (keys : ServerKeys) (mems : NumMap Buffer) : Prop :=
  (∀ e ∈ mems.entries, (pairwiseKey C keys.privateKey e.2).isSome) ∧ mems.size < 65536

instance (C : Crypto) (keys : ServerKeys) (mems : NumMap Buffer) :
    Decidable (Announceable C keys mems) :=
  inferInstanceAs (Decidable (_ ∧ _))

/-- The transport of a peer carries frames of some length. -/
def Carries (s : GroupServer) (peer : Peer) (length : ℕ) : Prop :=
  match peer.link with
  | .udp address port => address ≠ "" ∧ port ≠ 0
  | .tcp _ => length < 65536
  | .ws socket => socket ∉ s.closedSockets

instance (s : GroupServer) (peer : Peer) (length : ℕ) : Decidable (s.Carries peer length) := by
  unfold Carries
  split <;> infer_instance

theorem wireForm_isSome_iff {s : GroupServer} {buf : Buffer} {peer : Peer} :
    (s.wireForm buf peer).isSome ↔ s.Carries peer buf.length := by
  rw [wireForm, Carries]
  cases peer.link with
  | udp address port =>
    simp only
    split <;> simp_all
  | tcp socket =>
    simp only [Buffer.writeUInt16BE, Buffer.writeUIntBE, Option.isSome_map]
    split <;> simp_all [Buffer.alloc]
  | ws socket =>
    simp only
    split <;> simp_all

/-- Whoever is in a room can be told: the server is open, and the transport of each member carries a
roster frame, which has 67 bytes for every entry and 101 more. -/
def Reaches (s : GroupServer) (convId : ℕ) (mems : NumMap Buffer) : Prop :=
  ∀ e ∈ mems.entries, s.closed = false ∧
    ∀ peer ∈ get₂ s.clientMap convId e.1, s.Carries peer (101 + 67 * mems.size)

instance (s : GroupServer) (convId : ℕ) (mems : NumMap Buffer) :
    Decidable (s.Reaches convId mems) := by
  unfold Reaches
  infer_instance

/-- A roster frame for a member, built in a state and handed to the peer that speaks for it. -/
def Tells (C : Crypto) (keys : ServerKeys) (s : GroupServer) (convId : ℕ) (mems : NumMap Buffer)
    (e : ℕ × Buffer) (o : ServerOutput) : Prop :=
  ∃ peer transportKey nonce buf, get₂ s.clientMap convId e.1 = some peer ∧
    pairwiseKey C keys.privateKey e.2 = some transportKey ∧ nonce.length = 12 ∧
    Codec.encodeMemberInfo C (s.memberInfo C keys convId mems e.1) transportKey nonce = some buf ∧
    o = .sent buf peer (s.wireForm buf peer)

/-- A member was told: such a frame went over its transport. -/
def Announced (C : Crypto) (keys : ServerKeys) (s : GroupServer) (convId : ℕ) (mems : NumMap Buffer)
    (e : ℕ × Buffer) (os : List ServerOutput) : Prop :=
  ∃ buf peer wire, Tells C keys s convId mems e (.sent buf peer (some wire)) ∧
    ServerOutput.sent buf peer (some wire) ∈ os

variable {s : GroupServer} {convId : ℕ} {mems : NumMap Buffer} {os : List ServerOutput}

theorem Announced.mono {e : ℕ × Buffer}
    {os' : List ServerOutput} (h : Announced C keys s convId mems e os) (hsub : os ⊆ os') :
    Announced C keys s convId mems e os' := by
  obtain ⟨buf, peer, wire, htells, hmem⟩ := h
  exact ⟨buf, peer, wire, htells, hsub hmem⟩

/-- The frame depends on the routes, the open sockets and the creator of its conversation only. -/
theorem Announced.congr {t : GroupServer} {e : ℕ × Buffer} (h : Announced C keys t convId mems e os)
    (hroute : t.clientMap = s.clientMap) (hsockets : t.closedSockets = s.closedSockets)
    (hcre : t.creator.get convId = s.creator.get convId) :
    Announced C keys s convId mems e os := by
  obtain ⟨buf, peer, wire, ⟨peer', key, nonce, buf', hpeer, hkey, hnonce, hbuf, ho⟩, hmem⟩ := h
  refine ⟨buf, peer, wire, ⟨peer', key, nonce, buf', ?_, hkey, hnonce, ?_, ?_⟩, hmem⟩
  · rw [← hroute]
    exact hpeer
  · rw [memberInfo, ← hcre]
    exact hbuf
  · rw [ho, wireForm, wireForm, hsockets]

theorem Reaches.congr {t : GroupServer} (h : s.Reaches convId mems)
    (hroute : t.clientMap = s.clientMap) (hsockets : t.closedSockets = s.closedSockets)
    (hclosed : t.closed = s.closed) : t.Reaches convId mems := by
  intro e he
  rw [hroute, hclosed]
  refine ⟨(h e he).1, fun peer hpeer => ?_⟩
  have hcarries := (h e he).2 peer hpeer
  rw [Carries] at hcarries ⊢
  rw [hsockets]
  exact hcarries

theorem Tells.route {e : ℕ × Buffer} {buf : Buffer} {peer : Peer} {wire : Option Buffer}
    (h : Tells C keys s convId mems e (.sent buf peer wire)) :
    get₂ s.clientMap convId e.1 = some peer := by
  obtain ⟨peer', _, _, _, hpeer, -, -, -, ho⟩ := h
  rw [ServerOutput.sent.injEq] at ho
  rw [ho.2.1]
  exact hpeer

section Frames

variable (hC : C.Lawful) (hbody : LengthPreserving C)
  (hserver : (C.getPublicKey keys.privateKey).length = 65)
include hC hbody hserver

/-- **The transport carries a roster frame** exactly when it carries frames of its length. -/
theorem Tells.carried_iff {e : ℕ × Buffer} {buf : Buffer} {peer : Peer} {wire : Option Buffer}
    (h : Tells C keys s convId mems e (.sent buf peer wire)) :
    wire.isSome ↔ s.Carries peer (101 + 67 * mems.size) := by
  obtain ⟨peer, key, nonce, buf, -, -, hnonce, hbuf, ho⟩ := h
  cases ho
  rw [wireForm_isSome_iff, Wire.encodeMemberInfo_length hC hbody hnonce hserver hbuf]
  show s.Carries peer (101 + 67 * (rosterEntries mems).length) ↔ _
  rw [rosterEntries, List.length_map, InsertionMap.size]

end Frames

/-! ### One announcement -/

theorem notifyMember_run {t : GroupServer} {e : ℕ × Buffer} {transportKey : Buffer} {peer : Peer}
    (hkey : pairwiseKey C keys.privateKey e.2 = some transportKey)
    (hpeer : get₂ t.clientMap convId e.1 = some peer) :
    notifyMember C keys convId mems e t
      = match Codec.encodeMemberInfo C (t.memberInfo C keys convId mems e.1) transportKey
          (keys.random t.draws 12) with
        | none => ⟨none, { t with draws := t.draws + 1 }, []⟩
        | some buf => ⟨some (), { t with draws := t.draws + 1 },
            sends { t with draws := t.draws + 1 } [(buf, peer)]⟩ := by
  rw [notifyMember, hkey, ofOption_some_bind, get_bind, hpeer]
  show (randomBytes keys 12 >>= fun nonce => ofOption _ >>= fun buf => sendToPeer buf peer) t = _
  rw [bind_of_some (a := keys.random t.draws 12) rfl]
  show Outcome.prepend [] ((ofOption (Codec.encodeMemberInfo C
    (t.memberInfo C keys convId mems e.1) transportKey (keys.random t.draws 12)) >>= fun buf =>
      sendToPeer buf peer) { t with draws := t.draws + 1 }) = _
  cases Codec.encodeMemberInfo C (t.memberInfo C keys convId mems e.1) transportKey
    (keys.random t.draws 12) with
  | none => rfl
  | some buf =>
    rw [ofOption_some_bind, sendToPeer_run]
    rfl

section Room

variable {s : GroupServer} {convId : ℕ} {mems : NumMap Buffer}

variable {t : GroupServer}

/-- A roster frame of a room can be built exactly when the roster fits its count. -/
theorem Rooms.encode_isSome_iff (hs : Rooms s) (hmem : s.members.get convId = some mems)
    {e : ℕ × Buffer} (he : e ∈ mems.entries) {key : Buffer} (hkey : key.length = 32)
    (nonce : Buffer) :
    (Codec.encodeMemberInfo C (t.memberInfo C keys convId mems e.1) key nonce).isSome
      ↔ mems.size < 65536 := by
  have hnarrow : ∀ e ∈ mems.entries, convId < 65536 ∧ e.1 < 65536 := by
    intro e he
    apply hs.narrow convId e.1
    rw [get₂, hmem, Option.bind_some, mem_entries_iff_get.mp he]
    rfl
  have hids : ∀ m ∈ rosterEntries mems, m.senderId < 65536 := by
    intro m hm
    obtain ⟨e', he', rfl⟩ := List.mem_map.mp hm
    exact (hnarrow e' he').2
  have hcount : (rosterEntries mems).length = mems.size := by
    rw [rosterEntries, List.length_map, InsertionMap.size]
  rw [← hcount]
  exact Codec.encodeMemberInfo_isSome_iff C nonce (by decide : TYPE_MEMBER_INFO < 256)
    (hnarrow e he).1 (hnarrow e he).2 hids hkey

/-- One turn of an announcement goes through exactly when the key is a curve point and the roster
fits. -/
theorem Rooms.notifyMember_isSome_iff (hC : C.Lawful) (hs : Rooms s)
    (hmem : s.members.get convId = some mems) (ht : SameRooms s [] t)
    {e : ℕ × Buffer} (he : e ∈ mems.entries) :
    (notifyMember C keys convId mems e t).result.isSome
      ↔ (pairwiseKey C keys.privateKey e.2).isSome ∧ mems.size < 65536 := by
  cases hkey : pairwiseKey C keys.privateKey e.2 with
  | none =>
    rw [notifyMember, hkey]
    simp
  | some key =>
    have hroute : (get₂ t.clientMap convId e.1).isSome := by
      rw [SameRooms] at ht
      rw [ht]
      apply hs.routed convId e.1
      rw [get₂, hmem, Option.bind_some, mem_entries_iff_get.mp he]
      rfl
    obtain ⟨peer, hpeer⟩ := Option.isSome_iff_exists.mp hroute
    have hfits : (Codec.encodeMemberInfo C (t.memberInfo C keys convId mems e.1) key
        (keys.random t.draws 12)).isSome ↔ mems.size < 65536 :=
      hs.encode_isSome_iff hmem he (pairwiseKey_length hC hkey) _
    rw [notifyMember_run hkey hpeer, ← hfits]
    cases Codec.encodeMemberInfo C (t.memberInfo C keys convId mems e.1) key
      (keys.random t.draws 12) with
    | none => simp
    | some buf => simp

/-- A turn tells its member, unless an exception leaves it before it sends anything. -/
theorem notifyMember_tells (hkeys : keys.Lawful) (ht : SameRooms s [] t) (hopen : s.closed = false)
    {e : ℕ × Buffer} (hroute : (get₂ s.clientMap convId e.1).isSome) :
    ((notifyMember C keys convId mems e t).result = none ∧
        (notifyMember C keys convId mems e t).output = []) ∨
      ((notifyMember C keys convId mems e t).result.isSome ∧
        ∃ o, (notifyMember C keys convId mems e t).output = [o] ∧
          Tells C keys s convId mems e o) := by
  rw [SameRooms] at ht
  obtain ⟨peer, hpeer⟩ := Option.isSome_iff_exists.mp hroute
  have hpeer' : get₂ t.clientMap convId e.1 = some peer := by
    rw [ht]
    exact hpeer
  have hinfo : t.memberInfo C keys convId mems e.1 = s.memberInfo C keys convId mems e.1 := by
    rw [ht]
    rfl
  cases hkey : pairwiseKey C keys.privateKey e.2 with
  | none =>
    rw [notifyMember, hkey]
    exact .inl ⟨rfl, rfl⟩
  | some key =>
    rw [notifyMember_run hkey hpeer']
    cases hbuf : Codec.encodeMemberInfo C (t.memberInfo C keys convId mems e.1) key
        (keys.random t.draws 12) with
    | none => exact .inl ⟨rfl, rfl⟩
    | some buf =>
      rw [hinfo] at hbuf
      have hclosed : t.closed = false := by
        rw [ht]
        exact hopen
      have hwire : wireForm { t with draws := t.draws + 1 } buf peer = s.wireForm buf peer := by
        rw [ht]
        rfl
      refine .inr ⟨rfl, .sent buf peer (s.wireForm buf peer), ?_, peer, key, _, buf, hpeer, hkey,
        hkeys _ _, hbuf, rfl⟩
      show sends { t with draws := t.draws + 1 } [(buf, peer)] = _
      rw [sends, if_neg (by rw [hclosed]; simp), List.map_singleton, hwire]

theorem notifyMember_sameRooms (ht : SameRooms s [] t) (e : ℕ × Buffer) :
    SameRooms s [] (notifyMember C keys convId mems e t).state :=
  sameRooms_relay.comp.trans ht (notifyMember_obeys sameRooms_relay convId mems e t)

/-- **An announcement is completed** exactly when every registered key of the room is a curve point
and the roster fits its count. -/
theorem Rooms.notifyMembers_isSome_iff (hC : C.Lawful) (hs : Rooms s) :
    (notifyMembers C keys convId s).result.isSome
      ↔ ∀ mems, s.members.get convId = some mems → Announceable C keys mems := by
  rw [notifyMembers, get_bind]
  cases hmem : s.members.get convId with
  | none => simp
  | some mems =>
    have hkeep : ∀ e ∈ mems.entries, ∀ t, SameRooms s [] t →
        SameRooms s [] (notifyMember C keys convId mems e t).state :=
      fun e _ t ht => notifyMember_sameRooms ht e
    have hloop := forEach_isSome_iff hkeep
      (fun e he t ht => hs.notifyMember_isSome_iff hC hmem ht he) (rfl : SameRooms s [] s)
    have hall : (∀ e ∈ mems.entries,
        (pairwiseKey C keys.privateKey e.2).isSome ∧ mems.size < 65536)
        ↔ Announceable C keys mems := by
      constructor
      · intro h
        refine ⟨fun e he => (h e he).1, ?_⟩
        cases hentries : mems.entries with
        | nil => rw [InsertionMap.size, hentries]; decide
        | cons e es => exact (h e (by rw [hentries]; exact List.mem_cons_self)).2
      · exact fun h e he => ⟨h.1 e he, h.2⟩
    have hsome : ∀ mems', some mems = some mems' → mems = mems' := fun _ h => Option.some.inj h
    have hwhole : (∀ mems', some mems = some mems' → Announceable C keys mems')
        ↔ Announceable C keys mems :=
      ⟨fun h => h mems rfl, fun h mems' he => (hsome mems' he) ▸ h⟩
    rw [hwhole, ← hall, ← hloop]

/-- **An announcement sends one frame to each member**, in the order of registration, until it is left
by an exception. -/
theorem Rooms.notifyMembers_tells (hkeys : keys.Lawful) (hs : Rooms s) (hopen : s.closed = false)
    (hmem : s.members.get convId = some mems) :
    ∃ n, List.Forall₂ (Tells C keys s convId mems) (mems.entries.take n)
        (notifyMembers C keys convId s).output ∧
      ((notifyMembers C keys convId s).result.isSome → mems.entries.length ≤ n) := by
  rw [notifyMembers, get_bind, hmem]
  refine forEach_outputs (I := SameRooms s []) (fun e _ t ht => notifyMember_sameRooms ht e)
    (fun e he t ht => ?_) (rfl : SameRooms s [] s)
  refine notifyMember_tells hkeys ht hopen (hs.routed convId e.1 ?_)
  rw [get₂, hmem, Option.bind_some, mem_entries_iff_get.mp he]
  rfl

/-- A completed announcement. -/
theorem Rooms.notifyMembers_complete (hkeys : keys.Lawful) (hs : Rooms s) (hopen : s.closed = false)
    (hmem : s.members.get convId = some mems) (hdone : (notifyMembers C keys convId s).result.isSome) :
    List.Forall₂ (Tells C keys s convId mems) mems.entries (notifyMembers C keys convId s).output := by
  obtain ⟨n, htells, hall⟩ := hs.notifyMembers_tells (C := C) hkeys hopen hmem
  rw [List.take_of_length_le (hall hdone)] at htells
  exact htells

theorem exists_of_forall₂ {α β : Type} {R : α → β → Prop} {l : List α} {l' : List β}
    (h : List.Forall₂ R l l') : ∀ a ∈ l, ∃ b ∈ l', R a b := by
  induction h with
  | nil => simp
  | cons hab _ ih =>
    intro a ha
    rcases List.mem_cons.mp ha with rfl | ha
    · exact ⟨_, List.mem_cons_self, hab⟩
    · obtain ⟨b, hb, hR⟩ := ih a ha
      exact ⟨b, List.mem_cons_of_mem _ hb, hR⟩

/-- **A completed announcement tells every member** that its transport reaches. -/
theorem Rooms.notifyMembers_announced (hC : C.Lawful) (hbody : LengthPreserving C)
    (hserver : (C.getPublicKey keys.privateKey).length = 65) (hkeys : keys.Lawful) (hs : Rooms s)
    (hreach : s.Reaches convId mems) (hmem : s.members.get convId = some mems)
    (hdone : (notifyMembers C keys convId s).result.isSome) :
    ∀ e ∈ mems.entries,
      Announced C keys s convId mems e (notifyMembers C keys convId s).output := by
  intro e he
  obtain ⟨hopen, hcarries⟩ := hreach e he
  obtain ⟨o, ho, htells⟩ := exists_of_forall₂ (hs.notifyMembers_complete hkeys hopen hmem hdone) e he
  obtain ⟨buf, peer, wire⟩ := o
  obtain ⟨bytes, rfl⟩ := Option.isSome_iff_exists.mp
    ((htells.carried_iff hC hbody hserver).mpr (hcarries peer htells.route))
  exact ⟨buf, peer, bytes, htells, ho⟩

end Room

/-! ### Departures -/

section Departure

variable {senderId : ℕ}

/-- What leaving one conversation does: nothing without a room, else striking and announcing. -/
theorem leaveConversation_eq (senderId convId : ℕ) (s : GroupServer) :
    leaveConversation C keys senderId convId s
      = if (s.members.get convId).isSome then notifyMembers C keys convId (struck senderId convId s)
        else ⟨some (), s, []⟩ := by
  rw [leaveConversation, get_bind]
  cases hmem : s.members.get convId with
  | none => rfl
  | some mems =>
    rw [struck_of_some hmem]
    rfl

theorem announceable_of_size_eq_zero {mems : NumMap Buffer} (h : mems.size = 0) :
    Announceable C keys mems := by
  refine ⟨?_, by rw [h]; decide⟩
  rw [InsertionMap.size, List.length_eq_zero_iff] at h
  rw [h]
  intro e he
  cases he

theorem Rooms.leaveConversation_isSome_iff (hC : C.Lawful) {s : GroupServer} (hs : Rooms s)
    (convId : ℕ) :
    (leaveConversation C keys senderId convId s).result.isSome
      ↔ ∀ mems, s.members.get convId = some mems →
          Announceable C keys (mems.delete senderId) := by
  rw [leaveConversation_eq]
  cases hmem : s.members.get convId with
  | none => simp
  | some mems =>
    rw [if_pos (Option.isSome_some), (hs.struck senderId convId).notifyMembers_isSome_iff hC]
    constructor
    · rintro h mems' hmems'
      cases hmems'
      by_cases hsize : (mems.delete senderId).size = 0
      · exact announceable_of_size_eq_zero hsize
      · apply h
        rw [members_struck, if_pos rfl, hmem]
        simp [Option.filter, hsize]
    · intro h rest hrest
      rcases members_struck_cases hmem hrest with ⟨-, rfl, -⟩ | ⟨hne, -⟩
      · exact h mems rfl
      · exact absurd rfl hne

/-- What one departure leaves of the server: the struck rooms, other rooms and routes as before. -/
theorem leaveConversation_state (C : Crypto) (keys : ServerKeys) (senderId convId : ℕ)
    (s : GroupServer) :
    SameRooms (struck senderId convId s) [] (leaveConversation C keys senderId convId s).state := by
  rw [leaveConversation_eq]
  cases hmem : s.members.get convId with
  | none =>
    rw [struck_of_none hmem]
    rfl
  | some mems => exact notifyMembers_sameRooms convId _

theorem room_leaveConversation_of_ne (C : Crypto) (keys : ServerKeys) (senderId : ℕ)
    {convId c : ℕ} (s : GroupServer) (h : convId ≠ c) :
    (leaveConversation C keys senderId convId s).state.room c = s.room c := by
  rw [(leaveConversation_state C keys senderId convId s).room, room_struck_of_ne s h]

/-- **A departure is completed** exactly when what is left of every room can be announced. -/
theorem Rooms.forEach_leave_isSome_iff (hC : C.Lawful) {convs : List ℕ} :
    ∀ {s : GroupServer}, Rooms s → convs.Nodup →
      ((forEach (leaveConversation C keys senderId) convs s).result.isSome
        ↔ ∀ c ∈ convs, ∀ mems, s.members.get c = some mems →
            Announceable C keys (mems.delete senderId)) := by
  induction convs with
  | nil =>
    intro s _ _
    simp [forEach_nil]
  | cons convId convs ih =>
    intro s hs hnodup
    rw [List.nodup_cons] at hnodup
    have hfirst : (leaveConversation C keys senderId convId s).result.isSome
        ↔ ∀ mems, s.members.get convId = some mems → Announceable C keys (mems.delete senderId) :=
      hs.leaveConversation_isSome_iff hC convId
    rw [forEach_cons, List.forall_mem_cons, ← hfirst]
    cases hres : (leaveConversation C keys senderId convId s).result with
    | none =>
      rw [bind_of_none hres]
      simp
    | some a =>
      have hrooms : Rooms (leaveConversation C keys senderId convId s).state :=
        (leaveConversation_state C keys senderId convId s).rooms (hs.struck senderId convId)
      rw [bind_of_some hres, Outcome.prepend_result, ih hrooms hnodup.2]
      -- the later rooms are still as they were
      have hsame : ∀ c ∈ convs,
          (leaveConversation C keys senderId convId s).state.members.get c = s.members.get c := by
        intro c hc
        have hne : convId ≠ c := by
          rintro rfl
          exact hnodup.1 hc
        exact (Prod.mk.inj (room_leaveConversation_of_ne C keys senderId s hne)).1
      simp only [Option.isSome_some, true_and]
      constructor
      · intro h c hc mems hmem
        exact h c hc mems (by rw [hsame c hc]; exact hmem)
      · intro h c hc mems hmem
        exact h c hc mems (by rw [← hsame c hc]; exact hmem)

/-- **A completed departure tells everybody who is left** and is reached. -/
theorem Rooms.forEach_leave_announced (hC : C.Lawful) (hbody : LengthPreserving C)
    (hserver : (C.getPublicKey keys.privateKey).length = 65) (hkeys : keys.Lawful) {convs : List ℕ} :
    ∀ {s : GroupServer}, Rooms s →
      (∀ c ∈ convs, ∀ mems, s.members.get c = some mems → s.Reaches c (mems.delete senderId)) →
      convs.Nodup →
      (forEach (leaveConversation C keys senderId) convs s).result.isSome →
      ∀ c ∈ convs, ∀ mems, s.members.get c = some mems →
        ∀ e ∈ (mems.delete senderId).entries,
          Announced C keys (GroupServer.struck senderId c s) c (mems.delete senderId) e
            (forEach (leaveConversation C keys senderId) convs s).output := by
  induction convs with
  | nil =>
    intro s _ _ _ _ c hc
    cases hc
  | cons convId convs ih =>
    intro s hs hreach hnodup hdone c hc mems hmem e he
    rw [List.nodup_cons] at hnodup
    rw [forEach_cons] at hdone ⊢
    have hstate := leaveConversation_state C keys senderId convId s
    have hframe : (leaveConversation C keys senderId convId s).state.clientMap = s.clientMap ∧
        (leaveConversation C keys senderId convId s).state.closedSockets = s.closedSockets ∧
        (leaveConversation C keys senderId convId s).state.closed = s.closed := by
      rw [SameRooms, struck_frame] at hstate
      rw [hstate]
      exact ⟨rfl, rfl, rfl⟩
    cases hres : (leaveConversation C keys senderId convId s).result with
    | none =>
      rw [bind_of_none hres] at hdone
      cases hdone
    | some a =>
      rw [bind_of_some hres] at hdone ⊢
      rcases List.mem_cons.mp hc with rfl | hc
      · -- this room is announced now
        have hleft : (mems.delete senderId).size ≠ 0 := by
          intro hzero
          rw [InsertionMap.size, List.length_eq_zero_iff] at hzero
          rw [hzero] at he
          cases he
        have hroom : (GroupServer.struck senderId c s).members.get c
            = some (mems.delete senderId) := by
          rw [members_struck, if_pos rfl, hmem]
          simp [Option.filter, hleft]
        have hreach' : (GroupServer.struck senderId c s).Reaches c (mems.delete senderId) := by
          rw [struck_frame]
          exact (hreach c List.mem_cons_self mems hmem).congr rfl rfl rfl
        rw [leaveConversation_eq, if_pos (by rw [hmem]; rfl)] at hres ⊢
        have h := (hs.struck senderId c).notifyMembers_announced hC hbody hserver hkeys hreach' hroom
          (by rw [hres]; rfl) e he
        exact h.mono fun o ho => by simp [ho]
      · have hne : convId ≠ c := by
          rintro rfl
          exact hnodup.1 hc
        have hroom := room_leaveConversation_of_ne C keys senderId s hne
        have hrooms : Rooms (leaveConversation C keys senderId convId s).state :=
          hstate.rooms (hs.struck senderId convId)
        have hlater : ∀ c ∈ convs, ∀ mems,
            (leaveConversation C keys senderId convId s).state.members.get c = some mems →
            (leaveConversation C keys senderId convId s).state.Reaches c (mems.delete senderId) := by
          intro c hc mems hmem
          have hne : convId ≠ c := by
            rintro rfl
            exact hnodup.1 hc
          have hroom := room_leaveConversation_of_ne C keys senderId s hne
          rw [(Prod.mk.inj hroom).1] at hmem
          exact (hreach c (List.mem_cons_of_mem _ hc) mems hmem).congr hframe.1 hframe.2.1 hframe.2.2
        have h := ih hrooms hlater hnodup.2 hdone c hc mems
          (by rw [(Prod.mk.inj hroom).1]; exact hmem) e he
        have h' := h.congr (s := GroupServer.struck senderId c s)
          (by rw [struck_frame, struck_frame senderId c s]; exact hframe.1)
          (by rw [struck_frame, struck_frame senderId c s]; exact hframe.2.1)
          (Prod.mk.inj (room_struck_congr hroom senderId)).2
        exact h'.mono fun o ho => by simp [ho]

end Departure

/-! ### A closed server -/

/-- A closed server stays closed and sends nothing. -/
def Quiet (s : GroupServer) (os : List ServerOutput) (t : GroupServer) : Prop :=
  s.closed = true → t.closed = true ∧ os = []

theorem quiet_relay : Relay Quiet where
  comp := by
    constructor
    · exact fun s hs => ⟨hs, rfl⟩
    · intro s t u os os' h h' hs
      obtain ⟨ht, rfl⟩ := h hs
      exact h' ht
  draw := fun s n hs => ⟨hs, rfl⟩
  sent := fun s buf peer hopen hs => by rw [hs] at hopen; cases hopen

theorem forEach_leave_quiet (senderId : ℕ) (convs : List ℕ) :
    Obeys Quiet (forEach (leaveConversation C keys senderId) convs) := by
  apply Obeys.forEach quiet_relay.comp
  intro convId _ s
  rw [ObeysAt, leaveConversation_eq]
  split
  · intro hs
    exact notifyMembers_obeys quiet_relay convId _ (by rw [struck_frame]; exact hs)
  · exact quiet_relay.comp.refl s

/-- Who was told is reached. -/
theorem Announced.reached (hC : C.Lawful) (hbody : LengthPreserving C)
    (hserver : (C.getPublicKey keys.privateKey).length = 65) {e : ℕ × Buffer}
    (h : Announced C keys s convId mems e os) (hquiet : s.closed = true → os = []) :
    s.closed = false ∧ ∀ peer ∈ get₂ s.clientMap convId e.1, s.Carries peer (101 + 67 * mems.size) := by
  obtain ⟨buf, peer, wire, htells, hmem⟩ := h
  constructor
  · cases hclosed : s.closed with
    | false => rfl
    | true =>
      rw [hquiet hclosed] at hmem
      cases hmem
  · intro peer' hpeer'
    cases htells.route.symm.trans hpeer'
    exact (htells.carried_iff hC hbody hserver).mp rfl

/-! ### The whole contract -/

/-- `notifyMembers` returns, and tells every member with a valid key and a route. -/
def NotifiesAll (C : Crypto) (keys : ServerKeys) (s : GroupServer) (convId : ℕ) : Prop :=
  (notifyMembers C keys convId s).result.isSome ∧
    ∀ mems, s.members.get convId = some mems → ∀ e ∈ mems.entries,
      (pairwiseKey C keys.privateKey e.2).isSome → (get₂ s.clientMap convId e.1).isSome →
      Announced C keys s convId mems e (notifyMembers C keys convId s).output

/-- `removePeer` returns; in every conversation of the peer the member it spoke for is gone, and
every remaining member with a valid key and a route is told. -/
def RemovesAll (C : Crypto) (keys : ServerKeys) (s : GroupServer) (peerId : String) : Prop :=
  (removePeer C keys peerId s).result.isSome ∧
    ∀ senderId, s.peerIdentity.get peerId = some senderId → ∀ c ∈ s.leftConvs peerId,
      ∀ mems, s.members.get c = some mems →
        get₂ (removePeer C keys peerId s).state.members c senderId = none ∧
        ∀ e ∈ (mems.delete senderId).entries, (pairwiseKey C keys.privateKey e.2).isSome →
          (get₂ s.clientMap c e.1).isSome →
          Announced C keys (struck senderId c s) c (mems.delete senderId) e
            (removePeer C keys peerId s).output

section Contract

variable (hC : C.Lawful) (hbody : LengthPreserving C)
  (hserver : (C.getPublicKey keys.privateKey).length = 65) (hkeys : keys.Lawful)
include hC hbody hserver hkeys

theorem Rooms.notifiesAll_iff (hs : Rooms s) (convId : ℕ) :
    NotifiesAll C keys s convId
      ↔ ∀ mems, s.members.get convId = some mems →
          Announceable C keys mems ∧ s.Reaches convId mems := by
  constructor
  · rintro ⟨hdone, htold⟩ mems hmem
    have hann := (hs.notifyMembers_isSome_iff hC).mp hdone mems hmem
    refine ⟨hann, fun e he => ?_⟩
    have hroute : (get₂ s.clientMap convId e.1).isSome := by
      apply hs.routed convId e.1
      rw [get₂, hmem, Option.bind_some, mem_entries_iff_get.mp he]
      rfl
    exact (htold mems hmem e he (hann.1 e he) hroute).reached hC hbody hserver fun hclosed =>
      (notifyMembers_obeys quiet_relay convId s hclosed).2
  · intro h
    have hdone : (notifyMembers C keys convId s).result.isSome :=
      (hs.notifyMembers_isSome_iff hC).mpr fun mems hmem => (h mems hmem).1
    refine ⟨hdone, fun mems hmem e he _ _ => ?_⟩
    exact hs.notifyMembers_announced hC hbody hserver hkeys (h mems hmem).2 hmem hdone e he

omit hC hbody hserver hkeys in
theorem removePeer_of_identity {peerId : String} {senderId : ℕ}
    (h : s.peerIdentity.get peerId = some senderId) :
    removePeer C keys peerId s
      = forEach (leaveConversation C keys senderId) (s.leftConvs peerId)
          (leaveGroups peerId s) := by
  rw [removePeer, get_bind, modify_bind, h]

omit hC hbody hserver hkeys in
theorem nodup_leftConvs (s : GroupServer) (peerId : String) : (s.leftConvs peerId).Nodup :=
  s.groups.nodup.sublist (List.filter_sublist.map Prod.fst)

omit hC hbody hserver hkeys in
theorem get₂_of_departed {senderId : ℕ} {convs : List ℕ} (hnodup : convs.Nodup)
    (hdone : (forEach (leaveConversation C keys senderId) convs s).result.isSome) {c : ℕ}
    (hc : c ∈ convs) :
    get₂ (forEach (leaveConversation C keys senderId) convs s).state.members c senderId
      = none := by
  obtain ⟨n, hsame, hall⟩ := forEach_leave_state C keys senderId convs s
  rw [List.take_of_length_le (hall hdone)] at hsame
  have hroom := hsame.room c
  rw [room_struckAll hnodup, if_pos hc] at hroom
  rw [get₂, (Prod.mk.inj hroom).1, members_struck, if_pos rfl]
  cases s.members.get c with
  | none => rfl
  | some mems =>
    rw [Option.map_some, Option.filter]
    split
    · exact get_delete_self mems senderId
    · rfl

theorem Rooms.removesAll_iff (hs : Rooms s) (peerId : String) :
    RemovesAll C keys s peerId
      ↔ ∀ senderId, s.peerIdentity.get peerId = some senderId → ∀ c ∈ s.leftConvs peerId,
          ∀ mems, s.members.get c = some mems →
            Announceable C keys (mems.delete senderId) ∧ s.Reaches c (mems.delete senderId) := by
  have hleave : Rooms (leaveGroups peerId s) := hs.of_fields rfl rfl fun _ _ h => h
  have hnodup := nodup_leftConvs s peerId
  cases hid : s.peerIdentity.get peerId with
  | none =>
    have hdone : (removePeer C keys peerId s).result.isSome := by
      rw [removePeer, get_bind, modify_bind, hid]
      rfl
    constructor
    · rintro - senderId hsender
      cases hsender
    · intro _
      refine ⟨hdone, fun senderId hsender => ?_⟩
      rw [hid] at hsender
      cases hsender
  | some senderId =>
    have hcond : ((forEach (leaveConversation C keys senderId) (s.leftConvs peerId)
        (leaveGroups peerId s)).result.isSome
        ↔ ∀ c ∈ s.leftConvs peerId, ∀ mems, s.members.get c = some mems →
            Announceable C keys (mems.delete senderId)) :=
      hleave.forEach_leave_isSome_iff hC hnodup
    rw [RemovesAll, removePeer_of_identity hid, hid]
    constructor
    · rintro ⟨hdone, htold⟩ senderId' hsender c hc mems hmem
      cases hsender
      have hann := hcond.mp hdone c hc mems hmem
      refine ⟨hann, fun e he => ?_⟩
      have hroute : (get₂ s.clientMap c e.1).isSome := by
        have hget := mem_entries_iff_get.mp he
        apply hs.routed c e.1
        rw [get₂, hmem]
        rw [get_delete] at hget
        split at hget
        · cases hget
        · rw [Option.bind_some, hget]
          rfl
      have h := ((htold senderId rfl c hc mems hmem).2 e he (hann.1 e he) hroute).reached hC hbody
        hserver
      rw [struck_frame] at h
      exact h fun hclosed => (forEach_leave_quiet senderId _ (leaveGroups peerId s) hclosed).2
    · intro h
      have hdone := hcond.mpr fun c hc mems hmem => (h senderId rfl c hc mems hmem).1
      refine ⟨hdone, fun senderId' hsender c hc mems hmem => ?_⟩
      cases hsender
      refine ⟨get₂_of_departed hnodup hdone hc, fun e he _ _ => ?_⟩
      have htold := hleave.forEach_leave_announced hC hbody hserver hkeys
        (fun c hc mems hmem => (h senderId rfl c hc mems hmem).2.congr rfl rfl rfl) hnodup hdone c hc
        mems hmem e he
      have hroom : (leaveGroups peerId s).room c = s.room c := rfl
      exact htold.congr (by rw [struck_frame, struck_frame senderId c s]; rfl)
        (by rw [struck_frame, struck_frame senderId c s]; rfl)
        (Prod.mk.inj (room_struck_congr hroom senderId)).2

end Contract

/-- **When a roster is announced.**  In every reachable state, an announcement reaches every member
with a valid key and a route exactly when every registered key of the room is a curve point, the roster
fits its count, the server is open, and the transport of each member carries a frame of that size; and
a closed socket is worked off for every conversation of its peer exactly when this holds of what it
leaves of each room. -/
theorem announcement_completes_iff {C : Crypto} (hC : C.Lawful) (hbody : LengthPreserving C)
    (keys : ServerKeys) (hserver : (C.getPublicKey keys.privateKey).length = 65)
    (hkeys : keys.Lawful) (es : List Event) :
    (∀ convId, NotifiesAll C keys (stateAfter C keys es) convId
      ↔ ∀ mems, (stateAfter C keys es).members.get convId = some mems →
          Announceable C keys mems ∧ (stateAfter C keys es).Reaches convId mems) ∧
    (∀ peerId, RemovesAll C keys (stateAfter C keys es) peerId
      ↔ ∀ senderId, (stateAfter C keys es).peerIdentity.get peerId = some senderId →
          ∀ c ∈ (stateAfter C keys es).leftConvs peerId,
            ∀ mems, (stateAfter C keys es).members.get c = some mems →
              Announceable C keys (mems.delete senderId) ∧
              (stateAfter C keys es).Reaches c (mems.delete senderId)) := by
  have hs := rooms_stateAfter C keys es
  exact ⟨fun convId => hs.notifiesAll_iff hC hbody hserver hkeys convId,
    fun peerId => hs.removesAll_iff hC hbody hserver hkeys peerId⟩

/-! ### Who is told to be the creator -/

/-- **Where the server announces.**  An event in a state makes it announce a conversation in another
state: a KeyReq once its sender is registered, and a closed socket for each conversation of its peer,
after those before it were worked off. -/
inductive Calls (C : Crypto) (keys : ServerKeys) (s : GroupServer) : Event → ℕ → GroupServer → Prop
  | keyReq {now : ℕ} {id : String} {link : PeerLink} {buf : Buffer} {req : KeyReqDart}
      (htype : buf.readUInt8 0 = some TYPE_KEY_REQ) (hreq : Codec.decodeKeyReq buf = some req) :
      Calls C keys s (.message now id link buf) req.convId
        (registerMember req (notePeer TYPE_KEY_REQ req.convId buf (countPacket now { id, link }) s))
  | removePeer {peerId : String} {senderId convId : ℕ} {before after : List ℕ} {mems : NumMap Buffer}
      (hid : s.peerIdentity.get peerId = some senderId)
      (hleft : s.leftConvs peerId = before ++ convId :: after)
      (hdone : (forEach (leaveConversation C keys senderId) before
        (leaveGroups peerId s)).result.isSome)
      (hmem : (forEach (leaveConversation C keys senderId) before
        (leaveGroups peerId s)).state.members.get convId = some mems) :
      Calls C keys s (.removePeer peerId) convId (removeMember convId senderId mems
        (forEach (leaveConversation C keys senderId) before (leaveGroups peerId s)).state)

/-- What is sent is a roster frame for a member of a conversation, and whoever has the member's key
reads in it whether the member is the creator `k`. -/
def Flags (C : Crypto) (keys : ServerKeys) (s : GroupServer) (convId k : ℕ) (e : ℕ × Buffer)
    (o : ServerOutput) : Prop :=
  ∃ buf peer wire transportKey info, o = .sent buf peer wire ∧
    get₂ s.clientMap convId e.1 = some peer ∧
    pairwiseKey C keys.privateKey e.2 = some transportKey ∧
    Codec.decodeMemberInfo C buf transportKey = some info ∧ info.type = TYPE_MEMBER_INFO ∧
    info.convId = convId ∧ info.senderId = e.1 ∧ (info.creator = true ↔ e.1 = k)

theorem Tells.flags (hC : C.Lawful) (hserver : (C.getPublicKey keys.privateKey).length = 65) {k : ℕ}
    (hk : s.creator.get convId = some k) {e : ℕ × Buffer} {o : ServerOutput}
    (h : Tells C keys s convId mems e o) : Flags C keys s convId k e o := by
  obtain ⟨peer, key, nonce, buf, hpeer, hkey, hnonce, hbuf, ho⟩ := h
  obtain ⟨members, hdecode⟩ := Wire.exists_decodeMemberInfo hC hnonce hserver hbuf
  refine ⟨buf, peer, _, key, _, ho, hpeer, hkey, hdecode, rfl, rfl, rfl, ?_⟩
  show decide (s.creator.get convId = some e.1) = true ↔ e.1 = k
  rw [decide_eq_true_iff, hk, Option.some.injEq]
  exact eq_comm

theorem step_keyReq {now : ℕ} {id : String} {link : PeerLink} {buf : Buffer} {req : KeyReqDart}
    (htype : buf.readUInt8 0 = some TYPE_KEY_REQ) (hreq : Codec.decodeKeyReq buf = some req)
    (s : GroupServer) :
    step C keys (.message now id link buf) s
      = ⟨some (), (notifyMembers C keys req.convId (registerMember req
            (notePeer TYPE_KEY_REQ req.convId buf ⟨id, link, some now, 1⟩ s))).state,
          (notifyMembers C keys req.convId (registerMember req
            (notePeer TYPE_KEY_REQ req.convId buf ⟨id, link, some now, 1⟩ s))).output⟩ := by
  obtain ⟨hconv, -⟩ := decodeKeyReq_header hreq
  have hdispatch : dispatch C keys buf ⟨id, link, some now, 1⟩ s
      = notifyMembers C keys req.convId (registerMember req
          (notePeer TYPE_KEY_REQ req.convId buf ⟨id, link, some now, 1⟩ s)) := by
    rw [dispatch, htype, hconv, ofOption_some_bind, ofOption_some_bind,
      modify_bind]
    show handleKeyReq C keys buf _ = _
    rw [handleKeyReq, hreq, ofOption_some_bind, modify_bind]
  rw [step_message, hdispatch]

section Called

variable {e : Event} {t : GroupServer}

theorem Calls.rooms (h : Calls C keys s e convId t) (hs : Rooms s) : Rooms t := by
  cases h with
  | keyReq htype hreq => exact rooms_keyReq hreq (hs.notePeer _ _ _ _)
  | @removePeer peerId senderId _ before _ mems hid hleft hdone hmem =>
    have hbefore : Rooms (forEach (leaveConversation C keys senderId) before
        (leaveGroups peerId s)).state := by
      obtain ⟨n, hsame, -⟩ := forEach_leave_state C keys senderId before (leaveGroups peerId s)
      refine hsame.rooms ?_
      have hleave : Rooms (leaveGroups peerId s) := hs.of_fields rfl rfl fun _ _ h => h
      exact List.foldlRecOn _ _ hleave fun _ ht c _ => ht.struck senderId c
    have hstruck := hbefore.struck senderId convId
    rw [struck_of_some hmem] at hstruck
    exact hstruck

/-- What the announcement sends is part of what the event makes the server send. -/
theorem Calls.output (h : Calls C keys s e convId t) :
    (notifyMembers C keys convId t).output <:+: (step C keys e s).output := by
  cases h with
  | keyReq htype hreq =>
    rw [step_keyReq htype hreq, countPacket_fresh]
  | @removePeer peerId senderId _ before after mems hid hleft hdone hmem =>
    show _ <:+: (GroupServer.removePeer C keys peerId s).output
    have hturn := @output_infix_forEach _ _ _ (leaveConversation C keys senderId) convId before
      after _ hdone
    rw [leaveConversation_eq, if_pos (by rw [hmem]; rfl), struck_of_some hmem] at hturn
    rw [removePeer_of_identity hid, hleft]
    exact hturn

end Called

/-- **Membership and creators.**  In every run, conversations with a room and conversations with a
creator are the same; a room is not empty and its creator is one of its members; a creator whose
socket closes is followed by the smallest remaining member; and every completed announcement of an
open server sends one frame to each member, which tells exactly one of them that it is the creator. -/
theorem rooms_led_by_one_member {C : Crypto} (hC : C.Lawful) (keys : ServerKeys)
    (hserver : (C.getPublicKey keys.privateKey).length = 65) (hkeys : keys.Lawful)
    (es : List Event) :
    (∀ c, ((stateAfter C keys es).members.get c).isSome
      ↔ ((stateAfter C keys es).creator.get c).isSome) ∧
    (∀ c mems, (stateAfter C keys es).members.get c = some mems →
      mems.size ≠ 0 ∧ ∃ k ∈ mems.keys, (stateAfter C keys es).creator.get c = some k) ∧
    (∀ peerId c k rest, (stateAfter C keys es).creator.get c = some k →
      (stateAfter C keys (es ++ [.removePeer peerId])).members.get c = some rest →
      rest.get k = none →
      ∃ successor, (stateAfter C keys (es ++ [.removePeer peerId])).creator.get c = some successor ∧
        IsLeast {i | i ∈ rest.keys} successor) ∧
    (∀ e c t mems, Calls C keys (stateAfter C keys es) e c t → t.closed = false →
      t.members.get c = some mems → (notifyMembers C keys c t).result.isSome →
      (notifyMembers C keys c t).output <:+: (step C keys e (stateAfter C keys es)).output ∧
      ∃ k ∈ mems.keys, t.creator.get c = some k ∧
        List.Forall₂ (Flags C keys t c k) mems.entries (notifyMembers C keys c t).output) := by
  have hs := rooms_stateAfter C keys es
  have hled : ∀ {s : GroupServer} {c : ℕ} {mems : NumMap Buffer}, Rooms s →
      s.members.get c = some mems → ∃ k ∈ mems.keys, s.creator.get c = some k := by
    intro s c mems hs hmem
    obtain ⟨k, hk, hmember⟩ := hs.led c mems hmem
    exact ⟨k, mem_keys_iff.mpr (Option.isSome_iff_exists.mp hmember), hk⟩
  refine ⟨?_, ?_, ?_, ?_⟩
  · intro c
    constructor
    · intro h
      obtain ⟨mems, hmem⟩ := Option.isSome_iff_exists.mp h
      obtain ⟨k, -, hk⟩ := hled hs hmem
      rw [hk]
      rfl
    · intro h
      obtain ⟨k, hk⟩ := Option.isSome_iff_exists.mp h
      exact hs.housed c k hk
  · intro c mems hmem
    obtain ⟨k, hmember, hk⟩ := hled hs hmem
    refine ⟨?_, k, hmember, hk⟩
    intro hzero
    obtain ⟨v, hv⟩ := mem_keys_iff.mp hmember
    rw [size_eq_zero_iff.mp hzero k] at hv
    cases hv
  · intro peerId c k rest hcre hrest hgone
    rw [stateAfter_concat] at hrest ⊢
    exact hs.successor hcre hrest hgone
  · intro e c t mems hcalls hopen hmem hdone
    have ht := hcalls.rooms hs
    obtain ⟨k, hmember, hk⟩ := hled ht hmem
    refine ⟨hcalls.output, k, hmember, hk, ?_⟩
    exact (ht.notifyMembers_complete hkeys hopen hmem hdone).imp fun _ _ h => h.flags hC hserver hk

/-! ### Runs -/

/-- A server with private key `9`. -/
def sumServer : ServerKeys where
  privateKey := bytesBE 65 9
  random i n := bytesBE n i

theorem sumServer_lawful : sumServer.Lawful := fun i n => length_bytesBE n i

/-- The KeyReq of a member with some public key. -/
def sumKeyReq (convId senderId : ℕ) (pub : Buffer) : Buffer :=
  (Codec.encodeKeyReq
    { type := TYPE_KEY_REQ, convId, senderId, reqNonce := Buffer.alloc 16,
      clientPubKey := pub }).getD []

/-- A member registers over TCP, on a socket of its own. -/
def registers (convId senderId : ℕ) (pub : Buffer) : Event :=
  .message 1 ("tcp:" ++ toString senderId) (.tcp senderId) (sumKeyReq convId senderId pub)

/-- Members `1` and `3` register with valid keys, in conversations `7` and `8`; what member `2`
registers in conversation `7` is given. -/
def threeRegister (pub : Buffer) : List Event :=
  [registers 7 1 (bytesBE 65 1), registers 7 2 pub, registers 7 3 (bytesBE 65 3),
    registers 8 1 (bytesBE 65 1), registers 8 3 (bytesBE 65 3)]

/-- With three valid keys both announcements are completed. -/
theorem announcement_completes_valid_keys :
    NotifiesAll sumCrypto sumServer
      (stateAfter sumCrypto sumServer (threeRegister (bytesBE 65 2))) 7 ∧
    RemovesAll sumCrypto sumServer
      (stateAfter sumCrypto sumServer (threeRegister (bytesBE 65 2))) "tcp:3" := by
  have h := announcement_completes_iff sumCrypto_lawful sumCrypto_lengthPreserving sumServer
    (length_bytesBE 65 9) sumServer_lawful (threeRegister (bytesBE 65 2))
  exact ⟨(h.1 7).mpr (by decide +kernel), (h.2 "tcp:3").mpr (by decide +kernel)⟩

/-- The founder of conversation `7` leaves.  Member `2` follows, and of the two frames that are sent the
one for member `2` says so. -/
theorem founder_is_followed :
    (∃ successor, (stateAfter sumCrypto sumServer
        (threeRegister (bytesBE 65 2) ++ [.removePeer "tcp:1"])).creator.get 7 = some successor ∧
      IsLeast {i | i ∈ [2, 3]} successor) ∧
    ∃ os, os <:+: (step sumCrypto sumServer (.removePeer "tcp:1")
        (stateAfter sumCrypto sumServer (threeRegister (bytesBE 65 2)))).output ∧
      List.Forall₂ (Flags sumCrypto sumServer (struck 1 7 (leaveGroups "tcp:1"
        (stateAfter sumCrypto sumServer (threeRegister (bytesBE 65 2))))) 7 2)
          [(2, bytesBE 65 2), (3, bytesBE 65 3)] os := by
  obtain ⟨-, -, hfollows, htold⟩ := rooms_led_by_one_member sumCrypto_lawful sumServer
    (length_bytesBE 65 9) sumServer_lawful (threeRegister (bytesBE 65 2))
  constructor
  · obtain ⟨rest, hrest, hkeys⟩ := Option.map_eq_some_iff.mp (show ((stateAfter sumCrypto sumServer
      (threeRegister (bytesBE 65 2) ++ [.removePeer "tcp:1"])).members.get 7).map InsertionMap.keys
        = some [2, 3] by decide +kernel)
    have hgone : rest.get 1 = none := by
      cases hget : rest.get 1 with
      | none => rfl
      | some pub =>
        have hmem := mem_keys_iff.mpr ⟨pub, hget⟩
        rw [hkeys] at hmem
        exact absurd hmem (by decide)
    rw [← hkeys]
    exact hfollows "tcp:1" 7 1 rest (by decide +kernel) hrest hgone
  · obtain ⟨mems, hmem⟩ := Option.isSome_iff_exists.mp (show ((forEach (leaveConversation sumCrypto
      sumServer 1) [] (leaveGroups "tcp:1" (stateAfter sumCrypto sumServer
        (threeRegister (bytesBE 65 2))))).state.members.get 7).isSome by decide +kernel)
    have hcalls := @Calls.removePeer sumCrypto sumServer
      (stateAfter sumCrypto sumServer (threeRegister (bytesBE 65 2))) "tcp:1" 1 7 [] [8] mems
      (by decide +kernel) (by decide +kernel) rfl hmem
    rw [← struck_of_some hmem] at hcalls
    obtain ⟨rest, hrest, hentries⟩ := Option.map_eq_some_iff.mp (show ((struck 1 7 (leaveGroups "tcp:1"
      (stateAfter sumCrypto sumServer (threeRegister (bytesBE 65 2))))).members.get 7).map
        InsertionMap.entries = some [(2, bytesBE 65 2), (3, bytesBE 65 3)] by decide +kernel)
    obtain ⟨hsent, k, -, hk, hflags⟩ := htold _ 7 _ rest hcalls (by decide +kernel) hrest
      (by decide +kernel)
    cases hk.symm.trans (show (struck 1 7 (leaveGroups "tcp:1" (stateAfter sumCrypto sumServer
      (threeRegister (bytesBE 65 2))))).creator.get 7 = some 2 by decide +kernel)
    rw [hentries] at hflags
    exact ⟨_, hsent, hflags⟩

/-- **One bad key blocks the roster.**  Member `2` registered a key that is no curve point.  The
announcement of conversation `7` is left by an exception before member `3`, registered with a valid
key and reachable, is told; and when the socket of member `3` closes, the same exception leaves it
registered in conversation `8`. -/
theorem bad_key_blocks_roster :
    ¬ NotifiesAll sumCrypto sumServer (stateAfter sumCrypto sumServer (threeRegister [])) 7 ∧
    ¬ RemovesAll sumCrypto sumServer (stateAfter sumCrypto sumServer (threeRegister [])) "tcp:3" ∧
    get₂ (stateAfter sumCrypto sumServer (threeRegister [])).members 7 3
      = some (bytesBE 65 3) ∧
    "tcp:3" ∉ (framesOf (notifyMembers sumCrypto sumServer 7
      (stateAfter sumCrypto sumServer (threeRegister []))).output).map (·.2.id) ∧
    get₂ (removePeer sumCrypto sumServer "tcp:3"
      (stateAfter sumCrypto sumServer (threeRegister []))).state.members 8 3
        = some (bytesBE 65 3) := by
  refine ⟨fun h => ?_, fun h => ?_, by decide +kernel⟩
  · exact absurd h.1 (by decide +kernel)
  · exact absurd h.1 (by decide +kernel)

end DartProtocol.GroupServer
