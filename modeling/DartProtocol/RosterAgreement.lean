import DartProtocol.Announcement
import DartProtocol.Departure
import DartProtocol.WireRoundTrip

/-!
# Rosters after reordering

Clients ask the server to join conversations and leave again; every change of a room sends a full
roster to each of its members, as a datagram that may overtake others.  A client installs each roster
it can open, so that in the end it holds what came last, which need not be what was sent last.

* `step_rosters` — a client changes its rosters and creator flags by the roster it opens, and by
  nothing else;
* `RosterNet` — server, clients and the datagrams under way;
* `reached_stateAfter` — the last roster sent to a member is always the room as the server has it;
* `rosters_agree_iff` — a room and its members agree exactly when the roster each member installed
  last says what the one sent to it last says.
-/

namespace DartProtocol

open Prog InsertionMap Buffer

/-! ### What a client takes over -/

section Client

variable {C : Crypto} {me : Identity}

/-- The roster a client takes over at an event, if any. -/
def accepts (C : Crypto) (me : Identity) (s : Client) : Event → Option MemberInfo
  | .message buf =>
    if s.closed = false ∧ buf.readUInt8 0 = some TYPE_MEMBER_INFO then
      (openMemberInfo C me s buf).join.map Prod.fst
    else none
  | _ => none

/-- The rosters and creator flags after taking a roster over. -/
def takesOver (s : Client) : Option MemberInfo → NumMap (NumMap Buffer) × NumMap Bool
  | none => (s.roster, s.isCreator)
  | some info => (s.roster.set info.convId (rosterOf info), s.isCreator.set info.convId info.creator)

theorem handleMemberInfo_rosters (buf : Buffer) (s : Client) :
    ((handleMemberInfo C me buf s).state.roster, (handleMemberInfo C me buf s).state.isCreator)
      = takesOver s ((openMemberInfo C me s buf).join.map Prod.fst) := by
  cases hinfo : openMemberInfo C me s buf with
  | none =>
    rw [handleMemberInfo, get_bind, hinfo]
    rfl
  | some opened =>
    cases opened with
    | none =>
      rw [handleMemberInfo, get_bind, hinfo]
      rfl
    | some opened =>
      rw [handleMemberInfo_run hinfo]
      -- founding, sharing and rotating come after the roster and leave it alone
      exact congrArg (fun rooms => (rooms.1, rooms.2.1))
        (afterRoster_obeys (keepsRooms_part (C := C)).adopts opened.1 _ _)

/-- **A client changes its rosters by the roster it opens, and by nothing else.** -/
theorem step_rosters (e : Event) (s : Client) :
    ((step C me e s).state.roster, (step C me e s).state.isCreator)
      = takesOver s (accepts C me s e) := by
  by_cases hmsg : ∃ buf, e = .message buf ∧ buf.readUInt8 0 = some TYPE_MEMBER_INFO
  · obtain ⟨buf, rfl, htype⟩ := hmsg
    by_cases hopen : s.closed = false
    · rw [step_message_of_type C me hopen htype, accepts, if_pos ⟨hopen, htype⟩]
      exact handleMemberInfo_rosters buf s
    · rw [step_message, if_pos (by simpa using hopen), accepts, if_neg fun h => hopen h.1]
      rfl
  · have hother : ∀ buf, e = .message buf → buf.readUInt8 0 ≠ some TYPE_MEMBER_INFO :=
      fun buf he htype => hmsg ⟨buf, he, htype⟩
    have hnone : accepts C me s e = none := by
      cases e with
      | message buf => rw [accepts, if_neg fun h => hother buf rfl h.2]
      | _ => rfl
    rw [hnone]
    exact congrArg (fun rooms => (rooms.1, rooms.2.1)) (step_keepsRooms (C := C) hother)

end Client

/-- The roster that a client reads out of a frame. -/
def memberInfoIn (C : Crypto) (me : Identity) (buf : Buffer) : Option MemberInfo :=
  (Codec.memberInfoServerKey buf).bind fun serverPubKey =>
    (pairwiseKey C me.privateKey serverPubKey).bind (Codec.decodeMemberInfo C buf)

/-! ### Server, clients and datagrams -/

/-- What is assumed of the parties: key pairs of the curve, with the shared secret the same on both
sides, ids of two bytes, and a connection of its own for each client. -/
structure Setup.Sound (C : Crypto) (S : Setup) : Prop where
  ecdh : ∀ i, ∃ key,
    pairwiseKey C S.keys.privateKey (C.getPublicKey (S.ids i).privateKey) = some key ∧
    pairwiseKey C (S.ids i).privateKey (C.getPublicKey S.keys.privateKey) = some key
  clientPub : ∀ i, (C.getPublicKey (S.ids i).privateKey).length = 65
  serverPub : (C.getPublicKey S.keys.privateKey).length = 65
  narrow : ∀ i, (S.ids i).senderId < 65536
  random : ∀ i, (S.ids i).Lawful
  serverRandom : S.keys.Lawful
  link : Function.Injective S.link

/-- The state of the system.  The last two fields only observe: the rosters announced to a client, that
is, handed to its transport whether or not the transport carries them, and those it took over, each in
order. -/
structure RosterNet where
  server : GroupServer := {}
  client : ℕ → Client := fun _ => {}
  /-- The datagrams under way from the server, in the order of sending. -/
  flight : List (Buffer × PeerLink) := []
  announced : ℕ → List MemberInfo := fun _ => []
  accepted : ℕ → List MemberInfo := fun _ => []

/-- What can happen. -/
inductive RosterMove
  /-- A KeyReq of a client for a conversation reaches the server. -/
  | request (i convId draw now : ℕ)
  /-- The server learns that a connection is closed. -/
  | leave (peerId : String)
  /-- The `k`-th datagram under way, which is for this client, reaches it. -/
  | deliver (k i : ℕ)
  /-- A client handles any other event. -/
  | client (i : ℕ) (e : Event)

namespace RosterNet

section System

variable (C : Crypto) (S : Setup)

/-- The KeyReq of a client. -/
def keyReq (i convId draw : ℕ) : KeyReqDart :=
  { type := TYPE_KEY_REQ, convId, senderId := (S.ids i).senderId,
    reqNonce := (S.ids i).random draw 16, clientPubKey := C.getPublicKey (S.ids i).privateKey }

/-- The datagrams that outputs of the server put on their way. -/
def underWay (os : List ServerOutput) : List (Buffer × PeerLink) :=
  os.filterMap fun o => match o with
    | .sent buf peer (some _) => some (buf, peer.link)
    | _ => none

/-- The rosters handed to the transport of a client. -/
def infosTo (i : ℕ) (os : List ServerOutput) : List MemberInfo :=
  os.filterMap fun o => match o with
    | .sent buf peer _ => if peer.link = S.link i then memberInfoIn C (S.ids i) buf else none

def stepServer (e : GroupServer.Event) (N : RosterNet) : RosterNet :=
  let r := GroupServer.step C S.keys e N.server
  { N with
    server := r.state
    flight := N.flight ++ underWay r.output
    announced := fun i => N.announced i ++ infosTo C S i r.output }

def stepClient (i : ℕ) (e : Event) (N : RosterNet) : RosterNet :=
  { N with
    client := Function.update N.client i (DartProtocol.step C (S.ids i) e (N.client i)).state
    accepted := Function.update N.accepted i
      (N.accepted i ++ (accepts C (S.ids i) (N.client i) e).toList) }

def step : RosterMove → RosterNet → RosterNet
  | .request i convId draw now, N =>
    match Codec.encodeKeyReq (keyReq C S i convId draw) with
    | none => N
    | some buf => stepServer C S (.message now (S.peerId i) (S.link i) buf) N
  | .leave peerId, N => stepServer C S (.removePeer peerId) N
  | .deliver k i, N =>
    match N.flight[k]? with
    | none => N
    | some (buf, link) =>
      if link = S.link i then
        stepClient C S i (.message buf) { N with flight := N.flight.eraseIdx k }
      else N
  | .client i e, N => stepClient C S i e N

/-- The state a fresh system reaches. -/
def stateAfter (ms : List RosterMove) : RosterNet := ms.foldl (fun N m => step C S m N) {}

/-- The last roster of a conversation in a list. -/
def latest (convId : ℕ) (infos : List MemberInfo) : Option MemberInfo :=
  (infos.filter fun info => decide (info.convId = convId)).getLast?

/-- A client speaks for a registered member of a conversation. -/
def Speaks (s : GroupServer) (convId i : ℕ) : Prop :=
  ∃ pub peer, get₂ s.members convId (S.ids i).senderId = some pub ∧
    get₂ s.clientMap convId (S.ids i).senderId = some peer ∧ peer.link = S.link i

/-- The roster of a client is the room the server has, and it takes itself for the creator exactly
when the server does. -/
def AgreesAt (N : RosterNet) (convId i : ℕ) : Prop :=
  (∃ mems roster, N.server.members.get convId = some mems ∧
    (N.client i).roster.get convId = some roster ∧ ∀ m, roster.get m = mems.get m) ∧
  (((N.client i).isCreator.get convId).getD false = true
    ↔ N.server.creator.get convId = some (S.ids i).senderId)

/-- Two rosters list the same keys and carry the same creator flag. -/
def SaysSame (info info' : MemberInfo) : Prop :=
  (∀ m, (rosterOf info).get m = (rosterOf info').get m) ∧ info.creator = info'.creator

/-- What a client took over last says what was announced to it last. -/
def HeardLast (N : RosterNet) (convId i : ℕ) : Prop :=
  ∃ heard told, latest convId (N.accepted i) = some heard ∧ latest convId (N.announced i) = some told ∧
    SaysSame heard told

end System

variable {C : Crypto} {S : Setup}

/-! ### The last of a list -/

theorem latest_append (convId : ℕ) (infos infos' : List MemberInfo) :
    latest convId (infos ++ infos') = (latest convId infos').or (latest convId infos) := by
  rw [latest, List.filter_append, List.getLast?_append]
  rfl

variable {infos : List MemberInfo} {buf : Buffer} {req : KeyReqDart} {N : RosterNet}

theorem latest_of_other {convId : ℕ}
    (h : ∀ info ∈ infos, info.convId ≠ convId) : latest convId infos = none := by
  rw [latest, List.getLast?_eq_none_iff, List.filter_eq_nil_iff]
  intro info hinfo
  simpa using h info hinfo

theorem latest_of_all {info : MemberInfo} (hne : infos ≠ [])
    (h : ∀ info' ∈ infos, info' = info) : latest info.convId infos = some info := by
  have hall : infos.filter (fun info' => decide (info'.convId = info.convId)) = infos := by
    rw [List.filter_eq_self]
    intro info' hinfo
    rw [h info' hinfo]
    simp
  rw [latest, hall, List.getLast?_eq_some_getLast hne, h _ (List.getLast_mem hne)]

/-! ### The server keeps its members informed -/

/-- The rooms are in order, and a registered member is reached over the client whose key it has. -/
structure Routed (C : Crypto) (S : Setup) (s : GroupServer) : Prop where
  rooms : GroupServer.Rooms s
  isOpen : s.closed = false
  known : ∀ c m pub, get₂ s.members c m = some pub → ∃ i peer, get₂ s.clientMap c m = some peer ∧
    peer.link = S.link i ∧ (S.ids i).senderId = m ∧ pub = C.getPublicKey (S.ids i).privateKey

/-- The roster sent last to whoever speaks for a member is the room as it is.  A room of all 65536 ids
does not fit the count of a roster frame and is announced to nobody. -/
def ToldIn (C : Crypto) (S : Setup) (s : GroupServer) (log : ℕ → List MemberInfo) : Prop :=
  ∀ c mems i, s.members.get c = some mems → mems.size < 65536 → Speaks S s c i →
    latest c (log i) = some (s.memberInfo C S.keys c mems (S.ids i).senderId)

section Server

variable {s : GroupServer} {c : ℕ} {mems : NumMap Buffer}

/-- A frame of an announcement, read by the client it is sent to. -/
theorem Routed.reads (hC : C.Lawful) (hS : S.Sound C) (hs : Routed C S s)
    (hmem : s.members.get c = some mems) {e : ℕ × Buffer} (he : e ∈ mems.entries) {buf : Buffer}
    {peer : Peer} {wire : Option Buffer}
    (h : GroupServer.Tells C S.keys s c mems e (.sent buf peer wire)) {i : ℕ}
    (hlink : peer.link = S.link i) :
    memberInfoIn C (S.ids i) buf
      = some (s.memberInfo C S.keys c mems (S.ids i).senderId) := by
  obtain ⟨peer, key, nonce, buf, hpeer, hkey, hnonce, hbuf, ho⟩ := h
  obtain ⟨rfl, rfl, -⟩ := ServerOutput.sent.inj ho
  have hkeyOf : ∀ e ∈ mems.entries, get₂ s.members c e.1 = some e.2 := by
    intro e he
    rw [get₂, hmem, Option.bind_some, mem_entries_iff_get.mp he]
  obtain ⟨j, peer', hpeer', hlink', hid, hpub⟩ := hs.known c e.1 e.2 (hkeyOf e he)
  -- the peer is the one of this client, so that the frame is for its id and under its key
  cases hpeer.symm.trans hpeer'
  obtain rfl : j = i := hS.link (hlink'.symm.trans hlink)
  obtain ⟨key', hserver, hclient⟩ := hS.ecdh j
  rw [hpub, hserver] at hkey
  cases hkey
  have hlen := pairwiseKey_length hC hserver
  have hnarrow : ∀ e ∈ mems.entries, c < 65536 ∧ e.1 < 65536 := fun e he =>
    hs.rooms.narrow c e.1 (by rw [hkeyOf e he]; rfl)
  have hfits : Wire.MemberInfoFits (s.memberInfo C S.keys c mems e.1) := by
    refine ⟨rfl, (hnarrow e he).1, (hnarrow e he).2, hS.serverPub, ?_, ?_, ?_⟩
    · show (GroupServer.rosterEntries mems).length < 65536
      rw [GroupServer.rosterEntries, List.length_map]
      exact (hs.rooms.encode_isSome_iff hmem he hlen nonce).mp (by rw [hbuf]; rfl)
    · intro m hm
      obtain ⟨e', he', rfl⟩ := List.mem_map.mp hm
      exact (hnarrow e' he').2
    · intro m hm
      obtain ⟨e', he', rfl⟩ := List.mem_map.mp hm
      obtain ⟨k, -, -, -, -, hpub'⟩ := hs.known c e'.1 e'.2 (hkeyOf e' he')
      show e'.2.length = 65
      rw [hpub']
      exact hS.clientPub k
  rw [Wire.encodeMemberInfo_wire hlen hfits, Option.some.injEq] at hbuf
  have hdecode := Wire.decodeMemberInfo_wire hC hlen hnonce hfits
  rw [hbuf] at hdecode
  have hserverKey := Wire.memberInfoServerKey_wire hC key hnonce hfits
  rw [hbuf] at hserverKey
  rw [memberInfoIn, hserverKey, Option.bind_some, show (s.memberInfo C S.keys c mems e.1).serverPubKey
    = C.getPublicKey S.keys.privateKey from rfl, hclient, Option.bind_some, hdecode, hid]

theorem Routed.mem_infosTo (hC : C.Lawful) (hS : S.Sound C) (hs : Routed C S s) {i : ℕ}
    {info : MemberInfo}
    (h : info ∈ infosTo C S i (GroupServer.notifyMembers C S.keys c s).output) :
    ∃ mems, s.members.get c = some mems ∧
      info = s.memberInfo C S.keys c mems (S.ids i).senderId := by
  obtain ⟨⟨buf, peer, wire⟩, ho, hread⟩ := List.mem_filterMap.mp h
  cases hmem : s.members.get c with
  | none =>
    rw [GroupServer.notifyMembers, get_bind, hmem] at ho
    cases ho
  | some mems =>
    obtain ⟨n, htells, -⟩ := hs.rooms.notifyMembers_tells (C := C) hS.serverRandom hs.isOpen hmem
    obtain ⟨e, he, htell⟩ := GroupServer.exists_of_forall₂ htells.flip _ ho
    simp only at hread
    split at hread
    · rename_i hlink
      rw [hs.reads hC hS hmem (List.mem_of_mem_take he) htell hlink] at hread
      exact ⟨mems, rfl, (Option.some.inj hread).symm⟩
    · cases hread

/-- An announcement of a room that fits reaches everyone who speaks for a member. -/
theorem Routed.infosTo_ne_nil (hC : C.Lawful) (hS : S.Sound C) (hs : Routed C S s)
    (hmem : s.members.get c = some mems) (hsize : mems.size < 65536) {i : ℕ}
    (hspeaks : Speaks S s c i) :
    infosTo C S i (GroupServer.notifyMembers C S.keys c s).output ≠ [] := by
  obtain ⟨pub, peer, hpub, hpeer, hlink⟩ := hspeaks
  have hget : mems.get (S.ids i).senderId = some pub := by
    rw [get₂, hmem, Option.bind_some] at hpub
    exact hpub
  have hvalid : GroupServer.Announceable C S.keys mems := by
    refine ⟨fun e he => ?_, hsize⟩
    have hkey : get₂ s.members c e.1 = some e.2 := by
      rw [get₂, hmem, Option.bind_some, mem_entries_iff_get.mp he]
    obtain ⟨j, -, -, -, -, hpub'⟩ := hs.known c e.1 e.2 hkey
    obtain ⟨key, hserver, -⟩ := hS.ecdh j
    rw [hpub', hserver]
    rfl
  have hdone : (GroupServer.notifyMembers C S.keys c s).result.isSome := by
    rw [hs.rooms.notifyMembers_isSome_iff hC]
    intro mems' h
    cases hmem.symm.trans h
    exact hvalid
  have he := mem_entries_iff_get.mpr hget
  obtain ⟨⟨buf, peer', wire⟩, hout, htells⟩ := GroupServer.exists_of_forall₂
    (hs.rooms.notifyMembers_complete hS.serverRandom hs.isOpen hmem hdone) _ he
  cases hpeer.symm.trans htells.route
  have hread := hs.reads hC hS hmem he htells hlink
  refine List.ne_nil_of_mem (a := s.memberInfo C S.keys c mems (S.ids i).senderId) ?_
  refine List.mem_filterMap.mpr ⟨_, hout, ?_⟩
  simp only
  rw [if_pos hlink, hread]

/-- At most one room, with its routes, differs. -/
def OnlyRoom (c : ℕ) (s t : GroupServer) : Prop :=
  ∀ c', c' ≠ c → t.room c' = s.room c' ∧ t.clientMap.get c' = s.clientMap.get c'

theorem Speaks.congr {t : GroupServer} {i : ℕ} (hroom : t.room c = s.room c)
    (hroute : t.clientMap.get c = s.clientMap.get c) (h : Speaks S t c i) : Speaks S s c i := by
  obtain ⟨pub, peer, hpub, hpeer, hlink⟩ := h
  have hmem : t.members.get c = s.members.get c := congrArg Prod.fst hroom
  rw [get₂, hmem] at hpub
  rw [get₂, hroute] at hpeer
  exact ⟨pub, peer, hpub, hpeer, hlink⟩

theorem Routed.sameRooms {t : GroupServer} {os : List ServerOutput} (hs : Routed C S s)
    (h : GroupServer.SameRooms s os t) : Routed C S t := by
  have hrooms := h.rooms hs.rooms
  rw [GroupServer.SameRooms] at h
  rw [h] at hrooms ⊢
  exact ⟨hrooms, hs.isOpen, hs.known⟩

/-- **Changing a room and announcing it** leaves everybody informed. -/
theorem Routed.announce (hC : C.Lawful) (hS : S.Sound C) {s' : GroupServer} (hs : Routed C S s')
    (honly : OnlyRoom c s s') :
    Routed C S (GroupServer.notifyMembers C S.keys c s').state ∧
      ∀ log, ToldIn C S s log → ToldIn C S (GroupServer.notifyMembers C S.keys c s').state
        fun i => log i ++ infosTo C S i (GroupServer.notifyMembers C S.keys c s').output := by
  have hsame : GroupServer.SameRooms s' (GroupServer.notifyMembers C S.keys c s').output
      (GroupServer.notifyMembers C S.keys c s').state := GroupServer.notifyMembers_sameRooms c s'
  refine ⟨hs.sameRooms hsame, ?_⟩
  have hroom := hsame.room
  have hroute : (GroupServer.notifyMembers C S.keys c s').state.clientMap = s'.clientMap := by
    rw [GroupServer.SameRooms] at hsame
    rw [hsame]
  intro log hlog c' mems i hmem hsize hspeaks
  have hcreator : (GroupServer.notifyMembers C S.keys c s').state.creator.get c'
      = s'.creator.get c' := congrArg Prod.snd (hroom c')
  have hmem' : s'.members.get c' = some mems := by
    rw [← hmem]
    exact (congrArg Prod.fst (hroom c')).symm
  have hspeaks' : Speaks S s' c' i := hspeaks.congr (hroom c') (by rw [hroute])
  have hinfo : (GroupServer.notifyMembers C S.keys c s').state.memberInfo C S.keys c' mems
      (S.ids i).senderId = s'.memberInfo C S.keys c' mems (S.ids i).senderId := by
    rw [GroupServer.memberInfo, GroupServer.memberInfo, hcreator]
  rw [hinfo, latest_append]
  by_cases hc : c' = c
  · subst hc
    have hall : ∀ info ∈ infosTo C S i (GroupServer.notifyMembers C S.keys c' s').output,
        info = s'.memberInfo C S.keys c' mems (S.ids i).senderId := by
      intro info h
      obtain ⟨mems', hmems', hinfo'⟩ := hs.mem_infosTo hC hS h
      cases hmem'.symm.trans hmems'
      exact hinfo'
    have hlatest : latest c' (infosTo C S i (GroupServer.notifyMembers C S.keys c' s').output)
        = some (s'.memberInfo C S.keys c' mems (S.ids i).senderId) :=
      latest_of_all (hs.infosTo_ne_nil hC hS hmem' hsize hspeaks') hall
    rw [hlatest]
    rfl
  · have hother : latest c' (infosTo C S i (GroupServer.notifyMembers C S.keys c s').output)
        = none := by
      apply latest_of_other
      intro info h
      obtain ⟨mems', -, rfl⟩ := hs.mem_infosTo hC hS h
      exact Ne.symm hc
    obtain ⟨hroomc, hroutec⟩ := honly c' hc
    have hcre : s'.creator.get c' = s.creator.get c' := congrArg Prod.snd hroomc
    have hold := hlog c' mems i ((congrArg Prod.fst hroomc).symm.trans hmem') hsize
      (hspeaks'.congr hroomc hroutec)
    rw [hother, Option.none_or, hold, GroupServer.memberInfo, GroupServer.memberInfo, hcre]

end Server

/-! ### One move -/

/-- Everybody stays informed, with what is sent on the way. -/
def Informs (C : Crypto) (S : Setup) (s : GroupServer) (os : List ServerOutput) (t : GroupServer) :
    Prop :=
  Routed C S s → Routed C S t ∧ ∀ log, ToldIn C S s log →
    ToldIn C S t fun i => log i ++ infosTo C S i os

theorem informs_comp : Composable (Informs C S) where
  refl := by
    intro s hs
    refine ⟨hs, fun log hlog => ?_⟩
    simpa only [infosTo, List.filterMap_nil, List.append_nil] using hlog
  trans := by
    intro s t u os os' h h' hs
    obtain ⟨ht, htold⟩ := h hs
    obtain ⟨hu, hutold⟩ := h' ht
    refine ⟨hu, fun log hlog => ?_⟩
    have hboth := hutold _ (htold log hlog)
    simpa only [infosTo, List.filterMap_append, List.append_assoc] using hboth

theorem Routed.struck {s : GroupServer} (hs : Routed C S s) (senderId c : ℕ) :
    Routed C S (GroupServer.struck senderId c s) := by
  have hroute : (GroupServer.struck senderId c s).clientMap = s.clientMap := by
    rw [GroupServer.struck_frame]
  refine ⟨hs.rooms.struck senderId c, ?_, fun c' m pub h => ?_⟩
  · rw [GroupServer.struck_frame]
    exact hs.isOpen
  · rw [hroute]
    exact hs.known c' m pub (GroupServer.get₂_of_struck h)

theorem leaveConversation_informs (hC : C.Lawful) (hS : S.Sound C) (senderId c : ℕ) :
    Obeys (Informs C S) (GroupServer.leaveConversation C S.keys senderId c) := by
  intro s hs
  rw [GroupServer.leaveConversation_eq]
  split
  · have honly : OnlyRoom c s (GroupServer.struck senderId c s) := by
      intro c' hc
      refine ⟨GroupServer.room_struck_of_ne s (Ne.symm hc), ?_⟩
      rw [GroupServer.struck_frame]
    exact (hs.struck senderId c).announce hC hS honly
  · exact informs_comp.refl s hs

/-- A closed connection: its member is struck from its rooms one by one. -/
theorem removePeer_informs (hC : C.Lawful) (hS : S.Sound C) (peerId : String) :
    Obeys (Informs C S) (GroupServer.removePeer C S.keys peerId) := by
  intro s hs
  rw [GroupServer.removePeer, get_bind, modify_bind]
  have hleave : Informs C S s [] (GroupServer.leaveGroups peerId s) := by
    intro hs
    refine ⟨⟨hs.rooms.of_fields rfl rfl fun _ _ h => h, hs.isOpen, hs.known⟩, fun log hlog => ?_⟩
    have hsame : ToldIn C S (GroupServer.leaveGroups peerId s) log := hlog
    simpa only [infosTo, List.filterMap_nil, List.append_nil] using hsame
  refine informs_comp.trans hleave ?_ hs
  cases s.peerIdentity.get peerId with
  | none => exact informs_comp.refl _
  | some senderId =>
    exact Obeys.forEach informs_comp (fun c _ => leaveConversation_informs hC hS senderId c) _

theorem registerMember_closed (req : KeyReqDart) (s : GroupServer) :
    (GroupServer.registerMember req s).closed = s.closed := by
  show (GroupServer.takeOverRoom _ _ (GroupServer.openRoom _ _ s)).closed = _
  have hopen : (GroupServer.openRoom req.convId req.senderId s).closed = s.closed := by
    rw [GroupServer.openRoom]
    split <;> rfl
  rw [GroupServer.takeOverRoom, ← hopen]
  split
  · rfl
  · split <;> rfl

theorem decodeKeyReq_type (h : Codec.decodeKeyReq buf = some req) :
    buf.readUInt8 0 = some req.type := by
  simp only [Codec.decodeKeyReq, Option.bind_eq_bind, Option.bind_eq_some_iff] at h
  obtain ⟨type, htype, _, _, _, _, hreq⟩ := h
  cases hreq
  exact htype

theorem encodeKeyReq_convId (h : Codec.encodeKeyReq req = some buf) :
    req.convId < 65536 := by
  simp only [Codec.encodeKeyReq, Option.bind_eq_bind, Option.bind_eq_some_iff] at h
  obtain ⟨header, _, header', hconv, _⟩ := h
  rw [Buffer.writeUInt16BE, Buffer.writeUIntBE] at hconv
  split at hconv
  · rename_i hfits
    exact hfits.1
  · cases hconv

section Request

variable {s : GroupServer} {req : KeyReqDart} {buf : Buffer} {peer : Peer}

theorem notePeer_keyReq (hreq : Codec.decodeKeyReq buf = some req) :
    GroupServer.notePeer TYPE_KEY_REQ req.convId buf peer s
      = GroupServer.learnIdentity req.convId req.senderId peer
          (GroupServer.joinGroup req.convId peer s) := by
  obtain ⟨-, hsender⟩ := GroupServer.decodeKeyReq_header hreq
  rw [GroupServer.notePeer, hsender]
  rfl

theorem Routed.register (hs : Routed C S s) {i : ℕ} (hreq : Codec.decodeKeyReq buf = some req)
    (hlink : peer.link = S.link i) (hid : req.senderId = (S.ids i).senderId)
    (hpub : req.clientPubKey = C.getPublicKey (S.ids i).privateKey) (hconv : req.convId < 65536)
    (hsender : req.senderId < 65536) :
    Routed C S (GroupServer.registerMember req
        (GroupServer.notePeer TYPE_KEY_REQ req.convId buf peer s)) ∧
      OnlyRoom req.convId s (GroupServer.registerMember req
        (GroupServer.notePeer TYPE_KEY_REQ req.convId buf peer s)) := by
  have hnoted := hs.rooms.notePeer TYPE_KEY_REQ req.convId buf peer
  rw [notePeer_keyReq hreq] at hnoted ⊢
  have hmap : (GroupServer.learnIdentity req.convId req.senderId peer
      (GroupServer.joinGroup req.convId peer s)).clientMap
        = set₂ s.clientMap req.convId req.senderId peer := rfl
  have hroute : (get₂ (GroupServer.learnIdentity req.convId req.senderId peer
      (GroupServer.joinGroup req.convId peer s)).clientMap req.convId req.senderId).isSome := by
    rw [hmap, get₂_set₂, if_pos ⟨rfl, rfl⟩]
    rfl
  refine ⟨⟨hnoted.registerMember hroute hconv hsender, ?_, ?_⟩, ?_⟩
  · rw [registerMember_closed]
    exact hs.isOpen
  · intro c m pub h
    rw [GroupServer.get₂_registerMember hnoted hroute] at h
    rw [GroupServer.registerMember_clientMap, hmap, get₂_set₂]
    by_cases hnew : req.convId = c ∧ req.senderId = m
    · rw [if_pos hnew] at h ⊢
      cases h
      exact ⟨i, peer, rfl, hlink, hid.symm.trans hnew.2, hpub⟩
    · rw [if_neg hnew] at h ⊢
      exact hs.known c m pub h
  · intro c hc
    have hne : ¬ req.convId = c := fun h => hc h.symm
    constructor
    · rw [GroupServer.room, GroupServer.registerMember_members hnoted hroute,
        GroupServer.registerMember_creator hnoted hroute, if_neg hne, if_neg fun h => hne h.1]
      rfl
    · rw [GroupServer.registerMember_clientMap, hmap, set₂, get_set_of_ne _ _ hne]

end Request

/-! ### Runs -/

/-- What holds in every reachable state. -/
structure Reached (C : Crypto) (S : Setup) (N : RosterNet) : Prop where
  routed : Routed C S N.server
  told : ToldIn C S N.server N.announced
  holds : ∀ i c, (N.client i).roster.get c = (latest c (N.accepted i)).map rosterOf ∧
    (N.client i).isCreator.get c = (latest c (N.accepted i)).map (·.creator)

theorem Reached.stepServer (hN : Reached C S N) {e : GroupServer.Event}
    (h : ObeysAt (Informs C S) (GroupServer.step C S.keys e) N.server) :
    Reached C S (stepServer C S e N) := by
  obtain ⟨hrouted, htold⟩ := h hN.routed
  exact ⟨hrouted, htold N.announced hN.told, hN.holds⟩

theorem Reached.stepClient (hN : Reached C S N) (i : ℕ) (e : Event) :
    Reached C S (stepClient C S i e N) := by
  refine ⟨hN.routed, hN.told, fun j c => ?_⟩
  by_cases hj : j = i
  · subst hj
    obtain ⟨hroster, hcreator⟩ := hN.holds j c
    have hstep : _ = takesOver (N.client j) (accepts C (S.ids j) (N.client j) e) := step_rosters e _
    rw [RosterNet.stepClient]
    simp only [Function.update_self]
    rw [latest_append]
    cases hacc : accepts C (S.ids j) (N.client j) e with
    | none =>
      rw [hacc] at hstep
      obtain ⟨hr, hc⟩ := Prod.mk.inj hstep
      rw [hr, hc]
      exact ⟨hroster, hcreator⟩
    | some info =>
      rw [hacc] at hstep
      obtain ⟨hr, hc⟩ := Prod.mk.inj hstep
      rw [hr, hc, get_set, get_set]
      by_cases hconv : info.convId = c
      · subst hconv
        have hlast : latest info.convId (some info).toList = some info :=
          latest_of_all (by simp) (by simp)
        rw [hlast, if_pos rfl, if_pos rfl]
        exact ⟨rfl, rfl⟩
      · have hlast : latest c (some info).toList = none :=
          latest_of_other (by simpa using hconv)
        rw [hlast, if_neg hconv, if_neg hconv]
        exact ⟨hroster, hcreator⟩
  · rw [RosterNet.stepClient]
    simp only [Function.update_of_ne hj]
    exact hN.holds j c

theorem Reached.step (hC : C.Lawful) (hS : S.Sound C) (hN : Reached C S N)
    (m : RosterMove) : Reached C S (step C S m N) := by
  cases m with
  | request i convId draw now =>
    rw [RosterNet.step]
    cases hbuf : Codec.encodeKeyReq (keyReq C S i convId draw) with
    | none => exact hN
    | some buf =>
      have hconv : convId < 65536 := encodeKeyReq_convId hbuf
      have hfits : Wire.KeyReqFits (keyReq C S i convId draw) :=
        ⟨rfl, hconv, hS.narrow i, hS.random i draw 16, hS.clientPub i⟩
      rw [Wire.encodeKeyReq_wire hfits, Option.some.injEq] at hbuf
      have hreq := Wire.decodeKeyReq_wire hfits
      rw [hbuf] at hreq
      have htype : buf.readUInt8 0 = some TYPE_KEY_REQ := decodeKeyReq_type hreq
      refine hN.stepServer fun hs => ?_
      rw [GroupServer.step_keyReq htype hreq]
      have hlink : (⟨S.peerId i, S.link i, some now, 1⟩ : Peer).link = S.link i := rfl
      obtain ⟨hregistered, honly⟩ := hs.register hreq hlink rfl rfl hconv (hS.narrow i)
      exact hregistered.announce hC hS honly
  | leave peerId => exact hN.stepServer (removePeer_informs hC hS peerId _)
  | deliver k i =>
    rw [RosterNet.step]
    cases hk : N.flight[k]? with
    | none => exact hN
    | some datagram =>
      obtain ⟨buf, link⟩ := datagram
      simp only
      split
      · have hrest : Reached C S { N with flight := N.flight.eraseIdx k } :=
          ⟨hN.routed, hN.told, hN.holds⟩
        exact hrest.stepClient i (.message buf)
      · exact hN
  | client i e => exact hN.stepClient i e

theorem reached_stateAfter (hC : C.Lawful) (hS : S.Sound C) (ms : List RosterMove) :
    Reached C S (stateAfter C S ms) := by
  have hrun : ∀ (ms : List RosterMove) (N : RosterNet), Reached C S N →
      Reached C S (ms.foldl (fun N m => step C S m N) N) := by
    intro ms
    induction ms with
    | nil => exact fun N hN => hN
    | cons m ms ih => exact fun N hN => ih _ (hN.step hC hS m)
  refine hrun ms {} ⟨⟨GroupServer.Rooms.init, rfl, ?_⟩, ?_, fun _ _ => ⟨rfl, rfl⟩⟩
  · intro c m pub h
    cases h
  · intro c mems i h
    cases h

/-! ### Agreement -/

theorem rosterOf_memberInfo (s : GroupServer) (c m : ℕ) (mems : NumMap Buffer) :
    rosterOf (s.memberInfo C S.keys c mems m) = mems := by
  show (GroupServer.rosterEntries mems).foldl (fun m e => m.set e.senderId e.pubKey) ∅ = mems
  rw [GroupServer.rosterEntries, List.foldl_map]
  exact mems.ofList_entries

theorem Reached.agreesAt_iff (hN : Reached C S N) {c i : ℕ}
    (hsize : ∀ mems, N.server.members.get c = some mems → mems.size < 65536)
    (hspeaks : Speaks S N.server c i) : AgreesAt S N c i ↔ HeardLast N c i := by
  obtain ⟨mems, hmem, -⟩ := Option.bind_eq_some_iff.mp hspeaks.choose_spec.choose_spec.1
  obtain ⟨hroster, hcreator⟩ := hN.holds i c
  have htold := hN.told c mems i hmem (hsize mems hmem) hspeaks
  have hflag : (N.server.memberInfo C S.keys c mems (S.ids i).senderId).creator = true
      ↔ N.server.creator.get c = some (S.ids i).senderId := decide_eq_true_iff
  constructor
  · rintro ⟨⟨mems', roster, hmem', hget, hsame⟩, hisCreator⟩
    cases hmem.symm.trans hmem'
    rw [hroster] at hget
    obtain ⟨heard, hheard, rfl⟩ := Option.map_eq_some_iff.mp hget
    refine ⟨heard, _, hheard, htold, fun m => ?_, ?_⟩
    · rw [rosterOf_memberInfo]
      exact hsame m
    · rw [hcreator, hheard, Option.map_some, Option.getD_some, ← hflag] at hisCreator
      exact Bool.eq_iff_iff.mpr hisCreator
  · rintro ⟨heard, told, hheard, htold', hsame, hcreates⟩
    cases htold.symm.trans htold'
    rw [rosterOf_memberInfo] at hsame
    refine ⟨⟨mems, rosterOf heard, hmem, ?_, hsame⟩, ?_⟩
    · rw [hroster, hheard]
      rfl
    · rw [hcreator, hheard, Option.map_some, Option.getD_some, hcreates, hflag]

/-- **When rosters agree.**  In every state, whatever order the rosters arrived in: each registered
member is spoken for by a client, and the roster and creator flag of that client are those of the
server exactly when the roster it took over last says what the one sent to it last says. -/
theorem rosters_agree_iff {C : Crypto} (hC : C.Lawful) {S : Setup} (hS : S.Sound C)
    (ms : List RosterMove) (c : ℕ)
    (hsize : ∀ mems, (stateAfter C S ms).server.members.get c = some mems → mems.size < 65536) :
    (∀ m, (get₂ (stateAfter C S ms).server.members c m).isSome →
      ∃ i, (S.ids i).senderId = m ∧ Speaks S (stateAfter C S ms).server c i) ∧
    ∀ i, Speaks S (stateAfter C S ms).server c i →
      (AgreesAt S (stateAfter C S ms) c i ↔ HeardLast (stateAfter C S ms) c i) := by
  have hN := reached_stateAfter hC hS ms
  refine ⟨fun m hm => ?_, fun i hspeaks => hN.agreesAt_iff hsize hspeaks⟩
  obtain ⟨pub, hpub⟩ := Option.isSome_iff_exists.mp hm
  obtain ⟨i, peer, hpeer, hlink, rfl, -⟩ := hN.routed.known c m pub hpub
  exact ⟨i, rfl, pub, peer, hpub, hpeer, hlink⟩

/-! ### A departure overtaken by a join -/

/-- The first client is connected over TCP, all others over UDP. -/
def mixedSetup : Setup where
  ids i := sumIdentity (i % 256)
  keys := Network.sumSetup.keys
  address := Network.sumSetup.address
  peerId i := "peer:" ++ toString i
  link i := if i = 1 then .tcp 1 else .udp "10.0.0.1" (4000 + i)

theorem sumPairwise_comm (i j : ℕ) :
    pairwiseKey sumCrypto (bytesBE 65 i) (bytesBE 65 j)
      = pairwiseKey sumCrypto (bytesBE 65 j) (bytesBE 65 i) := by
  simp only [pairwiseKey, sumCrypto, length_bytesBE, if_true, Option.map_some, Nat.add_comm]

theorem mixedSetup_sound : mixedSetup.Sound sumCrypto where
  ecdh := by
    intro i
    have hsome :
        (pairwiseKey sumCrypto (bytesBE 65 9) (bytesBE 65 (i % 256))).isSome := by
      simp [pairwiseKey, sumCrypto, length_bytesBE]
    obtain ⟨key, hkey⟩ := Option.isSome_iff_exists.mp hsome
    exact ⟨key, hkey, (sumPairwise_comm _ _).trans hkey⟩
  clientPub := fun i => length_bytesBE 65 (i % 256)
  serverPub := length_bytesBE 65 9
  narrow := fun i => (Nat.mod_lt i (by decide)).trans (by decide)
  random := fun i => sumIdentity_lawful (i % 256)
  serverRandom := fun i n => length_bytesBE n (9000 + i)
  link := by
    intro i j h
    simp only [mixedSetup] at h
    split at h <;> split at h
    · rename_i hi hj
      rw [hi, hj]
    · cases h
    · cases h
    · have hport : 4000 + i = 4000 + j := (PeerLink.udp.inj h).2
      omega

/-- Three clients join, and the first one leaves again.  Up to then every roster is delivered at once,
except those for the second and the third client after the third request. -/
def joinsAndLeaves : List RosterMove :=
  [.request 1 7 0 0, .deliver 0 1, .request 2 7 0 0, .deliver 0 1, .deliver 0 2, .request 3 7 0 0,
    .deliver 0 1, .leave "peer:1"]

/-- The remaining rosters in the order of sending. -/
def inOrder : List RosterMove := [.deliver 0 2, .deliver 0 3, .deliver 0 2, .deliver 0 3]

/-- To the second client the later one comes first. -/
def overtaken : List RosterMove := [.deliver 2 2, .deliver 0 2, .deliver 0 3, .deliver 0 3]

theorem heardLast_of_eq {c i : ℕ} (h : latest c (N.accepted i) = latest c (N.announced i))
    (hsome : (latest c (N.announced i)).isSome) : HeardLast N c i := by
  obtain ⟨told, htold⟩ := Option.isSome_iff_exists.mp hsome
  exact ⟨told, told, h.trans htold, htold, fun _ => rfl, rfl⟩

/-- Delivered in order, the rosters make the second client the creator the server takes it for. -/
theorem in_order_agrees :
    AgreesAt mixedSetup (stateAfter sumCrypto mixedSetup (joinsAndLeaves ++ inOrder)) 7 2 := by
  obtain ⟨pub, hpub⟩ := Option.isSome_iff_exists.mp (show (get₂ (stateAfter sumCrypto mixedSetup
    (joinsAndLeaves ++ inOrder)).server.members 7 2).isSome by decide +kernel)
  obtain ⟨peer, hpeer, hlink⟩ := Option.map_eq_some_iff.mp (show (get₂ (stateAfter sumCrypto mixedSetup
    (joinsAndLeaves ++ inOrder)).server.clientMap 7 2).map Peer.link = some (mixedSetup.link 2) by
      decide +kernel)
  exact ((rosters_agree_iff sumCrypto_lawful mixedSetup_sound (joinsAndLeaves ++ inOrder) 7
    (by decide +kernel)).2 2 ⟨pub, peer, hpub, hpeer, hlink⟩).mpr
      (heardLast_of_eq (by decide +kernel) (by decide +kernel))

/-- Delivered the other way round, with nothing under way any more, it keeps the member that left and
nobody takes itself for the creator. -/
theorem overtaken_disagrees :
    let N := stateAfter sumCrypto mixedSetup (joinsAndLeaves ++ overtaken)
    N.flight = [] ∧ (N.accepted 2).Perm (N.announced 2) ∧ (N.accepted 3).Perm (N.announced 3) ∧
      (N.server.members.get 7).map InsertionMap.keys = some [2, 3] ∧
      ((N.client 2).roster.get 7).map InsertionMap.keys = some [1, 2, 3] ∧
      N.server.creator.get 7 = some 2 ∧
      (N.client 2).isCreator.get 7 = some false ∧ (N.client 3).isCreator.get 7 = some false := by
  decide +kernel

end RosterNet

end DartProtocol
