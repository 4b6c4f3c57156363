import DartProtocol.GoCodec
import DartProtocol.Server
import DartProtocol.SumCrypto

/-!
# The Go server

`DartGroupServer` of `go/server/main.go`, the sibling of the TypeScript server.  An exception of a
program is a panic here: the server has no `recover`, so a panic ends the process and with it the
run.  Every index and slice expression goes through the checked operations of `CheckedSlice`.

* Peers are objects that the maps share by pointer.  `heap` holds them, and a pointer is a number.
* `range` over a map goes in insertion order here.  Calls run one after the other; the mutex is not
  modelled.

**Main result** (`go_handleMessage_returns_iff`): what a datagram has to look like to stop the server.
-/

namespace DartProtocol.GoServer

open Prog Slice GoCodec

/-! ### State -/

inductive PeerType
  | udp
  | ws
  | tcp
  deriving DecidableEq, Repr

/-- A peer object.  Addresses are texts, connections are numbers. -/
structure Peer where
  id : String
  type : PeerType
  udpAddr : Option String := none
  wsConn : Option ℕ := none
  tcpConn : Option ℕ := none
  /-- In nanoseconds. -/
  lastPacketTime : ℕ := 0
  packetCount : ℕ := 0
  deriving DecidableEq, Repr

structure DartGroupServer where
  /-- The peer objects, by pointer. -/
  heap : ℕ → Peer
  groups : NumMap (List ℕ) := ∅
  clientMap : NumMap (NumMap ℕ) := ∅
  peerIdentity : InsertionMap String ℕ := ∅
  members : NumMap (NumMap Buffer) := ∅
  creator : NumMap ℕ := ∅
  messageCache : NumMap (NumMap (NumMap Buffer)) := ∅
  highestSeq : NumMap (NumMap ℕ) := ∅
  /-- How often the random source was used. -/
  draws : ℕ := 0

/-- What a connection was asked to carry. -/
inductive Output
  | udp (buf : Buffer) (addr : String)
  | ws (buf : Buffer) (conn : ℕ)
  | tcp (out : Buffer) (conn : ℕ)
  deriving DecidableEq, Repr

/-- Programs of the server; an exception is a panic. -/
abbrev GoProg := Prog DartGroupServer Output

variable (C : Crypto) (keys : ServerKeys)

/-! ### Sending -/

/-- Nothing is sent to a peer without the connection of its type. -/
def sendToPeer (buf : Buffer) (peer : ℕ) : GoProg Unit := do
  let s ← Prog.get
  match (s.heap peer).type with
  | .udp =>
    match (s.heap peer).udpAddr with
    | none => pure ()
    | some addr => emit (.udp buf addr)
  | .ws =>
    match (s.heap peer).wsConn with
    | none => pure ()
    | some conn => emit (.ws buf conn)
  | .tcp =>
    match (s.heap peer).tcpConn with
    | none => pure ()
    | some conn =>
      let out ← ofOption (putUint16 (Buffer.alloc (2 + buf.length)) 0 2 buf.length)
      let out ← ofOption (copyInto out 2 out.length buf)
      emit (.tcp out conn)

/-- Send a frame to the other peers of a conversation. -/
def relayToGroup (buf : Buffer) (convId actualPeer : ℕ) : GoProg Unit := do
  let s ← Prog.get
  forEach (sendToPeer buf) (((s.groups.get convId).getD []).filter fun p =>
    decide ((s.heap p).id ≠ (s.heap actualPeer).id))

/-- Send a frame to the peer that speaks for a member, when there is one. -/
def relayToMember (buf : Buffer) (convId targetId : ℕ) : GoProg Unit := do
  let s ← Prog.get
  match get₂ s.clientMap convId targetId with
  | none => pure ()
  | some targetPeer => sendToPeer buf targetPeer

/-! ### Rosters -/

def randomBytes (n : ℕ) : GoProg Buffer := do
  let s ← Prog.get
  Prog.modify fun s => { s with draws := s.draws + 1 }
  pure (keys.random s.draws n)

/-- The roster announcement for one member. -/
def memberInfo (s : DartGroupServer) (convId : ℕ) (mems : NumMap Buffer) (mSenderId : ℕ) :
    MemberInfo :=
  { type := TYPE_MEMBER_INFO, convId, senderId := mSenderId,
    serverPubKey := C.getPublicKey keys.privateKey,
    creator := decide ((s.creator.get convId).getD 0 = mSenderId),
    members := GroupServer.rosterEntries mems }

/-- Announce the roster to one member.  A member whose key is no curve point is skipped. -/
def notifyMember (convId : ℕ) (mems : NumMap Buffer) (e : ℕ × Buffer) : GoProg Unit := do
  let s ← Prog.get
  match C.computeSecret keys.privateKey e.2 with
  | none => pure ()
  | some sharedSecret =>
    let nonce ← randomBytes keys 12
    let out ← ofOption
      (encodeMemberInfo C (memberInfo C keys s convId mems e.1) (C.sha256 sharedSecret) nonce)
    match out with
    | none => pure ()
    | some out => relayToMember out convId e.1

def notifyMembers (convId : ℕ) : GoProg Unit := do
  let s ← Prog.get
  match s.members.get convId with
  | none => pure ()
  | some mems => forEach (notifyMember C keys convId mems) mems.entries

/-! ### Joining and leaving -/

/-- Change a peer object. -/
def setPeer (p : ℕ) (f : Peer → Peer) (s : DartGroupServer) : DartGroupServer :=
  { s with heap := Function.update s.heap p (f (s.heap p)) }

/-- The first pointer of a list to an object with this id. -/
def findIn (s : DartGroupServer) (id : String) (group : List ℕ) : Option ℕ :=
  group.find? fun p => decide ((s.heap p).id = id)

/-- The object already in the group stays, and takes over the address. -/
def joinGroup (convId peer : ℕ) (s : DartGroupServer) : DartGroupServer :=
  let group := (s.groups.get convId).getD []
  match findIn s (s.heap peer).id group with
  | none => { s with groups := s.groups.set convId (group ++ [peer]) }
  | some p =>
    if (s.heap p).type = .udp then
      setPeer p (fun o => { o with udpAddr := (s.heap peer).udpAddr }) s
    else s

/-- Remember which member a peer speaks for, and over which peer a member is reached. -/
def learnIdentity (convId senderId peer : ℕ) (s : DartGroupServer) : DartGroupServer :=
  { s with
    peerIdentity := s.peerIdentity.set (s.heap peer).id senderId
    clientMap := set₂ s.clientMap convId senderId peer }

/-- Register the public key of a KeyReq.  A room without a reachable creator gets a new one. -/
def registerMember (req : KeyReqDart) (s : DartGroupServer) : DartGroupServer :=
  let opened : DartGroupServer :=
    if s.members.has req.convId then s
    else { s with
      members := s.members.set req.convId ∅
      creator := s.creator.set req.convId req.senderId }
  let reachable := (opened.creator.get req.convId).any fun cid =>
    (get₂ opened.clientMap req.convId cid).isSome
  { opened with
    creator :=
      if reachable then opened.creator else opened.creator.set req.convId req.senderId
    members := set₂ opened.members req.convId req.senderId req.clientPubKey }

/-- The smallest id of a room, starting from the largest there is. -/
def successorOf (ids : List ℕ) : ℕ :=
  ids.foldl (fun successor sid => if sid < successor then sid else successor) 0xFFFF

/-- Strike a member from a room.  Missing entries read as the zero value of their type. -/
def removeMember (convId senderId : ℕ) (s : DartGroupServer) : DartGroupServer :=
  let rest := ((s.members.get convId).getD ∅).delete senderId
  { s with
    creator :=
      if (s.creator.get convId).getD 0 = senderId then
        if rest.size = 0 then s.creator.delete convId
        else s.creator.set convId (successorOf rest.keys)
      else s.creator
    members := if rest.size = 0 then s.members.delete convId else s.members.set convId rest }

/-- One conversation of a departed peer. -/
def leaveConversation (senderId : Option ℕ) (convId : ℕ) : GoProg Unit := do
  Prog.modify fun s => match senderId with
    | none => s
    | some senderId => removeMember convId senderId s
  notifyMembers C keys convId

/-- A connection closed. -/
def removePeer (peerId : String) : GoProg Unit := do
  let s ← Prog.get
  let stay (group : List ℕ) : List ℕ := group.filter fun p => decide ((s.heap p).id ≠ peerId)
  let leftConvs := (s.groups.entries.filter fun e =>
    decide ((stay e.2).length ≠ e.2.length)).map Prod.fst
  Prog.modify fun s => { s with groups := s.groups.mapValues fun _ group => stay group }
  forEach (leaveConversation C keys (s.peerIdentity.get peerId)) leftConvs

/-! ### Frames -/

/-- Cache a Data dart and forget what fell out of the window behind the newer of it and the highest
number so far.  The first dart of a sender is its baseline. -/
def cacheData (convId senderId seq : ℕ) (buf : Buffer) (s : DartGroupServer) : DartGroupServer :=
  let cacheMap := ((get₂ s.messageCache convId senderId).getD ∅).set seq buf
  let currentHighest := (get₂ s.highestSeq convId senderId).getD 0
  let ahead :=
    if (get₂ s.highestSeq convId senderId).isSome then seqDelta currentHighest seq else 1
  let ref := if SEQ_MOD / 2 ≤ ahead then currentHighest else seq
  { s with
    messageCache := set₂ s.messageCache convId senderId
      (cacheMap.retain fun k _ => !decide (200 < seqDelta k ref))
    highestSeq :=
      if 0 < ahead ∧ ahead < SEQ_MOD / 2 then set₂ s.highestSeq convId senderId seq
      else s.highestSeq }

/-- The number of a Data dart, `uint32(buf[3])<<16 | uint32(buf[4])<<8 | uint32(buf[5])`. -/
def dataSeq (buf : Buffer) : Option ℕ := do
  let hi ← index buf 3
  let mid ← index buf 4
  let lo ← index buf 5
  some (hi * 65536 + mid * 256 + lo)

def handleData (buf : Buffer) (actualPeer convId : ℕ) : GoProg Unit := do
  if buf.length < 7 then pure ()
  else
    let s ← Prog.get
    match s.peerIdentity.get (s.heap actualPeer).id with
    | none => pure ()
    | some senderId =>
      let seq ← ofOption (dataSeq buf)
      Prog.modify (cacheData convId senderId seq buf)
      relayToGroup buf convId actualPeer

def handleKeyReq (buf : Buffer) : GoProg Unit := do
  let req ← ofOption (decodeKeyReq buf)
  match req with
  | none => pure ()
  | some req =>
    Prog.modify (registerMember req)
    notifyMembers C keys req.convId

/-- Shares and ACKs go to the member they name. -/
def handleTargeted (buf : Buffer) (convId : ℕ) : GoProg Unit := do
  if buf.length < 7 then pure ()
  else
    let targetId ← ofOption ((slice buf 5 7).bind uint16)
    relayToMember buf convId targetId

/-- Repair a gap from the cache, and pass the request on: to the sender of the stream, or, when that
is not possible and something is missing, to the whole group. -/
def repair (nack : NackDart) (buf : Buffer) (actualPeer : ℕ) : GoProg Unit := do
  let s ← Prog.get
  let cacheMap := (get₂ s.messageCache nack.convId nack.targetId).getD ∅
  let missingFromServer := nack.missingSeq.filter fun seq => (cacheMap.get seq).isNone
  forEach (fun cached => sendToPeer cached actualPeer) (nack.missingSeq.filterMap cacheMap.get)
  match get₂ s.clientMap nack.convId nack.targetId with
  | some targetPeer =>
    if (s.heap targetPeer).id ≠ (s.heap actualPeer).id then sendToPeer buf targetPeer
    else if missingFromServer ≠ [] then relayToGroup buf nack.convId actualPeer
    else pure ()
  | none =>
    if missingFromServer ≠ [] then relayToGroup buf nack.convId actualPeer else pure ()

def handleNack (buf : Buffer) (actualPeer : ℕ) : GoProg Unit := do
  let stripped ← ofOption (GoCodec.stripControlFrame buf)
  match stripped with
  | none => pure ()
  | some stripped =>
    let nack ← ofOption (parseNack stripped)
    match nack with
    | none => pure ()
    | some nack => repair nack buf actualPeer

/-- SYNC and Dict-Reset are keyed to the server, which verifies them before it relays them.  The
sender is read without looking at the length of the frame first. -/
def handleRelayed (buf : Buffer) (actualPeer : ℕ) : GoProg Unit := do
  let convId ← ofOption ((slice buf 1 3).bind uint16)
  let senderId ← ofOption ((slice buf 3 5).bind uint16)
  let s ← Prog.get
  match (get₂ s.members convId senderId).bind (pairwiseKey C keys.privateKey) with
  | none => pure ()
  | some key =>
    let verified ← ofOption (GoCodec.verifyControlFrame C buf key)
    match verified with
    | none => pure ()
    | some _ => relayToGroup buf convId actualPeer

/-- The branches of `handleMessage`. -/
def handlerOf (typ : ℕ) (buf : Buffer) (actualPeer convId : ℕ) : GoProg Unit :=
  if typ = TYPE_DATA then handleData buf actualPeer convId
  else if typ = TYPE_KEY_REQ then handleKeyReq C keys buf
  else if typ = TYPE_KEY_SHARE ∨ typ = TYPE_CHAIN_SHARE then handleTargeted buf convId
  else if typ = TYPE_NACK then handleNack buf actualPeer
  else if typ = TYPE_SYNC then handleRelayed C keys buf actualPeer
  else if typ = TYPE_DICT_RESET then handleRelayed C keys buf actualPeer
  else if typ = TYPE_ACK then handleTargeted buf convId
  else pure ()

/-- What a frame other than Data teaches about its peer, when it is long enough to name a sender. -/
def learn (typ convId : ℕ) (buf : Buffer) (actualPeer : ℕ) : GoProg Unit :=
  if typ ≠ TYPE_DATA ∧ 5 ≤ buf.length then do
    let senderId ← ofOption ((slice buf 3 5).bind uint16)
    Prog.modify (learnIdentity convId senderId actualPeer)
  else pure ()

/-- Handle a packet that passed the rate limit. -/
def dispatch (buf : Buffer) (actualPeer : ℕ) : GoProg Unit := do
  let typ ← ofOption (index buf 0)
  if buf.length < 3 then pure ()
  else
    let convId ← ofOption ((slice buf 1 3).bind uint16)
    Prog.modify (joinGroup convId actualPeer)
    learn typ convId buf actualPeer
    handlerOf C keys typ buf actualPeer convId

/-- The pointer the rate limit is kept at: an object with the same id in some group, else the one
that came with the packet. -/
def actualPeer (s : DartGroupServer) (peer : ℕ) : ℕ :=
  (findIn s (s.heap peer).id (s.groups.entries.flatMap Prod.snd)).getD peer

/-- Begin a new second. -/
def startWindow (now : ℕ) (o : Peer) : Peer := { o with lastPacketTime := now, packetCount := 0 }

/-- Count a packet.  An object that is in no group begins a new second with it. -/
def countPacket (now peer : ℕ) (s : DartGroupServer) : DartGroupServer :=
  setPeer (actualPeer s peer) (fun o =>
    let found := (findIn s (s.heap peer).id (s.groups.entries.flatMap Prod.snd)).isSome
    let o := if found then o else startWindow now o
    let o := if o.lastPacketTime + 1000000000 < now then startWindow now o else o
    { o with packetCount := o.packetCount + 1 }) s

/-- Does a packet pass the rate limit? -/
def admitted (now peer : ℕ) (s : DartGroupServer) : Bool :=
  decide (((countPacket now peer s).heap (actualPeer s peer)).packetCount ≤ 500)

def handleMessage (now : ℕ) (buf : Buffer) (peer : ℕ) : GoProg Unit := do
  if buf.length = 0 then pure ()
  else
    let s ← Prog.get
    Prog.modify (countPacket now peer)
    if admitted now peer s then dispatch C keys buf (actualPeer s peer) else pure ()

/-! ### Events and runs -/

inductive Event
  /-- A packet at a time, from the peer object its listener holds. -/
  | message (now : ℕ) (buf : Buffer) (peer : ℕ)
  /-- The connection of a peer closed. -/
  | removePeer (peerId : String)
  deriving DecidableEq

def step : Event → GoProg Unit
  | .message now buf peer => handleMessage C keys now buf peer
  | .removePeer peerId => GoServer.removePeer C keys peerId

/-- A run of the server.  The first panic ends the process. -/
def run (es : List Event) : GoProg Unit := forEach (step C keys) es

/-- A fresh server whose listeners will hold these peer objects. -/
def start (heap : ℕ → Peer) : DartGroupServer := { heap }

/-! ### Handlers that never panic -/

theorem sendToPeer_returns (buf : Buffer) (peer : ℕ) : Returns (sendToPeer buf peer) := by
  apply Returns.get_bind
  intro s
  split
  · split
    · exact .pure _
    · exact .emit _
  · split
    · exact .pure _
    · exact .emit _
  · split
    · exact .pure _
    · rename_i conn _
      obtain ⟨out, h, hlen⟩ := exists_putUint16 (b := Buffer.alloc (2 + buf.length)) buf.length
        (by decide : 0 + 2 ≤ 2) (by simp [Buffer.alloc])
      have hroom : 2 ≤ out.length := by
        rw [hlen]
        simp [Buffer.alloc]
      obtain ⟨out', h', -⟩ := exists_copyInto buf hroom (le_refl _)
      simp only [h, h', ofOption_some_bind]
      exact .emit _

theorem relayToGroup_returns (buf : Buffer) (convId peer : ℕ) :
    Returns (relayToGroup buf convId peer) := by
  apply Returns.get_bind
  intro s
  exact .forEach fun p _ => sendToPeer_returns buf p

theorem relayToMember_returns (buf : Buffer) (convId targetId : ℕ) :
    Returns (relayToMember buf convId targetId) := by
  apply Returns.get_bind
  intro s
  split
  · exact .pure _
  · exact sendToPeer_returns buf _

theorem notifyMember_returns (convId : ℕ) (mems : NumMap Buffer) (e : ℕ × Buffer) :
    Returns (notifyMember C keys convId mems e) := by
  apply Returns.get_bind
  intro s
  split
  · exact .pure _
  · have hdraw : Returns (randomBytes keys 12) := fun _ => rfl
    apply Returns.bind hdraw
    intro nonce
    apply Returns.bind (.ofOption (encodeMemberInfo_isSome C _ _ _))
    intro out
    split
    · exact .pure _
    · exact relayToMember_returns _ _ _

theorem notifyMembers_returns (convId : ℕ) : Returns (notifyMembers C keys convId) := by
  apply Returns.get_bind
  intro s
  split
  · exact .pure _
  · exact .forEach fun e _ => notifyMember_returns C keys convId _ e

theorem handleData_returns (buf : Buffer) (peer convId : ℕ) :
    Returns (handleData buf peer convId) := by
  rw [handleData]
  split
  · exact .pure _
  rename_i hlen
  apply Returns.get_bind
  intro s
  split
  · exact .pure _
  · have hseq : (dataSeq buf).isSome := by
      obtain ⟨hi, h₁⟩ := Option.isSome_iff_exists.mp
        (index_isSome_iff.mpr (by omega : 3 < buf.length))
      obtain ⟨mid, h₂⟩ := Option.isSome_iff_exists.mp
        (index_isSome_iff.mpr (by omega : 4 < buf.length))
      obtain ⟨lo, h₃⟩ := Option.isSome_iff_exists.mp
        (index_isSome_iff.mpr (by omega : 5 < buf.length))
      rw [dataSeq]
      simp [h₁, h₂, h₃]
    apply Returns.bind (.ofOption hseq)
    intro seq
    exact .modify_bind (relayToGroup_returns buf convId peer)

theorem handleKeyReq_returns (buf : Buffer) : Returns (handleKeyReq C keys buf) := by
  apply Returns.bind (.ofOption (decodeKeyReq_isSome buf))
  intro req
  split
  · exact .pure _
  · exact .modify_bind (notifyMembers_returns C keys _)

theorem handleTargeted_returns (buf : Buffer) (convId : ℕ) :
    Returns (handleTargeted buf convId) := by
  rw [handleTargeted]
  split
  · exact .pure _
  · apply Returns.bind
      (.ofOption (uint16_slice_isSome_iff.mpr (by omega : 5 + 2 ≤ buf.length)))
    intro targetId
    exact relayToMember_returns buf convId targetId

theorem repair_returns (nack : NackDart) (buf : Buffer) (peer : ℕ) :
    Returns (repair nack buf peer) := by
  apply Returns.get_bind
  intro s
  apply Returns.bind (.forEach fun cached _ => sendToPeer_returns cached peer)
  intro _
  split
  · apply Returns.ite (sendToPeer_returns buf _)
    exact .ite (relayToGroup_returns buf _ peer) (.pure _)
  · exact .ite (relayToGroup_returns buf _ peer) (.pure _)

theorem handleNack_returns (buf : Buffer) (peer : ℕ) : Returns (handleNack buf peer) := by
  apply Returns.bind (.ofOption (stripControlFrame_isSome buf))
  intro stripped
  split
  · exact .pure _
  · apply Returns.bind (.ofOption (parseNack_isSome _))
    intro nack
    split
    · exact .pure _
    · exact repair_returns _ buf peer

/-! ### The one access that can panic -/

variable {buf : Buffer}

/-- A relayed frame is read to the end exactly when it is long enough to name its sender. -/
theorem handleRelayed_isSome_iff (h : 3 ≤ buf.length) (peer : ℕ) (s : DartGroupServer) :
    (handleRelayed C keys buf peer s).result.isSome ↔ 5 ≤ buf.length := by
  obtain ⟨convId, hconv⟩ := Option.isSome_iff_exists.mp
    (uint16_slice_isSome_iff.mpr (by omega : 1 + 2 ≤ buf.length))
  have hconv' : (slice buf 1 3).bind uint16 = some convId := hconv
  rw [handleRelayed, hconv', ofOption_some_bind]
  by_cases hlen : 5 ≤ buf.length
  · have hreturns : Returns (do
        let senderId ← ofOption ((slice buf 3 5).bind uint16)
        let s ← Prog.get
        match (get₂ s.members convId senderId).bind (pairwiseKey C keys.privateKey) with
        | none => pure ()
        | some key =>
          let verified ← ofOption (GoCodec.verifyControlFrame C buf key)
          match verified with
          | none => pure ()
          | some _ => relayToGroup buf convId peer : GoProg Unit) := by
      apply Returns.bind
        (.ofOption (uint16_slice_isSome_iff.mpr (by omega : 3 + 2 ≤ buf.length)))
      intro senderId
      apply Returns.get_bind
      intro s
      split
      · exact .pure _
      · apply Returns.bind (.ofOption (verifyControlFrame_isSome C buf _))
        intro verified
        split
        · exact .pure _
        · exact relayToGroup_returns buf convId peer
    simp only [hlen, iff_true]
    exact hreturns s
  · have hnone : (slice buf 3 5).bind uint16 = none := by
      rw [slice, if_neg (fun hc => hlen hc.2)]
      rfl
    rw [hnone, ofOption_none, throw_bind]
    simp [hlen]

/-- A SYNC or Dict-Reset that ends before the sender it should name. -/
def Headless (buf : Buffer) : Prop :=
  3 ≤ buf.length ∧ buf.length < 5 ∧ (index buf 0 = some TYPE_SYNC ∨ index buf 0 = some TYPE_DICT_RESET)

instance (buf : Buffer) : Decidable (Headless buf) := by
  unfold Headless
  infer_instance

theorem handlerOf_isSome_iff {typ : ℕ} (h : 3 ≤ buf.length) (peer convId : ℕ) (s : DartGroupServer) :
    (handlerOf C keys typ buf peer convId s).result.isSome
      ↔ ((typ = TYPE_SYNC ∨ typ = TYPE_DICT_RESET) → 5 ≤ buf.length) := by
  by_cases hrelayed : typ = TYPE_SYNC ∨ typ = TYPE_DICT_RESET
  · have hhandler : handlerOf C keys typ buf peer convId = handleRelayed C keys buf peer := by
      rcases hrelayed with rfl | rfl <;> rfl
    rw [hhandler, handleRelayed_isSome_iff C keys h]
    simp [hrelayed]
  · simp only [hrelayed, false_implies, iff_true]
    obtain ⟨hsync, hreset⟩ := not_or.mp hrelayed
    rw [handlerOf, if_neg hsync, if_neg hreset]
    split
    · exact handleData_returns buf peer convId s
    split
    · exact handleKeyReq_returns C keys buf s
    split
    · exact handleTargeted_returns buf convId s
    split
    · exact handleNack_returns buf peer s
    · exact Returns.ite (handleTargeted_returns buf convId) (Returns.pure _) s

theorem learn_returns (typ convId : ℕ) (buf : Buffer) (peer : ℕ) :
    Returns (learn typ convId buf peer) := by
  rw [learn]
  split
  · rename_i h
    apply Returns.bind
      (.ofOption (uint16_slice_isSome_iff.mpr (by omega : 3 + 2 ≤ buf.length)))
    intro senderId s
    rfl
  · exact .pure _

theorem dispatch_isSome_iff (h : buf.length ≠ 0) (peer : ℕ) (s : DartGroupServer) :
    (dispatch C keys buf peer s).result.isSome ↔ ¬ Headless buf := by
  obtain ⟨typ, htyp⟩ := Option.isSome_iff_exists.mp (index_isSome_iff.mpr (by omega : 0 < buf.length))
  rw [dispatch, htyp, ofOption_some_bind, Headless, htyp]
  by_cases hlen : buf.length < 3
  · rw [if_pos hlen]
    simp
    omega
  rw [if_neg hlen]
  obtain ⟨convId, hconv⟩ := Option.isSome_iff_exists.mp
    (uint16_slice_isSome_iff.mpr (by omega : 1 + 2 ≤ buf.length))
  have hconv' : (slice buf 1 3).bind uint16 = some convId := hconv
  obtain ⟨u, hlearn⟩ := Option.isSome_iff_exists.mp
    (learn_returns typ convId buf peer (joinGroup convId peer s))
  rw [hconv', ofOption_some_bind, modify_bind, bind_of_some hlearn,
    Outcome.prepend_result, handlerOf_isSome_iff C keys (by omega)]
  simp only [Option.some.injEq]
  constructor
  · intro himp hc
    have := himp hc.2.2
    omega
  · intro hc htype
    by_contra hshort
    exact hc ⟨by omega, by omega, htype⟩

/-! ### When the server panics -/

/-- A packet that is not empty and passes the rate limit is dispatched; others are dropped. -/
theorem handleMessage_result (s : DartGroupServer) (now peer : ℕ) (buf : Buffer) :
    (handleMessage C keys now buf peer s).result
      = if buf.length ≠ 0 ∧ admitted now peer s = true then
          (dispatch C keys buf (actualPeer s peer) (countPacket now peer s)).result
        else some () := by
  rw [handleMessage]
  by_cases hlen : buf.length = 0
  · rw [if_pos hlen, if_neg (fun h => h.1 hlen)]
    rfl
  · rw [if_neg hlen, get_bind, modify_bind]
    by_cases hadmitted : admitted now peer s = true
    · rw [if_pos hadmitted, if_pos ⟨hlen, hadmitted⟩]
    · rw [if_neg hadmitted, if_neg (fun h => hadmitted h.2)]
      rfl

/-- **When a packet stops the Go server.**  From every state, for every peer and every byte string,
`handleMessage` returns normally except on a SYNC or Dict-Reset of three or four bytes that passes
the rate limit: the branch of these two types reads the sender without a guard of its own. -/
theorem go_handleMessage_returns_iff (s : DartGroupServer) (now peer : ℕ) (buf : Buffer) :
    (handleMessage C keys now buf peer s).result.isSome
      ↔ ¬ (Headless buf ∧ admitted now peer s = true) := by
  rw [handleMessage_result]
  by_cases h : buf.length ≠ 0 ∧ admitted now peer s = true
  · rw [if_pos h, dispatch_isSome_iff C keys h.1]
    simp [h.2]
  · rw [if_neg h]
    simp only [Option.isSome_some, true_iff]
    rintro ⟨⟨hlen, -, -⟩, hadmitted⟩
    exact h ⟨by omega, hadmitted⟩

/-- The peer object of a datagram, as the UDP listener creates it. -/
def udpPeer (addr : String) : Peer := { id := "udp:" ++ addr, type := .udp, udpAddr := some addr }

/-- **Three bytes stop a fresh server.**  The datagram `03 00 01` is a SYNC for conversation `1`
without anything else. -/
theorem three_bytes_stop_the_server :
    (handleMessage sumCrypto ⟨Buffer.bytesBE 65 9, fun _ n => Buffer.alloc n⟩ 1 [3, 0, 1] 0
      (start fun _ => udpPeer "10.0.0.1:4000")).result = none := by
  decide +kernel

/-- What an event has to keep clear of so that the process survives it wherever it comes. -/
def Event.Clear : Event → Prop
  | .message _ buf _ => ¬ Headless buf
  | .removePeer _ => True

/-- **The server survives every run** without such a frame, from any state and in any order of packets
and closed connections. -/
theorem clear_run_survives (es : List Event) (h : ∀ e ∈ es, e.Clear) : Returns (run C keys es) := by
  refine .forEach fun e he => ?_
  have hclear := h e he
  cases e with
  | message now buf peer =>
    intro s
    show (handleMessage C keys now buf peer s).result.isSome
    rw [handleMessage_result]
    split
    · rename_i hpass
      exact (dispatch_isSome_iff C keys hpass.1 _ _).mpr hclear
    · rfl
  | removePeer peerId =>
    apply Returns.get_bind
    intro s
    apply Returns.modify_bind
    exact .forEach fun c _ => .modify_bind (notifyMembers_returns C keys c)

/-- A SYNC without a conversation, and a connection that closes. -/
theorem short_packet_survived :
    (run sumCrypto ⟨Buffer.bytesBE 65 9, fun _ n => Buffer.alloc n⟩
      [.message 1 [3, 0] 0, .removePeer "udp:a"] (start fun _ => udpPeer "a")).result.isSome :=
  clear_run_survives _ _ _ (by simp [Event.Clear, Headless]) _

end DartProtocol.GoServer
