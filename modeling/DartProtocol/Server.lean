import DartProtocol.CodecControl
import DartProtocol.CodecKeys
import DartProtocol.ClientState

/-!
# The group server

`DartGroupServer` of `src/server.ts`: a blind relay.  It keeps who talks over which transport, which
public keys are registered for a conversation and who its creator is, and a window of recent Data
darts for repairs.  It never holds a group key.

* `handleMessage` — every frame type, with the identity a frame teaches before it is looked at;
* `removePeer` — what a closed socket triggers, outside any exception handler;
* `step`, `run` — the server as a state machine over datagrams, closed sockets and shutdown.

Every datagram comes with a fresh peer object, as the socket handlers create it, so a peer object in
a map is never changed later.  Traffic counters are left out: nothing reads them.
-/

namespace DartProtocol

/-! ### State -/

/-- The transport of a peer.  TCP and WebSocket connections are told apart by a number. -/
inductive PeerLink
  | udp (address : String) (port : ℕ)
  | tcp (socket : ℕ)
  | ws (socket : ℕ)
  deriving DecidableEq, Repr

/-- A transport peer, with the state of its rate limiter. -/
structure Peer where
  id : String
  link : PeerLink
  lastPacketTime : Option ℕ := none
  packetCount : ℕ := 0
  deriving DecidableEq, Repr

/-- What is fixed for the life of the server: its ECDH private key and its random source. -/
structure ServerKeys where
  privateKey : Buffer
  random : ℕ → ℕ → Buffer

/-- The random source returns as many bytes as asked for. -/
def ServerKeys.Lawful (keys : ServerKeys) : Prop := ∀ i n, (keys.random i n).length = n

/-- The state of a `DartGroupServer`. -/
structure GroupServer where
  groups : NumMap (List Peer) := ∅
  clientMap : NumMap (NumMap Peer) := ∅
  members : NumMap (NumMap Buffer) := ∅
  creator : NumMap ℕ := ∅
  peerIdentity : InsertionMap String ℕ := ∅
  messageCache : NumMap (NumMap (NumMap Buffer)) := ∅
  highestSeq : NumMap (NumMap ℕ) := ∅
  closed : Bool := false
  /-- WebSocket connections that are no longer open. -/
  closedSockets : Finset ℕ := ∅
  /-- How often the random source was used. -/
  draws : ℕ := 0

inductive ServerOutput
  /-- A frame was handed to the transport of a peer; `wire` is what the transport carries, if it can
  carry anything. -/
  | sent (buf : Buffer) (peer : Peer) (wire : Option Buffer)
  deriving DecidableEq

/-- Programs of the server. -/
abbrev ServerProg := Prog GroupServer ServerOutput

namespace GroupServer

variable (C : Crypto) (keys : ServerKeys)

/-! ### Sending -/

/-- What the transport of a peer carries for a frame.  The TCP framing refuses a frame longer than
its length field, and a closed WebSocket is skipped. -/
def wireForm (s : GroupServer) (buf : Buffer) (peer : Peer) : Option Buffer :=
  match peer.link with
  | .udp address port => if address ≠ "" ∧ port ≠ 0 then some buf else none
  | .tcp _ => ((Buffer.alloc (2 + buf.length)).writeUInt16BE buf.length 0).map (buf.copy · 2)
  | .ws socket => if socket ∈ s.closedSockets then none else some buf

def sendToPeer (buf : Buffer) (peer : Peer) : ServerProg Unit := do
  let s ← Prog.get
  if s.closed then pure () else Prog.emit (.sent buf peer (s.wireForm buf peer))

/-- The peers of a conversation other than the one with this id. -/
def othersIn (s : GroupServer) (convId : ℕ) (peerId : String) : List Peer :=
  ((s.groups.get convId).getD []).filter fun p => decide (p.id ≠ peerId)

/-- Send a frame to the other peers of a conversation. -/
def relayToGroup (buf : Buffer) (convId : ℕ) (peerId : String) : ServerProg Unit := do
  let s ← Prog.get
  Prog.forEach (sendToPeer buf) (s.othersIn convId peerId)

/-- Send a frame to the peer that speaks for a member, when there is one. -/
def relayToMember (buf : Buffer) (convId targetId : ℕ) : ServerProg Unit := do
  let s ← Prog.get
  match get₂ s.clientMap convId targetId with
  | none => pure ()
  | some targetPeer => sendToPeer buf targetPeer

/-! ### Rosters -/

def randomBytes (n : ℕ) : ServerProg Buffer := do
  let s ← Prog.get
  Prog.modify fun s => { s with draws := s.draws + 1 }
  pure (keys.random s.draws n)

/-- The registered members of a conversation as the roster frame lists them. -/
def rosterEntries (mems : NumMap Buffer) : List RosterEntry := mems.entries.map fun e => ⟨e.1, e.2⟩

/-- The roster announcement for one member. -/
def memberInfo (s : GroupServer) (convId : ℕ) (mems : NumMap Buffer) (mSenderId : ℕ) : MemberInfo :=
  { type := TYPE_MEMBER_INFO, convId, senderId := mSenderId,
    serverPubKey := C.getPublicKey keys.privateKey,
    creator := decide (s.creator.get convId = some mSenderId), members := rosterEntries mems }

/-- Announce the roster to one member.  The shared secret is computed also for a member without a
route, and throws when the registered key is no curve point. -/
def notifyMember (convId : ℕ) (mems : NumMap Buffer) (e : ℕ × Buffer) : ServerProg Unit := do
  let transportKey ← Prog.ofOption (pairwiseKey C keys.privateKey e.2)
  let s ← Prog.get
  match get₂ s.clientMap convId e.1 with
  | none => pure ()
  | some targetPeer =>
    let nonce ← randomBytes keys 12
    let buf ← Prog.ofOption
      (Codec.encodeMemberInfo C (s.memberInfo C keys convId mems e.1) transportKey nonce)
    sendToPeer buf targetPeer

def notifyMembers (convId : ℕ) : ServerProg Unit := do
  let s ← Prog.get
  match s.members.get convId with
  | none => pure ()
  | some mems => Prog.forEach (notifyMember C keys convId mems) mems.entries

/-! ### Joining and leaving -/

/-- The first peer object with an id stays in the group. -/
def joinGroup (convId : ℕ) (peer : Peer) (s : GroupServer) : GroupServer :=
  let group := (s.groups.get convId).getD []
  { s with
    groups := s.groups.set convId
      (if group.any fun p => decide (p.id = peer.id) then group else group ++ [peer]) }

/-- Remember which member a transport peer speaks for, and over which peer a member is reached. -/
def learnIdentity (convId senderId : ℕ) (peer : Peer) (s : GroupServer) : GroupServer :=
  { s with
    peerIdentity := s.peerIdentity.set peer.id senderId
    clientMap := set₂ s.clientMap convId senderId peer }

/-- Found the room of a conversation when it has none, with its founder as creator. -/
def openRoom (convId senderId : ℕ) (s : GroupServer) : GroupServer :=
  if s.members.has convId then s
  else { s with members := s.members.set convId ∅, creator := s.creator.set convId senderId }

/-- Hand the room to a newcomer when its creator cannot be reached. -/
def takeOverRoom (convId senderId : ℕ) (s : GroupServer) : GroupServer :=
  match s.creator.get convId with
  | none => { s with creator := s.creator.set convId senderId }
  | some creatorId =>
    if (get₂ s.clientMap convId creatorId).isSome then s
    else { s with creator := s.creator.set convId senderId }

/-- Register the public key of a KeyReq.  The last writer wins. -/
def registerMember (req : KeyReqDart) (s : GroupServer) : GroupServer :=
  let s := takeOverRoom req.convId req.senderId (openRoom req.convId req.senderId s)
  { s with members := set₂ s.members req.convId req.senderId req.clientPubKey }

/-- One turn of the election loop; `none` is the `Infinity` it starts with. -/
def smallerOf : Option ℕ → ℕ → Option ℕ
  | none, mId => some mId
  | some successor, mId => if mId < successor then some mId else some successor

/-- The smallest id of a list. -/
def successorOf (ids : List ℕ) : Option ℕ := ids.foldl smallerOf none

/-- Strike a member from a room.  A departed creator is followed by the smallest remaining id, and
an empty room is dropped. -/
def removeMember (convId senderId : ℕ) (mems : NumMap Buffer) (s : GroupServer) : GroupServer :=
  let rest := mems.delete senderId
  { s with
    creator :=
      if s.creator.get convId = some senderId then
        match successorOf rest.keys with
        | none => s.creator.delete convId
        | some successor => s.creator.set convId successor
      else s.creator
    members := if rest.size = 0 then s.members.delete convId else s.members.set convId rest }

/-- Take a transport peer out of all groups. -/
def leaveGroups (peerId : String) (s : GroupServer) : GroupServer :=
  { s with groups := s.groups.mapValues fun _ group => group.filter fun p => decide (p.id ≠ peerId) }

/-- The conversations whose group holds a transport peer. -/
def leftConvs (s : GroupServer) (peerId : String) : List ℕ :=
  (s.groups.entries.filter fun e =>
    decide ((e.2.filter fun p => decide (p.id ≠ peerId)).length ≠ e.2.length)).map Prod.fst

/-- One conversation of a departed peer: strike its member, announce the new roster. -/
def leaveConversation (senderId convId : ℕ) : ServerProg Unit := do
  let s ← Prog.get
  match s.members.get convId with
  | none => pure ()
  | some mems =>
    Prog.modify (removeMember convId senderId mems)
    notifyMembers C keys convId

/-- A socket closed.  An exception on the way leaves the remaining conversations untouched. -/
def removePeer (peerId : String) : ServerProg Unit := do
  let s ← Prog.get
  Prog.modify (leaveGroups peerId)
  match s.peerIdentity.get peerId with
  | none => pure ()
  | some senderId => Prog.forEach (leaveConversation C keys senderId) (s.leftConvs peerId)

/-! ### Frames -/

/-- Cache a Data dart and forget what fell out of the window behind the newer of it and the highest
number so far.  The first dart of a sender is its baseline. -/
def cacheData (convId senderId seq : ℕ) (buf : Buffer) (s : GroupServer) : GroupServer :=
  let cacheMap := ((get₂ s.messageCache convId senderId).getD ∅).set seq buf
  let currentHighest := orDefault (get₂ s.highestSeq convId senderId) 0
  let ahead :=
    if (get₂ s.highestSeq convId senderId).isSome then seqDelta currentHighest seq else 1
  let ref := if SEQ_MOD / 2 ≤ ahead then currentHighest else seq
  { s with
    messageCache := set₂ s.messageCache convId senderId
      (cacheMap.retain fun k _ => !decide (200 < seqDelta k ref))
    highestSeq :=
      if 0 < ahead ∧ ahead < SEQ_MOD / 2 then set₂ s.highestSeq convId senderId seq
      else s.highestSeq }

/-- A Data dart counts as sent by whom its transport peer last claimed to be. -/
def handleData (buf : Buffer) (peer : Peer) (convId : ℕ) : ServerProg Unit := do
  let s ← Prog.get
  match s.peerIdentity.get peer.id with
  | none => pure ()
  | some senderId =>
    let seq ← Prog.ofOption (buf.readUIntBE 3 3)
    Prog.modify (cacheData convId senderId seq buf)
    relayToGroup buf convId peer.id

def handleKeyReq (buf : Buffer) : ServerProg Unit := do
  let req ← Prog.ofOption (Codec.decodeKeyReq buf)
  Prog.modify (registerMember req)
  notifyMembers C keys req.convId

/-- Shares and ACKs go to the member they name. -/
def handleTargeted (buf : Buffer) (convId : ℕ) : ServerProg Unit := do
  let targetId ← Prog.ofOption (buf.readUInt16BE 5)
  relayToMember buf convId targetId

/-- The cached dart of a sender with a number. -/
def cachedData (s : GroupServer) (convId senderId seq : ℕ) : Option Buffer :=
  (get₂ s.messageCache convId senderId).bind (·.get seq)

/-- Repair a gap from the cache, and pass the request on: to the sender of the stream, or, when that
is not possible and something is missing, to the whole group. -/
def repair (nack : NackDart) (buf : Buffer) (peer : Peer) : ServerProg Unit := do
  let s ← Prog.get
  let cached := nack.missingSeq.filterMap (s.cachedData nack.convId nack.targetId)
  let missingFromServer :=
    nack.missingSeq.filter fun seq => (s.cachedData nack.convId nack.targetId seq).isNone
  Prog.forEach (fun dart => sendToPeer dart peer) cached
  match get₂ s.clientMap nack.convId nack.targetId with
  | some targetPeer =>
    if targetPeer.id ≠ peer.id then sendToPeer buf targetPeer
    else if missingFromServer ≠ [] then relayToGroup buf nack.convId peer.id
    else pure ()
  | none => if missingFromServer ≠ [] then relayToGroup buf nack.convId peer.id else pure ()

def handleNack (buf : Buffer) (peer : Peer) : ServerProg Unit :=
  match (stripControlFrame buf).bind Codec.parseNack with
  | none => pure ()
  | some nack => repair nack buf peer

/-- Does a frame verify under the key registered for the sender it names?  The outer `none` is an
exception: the frame names no sender, or the registered key is no curve point. -/
def verifyRelayed (s : GroupServer) (buf : Buffer) (convId : ℕ) : Option Bool := do
  let senderId ← buf.readUInt16BE 3
  match get₂ s.members convId senderId with
  | none => some false
  | some memberPub =>
    let key ← pairwiseKey C keys.privateKey memberPub
    some (verifyControlFrame C buf key).isSome

/-- SYNC and Dict-Reset are keyed to the server, which verifies them before it relays them. -/
def handleRelayed (buf : Buffer) (peer : Peer) (convId : ℕ) : ServerProg Unit := do
  let s ← Prog.get
  let verified ← Prog.ofOption (s.verifyRelayed C keys buf convId)
  if verified then relayToGroup buf convId peer.id else pure ()

/-- The branches of `handleMessage`. -/
def handlerOf (type : ℕ) (buf : Buffer) (peer : Peer) (convId : ℕ) : ServerProg Unit :=
  if type = TYPE_DATA then handleData buf peer convId
  else if type = TYPE_KEY_REQ then handleKeyReq C keys buf
  else if type = TYPE_KEY_SHARE ∨ type = TYPE_CHAIN_SHARE then handleTargeted buf convId
  else if type = TYPE_NACK then handleNack buf peer
  else if type = TYPE_SYNC then handleRelayed C keys buf peer convId
  else if type = TYPE_DICT_RESET then handleRelayed C keys buf peer convId
  else if type = TYPE_ACK then handleTargeted buf convId
  else pure ()

/-- What a frame teaches about its transport peer, before anything is verified. -/
def notePeer (type convId : ℕ) (buf : Buffer) (peer : Peer) (s : GroupServer) : GroupServer :=
  let s := joinGroup convId peer s
  if type = TYPE_DATA then s
  else
    match buf.readUInt16BE 3 with
    | none => s
    | some senderId => learnIdentity convId senderId peer s

/-- Handle a frame, before exceptions are caught. -/
def dispatch (buf : Buffer) (peer : Peer) : ServerProg Unit := do
  let type ← Prog.ofOption (buf.readUInt8 0)
  let convId ← Prog.ofOption (buf.readUInt16BE 1)
  Prog.modify (notePeer type convId buf peer)
  handlerOf C keys type buf peer convId

/-- Count a packet of a peer.  The count starts again after a second. -/
def countPacket (now : ℕ) (peer : Peer) : Peer :=
  let start (p : Peer) : Peer := { p with lastPacketTime := some now, packetCount := 0 }
  let peer := if orDefault peer.lastPacketTime 0 = 0 then start peer else peer
  let peer := if orDefault peer.lastPacketTime 0 + 1000 < now then start peer else peer
  { peer with packetCount := peer.packetCount + 1 }

/-- `handleMessage`: a flood and a bad packet are dropped. -/
def handleMessage (now : ℕ) (buf : Buffer) (peer : Peer) : ServerProg Unit := do
  let peer := countPacket now peer
  if 500 < peer.packetCount then pure ()
  else
    let _ ← Prog.attempt (dispatch C keys buf peer)
    pure ()

/-! ### Events and runs -/

inductive Event
  /-- A datagram, or a frame of a TCP or WebSocket connection, at a time. -/
  | message (now : ℕ) (id : String) (link : PeerLink) (buf : Buffer)
  /-- The connection of a peer closed. -/
  | removePeer (peerId : String)
  /-- A WebSocket left the open state. -/
  | socketClosing (socket : ℕ)
  | close
  deriving DecidableEq

/-- One event.  Each datagram comes with a fresh peer object. -/
def step : Event → ServerProg Unit
  | .message now id link buf => handleMessage C keys now buf { id, link }
  | .removePeer peerId => GroupServer.removePeer C keys peerId
  | .socketClosing socket =>
    Prog.modify fun s => { s with closedSockets := insert socket s.closedSockets }
  | .close => Prog.modify fun s => { s with closed := true }

/-- A run of the server from some state. -/
def run (es : List Event) : ServerProg Unit := Prog.eventLoop (step C keys) es

/-- The state a fresh server reaches by a list of events. -/
def stateAfter (es : List Event) : GroupServer := (run C keys es {}).state

/-- The frames that were handed to a transport, each with its peer. -/
def framesOf (os : List ServerOutput) : List (Buffer × Peer) :=
  os.map fun o => match o with
    | .sent buf peer _ => (buf, peer)

end GroupServer

end DartProtocol
