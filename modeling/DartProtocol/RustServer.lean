import DartProtocol.AtomicThread
import DartProtocol.RustCodec
import DartProtocol.Server

/-!
# The Rust server

The server of `rust/src/bin/server.rs`.  Every frame and every closed connection is handled by a task
of its own, and the tasks share the state behind a lock that they take and release several times on
their way.  A task is a `Thread` here, with one section for each time it holds the lock, and a run is
an interleaving of all sections.

* `handleMessage` — every frame type; a panic ends the task only;
* `cleanupPeer` — what a closed connection triggers;
* `step`, `run` — the server as a state machine over arriving frames, connections, the clock, and the
  turns of its tasks.

A `HashSet` of peers is a list without repetitions, and iteration goes in insertion order.
`conv_keys` and the codec filled from it are left out: nothing writes the one, and no branch asks the
other for a key.
-/

namespace DartProtocol.RustServer

open Slice

/-! ### State -/

/-- A peer is known by its transport and the text of its address. -/
inductive PeerId
  | udp (addr : String)
  | ws (addr : String)
  | tcp (addr : String)
  deriving DecidableEq, Repr

structure ServerState where
  rooms : NumMap (List PeerId) := ∅
  clientMap : NumMap (NumMap PeerId) := ∅
  peerIds : InsertionMap PeerId ℕ := ∅
  members : NumMap (NumMap Buffer) := ∅
  creator : NumMap ℕ := ∅
  messageCache : NumMap (NumMap (NumMap Buffer)) := ∅
  highestSeq : NumMap (NumMap ℕ) := ∅
  /-- When the second of a peer began, in milliseconds, and how many packets it has seen. -/
  rateLimits : InsertionMap PeerId (ℕ × ℕ) := ∅
  /-- The connections with a writer task. -/
  streamPeers : List PeerId := []
  /-- What the clock shows. -/
  now : ℕ := 0
  /-- How often the random source was used. -/
  draws : ℕ := 0

inductive Output
  /-- A frame was handed to `send_to_peer`; it is on its way unless its connection has no writer. -/
  | sent (msg : Buffer) (peer : PeerId) (carried : Bool)
  /-- A Data dart was accepted into the cache. -/
  | cached (convId senderId seq : ℕ) (msg : Buffer)
  deriving DecidableEq, Repr

/-- Tasks of the server. -/
abbrev RustTask := Thread ServerState Output

variable (C : Crypto) (keys : ServerKeys)

/-! ### Sending -/

/-- Datagrams always go out; a frame for a connection goes to its writer. -/
def carries (s : ServerState) : PeerId → Bool
  | .udp _ => true
  | peer => decide (peer ∈ s.streamPeers)

def sendToPeer (msg : Buffer) (peer : PeerId) : RustTask Unit :=
  Thread.emit fun s => [.sent msg peer (carries s peer)]

/-- The peers of a room other than one. -/
def othersIn (s : ServerState) (convId : ℕ) (peer : PeerId) : List PeerId :=
  ((s.rooms.get convId).getD []).filter fun p => decide (p ≠ peer)

/-- Send a frame to the other peers of a room, as they are when the lock is held. -/
def relayToGroup (msg : Buffer) (convId : ℕ) (peer : PeerId) : RustTask Unit := do
  let group ← Thread.read fun s => othersIn s convId peer
  Thread.forEach (sendToPeer msg) group

/-- Send a frame to the peer that speaks for a member, when there is one. -/
def relayToMember (msg : Buffer) (convId targetId : ℕ) : RustTask Unit := do
  let target ← Thread.read fun s => get₂ s.clientMap convId targetId
  match target with
  | none => pure ()
  | some peer => sendToPeer msg peer

/-! ### Rosters -/

def randomBytes (n : ℕ) : RustTask Buffer :=
  Thread.atomic (fun s => ({ s with draws := s.draws + 1 }, [])) fun s => .done (keys.random s.draws n)

/-- Announce a roster to one member.  A member whose key is no curve point is skipped. -/
def notifyMember (convId : ℕ) (roster : List RosterEntry) (e : ℕ × Buffer) : RustTask Unit :=
  match C.computeSecret keys.privateKey e.2 with
  | none => pure ()
  | some shared => do
    let creator ← Thread.read fun s => decide (s.creator.get convId = some e.1)
    let nonce ← randomBytes keys 12
    let out ← Thread.ofOption (RustCodec.encodeMemberInfo C
      { convId, senderId := e.1, serverPubKey := C.getPublicKey keys.privateKey, creator,
        members := roster } (C.sha256 shared) nonce)
    match out with
    | none => pure ()
    | some out => relayToMember out convId e.1

/-- The roster is read first, and the members to announce it to in a section of its own. -/
def notifyMembers (convId : ℕ) : RustTask Unit := do
  let mems ← Thread.read fun s => s.members.get convId
  match mems with
  | none => pure ()
  | some mems =>
    let targets ← Thread.read fun s => ((s.members.get convId).getD ∅).entries
    Thread.forEach (notifyMember C keys convId (GroupServer.rosterEntries mems)) targets

/-! ### Joining and leaving -/

/-- What a frame teaches about its peer. -/
def notePeer (typ convId : ℕ) (msg : Buffer) (peer : PeerId) (s : ServerState) : ServerState :=
  let room := (s.rooms.get convId).getD []
  let s := { s with rooms := s.rooms.set convId (if peer ∈ room then room else room ++ [peer]) }
  if typ ≠ TYPE_DATA ∧ 5 ≤ msg.length then
    match msg.readUInt16BE 3 with
    | none => s
    | some senderId =>
      { s with
        peerIds := s.peerIds.set peer senderId
        clientMap := set₂ s.clientMap convId senderId peer }
  else s

/-- Register the public key of a KeyReq.  An empty room gets a creator, and so does one whose creator
cannot be reached. -/
def registerMember (req : RustCodec.KeyReqDart) (s : ServerState) : ServerState :=
  let first := ((s.members.get req.convId).getD ∅).size = 0
  let creator := if first then s.creator.set req.convId req.senderId else s.creator
  let creatorAlive := ((creator.get req.convId).bind (get₂ s.clientMap req.convId)).isSome
  { s with
    creator := if creatorAlive then creator else creator.set req.convId req.senderId
    members := set₂ s.members req.convId req.senderId req.clientPubKey }

/-- Strike a member from a room.  A departed creator is followed by the smallest remaining id, and an
empty room is dropped. -/
def removeMember (senderId : ℕ) (s : ServerState) (convId : ℕ) : ServerState :=
  let mems := (s.members.get convId).map (·.delete senderId)
  { s with
    creator :=
      if s.creator.get convId = some senderId then
        match ((mems.getD ∅).keys).min? with
        | none => s.creator.delete convId
        | some successor => s.creator.set convId successor
      else s.creator
    members :=
      match mems with
      | none => s.members
      | some mems => if mems.size = 0 then s.members.delete convId else s.members.set convId mems }

/-- The rooms a peer is in. -/
def roomsOf (s : ServerState) (peer : PeerId) : List ℕ :=
  (s.rooms.entries.filter fun e => decide (peer ∈ e.2)).map Prod.fst

/-- Forget a peer: its connection, its rooms, and the member it spoke for. -/
def removePeer (peer : PeerId) (s : ServerState) : ServerState :=
  let t := { s with
    streamPeers := s.streamPeers.filter fun p => decide (p ≠ peer)
    rooms := s.rooms.mapValues fun _ room => room.filter fun p => decide (p ≠ peer) }
  match s.peerIds.get peer with
  | none => t
  | some senderId =>
    (roomsOf s peer).foldl (removeMember senderId) { t with peerIds := s.peerIds.delete peer }

def cleanupPeer (peer : PeerId) : RustTask Unit := do
  let convs ← Thread.atomic (fun s => (removePeer peer s, [])) fun s => .done (roomsOf s peer)
  Thread.forEach (notifyMembers C keys) convs

/-! ### Frames -/

/-- Two bytes, `u16::from_be_bytes([msg[i], msg[i + 1]])`. -/
def fromBeBytes (msg : Buffer) (i : ℕ) : Option ℕ := do
  let hi ← index msg i
  let lo ← index msg (i + 1)
  some (hi * 256 + lo)

/-- The number of a Data dart, `(msg[3] as u32) << 16 | (msg[4] as u32) << 8 | (msg[5] as u32)`. -/
def dataSeq (msg : Buffer) : Option ℕ := do
  let hi ← index msg 3
  let mid ← index msg 4
  let lo ← index msg 5
  some (hi * 65536 + mid * 256 + lo)

/-- Cache a Data dart and forget what fell out of the window behind the newer of it and the highest
number so far.  The first dart of a sender is its baseline; until then its highest number reads as
zero and is entered so. -/
def cacheData (convId senderId seq : ℕ) (msg : Buffer) (s : ServerState) : ServerState :=
  let hasBaseline := (get₂ s.highestSeq convId senderId).isSome
  let currentHighest := (get₂ s.highestSeq convId senderId).getD 0
  let highest := if hasBaseline then s.highestSeq else set₂ s.highestSeq convId senderId 0
  let cache := ((get₂ s.messageCache convId senderId).getD ∅).set seq msg
  let ahead := if hasBaseline then seqDelta currentHighest seq else 1
  let refSeq := if SEQ_MOD / 2 ≤ ahead then currentHighest else seq
  { s with
    messageCache := set₂ s.messageCache convId senderId
      (cache.retain fun k _ => decide (seqDelta k refSeq ≤ 200))
    highestSeq :=
      if 0 < ahead ∧ ahead < SEQ_MOD / 2 then set₂ highest convId senderId seq else highest }

/-- A Data dart counts as sent by whom its peer last claimed to be.  Caching it and copying the room
is one section. -/
def handleData (msg : Buffer) (peer : PeerId) (convId : ℕ) : RustTask Unit :=
  if msg.length < 7 then pure ()
  else do
    let sender ← Thread.read fun s => s.peerIds.get peer
    match sender with
    | none => pure ()
    | some senderId =>
      let seq ← Thread.ofOption (dataSeq msg)
      let group ← Thread.atomic
        (fun s => (cacheData convId senderId seq msg s, [.cached convId senderId seq msg]))
        fun s => .done (othersIn s convId peer)
      Thread.forEach (sendToPeer msg) group

def handleKeyReq (msg : Buffer) : RustTask Unit := do
  let req ← Thread.ofOption (RustCodec.decodeKeyReq msg)
  match req with
  | none => pure ()
  | some req =>
    Thread.update (registerMember req)
    notifyMembers C keys req.convId

/-- Shares and ACKs go to the member they name. -/
def handleTargeted (msg : Buffer) (convId : ℕ) : RustTask Unit :=
  if msg.length < 7 then pure ()
  else do
    let targetId ← Thread.ofOption (fromBeBytes msg 5)
    relayToMember msg convId targetId

def stripControl (frame : Buffer) : Option Buffer :=
  if frame.length < 32 then none else some (frame.take (frame.length - 32))

def verifyControl (frame key : Buffer) : Option Buffer :=
  if frame.length < 32 then none
  else
    let payload := frame.take (frame.length - 32)
    if C.hmac key payload = frame.drop (frame.length - 32) then some payload else none

/-- The cached dart of a sender with a number. -/
def cachedData (s : ServerState) (convId senderId seq : ℕ) : Option Buffer :=
  (get₂ s.messageCache convId senderId).bind (·.get seq)

/-- What a NACK finds while the lock is held: the cached darts, the numbers without one, and the rest
of the room. -/
def lookUp (nack : RustCodec.NackDart) (peer : PeerId) (s : ServerState) :
    List Buffer × List ℕ × List PeerId :=
  (nack.missingSeq.filterMap (cachedData s nack.convId nack.targetId),
    nack.missingSeq.filter fun seq => (cachedData s nack.convId nack.targetId seq).isNone,
    othersIn s nack.convId peer)

/-- Repair a gap from the cache and pass the request on: to the sender of the stream unless that is
who asks, or, when nobody speaks for the sender and something is missing, to the rest of the room. -/
def repair (nack : RustCodec.NackDart) (msg : Buffer) (peer : PeerId) : RustTask Unit := do
  let (toSend, missingFromServer, group) ← Thread.read (lookUp nack peer)
  Thread.forEach (fun cached => sendToPeer cached peer) toSend
  let target ← Thread.read fun s => get₂ s.clientMap nack.convId nack.targetId
  match target with
  | some tp => if tp ≠ peer then sendToPeer msg tp else pure ()
  | none => if missingFromServer ≠ [] then Thread.forEach (sendToPeer msg) group else pure ()

def handleNack (msg : Buffer) (peer : PeerId) : RustTask Unit :=
  match stripControl msg with
  | none => pure ()
  | some stripped => do
    let nack ← Thread.ofOption (RustCodec.parseNack stripped)
    match nack with
    | none => pure ()
    | some nack => repair nack msg peer

/-- SYNC and Dict-Reset are keyed to the server, which verifies them before it relays them.  The
sender is read without looking at the length of the frame first. -/
def handleRelayed (msg : Buffer) (peer : PeerId) : RustTask Unit := do
  let convId ← Thread.ofOption (fromBeBytes msg 1)
  let senderId ← Thread.ofOption (fromBeBytes msg 3)
  let memberPub ← Thread.read fun s => get₂ s.members convId senderId
  match memberPub.bind (pairwiseKey C keys.privateKey) with
  | none => pure ()
  | some key => if (verifyControl C msg key).isSome then relayToGroup msg convId peer else pure ()

/-- The branches of `handle_message`. -/
def handlerOf (typ : ℕ) (msg : Buffer) (peer : PeerId) (convId : ℕ) : RustTask Unit :=
  if typ = TYPE_DATA then handleData msg peer convId
  else if typ = TYPE_KEY_REQ then handleKeyReq C keys msg
  else if typ = TYPE_KEY_SHARE ∨ typ = TYPE_CHAIN_SHARE then handleTargeted msg convId
  else if typ = TYPE_NACK then handleNack msg peer
  else if typ = TYPE_SYNC then handleRelayed C keys msg peer
  else if typ = TYPE_DICT_RESET then handleRelayed C keys msg peer
  else if typ = TYPE_ACK then handleTargeted msg convId
  else pure ()

/-- The entry of a peer in the rate limiter after one more packet. -/
def packetCount (peer : PeerId) (s : ServerState) : ℕ × ℕ :=
  let entry := (s.rateLimits.get peer).getD (s.now, 0)
  let entry := if entry.1 + 1000 < s.now then (s.now, 0) else entry
  (entry.1, entry.2 + 1)

/-- Count a packet.  The count starts again after a second. -/
def countPacket (peer : PeerId) (s : ServerState) : ServerState :=
  { s with rateLimits := s.rateLimits.set peer (packetCount peer s) }

def handleMessage (msg : Buffer) (peer : PeerId) : RustTask Unit :=
  if msg = [] then pure ()
  else do
    let (_, count) ← Thread.atomic (fun s => (countPacket peer s, [])) fun s =>
      .done (packetCount peer s)
    if 500 < count then pure ()
    else
      let typ ← Thread.ofOption (index msg 0)
      if msg.length < 3 then pure ()
      else
        let convId ← Thread.ofOption (fromBeBytes msg 1)
        Thread.update (notePeer typ convId msg peer)
        handlerOf C keys typ msg peer convId

/-! ### Events and runs -/

inductive Event
  /-- A frame arrived; a task is spawned for it. -/
  | message (msg : Buffer) (peer : PeerId)
  /-- A connection was accepted; its writer is entered. -/
  | connect (peer : PeerId)
  /-- A reader or a writer of a connection ended. -/
  | closed (peer : PeerId)
  /-- Time passed. -/
  | tick (ms : ℕ)
  /-- A task runs its next section. -/
  | turn (task : ℕ)
  deriving DecidableEq

/-- A server with its tasks. -/
abbrev RustPool := Pool ServerState Output

def step : Event → Prog RustPool Output Unit
  | .message msg peer => Prog.modify (Pool.spawn (handleMessage C keys msg peer))
  | .connect peer => Prog.modify fun p => { p with
      state := { p.state with
        streamPeers := if peer ∈ p.state.streamPeers then p.state.streamPeers
          else p.state.streamPeers ++ [peer] } }
  | .closed peer => Prog.modify (Pool.spawn (cleanupPeer C keys peer))
  | .tick ms => Prog.modify fun p => { p with state := { p.state with now := p.state.now + ms } }
  | .turn task => Pool.turn task

/-- A run of the server from some state. -/
def run (es : List Event) : Prog RustPool Output Unit := Prog.eventLoop (step C keys) es

/-- What a fresh server and its tasks reach by a list of events. -/
def poolAfter (es : List Event) : RustPool := (run C keys es { state := {} }).state

/-- The state a fresh server reaches by a list of events. -/
def stateAfter (es : List Event) : ServerState := (poolAfter C keys es).state

theorem poolAfter_concat (es : List Event) (e : Event) :
    poolAfter C keys (es ++ [e]) = (step C keys e (poolAfter C keys es)).state := by
  rw [poolAfter, run, Prog.eventLoop_append]
  rfl

end DartProtocol.RustServer
