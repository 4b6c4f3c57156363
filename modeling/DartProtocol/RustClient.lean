import DartProtocol.ClientKeys
import DartProtocol.ClientStream
import DartProtocol.RustServer

/-!
# The Rust client

`rust/src/bin/client.rs`.  Its tasks share a `ClientState` behind one mutex: a frame, a typed line and a
rotation each hold it from start to end, so each is one step here.  Only the probe takes it twice, once
to look whether to go on and once to send, and between the two anything may happen.

* Bytes that are handed to a spawned task are an output, with the delay before they go out.  The tasks
  read nothing of the state, so nothing more is known of them.
* An exception is a panic.  A panic in a handler is caught and keeps what was done; in the task of the
  rotations or of a probe it ends the task, and in the main task it ends the process.
* Whether arithmetic that overflows panics or wraps around depends on the build.
* Maps are gone through in insertion order, and the clock is in nanoseconds.
* `pending_key_nonce`, which nothing reads, texts that are printed, and `Transport`, which only adds the
  framing of the TCP fallback, are left out.
-/

namespace DartProtocol.RustClient

open Slice RustCodec

/-! ### State -/

/-- Where the task of a probe stands. -/
inductive Probe
  /-- It looks next whether the newest dart is acknowledged. -/
  | check
  /-- It sends a SYNC next, and then goes on or ends. -/
  | announce (keepGoing : Bool)
  deriving DecidableEq

structure ClientState where
  codec : RustCodec.Codec := {}
  /-- `codec.room_keys`, which the codec itself never reads. -/
  roomKeys : NumMap (NumMap Buffer) := ∅
  roomId : ℕ := 0
  nextSeq : ℕ := 1
  highestSentSeq : ℕ := 0
  highestReceived : NumMap ℕ := ∅
  sentMessages : NumMap RustCodec.DataDart := ∅
  receivedMessages : NumMap (NumMap RustCodec.DataDart) := ∅
  outOfOrderBuffer : NumMap (NumMap Buffer) := ∅
  nackTimestamps : NumMap (NumMap ℕ) := ∅
  serverFingerprint : String := ""
  serverPubKey : Option Buffer := none
  roster : NumMap (NumMap Buffer) := ∅
  sharedWith : NumMap (Finset ℕ) := ∅
  isCreator : NumMap Bool := ∅
  senderChains : NumMap (NumMap (NumMap ChainState)) := ∅
  chainSharedWith : NumMap (Finset ℕ) := ∅
  messageKeys : NumMap MessageKey := ∅
  ackedSeq : NumMap ℕ := ∅
  chainSeeds : NumMap (NumMap ChainState) := ∅
  pendingQueue : List String := []
  /-- Ten seconds before the start, at first. -/
  lastSendTime : ℤ := -10000000000
  /-- The tasks that probe. -/
  probes : List Probe := []
  /-- Is the task of the rotations alive? -/
  rotating : Bool := true
  /-- Has the main task ended? -/
  exited : Bool := false
  clock : ℕ := 0
  /-- How often the random source was used. -/
  draws : ℕ := 0

inductive Output
  /-- Bytes for `Transport::send`, after so many milliseconds. -/
  | send (after : ℕ) (buf : Buffer)
  /-- A dart was encoded into these bytes, for its first transmission or a repeated one. -/
  | encoded (dart : RustCodec.DataDart) (buf : Buffer)
  /-- A dart was stored and shown. -/
  | shown (dart : RustCodec.DataDart)
  /-- A join announcement takes this number. -/
  | announced (seq : ℕ)
  deriving DecidableEq

/-- What a task does while it holds the lock. -/
abbrev RustProg := Prog ClientState Output

/-- The compressor and the decompressor of `flate2`, given data and dictionary.  The compressor may
refuse a dictionary, and what it writes is cut off at the size of its buffer.  The decompressor writes at
most as much as there is room for. -/
structure Flate2 where
  deflate : Buffer → Buffer → Option Buffer
  inflate : Buffer → Buffer → ℕ → Option Buffer

/-- The libraries and the build of a client. -/
structure Setup where
  flate : Flate2
  /-- Does arithmetic that overflows panic? -/
  overflowChecks : Bool

variable (C : Crypto) (L : Setup) (me : Identity)

/-! ### Small operations -/

def randomBytes (n : ℕ) : RustProg Buffer := do
  let s ← Prog.get
  Prog.modify fun s => { s with draws := s.draws + 1 }
  pure (me.random s.draws n)

/-- An addition in so many bits. -/
def addIn (bits a b : ℕ) : Option ℕ :=
  if a + b < 2 ^ bits then some (a + b)
  else if L.overflowChecks then none
  else some ((a + b) % 2 ^ bits)

/-- Hand bytes to a task that sends them. -/
def send (buf : Buffer) : RustProg Unit := Prog.emit (.send 0 buf)

/-- Send what could be encoded. -/
def sendOk : Option Buffer → RustProg Unit
  | none => pure ()
  | some buf => send buf

/-- Send all frames now, and the same bytes again after 300 ms and after a second. -/
def sendThrice (bufs : List Buffer) : RustProg Unit := do
  Prog.forEach (fun b => Prog.emit (.send 0 b)) bufs
  Prog.forEach (fun b => Prog.emit (.send 300 b)) bufs
  Prog.forEach (fun b => Prog.emit (.send 1000 b)) bufs

/-- `verify_control` and `strip_control` are the same functions as in the server. -/
def verifyControl (frame key : Buffer) : Option Buffer := RustServer.verifyControl C frame key

def stripControl (frame : Buffer) : Option Buffer := RustServer.stripControl frame

/-- `sign_control` -/
def signControl (frame key : Buffer) : Buffer := frame ++ C.hmac key frame

def pairKey (peerPub : Buffer) : Option Buffer := pairwiseKey C me.privateKey peerPub

def signForServer (s : ClientState) (frame : Buffer) : Option Buffer :=
  (s.serverPubKey.bind (pairKey C me)).map (signControl C frame)

namespace ClientState

def getChain (s : ClientState) (convId epoch senderId : ℕ) : Option ChainState :=
  (get₂ s.senderChains convId epoch).bind (·.get senderId)

def setChain (s : ClientState) (convId epoch senderId : ℕ) (state : ChainState) : ClientState :=
  { s with
    senderChains := set₂ s.senderChains convId epoch
      (((get₂ s.senderChains convId epoch).getD ∅).set senderId state) }

/-- The current epoch of a conversation, or `1`. -/
def sendingEpoch (s : ClientState) (convId : ℕ) : ℕ := (s.codec.currentEpochs.get convId).getD 1

end ClientState

/-- `advance_chain` -/
def advanceChain (state : ChainState) (targetIndex : ℕ) : Option (Buffer × ChainState) := do
  let steps := targetIndex - state.index
  let key := chainSteps C steps state.key
  let index := state.index + steps
  let next ← addIn L 32 index 1
  some (chainMessageKey C key index, ⟨chainNextKey C key, next⟩)

/-- Join the payloads of the window, oldest first.  Darts are chosen and ordered by their own number. -/
def joinWindow (maxSeq : ℕ) (darts : List RustCodec.DataDart) : Buffer :=
  Buffer.concat (((darts.filter fun d =>
      decide (1 ≤ seqDelta d.seq maxSeq ∧ seqDelta d.seq maxSeq ≤ DICT_WINDOW)).insertionSort
    fun a b => seqDelta b.seq maxSeq ≤ seqDelta a.seq maxSeq).map fun d => utf8 d.payload)

def getDictionary (s : ClientState) (senderId maxSeq : ℕ) : Buffer :=
  if senderId = me.senderId then joinWindow maxSeq (s.sentMessages.entries.map Prod.snd)
  else
    match s.receivedMessages.get senderId with
    | none => joinWindow maxSeq []
    | some msgs => joinWindow maxSeq (msgs.entries.map Prod.snd)

/-- Does a number lie in the window (and its slack) of the newest one? -/
def inWindow (highest seq : ℕ) : Bool := decide (seqDelta seq highest ≤ DICT_WINDOW + 16)

def pruneSent (s : ClientState) : ClientState :=
  { s with
    sentMessages := s.sentMessages.retain fun seq _ => inWindow s.highestSentSeq seq
    messageKeys := s.messageKeys.retain fun seq _ => inWindow s.highestSentSeq seq }

def pruneReceived (senderId : ℕ) (s : ClientState) : ClientState :=
  let highest := (s.highestReceived.get senderId).getD 0
  { s with
    receivedMessages := match s.receivedMessages.get senderId with
      | none => s.receivedMessages
      | some msgs => s.receivedMessages.set senderId (msgs.retain fun seq _ => inWindow highest seq)
    nackTimestamps := match s.nackTimestamps.get senderId with
      | none => s.nackTimestamps
      | some ts => s.nackTimestamps.set senderId (ts.retain fun seq _ => inWindow highest seq) }

/-- `String::from_utf8` -/
def fromUtf8 (b : Buffer) : Option String :=
  if h : (ByteArray.mk ⟨b⟩).IsValidUTF8 then some (String.fromUTF8 _ h) else none

/-- `Codec::inflate_data`: one call with a buffer of an estimated size. -/
def inflateData (compressed dict : Buffer) : Option String :=
  (L.flate.inflate compressed dict (compressed.length * 10 + 1024)).bind fromUtf8

/-! ### Control frames -/

/-- Sign a frame with the pairwise key of a member and send it after a delay. -/
def sendToMember (after : ℕ) (convId targetId : ℕ) (encode : Buffer → Option (Option Buffer)) :
    RustProg Unit := do
  let s ← Prog.get
  let nonce ← randomBytes me 12
  let buf ← Prog.ofOption (encode nonce)
  match buf, (get₂ s.roster convId targetId).bind (pairKey C me) with
  | some buf, some key => Prog.emit (.send after (signControl C buf key))
  | _, _ => pure ()

def sendNack (convId targetId : ℕ) (missing : List ℕ) : RustProg Unit := do
  let s ← Prog.get
  let nack : RustCodec.NackDart :=
    { convId, senderId := me.senderId, targetId, missingSeq := missing }
  sendToMember C me 0 convId targetId (encodeNack C s.codec nack)

/-- The ACK is scheduled for 200 ms later. -/
def sendAck (convId targetId seq : ℕ) : RustProg Unit := do
  let s ← Prog.get
  let ack : RustCodec.AckDart := { convId, senderId := me.senderId, targetId, seq }
  sendToMember C me 200 convId targetId (encodeAck C s.codec ack)

def sendSync : RustProg Unit := do
  let s ← Prog.get
  if s.highestSentSeq = 0 then pure ()
  else
    let sync : RustCodec.SyncDart :=
      { convId := s.roomId, senderId := me.senderId, highestSeq := s.highestSentSeq }
    let nonce ← randomBytes me 12
    let buf ← Prog.ofOption (encodeSync C s.codec sync nonce)
    sendOk (buf.bind (signForServer C me s))

/-- The Dict-Reset of a stream that is given up is signed. -/
def sendLossReset (convId targetId : ℕ) : RustProg Unit := do
  let s ← Prog.get
  let reset : RustCodec.DictResetDart := { convId, senderId := me.senderId, targetId }
  let nonce ← randomBytes me 12
  let buf ← Prog.ofOption (encodeDictReset C s.codec reset nonce)
  sendOk (buf.bind (signForServer C me s))

/-- The Dict-Reset of a desynchronised dictionary goes out as it was encoded. -/
def sendDesyncReset (convId targetId : ℕ) : RustProg Unit := do
  let s ← Prog.get
  let reset : RustCodec.DictResetDart := { convId, senderId := me.senderId, targetId }
  let nonce ← randomBytes me 12
  let buf ← Prog.ofOption (encodeDictReset C s.codec reset nonce)
  sendOk buf

/-! ### Sharing keys and chains -/

/-- One group-key share.  A member whose key is no point is skipped. -/
def buildKeyShare (convId epoch : ℕ) (key : Buffer) (roster : NumMap Buffer) (mId : ℕ) :
    RustProg (Option Buffer) := do
  match (roster.get mId).bind (pairKey C me) with
  | none => pure none
  | some transportKey =>
    let nonce ← randomBytes me 12
    let share : RustCodec.KeyShareDart :=
      { convId, senderId := me.senderId, targetId := mId, epoch, nonce, encryptedKey := key }
    Prog.ofOption (encodeKeyShare C share transportKey)

/-- `build_chain_share` -/
def buildChainShare (convId epoch targetId : ℕ) (targetPub : Option Buffer) (chain : ChainState) :
    RustProg (Option Buffer) := do
  match targetPub.bind (pairKey C me) with
  | none => pure none
  | some transportKey =>
    let nonce ← randomBytes me 12
    let share : RustCodec.ChainShareDart :=
      { convId, senderId := me.senderId, targetId, epoch, nonce, chainKey := chain.key,
        chainIndex := chain.index }
    Prog.ofOption (encodeChainShare C share transportKey)

/-- Build the frames of all targets, and leave out those that could not be built. -/
def buildAll (build : ℕ → RustProg (Option Buffer)) : List ℕ → RustProg (List Buffer)
  | [] => pure []
  | m :: ms => do
    let buf ← build m
    let bufs ← buildAll build ms
    pure (buf.toList ++ bufs)

def shareWithNewMembers (convId : ℕ) : RustProg Unit := do
  let s ← Prog.get
  match s.codec.convKeys.get convId, s.roster.get convId with
  | some key, some roster =>
    let epoch := s.sendingEpoch convId
    let done := (s.sharedWith.get convId).getD ∅
    let targets := shareTargets me roster done
    Prog.modify fun s =>
      { s with sharedWith := s.sharedWith.set convId (done ∪ targets.toFinset) }
    if targets = [] then pure ()
    else
      let bufs ← buildAll (buildKeyShare C me convId epoch key roster) targets
      sendThrice bufs
  | _, _ => pure ()

def shareChainWithMembers (convId epoch : ℕ) : RustProg Unit := do
  let s ← Prog.get
  match s.getChain convId epoch me.senderId, s.roster.get convId with
  | some myChain, some roster =>
    let done := (s.chainSharedWith.get convId).getD ∅
    let targets := shareTargets me roster done
    Prog.modify fun s =>
      { s with chainSharedWith := s.chainSharedWith.set convId (done ∪ targets.toFinset) }
    if targets = [] then pure ()
    else
      let bufs ← buildAll (fun mId => buildChainShare C me convId epoch mId (roster.get mId) myChain)
        targets
      sendThrice bufs
  | _, _ => pure ()

/-- Enter a fresh own chain and its seed. -/
def startChain (convId epoch : ℕ) (seed : Buffer) (s : ClientState) : ClientState :=
  { s.setChain convId epoch me.senderId ⟨seed, 0⟩ with
    chainSeeds := set₂ s.chainSeeds convId epoch ⟨seed, 0⟩
    chainSharedWith := s.chainSharedWith.set convId ∅ }

def initOwnChain (convId epoch : ℕ) : RustProg Unit := do
  let seed ← randomBytes me 32
  Prog.modify (startChain me convId epoch seed)
  shareChainWithMembers C me convId epoch

/-! ### Sending -/

/-- `send_step`: the message key of the next dart, with its index; the own chain moves on. -/
def sendStep (convId : ℕ) : RustProg (Option (Buffer × ℕ)) := do
  let s ← Prog.get
  let epoch := s.sendingEpoch convId
  match s.getChain convId epoch me.senderId with
  | none => pure none
  | some chain =>
    let (messageKey, state) ← Prog.ofOption (advanceChain C L chain chain.index)
    Prog.modify fun s => s.setChain convId epoch me.senderId state
    pure (some (messageKey, chain.index))

/-- Enter a new dart as the newest one. -/
def enterSent (dart : RustCodec.DataDart) (s : ClientState) : ClientState :=
  { s with
    sentMessages := s.sentMessages.set dart.seq dart
    highestSentSeq := dart.seq }

/-- Enter the message key of a dart. -/
def enterKey (seq : ℕ) (key : MessageKey) (s : ClientState) : ClientState :=
  { s with messageKeys := s.messageKeys.set seq key }

/-- The frame of a dart, encoded with the own dictionary. -/
def encodeOwn (dart : RustCodec.DataDart) (dict : Buffer) (key : MessageKey) :
    RustProg (Option Buffer) := do
  let s ← Prog.get
  let nonce ← randomBytes me 12
  let buf ← Prog.ofOption
    (encodeData C L.flate.deflate s.codec dart dict key.key key.idx key.epoch nonce)
  match buf with
  | none => pure none
  | some buf =>
    Prog.emit (.encoded dart buf)
    pure (some buf)

/-- Send the dart of a typed text, with its key. -/
def sendDart (text : String) (messageKey : Buffer) (idx : ℕ) : RustProg Unit := do
  let s ← Prog.get
  let dart : RustCodec.DataDart :=
    { convId := s.roomId, senderId := me.senderId, seq := s.nextSeq, payload := text }
  let key : MessageKey := ⟨messageKey, idx, s.sendingEpoch s.roomId⟩
  Prog.modify fun s =>
    pruneSent (enterKey dart.seq key (enterSent dart { s with nextSeq := seqNext s.nextSeq }))
  let t ← Prog.get
  let buf ← encodeOwn C L me dart (getDictionary me t me.senderId dart.seq) key
  match buf with
  | none => pure ()
  | some buf =>
    send buf
    Prog.modify fun s => { s with probes := s.probes ++ [.check] }

/-- A typed text.  Two texts within 250 ms: the second is dropped.  Without a key or a chain a text is
queued. -/
def sendText (text : String) : RustProg Unit := do
  let s ← Prog.get
  if (s.clock : ℤ) - s.lastSendTime < 250000000 then pure ()
  else
    Prog.modify fun s => { s with lastSendTime := s.clock }
    if s.codec.convKeys.has s.roomId then
      let step ← sendStep C L me s.roomId
      match step with
      | none => Prog.modify fun s => { s with pendingQueue := s.pendingQueue ++ [text] }
      | some (messageKey, idx) => sendDart C L me text messageKey idx
    else Prog.modify fun s => { s with pendingQueue := s.pendingQueue ++ [text] }

/-! ### Adopting and rotating keys -/

/-- Enter a group key and its epoch. -/
def installKey (convId epoch : ℕ) (key : Buffer) (s : ClientState) : ClientState :=
  { s with
    codec :=
      { convKeys := s.codec.convKeys.set convId key
        currentEpochs := s.codec.currentEpochs.set convId epoch }
    roomKeys := set₂ s.roomKeys convId epoch key
    sharedWith := s.sharedWith.set convId ∅ }

/-- What a client says when it has the first key of a conversation. -/
def joinText : String := "User " ++ toString me.senderId ++ " joined the room (Rust Native Client)"

/-- Enter the announcement.  The counter goes on by a plain addition. -/
def enterAnnouncement (dart : RustCodec.DataDart) (next : ℕ) : RustProg Unit := do
  Prog.emit (.announced dart.seq)
  Prog.modify fun s => pruneSent (enterSent dart { s with nextSeq := next })

/-- Announce the client.  The queue is emptied when the announcement can be sent; nothing else is done
with it. -/
def announce (convId epoch : ℕ) : RustProg Unit := do
  let s ← Prog.get
  let dart : RustCodec.DataDart :=
    { convId, senderId := me.senderId, seq := s.nextSeq, payload := joinText me }
  let next ← Prog.ofOption (addIn L 32 s.nextSeq 1)
  enterAnnouncement dart next
  let t ← Prog.get
  let dict := getDictionary me t me.senderId dart.seq
  let step ← sendStep C L me convId
  match step with
  | none => pure ()
  | some (messageKey, idx) =>
    Prog.modify (enterKey dart.seq ⟨messageKey, idx, epoch⟩)
    let buf ← encodeOwn C L me dart dict ⟨messageKey, idx, epoch⟩
    match buf with
    | none => pure ()
    | some buf =>
      Prog.modify fun s => { s with pendingQueue := [] }
      send buf

def adoptKey (convId epoch : ℕ) (key : Buffer) : RustProg Unit := do
  let s ← Prog.get
  Prog.modify (installKey convId epoch key)
  initOwnChain C me convId epoch
  if s.codec.convKeys.has convId then pure () else announce C L me convId epoch
  shareWithNewMembers C me convId

/-- Forget group keys more than four epochs back. -/
def pruneOldEpochs (convId : ℕ) : RustProg Unit := do
  let s ← Prog.get
  let current := (s.codec.currentEpochs.get convId).getD 0
  match s.roomKeys.get convId with
  | none => pure ()
  | some keys =>
    -- the sums are taken before any key is removed
    let sums ← Prog.ofOption (keys.keys.mapM fun e => (addIn L 16 e 4).map fun sum => (e, sum))
    let old := (sums.filter fun p => decide (p.2 < current)).map Prod.fst
    Prog.modify fun s =>
      { s with roomKeys := s.roomKeys.set convId (keys.retain fun e _ => decide (e ∉ old)) }

def rekey (convId : ℕ) : RustProg Unit := do
  let s ← Prog.get
  if (s.isCreator.get convId).getD false then
    let key ← randomBytes me 32
    let epoch ← Prog.ofOption (addIn L 16 (s.sendingEpoch convId) 1)
    adoptKey C L me convId epoch key
    pruneOldEpochs L convId
  else pure ()

/-! ### Receiving -/

/-- The newest number of a sender; zero without one. -/
def highestOf (s : ClientState) (senderId : ℕ) : ℕ := (s.highestReceived.get senderId).getD 0

/-- How far a dart is ahead.  Without a baseline the first dart counts as the next one, unless its
number lies in the window. -/
def dataAhead (s : ClientState) (senderId seq : ℕ) : ℕ :=
  if s.highestReceived.has senderId then seqDelta (highestOf s senderId) seq
  else if 1 ≤ seq ∧ seq ≤ DICT_WINDOW then seq
  else 1

/-- The newest number after one more: numbers that are not ahead do not count. -/
def raised (highest ahead seq : ℕ) : ℕ := if 0 < ahead ∧ ahead < SEQ_MOD / 2 then seq else highest

/-- Give a number up.  The placeholder that is stored for it goes with the history. -/
def giveUp (senderId lostSeq : ℕ) (s : ClientState) : ClientState :=
  let highest := highestOf s senderId
  { s with
    highestReceived := s.highestReceived.set senderId
      (raised highest (seqDelta highest lostSeq) lostSeq)
    receivedMessages := s.receivedMessages.set senderId ∅
    outOfOrderBuffer := s.outOfOrderBuffer.set senderId ∅ }

def declarePermanentLoss (convId senderId lostSeq : ℕ) : RustProg Unit := do
  Prog.modify (giveUp senderId lostSeq)
  sendLossReset C me convId senderId

/-- Forget what was received of a sender and ask for a reset. -/
def recover (convId senderId : ℕ) : RustProg Unit := do
  Prog.modify fun s => { s with receivedMessages := s.receivedMessages.delete senderId }
  sendDesyncReset C me convId senderId

/-- Decrypt with the chain of the sender, and move the chain on only when that works. -/
def decryptDataInOrder (msg : Buffer) (senderId : ℕ) : RustProg (Option RustCodec.DecryptedData) := do
  let epoch ← Prog.ofOption ((slice msg 21 23).bind uint16)
  let idx ← Prog.ofOption ((slice msg 27 31).bind uint32)
  let convId ← Prog.ofOption ((slice msg 1 3).bind uint16)
  let s ← Prog.get
  match s.getChain convId epoch senderId with
  | none => pure none
  | some chain =>
    if idx < chain.index then pure none
    else
      let (messageKey, state) ← Prog.ofOption (advanceChain C L chain idx)
      let dec ← Prog.ofOption (decryptData C msg messageKey)
      match dec with
      | none => pure none
      | some dec =>
        Prog.modify fun s => s.setChain convId epoch senderId state
        pure (some dec)

/-- Store a dart of a sender, and raise its newest number. -/
def storeReceived (ahead : ℕ) (dart : RustCodec.DataDart) (s : ClientState) : ClientState :=
  { s with
    receivedMessages := set₂ s.receivedMessages dart.senderId dart.seq dart
    highestReceived := s.highestReceived.set dart.senderId
      (raised (highestOf s dart.senderId) ahead dart.seq) }

/-- Take a dart out of the buffer. -/
def unbuffer (senderId seq : ℕ) (s : ClientState) : ClientState :=
  match s.outOfOrderBuffer.get senderId with
  | none => s
  | some m => { s with outOfOrderBuffer := s.outOfOrderBuffer.set senderId (m.delete seq) }

/-- A buffered dart that was decrypted.  One that does not fit the dictionary is skipped.  It is stored
with the sender it names, in the history of the stream. -/
def acceptBuffered (dec : RustCodec.DecryptedData) (senderId seq : ℕ) : RustProg Unit := do
  let s ← Prog.get
  let dict := getDictionary me s senderId seq
  if dec.dictFp = (C.sha256 dict).take DICT_FP_LEN then
    match inflateData L dec.compressed dict with
    | none => pure ()
    | some payload =>
      let dart : RustCodec.DataDart := { convId := dec.convId, senderId := dec.senderId, seq, payload }
      let highest := highestOf s senderId
      Prog.modify fun s => { s with
        receivedMessages := set₂ s.receivedMessages senderId seq dart
        highestReceived := s.highestReceived.set senderId (raised highest (seqDelta highest seq) seq) }
      Prog.emit (.shown dart)
  else pure ()

/-- The loop over the buffer, which ends at a number that is not there and at a dart that cannot be
decrypted.  Every turn takes out one dart, so the size of the buffer bounds the turns. -/
def drainBuffer (senderId : ℕ) : ℕ → ℕ → RustProg Unit
  | 0, _ => pure ()
  | turns + 1, nextSeq => do
    let s ← Prog.get
    match get₂ s.outOfOrderBuffer senderId nextSeq with
    | none => pure ()
    | some buffered =>
      Prog.modify (unbuffer senderId nextSeq)
      let dec ← decryptDataInOrder C L buffered senderId
      match dec with
      | none => pure ()
      | some dec =>
        acceptBuffered C L me dec senderId nextSeq
        drainBuffer senderId turns (seqNext nextSeq)

/-- The darts of a sender that are buffered. -/
def buffered (s : ClientState) (senderId : ℕ) : NumMap Buffer :=
  (s.outOfOrderBuffer.get senderId).getD ∅

/-- A dart that is not stored yet: store it, drain the buffer behind it, and schedule the ACK. -/
def acceptDart (dart : RustCodec.DataDart) : RustProg Unit := do
  let s ← Prog.get
  let ahead := if s.highestReceived.has dart.senderId then
      seqDelta (highestOf s dart.senderId) dart.seq
    else 1
  Prog.modify (storeReceived ahead dart)
  Prog.emit (.shown dart)
  let s ← Prog.get
  drainBuffer C L me dart.senderId (buffered s dart.senderId).size (seqNext (highestOf s dart.senderId))
  sendAck C me dart.convId dart.senderId dart.seq

/-- Make the entries of a sender, and with them its baseline. -/
def ensureSender (senderId : ℕ) (s : ClientState) : ClientState :=
  { s with
    highestReceived := s.highestReceived.set senderId (highestOf s senderId)
    receivedMessages := s.receivedMessages.set senderId ((s.receivedMessages.get senderId).getD ∅) }

def processDataPacket (dec : RustCodec.DecryptedData) (parsedSenderId seq : ℕ) : RustProg Unit := do
  if dec.senderId ≠ parsedSenderId then pure ()
  else
    let s ← Prog.get
    let dict := getDictionary me s parsedSenderId seq
    if dec.dictFp ≠ (C.sha256 dict).take DICT_FP_LEN then
      recover C me dec.convId parsedSenderId
    else
      Prog.modify (pruneReceived parsedSenderId)
      match inflateData L dec.compressed dict with
      | none => recover C me dec.convId parsedSenderId
      | some payload =>
        let dart : RustCodec.DataDart :=
          { convId := dec.convId, senderId := parsedSenderId, seq, payload }
        let s ← Prog.get
        if (get₂ s.receivedMessages parsedSenderId seq).isSome then
          Prog.modify (ensureSender parsedSenderId)
        else acceptDart C L me dart

/-- One number of a gap: is it asked for?  A number asked for more than four seconds ago is given up. -/
def askFor (convId senderId i : ℕ) : RustProg Bool := do
  let s ← Prog.get
  if (get₂ s.outOfOrderBuffer senderId i).isSome || (get₂ s.receivedMessages senderId i).isSome then
    pure false
  else
    match get₂ s.nackTimestamps senderId i with
    | none =>
      Prog.modify fun s => { s with nackTimestamps := set₂ s.nackTimestamps senderId i s.clock }
      pure true
    | some ts =>
      if 4000000000 < s.clock - ts then
        declarePermanentLoss C me convId senderId i
        pure false
      else pure true

/-- The numbers of a gap that are asked for. -/
def missingOf (convId senderId : ℕ) : List ℕ → RustProg (List ℕ)
  | [] => pure []
  | i :: is => do
    let wanted ← askFor C me convId senderId i
    let rest ← missingOf convId senderId is
    pure (if wanted then i :: rest else rest)

/-- Ask for what is missing, if anything is. -/
def nackMissing (convId senderId : ℕ) (missing : List ℕ) : RustProg Unit :=
  if missing = [] then pure () else sendNack C me convId senderId missing

/-- A dart beyond the next one: buffer it and look at the gap before it. -/
def bufferAhead (msg : Buffer) (convId senderId seq ahead : ℕ) : RustProg Unit := do
  let s ← Prog.get
  let highest := highestOf s senderId
  Prog.modify fun s =>
    { s with outOfOrderBuffer := set₂ s.outOfOrderBuffer senderId seq msg }
  let missing ← missingOf C me convId senderId (seqsAfter highest (ahead - 1))
  nackMissing C me convId senderId missing

def handleData (msg : Buffer) : RustProg Unit := do
  if msg.length < 7 + 24 then pure ()
  else
    let extLen ← Prog.ofOption (index msg 6)
    if extLen < 24 then pure ()
    else
      let convId ← Prog.ofOption ((slice msg 1 3).bind uint16)
      let seq ← Prog.ofOption ((slice msg 3 6).bind uint24)
      let senderId ← Prog.ofOption ((slice msg 7 9).bind uint16)
      let s ← Prog.get
      let ahead := dataAhead s senderId seq
      if ahead = 0 ∨ SEQ_MOD / 2 ≤ ahead then pure ()
      else if 1 < ahead then bufferAhead C me msg convId senderId seq ahead
      else
        let dec ← decryptDataInOrder C L msg senderId
        match dec with
        | none => pure ()
        | some dec => processDataPacket C L me dec senderId seq

/-! ### Repairs -/

/-- The frame of a member, signed with its pairwise key and addressed to this client. -/
def openPairwise (s : ClientState) (msg : Buffer) : Option (Option (ℕ × ℕ × Buffer)) :=
  if msg.length < 7 then some none
  else do
    let convId ← (slice msg 1 3).bind uint16
    let senderId ← (slice msg 3 5).bind uint16
    let targetId ← (slice msg 5 7).bind uint16
    if targetId ≠ me.senderId then some none
    else
      match (get₂ s.roster convId senderId).bind (pairKey C me) with
      | none => some none
      | some key => some ((verifyControl C msg key).map fun payload => (convId, senderId, payload))

/-- Send one of the own darts again, when its key is still there. -/
def retransmit (seq : ℕ) : RustProg Unit := do
  let s ← Prog.get
  match s.sentMessages.get seq, s.messageKeys.get seq with
  | some dart, some mk =>
    let buf ← encodeOwn C L me dart (getDictionary me s me.senderId seq) mk
    sendOk buf
  | _, _ => pure ()

/-- Give a member the start of the own chain of the current epoch again. -/
def reshareSeed (convId targetId : ℕ) : RustProg Unit := do
  let s ← Prog.get
  let epoch := s.sendingEpoch convId
  match get₂ s.chainSeeds convId epoch with
  | none => pure ()
  | some seed =>
    let buf ← buildChainShare C me convId epoch targetId (get₂ s.roster convId targetId) seed
    sendOk buf

def handleNack (msg : Buffer) : RustProg Unit := do
  let s ← Prog.get
  let opened ← Prog.ofOption (openPairwise C me s msg)
  match opened with
  | none => pure ()
  | some (convId, senderId, stripped) =>
    let nack ← Prog.ofOption (decodeNack C s.codec stripped)
    match nack with
    | none => pure ()
    | some nack =>
      Prog.forEach (retransmit C L me) nack.missingSeq
      reshareSeed C me convId senderId

/-- A SYNC: ask for what is missing up to the announced number. -/
def requestSync (sync : RustCodec.SyncDart) : RustProg Unit := do
  let s ← Prog.get
  let highest := highestOf s sync.senderId
  let ahead := if s.highestReceived.has sync.senderId then seqDelta highest sync.highestSeq
    else sync.highestSeq
  if 0 < ahead ∧ ahead < SEQ_MOD / 2 then
    let missing ← missingOf C me sync.convId sync.senderId (seqsAfter highest ahead)
    nackMissing C me sync.convId sync.senderId missing
  else pure ()

def handleSync (msg : Buffer) : RustProg Unit := do
  match stripControl msg with
  | none => pure ()
  | some stripped =>
    let s ← Prog.get
    let sync ← Prog.ofOption (decodeSync C s.codec stripped)
    match sync with
    | none => pure ()
    | some sync => requestSync C me sync

def handleAck (msg : Buffer) : RustProg Unit := do
  let s ← Prog.get
  let opened ← Prog.ofOption (openPairwise C me s msg)
  match opened with
  | none => pure ()
  | some (_, _, stripped) =>
    let ack ← Prog.ofOption (decodeAck C s.codec stripped)
    match ack with
    | none => pure ()
    | some ack =>
      if seqDelta s.highestSentSeq ack.seq < SEQ_MOD / 2 then
        Prog.modify fun s => { s with ackedSeq := s.ackedSeq.set ack.convId ack.seq }
      else pure ()

/-- The target of a reset flushes what it sent, everybody else what they received of the target. -/
def applyDictReset (targetId : ℕ) (s : ClientState) : ClientState :=
  if targetId = me.senderId then { s with sentMessages := ∅ }
  else { s with receivedMessages := s.receivedMessages.delete targetId }

def handleDictReset (msg : Buffer) : RustProg Unit := do
  match stripControl msg with
  | none => pure ()
  | some stripped =>
    let s ← Prog.get
    let reset ← Prog.ofOption (decodeDictReset C s.codec stripped)
    match reset with
    | none => pure ()
    | some reset => Prog.modify (applyDictReset me reset.targetId)

/-! ### Shares and rosters -/

/-- The transport key of a share addressed to this client by a member of the roster. -/
def shareTransportKey (s : ClientState) (msg : Buffer) : Option (Option (ℕ × Buffer)) :=
  if msg.length < 7 then some none
  else do
    let convId ← (slice msg 1 3).bind uint16
    let senderId ← (slice msg 3 5).bind uint16
    let targetId ← (slice msg 5 7).bind uint16
    if targetId ≠ me.senderId then some none
    else
      match (get₂ s.roster convId senderId).bind (pairKey C me) with
      | none => some none
      | some transportKey => some (some (convId, transportKey))

def handleChainShare (msg : Buffer) : RustProg Unit := do
  let s ← Prog.get
  let opened ← Prog.ofOption (shareTransportKey C me s msg)
  match opened with
  | none => pure ()
  | some (convId, transportKey) =>
    let decoded ← Prog.ofOption (decodeChainShare C msg transportKey)
    match decoded with
    | none => pure ()
    | some decoded =>
      Prog.modify fun s =>
        s.setChain convId decoded.epoch decoded.senderId ⟨decoded.chainKey, decoded.chainIndex⟩

/-- Adopt on first join, on a newer epoch, or on an equal epoch with a different key. -/
def shouldAdopt (s : ClientState) (convId epoch : ℕ) (groupKey : Buffer) : Bool :=
  let current := (s.codec.currentEpochs.get convId).getD 0
  match s.codec.convKeys.get convId with
  | none => true
  | some curKey => decide (current < epoch) || (decide (epoch = current) && decide (curKey ≠ groupKey))

def handleKeyShare (msg : Buffer) : RustProg Unit := do
  let s ← Prog.get
  let opened ← Prog.ofOption (shareTransportKey C me s msg)
  match opened with
  | none => pure ()
  | some (convId, transportKey) =>
    let share ← Prog.ofOption (decodeKeyShare C msg transportKey)
    match share with
    | none => pure ()
    | some (epoch, groupKey) =>
      if shouldAdopt s convId epoch groupKey then adoptKey C L me convId epoch groupKey
      else pure ()

/-- The server key of a roster frame. -/
def memberInfoServerKey (msg : Buffer) : Option Buffer :=
  if msg.length < 70 then none else slice msg 5 70

def rosterOf (members : List RosterEntry) : NumMap Buffer :=
  members.foldl (fun m e => m.set e.senderId e.pubKey) ∅

/-- Take over a roster: remember it, forget the shares of members whose key changed, remember the
server key and the creator flag. -/
def installRoster (info : RustCodec.MemberInfo) (serverPub : Buffer) (s : ClientState) : ClientState :=
  let roster := rosterOf info.members
  let gone := match s.roster.get info.convId with
    | none => ∅
    | some prev => changedMembers prev roster
  { s with
    roster := s.roster.set info.convId roster
    sharedWith := dropDone s.sharedWith info.convId gone
    chainSharedWith := dropDone s.chainSharedWith info.convId gone
    serverPubKey := some serverPub
    isCreator := s.isCreator.set info.convId info.creator }

/-- What follows a roster: a creator without a key founds the group and is done.  Everybody else shares
the key, rotates when it just became the creator, and shares the own chain. -/
def afterRoster (info : RustCodec.MemberInfo) (prevCreator : Bool) : RustProg Unit := do
  let s ← Prog.get
  if s.codec.convKeys.has info.convId = false ∧ info.creator = true then
    let key ← randomBytes me 32
    adoptKey C L me info.convId 1 key
  else
    if s.codec.convKeys.has info.convId then
      shareWithNewMembers C me info.convId
      if info.creator && !prevCreator then rekey C L me info.convId else pure ()
    else pure ()
    let t ← Prog.get
    shareChainWithMembers C me info.convId (t.sendingEpoch info.convId)

def handleMemberInfo (msg : Buffer) : RustProg Unit := do
  match memberInfoServerKey msg with
  | none => pure ()
  | some serverPub =>
    let s ← Prog.get
    if s.serverFingerprint ≠ "" ∧
        DartProtocol.Codec.serverFingerprint C serverPub ≠ s.serverFingerprint then
      pure ()
    else
      match pairKey C me serverPub with
      | none => pure ()
      | some transportKey =>
        let info ← Prog.ofOption (decodeMemberInfo C msg transportKey)
        match info with
        | none => pure ()
        | some info =>
          let prevCreator := (s.isCreator.get info.convId).getD false
          Prog.modify (installRoster info serverPub)
          afterRoster C L me info prevCreator

/-! ### Dispatch -/

/-- `process_message_inner` -/
def processMessageInner (msg : Buffer) : RustProg Unit := do
  let typ ← Prog.ofOption (index msg 0)
  if typ = TYPE_DATA then handleData C L me msg
  else if typ = TYPE_CHAIN_SHARE then handleChainShare C me msg
  else if typ = TYPE_NACK then handleNack C L me msg
  else if typ = TYPE_SYNC then handleSync C me msg
  else if typ = TYPE_ACK then handleAck C me msg
  else if typ = TYPE_KEY_SHARE then handleKeyShare C L me msg
  else if typ = TYPE_MEMBER_INFO then handleMemberInfo C L me msg
  else if typ = TYPE_DICT_RESET then handleDictReset C me msg
  else pure ()

/-- `handle_message`: a panic is caught, and what was done before it stays. -/
def handleMessage (msg : Buffer) : RustProg Unit := do
  if msg = [] then pure ()
  else
    let _ ← Prog.attempt (processMessageInner C L me msg)
    pure ()

/-! ### Tasks and typed lines -/

/-- The frame of a KeyReq. -/
def keyReq (roomId : ℕ) : RustProg Buffer := do
  let reqNonce ← randomBytes me 16
  Prog.ofOption (encodeKeyReq
    { convId := roomId, senderId := me.senderId, reqNonce,
      clientPubKey := C.getPublicKey me.privateKey })

/-- A line `/join`: ask for the room, and again after one, two and three seconds. -/
def joinRoom (roomId : ℕ) : RustProg Unit := do
  Prog.modify fun s => { s with roomId := roomId }
  Prog.forEach (fun after => do
    let buf ← keyReq C me roomId
    Prog.emit (.send after buf)) [0, 1000, 2000, 3000]

/-- One turn of the rotation task: every conversation this client created. -/
def rotate : RustProg Unit := do
  let s ← Prog.get
  let convs := (s.isCreator.entries.filter Prod.snd).map Prod.fst
  Prog.forEach (rekey C L me) convs

/-- Does the newest dart still lack its acknowledgement? -/
def unacknowledged (s : ClientState) : Bool :=
  decide (s.highestSentSeq ≠ 0) &&
    decide (SEQ_MOD / 2 ≤ seqDelta s.highestSentSeq ((s.ackedSeq.get s.roomId).getD 0))

/-- What a probe does each time it has the lock. -/
def probeTurn : Probe → RustProg (Option Probe)
  | .check => do
    let s ← Prog.get
    pure (some (.announce (unacknowledged s)))
  | .announce keepGoing => do
    sendSync C me
    pure (if keepGoing then some .check else none)

inductive Event
  /-- A line that was typed. -/
  | text (line : String)
  | joinRoom (roomId : ℕ)
  /-- A datagram, or a frame of the TCP fallback. -/
  | message (msg : Buffer)
  /-- The rotation task wakes up. -/
  | rotate
  /-- The probe at this position takes the lock. -/
  | probe (i : ℕ)
  /-- Time passes. -/
  | tick (ns : ℕ)
  deriving DecidableEq

/-- The main task: a panic ends the process. -/
def mainTask (m : RustProg Unit) : RustProg Unit := do
  let done ← Prog.attempt m
  if done.isNone then Prog.modify fun s => { s with exited := true } else pure ()

/-- One step of a client that is running. -/
def stepRunning : Event → RustProg Unit
  | .text line => mainTask (sendText C L me line)
  | .joinRoom roomId => mainTask (RustClient.joinRoom C me roomId)
  | .message msg => handleMessage C L me msg
  | .rotate => do
    let s ← Prog.get
    if s.rotating then
      let done ← Prog.attempt (RustClient.rotate C L me)
      if done.isNone then Prog.modify fun s => { s with rotating := false } else pure ()
    else pure ()
  | .probe i => do
    let s ← Prog.get
    match s.probes[i]? with
    | none => pure ()
    | some p =>
      Prog.modify fun s => { s with probes := s.probes.eraseIdx i }
      let next ← probeTurn C me p
      Prog.modify fun s => { s with probes := s.probes ++ next.toList }
  | .tick ns => Prog.modify fun s => { s with clock := s.clock + ns }

def step (e : Event) : RustProg Unit := do
  let s ← Prog.get
  if s.exited then pure () else stepRunning C L me e

/-- A run of a fresh client, which may have pinned the fingerprint of its server. -/
def run (fp : String) (es : List Event) : Outcome ClientState Output Unit :=
  Prog.eventLoop (step C L me) es { serverFingerprint := fp }

/-- The state a fresh client reaches by a list of events. -/
def stateAfter (fp : String) (es : List Event) : ClientState := (run C L me fp es).state

end DartProtocol.RustClient

/-- Compression that does nothing, in a build that checks sums. -/
def DartProtocol.sumSetup : DartProtocol.RustClient.Setup :=
  ⟨⟨fun payload _ => some payload, fun packed _ room => some (packed.take room)⟩, true⟩
