import DartProtocol.InsertionMap
import DartProtocol.EffectProgram
import DartProtocol.CodecData

/-!
# The client: state, outputs and small operations

The fields of `DartClient` in `src/client.ts`, with the timers it has pending as part of the state.
A timer keeps what its callback captured: a key-share retry keeps the roster object of the moment it
was scheduled, a chain-share retry only the chain state.  Real time is not modelled; a pending timer
may fire at any later moment.

Besides what goes out through `broadcast`, an `Output` records moments that leave no trace on the
wire but that statements about streams refer to: a new dart entered `sentMessages`, a dart was
encoded, a dictionary was compared, a dart was stored, a chain was started.
-/

namespace DartProtocol

/-- Maps of the client and the server are keyed by numbers. -/
abbrev NumMap := InsertionMap ℕ

/-- What is fixed for the life of one client: its id, its ECDH private key and its random source.
`random i n` are the `n` bytes of the `i`-th draw. -/
structure Identity where
  senderId : ℕ
  privateKey : Buffer
  random : ℕ → ℕ → Buffer

/-- The random source returns as many bytes as asked for. -/
def Identity.Lawful (me : Identity) : Prop := ∀ i n, (me.random i n).length = n

/-- A cached message key with its position on the chain. -/
structure MessageKey where
  key : Buffer
  idx : ℕ
  epoch : ℕ
  deriving DecidableEq, Repr

inductive MessageStatus
  | sent
  | assumedDelivered
  deriving DecidableEq, Repr

/-- A UDP destination. -/
structure PeerAddress where
  address : String
  port : ℕ
  deriving DecidableEq, Repr

/-- A pending retry of group-key or chain shares, with what its closure captured. -/
inductive ShareRetry
  | key (convId epoch : ℕ) (key : Buffer) (targets : List ℕ) (roster : NumMap Buffer)
  | chain (convId epoch : ℕ) (targets : List ℕ) (chain : ChainState)
  deriving DecidableEq

/-- The state of a `DartClient`. -/
structure Client where
  nextSeq : ℕ := 1
  highestReceivedSeq : NumMap ℕ := ∅
  highestSentSeq : ℕ := 0
  sentMessages : NumMap DataDart := ∅
  receivedMessages : NumMap (NumMap DataDart) := ∅
  outOfOrderBuffer : NumMap (NumMap Buffer) := ∅
  messageStatus : NumMap MessageStatus := ∅
  peers : List PeerAddress := []
  /-- The conversation whose probe is pending. -/
  probeTimer : Option ℕ := none
  ackedSeq : NumMap ℕ := ∅
  seenSeq : NumMap ℕ := ∅
  /-- Sender to the conversation its NACK retry is for. -/
  nackRetryTimers : NumMap ℕ := ∅
  /-- Sequence numbers with a pending optimistic-delivery timer. -/
  optimisticTimers : Finset ℕ := ∅
  /-- Sender to the conversation and sequence number of its pending ACK. -/
  ackTimers : NumMap (ℕ × ℕ) := ∅
  /-- Is there a TCP fallback socket? -/
  tcpSocket : Bool := false
  useFallback : Bool := false
  roster : NumMap (NumMap Buffer) := ∅
  sharedWith : NumMap (Finset ℕ) := ∅
  /-- The conversation whose rekey is pending. -/
  rekeyTimer : Option ℕ := none
  isCreator : NumMap Bool := ∅
  serverFingerprint : String := ""
  serverPubKeys : NumMap Buffer := ∅
  senderChains : NumMap (NumMap (NumMap ChainState)) := ∅
  chainSharedWith : NumMap (Finset ℕ) := ∅
  messageKeys : NumMap MessageKey := ∅
  chainSeeds : NumMap (NumMap ChainState) := ∅
  adoptedEpochs : NumMap ℕ := ∅
  roomKeys : NumMap (NumMap Buffer) := ∅
  currentEpochs : NumMap ℕ := ∅
  closed : Bool := false
  /-- Pending retries of shares. -/
  shareTimers : List ShareRetry := []
  /-- Conversations with a pending KeyReq retry. -/
  joinTimers : List ℕ := []
  /-- How often the random source was used. -/
  draws : ℕ := 0

/-- How a broadcast frame left the client. -/
inductive Transport
  | tcp (frame : Buffer)
  | udp (peers : List PeerAddress)
  deriving DecidableEq

/-- One call of the Data encoder: its arguments and its result. -/
structure Encoding where
  dart : DataDart
  dict : Buffer
  messageKey : Buffer
  idx : ℕ
  epoch : ℕ
  nonce : Buffer
  buf : Buffer
  deriving DecidableEq

inductive Output
  /-- A frame left the client. -/
  | broadcast (buf : Buffer) (via : Transport)
  /-- `sendData` entered a new dart in `sentMessages`. -/
  | sent (dart : DataDart)
  /-- A Data dart was encoded, for its first transmission or a repeated one. -/
  | encoded (e : Encoding)
  /-- The fingerprint of this dictionary was compared with that of a received dart. -/
  | checked (dict : Buffer)
  /-- A received dart entered `receivedMessages`. -/
  | stored (dart : DataDart)
  /-- An own ratchet chain was started from this seed. -/
  | chainStarted (convId epoch : ℕ) (seed : Buffer)
  /-- A chain state was handed to another member. -/
  | chainShared (share : ChainShareDart)
  deriving DecidableEq

/-- Programs of the client. -/
abbrev ClientProg := Prog Client Output

/-! ### Nested maps -/

/-- `map.get(i)?.get(j)` -/
def get₂ {ν : Type} (m : NumMap (NumMap ν)) (i j : ℕ) : Option ν := (m.get i).bind (·.get j)

/-- Write into an inner map, creating it when it is missing. -/
def set₂ {ν : Type} (m : NumMap (NumMap ν)) (i j : ℕ) (v : ν) : NumMap (NumMap ν) :=
  m.set i (((m.get i).getD ∅).set j v)

theorem get₂_set₂ {ν : Type} (m : NumMap (NumMap ν)) (i j i' j' : ℕ) (v : ν) :
    get₂ (set₂ m i j v) i' j' = if i = i' ∧ j = j' then some v else get₂ m i' j' := by
  rw [get₂, set₂, InsertionMap.get_set]
  by_cases hi : i = i'
  · subst hi
    rw [if_pos rfl, Option.bind_some, InsertionMap.get_set]
    by_cases hj : j = j'
    · simp [hj]
    · rw [if_neg hj, if_neg (fun h => hj h.2), get₂]
      cases m.get i <;> rfl
  · rw [if_neg hi, if_neg (fun h => hi h.1), get₂]

namespace Client

/-! ### Keys and chains -/

def getCurrentKey (s : Client) (convId : ℕ) : Option Buffer :=
  get₂ s.roomKeys convId (orDefault (s.currentEpochs.get convId) 1)

/-- The epoch `sendData` and the share functions use. -/
def sendingEpoch (s : Client) (convId : ℕ) : ℕ := orDefault (s.currentEpochs.get convId) 1

def getChain (s : Client) (convId epoch senderId : ℕ) : Option ChainState :=
  (get₂ s.senderChains convId epoch).bind (·.get senderId)

def setChain (s : Client) (convId epoch senderId : ℕ) (state : ChainState) : Client :=
  { s with
    senderChains := set₂ s.senderChains convId epoch
      (((get₂ s.senderChains convId epoch).getD ∅).set senderId state) }

theorem getChain_setChain (s : Client) (c e m c' e' m' : ℕ) (st : ChainState) :
    (s.setChain c e m st).getChain c' e' m'
      = if c = c' ∧ e = e' ∧ m = m' then some st else s.getChain c' e' m' := by
  rw [getChain, setChain, get₂_set₂]
  by_cases hce : c = c' ∧ e = e'
  · obtain ⟨rfl, rfl⟩ := hce
    rw [if_pos ⟨rfl, rfl⟩, Option.bind_some, InsertionMap.get_set]
    by_cases hm : m = m'
    · simp [hm]
    · rw [if_neg hm, if_neg (fun h => hm h.2.2), getChain]
      cases get₂ s.senderChains c e <;> rfl
  · rw [if_neg hce, if_neg (fun h => hce ⟨h.1, h.2.1⟩), getChain]

@[simp] theorem getChain_setChain_self (s : Client) (c e m : ℕ) (st : ChainState) :
    (s.setChain c e m st).getChain c e m = some st := by
  rw [getChain_setChain, if_pos ⟨rfl, rfl, rfl⟩]

theorem getChain_setChain_of_ne (s : Client) {c e m c' e' m' : ℕ} (st : ChainState)
    (h : ¬ (c = c' ∧ e = e' ∧ m = m')) :
    (s.setChain c e m st).getChain c' e' m' = s.getChain c' e' m' := by
  rw [getChain_setChain, if_neg h]

/-- What held of every chain of a member, and holds of the new one where it is the member's. -/
theorem forall_getChain_setChain {P : ℕ → ℕ → ChainState → Prop} {s : Client} {n c e m : ℕ}
    {st : ChainState} (h : ∀ c' e' st', s.getChain c' e' n = some st' → P c' e' st')
    (hst : m = n → P c e st) (c' e' : ℕ) (st' : ChainState)
    (hget : (s.setChain c e m st).getChain c' e' n = some st') : P c' e' st' := by
  rw [getChain_setChain] at hget
  split at hget
  · rename_i hsame
    obtain ⟨rfl, rfl, hm⟩ := hsame
    cases hget
    exact hst hm
  · exact h c' e' st' hget

/-- Raise the highest sequence number seen of a sender. -/
def noteSeen (s : Client) (senderId seq : ℕ) : Client :=
  let seen := orDefault (s.seenSeq.get senderId) 0
  if 0 < seqDelta seen seq ∧ seqDelta seen seq < SEQ_MOD / 2 then
    { s with seenSeq := s.seenSeq.set senderId seq }
  else if s.seenSeq.has senderId = false then
    { s with seenSeq := s.seenSeq.set senderId seq }
  else s

end Client

/-! ### Random bytes and sending -/

variable (me : Identity)

/-- `crypto.randomBytes(n)` -/
def randomBytes (n : ℕ) : ClientProg Buffer := do
  let s ← Prog.get
  Prog.modify fun s => { s with draws := s.draws + 1 }
  pure (me.random s.draws n)

theorem randomBytes_bind {α : Type} (n : ℕ) (f : Buffer → ClientProg α) (s : Client) :
    (randomBytes me n >>= f) s = f (me.random s.draws n) { s with draws := s.draws + 1 } := rfl

/-- Send a frame to the server.  The TCP framing refuses a frame longer than its length field. -/
def broadcast (buf : Buffer) : ClientProg Unit := do
  let s ← Prog.get
  if s.closed then pure ()
  else if s.useFallback && s.tcpSocket then
    let out ← Prog.ofOption ((Buffer.alloc (2 + buf.length)).writeUInt16BE buf.length 0)
    Prog.emit (.broadcast buf (.tcp (buf.copy out 2)))
  else Prog.emit (.broadcast buf (.udp s.peers))

end DartProtocol
