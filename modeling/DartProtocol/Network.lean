import Mathlib.Logic.Function.Basic
import DartProtocol.ClientHandle
import DartProtocol.Server
import DartProtocol.SumCrypto

/-!
# Clients around a server

The clients and the server as one system.  Every client has a link to the server in each direction;
a link keeps the frames on it in their order and hands them over one by one.  Whoever can reach a
socket may also put frames of its own there: a client, and the server, can handle any event at any
time, so that runs with loss, forgeries and other paths are runs of this system too, and a run over
lossless links is one in which no datagram comes from elsewhere.

`step` and `run` are the system as a state machine.
-/

namespace DartProtocol

/-- What is fixed for a system: who its clients are, the server, and how they reach each other. -/
structure Setup where
  ids : ℕ → Identity
  keys : ServerKeys
  /-- The UDP address of the server. -/
  address : PeerAddress
  /-- The id under which the server knows the connection of a client. -/
  peerId : ℕ → String
  link : ℕ → PeerLink

structure Network where
  server : GroupServer := {}
  client : ℕ → Client := fun _ => {}
  /-- The frames on the way from a client to the server, the oldest first. -/
  up : ℕ → List Buffer := fun _ => []
  /-- The frames on the way from the server to a client. -/
  down : ℕ → List Buffer := fun _ => []

/-- What can happen in a system. -/
inductive NetEvent
  /-- A client handles an event: a call, a timer, or a datagram from anywhere. -/
  | client (i : ℕ) (e : Event)
  /-- The server handles an event: a closed connection, or a datagram from anywhere. -/
  | server (e : GroupServer.Event)
  /-- The oldest frame on the way from a client reaches the server. -/
  | serve (i now : ℕ)
  /-- The oldest frame on the way to a client reaches it. -/
  | deliver (i : ℕ)
  deriving DecidableEq

namespace Network

variable (C : Crypto) (S : Setup)

/-- The copies of the frames among outputs that are on their way to the server. -/
def toServer (os : List Output) : List Buffer :=
  os.flatMap fun o => match o with
    | .broadcast buf (.tcp _) => [buf]
    | .broadcast buf (.udp peers) => (peers.filter fun p => decide (p = S.address)).map fun _ => buf
    | _ => []

/-- The frames among outputs of the server that are on their way to a client. -/
def toClient (i : ℕ) (os : List ServerOutput) : List Buffer :=
  os.filterMap fun o => match o with
    | .sent buf peer (some _) => if peer.link = S.link i then some buf else none
    | _ => none

/-- A client handles an event. -/
def stepClient (i : ℕ) (e : Event) (N : Network) : Network :=
  let r := DartProtocol.step C (S.ids i) e (N.client i)
  { N with
    client := Function.update N.client i r.state
    up := Function.update N.up i (N.up i ++ toServer S r.output) }

/-- The server handles an event. -/
def stepServer (e : GroupServer.Event) (N : Network) : Network :=
  let r := GroupServer.step C S.keys e N.server
  { N with server := r.state, down := fun i => N.down i ++ toClient S i r.output }

def step : NetEvent → Network → Network
  | .client i e, N => N.stepClient C S i e
  | .server e, N => N.stepServer C S e
  | .serve i now, N =>
    match N.up i with
    | [] => N
    | buf :: rest =>
      stepServer C S (.message now (S.peerId i) (S.link i) buf)
        { N with up := Function.update N.up i rest }
  | .deliver i, N =>
    match N.down i with
    | [] => N
    | buf :: rest =>
      stepClient C S i (.message buf) { N with down := Function.update N.down i rest }

/-- A run of the system from some state. -/
def run (ms : List NetEvent) (N : Network) : Network := ms.foldl (fun N m => step C S m N) N

/-- The state a fresh system reaches. -/
def stateAfter (ms : List NetEvent) : Network := run C S ms {}

/-! ### A concrete system -/

/-- The clients with the identities of `sumIdentity`, each over a TCP connection of its own. -/
def sumSetup : Setup where
  ids := sumIdentity
  keys := { privateKey := Buffer.bytesBE 65 9, random := fun i n => Buffer.bytesBE n (9000 + i) }
  address := ⟨"server", 40000⟩
  peerId i := "tcp:" ++ toString i
  link i := .tcp i

/-- A client opens its connection and asks to join. -/
def joins (i convId : ℕ) : List NetEvent :=
  [.client i .enableFallback, .client i (.joinConversation convId)]

/-- Frames are handed over for some rounds: one from each client, then one to each client. -/
def rounds (ids : List ℕ) (n : ℕ) : List NetEvent :=
  (List.replicate n (ids.map (.serve · 0) ++ ids.map .deliver)).flatten

end Network

end DartProtocol
