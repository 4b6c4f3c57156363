import DartProtocol.StreamReader
import DartProtocol.Server
import Mathlib.Data.List.TakeWhile

/-!
# Frames on a TCP connection

On TCP a frame stands behind its length in two bytes.  Each of the three implementations collects
what arrives in a buffer and runs a loop over it after every read: the data handlers of
`src/server.ts` and of `enableFallback` in `src/client.ts`, `handleTCPConn` of `go/server/main.go`
and `handle_tcp_conn` of `rust/src/bin/server.rs`.  A loop is a program over the buffer; its outputs
are the payloads it hands to `handleMessage`, which catches its own exceptions and so returns to the
loop.

* `tcp_round_trip` — what `sendToPeer` and `broadcast` write is read back by the two TypeScript
  handlers, for every list of messages, every cut and every chunking;
* `readers_agree_iff` — the Go and Rust loops also end at a frame of length zero and leave it in the
  buffer, so they hand over what the TypeScript loop does exactly when no other frame follows one.
-/

namespace DartProtocol

open Prog Buffer

/-! ### The reader loops -/

/-- The loop over the buffer, for a number of turns: while a frame is complete, take it off and hand
its payload over.  `refuses` are the lengths at which the loop of an implementation also ends. -/
def readFrames (refuses : ℕ → Bool) : ℕ → Prog Buffer Buffer Unit
  | 0 => pure ()
  | turns + 1 => do
    let buffer ← Prog.get
    if 2 ≤ buffer.length then
      let len ← ofOption (buffer.readUInt16BE 0)
      if refuses len = false ∧ 2 + len ≤ buffer.length then
        let payload := buffer.subarray 2 (2 + len : ℕ)
        Prog.modify fun _ => buffer.subarrayFrom (2 + len : ℕ)
        emit payload
        readFrames refuses turns
      else pure ()
    else pure ()

/-- What a read triggers.  Every turn of the loop takes two bytes or more off the buffer. -/
def onRead (refuses : ℕ → Bool) (data : Buffer) : Prog Buffer Buffer Unit := do
  Prog.modify fun buffer => Buffer.concat [buffer, data]
  let buffer ← Prog.get
  readFrames refuses buffer.length

/-- The data handler of a connection to the TypeScript server. -/
def GroupServer.onTcpData : Buffer → Prog Buffer Buffer Unit := onRead fun _ => false

/-- The data handler that `enableFallback` of the TypeScript client installs. -/
def Client.onTcpData : Buffer → Prog Buffer Buffer Unit := onRead fun _ => false

/-- A frame of length zero ends the loop of the Go and Rust servers. -/
def refusesEmpty (len : ℕ) : Bool := decide (len = 0)

/-- `handleTCPConn` of the Go server over what its reads return, up to the error that ends it. -/
def Go.handleTCPConn (reads : List Buffer) : Prog Buffer Buffer Unit :=
  eventLoop (onRead refusesEmpty) reads

/-- The reader loop of `handle_tcp_conn` of the Rust server over what its reads return; the outputs
are the payloads of the spawned tasks, in spawn order.  A read of no bytes ends it. -/
def Rust.handleTcpConn : List Buffer → Prog Buffer Buffer Unit
  | [] => pure ()
  | data :: reads =>
    if data = [] then pure () else do
      onRead refusesEmpty data
      Rust.handleTcpConn reads

/-! ### The loops are stream readers -/

/-- The first frame of a buffer. -/
def nextFrame (b : Buffer) : Option (Buffer × Buffer) :=
  match b.readUInt16BE 0 with
  | none => none
  | some len => if 2 + len ≤ b.length then some ((b.drop 2).take len, b.drop (2 + len)) else none

theorem nextFrame_eq_some {b payload rest : Buffer} (h : nextFrame b = some (payload, rest)) :
    b.readUInt16BE 0 = some payload.length ∧ b = b.take 2 ++ (payload ++ rest) ∧ 2 ≤ b.length := by
  rw [nextFrame] at h
  split at h
  case h_1 => cases h
  case h_2 len hlen =>
    split at h
    case isFalse => cases h
    case isTrue hle =>
      obtain ⟨rfl, rfl⟩ : (b.drop 2).take len = payload ∧ b.drop (2 + len) = rest := by
        simpa using h
      have hp : ((b.drop 2).take len).length = len := by
        rw [List.length_take, List.length_drop]
        omega
      refine ⟨by rw [hp]; exact hlen, ?_, by omega⟩
      rw [← List.drop_drop, List.take_append_drop, List.take_append_drop]

/-- A length field with its payload is the first frame, whatever follows. -/
theorem nextFrame_append {field payload : Buffer} (hf : field.length = 2)
    (hv : (field ++ payload).readUInt16BE 0 = some payload.length) (rest : Buffer) :
    nextFrame (field ++ (payload ++ rest)) = some (payload, rest) := by
  have hread : (field ++ (payload ++ rest)).readUInt16BE 0 = some payload.length := by
    rw [Buffer.readUInt16BE, readUIntBE_append_left (by omega)] at hv ⊢
    exact hv
  rw [nextFrame, hread]
  simp [hf, List.drop_append]

/-- The frames of a byte stream. -/
def frameReader : StreamReader UInt8 Buffer where
  next := nextFrame
  shrinks := by
    intro b payload rest h
    have hlen := congrArg List.length (nextFrame_eq_some h).2.1
    have h2 := (nextFrame_eq_some h).2.2
    simp only [List.length_append, List.length_take] at hlen
    omega
  stable := by
    intro b payload rest c h
    obtain ⟨hlen, hb, h2⟩ := nextFrame_eq_some h
    have hf : (b.take 2).length = 2 := by rw [List.length_take]; omega
    have hv : Buffer.readUInt16BE (b.take 2 ++ payload) 0 = some payload.length := by
      rw [← hlen]
      exact readUIntBE_of_take_eq (by simp [hf])
    rw [hb, List.append_assoc, List.append_assoc]
    exact nextFrame_append hf hv (rest ++ c)

theorem frameReader_next (b : Buffer) : frameReader.next b = nextFrame b := rfl

/-- The frames up to the first of a refused length. -/
def readerFor (refuses : ℕ → Bool) : StreamReader UInt8 Buffer :=
  frameReader.stopAt fun payload => refuses payload.length

theorem readerFor_short (refuses : ℕ → Bool) {b : Buffer} (h : b.length < 2) :
    (readerFor refuses).next b = none := by
  have hr : b.readUInt16BE 0 = none := by
    rw [← Option.not_isSome_iff_eq_none, Buffer.readUInt16BE, readUIntBE_isSome_iff]
    omega
  simp [readerFor, StreamReader.stopAt, frameReader, nextFrame, hr]

theorem readerFor_next (refuses : ℕ → Bool) {b : Buffer} {len : ℕ} (h : b.readUInt16BE 0 = some len) :
    (readerFor refuses).next b =
      if refuses len = false ∧ 2 + len ≤ b.length then
        some ((b.drop 2).take len, b.drop (2 + len))
      else none := by
  show (nextFrame b).filter _ = _
  rw [nextFrame, h]
  by_cases hle : 2 + len ≤ b.length
  · have hp : ((b.drop 2).take len).length = len := by
      rw [List.length_take, List.length_drop]
      omega
    cases hr : refuses len <;> simp [hle, hp, hr, Option.filter]
  · simp [hle]

theorem readFrames_run (refuses : ℕ → Bool) (turns : ℕ) (b : Buffer) :
    readFrames refuses turns b =
      ⟨some (), ((readerFor refuses).drain turns b).2, ((readerFor refuses).drain turns b).1⟩ := by
  induction turns generalizing b with
  | zero => rfl
  | succ turns ih =>
    rw [readFrames, get_bind]
    by_cases h2 : 2 ≤ b.length
    case neg =>
      rw [if_neg h2, StreamReader.drain_none (readerFor_short refuses (by omega))]
      rfl
    case pos =>
      obtain ⟨len, hr⟩ : ∃ len, b.readUInt16BE 0 = some len :=
        Option.isSome_iff_exists.mp (readUIntBE_isSome_iff.mpr (by omega))
      have hn := readerFor_next refuses hr
      rw [if_pos h2, hr, ofOption_some_bind]
      by_cases hc : refuses len = false ∧ 2 + len ≤ b.length
      case neg =>
        rw [if_neg hc] at hn ⊢
        rw [StreamReader.drain_none hn]
        rfl
      case pos =>
        rw [if_pos hc] at hn ⊢
        have hpayload : b.subarray 2 (2 + len : ℕ) = (b.drop 2).take len := by
          have hslice := subarray_of_le (s := 2) (by omega) hc.2
          rwa [Nat.add_sub_cancel_left] at hslice
        rw [modify_bind, emit_bind, ih, StreamReader.drain_some hn, hpayload,
          subarrayFrom_of_le hc.2]
        rfl

theorem onRead_run (refuses : ℕ → Bool) (data b : Buffer) :
    onRead refuses data b =
      ⟨some (), ((readerFor refuses).read (b ++ data)).2,
        ((readerFor refuses).read (b ++ data)).1⟩ := by
  have hcat : Buffer.concat [b, data] = b ++ data := by simp [Buffer.concat]
  rw [onRead, modify_bind, get_bind, readFrames_run, hcat]
  rfl

/-- **A connection is a stream reader.**  Its payloads and its buffer depend on the bytes only. -/
theorem eventLoop_onRead (refuses : ℕ → Bool) (reads : List Buffer) (b : Buffer) :
    eventLoop (onRead refuses) reads b =
      ⟨some (), ((readerFor refuses).feed b reads).2, ((readerFor refuses).feed b reads).1⟩ := by
  induction reads generalizing b with
  | nil => rfl
  | cons data reads ih =>
    rw [eventLoop_cons, onRead_run, ih]
    rfl

theorem connection_run (refuses : ℕ → Bool) (reads : List Buffer) :
    eventLoop (onRead refuses) reads [] =
      ⟨some (), ((readerFor refuses).read reads.flatten).2,
        ((readerFor refuses).read reads.flatten).1⟩ := by
  rw [eventLoop_onRead, StreamReader.feed_eq_read]

variable {reads msgs : List Buffer} {m : Buffer}

theorem Rust.handleTcpConn_eq (h : [] ∉ reads) (b : Buffer) :
    Rust.handleTcpConn reads b = eventLoop (onRead refusesEmpty) reads b := by
  induction reads generalizing b with
  | nil => rfl
  | cons data reads ih =>
    have hd : data ≠ [] := fun hd => h (by simp [hd])
    have hrest : [] ∉ reads := fun hmem => h (by simp [hmem])
    rw [Rust.handleTcpConn, if_neg hd, eventLoop_cons,
      bind_of_some (a := ()) (by rw [onRead_run]), ih hrest]

theorem readerFor_never : readerFor (fun _ => false) = frameReader :=
  StreamReader.stopAt_never

/-! ### Writing and reading back -/

/-- What `sendToPeer` and `broadcast` put in front of a message. -/
def framed (m : Buffer) : Buffer := bytesBE 2 m.length ++ m

theorem length_framed (m : Buffer) : (framed m).length = 2 + m.length := by simp [framed]

theorem framed_written (h : m.length ≤ 65535) :
    ((Buffer.alloc (2 + m.length)).writeUInt16BE m.length 0).map (m.copy · 2) = some (framed m) := by
  rw [Buffer.writeUInt16BE, writeUIntBE_first (by omega) (by omega), Option.map_some,
    copy_next (by simp) (by omega), framed]
  simp [Buffer.alloc]

theorem framed_length_field (h : m.length ≤ 65535) (q : Buffer) :
    Buffer.readUInt16BE (framed m ++ q) 0 = some m.length := by
  rw [framed, List.append_assoc]
  exact readUIntBE_head (by omega)

theorem understands_framed (h : m.length ≤ 65535) :
    frameReader.Understands framed m where
  whole r := by
    have hfield := framed_length_field h []
    rw [List.append_nil, framed] at hfield
    rw [framed, List.append_assoc]
    exact nextFrame_append (by simp) hfield r
  part p hp hlt := by
    rw [← readerFor_never]
    by_cases h2 : p.length < 2
    · exact readerFor_short _ h2
    · obtain ⟨q, hq⟩ := hp
      have hfield : Buffer.readUInt16BE p 0 = some m.length := by
        have hread := framed_length_field h []
        rw [List.append_nil, ← hq] at hread
        rw [← hread]
        exact (readUIntBE_append_left (show 0 + 2 ≤ p.length by omega)).symm
      rw [readerFor_next _ hfield, if_neg]
      rw [length_framed] at hlt
      omega

/-- The bytes a list of server outputs puts on the wire. -/
def GroupServer.wireBytes (os : List ServerOutput) : Buffer :=
  (os.filterMap fun
    | .sent _ _ wire => wire).flatten

/-- The bytes a list of client outputs puts on the TCP connection. -/
def Client.tcpBytes (os : List Output) : Buffer :=
  (os.filterMap fun
    | .broadcast _ (.tcp frame) => some frame
    | _ => none).flatten

theorem GroupServer.sendToPeer_tcp {s : GroupServer} (hs : s.closed = false) {peer : Peer} {socket : ℕ}
    (hp : peer.link = .tcp socket) (hm : m.length ≤ 65535) :
    GroupServer.sendToPeer m peer s = ⟨some (), s, [.sent m peer (some (framed m))]⟩ := by
  rw [GroupServer.sendToPeer, get_bind, if_neg (by simp [hs]), emit_run,
    GroupServer.wireForm, hp, framed_written hm]

theorem Client.broadcast_tcp {c : Client} (hc : c.closed = false) (hf : c.useFallback = true)
    (ht : c.tcpSocket = true) (hm : m.length ≤ 65535) :
    broadcast m c = ⟨some (), c, [.broadcast m (.tcp (framed m))]⟩ := by
  obtain ⟨out, hout, hcopy⟩ := Option.map_eq_some_iff.mp (framed_written hm)
  rw [broadcast, get_bind, if_neg (by simp [hc]), if_pos (by simp [hf, ht]), hout,
    ofOption_some_bind, emit_run, hcopy]

/-- A list of messages to one TCP peer goes out as the concatenation of their frames. -/
theorem GroupServer.wireBytes_sent {s : GroupServer} (hs : s.closed = false) {peer : Peer} {socket : ℕ}
    (hp : peer.link = .tcp socket) (hlen : ∀ m ∈ msgs, m.length ≤ 65535) :
    GroupServer.wireBytes (forEach (GroupServer.sendToPeer · peer) msgs s).output =
      (msgs.map framed).flatten := by
  induction msgs with
  | nil => rfl
  | cons m msgs ih =>
    have hsend := GroupServer.sendToPeer_tcp hs hp (hlen m (by simp))
    rw [forEach_cons, bind_of_some (a := ()) (by rw [hsend]), hsend, List.map_cons,
      List.flatten_cons, ← ih fun x hx => hlen x (by simp [hx])]
    rfl

theorem Client.tcpBytes_sent {c : Client} (hc : c.closed = false) (hf : c.useFallback = true)
    (ht : c.tcpSocket = true) (hlen : ∀ m ∈ msgs, m.length ≤ 65535) :
    Client.tcpBytes (forEach broadcast msgs c).output = (msgs.map framed).flatten := by
  induction msgs with
  | nil => rfl
  | cons m msgs ih =>
    have hsend := Client.broadcast_tcp hc hf ht (hlen m (by simp))
    rw [forEach_cons, bind_of_some (a := ()) (by rw [hsend]), hsend, List.map_cons,
      List.flatten_cons, ← ih fun x hx => hlen x (by simp [hx])]
    rfl

/-- The handler of a connection reads the messages of a stream back.  However the stream is cut off
and cut into data events, it hands over the messages whose frames are complete, in order, and keeps
the bytes behind the last complete frame. -/
def ReadsBack (onData : Buffer → Prog Buffer Buffer Unit) (msgs : List Buffer) (stream : Buffer) :
    Prop :=
  ∀ events : List Buffer, events.flatten <+: stream →
    let done := msgs.take
      (StreamReader.complete (fun m => 2 + m.length) msgs events.flatten.length)
    eventLoop onData events [] =
      ⟨some (), events.flatten.drop (StreamReader.space (fun m => 2 + m.length) done), done⟩

theorem readsBack_framed (hlen : ∀ m ∈ msgs, m.length ≤ 65535) :
    ReadsBack (onRead fun _ => false) msgs (msgs.map framed).flatten := by
  intro events hcut
  have hframed : ∀ m ∈ msgs, frameReader.Understands framed m :=
    fun m hm => understands_framed (hlen m hm)
  have hread := StreamReader.read_written hframed hcut
  simp only [length_framed] at hread
  rw [connection_run, readerFor_never, hread]

/-- **TCP framing round trip.**  What the server writes to a TCP peer is read back by the client's
data handler, and what the client writes over its fallback connection by the server's, for every cut
and every chunking; and on any bytes at all, two chunkings of the same bytes end alike. -/
theorem tcp_round_trip {msgs : List Buffer} (hlen : ∀ m ∈ msgs, m.length ≤ 65535) {s : GroupServer}
    (hs : s.closed = false) {peer : Peer} {socket : ℕ} (hp : peer.link = .tcp socket) {c : Client}
    (hc : c.closed = false) (hf : c.useFallback = true) (ht : c.tcpSocket = true) :
    ReadsBack Client.onTcpData msgs
        (GroupServer.wireBytes (forEach (GroupServer.sendToPeer · peer) msgs s).output) ∧
      ReadsBack GroupServer.onTcpData msgs
        (Client.tcpBytes (forEach broadcast msgs c).output) ∧
      ∀ events events' : List Buffer, events.flatten = events'.flatten →
        eventLoop Client.onTcpData events [] = eventLoop Client.onTcpData events' [] ∧
          eventLoop GroupServer.onTcpData events [] =
            eventLoop GroupServer.onTcpData events' [] := by
  refine ⟨?_, ?_, ?_⟩
  · rw [GroupServer.wireBytes_sent hs hp hlen]
    exact readsBack_framed hlen
  · rw [Client.tcpBytes_sent hc hf ht hlen]
    exact readsBack_framed hlen
  · intro events events' heq
    constructor
    · rw [Client.onTcpData, connection_run, connection_run, heq]
    · rw [GroupServer.onTcpData, connection_run, connection_run, heq]

/-- Three messages, one of them empty, arrive in pieces and without the last byte. -/
theorem three_messages_in_pieces :
    eventLoop Client.onTcpData [[0], [2, 7], [8, 0, 0, 0], [3], [1, 2]] [] =
      ⟨some (), [0, 3, 1, 2], [[7, 8], []]⟩ := by
  have hlen : ∀ m ∈ ([[7, 8], [], [1, 2, 3]] : List Buffer), m.length ≤ 65535 := by decide
  have hpeer : (Peer.mk "tcp:peer" (.tcp 0) none 0).link = .tcp 0 := rfl
  have hback := (tcp_round_trip hlen (s := {}) rfl hpeer
    (c := { useFallback := true, tcpSocket := true }) rfl rfl rfl).1
  exact hback [[0], [2, 7], [8, 0, 0, 0], [3], [1, 2]] (by decide)

/-! ### Three readers of one stream -/

/-- Every complete frame behind a complete frame of length zero has length zero too. -/
def NothingBehindEmpty (stream : Buffer) : Prop :=
  (frameReader.read stream).1.Pairwise fun payload later => payload = [] → later = []

instance (stream : Buffer) : Decidable (NothingBehindEmpty stream) :=
  inferInstanceAs (Decidable (List.Pairwise _ _))

def nonEmpty (payload : Buffer) : Bool := decide (payload ≠ [])

/-- A loop that ends at an empty frame hands over what stands before the first one. -/
theorem handed_refusesEmpty (reads : List Buffer) :
    (eventLoop (onRead refusesEmpty) reads []).output =
      (frameReader.read reads.flatten).1.takeWhile nonEmpty := by
  rw [connection_run]
  show ((frameReader.stopAt _).read _).1 = _
  rw [StreamReader.read_stopAt]
  congr 1
  funext payload
  cases payload <;> rfl

theorem handed_refusesEmpty_iff {stream : Buffer} (h : reads.flatten = stream) :
    (eventLoop (onRead refusesEmpty) reads []).output.filter nonEmpty =
        (frameReader.read stream).1.filter nonEmpty ↔ NothingBehindEmpty stream := by
  have hall : ∀ xs : List Buffer, (xs.takeWhile nonEmpty).filter nonEmpty = xs.takeWhile nonEmpty :=
    fun xs => List.filter_eq_self.mpr fun x hx => List.mem_takeWhile_imp hx
  rw [handed_refusesEmpty, h, hall, StreamReader.takeWhile_eq_filter_iff, NothingBehindEmpty]
  simp [nonEmpty]

/-- **When the readers agree.**  For every stream and all chunkings of it, the non-empty payloads
handed over by the Go and by the Rust loop are those of the TypeScript loop exactly when nothing but
empty frames follows an empty frame. -/
theorem readers_agree_iff {stream : Buffer} {tsReads goReads rustReads : List Buffer}
    (hts : tsReads.flatten = stream) (hgo : goReads.flatten = stream)
    (hrust : rustReads.flatten = stream) (hread : [] ∉ rustReads) :
    ((Go.handleTCPConn goReads []).output.filter nonEmpty =
        (eventLoop GroupServer.onTcpData tsReads []).output.filter nonEmpty ↔
          NothingBehindEmpty stream) ∧
      ((Rust.handleTcpConn rustReads []).output.filter nonEmpty =
        (eventLoop GroupServer.onTcpData tsReads []).output.filter nonEmpty ↔
          NothingBehindEmpty stream) := by
  have hall :
      (eventLoop GroupServer.onTcpData tsReads []).output = (frameReader.read stream).1 := by
    rw [GroupServer.onTcpData, connection_run, readerFor_never, hts]
  rw [hall, Go.handleTCPConn, Rust.handleTcpConn_eq hread]
  exact ⟨handed_refusesEmpty_iff hgo, handed_refusesEmpty_iff hrust⟩

/-- A stream with an empty frame at its end, in two chunkings. -/
theorem empty_last_agrees :
    NothingBehindEmpty [0, 1, 7, 0, 0] ∧
      (Go.handleTCPConn [[0, 1], [7, 0, 0]] []).output.filter nonEmpty =
        (eventLoop GroupServer.onTcpData [[0, 1, 7, 0, 0]] []).output.filter nonEmpty := by
  have hcond : NothingBehindEmpty [0, 1, 7, 0, 0] := by decide
  have hwhole : List.flatten [([0, 1, 7, 0, 0] : Buffer)] = [0, 1, 7, 0, 0] := rfl
  have hpieces : List.flatten [([0, 1] : Buffer), [7, 0, 0]] = [0, 1, 7, 0, 0] := rfl
  exact ⟨hcond, (readers_agree_iff hwhole hpieces hwhole (by decide)).1.mpr hcond⟩

/-- **An empty frame wedges the connection.**  Behind the two bytes `0, 0` the TypeScript loop hands
over the next frame; the Go and Rust loops never hand over anything again, whatever arrives. -/
theorem empty_frame_wedges :
    (eventLoop GroupServer.onTcpData [[0, 0], [0, 1, 7]] []).output = [[], [7]] ∧
      (∀ later, (Go.handleTCPConn ([0, 0] :: later) []).output = []) ∧
      ∀ later, [] ∉ later → (Rust.handleTcpConn ([0, 0] :: later) []).output = [] := by
  have hwedged : ∀ later, (eventLoop (onRead refusesEmpty) ([0, 0] :: later) []).output = [] := by
    intro later
    have hnext : frameReader.next ([0, 0] ++ later.flatten) = some ([], later.flatten) := by
      rw [frameReader_next, ← List.nil_append later.flatten]
      exact nextFrame_append rfl (by decide) later.flatten
    rw [handed_refusesEmpty, List.flatten_cons, StreamReader.read_some hnext]
    rfl
  refine ⟨by decide, hwedged, ?_⟩
  intro later hlater
  rw [Rust.handleTcpConn_eq (by simpa using hlater)]
  exact hwedged later

end DartProtocol
