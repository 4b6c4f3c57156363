import DartProtocol.GoServer
import DartProtocol.RustServer
import DartProtocol.TcpFraming

/-!
# Relaying to a TCP peer

A frame for a TCP peer is written behind its length, which the Go server (`sendToPeer`) and the Rust
server (the writer task of `handle_tcp_conn`) narrow to sixteen bits.  Nothing bounds the length of a
frame that came in over a WebSocket, so a longer one is announced as a shorter one, and its end is read
as the lengths and payloads of other frames.

* `GoServer.tcpBytes_sent`, `Rust.written_eq` — what a sequence of messages puts on the connection;
* `relay_framing_iff` — it is read back as the messages exactly when none is longer than 65535 bytes.
-/

namespace DartProtocol

open Prog Buffer

/-! ### The writers -/

/-- The bytes a list of outputs of the Go server puts on a connection. -/
def GoServer.tcpBytes (conn : ℕ) (os : List GoServer.Output) : Buffer :=
  (os.filterMap fun
    | .tcp out c => if c = conn then some out else none
    | _ => none).flatten

/-- The writer task of a connection to the Rust server, over the messages of its channel; the outputs
are its writes. -/
def Rust.writerTask (msgs : List Buffer) : Prog Unit Buffer Unit :=
  forEach (fun msg => do
    let len := msg.length % 2 ^ 16
    let out := bytesBE 2 len ++ msg
    emit out) msgs

/-- Writing the length of a message into a fresh slice, and then the message behind it. -/
theorem framed_put (m : Buffer) :
    (Slice.putUint16 (Buffer.alloc (2 + m.length)) 0 2 m.length).bind
      (fun out => Slice.copyInto out 2 out.length m) = some (framed m) := by
  have hput : Slice.putUint16 (Buffer.alloc (2 + m.length)) 0 2 m.length
      = some (bytesBE 2 m.length ++ Buffer.alloc m.length) := by
    have hnext := Slice.putUint16_next (p := []) (i := 0) (j := 2) (k := 2 + m.length)
      (v := m.length) rfl (by omega) (by omega)
    rw [Nat.add_sub_cancel_left] at hnext
    exact hnext
  rw [hput, Option.bind_some,
    Slice.copyInto_next (by simp) (by simp [Buffer.alloc]) (by simp [Buffer.alloc]), framed]
  simp [Buffer.alloc]

variable {s : GoServer.DartGroupServer} {msgs : List Buffer}

theorem GoServer.sendToPeer_tcp {peer conn : ℕ}
    (htype : (s.heap peer).type = .tcp) (hconn : (s.heap peer).tcpConn = some conn) (m : Buffer) :
    GoServer.sendToPeer m peer s = ⟨some (), s, [.tcp (framed m) conn]⟩ := by
  obtain ⟨out, hput, hcopy⟩ := Option.bind_eq_some_iff.mp (framed_put m)
  simp only [GoServer.sendToPeer, get_bind, htype, hconn, hput, hcopy, ofOption_some_bind, emit_run]

theorem GoServer.tcpBytes_sent {peer conn : ℕ}
    (htype : (s.heap peer).type = .tcp) (hconn : (s.heap peer).tcpConn = some conn)
    (msgs : List Buffer) :
    GoServer.tcpBytes conn (forEach (GoServer.sendToPeer · peer) msgs s).output =
      (msgs.map framed).flatten := by
  induction msgs with
  | nil => rfl
  | cons m msgs ih =>
    have hsend := GoServer.sendToPeer_tcp htype hconn m
    rw [forEach_cons, bind_of_some (a := ()) (by rw [hsend]), hsend, List.map_cons,
      List.flatten_cons, ← ih]
    simp [GoServer.tcpBytes, Outcome.prepend]

theorem Rust.written_eq (msgs : List Buffer) :
    (Rust.writerTask msgs ()).output.flatten = (msgs.map framed).flatten := by
  induction msgs with
  | nil => rfl
  | cons m msgs ih =>
    have hlen : bytesBE 2 (m.length % 2 ^ 16) = bytesBE 2 m.length := by
      have hbytes := bytesBE_natBE (bytesBE 2 m.length)
      rw [length_bytesBE, natBE_bytesBE] at hbytes
      exact hbytes
    rw [List.map_cons, List.flatten_cons, ← ih, framed, ← hlen]
    rfl

/-! ### Reading back -/

/-- The reader of a connection makes exactly these messages of the stream, however it arrives, and
nothing is left over. -/
def ParsesInto (reader : List Buffer → Prog Buffer Buffer Unit) (stream : Buffer) (msgs : List Buffer) :
    Prop :=
  ∀ reads : List Buffer, reads.flatten = stream → [] ∉ reads → reader reads [] = ⟨some (), [], msgs⟩

/-- A message whose length the two bytes can hold. -/
def fits (m : Buffer) : Bool := decide (m.length ≤ 65535)

/-- **Intact framing.**  The stream is read as the messages; or the longer ones were not written, and
it is read as the others. -/
def Intact (reader : List Buffer → Prog Buffer Buffer Unit) (stream : Buffer) (msgs : List Buffer) :
    Prop :=
  ParsesInto reader stream msgs ∨
    (stream = ((msgs.filter fits).map framed).flatten ∧ ParsesInto reader stream (msgs.filter fits))

theorem length_of_mem_read {b payload : Buffer} (h : payload ∈ (frameReader.read b).1) :
    payload.length ≤ 65535 := by
  induction b using StreamReader.read_induction (R := frameReader) with
  | idle b hidle =>
    rw [StreamReader.read_none hidle] at h
    cases h
  | item b x r hnext ih =>
    rw [StreamReader.read_some hnext] at h
    rcases List.mem_cons.mp h with rfl | hlater
    · have hfield := (nextFrame_eq_some hnext).1
      have hlt := readUIntBE_lt hfield
      omega
    · exact ih hlater

/-- Messages that fit and are not empty are read back by the loops of the Go and Rust servers. -/
theorem read_framed (hfit : ∀ m ∈ msgs, m.length ≤ 65535) (hmsgs : ∀ m ∈ msgs, m ≠ []) :
    (readerFor refusesEmpty).read (msgs.map framed).flatten = (msgs, []) := by
  induction msgs with
  | nil => exact StreamReader.read_none StreamReader.next_nil
  | cons m msgs ih =>
    have hnext : (readerFor refusesEmpty).next (framed m ++ (msgs.map framed).flatten)
        = some (m, (msgs.map framed).flatten) := by
      have hwhole := (understands_framed (hfit m (by simp))).whole (msgs.map framed).flatten
      show (frameReader.next _).filter _ = _
      rw [hwhole]
      have hne : m ≠ [] := hmsgs m (by simp)
      simp [refusesEmpty, hne]
    rw [List.map_cons, List.flatten_cons, StreamReader.read_some hnext,
      ih (fun x hx => hfit x (by simp [hx])) fun x hx => hmsgs x (by simp [hx])]

theorem length_fitting_le (msgs : List Buffer) :
    ((msgs.filter fits).map framed).flatten.length ≤ (msgs.map framed).flatten.length := by
  induction msgs with
  | nil => exact Nat.le_refl _
  | cons m msgs ih =>
    cases hm : fits m <;>
      simp only [List.filter_cons, hm, Bool.false_eq_true, if_true, if_false, List.map_cons,
        List.flatten_cons, List.length_append] <;> omega

theorem length_fitting_lt (h : ∃ m ∈ msgs, ¬ m.length ≤ 65535) :
    ((msgs.filter fits).map framed).flatten.length < (msgs.map framed).flatten.length := by
  induction msgs with
  | nil => simp at h
  | cons m msgs ih =>
    cases hm : fits m with
    | true =>
      have hlater : ∃ m ∈ msgs, ¬ m.length ≤ 65535 := by
        obtain ⟨x, hx, hover⟩ := h
        rcases List.mem_cons.mp hx with rfl | hx
        · exact absurd (of_decide_eq_true hm) hover
        · exact ⟨x, hx, hover⟩
      have hlt := ih hlater
      simp only [List.filter_cons, hm, if_true, List.map_cons, List.flatten_cons, List.length_append]
      omega
    | false =>
      have hrest := length_fitting_le msgs
      simp only [List.filter_cons, hm, Bool.false_eq_true, if_false, List.map_cons, List.flatten_cons,
        List.length_append, length_framed]
      omega

/-- **When a written stream is intact**, for a reader that works like the loops of the two servers. -/
theorem intact_framed_iff {reader : List Buffer → Prog Buffer Buffer Unit}
    (hreader : ∀ reads, [] ∉ reads → reader reads [] = eventLoop (onRead refusesEmpty) reads [])
    (hmsgs : ∀ m ∈ msgs, m ≠ []) :
    Intact reader (msgs.map framed).flatten msgs ↔ ∀ m ∈ msgs, m.length ≤ 65535 := by
  constructor
  · intro h
    by_contra hlong
    have hlong' : ∃ m ∈ msgs, ¬ m.length ≤ 65535 := by simpa using hlong
    have hlt := length_fitting_lt hlong'
    rcases h with hparse | ⟨hstream, -⟩
    · -- no payload of the reader is that long
      obtain ⟨m, hm, hover⟩ := hlong'
      have hne : (msgs.map framed).flatten ≠ [] := List.ne_nil_of_length_pos (Nat.zero_lt_of_lt hlt)
      have hrun := hparse [(msgs.map framed).flatten] (by simp) (by simpa using hne.symm)
      rw [hreader _ (by simpa using hne.symm)] at hrun
      have hout := handed_refusesEmpty [(msgs.map framed).flatten]
      rw [hrun, List.flatten_singleton] at hout
      have hmem : m ∈ (frameReader.read (msgs.map framed).flatten).1.takeWhile nonEmpty := by
        rw [← hout]
        exact hm
      exact hover (length_of_mem_read (List.takeWhile_subset _ hmem))
    · exact absurd (congrArg List.length hstream) (Nat.ne_of_gt hlt)
  · intro hfit
    left
    intro reads hreads hempty
    rw [hreader reads hempty, connection_run, hreads, read_framed hfit hmsgs]

/-- **Exactly when relaying keeps the framing.**  Whatever messages the Go server sends to a TCP peer,
and whatever messages reach the writer task of a connection to the Rust server, each server's own
reader makes of the bytes exactly those messages if and only if none is longer than 65535 bytes.  An
empty message is never relayed: `handleMessage` of either server ends at once. -/
theorem relay_framing_iff {msgs : List Buffer} (hmsgs : ∀ m ∈ msgs, m ≠ [])
    {s : GoServer.DartGroupServer} {peer conn : ℕ} (htype : (s.heap peer).type = .tcp)
    (hconn : (s.heap peer).tcpConn = some conn) :
    (Intact Go.handleTCPConn (GoServer.tcpBytes conn
        (forEach (GoServer.sendToPeer · peer) msgs s).output) msgs ↔
      ∀ m ∈ msgs, m.length ≤ 65535) ∧
    (Intact Rust.handleTcpConn (Rust.writerTask msgs ()).output.flatten msgs ↔
      ∀ m ∈ msgs, m.length ≤ 65535) := by
  rw [GoServer.tcpBytes_sent htype hconn, Rust.written_eq]
  exact ⟨intact_framed_iff (fun _ _ => rfl) hmsgs,
    intact_framed_iff (fun reads hreads => Rust.handleTcpConn_eq hreads []) hmsgs⟩

/-! ### A long message -/

/-- A CHAIN_SHARE from member `1` for member `2` of conversation `5`, followed by any bytes. -/
def longShare (body : Buffer) : Buffer := [0x0a, 0, 5, 0, 1, 0, 2] ++ body

theorem length_longShare (body : Buffer) : (longShare body).length = body.length + 7 := rfl

/-- An ACK with which member `2` makes its connection known. -/
def shortAck : Buffer := [0x07, 0, 5, 0, 2, 0, 9]

namespace GoServer

theorem relays_share {C : Crypto} {keys : ServerKeys} {s : DartGroupServer} {now peer target : ℕ}
    (hadmitted : admitted now peer s = true)
    (htarget : get₂ (learnIdentity 5 1 (actualPeer s peer)
      (joinGroup 5 (actualPeer s peer) (countPacket now peer s))).clientMap 5 2 = some target)
    (body : Buffer) :
    handleMessage C keys now (longShare body) peer s
      = GoServer.sendToPeer (longShare body) target (learnIdentity 5 1 (actualPeer s peer)
          (joinGroup 5 (actualPeer s peer) (countPacket now peer s))) := by
  have hlen := length_longShare body
  have h₀ : Slice.index (longShare body) 0 = some TYPE_CHAIN_SHARE := rfl
  have h₁ : (Slice.slice (longShare body) 1 3).bind Slice.uint16 = some 5 := rfl
  have h₃ : (Slice.slice (longShare body) 3 5).bind Slice.uint16 = some 1 := rfl
  have h₅ : (Slice.slice (longShare body) 5 7).bind Slice.uint16 = some 2 := rfl
  rw [handleMessage, if_neg (by omega), get_bind, modify_bind, if_pos hadmitted, dispatch, h₀,
    ofOption_some_bind, if_neg (by omega), h₁, ofOption_some_bind,
    modify_bind, learn, if_pos ⟨by decide, by omega⟩, h₃]
  show handleTargeted (longShare body) 5 (learnIdentity 5 1 (actualPeer s peer)
    (joinGroup 5 (actualPeer s peer) (countPacket now peer s))) = _
  rw [handleTargeted, if_neg (by omega), h₅, ofOption_some_bind, relayToMember,
    get_bind, htarget]

end GoServer

/-- The Rust server does so too, in a task that is not interrupted. -/
theorem rust_relays_share {C : Crypto} {keys : ServerKeys} {s : RustServer.ServerState}
    {peer target : RustServer.PeerId} (hcount : ¬ 500 < (RustServer.packetCount peer s).2)
    (htarget : get₂ s.clientMap 5 2 = some target) (body : Buffer) :
    ((RustServer.handleMessage C keys (longShare body) peer).alone s).output
      = [.sent (longShare body) target (RustServer.carries s target)] := by
  have hlen := length_longShare body
  have hnil : longShare body ≠ [] := List.ne_nil_of_length_pos (by omega)
  obtain ⟨t, ht⟩ : ∃ t, t = RustServer.notePeer TYPE_CHAIN_SHARE 5 (longShare body) peer
    (RustServer.countPacket peer s) := ⟨_, rfl⟩
  have hroute : get₂ t.clientMap 5 2 = some target := by
    rw [ht]
    show get₂ (set₂ s.clientMap 5 1 peer) 5 2 = some target
    rw [get₂_set₂, if_neg (by decide)]
    exact htarget
  have hsent : ((RustServer.handleMessage C keys (longShare body) peer).alone s)
      = (RustServer.sendToPeer (longShare body) target).alone t := by
    have h₀ : Slice.index (longShare body) 0 = some TYPE_CHAIN_SHARE := rfl
    have h₁ : RustServer.fromBeBytes (longShare body) 1 = some 5 := (Slice.uint16_of_index _ 1).trans rfl
    have h₅ : RustServer.fromBeBytes (longShare body) 5 = some 2 := (Slice.uint16_of_index _ 5).trans rfl
    have hfirst : (Thread.atomic (fun s => (RustServer.countPacket peer s, []))
        fun s => .done (RustServer.packetCount peer s) : RustServer.RustTask (ℕ × ℕ)).alone s
        = ⟨some (RustServer.packetCount peer s), RustServer.countPacket peer s, []⟩ := rfl
    rw [RustServer.handleMessage, if_neg hnil, Thread.alone_bind,
      bind_of_some (a := RustServer.packetCount peer s) (by rw [hfirst]), hfirst]
    simp only [if_neg hcount, Thread.alone_bind, Thread.alone_ofOption, h₀, h₁,
      ofOption_some_bind, if_neg (show ¬ (longShare body).length < 3 by omega)]
    rw [bind_of_some (a := ()) rfl]
    show ((RustServer.handleTargeted (longShare body) 5).alone
      (RustServer.notePeer TYPE_CHAIN_SHARE 5 (longShare body) peer (RustServer.countPacket peer s))) = _
    rw [← ht, RustServer.handleTargeted, if_neg (by omega), Thread.alone_bind, Thread.alone_ofOption, h₅,
      ofOption_some_bind, RustServer.relayToMember, Thread.alone_read_bind, hroute]
  rw [hsent, RustServer.sendToPeer, Thread.alone_emit, ht]
  rfl

/-! ### Two peers -/

/-- Two peers of the Go server: a WebSocket and a TCP connection. -/
def wsAndTcp : ℕ → GoServer.Peer
  | 0 => { id := "ws:a", type := .ws, wsConn := some 0 }
  | _ => { id := "tcp:b", type := .tcp, tcpConn := some 1 }

def relayKeys : ServerKeys := ⟨bytesBE 65 9, fun _ n => Buffer.alloc n⟩

/-- The Go server after the ACK of the TCP peer. -/
def goAfterAck : GoServer.DartGroupServer :=
  (GoServer.run sumCrypto relayKeys [.message 0 shortAck 1] (GoServer.start wsAndTcp)).state

/-- The Rust server after the ACK of the TCP peer. -/
def rustAfterAck : RustServer.ServerState :=
  RustServer.stateAfter sumCrypto relayKeys
    ([.connect (.tcp "b"), .message shortAck (.tcp "b")] ++ List.replicate 5 (.turn 0))

/-- Two messages that fit are read back. -/
theorem short_messages_intact :
    Intact Go.handleTCPConn (GoServer.tcpBytes 1
      (forEach (GoServer.sendToPeer · 1) [longShare [], shortAck] goAfterAck).output)
      [longShare [], shortAck] ∧
    Intact Rust.handleTcpConn (Rust.writerTask [longShare [], shortAck] ()).output.flatten
      [longShare [], shortAck] := by
  have hiff := relay_framing_iff (show ∀ m ∈ [longShare [], shortAck], m ≠ [] by decide)
    (show (goAfterAck.heap 1).type = .tcp by decide +kernel)
    (show (goAfterAck.heap 1).tcpConn = some 1 by decide +kernel)
  exact ⟨hiff.1.mpr (by decide), hiff.2.mpr (by decide)⟩

/-- **A long message breaks the framing.**  A WebSocket peer sends a CHAIN_SHARE of 65543 bytes for a TCP
peer.  Both servers hand it over, with the number seven as its length, and their own readers make another
message of it. -/
theorem long_share_breaks_framing :
    let share := longShare (Buffer.alloc 65536)
    ((GoServer.handleMessage sumCrypto relayKeys 0 share 0 goAfterAck).output = [.tcp (framed share) 1] ∧
      ¬ Intact Go.handleTCPConn (framed share) [share]) ∧
    ((RustServer.handleMessage sumCrypto relayKeys share (.ws "a")).alone rustAfterAck).output
        = [.sent share (.tcp "b") true] ∧
      ¬ Intact Rust.handleTcpConn (Rust.writerTask [share] ()).output.flatten [share] := by
  intro share
  have hlen : share.length = 65543 := by
    rw [length_longShare, Buffer.alloc, List.length_replicate]
  have hne : ∀ m ∈ [share], m ≠ [] := by
    intro m hm
    rw [List.mem_singleton.mp hm]
    exact List.ne_nil_of_length_pos (by omega)
  have hlong : ¬ ∀ m ∈ [share], m.length ≤ 65535 := by
    intro h
    have hfits := h share (by simp)
    omega
  have hgo : Intact Go.handleTCPConn _ _ ↔ _ := intact_framed_iff (fun _ _ => rfl) hne
  have hrust := intact_framed_iff (fun reads hreads => Rust.handleTcpConn_eq hreads []) hne
  refine ⟨⟨?_, ?_⟩, ?_, ?_⟩
  · rw [GoServer.relays_share (by decide +kernel) (show _ = some 1 by decide +kernel),
      GoServer.sendToPeer_tcp (show _ = GoServer.PeerType.tcp by decide +kernel)
        (show _ = some 1 by decide +kernel)]
  · intro h
    exact hlong (hgo.mp (by simpa using h))
  · have hcarries : RustServer.carries rustAfterAck (.tcp "b") = true := by decide +kernel
    rw [rust_relays_share (by decide +kernel) (show _ = some (.tcp "b") by decide +kernel), hcarries]
  · rw [Rust.written_eq]
    exact fun h => hlong (hrust.mp h)

end DartProtocol
