import DartProtocol.GoServer
import DartProtocol.RustServer
import DartProtocol.ServerRules
import DartProtocol.WireDecode

/-!
# How the three servers answer a NACK

A server answers a NACK from its cache and passes it on, so that the sender of the stream can share
its chain again.  `RelayView` is what the answer depends on, with peers under their names, and two
servers correspond when their views are the same.

* `RelayView.answer` — what the answer is meant to be: the cached darts to the peer that asks, then
  the NACK to the peer of its target, or, when that is not possible and something is missing, to the
  rest of the group;
* `handleNack_answers` of the TypeScript and the Go server — they give this answer;
* `RustServer.handleNack_answers` — the Rust server gives a different one (`rustAnswer`): it does not
  fall back to the group when the target's peer is the one that asks;
* `nack_answers_agree_iff` — when the three agree, exactly.
-/

namespace DartProtocol

open Prog InsertionMap Slice

/-! ### What an answer depends on -/

/-- The cache, the peers that speak for members and the groups of a server, with peers by name. -/
structure RelayView where
  cached : ℕ → ℕ → ℕ → Option Buffer
  peerOf : ℕ → ℕ → Option String
  group : ℕ → List String

namespace RelayView

/-- The views correspond.  The order within a group does not matter. -/
structure Same (v v' : RelayView) : Prop where
  cached : v'.cached = v.cached
  peerOf : v'.peerOf = v.peerOf
  group : ∀ convId name, name ∈ v'.group convId ↔ name ∈ v.group convId

/-- The repairs: what the cache holds of the gap, for the peer that asks. -/
def repairs (v : RelayView) (nack : NackDart) (requester : String) : List (Buffer × String) :=
  (nack.missingSeq.filterMap (v.cached nack.convId nack.targetId)).map fun dart => (dart, requester)

/-- What the cache does not hold of the gap. -/
def missing (v : RelayView) (nack : NackDart) : List ℕ :=
  nack.missingSeq.filter fun seq => (v.cached nack.convId nack.targetId seq).isNone

/-- The NACK for the rest of the group, when something is missing. -/
def toGroup (v : RelayView) (nack : NackDart) (buf : Buffer) (requester : String) :
    List (Buffer × String) :=
  if v.missing nack ≠ [] then
    ((v.group nack.convId).filter fun name => decide (name ≠ requester)).map fun name => (buf, name)
  else []

/-- The NACK for the peer of its target, or for the group when the target has no peer or is the one
that asks. -/
def relays (v : RelayView) (nack : NackDart) (buf : Buffer) (requester : String) :
    List (Buffer × String) :=
  match v.peerOf nack.convId nack.targetId with
  | some target => if target ≠ requester then [(buf, target)] else v.toGroup nack buf requester
  | none => v.toGroup nack buf requester

/-- **The answer to a frame.**  A frame that does not parse has none. -/
def answer (v : RelayView) (buf : Buffer) (requester : String) : List (Buffer × String) :=
  match (stripControlFrame buf).bind Codec.parseNack with
  | none => []
  | some nack => v.repairs nack requester ++ v.relays nack buf requester

/-- The NACK as `server.rs` passes it on: to nobody when the target's peer is the one that asks. -/
def rustRelays (v : RelayView) (nack : NackDart) (buf : Buffer) (requester : String) :
    List (Buffer × String) :=
  match v.peerOf nack.convId nack.targetId with
  | some target => if target ≠ requester then [(buf, target)] else []
  | none => v.toGroup nack buf requester

def rustAnswer (v : RelayView) (buf : Buffer) (requester : String) : List (Buffer × String) :=
  match (stripControlFrame buf).bind Codec.parseNack with
  | none => []
  | some nack => v.repairs nack requester ++ v.rustRelays nack buf requester

section Same

variable {v v' : RelayView} (h : v.Same v') (nack : NackDart) (buf : Buffer) (requester : String)

include h

theorem Same.repairs_eq : v'.repairs nack requester = v.repairs nack requester := by
  rw [repairs, repairs, h.cached]

theorem Same.mem_toGroup (x : Buffer × String) :
    x ∈ v'.toGroup nack buf requester ↔ x ∈ v.toGroup nack buf requester := by
  rw [toGroup, toGroup, missing, missing, h.cached]
  split
  · simp only [List.mem_map, List.mem_filter, h.group]
  · exact Iff.rfl

theorem Same.mem_relays (x : Buffer × String) :
    x ∈ v'.relays nack buf requester ↔ x ∈ v.relays nack buf requester := by
  have hgroup := h.mem_toGroup nack buf requester x
  rw [relays, relays, h.peerOf]
  split
  · split
    · exact Iff.rfl
    · exact hgroup
  · exact hgroup

theorem Same.mem_rustRelays (x : Buffer × String) :
    x ∈ v'.rustRelays nack buf requester ↔ x ∈ v.rustRelays nack buf requester := by
  have hgroup := h.mem_toGroup nack buf requester x
  rw [rustRelays, rustRelays, h.peerOf]
  split
  · exact Iff.rfl
  · exact hgroup

theorem Same.answer_eq : (v'.answer buf requester).toFinset = (v.answer buf requester).toFinset := by
  ext x
  rw [List.mem_toFinset, List.mem_toFinset, answer, answer]
  cases (stripControlFrame buf).bind Codec.parseNack with
  | none => exact Iff.rfl
  | some nack =>
    simp only [List.mem_append, h.repairs_eq nack requester, h.mem_relays nack buf requester x]

theorem Same.rustAnswer_eq :
    (v'.rustAnswer buf requester).toFinset = (v.rustAnswer buf requester).toFinset := by
  ext x
  rw [List.mem_toFinset, List.mem_toFinset, rustAnswer, rustAnswer]
  cases (stripControlFrame buf).bind Codec.parseNack with
  | none => exact Iff.rfl
  | some nack =>
    simp only [List.mem_append, h.repairs_eq nack requester, h.mem_rustRelays nack buf requester x]

end Same

/-- A NACK the Rust server keeps to itself: the peer of its target is the one that asks, something is
missing, and somebody else is in the group. -/
def Withheld (v : RelayView) (nack : NackDart) (requester : String) : Prop :=
  v.peerOf nack.convId nack.targetId = some requester ∧
    (∃ seq ∈ nack.missingSeq, v.cached nack.convId nack.targetId seq = none) ∧
    ∃ name ∈ v.group nack.convId, name ≠ requester

theorem missing_ne_nil_iff (v : RelayView) (nack : NackDart) :
    v.missing nack ≠ [] ↔
      ∃ seq ∈ nack.missingSeq, v.cached nack.convId nack.targetId seq = none := by
  rw [missing, ne_eq, List.filter_eq_nil_iff]
  push Not
  simp only [Option.isNone_iff_eq_none]

theorem mem_repairs {v : RelayView} {nack : NackDart} {requester : String} {x : Buffer × String}
    (hx : x ∈ v.repairs nack requester) : x.2 = requester := by
  obtain ⟨dart, -, rfl⟩ := List.mem_map.mp hx
  rfl

/-- **The two ways to answer** differ exactly on a NACK that is withheld. -/
theorem rustAnswer_eq_answer_iff (v : RelayView) (buf : Buffer) (requester : String) :
    (v.rustAnswer buf requester).toFinset = (v.answer buf requester).toFinset ↔
      ∀ nack, (stripControlFrame buf).bind Codec.parseNack = some nack →
        ¬ v.Withheld nack requester := by
  rw [rustAnswer, answer]
  cases (stripControlFrame buf).bind Codec.parseNack with
  | none => exact iff_of_true rfl fun nack h => by cases h
  | some nack =>
    simp only [Option.some.injEq, forall_eq']
    constructor
    · rintro heq ⟨htarget, hmissing, name, hname, hother⟩
      -- the fallback reaches somebody the repairs do not
      have hrelay : (buf, name) ∈ v.relays nack buf requester := by
        rw [relays, htarget]
        simp only [ne_eq, not_true_eq_false, if_false]
        rw [toGroup, if_pos ((v.missing_ne_nil_iff nack).mpr hmissing)]
        exact List.mem_map.mpr ⟨name, List.mem_filter.mpr ⟨hname, by simpa using hother⟩, rfl⟩
      have hmem : (buf, name) ∈ (v.repairs nack requester ++ v.rustRelays nack buf requester) := by
        rw [← List.mem_toFinset, heq, List.mem_toFinset]
        exact List.mem_append_right _ hrelay
      rcases List.mem_append.mp hmem with hrepair | hrust
      · exact hother (mem_repairs hrepair)
      · rw [rustRelays, htarget] at hrust
        simp at hrust
    · intro hnot
      have hrelays : v.rustRelays nack buf requester = v.relays nack buf requester := by
        rw [rustRelays, relays]
        cases htarget : v.peerOf nack.convId nack.targetId with
        | none => rfl
        | some target =>
          by_cases hsame : target = requester
          · have hnone : v.toGroup nack buf requester = [] := by
              rw [toGroup]
              split
              · rename_i hmissing
                rw [List.map_eq_nil_iff, List.filter_eq_nil_iff]
                intro name hname
                have hall : name = requester := by
                  by_contra hother
                  exact hnot ⟨by rw [htarget, hsame], (v.missing_ne_nil_iff nack).mp hmissing, name,
                    hname, hother⟩
                simp [hall]
              · rfl
            simp only [hsame, ne_eq, not_true_eq_false, if_false, hnone]
          · simp only [ne_eq, hsame, not_false_eq_true, if_true]
      rw [hrelays]

end RelayView

/-! ### TypeScript -/

namespace GroupServer

def relayView (s : GroupServer) : RelayView where
  cached := s.cachedData
  peerOf convId senderId := (get₂ s.clientMap convId senderId).map Peer.id
  group convId := ((s.groups.get convId).getD []).map Peer.id

/-- The frames handed to peers, with the names of the peers. -/
def sentTo (os : List ServerOutput) : List (Buffer × String) :=
  (framesOf os).map fun f => (f.1, f.2.id)

theorem framesOf_append (os os' : List ServerOutput) :
    framesOf (os ++ os') = framesOf os ++ framesOf os' := List.map_append ..

variable {s : GroupServer}

theorem framesOf_sends (hopen : s.closed = false) (frames : List (Buffer × Peer)) :
    framesOf (s.sends frames) = frames := by
  rw [sends, if_neg (by simp [hopen])]
  induction frames with
  | nil => rfl
  | cons f fs ih =>
    rw [List.map_cons]
    show f :: framesOf (fs.map _) = f :: fs
    rw [ih]

theorem sentTo_relayToGroup (hopen : s.closed = false) (nack : NackDart)
    (buf : Buffer) (requester : String) (hmissing : s.relayView.missing nack ≠ []) :
    sentTo (relayToGroup buf nack.convId requester s).output
      = s.relayView.toGroup nack buf requester := by
  rw [relayToGroup_run, sentTo, framesOf_sends hopen, RelayView.toGroup, if_pos hmissing, othersIn]
  show _ = (((((s.groups.get nack.convId).getD []).map Peer.id).filter _).map _)
  rw [List.filter_map, List.map_map, List.map_map]
  rfl

theorem handleNack_answers (hopen : s.closed = false) (buf : Buffer) (peer : Peer) :
    sentTo (handleNack buf peer s).output = s.relayView.answer buf peer.id := by
  rw [handleNack, RelayView.answer]
  cases (stripControlFrame buf).bind Codec.parseNack with
  | none => rfl
  | some nack =>
    simp only
    rw [repair, get_bind]
    have hloop := forEach_sendToPeer_run (fun dart : Buffer => (dart, peer))
      (nack.missingSeq.filterMap (s.cachedData nack.convId nack.targetId)) s
    simp only at hloop
    rw [bind_of_some (a := ()) (by rw [hloop]), hloop, Outcome.prepend_output, sentTo,
      framesOf_append, List.map_append, framesOf_sends hopen]
    congr 1
    · rw [List.map_map]
      rfl
    · show sentTo _ = _
      have hmissing : s.relayView.missing nack = nack.missingSeq.filter fun seq =>
        (s.cachedData nack.convId nack.targetId seq).isNone := rfl
      have hgroup := sentTo_relayToGroup hopen nack buf peer.id
      have hpeer : s.relayView.peerOf nack.convId nack.targetId
        = (get₂ s.clientMap nack.convId nack.targetId).map Peer.id := rfl
      have hfall : sentTo ((if s.relayView.missing nack ≠ [] then relayToGroup buf nack.convId peer.id
          else pure () : ServerProg Unit) s).output = s.relayView.toGroup nack buf peer.id := by
        by_cases hm : s.relayView.missing nack ≠ []
        · rw [if_pos hm, hgroup hm]
        · rw [if_neg hm, RelayView.toGroup, if_neg hm]
          rfl
      rw [RelayView.relays, hpeer, ← hmissing]
      cases get₂ s.clientMap nack.convId nack.targetId with
      | none => exact hfall
      | some target =>
        simp only [Option.map_some]
        by_cases hself : target.id ≠ peer.id
        · rw [if_pos hself, if_pos hself, sendToPeer_run, sentTo, framesOf_sends hopen]
          rfl
        · rw [if_neg hself, if_neg hself]
          exact hfall

end GroupServer

/-! ### Go -/

namespace GoServer

def relayView (s : DartGroupServer) : RelayView where
  cached convId senderId seq := ((get₂ s.messageCache convId senderId).getD ∅).get seq
  peerOf convId senderId := (get₂ s.clientMap convId senderId).map fun p => (s.heap p).id
  group convId := ((s.groups.get convId).getD []).map fun p => (s.heap p).id

/-- What the calls of `sendToPeer` for these frames put out. -/
def transmit (s : DartGroupServer) (frames : List (Buffer × ℕ)) : List Output :=
  frames.flatMap fun f => (sendToPeer f.1 f.2 s).output

/-- The frames of these calls, with the names of the peers. -/
def named (s : DartGroupServer) (frames : List (Buffer × ℕ)) : List (Buffer × String) :=
  frames.map fun f => (f.1, (s.heap f.2).id)

theorem transmit_append (s : DartGroupServer) (frames frames' : List (Buffer × ℕ)) :
    transmit s (frames ++ frames') = transmit s frames ++ transmit s frames' := List.flatMap_append ..

theorem sendToPeer_state (buf : Buffer) (peer : ℕ) (s : DartGroupServer) :
    (sendToPeer buf peer s).state = s := by
  rw [sendToPeer, get_bind]
  cases (s.heap peer).type with
  | udp => cases (s.heap peer).udpAddr <;> rfl
  | ws => cases (s.heap peer).wsConn <;> rfl
  | tcp =>
    cases (s.heap peer).tcpConn with
    | none => rfl
    | some conn =>
      cases putUint16 (Buffer.alloc (2 + buf.length)) 0 2 buf.length with
      | none => rfl
      | some out => cases h : copyInto out 2 out.length buf <;> simp [h]

theorem sendToPeer_run (buf : Buffer) (peer : ℕ) (s : DartGroupServer) :
    sendToPeer buf peer s = ⟨some (), s, transmit s [(buf, peer)]⟩ := by
  obtain ⟨u, hresult⟩ := Option.isSome_iff_exists.mp (sendToPeer_returns buf peer s)
  have hstate := sendToPeer_state buf peer s
  have houtput : (sendToPeer buf peer s).output = transmit s [(buf, peer)] := by
    simp [transmit]
  show (⟨(sendToPeer buf peer s).result, (sendToPeer buf peer s).state,
    (sendToPeer buf peer s).output⟩ : Outcome DartGroupServer Output Unit) = _
  rw [hresult, hstate, houtput]

/-- A loop that only sends leaves the state alone and runs to its end. -/
theorem forEach_sendToPeer_run {β : Type} (frame : β → Buffer × ℕ) (bs : List β)
    (s : DartGroupServer) :
    forEach (fun b => sendToPeer (frame b).1 (frame b).2) bs s
      = ⟨some (), s, transmit s (bs.map frame)⟩ := by
  induction bs with
  | nil => rfl
  | cons b bs ih =>
    rw [forEach_cons, bind_of_some (a := ()) (by rw [sendToPeer_run]), sendToPeer_run, ih]
    simp [transmit, Outcome.prepend]

/-- The pointers of the rest of a group. -/
def othersIn (s : DartGroupServer) (convId actualPeer : ℕ) : List ℕ :=
  ((s.groups.get convId).getD []).filter fun p => decide ((s.heap p).id ≠ (s.heap actualPeer).id)

theorem relayToGroup_run (buf : Buffer) (convId actualPeer : ℕ) (s : DartGroupServer) :
    relayToGroup buf convId actualPeer s
      = ⟨some (), s, transmit s ((othersIn s convId actualPeer).map fun p => (buf, p))⟩ := by
  rw [relayToGroup, get_bind]
  exact forEach_sendToPeer_run (fun p => (buf, p)) _ s

theorem stripControlFrame_eq (buf : Buffer) :
    GoCodec.stripControlFrame buf = some (stripControlFrame buf) := by
  rw [GoCodec.stripControlFrame, stripControlFrame]
  split
  · rfl
  · rename_i hlen
    rw [slice_eq_subarray (Nat.zero_le _) (Nat.sub_le _ _), Option.map_some]
    congr 3
    omega

theorem named_othersIn (s : DartGroupServer) (convId actualPeer : ℕ) (buf : Buffer) :
    named s ((othersIn s convId actualPeer).map fun p => (buf, p))
      = ((((relayView s).group convId).filter fun name =>
          decide (name ≠ (s.heap actualPeer).id)).map fun name => (buf, name)) := by
  show _ = ((((s.groups.get convId).getD []).map fun p => (s.heap p).id).filter _).map _
  rw [List.filter_map, List.map_map, named, List.map_map]
  rfl

/-- The calls of `sendToPeer` by which a parsed NACK is answered. -/
def answering (s : DartGroupServer) (nack : NackDart) (buf : Buffer) (actualPeer : ℕ) :
    List (Buffer × ℕ) :=
  let toGroup := if (relayView s).missing nack ≠ [] then
    (othersIn s nack.convId actualPeer).map fun p => (buf, p) else []
  (nack.missingSeq.filterMap ((relayView s).cached nack.convId nack.targetId)).map
      (fun dart => (dart, actualPeer)) ++
    match get₂ s.clientMap nack.convId nack.targetId with
    | some target => if (s.heap target).id ≠ (s.heap actualPeer).id then [(buf, target)] else toGroup
    | none => toGroup

theorem repair_run (nack : NackDart) (buf : Buffer) (actualPeer : ℕ) (s : DartGroupServer) :
    repair nack buf actualPeer s
      = ⟨some (), s, transmit s (answering s nack buf actualPeer)⟩ := by
  have hloop := forEach_sendToPeer_run (fun dart : Buffer => (dart, actualPeer))
    (nack.missingSeq.filterMap ((get₂ s.messageCache nack.convId nack.targetId).getD ∅).get) s
  simp only at hloop
  have hfall : (if (relayView s).missing nack ≠ [] then relayToGroup buf nack.convId actualPeer
      else pure () : GoProg Unit) s
      = ⟨some (), s, transmit s (if (relayView s).missing nack ≠ [] then
          (othersIn s nack.convId actualPeer).map fun p => (buf, p) else [])⟩ := by
    by_cases hm : (relayView s).missing nack ≠ []
    · rw [if_pos hm, if_pos hm, relayToGroup_run]
    · rw [if_neg hm, if_neg hm]
      rfl
  have hmissing : (relayView s).missing nack = nack.missingSeq.filter fun seq =>
    (((get₂ s.messageCache nack.convId nack.targetId).getD ∅).get seq).isNone := rfl
  rw [repair, get_bind, bind_of_some (a := ()) (by rw [hloop]), hloop, answering, transmit_append,
    ← hmissing]
  cases get₂ s.clientMap nack.convId nack.targetId with
  | none =>
    simp only [hfall]
    rfl
  | some target =>
    by_cases hself : (s.heap target).id ≠ (s.heap actualPeer).id
    · simp only [if_pos hself, sendToPeer_run]
      rfl
    · simp only [if_neg hself, hfall]
      rfl

theorem named_answering (s : DartGroupServer) (nack : NackDart) (buf : Buffer) (actualPeer : ℕ) :
    named s (answering s nack buf actualPeer)
      = (relayView s).repairs nack (s.heap actualPeer).id ++
        (relayView s).relays nack buf (s.heap actualPeer).id := by
  have hfall : named s (if (relayView s).missing nack ≠ [] then
      (othersIn s nack.convId actualPeer).map fun p => (buf, p) else [])
      = (relayView s).toGroup nack buf (s.heap actualPeer).id := by
    rw [RelayView.toGroup]
    split
    · exact named_othersIn s nack.convId actualPeer buf
    · rfl
  have hpeer : (relayView s).peerOf nack.convId nack.targetId
    = (get₂ s.clientMap nack.convId nack.targetId).map fun p => (s.heap p).id := rfl
  rw [answering, named, List.map_append, List.map_map, RelayView.relays, hpeer]
  congr 1
  cases get₂ s.clientMap nack.convId nack.targetId with
  | none => exact hfall
  | some target =>
    simp only [Option.map_some]
    by_cases hself : (s.heap target).id ≠ (s.heap actualPeer).id
    · rw [if_pos hself, if_pos hself]
      rfl
    · rw [if_neg hself, if_neg hself]
      exact hfall

/-- The Go server gives the answer, by calls of `sendToPeer` for exactly its frames. -/
theorem handleNack_answers (s : DartGroupServer) (buf : Buffer) (actualPeer : ℕ) :
    ∃ frames, (handleNack buf actualPeer s).output = transmit s frames ∧
      named s frames = (relayView s).answer buf (s.heap actualPeer).id := by
  rw [handleNack, stripControlFrame_eq, ofOption_some_bind, RelayView.answer]
  cases stripControlFrame buf with
  | none => exact ⟨[], rfl, rfl⟩
  | some stripped =>
    simp only [Option.bind_some, Wire.parseNack_eq, ofOption_some_bind]
    cases Codec.parseNack stripped with
    | none => exact ⟨[], rfl, rfl⟩
    | some nack =>
      exact ⟨answering s nack buf actualPeer, by simp only [repair_run], named_answering s nack buf _⟩

end GoServer

/-! ### Rust -/

namespace RustServer

/-- The name the other servers use for a peer. -/
def PeerId.name : PeerId → String
  | .udp addr => "udp:" ++ addr
  | .ws addr => "ws:" ++ addr
  | .tcp addr => "tcp:" ++ addr

theorem PeerId.name_injective : Function.Injective PeerId.name := by
  intro p q h
  have hlist := congrArg String.toList h
  cases p <;> cases q <;>
    simp only [PeerId.name, String.toList_append] at hlist <;>
    first
      | exact congrArg _ (String.toList_inj.mp (List.append_cancel_left hlist))
      | exact absurd (congrArg List.head? hlist) (by simp)

def relayView (s : ServerState) : RelayView where
  cached := cachedData s
  peerOf convId senderId := (get₂ s.clientMap convId senderId).map PeerId.name
  group convId := ((s.rooms.get convId).getD []).map PeerId.name

/-- The frames handed to `send_to_peer`, with the names of the peers. -/
def sentTo (os : List Output) : List (Buffer × String) :=
  os.filterMap fun o => match o with
    | .sent msg peer _ => some (msg, peer.name)
    | .cached _ _ _ _ => none

theorem sentTo_append (os os' : List Output) : sentTo (os ++ os') = sentTo os ++ sentTo os' :=
  List.filterMap_append ..

theorem alone_forEach_sendToPeer {β : Type} (frame : β → Buffer × PeerId) (bs : List β)
    (s : ServerState) :
    (Thread.forEach (fun b => sendToPeer (frame b).1 (frame b).2) bs).alone s
      = ⟨some (), s, bs.map fun b => .sent (frame b).1 (frame b).2 (carries s (frame b).2)⟩ := by
  have h := Thread.alone_forEach_emit
    (fun b s => [Output.sent (frame b).1 (frame b).2 (carries s (frame b).2)]) bs s
  rw [← List.map_eq_flatMap] at h
  exact h

theorem sentTo_map {β : Type} (frame : β → Buffer × PeerId) (carried : β → Bool) (bs : List β) :
    sentTo (bs.map fun b => .sent (frame b).1 (frame b).2 (carried b))
      = bs.map fun b => ((frame b).1, (frame b).2.name) := by
  induction bs with
  | nil => rfl
  | cons b bs ih =>
    rw [List.map_cons, List.map_cons, ← ih]
    rfl

theorem stripControl_eq (buf : Buffer) : stripControl buf = stripControlFrame buf := by
  rw [stripControl, stripControlFrame, CTRL_MAC_LEN]
  split
  · rfl
  · rename_i hlen
    have hcast : (buf.length : ℤ) - ((32 : ℕ) : ℤ) = ((buf.length - 32 : ℕ) : ℤ) := by omega
    rw [hcast, Wire.subarray_zero (Nat.sub_le _ _)]

/-- The fallback of the answer, from the group as it was looked up. -/
theorem sentTo_group (s : ServerState) (nack : NackDart) (buf : Buffer) (peer : PeerId) :
    sentTo ((Thread.forEach (sendToPeer buf) (othersIn s nack.convId peer)).alone s).output
      = (((relayView s).group nack.convId).filter fun name => decide (name ≠ peer.name)).map
          fun name => (buf, name) := by
  have hloop := alone_forEach_sendToPeer (fun p => (buf, p)) (othersIn s nack.convId peer) s
  simp only at hloop
  rw [hloop]
  have hsent := sentTo_map (fun p => (buf, p)) (carries s) (othersIn s nack.convId peer)
  simp only at hsent
  rw [hsent]
  show _ = ((((s.rooms.get nack.convId).getD []).map PeerId.name).filter _).map _
  rw [List.filter_map, List.map_map, othersIn]
  congr 2
  funext p
  exact decide_eq_decide.mpr (not_congr PeerId.name_injective.eq_iff.symm)

theorem sentTo_repair (s : ServerState) (nack : NackDart) (buf : Buffer) (peer : PeerId) :
    sentTo ((repair (Wire.rustNack nack) buf peer).alone s).output
      = (relayView s).repairs nack peer.name ++ (relayView s).rustRelays nack buf peer.name := by
  have hloop := alone_forEach_sendToPeer (fun dart : Buffer => (dart, peer))
    (nack.missingSeq.filterMap (cachedData s nack.convId nack.targetId)) s
  have hsent := sentTo_map (fun dart : Buffer => (dart, peer)) (fun _ => carries s peer)
    (nack.missingSeq.filterMap (cachedData s nack.convId nack.targetId))
  simp only at hloop hsent
  have hlook : lookUp (Wire.rustNack nack) peer s
      = (nack.missingSeq.filterMap (cachedData s nack.convId nack.targetId),
          (relayView s).missing nack, othersIn s nack.convId peer) := rfl
  rw [repair, Thread.alone_read_bind, hlook]
  simp only [Thread.alone_bind]
  rw [bind_of_some (a := ()) (by rw [hloop]), hloop, Outcome.prepend_output, sentTo_append, hsent]
  congr 1
  rw [← Thread.alone_bind, Thread.alone_read_bind, RelayView.rustRelays]
  have hpeer : (relayView s).peerOf nack.convId nack.targetId
    = (get₂ s.clientMap nack.convId nack.targetId).map PeerId.name := rfl
  rw [hpeer]
  have htarget : get₂ s.clientMap (Wire.rustNack nack).convId (Wire.rustNack nack).targetId
    = get₂ s.clientMap nack.convId nack.targetId := rfl
  simp only [htarget]
  cases get₂ s.clientMap nack.convId nack.targetId with
  | none =>
    simp only [Option.map_none, RelayView.toGroup]
    by_cases hm : (relayView s).missing nack ≠ []
    · rw [if_pos hm, if_pos hm]
      exact sentTo_group s nack buf peer
    · rw [if_neg hm, if_neg hm]
      rfl
  | some tp =>
    simp only [Option.map_some]
    by_cases hself : tp ≠ peer
    · rw [if_pos hself, if_pos (PeerId.name_injective.ne hself)]
      rfl
    · have hname : tp.name = peer.name := congrArg PeerId.name (not_not.mp hself)
      rw [if_neg hself, if_neg (not_not.mpr hname)]
      rfl

theorem handleNack_answers (s : ServerState) (buf : Buffer) (peer : PeerId) :
    sentTo ((handleNack buf peer).alone s).output = (relayView s).rustAnswer buf peer.name := by
  rw [handleNack, stripControl_eq, RelayView.rustAnswer]
  cases stripControlFrame buf with
  | none => rfl
  | some stripped =>
    simp only [Option.bind_some, Wire.parseNack_eq, Thread.alone_bind, Thread.alone_ofOption,
      ofOption_some_bind]
    cases Codec.parseNack stripped with
    | none => rfl
    | some nack => exact sentTo_repair s nack buf peer

end RustServer

/-! ### The three servers together -/

/-- **When the three servers answer alike.**  From corresponding states, for every frame and every
peer: what the TypeScript server hands to its peers is the answer, the Go server sends the same
frames to the same peers, and the Rust server does so exactly when it does not withhold the NACK. -/
theorem nack_answers_agree_iff {ts : GroupServer} {go : GoServer.DartGroupServer}
    {rust : RustServer.ServerState} (hopen : ts.closed = false)
    (hgo : ts.relayView.Same (GoServer.relayView go))
    (hrust : ts.relayView.Same (RustServer.relayView rust)) (buf : Buffer) {peer : Peer}
    {actualPeer : ℕ} {peerId : RustServer.PeerId} (hactual : (go.heap actualPeer).id = peer.id)
    (hpeer : peerId.name = peer.id) :
    GroupServer.sentTo (GroupServer.handleNack buf peer ts).output
        = ts.relayView.answer buf peer.id ∧
      (∃ frames, (GoServer.handleNack buf actualPeer go).output = GoServer.transmit go frames ∧
        (GoServer.named go frames).toFinset
          = (GroupServer.sentTo (GroupServer.handleNack buf peer ts).output).toFinset) ∧
      ((RustServer.sentTo ((RustServer.handleNack buf peerId).alone rust).output).toFinset
          = (GroupServer.sentTo (GroupServer.handleNack buf peer ts).output).toFinset ↔
        ∀ nack, (stripControlFrame buf).bind Codec.parseNack = some nack →
          ¬ ts.relayView.Withheld nack peer.id) := by
  have hts := GroupServer.handleNack_answers hopen buf peer
  refine ⟨hts, ?_, ?_⟩
  · obtain ⟨frames, houtput, hnamed⟩ := GoServer.handleNack_answers go buf actualPeer
    refine ⟨frames, houtput, ?_⟩
    rw [hnamed, hactual, hgo.answer_eq, hts]
  · rw [RustServer.handleNack_answers, hpeer, hrust.rustAnswer_eq, hts,
      RelayView.rustAnswer_eq_answer_iff]

/-! ### A group of two -/

def asker : Peer := { id := "udp:10.0.0.1:4000", link := .udp "10.0.0.1" 4000 }

def bystander : Peer := { id := "udp:10.0.0.2:4000", link := .udp "10.0.0.2" 4000 }

/-- Member `7` speaks over the first of two peers, and nothing is cached. -/
def twoPeers : GroupServer where
  groups := (∅ : NumMap (List Peer)).set 1 [asker, bystander]
  clientMap := set₂ ∅ 1 7 asker

def goTwoPeers : GoServer.DartGroupServer where
  heap p := GoServer.udpPeer (if p = 0 then "10.0.0.1:4000" else "10.0.0.2:4000")
  groups := (∅ : NumMap (List ℕ)).set 1 [0, 1]
  clientMap := set₂ ∅ 1 7 0

def rustTwoPeers : RustServer.ServerState where
  rooms := (∅ : NumMap (List RustServer.PeerId)).set 1 [.udp "10.0.0.1:4000", .udp "10.0.0.2:4000"]
  clientMap := set₂ ∅ 1 7 (.udp "10.0.0.1:4000")

/-- A NACK of member `7` for number `5` of the stream of a target, with room for tag and MAC. -/
def nackFor (targetId : ℕ) : Buffer :=
  Wire.nackHeader { type := TYPE_NACK, convId := 1, senderId := 7, targetId, missingSeq := [5] }
    (Buffer.alloc 12) ++ Buffer.alloc 48

theorem twoPeers_correspond : twoPeers.relayView.Same (GoServer.relayView goTwoPeers) ∧
    twoPeers.relayView.Same (RustServer.relayView rustTwoPeers) := by
  have hname : (GoServer.udpPeer "10.0.0.1:4000").id = asker.id := by decide
  have hname' : (RustServer.PeerId.udp "10.0.0.1:4000").name = asker.id := by decide
  refine ⟨⟨rfl, ?_, ?_⟩, ⟨rfl, ?_, ?_⟩⟩
  · funext convId senderId
    simp only [GoServer.relayView, GroupServer.relayView, goTwoPeers, twoPeers, get₂_set₂]
    split
    · exact congrArg some hname
    · rfl
  · intro convId name
    simp only [GoServer.relayView, GroupServer.relayView, goTwoPeers, twoPeers, get_set]
    split
    · exact Iff.rfl
    · exact Iff.rfl
  · funext convId senderId
    simp only [RustServer.relayView, GroupServer.relayView, rustTwoPeers, twoPeers, get₂_set₂]
    split
    · exact congrArg some hname'
    · rfl
  · intro convId name
    simp only [RustServer.relayView, GroupServer.relayView, rustTwoPeers, twoPeers,
      get_set]
    split
    · exact Iff.rfl
    · exact Iff.rfl

/-- A NACK for a member nobody speaks for goes to the group, in the Rust server too. -/
theorem unknown_target_answered_alike :
    (RustServer.sentTo ((RustServer.handleNack (nackFor 9) (.udp "10.0.0.1:4000")).alone
        rustTwoPeers).output).toFinset
      = (GroupServer.sentTo (GroupServer.handleNack (nackFor 9) asker twoPeers).output).toFinset := by
  refine (nack_answers_agree_iff (rfl : twoPeers.closed = false) twoPeers_correspond.1
    twoPeers_correspond.2
    (nackFor 9) (by decide : (goTwoPeers.heap 0).id = asker.id) (by decide)).2.2.mpr ?_
  rintro nack hparse ⟨htarget, -⟩
  have hnack : (stripControlFrame (nackFor 9)).bind Codec.parseNack = some
      { type := TYPE_NACK, convId := 1, senderId := 7, targetId := 9, missingSeq := [5] } := by
    decide +kernel
  rw [hnack] at hparse
  cases hparse
  cases htarget

/-- **A NACK that only the Rust server keeps to itself.**  Member `7` asks for number `5` of its own
stream: the TypeScript server passes the NACK to the other peer, the Rust server to nobody. -/
theorem own_stream_nack_withheld :
    twoPeers.relayView.Same (RustServer.relayView rustTwoPeers) ∧
      GroupServer.sentTo (GroupServer.handleNack (nackFor 7) asker twoPeers).output
        = [(nackFor 7, "udp:10.0.0.2:4000")] ∧
      RustServer.sentTo ((RustServer.handleNack (nackFor 7) (.udp "10.0.0.1:4000")).alone
        rustTwoPeers).output = [] := by
  refine ⟨twoPeers_correspond.2, ?_⟩
  decide +kernel

end DartProtocol
