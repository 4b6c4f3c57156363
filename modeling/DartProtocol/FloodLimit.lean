import DartProtocol.FixedWindow
import DartProtocol.ServerRules

/-!
# The flood limit of the server

Before a packet is looked at, `handleMessage` counts it on the peer object it comes with and drops it
when the object has counted more than 500 in its window.  Every handler of a transport, UDP, TCP and
WebSocket alike, makes a new peer object for every packet, so that no count ever exceeds one.

* `passesLimiter` — what decides about a packet;
* `step_of_dropped` — a packet that does not pass changes nothing;
* `flood_limited_iff` — the limit holds exactly in runs in which nobody exceeds it anyway.
-/

namespace DartProtocol.GroupServer

variable {C : Crypto} {keys : ServerKeys}

/-- A packet of a peer at a time. -/
structure TimedPacket where
  now : ℕ
  link : PeerLink
  buf : Buffer
  deriving DecidableEq

/-- The packets of a transport peer in a run. -/
def packetsOf (peerId : String) (es : List Event) : List TimedPacket :=
  es.filterMap fun e => match e with
    | .message now id link buf => if id = peerId then some ⟨now, link, buf⟩ else none
    | _ => none

/-- Is a packet processed past the limiter?  It comes with a peer object of its own. -/
def passesLimiter (peerId : String) (p : TimedPacket) : Bool :=
  !decide (500 < (countPacket p.now { id := peerId, link := p.link }).packetCount)

/-- In no window of a peer more than 500 of its packets are processed. -/
def FloodLimited (es : List Event) : Prop :=
  ∀ peerId, ∀ w ∈ FixedWindow.windows 1000 TimedPacket.now (packetsOf peerId es),
    (w.filter (passesLimiter peerId)).length ≤ 500

/-- Nobody sends more than 500 packets in a window. -/
def NobodyFloods (es : List Event) : Prop :=
  ∀ peerId, ∀ w ∈ FixedWindow.windows 1000 TimedPacket.now (packetsOf peerId es), w.length ≤ 500

theorem passesLimiter_eq_true (peerId : String) (p : TimedPacket) : passesLimiter peerId p = true := by
  rw [passesLimiter, countPacket_fresh]
  rfl

theorem step_of_dropped {now : ℕ} {id : String} {link : PeerLink} {buf : Buffer} (s : GroupServer)
    (h : passesLimiter id ⟨now, link, buf⟩ = false) :
    step C keys (.message now id link buf) s = ⟨some (), s, []⟩ := by
  have hmany : 500 < (countPacket now { id, link }).packetCount := by
    rw [passesLimiter, Bool.not_eq_false', decide_eq_true_eq] at h
    exact h
  show handleMessage C keys now buf { id, link } s = _
  rw [handleMessage_run, if_pos hmany]

theorem step_of_passed {now : ℕ} {id : String} {link : PeerLink} {buf : Buffer} (s : GroupServer)
    (h : passesLimiter id ⟨now, link, buf⟩ = true) :
    step C keys (.message now id link buf) s
      = ⟨some (), (dispatch C keys buf (countPacket now { id, link }) s).state,
          (dispatch C keys buf (countPacket now { id, link }) s).output⟩ := by
  have hfew : ¬ 500 < (countPacket now { id, link }).packetCount := by
    rw [passesLimiter, Bool.not_eq_true', decide_eq_false_iff_not] at h
    exact h
  show handleMessage C keys now buf { id, link } s = _
  rw [handleMessage_run, if_neg hfew]

/-- **When the flood limit holds.**  A packet that the limiter stops changes nothing and one that it
lets pass is dispatched; but it lets all packets pass, so that in no window more than 500 packets of a
peer are processed exactly when no peer sends more than 500 in a window. -/
theorem flood_limited_iff (C : Crypto) (keys : ServerKeys) (es : List Event) :
    (∀ now id link buf s, passesLimiter id ⟨now, link, buf⟩ = false →
      step C keys (.message now id link buf) s = ⟨some (), s, []⟩) ∧
    (∀ now id link buf s, passesLimiter id ⟨now, link, buf⟩ = true →
      step C keys (.message now id link buf) s
        = ⟨some (), (dispatch C keys buf (countPacket now { id, link }) s).state,
            (dispatch C keys buf (countPacket now { id, link }) s).output⟩) ∧
    (FloodLimited es ↔ NobodyFloods es) := by
  refine ⟨fun _ _ _ _ s h => step_of_dropped s h, fun _ _ _ _ s h => step_of_passed s h, ?_⟩
  have hall : ∀ (peerId : String) (w : List TimedPacket), w.filter (passesLimiter peerId) = w :=
    fun peerId w => List.filter_eq_self.mpr fun p _ => passesLimiter_eq_true peerId p
  simp only [FloodLimited, NobodyFloods, hall]

/-- A client sends 501 packets at once. -/
def burst : List Event := List.replicate 501 (.message 5 "udp:10.0.0.1:4000" (.udp "10.0.0.1" 4000) [])

theorem packetsOf_burst :
    packetsOf "udp:10.0.0.1:4000" burst = List.replicate 501 ⟨5, .udp "10.0.0.1" 4000, []⟩ := by
  decide +kernel

/-- All of them are processed, although they share a window. -/
theorem burst_not_limited :
    FixedWindow.windows 1000 TimedPacket.now (packetsOf "udp:10.0.0.1:4000" burst)
        = [List.replicate 501 ⟨5, .udp "10.0.0.1" 4000, []⟩] ∧
      ¬ FloodLimited burst := by
  have hwindow : FixedWindow.windows 1000 TimedPacket.now (packetsOf "udp:10.0.0.1:4000" burst)
      = [List.replicate 501 ⟨5, .udp "10.0.0.1" 4000, []⟩] := by
    rw [packetsOf_burst]
    refine FixedWindow.windows_of_close fun p hp => ?_
    rw [List.eq_of_mem_replicate hp]
    decide
  refine ⟨hwindow, fun h => ?_⟩
  have hmany := h "udp:10.0.0.1:4000" _ (by rw [hwindow]; exact List.mem_singleton.mpr rfl)
  rw [List.filter_eq_self.mpr fun p _ => passesLimiter_eq_true _ p, List.length_replicate] at hmany
  omega

end DartProtocol.GroupServer
