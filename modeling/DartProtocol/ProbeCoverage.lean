import DartProtocol.BoundedMemory
import DartProtocol.Departure
import DartProtocol.ProbeRound

/-!
# Which numbers are probed

The probe callback announces the newest number unless it is 0, and arms itself again while the distance
from that number to the acknowledged one, 0 if there is none, is at least half the circle.  A newest
number 0 is a dart like any other after a wrap, and without an ACK the test turns at the middle of the
circle.

* `ServerKeysSound` — a server key in the state was used to open a roster of its conversation;
* `probe_covers_iff` — it announces and goes on exactly for the numbers of `Client.awaitsAck` but 0.
-/

namespace DartProtocol

open Prog Wire

variable {C : Crypto} {me : Identity}

/-! ### Server keys -/

/-- A server key stands under a 16-bit conversation, and the client shares a secret with it. -/
def ServerKeysSound (C : Crypto) (me : Identity) (s : Client) : Prop :=
  ∀ convId serverPub, s.serverPubKeys.get convId = some serverPub →
    convId < 65536 ∧ (pairwiseKey C me.privateKey serverPub).isSome

variable {s : Client} {convId : ℕ}

theorem ServerKeysSound.of_rooms {t : Client} (hs : ServerKeysSound C me s)
    (h : t.rooms = s.rooms) : ServerKeysSound C me t := by
  have hkeys : t.serverPubKeys = s.serverPubKeys := congrArg (fun r => r.2.2) h
  intro convId serverPub hget
  rw [hkeys] at hget
  exact hs convId serverPub hget

/-- A roster that opens was sealed under a key shared with the server it names. -/
theorem openMemberInfo_sound {buf serverPub : Buffer} {info : MemberInfo}
    (h : openMemberInfo C me s buf = some (some (info, serverPub))) :
    info.convId < 65536 ∧ (pairwiseKey C me.privateKey serverPub).isSome := by
  rw [openMemberInfo] at h
  split at h
  · cases h
  next serverPubKey _ =>
    split at h
    · cases h
    split at h
    · cases h
    next transportKey hkey =>
      split at h
      · cases h
      next info' hdec =>
        cases h
        refine ⟨?_, by rw [hkey]; rfl⟩
        rw [Codec.decodeMemberInfo] at hdec
        split at hdec
        · cases hdec
        · simp only [Option.bind_eq_bind, Option.bind_eq_some_iff] at hdec
          obtain ⟨_, -, convId, hconv, _, -, _, -, _, -, _, -, _, -, hdec⟩ := hdec
          cases hdec
          exact Buffer.readUIntBE_lt hconv

theorem ServerKeysSound.step {e : Event} (hs : ServerKeysSound C me s) :
    ServerKeysSound C me (step C me e s).state := by
  by_cases hmsg : ∃ buf, e = .message buf ∧ buf.readUInt8 0 = some TYPE_MEMBER_INFO
  · obtain ⟨buf, rfl, htype⟩ := hmsg
    by_cases hopen : s.closed = false
    · rw [step_message_of_type C me hopen htype]
      show ServerKeysSound C me (handleMemberInfo C me buf s).state
      cases hinfo : openMemberInfo C me s buf with
      | none =>
        rw [handleMemberInfo, get_bind, hinfo]
        exact hs
      | some opened =>
        cases opened with
        | none =>
          rw [handleMemberInfo, get_bind, hinfo]
          exact hs
        | some opened =>
          rw [handleMemberInfo_run hinfo]
          refine ServerKeysSound.of_rooms ?_
            (afterRoster_obeys (keepsRooms_part (C := C)).adopts opened.1 _ _)
          intro convId serverPub hget
          rw [installRoster, InsertionMap.get_set] at hget
          split at hget
          · next hconv =>
            cases hget
            rw [← hconv]
            exact openMemberInfo_sound hinfo
          · exact hs convId serverPub hget
    · rw [step_message, if_pos (by simpa using hopen)]
      exact hs
  · exact hs.of_rooms (step_keepsRooms fun buf he htype => hmsg ⟨buf, he, htype⟩)

theorem serverKeysSound_stateAfter (es : List Event) :
    ServerKeysSound C me (stateAfter C me es) := by
  induction es using List.reverseRecOn with
  | nil =>
    intro convId serverPub hget
    cases hget
  | append_singleton es e ih =>
    rw [stateAfter_concat]
    exact ih.step

/-! ### The callback -/

/-- The callback broadcasts the SYNC of the newest number under the group key and the pairwise key of
the server, and arms itself again. -/
def Probes (C : Crypto) (me : Identity) (convId : ℕ) (key serverPub : Buffer) (s : Client) : Prop :=
  ∃ buf macKey via, Codec.encodeSync C (announced me s convId) key (me.random s.draws 12) = some buf ∧
    pairwiseKey C me.privateKey serverPub = some macKey ∧
    runProbe C me convId s = ⟨some (), { s with draws := s.draws + 1, probeTimer := some convId },
      [.broadcast (signControlFrame C buf macKey) via]⟩

theorem runProbe_of_sync {t : Client} {os : List Output}
    (h : sendSync C me convId s = ⟨some (), t, os⟩) :
    runProbe C me convId s
      = ⟨some (), if t.awaitsAck convId then { t with probeTimer := some convId } else t, os⟩ := by
  rw [runProbe, bind_of_some (a := ()) (by rw [h]), h]
  show Outcome.prepend os ((if t.awaitsAck convId then scheduleProbe convId else pure ()) t) = _
  by_cases hack : t.awaitsAck convId
  · rw [if_pos hack, if_pos hack, scheduleProbe, modify_run, Outcome.prepend, List.append_nil]
  · rw [if_neg hack, if_neg hack, pure_run, Outcome.prepend, List.append_nil]

/-- **What the callback does**, at any newest number: the SYNC needs a number other than 0 and a key of
32 bytes, arming needs the test. -/
theorem probes_iff (hC : C.Lawful) (hbody : LengthPreserving C) (hme : me.Lawful)
    (hid : me.senderId < 65536) (hsound : ServerKeysSound C me s)
    (hopen : s.closed = false) (hhigh : s.highestSentSeq < SEQ_MOD) (hidle : s.probeTimer = none)
    {key serverPub : Buffer} (hkey : s.getCurrentKey convId = some key)
    (hserver : s.serverPubKeys.get convId = some serverPub) :
    Probes C me convId key serverPub s
      ↔ key.length = 32 ∧ s.highestSentSeq ≠ 0 ∧ s.awaitsAck convId := by
  obtain ⟨hconv, hpair⟩ := hsound convId serverPub hserver
  obtain ⟨macKey, hmac⟩ := Option.isSome_iff_exists.mp hpair
  constructor
  · rintro ⟨buf, macKey', via, henc, -, hrun⟩
    refine ⟨(encodeSync_fits rfl henc).1, ?_, ?_⟩
    · intro hzero
      have hsync : sendSync C me convId s = ⟨some (), s, []⟩ := by
        rw [sendSync, get_bind, if_pos hzero]
        rfl
      rw [runProbe_of_sync hsync] at hrun
      exact absurd (congrArg Outcome.output hrun) (by simp)
    · by_contra hack
      obtain ⟨n, hstate⟩ := (sendSync_result C me convId s).1
      have htimer : (runProbe C me convId s).state.probeTimer = none := by
        cases hres : (sendSync C me convId s).result with
        | none =>
          rw [runProbe, bind_of_none hres, hstate]
          exact hidle
        | some u =>
          have hsync : sendSync C me convId s
              = ⟨some (), { s with draws := n }, (sendSync C me convId s).output⟩ := by
            rw [← hstate, ← show (sendSync C me convId s).result = some () from hres]
          rw [runProbe_of_sync hsync]
          have hack' : ¬ ({ s with draws := n } : Client).awaitsAck convId := hack
          rw [if_neg hack']
          exact hidle
      rw [hrun] at htimer
      cases htimer
  · rintro ⟨hlen, hzero, hack⟩
    have hnonce : (me.random s.draws 12).length = 12 := hme _ _
    have hfits : SyncFits (announced me s convId) := ⟨rfl, hconv, hid, hhigh⟩
    obtain ⟨buf, henc, hsmall⟩ : ∃ buf, Codec.encodeSync C (announced me s convId) key
        (me.random s.draws 12) = some buf ∧ buf.length + 32 < 65536 := by
      refine ⟨_, encodeSync_wire hlen hnonce hfits, ?_⟩
      rw [sealedFrame_length hC hbody, syncHeader, List.length_append, route_length, hnonce,
        Buffer.length_bytesBE]
      decide
    obtain ⟨via, hcontrol⟩ : ∃ via, sendControl C me convId (fun s => s.serverPubKeys.get convId)
        (Codec.encodeSync C (announced me s convId)) s = ⟨some (), { s with draws := s.draws + 1 },
          [.broadcast (signControlFrame C buf macKey) via]⟩ :=
      sendControl_open hC hkey hserver henc hmac hopen hsmall
    have hack' : ({ s with draws := s.draws + 1 } : Client).awaitsAck convId := hack
    refine ⟨buf, macKey, via, henc, hmac, ?_⟩
    have hsync : sendSync C me convId s = ⟨some (), { s with draws := s.draws + 1 },
        [.broadcast (signControlFrame C buf macKey) via]⟩ := by
      rw [sendSync, get_bind, if_neg hzero]
      exact hcontrol
    rw [runProbe_of_sync hsync, if_pos hack']

/-! ### Every reachable sender -/

/-- **Which newest numbers are probed.**  In every reachable state of an open client that knows the
group key and the server key of a conversation, the callback announces the newest number and arms
itself again if and only if the number is not 0 and the test of the timer sees it ahead of what was
acknowledged (and the key is one that AES-256 takes).  Without an ACK these are the numbers up to the
middle of the circle; after one they are the numbers up to half the circle ahead of it. -/
theorem probe_covers_iff (hC : C.Lawful) (hbody : LengthPreserving C) (hme : me.Lawful)
    (hid : me.senderId < 65536) (es : List Event) {convId : ℕ} {key serverPub : Buffer}
    (hopen : (stateAfter C me es).closed = false)
    (hkey : (stateAfter C me es).getCurrentKey convId = some key)
    (hserver : (stateAfter C me es).serverPubKeys.get convId = some serverPub) :
    let s := { stateAfter C me es with probeTimer := none }
    ((stateAfter C me es).probeTimer = some convId →
      step C me .probeTimer (stateAfter C me es) = runProbe C me convId s) ∧
    (Probes C me convId key serverPub s ↔
      key.length = 32 ∧ s.highestSentSeq ≠ 0 ∧ s.awaitsAck convId) ∧
    (s.ackedSeq.get convId = none →
      (s.highestSentSeq ≠ 0 ∧ s.awaitsAck convId ↔
        1 ≤ s.highestSentSeq ∧ s.highestSentSeq ≤ SEQ_MOD / 2)) ∧
    (∀ seq, s.ackedSeq.get convId = some seq →
      (s.awaitsAck convId ↔ 1 ≤ seqDelta seq s.highestSentSeq ∧
        seqDelta seq s.highestSentSeq ≤ SEQ_MOD / 2)) := by
  have hhigh : (stateAfter C me es).highestSentSeq < SEQ_MOD :=
    (sentWithin_stateAfter es).highest
  refine ⟨fun htimer => ?_, ?_, fun hnone => ?_, fun seq hseq => ?_⟩
  · rw [step_probeTimer, htimer]
  · have hsound : ServerKeysSound C me { stateAfter C me es with probeTimer := none } :=
      serverKeysSound_stateAfter es
    exact probes_iff hC hbody hme hid hsound hopen hhigh rfl hkey hserver
  · simp only at hnone
    rw [Client.awaitsAck, orDefault_zero, hnone]
    show _ ∧ _ ≤ seqDelta (stateAfter C me es).highestSentSeq 0 ↔ _
    simp only
    unfold seqDelta SerialNumber.delta SEQ_MOD at *
    omega
  · simp only at hseq
    rw [Client.awaitsAck, orDefault_zero, hseq]
    show _ ≤ seqDelta (stateAfter C me es).highestSentSeq seq ↔ _
    simp only
    unfold seqDelta SerialNumber.delta SEQ_MOD at *
    omega

/-- The founder of a group has its first dart probed. -/
theorem first_dart_probed :
    ∃ key serverPub, Probes sumCrypto (sumIdentity 1) 1 key serverPub
      { stateAfter sumCrypto (sumIdentity 1) proberRun with probeTimer := none } := by
  obtain ⟨hopen, ⟨key, hkey, hlen⟩, hpub, hhigh, hawaits⟩ :
      (stateAfter sumCrypto (sumIdentity 1) proberRun).closed = false ∧
        (∃ key ∈ (stateAfter sumCrypto (sumIdentity 1) proberRun).getCurrentKey 1, key.length = 32) ∧
        ((stateAfter sumCrypto (sumIdentity 1) proberRun).serverPubKeys.get 1).isSome ∧
        ({ stateAfter sumCrypto (sumIdentity 1) proberRun with probeTimer := none }).highestSentSeq ≠ 0 ∧
        ({ stateAfter sumCrypto (sumIdentity 1) proberRun with probeTimer := none }).awaitsAck 1 := by
    decide +kernel
  obtain ⟨serverPub, hserver⟩ := Option.isSome_iff_exists.mp hpub
  have hcovers := probe_covers_iff sumCrypto_lawful sumCrypto_lengthPreserving (sumIdentity_lawful 1)
    (by decide) proberRun hopen hkey hserver
  exact ⟨key, serverPub, hcovers.2.1.mpr ⟨hlen, hhigh, hawaits⟩⟩

theorem silent_sends (payload : String) (n : ℕ)
    (hchain : s.getChain convId (s.sendingEpoch convId) me.senderId = none)
    (hseq : s.nextSeq < SEQ_MOD) :
    (run C me (List.replicate n (.sendData convId payload)) s).state
      = { s with nextSeq := (s.nextSeq + n) % SEQ_MOD } := by
  induction n generalizing s with
  | zero =>
    show s = _
    rw [Nat.add_zero, Nat.mod_eq_of_lt hseq]
  | succ n ih =>
    have hstep : step C me (.sendData convId payload) s
        = ⟨some (), { s with nextSeq := seqNext s.nextSeq }, []⟩ :=
      sendData_of_no_chain C payload hchain
    rw [List.replicate_succ, run_cons, hstep]
    have hnext := ih (s := { s with nextSeq := seqNext s.nextSeq }) hchain (seqNext_lt _)
    have hadd : (seqNext s.nextSeq + n) % SEQ_MOD = (s.nextSeq + (n + 1)) % SEQ_MOD := by
      unfold seqNext SEQ_MOD
      omega
    rw [← hadd]
    exact hnext

/-- A founder that used up `n` numbers in a conversation without a key before its first dart. -/
def lateFounder (n : ℕ) : List Event :=
  [.message (sumMemberInfo 1 1 true [1, 2])] ++ List.replicate n (.sendData 2 "") ++ [.sendData 1 "a"]

/-- The founder before its first dart. -/
abbrev newFounder : Client :=
  stateAfter sumCrypto (sumIdentity 1) [.message (sumMemberInfo 1 1 true [1, 2])]

theorem lateFounder_state (n : ℕ) :
    stateAfter sumCrypto (sumIdentity 1) (lateFounder n)
      = (step sumCrypto (sumIdentity 1) (.sendData 1 "a")
          { newFounder with nextSeq := (1 + n) % SEQ_MOD }).state := by
  obtain ⟨hchain, hnext⟩ :
      newFounder.getChain 2 (newFounder.sendingEpoch 2) (sumIdentity 1).senderId = none ∧
        newFounder.nextSeq = 1 := by
    decide +kernel
  have hlt : newFounder.nextSeq < SEQ_MOD := by
    rw [hnext]
    decide
  rw [lateFounder, stateAfter_concat, stateAfter_append, silent_sends "" n hchain hlt, hnext]

/-- **Numbers that are not probed.**  No ACK was recorded, both keys are known and the timer is pending.
With the newest number 0, after the wrap, nothing is announced; with a newest number beyond the middle of
the circle the probe does not go on. -/
theorem wrapped_not_probed :
    (let s := stateAfter sumCrypto (sumIdentity 1) (lateFounder 16777215)
     (s.highestSentSeq = 0 ∧ s.closed = false ∧ s.probeTimer = some 1 ∧ (s.getCurrentKey 1).isSome ∧
        (s.serverPubKeys.get 1).isSome ∧ s.ackedSeq.get 1 = none) ∧
      framesOf (step sumCrypto (sumIdentity 1) .probeTimer s).output = []) ∧
    (let s := stateAfter sumCrypto (sumIdentity 1) (lateFounder 8388608)
     (s.highestSentSeq = 8388609 ∧ s.closed = false ∧ s.probeTimer = some 1 ∧
        (s.getCurrentKey 1).isSome ∧ (s.serverPubKeys.get 1).isSome ∧ s.ackedSeq.get 1 = none) ∧
      (step sumCrypto (sumIdentity 1) .probeTimer s).state.probeTimer = none) := by
  rw [lateFounder_state, lateFounder_state]
  decide +kernel

end DartProtocol
