import DartProtocol.ControlFrames
import DartProtocol.WireRoundTrip

/-!
# Does a SYNC round end the probing?

The sender announces its newest number until that number is acknowledged.  The receiver schedules its
ACK where it stores a new dart and nowhere else; the handler of a SYNC only asks for what is missing.
So a receiver that has everything does not answer a SYNC, and a lost ACK is never replaced.

* `syncRound` — the probe fires, the receiver handles it, its timers fire, the answers come back;
* `sync_unanswered` — a receiver that has everything notes the number and is silent;
* `syncRound_result` — such a round leaves both sides where they were;
* `probing_goes_on` — any number of rounds leaves the re-arm condition as it was;
* `probing_ends_iff` — a round ends the probing when the newest dart was acknowledged before;
* `lost_ack_keeps_probing` — a run in which the only ACK is lost.
-/

namespace DartProtocol

open Buffer Wire

/-! ### One round -/

/-- The re-arm condition of `scheduleProbe`: the newest number is not acknowledged. -/
def Client.awaitsAck (s : Client) (convId : ℕ) : Prop :=
  SEQ_MOD / 2 ≤ seqDelta s.highestSentSeq (orDefault (s.ackedSeq.get convId) 0)

instance (s : Client) (convId : ℕ) : Decidable (s.awaitsAck convId) :=
  inferInstanceAs (Decidable (_ ≤ _))

section Round

variable (C : Crypto) (S R : Identity)

/-- The ACK and NACK timers for a sender that were set between two states. -/
def newTimers (senderId : ℕ) (r r' : Client) : List Event :=
  (if r.ackTimers.has senderId = false ∧ r'.ackTimers.has senderId = true then
    [.ackTimer senderId] else []) ++
  (if r.nackRetryTimers.has senderId = false ∧ r'.nackRetryTimers.has senderId = true then
    [.nackRetryTimer senderId] else [])

/-- What the receiver sends while it handles frames and while the timers it has set meanwhile fire,
and its state after that. -/
def answers (senderId : ℕ) (frames : List Buffer) (r : Client) : List Buffer × Client :=
  let handled := run C R (frames.map Event.message) r
  let fired := run C R (newTimers senderId r handled.state) handled.state
  (framesOf (handled.output ++ fired.output), fired.state)

/-- The sender's probe fires, everything it sends reaches the receiver, and everything the receiver
sends or schedules in answer reaches the sender. -/
def syncRound (p : Client × Client) : Client × Client :=
  let probe := step C S .probeTimer p.1
  let answer := answers C R S.senderId (framesOf probe.output) p.2
  ((run C S (answer.1.map Event.message) probe.state).state, answer.2)

end Round

/-- Everything is delivered, and no ACK is scheduled. -/
@[mk_iff] structure AllReceived (S : Identity) (s r : Client) : Prop where
  delivered : r.highestReceivedSeq.get S.senderId = some s.highestSentSeq
  silent : r.ackTimers.get S.senderId = none

instance (S : Identity) (s r : Client) : Decidable (AllReceived S s r) :=
  decidable_of_iff _ (allReceived_iff S s r).symm

/-- What is sealed under one key does not open under another. -/
def Crypto.Refuses (C : Crypto) (key key' : Buffer) : Prop :=
  ∀ nonce aad plain, C.gcmDecrypt key' nonce aad (C.gcmEncrypt key nonce aad plain).1
    (C.gcmEncrypt key nonce aad plain).2 = none

/-- Where the receiver holds another group key than the sender, it opens nothing of the sender. -/
def KeysRefuse (C : Crypto) (s r : Client) : Prop :=
  ∀ convId key key', s.getCurrentKey convId = some key → r.getCurrentKey convId = some key' →
    key' ≠ key → C.Refuses key key'

variable {C : Crypto} {S R : Identity} {s r : Client}

theorem keysRefuse_of_same (hkeys : r.roomKeys = s.roomKeys)
    (hepochs : r.currentEpochs = s.currentEpochs) : KeysRefuse C s r := by
  intro convId key key' hkey hkey' hne
  rw [Client.getCurrentKey, hkeys, hepochs] at hkey'
  exact absurd (Option.some.inj (hkey'.symm.trans hkey)) hne

/-! ### The SYNC on the wire -/

variable {sync : SyncDart}

theorem encodeSync_fits {key nonce buf : Buffer} (htype : sync.type = TYPE_SYNC)
    (h : Codec.encodeSync C sync key nonce = some buf) :
    key.length = 32 ∧ SyncFits { sync with highestSeq := sync.highestSeq % SEQ_MOD } ∧
      Codec.encodeSync C { sync with highestSeq := sync.highestSeq % SEQ_MOD } key nonce = some buf := by
  have hsame : Codec.encodeSync C { sync with highestSeq := sync.highestSeq % SEQ_MOD } key nonce
      = Codec.encodeSync C sync key nonce := by
    simp only [Codec.encodeSync, Nat.mod_mod]
  refine ⟨?_, ?_, hsame.trans h⟩
  · by_contra hkey
    simp only [Codec.encodeSync, Crypto.cipher, if_neg hkey, Option.bind_eq_bind, Option.bind_none,
      Option.bind_fun_none, reduceCtorEq] at h
  · simp only [Codec.encodeSync, Option.bind_eq_bind, Option.bind_eq_some_iff] at h
    obtain ⟨_, _, _, hconv, _, hsender, _⟩ := h
    exact ⟨htype, lt_of_writeUIntBE hconv, lt_of_writeUIntBE hsender,
      Nat.mod_lt _ (by decide)⟩

theorem sealed_refused (hC : C.Lawful) {key key' nonce header : Buffer} (href : C.Refuses key key')
    (plain : Buffer) {a n : ℕ} (hheader : header.length = n) (hdrop : header.drop a = nonce)
    (ha : a ≤ n) :
    C.decipher key' (((sealedFrame C key nonce header plain).subarray 0 n).subarrayFrom a)
      ((sealedFrame C key nonce header plain).subarray 0 n)
      ((sealedFrame C key nonce header plain).subarray n
        (((sealedFrame C key nonce header plain).length : ℤ) - 16))
      ((sealedFrame C key nonce header plain).subarrayFrom
        (((sealedFrame C key nonce header plain).length : ℤ) - 16)) = none := by
  have hfront : (sealedFrame C key nonce header plain).subarray 0 n = header :=
    subarray_append (p := []) (s := 0) rfl (by omega)
  obtain ⟨hbody, htag⟩ := sealed_slices hC plain hheader
  have hnonce : header.subarrayFrom a = nonce := by
    rw [subarrayFrom_of_le (by omega), hdrop]
  rw [hbody, htag, hfront, hnonce, Crypto.decipher]
  split
  · exact href _ _ _
  · rfl

/-- **A SYNC is opened as it was written or not at all.** -/
theorem decodeSync_encodeSync (hC : C.Lawful) (hbody : LengthPreserving C) {sync' : SyncDart}
    {key key' nonce buf : Buffer} (hnonce : nonce.length = 12) (htype : sync.type = TYPE_SYNC)
    (henc : Codec.encodeSync C sync key nonce = some buf)
    (hother : key' ≠ key → C.Refuses key key')
    (hdec : Codec.decodeSync C buf key' = some sync') :
    sync' = { sync with highestSeq := sync.highestSeq % SEQ_MOD } := by
  obtain ⟨hkey, hfits, henc'⟩ := encodeSync_fits htype henc
  rw [encodeSync_wire hkey hnonce hfits, Option.some.injEq] at henc'
  rw [← henc'] at hdec
  by_cases hk : key' = key
  · rw [hk, decodeSync_wire hC hbody hkey hnonce hfits, Option.some.injEq] at hdec
    exact hdec.symm
  · exfalso
    simp only [Codec.decodeSync, Option.bind_eq_bind, Option.bind_eq_some_iff] at hdec
    obtain ⟨_, -, _, -, _, -, payload, hopen, -⟩ := hdec
    have hheader : (syncHeader sync nonce).length = 17 := by simp [syncHeader, route_length, hnonce]
    have hdrop : (syncHeader sync nonce).drop 5 = nonce := List.drop_left' (by simp [route_length])
    have hrefused := sealed_refused hC (hother hk) (bytesBE 3 (sync.highestSeq % SEQ_MOD))
      hheader hdrop (by decide)
    exact absurd (hrefused.symm.trans hopen) (by simp)

theorem encodeSync_reads {key nonce buf : Buffer} (hnonce : nonce.length = 12)
    (htype : sync.type = TYPE_SYNC) (henc : Codec.encodeSync C sync key nonce = some buf) :
    5 ≤ buf.length ∧ buf.readUIntBE 0 1 = some TYPE_SYNC ∧ buf.readUIntBE 1 2 = some sync.convId := by
  obtain ⟨hkey, hfits, henc'⟩ := encodeSync_fits htype henc
  rw [encodeSync_wire hkey hnonce hfits, Option.some.injEq, sealedFrame, syncHeader,
    List.append_assoc] at henc'
  obtain ⟨hread, hconv, -, -⟩ :=
    route_reads (by rw [hfits.type]; decide : sync.type < 256 ^ 1) hfits.convId hfits.senderId
      (nonce ++ _)
  rw [henc', htype] at hread
  rw [henc'] at hconv
  refine ⟨?_, hread, hconv⟩
  rw [← henc', List.length_append, route_length]
  exact Nat.le_add_right _ _

/-! ### The two sides of a round -/

/-- The SYNC with which a client announces its newest number. -/
def announced (S : Identity) (s : Client) (convId : ℕ) : SyncDart :=
  { type := TYPE_SYNC, convId, senderId := S.senderId, highestSeq := s.highestSentSeq }

theorem step_probeTimer (C : Crypto) (S : Identity) (s : Client) :
    step C S .probeTimer s
      = match s.probeTimer with
        | none => ⟨some (), s, []⟩
        | some convId => runProbe C S convId { s with probeTimer := none } := by
  show fire (fun s => s.probeTimer) _ (runProbe C S) s = _
  rw [fire_run]
  cases s.probeTimer <;> rfl

theorem sendSync_result (C : Crypto) (S : Identity) (convId : ℕ) (s : Client) :
    (∃ n, (sendSync C S convId s).state = { s with draws := n }) ∧
      ∀ frame ∈ framesOf (sendSync C S convId s).output, ∃ key buf macKey,
        s.getCurrentKey convId = some key ∧
        Codec.encodeSync C (announced S s convId) key (S.random s.draws 12) = some buf ∧
        frame = signControlFrame C buf macKey := by
  rw [sendSync, Prog.get_bind]
  by_cases hzero : s.highestSentSeq = 0
  · rw [if_pos hzero]
    exact ⟨⟨s.draws, rfl⟩, fun frame h => absurd h List.not_mem_nil⟩
  · rw [if_neg hzero]
    refine ⟨sendControl_state _ _ _ _, fun frame h => ?_⟩
    obtain ⟨key, -, buf, macKey, hkey, -, henc, -, hframe⟩ := mem_frames_sendControl h
    exact ⟨key, buf, macKey, hkey, henc, hframe⟩

/-- The probe announces the newest number, and moves nothing but its timer. -/
theorem probe_result (C : Crypto) (S : Identity) (s : Client) :
    (∃ n t, (step C S .probeTimer s).state = { s with draws := n, probeTimer := t }) ∧
      ∀ frame ∈ framesOf (step C S .probeTimer s).output, ∃ convId key buf macKey,
        s.getCurrentKey convId = some key ∧
        Codec.encodeSync C (announced S s convId) key (S.random s.draws 12) = some buf ∧
        frame = signControlFrame C buf macKey := by
  rw [step_probeTimer]
  cases s.probeTimer with
  | none => exact ⟨⟨s.draws, s.probeTimer, rfl⟩, fun frame h => absurd h List.not_mem_nil⟩
  | some convId =>
    obtain ⟨⟨n, hstate⟩, hframes⟩ := sendSync_result C S convId { s with probeTimer := none }
    simp only [runProbe, Prog.bind_run]
    cases (sendSync C S convId { s with probeTimer := none }).result with
    | none => exact ⟨⟨n, none, hstate⟩, fun frame h => ⟨convId, hframes frame h⟩⟩
    | some u =>
      simp only [Prog.get_run, hstate, Outcome.prepend]
      split
      · refine ⟨⟨n, some convId, rfl⟩, fun frame h => ⟨convId, hframes frame ?_⟩⟩
        simpa [scheduleProbe] using h
      · refine ⟨⟨n, none, rfl⟩, fun frame h => ⟨convId, hframes frame ?_⟩⟩
        simpa using h

/-- **A receiver that has everything does not answer a SYNC**: it notes the number and is silent. -/
theorem sync_unanswered (hC : C.Lawful) (hbody : LengthPreserving C) (hS : S.Lawful)
    (hr : r.highestReceivedSeq.get S.senderId = some s.highestSentSeq) {convId i : ℕ}
    {key buf : Buffer} (macKey : Buffer)
    (henc : Codec.encodeSync C (announced S s convId) key (S.random i 12) = some buf)
    (hother : ∀ key', r.getCurrentKey convId = some key' → key' ≠ key → C.Refuses key key') :
    ∃ m, step C R (.message (signControlFrame C buf macKey)) r
      = ⟨some (), { r with seenSeq := m }, []⟩ := by
  by_cases hclosed : r.closed = true
  · rw [step_message, if_pos hclosed]
    exact ⟨r.seenSeq, rfl⟩
  obtain ⟨hlen, htype, hconv⟩ := encodeSync_reads (hS i 12) rfl henc
  rw [← read_sign (C := C) (by omega) macKey] at htype
  rw [step_message_of_type C R (Bool.not_eq_true _ ▸ hclosed) htype]
  show ∃ m, (⟨some (), (handleSync C R _ r).state, (handleSync C R _ r).output⟩ : Outcome _ _ _) = _
  have hopen : openRelayed r (signControlFrame C buf macKey)
      = some ((r.getCurrentKey convId).map fun key' => (buf, key')) := by
    rw [openRelayed, strip_sign hC.hmac_length]
    simp only [Buffer.readUInt16BE, hconv]
    show _ = some ((r.getCurrentKey (announced S s convId).convId).map _)
    cases r.getCurrentKey (announced S s convId).convId <;> rfl
  cases hkey : r.getCurrentKey convId with
  | none =>
    have hsync : openSync C r (signControlFrame C buf macKey) = some none := by
      rw [openSync, hopen, hkey]
      rfl
    rw [handleSync_run, hsync]
    exact ⟨r.seenSeq, rfl⟩
  | some key' =>
    have hsync : openSync C r (signControlFrame C buf macKey)
        = (Codec.decodeSync C buf key').map some := by
      rw [openSync, hopen, hkey]
      exact (Option.map_eq_bind ..).symm
    cases hdec : Codec.decodeSync C buf key' with
    | none =>
      rw [handleSync_run, hsync, hdec]
      exact ⟨r.seenSeq, rfl⟩
    | some sync' =>
      rw [hdec, Option.map_some] at hsync
      obtain rfl := decodeSync_encodeSync hC hbody (hS i 12) rfl henc (hother key' hkey) hdec
      obtain ⟨m, hm⟩ := noteSeen_eq r S.senderId (s.highestSentSeq % SEQ_MOD)
      have hahead : syncAhead (r.noteSeen S.senderId (s.highestSentSeq % SEQ_MOD)) S.senderId
          (s.highestSentSeq % SEQ_MOD) = 0 := by
        have hhas : r.highestReceivedSeq.has S.senderId = true := by simp [InsertionMap.has, hr]
        rw [hm, syncAhead, if_pos hhas]
        show seqDelta (orDefault (r.highestReceivedSeq.get S.senderId) 0) _ = 0
        rw [hr, orDefault_zero, Option.getD_some, seqDelta, ← SerialNumber.delta_mod_mod, Nat.mod_mod]
        exact SerialNumber.delta_self _
      rw [handleSync_not_ahead hsync (fun h => absurd hahead h.1.ne')]
      exact ⟨m, congrArg (Outcome.mk (some ()) · []) hm⟩

theorem syncs_unanswered (hC : C.Lawful) (hbody : LengthPreserving C) (hS : S.Lawful)
    (hr : r.highestReceivedSeq.get S.senderId = some s.highestSentSeq) (hkeys : KeysRefuse C s r)
    {frames : List Buffer}
    (hframes : ∀ frame ∈ frames, ∃ convId key buf macKey, s.getCurrentKey convId = some key ∧
      Codec.encodeSync C (announced S s convId) key (S.random s.draws 12) = some buf ∧
      frame = signControlFrame C buf macKey) :
    ∃ m, run C R (frames.map Event.message) r = ⟨some (), { r with seenSeq := m }, []⟩ := by
  induction frames generalizing r with
  | nil => exact ⟨r.seenSeq, rfl⟩
  | cons frame frames ih =>
    obtain ⟨convId, key, buf, macKey, hkey, henc, rfl⟩ := hframes _ List.mem_cons_self
    obtain ⟨m, hm⟩ := sync_unanswered (R := R) hC hbody hS hr macKey henc
      (fun key' hkey' => hkeys convId key key' hkey hkey')
    obtain ⟨m', hm'⟩ := ih (r := { r with seenSeq := m }) hr hkeys
      fun frame h => hframes frame (List.mem_cons_of_mem _ h)
    refine ⟨m', ?_⟩
    rw [List.map_cons, run_cons, hm]
    simp only
    rw [hm']
    rfl

/-- **A round between parties that are done leaves both where they were.** -/
theorem syncRound_result (hC : C.Lawful) (hbody : LengthPreserving C) (hS : S.Lawful)
    (hr : r.highestReceivedSeq.get S.senderId = some s.highestSentSeq) (hkeys : KeysRefuse C s r) :
    ∃ n t m, syncRound C S R (s, r)
      = ({ s with draws := n, probeTimer := t }, { r with seenSeq := m }) := by
  obtain ⟨⟨n, t, hstate⟩, hframes⟩ := probe_result C S s
  obtain ⟨m, hm⟩ := syncs_unanswered (R := R) hC hbody hS hr hkeys hframes
  have hnone : newTimers S.senderId r { r with seenSeq := m } = [] := by
    simp [newTimers]
  refine ⟨n, t, m, ?_⟩
  simp only [syncRound, answers, hm, hnone, hstate]
  rfl

/-- **Rounds change nothing.**  After any number of them the re-arm condition is the one before. -/
theorem probing_goes_on (hC : C.Lawful) (hbody : LengthPreserving C) (hS : S.Lawful) (n convId : ℕ) :
    ∀ {s r : Client}, r.highestReceivedSeq.get S.senderId = some s.highestSentSeq → KeysRefuse C s r →
      (((syncRound C S R)^[n] (s, r)).1.awaitsAck convId ↔ s.awaitsAck convId) := by
  induction n with
  | zero => exact fun _ _ => Iff.rfl
  | succ n ih =>
    intro s r hr hkeys
    obtain ⟨k, t, m, hround⟩ := syncRound_result (R := R) hC hbody hS hr hkeys
    rw [Function.iterate_succ_apply, hround]
    exact ih (s := { s with draws := k, probeTimer := t }) (r := { r with seenSeq := m }) hr hkeys

/-- **When a round ends the probing.**  Everything is delivered and no ACK is scheduled.  Then the sender
stops after a SYNC round exactly if it had no reason to probe: what was missing was an ACK, and the
receiver sends none. -/
theorem probing_ends_iff (hC : C.Lawful) (hbody : LengthPreserving C) (hS : S.Lawful)
    (hset : AllReceived S s r) (hkeys : KeysRefuse C s r) (convId : ℕ) :
    ¬ (syncRound C S R (s, r)).1.awaitsAck convId ↔ ¬ s.awaitsAck convId :=
  not_congr (probing_goes_on hC hbody hS 1 convId hset.delivered hkeys)

/-! ### Runs -/

/-- The sender founds a conversation and sends one dart. -/
def proberRun : List Event := [.message (sumMemberInfo 1 1 true [1, 2]), .sendData 1 "a"]

/-- The receiver gets all of it, and its ACK timer fires. -/
def listenerRun : List Event :=
  .message (sumMemberInfo 1 2 false [1, 2]) ::
    (framesOf (outputsOf sumCrypto (sumIdentity 1) proberRun)).map Event.message ++ [.ackTimer 1]

/-- The sender gets what the receiver sent, the ACK included. -/
def ackedRun : List Event :=
  proberRun ++ (framesOf (outputsOf sumCrypto (sumIdentity 2) listenerRun)).map Event.message

/-- The sender before and after it got the ACK, and the receiver. -/
abbrev prober : Client := stateAfter sumCrypto (sumIdentity 1) proberRun

abbrev acked : Client := stateAfter sumCrypto (sumIdentity 1) ackedRun

abbrev listener : Client := stateAfter sumCrypto (sumIdentity 2) listenerRun

theorem listener_keys :
    (listener.roomKeys = prober.roomKeys ∧ listener.currentEpochs = prober.currentEpochs) ∧
      listener.roomKeys = acked.roomKeys ∧ listener.currentEpochs = acked.currentEpochs := by
  decide +kernel

theorem acked_stops :
    AllReceived (sumIdentity 1) acked listener ∧ acked.probeTimer = some 1 ∧
      ¬ (syncRound sumCrypto (sumIdentity 1) (sumIdentity 2) (acked, listener)).1.awaitsAck 1 := by
  have hset : AllReceived (sumIdentity 1) acked listener := by
    decide +kernel
  refine ⟨hset, by decide +kernel, ?_⟩
  exact (probing_ends_iff sumCrypto_lawful sumCrypto_lengthPreserving (sumIdentity_lawful 1) hset
    (keysRefuse_of_same listener_keys.2.1 listener_keys.2.2) 1).mpr (by decide +kernel)

/-- **A lost ACK is never replaced.**  The receiver has stored the one dart and has sent its ACK, which
is lost.  The probe is pending and sends a SYNC, and after any number of rounds it is still re-armed. -/
theorem lost_ack_keeps_probing :
    AllReceived (sumIdentity 1) prober listener ∧ prober.probeTimer = some 1 ∧
      (framesOf (step sumCrypto (sumIdentity 1) .probeTimer prober).output).length = 1 ∧
      ∀ n, ((syncRound sumCrypto (sumIdentity 1) (sumIdentity 2))^[n]
        (prober, listener)).1.awaitsAck 1 := by
  have hset : AllReceived (sumIdentity 1) prober listener := by
    decide +kernel
  refine ⟨hset, by decide +kernel, by decide +kernel, fun n => ?_⟩
  exact (probing_goes_on sumCrypto_lawful sumCrypto_lengthPreserving (sumIdentity_lawful 1) n 1
    hset.delivered (keysRefuse_of_same listener_keys.1.1 listener_keys.1.2)).mpr (by decide +kernel)

end DartProtocol
