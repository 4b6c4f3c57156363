import DartProtocol.ClientHandle
import DartProtocol.SumCrypto

/-!
# What a control frame carries

A control frame is a payload under the group key followed by a pairwise MAC.  Sending one uses up a
nonce and changes nothing else, and what comes out is either nothing or that one frame.

* `verified_iff_signed` — the receiving side accepts what was signed, and gets the payload back;
* `broadcast_state`, `mem_frames_broadcast` — sending a frame;
* `sendControl_state`, `mem_frames_sendControl` — sending a control frame;
* `handleSync_run`, `handleSync_not_ahead` — what a SYNC leads to.
-/

namespace DartProtocol

open Prog Buffer

variable {C : Crypto} {me : Identity}

/-! ### The MAC at the end of a frame -/

/-- The accumulated differences vanish exactly where there are none. -/
theorem foldl_or_xor_eq_zero (a b : Buffer) (hlen : a.length = b.length) (diff : UInt8) :
    (List.zipWith (fun x y => x ^^^ y) a b).foldl (fun diff x => diff ||| x) diff = 0 ↔
      diff = 0 ∧ a = b := by
  induction a generalizing b diff with
  | nil =>
    cases b with
    | nil => simp
    | cons y b => cases hlen
  | cons x a ih =>
    cases b with
    | nil => cases hlen
    | cons y b =>
      rw [List.zipWith_cons_cons, List.foldl_cons, ih b (Nat.succ.inj hlen), UInt8.or_eq_zero_iff,
        UInt8.xor_eq_zero_iff, List.cons.injEq, and_assoc]

theorem safeEqual_iff (a b : Buffer) : safeEqual a b = true ↔ a = b := by
  rw [safeEqual]
  split
  · rename_i hlen
    exact ⟨nofun, fun h => absurd (congrArg List.length h) hlen⟩
  · rename_i hlen
    rw [beq_iff_eq, foldl_or_xor_eq_zero a b (not_not.mp hlen), and_iff_right rfl]

section Mac

variable (hmac : ∀ key data, (C.hmac key data).length = 32)
include hmac

theorem sign_length (frame key : Buffer) :
    (signControlFrame C frame key).length = frame.length + 32 := by
  rw [signControlFrame, List.length_append, hmac]

theorem sign_end (frame key : Buffer) :
    ((signControlFrame C frame key).length : ℤ) - CTRL_MAC_LEN = ((frame.length : ℕ) : ℤ) := by
  rw [sign_length hmac, CTRL_MAC_LEN]
  omega

theorem sign_payload (frame key : Buffer) :
    (signControlFrame C frame key).subarray 0
      (((signControlFrame C frame key).length : ℤ) - CTRL_MAC_LEN) = frame := by
  rw [sign_end hmac]
  exact subarray_append (p := []) (s := 0) rfl (by simp)

theorem strip_sign (frame key : Buffer) :
    stripControlFrame (signControlFrame C frame key) = some frame := by
  rw [stripControlFrame, if_neg (by rw [sign_length hmac, CTRL_MAC_LEN]; omega), sign_payload hmac]

theorem verify_sign (frame key : Buffer) :
    verifyControlFrame C (signControlFrame C frame key) key = some frame := by
  have hmacs : (signControlFrame C frame key).subarrayFrom
      (((signControlFrame C frame key).length : ℤ) - CTRL_MAC_LEN) = C.hmac key frame := by
    rw [sign_end hmac]
    exact subarrayFrom_append rfl
  rw [verifyControlFrame, if_neg (by rw [sign_length hmac, CTRL_MAC_LEN]; omega)]
  simp only [sign_payload hmac, hmacs]
  rw [if_pos ((safeEqual_iff _ _).mpr rfl)]

end Mac

theorem sign_of_verify {x key p : Buffer} (h : verifyControlFrame C x key = some p) :
    x = signControlFrame C p key ∧ stripControlFrame x = some p := by
  rw [verifyControlFrame] at h
  split at h
  · cases h
  rename_i hlen
  simp only at h
  split at h
  · rename_i heq
    cases h
    have hend : (x.length : ℤ) - CTRL_MAC_LEN = ((x.length - CTRL_MAC_LEN : ℕ) : ℤ) := by omega
    rw [signControlFrame, (safeEqual_iff _ _).mp heq, stripControlFrame, if_neg hlen, hend,
      show (0 : ℤ) = ((0 : ℕ) : ℤ) from rfl, subarray_of_le (Nat.zero_le _) (Nat.sub_le _ _),
      subarrayFrom_of_le (Nat.sub_le _ _)]
    exact ⟨(List.take_append_drop _ x).symm, rfl⟩
  · cases h

/-- **A frame is accepted exactly when it was signed.**  With a MAC of 32 bytes the receiving side gets
every signed frame back, whatever it accepts is a signed frame, and the comparison of the MACs, which
looks at every byte, is equality. -/
theorem verified_iff_signed (hmac : ∀ key data, (C.hmac key data).length = 32) (key : Buffer) :
    (∀ frame, verifyControlFrame C (signControlFrame C frame key) key = some frame) ∧
      (∀ x p, verifyControlFrame C x key = some p →
        x = signControlFrame C p key ∧ stripControlFrame x = some p) ∧
      ∀ a b, safeEqual a b = true ↔ a = b :=
  ⟨fun frame => verify_sign hmac frame key, fun _ _ => sign_of_verify, safeEqual_iff⟩

/-- A frame that is shorter than its MAC. -/
theorem short_frame_verified :
    verifyControlFrame sumCrypto (signControlFrame sumCrypto [7] [1, 2]) [1, 2] = some [7] :=
  (verified_iff_signed sumCrypto_lawful.hmac_length [1, 2]).1 [7]

theorem read_sign {frame : Buffer} {off n : ℕ} (h : off + n ≤ frame.length) (key : Buffer) :
    (signControlFrame C frame key).readUIntBE off n = frame.readUIntBE off n :=
  readUIntBE_append_left h

variable {buf : Buffer} {s : Client}

theorem read_type_nack {nack : NackDart} {convKey nonce : Buffer}
    (h : Codec.encodeNack C nack convKey nonce = some buf) (macKey : Buffer) :
    (signControlFrame C buf macKey).readUInt8 0 = some nack.type := by
  have hparse := Codec.parseNack_encodeNack h
  rw [Codec.parseNack] at hparse
  split at hparse
  · cases hparse
  · rename_i hlen
    rw [Option.bind_eq_bind, Option.bind_eq_some_iff] at hparse
    obtain ⟨type, htype, hrest⟩ := hparse
    simp only [Option.bind_eq_bind, Option.bind_eq_some_iff] at hrest
    obtain ⟨_, _, _, _, _, _, _, _, hrest⟩ := hrest
    split at hrest
    · cases hrest
    · simp only [Option.bind_eq_some_iff] at hrest
      obtain ⟨_, _, hnack⟩ := hrest
      rw [Buffer.readUInt8, read_sign (by omega) macKey, ← Buffer.readUInt8, htype,
        show type = nack.type from congrArg NackDart.type (Option.some.inj hnack)]

/-! ### Sending -/

theorem broadcast_state (buf : Buffer) (s : Client) : (broadcast buf s).state = s := by
  unfold broadcast
  rw [get_bind]
  split
  · rfl
  · split
    · cases (Buffer.alloc (2 + buf.length)).writeUInt16BE buf.length 0 <;> rfl
    · rfl

theorem mem_frames_broadcast {frame : Buffer}
    (h : frame ∈ framesOf (broadcast buf s).output) : frame = buf := by
  unfold broadcast at h
  rw [get_bind] at h
  split at h
  · exact absurd h List.not_mem_nil
  · split at h
    · cases hout : (Buffer.alloc (2 + buf.length)).writeUInt16BE buf.length 0 with
      | none =>
        rw [hout] at h
        exact absurd h List.not_mem_nil
      | some out =>
        rw [hout] at h
        exact List.mem_singleton.mp h
    · exact List.mem_singleton.mp h

theorem broadcast_open (hopen : s.closed = false) (h : buf.length < 65536) :
    ∃ via, broadcast buf s = ⟨some (), s, [.broadcast buf via]⟩ := by
  unfold broadcast
  rw [get_bind, if_neg (by rw [hopen]; decide)]
  by_cases htcp : (s.useFallback && s.tcpSocket) = true
  · rw [if_pos htcp]
    obtain ⟨out, hout⟩ := exists_writeUIntBE (b := Buffer.alloc (2 + buf.length))
      (v := buf.length) (n := 2) (show buf.length < 256 ^ 2 from h)
      (show 0 + 2 ≤ (Buffer.alloc (2 + buf.length)).length by simp [Buffer.alloc])
    have hwrite : (Buffer.alloc (2 + buf.length)).writeUInt16BE buf.length 0 = some out := hout.1
    rw [hwrite, ofOption_some_bind]
    exact ⟨_, rfl⟩
  · rw [if_neg htcp]
    exact ⟨_, rfl⟩

section Control

variable (convId : ℕ) (peer : Client → Option Buffer) (encode : Buffer → Buffer → Option Buffer)
  (s : Client)

theorem sendControl_run : sendControl C me convId peer encode s
    = match s.getCurrentKey convId, peer s with
      | some convKey, some peerPub =>
        (do
          let buf ← ofOption (encode convKey (me.random s.draws 12))
          let macKey ← ofOption (pairwiseKey C me.privateKey peerPub)
          broadcast (signControlFrame C buf macKey) : ClientProg Unit) { s with draws := s.draws + 1 }
      | _, _ => ⟨some (), s, []⟩ := by
  rw [sendControl, get_bind]
  cases s.getCurrentKey convId with
  | none => rfl
  | some convKey => cases peer s <;> rfl

theorem sendControl_state :
    ∃ n, (sendControl C me convId peer encode s).state = { s with draws := n } := by
  rw [sendControl_run]
  split
  · rename_i convKey peerPub _ _
    refine ⟨s.draws + 1, ?_⟩
    cases encode convKey (me.random s.draws 12) with
    | none => rfl
    | some buf =>
      rw [ofOption_some_bind]
      cases pairwiseKey C me.privateKey peerPub with
      | none => rfl
      | some macKey => exact broadcast_state _ _
  · exact ⟨s.draws, rfl⟩

variable {convId peer encode s}

/-- **What goes out is the encoded payload, signed.** -/
theorem mem_frames_sendControl {frame : Buffer}
    (h : frame ∈ framesOf (sendControl C me convId peer encode s).output) :
    ∃ convKey peerPub buf macKey, s.getCurrentKey convId = some convKey ∧ peer s = some peerPub ∧
      encode convKey (me.random s.draws 12) = some buf ∧
      pairwiseKey C me.privateKey peerPub = some macKey ∧ frame = signControlFrame C buf macKey := by
  rw [sendControl_run] at h
  split at h
  · rename_i convKey peerPub hkey hpeer
    cases hbuf : encode convKey (me.random s.draws 12) with
    | none =>
      rw [hbuf] at h
      exact absurd h List.not_mem_nil
    | some buf =>
      rw [hbuf, ofOption_some_bind] at h
      cases hmac : pairwiseKey C me.privateKey peerPub with
      | none =>
        rw [hmac] at h
        exact absurd h List.not_mem_nil
      | some macKey =>
        rw [hmac, ofOption_some_bind] at h
        exact ⟨convKey, peerPub, buf, macKey, hkey, hpeer, hbuf, hmac, mem_frames_broadcast h⟩
  · exact absurd h List.not_mem_nil

/-- **A control frame goes out** when both keys are known and the payload can be written. -/
theorem sendControl_open (hC : C.Lawful) {convKey peerPub buf macKey : Buffer}
    (hkey : s.getCurrentKey convId = some convKey) (hpeer : peer s = some peerPub)
    (hbuf : encode convKey (me.random s.draws 12) = some buf)
    (hmac : pairwiseKey C me.privateKey peerPub = some macKey) (hopen : s.closed = false)
    (hlen : buf.length + 32 < 65536) :
    ∃ via, sendControl C me convId peer encode s = ⟨some (), { s with draws := s.draws + 1 },
      [.broadcast (signControlFrame C buf macKey) via]⟩ := by
  rw [sendControl_run, hkey, hpeer]
  simp only [hbuf, hmac, ofOption_some_bind]
  exact broadcast_open hopen (by rw [sign_length hC.hmac_length]; exact hlen)

end Control

/-! ### Handling a SYNC -/

theorem noteSeen_eq (s : Client) (senderId seq : ℕ) :
    ∃ m, s.noteSeen senderId seq = { s with seenSeq := m } := by
  unfold Client.noteSeen
  dsimp only
  split
  · exact ⟨_, rfl⟩
  · split
    · exact ⟨_, rfl⟩
    · exact ⟨_, rfl⟩

/-- The SYNC in a relayed frame.  The outer `none` is an exception, the inner one a frame that is
ignored. -/
def openSync (C : Crypto) (s : Client) (buf : Buffer) : Option (Option SyncDart) := do
  let opened ← openRelayed s buf
  match opened with
  | none => some none
  | some (stripped, syncKey) =>
    let sync ← Codec.decodeSync C stripped syncKey
    some (some sync)

/-- What follows when the announced number was noted. -/
def followSync (C : Crypto) (me : Identity) (sync : SyncDart) : ClientProg Unit := do
  let s ← Prog.get
  let highestReceived := orDefault (s.highestReceivedSeq.get sync.senderId) 0
  let ahead := syncAhead s sync.senderId sync.highestSeq
  if 0 < ahead ∧ ahead < SEQ_MOD / 2 then
    Prog.modify (ensureReceived sync.senderId)
    let s ← Prog.get
    nackMissing C me sync.convId sync.senderId
      ((seqsAfter highestReceived ahead).filter fun i =>
        (get₂ s.receivedMessages sync.senderId i).isNone)
  else pure ()

/-- A SYNC notes the announced number and asks for what is missing up to it. -/
theorem handleSync_run (buf : Buffer) (s : Client) :
    handleSync C me buf s
      = match openSync C s buf with
        | none => ⟨none, s, []⟩
        | some none => ⟨some (), s, []⟩
        | some (some sync) => followSync C me sync (s.noteSeen sync.senderId sync.highestSeq) := by
  rw [handleSync, get_bind, openSync]
  rcases openRelayed s buf with _ | _ | ⟨stripped, key⟩
  · rfl
  · rfl
  · show (ofOption (Codec.decodeSync C stripped key) >>= _ : ClientProg Unit) s = _
    cases hdec : Codec.decodeSync C stripped key with
    | none => simp [hdec]
    | some sync =>
      simp only [hdec, Option.bind_eq_bind, Option.bind_some]
      rfl

theorem handleSync_not_ahead {sync : SyncDart} (hopen : openSync C s buf = some (some sync))
    (h : ¬ (0 < syncAhead (s.noteSeen sync.senderId sync.highestSeq) sync.senderId sync.highestSeq ∧
      syncAhead (s.noteSeen sync.senderId sync.highestSeq) sync.senderId sync.highestSeq
        < SEQ_MOD / 2)) :
    handleSync C me buf s = ⟨some (), s.noteSeen sync.senderId sync.highestSeq, []⟩ := by
  rw [handleSync_run, hopen]
  show followSync C me sync _ = _
  rw [followSync, get_bind, if_neg h]
  rfl

theorem openSync_bounds {sync : SyncDart}
    (h : openSync C s buf = some (some sync)) : sync.convId < 65536 ∧ sync.highestSeq < SEQ_MOD := by
  simp only [openSync, Option.bind_eq_bind, Option.bind_eq_some_iff] at h
  obtain ⟨_ | ⟨stripped, key⟩, -, h⟩ := h
  · cases h
  · obtain ⟨sync', hdec, h⟩ := Option.bind_eq_some_iff.mp h
    cases h
    simp only [Codec.decodeSync, Option.bind_eq_bind, Option.bind_eq_some_iff] at hdec
    obtain ⟨_, -, convId, hconv, _, -, payload, -, seq, hseq, hdec⟩ := hdec
    cases hdec
    exact ⟨readUIntBE_lt hconv, readUIntBE_lt hseq⟩

end DartProtocol
