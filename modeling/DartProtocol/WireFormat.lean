import DartProtocol.GoCodec
import DartProtocol.RustCodec

/-!
# The wire format

What a frame is on the wire, said once: a cleartext header as a concatenation of fields, and behind it
what is sealed under the header.  The three implementations fill their headers in their own way; here
each of their encoders is shown to produce the frame of this module, for every value whose fields have
the widths of the format.

* `Wire.ackHeader` and its siblings — the layouts;
* `AckFits` and its siblings — the widths;
* `encodeAck_wire`, `ackEncoders_wire` and their siblings — each frame type as TypeScript, and as Go and
  Rust write it.
-/

namespace DartProtocol.Wire

open Buffer Slice

variable (C : Crypto)

/-! ### Layouts -/

/-- A header and what is sealed under it. -/
def sealedFrame (key nonce header plain : Buffer) : Buffer :=
  header ++ ((C.gcmEncrypt key nonce header plain).1 ++ (C.gcmEncrypt key nonce header plain).2)

/-- What every frame but Data begins with. -/
def route (type convId senderId : ℕ) : Buffer :=
  bytesBE 1 type ++ (bytesBE 2 convId ++ bytesBE 2 senderId)

def seqBytes (seqs : List ℕ) : Buffer := seqs.flatMap (bytesBE 3)

def nackHeader (nack : NackDart) (nonce : Buffer) : Buffer :=
  route nack.type nack.convId nack.senderId ++ (bytesBE 2 nack.targetId ++ (nonce ++
    (bytesBE 2 nack.missingSeq.length ++ seqBytes nack.missingSeq)))

def syncHeader (sync : SyncDart) (nonce : Buffer) : Buffer :=
  route sync.type sync.convId sync.senderId ++ nonce

def resetHeader (reset : DictResetDart) (nonce : Buffer) : Buffer :=
  route reset.type reset.convId reset.senderId ++ (bytesBE 2 reset.targetId ++ nonce)

def ackHeader (ack : AckDart) (nonce : Buffer) : Buffer :=
  route ack.type ack.convId ack.senderId ++ (bytesBE 2 ack.targetId ++
    (bytesBE 3 ack.seq ++ nonce))

def keyReqFrame (req : KeyReqDart) : Buffer :=
  route req.type req.convId req.senderId ++ (req.reqNonce ++ req.clientPubKey)

def shareHeader (type convId senderId targetId epoch : ℕ) (nonce : Buffer) : Buffer :=
  route type convId senderId ++ (bytesBE 2 targetId ++ (bytesBE 2 epoch ++ nonce))

def keyShareHeader (share : KeyShareDart) : Buffer :=
  shareHeader share.type share.convId share.senderId share.targetId share.epoch share.nonce

def chainShareHeader (share : ChainShareDart) : Buffer :=
  shareHeader share.type share.convId share.senderId share.targetId share.epoch share.nonce

def chainSharePayload (share : ChainShareDart) : Buffer :=
  share.chainKey ++ bytesBE 4 share.chainIndex

def memberHeader (info : MemberInfo) (nonce : Buffer) : Buffer :=
  route info.type info.convId info.senderId ++ (info.serverPubKey ++ nonce)

def memberPayload (info : MemberInfo) : Buffer :=
  bytesBE 1 (if info.creator then 1 else 0) ++ (bytesBE 2 info.members.length ++
    info.members.flatMap RustCodec.memberBytes)

/-! ### Widths -/

structure NackFits (nack : NackDart) : Prop where
  type : nack.type = TYPE_NACK
  convId : nack.convId < 65536
  senderId : nack.senderId < 65536
  targetId : nack.targetId < 65536
  count : nack.missingSeq.length < 65536
  seqs : ∀ seq ∈ nack.missingSeq, seq < SEQ_MOD

structure SyncFits (sync : SyncDart) : Prop where
  type : sync.type = TYPE_SYNC
  convId : sync.convId < 65536
  senderId : sync.senderId < 65536
  highestSeq : sync.highestSeq < SEQ_MOD

structure ResetFits (reset : DictResetDart) : Prop where
  type : reset.type = TYPE_DICT_RESET
  convId : reset.convId < 65536
  senderId : reset.senderId < 65536
  targetId : reset.targetId < 65536

structure AckFits (ack : AckDart) : Prop where
  type : ack.type = TYPE_ACK
  convId : ack.convId < 65536
  senderId : ack.senderId < 65536
  targetId : ack.targetId < 65536
  seq : ack.seq < SEQ_MOD

structure KeyReqFits (req : KeyReqDart) : Prop where
  type : req.type = TYPE_KEY_REQ
  convId : req.convId < 65536
  senderId : req.senderId < 65536
  reqNonce : req.reqNonce.length = 16
  clientPubKey : req.clientPubKey.length = 65

structure KeyShareFits (share : KeyShareDart) : Prop where
  type : share.type = TYPE_KEY_SHARE
  convId : share.convId < 65536
  senderId : share.senderId < 65536
  targetId : share.targetId < 65536
  epoch : share.epoch < 65536
  nonce : share.nonce.length = 12
  encryptedKey : share.encryptedKey.length = 32

structure ChainShareFits (share : ChainShareDart) : Prop where
  type : share.type = TYPE_CHAIN_SHARE
  convId : share.convId < 65536
  senderId : share.senderId < 65536
  targetId : share.targetId < 65536
  epoch : share.epoch < 65536
  nonce : share.nonce.length = 12
  chainKey : share.chainKey.length = 32
  chainIndex : share.chainIndex < 2 ^ 32

structure MemberInfoFits (info : MemberInfo) : Prop where
  type : info.type = TYPE_MEMBER_INFO
  convId : info.convId < 65536
  senderId : info.senderId < 65536
  serverPubKey : info.serverPubKey.length = 65
  count : info.members.length < 65536
  ids : ∀ m ∈ info.members, m.senderId < 65536
  pubKeys : ∀ m ∈ info.members, m.pubKey.length = 65

structure DataDartFits (dart : DataDart) (idx epoch : ℕ) : Prop where
  type : dart.type = TYPE_DATA
  convId : dart.convId < 65536
  senderId : dart.senderId < 65536
  seq : dart.seq < SEQ_MOD
  idx : idx < 2 ^ 32
  epoch : epoch < 65536

/-! ### The same values without a type -/

def rustData (dart : DataDart) : RustCodec.DataDart :=
  { convId := dart.convId, senderId := dart.senderId, seq := dart.seq, payload := dart.payload }

def rustNack (nack : NackDart) : RustCodec.NackDart :=
  { convId := nack.convId, senderId := nack.senderId, targetId := nack.targetId,
    missingSeq := nack.missingSeq }

def rustSync (sync : SyncDart) : RustCodec.SyncDart :=
  { convId := sync.convId, senderId := sync.senderId, highestSeq := sync.highestSeq }

def rustReset (reset : DictResetDart) : RustCodec.DictResetDart :=
  { convId := reset.convId, senderId := reset.senderId, targetId := reset.targetId }

def rustAck (ack : AckDart) : RustCodec.AckDart :=
  { convId := ack.convId, senderId := ack.senderId, targetId := ack.targetId, seq := ack.seq }

def rustKeyReq (req : KeyReqDart) : RustCodec.KeyReqDart :=
  { convId := req.convId, senderId := req.senderId, reqNonce := req.reqNonce,
    clientPubKey := req.clientPubKey }

def rustKeyShare (share : KeyShareDart) : RustCodec.KeyShareDart :=
  { convId := share.convId, senderId := share.senderId, targetId := share.targetId,
    epoch := share.epoch, nonce := share.nonce, encryptedKey := share.encryptedKey }

def rustChainShare (share : ChainShareDart) : RustCodec.ChainShareDart :=
  { convId := share.convId, senderId := share.senderId, targetId := share.targetId,
    epoch := share.epoch, nonce := share.nonce, chainKey := share.chainKey,
    chainIndex := share.chainIndex }

def rustMemberInfo (info : MemberInfo) : RustCodec.MemberInfo :=
  { convId := info.convId, senderId := info.senderId, serverPubKey := info.serverPubKey,
    creator := info.creator, members := info.members }

variable {C}

/-! ### Sealing -/

theorem goSealedFrame_eq (A : GoCodec.ShortAes) {key nonce : Buffer} (hkey : key.length = 32)
    (hnonce : nonce.length = 12) (header plain : Buffer) :
    GoCodec.sealedFrame C A key nonce header plain
      = some (some (sealedFrame C key nonce header plain)) := by
  have haes : GoCodec.IsAesKey key := .inr (.inr hkey)
  rw [GoCodec.sealedFrame, GoCodec.aesSeal, if_pos haes, if_pos hnonce, if_pos hkey]
  rfl

theorem rustSealedFrame_eq {key nonce : Buffer} (hkey : key.length = 32)
    (hnonce : nonce.length = 12) (header plain : Buffer) :
    RustCodec.sealedFrame C key nonce header plain
      = some (some (sealedFrame C key nonce header plain)) := by
  rw [RustCodec.sealedFrame, RustCodec.encryptGcm, if_pos ⟨hkey, hnonce⟩]
  rfl

theorem sealedFrame_nil (hbody : LengthPreserving C) (key nonce header : Buffer) :
    sealedFrame C key nonce header [] = header ++ (C.gcmEncrypt key nonce header []).2 := by
  have hnil : (C.gcmEncrypt key nonce header []).1 = [] :=
    List.eq_nil_of_length_eq_zero (hbody key nonce header [])
  rw [sealedFrame, hnil, List.nil_append]

theorem take_sha256 (hC : C.Lawful) (dict : Buffer) :
    (C.sha256 dict).take DICT_FP_LEN = dictFingerprint C dict :=
  (subarray_of_le (s := 0) (e := DICT_FP_LEN) (Nat.zero_le _)
    (by rw [hC.sha256_length]; decide)).symm

/-! ### Lists of fields -/

theorem writeSeqs_next {seqs : List ℕ} (hseqs : ∀ seq ∈ seqs, seq < SEQ_MOD) :
    ∀ {p : Buffer} {off k : ℕ}, p.length = off → seqs.length * 3 ≤ k →
      Codec.writeSeqs (p ++ Buffer.alloc k) off seqs
        = some ((p ++ seqBytes seqs) ++ Buffer.alloc (k - seqs.length * 3)) := by
  induction seqs with
  | nil =>
    intro p off k _ _
    simp [Codec.writeSeqs, seqBytes]
  | cons seq seqs ih =>
    intro p off k hoff hk
    rw [List.length_cons] at hk
    have hseq : seq < 256 ^ 3 := hseqs seq List.mem_cons_self
    rw [Codec.writeSeqs, Nat.mod_eq_of_lt (hseqs seq List.mem_cons_self),
      writeUIntBE_next hseq hoff (by omega)]
    rw [Option.bind_eq_bind, Option.bind_some,
      ih (fun s hs => hseqs s (List.mem_cons_of_mem _ hs)) (by simp [hoff]) (by omega)]
    simp only [seqBytes, List.flatMap_cons, List.append_assoc, List.length_cons]
    congr 5
    omega

theorem goWriteSeqs_next (seqs : List ℕ) :
    ∀ {p : Buffer} {off k : ℕ}, p.length = off → seqs.length * 3 ≤ k →
      GoCodec.writeSeqs (p ++ Buffer.alloc k) off seqs
        = some ((p ++ seqBytes seqs) ++ Buffer.alloc (k - seqs.length * 3)) := by
  induction seqs with
  | nil =>
    intro p off k _ _
    simp [GoCodec.writeSeqs, seqBytes]
  | cons seq seqs ih =>
    intro p off k hoff hk
    rw [List.length_cons] at hk
    rw [GoCodec.writeSeqs, putUint24_next hoff (le_refl _) (by omega), Option.bind_eq_bind,
      Option.bind_some, ih (by simp [hoff]) (by omega)]
    simp only [seqBytes, List.flatMap_cons, List.append_assoc, List.length_cons]
    congr 5
    omega

theorem rustWriteSeqs_eq (seqs : List ℕ) :
    ∀ (header : Buffer) (off : ℕ),
      RustCodec.writeSeqs header off seqs = GoCodec.writeSeqs header off seqs := by
  induction seqs with
  | nil => exact fun _ _ => rfl
  | cons seq seqs ih =>
    intro header off
    simp only [RustCodec.writeSeqs, GoCodec.writeSeqs, ih]

variable {ms : List RosterEntry}

theorem writeMembers_next (hids : ∀ m ∈ ms, m.senderId < 65536)
    (hkeys : ∀ m ∈ ms, m.pubKey.length = 65) :
    ∀ {p : Buffer} {off k : ℕ}, p.length = off → ms.length * 67 ≤ k →
      Codec.writeMembers (p ++ Buffer.alloc k) off ms
        = some ((p ++ ms.flatMap RustCodec.memberBytes) ++ Buffer.alloc (k - ms.length * 67)) := by
  induction ms with
  | nil =>
    intro p off k _ _
    simp [Codec.writeMembers]
  | cons m ms ih =>
    intro p off k hoff hk
    rw [List.length_cons] at hk
    have hid : m.senderId < 256 ^ 2 := hids m List.mem_cons_self
    have hkey := hkeys m List.mem_cons_self
    rw [Codec.writeMembers, Buffer.writeUInt16BE, writeUIntBE_next hid hoff (by omega),
      Option.bind_eq_bind, Option.bind_some]
    simp only
    rw [copy_next (by simp [hoff]) (by omega),
      ih (fun m' h => hids m' (List.mem_cons_of_mem _ h))
        (fun m' h => hkeys m' (List.mem_cons_of_mem _ h))
        (by simp [hoff, hkey, Codec.rosterEntryLen]) (by omega)]
    simp only [List.flatMap_cons, RustCodec.memberBytes, List.append_assoc, List.length_cons]
    congr 6
    omega

theorem goWriteMembers_next (hkeys : ∀ m ∈ ms, m.pubKey.length = 65) :
    ∀ {p : Buffer} {off k : ℕ}, p.length = off → ms.length * 67 ≤ k →
      GoCodec.writeMembers (p ++ Buffer.alloc k) off ms
        = some ((p ++ ms.flatMap RustCodec.memberBytes) ++ Buffer.alloc (k - ms.length * 67)) := by
  induction ms with
  | nil =>
    intro p off k _ _
    simp [GoCodec.writeMembers]
  | cons m ms ih =>
    intro p off k hoff hk
    rw [List.length_cons] at hk
    have hkey := hkeys m List.mem_cons_self
    rw [GoCodec.writeMembers, putUint16_next hoff (le_refl _) (by omega), Option.bind_eq_bind,
      Option.bind_some, copyInto_next (by simp [hoff]) (by omega) (by omega), Option.bind_some,
      ih (fun m' h => hkeys m' (List.mem_cons_of_mem _ h)) (by simp [hoff, hkey]) (by omega)]
    simp only [List.flatMap_cons, RustCodec.memberBytes, List.append_assoc, List.length_cons]
    congr 6
    omega

/-! ### Encoders

Each write moves one field from the zeroed rest of the buffer to its written front; what is left at the
end is the layout. -/

section Encoders

variable {key nonce : Buffer} (hkey : key.length = 32) (hnonce : nonce.length = 12)

include hkey hnonce

variable (A : GoCodec.ShortAes) {g : GoCodec.Codec} {r : RustCodec.Codec} {ack : AckDart}
  {reset : DictResetDart} {sync : SyncDart} {nack : NackDart} {info : MemberInfo} {dart : DataDart}

theorem encodeAck_wire (hbody : LengthPreserving C) (hf : AckFits ack) :
    Codec.encodeAck C ack key nonce = some (sealedFrame C key nonce (ackHeader ack nonce) []) := by
  have htype : ack.type < 256 ^ 1 := by rw [hf.type]; decide
  have hconv : ack.convId < 256 ^ 2 := hf.convId
  have hsender : ack.senderId < 256 ^ 2 := hf.senderId
  have htarget : ack.targetId < 256 ^ 2 := hf.targetId
  have hseq : ack.seq < 256 ^ 3 := hf.seq
  simp (disch := first | assumption | (simp [hnonce]; done)) only [Codec.encodeAck,
    Nat.mod_eq_of_lt hf.seq, Buffer.writeUInt8, Buffer.writeUInt16BE, writeUIntBE_first,
    writeUIntBE_next, copy_next, Option.bind_eq_bind, Option.bind_some, Crypto.cipher,
    if_pos hkey]
  simp [Buffer.concat, sealedFrame_nil hbody, ackHeader, route, Buffer.alloc, hnonce]

theorem ackEncoders_wire (hf : AckFits ack) (hg : g.convKeys.get ack.convId = some key)
    (hr : r.convKeys.get ack.convId = some key) :
    GoCodec.encodeAck C A g ack nonce
        = some (some (sealedFrame C key nonce (ackHeader ack nonce) [])) ∧
      RustCodec.encodeAck C r (rustAck ack) nonce
        = some (some (sealedFrame C key nonce (ackHeader ack nonce) [])) := by
  simp (disch := (simp [hnonce, Buffer.alloc]; done)) only [GoCodec.encodeAck, RustCodec.encodeAck,
    GoCodec.getConvKey, RustCodec.getConvKey, rustAck, hg, hr, tryOk_ok, set_first, putUint16_next,
    putUint24_next, copyInto_next, copyFromSlice_next, Option.bind_eq_bind, Option.bind_some,
    goSealedFrame_eq A hkey hnonce, rustSealedFrame_eq hkey hnonce]
  simp [ackHeader, route, Buffer.alloc, hnonce, hf.type]

theorem encodeDictReset_wire (hbody : LengthPreserving C) (hf : ResetFits reset) :
    Codec.encodeDictReset C reset key nonce
      = some (sealedFrame C key nonce (resetHeader reset nonce) []) := by
  have htype : reset.type < 256 ^ 1 := by rw [hf.type]; decide
  have hconv : reset.convId < 256 ^ 2 := hf.convId
  have hsender : reset.senderId < 256 ^ 2 := hf.senderId
  have htarget : reset.targetId < 256 ^ 2 := hf.targetId
  simp (disch := first | assumption | (simp [hnonce]; done)) only [Codec.encodeDictReset,
    Buffer.writeUInt8, Buffer.writeUInt16BE, writeUIntBE_first, writeUIntBE_next,
    copy_next, Option.bind_eq_bind, Option.bind_some, Crypto.cipher, if_pos hkey]
  simp [Buffer.concat, sealedFrame_nil hbody, resetHeader, route, Buffer.alloc, hnonce]

theorem dictResetEncoders_wire (hf : ResetFits reset) (hg : g.convKeys.get reset.convId = some key)
    (hr : r.convKeys.get reset.convId = some key) :
    GoCodec.encodeDictReset C A g reset nonce
        = some (some (sealedFrame C key nonce (resetHeader reset nonce) [])) ∧
      RustCodec.encodeDictReset C r (rustReset reset) nonce
        = some (some (sealedFrame C key nonce (resetHeader reset nonce) [])) := by
  simp (disch := (simp [hnonce, Buffer.alloc]; done)) only [GoCodec.encodeDictReset,
    RustCodec.encodeDictReset, GoCodec.getConvKey, RustCodec.getConvKey, rustReset, hg, hr, tryOk_ok,
    set_first, putUint16_next, copyInto_next, copyFromSlice_next, Option.bind_eq_bind,
    Option.bind_some, goSealedFrame_eq A hkey hnonce, rustSealedFrame_eq hkey hnonce]
  simp [resetHeader, route, Buffer.alloc, hnonce, hf.type]

theorem encodeSync_wire (hf : SyncFits sync) :
    Codec.encodeSync C sync key nonce
      = some (sealedFrame C key nonce (syncHeader sync nonce) (bytesBE 3 sync.highestSeq)) := by
  have htype : sync.type < 256 ^ 1 := by rw [hf.type]; decide
  have hconv : sync.convId < 256 ^ 2 := hf.convId
  have hsender : sync.senderId < 256 ^ 2 := hf.senderId
  have hseq : sync.highestSeq < 256 ^ 3 := hf.highestSeq
  simp (disch := first | assumption | (simp [hnonce]; done)) only [Codec.encodeSync,
    Nat.mod_eq_of_lt hf.highestSeq, Buffer.writeUInt8, Buffer.writeUInt16BE, writeUIntBE_first,
    writeUIntBE_next, copy_next, Option.bind_eq_bind, Option.bind_some, Crypto.cipher,
    if_pos hkey]
  simp [Buffer.concat, sealedFrame, syncHeader, route, Buffer.alloc, hnonce]

theorem syncEncoders_wire (hf : SyncFits sync) (hg : g.convKeys.get sync.convId = some key)
    (hr : r.convKeys.get sync.convId = some key) :
    GoCodec.encodeSync C A g sync nonce
        = some (some (sealedFrame C key nonce (syncHeader sync nonce) (bytesBE 3 sync.highestSeq))) ∧
      RustCodec.encodeSync C r (rustSync sync) nonce
        = some (some (sealedFrame C key nonce (syncHeader sync nonce)
            (bytesBE 3 sync.highestSeq))) := by
  have hpayload : putUint24 (Buffer.alloc 3) 0 3 sync.highestSeq
      = some (bytesBE 3 sync.highestSeq ++ Buffer.alloc 0) :=
    putUint24_next (p := []) rfl (le_refl _) (le_refl _)
  simp (disch := (simp [hnonce, Buffer.alloc]; done)) only [GoCodec.encodeSync, RustCodec.encodeSync,
    GoCodec.getConvKey, RustCodec.getConvKey, rustSync, hg, hr, tryOk_ok, set_first, putUint16_next,
    hpayload, copyInto_next, copyFromSlice_next, Option.bind_eq_bind, Option.bind_some,
    goSealedFrame_eq A hkey hnonce, rustSealedFrame_eq hkey hnonce]
  simp [syncHeader, route, Buffer.alloc, hnonce, hf.type]

theorem encodeNack_wire (hbody : LengthPreserving C) (hf : NackFits nack) :
    Codec.encodeNack C nack key nonce
      = some (sealedFrame C key nonce (nackHeader nack nonce) []) := by
  have htype : nack.type < 256 ^ 1 := by rw [hf.type]; decide
  have hconv : nack.convId < 256 ^ 2 := hf.convId
  have hsender : nack.senderId < 256 ^ 2 := hf.senderId
  have htarget : nack.targetId < 256 ^ 2 := hf.targetId
  have hcount : nack.missingSeq.length < 256 ^ 2 := hf.count
  simp (disch := first | assumption | (simp [hnonce]; done) | omega) only [Codec.encodeNack,
    Codec.nackPrefixLen, Buffer.writeUInt8, Buffer.writeUInt16BE, writeUIntBE_first,
    writeUIntBE_next, copy_next, writeSeqs_next hf.seqs, Option.bind_eq_bind,
    Option.bind_some, Crypto.cipher, if_pos hkey]
  have hrest : 20 + nack.missingSeq.length * 3 - 2 - 2 - 2 - 12 - 2 - nack.missingSeq.length * 3
      = 0 := by omega
  simp [Buffer.concat, sealedFrame_nil hbody, nackHeader, route, hnonce, hrest, Buffer.alloc]

theorem goEncodeNack_wire (hg : g.convKeys.get nack.convId = some key) :
    GoCodec.encodeNack C A g nack nonce
      = some (some (sealedFrame C key nonce (nackHeader nack nonce) [])) := by
  simp (disch := first | (simp [hnonce, Buffer.alloc]; done) | omega) only [GoCodec.encodeNack,
    Codec.nackPrefixLen, GoCodec.getConvKey, hg, tryOk_ok, set_first, putUint16_next, copyInto_next,
    goWriteSeqs_next, Option.bind_eq_bind, Option.bind_some, goSealedFrame_eq A hkey hnonce]
  have hrest : 20 + nack.missingSeq.length * 3 - 2 - 2 - 2 - 12 - 2 - nack.missingSeq.length * 3
      = 0 := by omega
  simp [nackHeader, route, hnonce, hrest, Buffer.alloc]

theorem rustEncodeNack_wire (hf : NackFits nack) (hr : r.convKeys.get nack.convId = some key) :
    RustCodec.encodeNack C r (rustNack nack) nonce
      = some (some (sealedFrame C key nonce (nackHeader nack nonce) [])) := by
  simp (disch := first | (simp [hnonce, Buffer.alloc]; done) | omega) only [RustCodec.encodeNack,
    Codec.nackPrefixLen, RustCodec.getConvKey, rustNack, hr, tryOk_ok, set_first, putUint16_next,
    copyFromSlice_next, rustWriteSeqs_eq, goWriteSeqs_next, Option.bind_eq_bind, Option.bind_some,
    rustSealedFrame_eq hkey hnonce]
  have hrest : 20 + nack.missingSeq.length * 3 - 2 - 2 - 2 - 12 - 2 - nack.missingSeq.length * 3
      = 0 := by omega
  simp [nackHeader, route, hnonce, hrest, Buffer.alloc, hf.type]

omit hnonce in
theorem encodeMemberInfo_wire (hf : MemberInfoFits info) :
    Codec.encodeMemberInfo C info key nonce
      = some (sealedFrame C key nonce (memberHeader info nonce) (memberPayload info)) := by
  have htype : info.type < 256 ^ 1 := by rw [hf.type]; decide
  have hconv : info.convId < 256 ^ 2 := hf.convId
  have hsender : info.senderId < 256 ^ 2 := hf.senderId
  have hcount : info.members.length < 256 ^ 2 := hf.count
  have hflag : (if info.creator then 1 else 0) < 256 ^ 1 := by split <;> decide
  simp (disch := first | assumption | (simp; done) | omega) only [Codec.encodeMemberInfo,
    Codec.rosterEntryLen, Buffer.writeUInt8, Buffer.writeUInt16BE, writeUIntBE_first,
    writeUIntBE_next, writeMembers_next hf.ids hf.pubKeys, Option.bind_eq_bind,
    Option.bind_some, Crypto.cipher, if_pos hkey]
  simp [Buffer.concat, sealedFrame, memberHeader, memberPayload, route, Buffer.alloc]

omit hnonce in
theorem goEncodeMemberInfo_wire (hf : MemberInfoFits info) :
    GoCodec.encodeMemberInfo C info key nonce
      = some (some (sealedFrame C key nonce (memberHeader info nonce) (memberPayload info))) := by
  have hflag : (if info.creator then 1 else 0 : UInt8)
      = UInt8.ofNat (if info.creator then 1 else 0) := by split <;> rfl
  simp (disch := first | (simp [Buffer.alloc]; done) | omega) only [GoCodec.encodeMemberInfo,
    GoCodec.memberInfoParts, hflag, set_first, putUint16_next, goWriteMembers_next hf.pubKeys,
    Option.bind_eq_bind, Option.bind_some, Crypto.cipher, if_pos hkey]
  simp [sealedFrame, memberHeader, memberPayload, route, Buffer.alloc]

theorem rustEncodeMemberInfo_wire (htype : info.type = TYPE_MEMBER_INFO) :
    RustCodec.encodeMemberInfo C (rustMemberInfo info) key nonce
      = some (some (sealedFrame C key nonce (memberHeader info nonce) (memberPayload info))) := by
  have hflag : (if info.creator then 1 else 0 : UInt8)
      = UInt8.ofNat (if info.creator then 1 else 0) := by split <;> rfl
  show RustCodec.encodeMemberInfo C
    ⟨info.convId, info.senderId, info.serverPubKey, info.creator, info.members⟩ key nonce = _
  simp (disch := (simp [hnonce, Buffer.alloc]; done)) only [RustCodec.encodeMemberInfo, hflag,
    set_first, putUint16_next, Option.bind_eq_bind, Option.bind_some, rustSealedFrame_eq hkey hnonce]
  simp [memberHeader, memberPayload, route, Buffer.alloc, htype, bytesBE_one]

theorem goEncodeData_wire (hC : C.Lawful) (flate : Buffer → Buffer → Buffer)
    (c : GoCodec.Codec) (dict : Buffer) {idx epoch : ℕ}
    (hf : DataDartFits dart idx epoch) (hepoch : epoch ≠ 0) :
    GoCodec.encodeData C A flate c dart dict key idx epoch nonce
      = some (some (sealedFrame C key nonce (Codec.dataPrefix C dart dict idx epoch nonce)
          (flate (utf8 dart.payload) dict))) := by
  have hfp := dictFingerprint_length hC dict
  have htake : (C.sha256 dict).take DICT_FP_LEN = dictFingerprint C dict := take_sha256 hC dict
  simp (disch := (simp [hnonce, hfp, Buffer.alloc]; done)) only [GoCodec.encodeData,
    GoCodec.dataPrefix, GoCodec.dataEpoch, if_neg hepoch, htake, set_first, set_next, putUint16_next,
    putUint24_next, putUint32_next, copyInto_next, Option.bind_eq_bind, Option.bind_some,
    goSealedFrame_eq A hkey hnonce]
  simp only [Codec.dataPrefix, Nat.mod_eq_of_lt hf.seq, Nat.mod_eq_of_lt hf.idx]
  simp [Buffer.alloc, hnonce, hfp]

theorem rustEncodeData_wire (hC : C.Lawful) {deflate : Buffer → Buffer → Option Buffer}
    (c : RustCodec.Codec) {dict stream : Buffer} {idx epoch : ℕ}
    (hf : DataDartFits dart idx epoch) (hepoch : epoch ≠ 0)
    (hstream : deflate (utf8 dart.payload) dict = some stream) :
    RustCodec.encodeData C deflate c (rustData dart) dict key idx epoch nonce
      = some (some (sealedFrame C key nonce (Codec.dataPrefix C dart dict idx epoch nonce)
          (stream.take ((utf8 dart.payload).length + 1024)))) := by
  have hfp := dictFingerprint_length hC dict
  have htake : (C.sha256 dict).take 4 = dictFingerprint C dict := take_sha256 hC dict
  simp (disch := (simp [hnonce, hfp, Buffer.alloc]; done)) only [RustCodec.encodeData, rustData,
    hstream, tryOk_ok, RustCodec.dataPrefix, RustCodec.dataEpoch, if_neg hepoch, htake, set_first,
    set_next, putUint16_next, putUint24_next, putUint32_next, copyFromSlice_next, Option.bind_eq_bind,
    Option.bind_some, rustSealedFrame_eq hkey hnonce]
  simp only [Codec.dataPrefix, Nat.mod_eq_of_lt hf.seq, Nat.mod_eq_of_lt hf.idx]
  simp [Buffer.alloc, hnonce, hfp, hf.type]

theorem encodeData_wire (hC : C.Lawful) (dict : Buffer) {idx epoch : ℕ}
    (hf : DataDartFits dart idx epoch) :
    Codec.encodeDataHelper C dart dict key idx epoch nonce
      = some (sealedFrame C key nonce (Codec.dataPrefix C dart dict idx epoch nonce)
          (C.deflateRaw (utf8 dart.payload) dict)) :=
  Codec.encodeDataHelper_eq hC hnonce
    ⟨by rw [hf.type]; decide, hf.convId, hf.senderId, hf.epoch, hkey⟩

end Encoders

/-! ### Frames that carry their own nonce -/

theorem encodeKeyReq_wire {req : KeyReqDart} (hf : KeyReqFits req) :
    Codec.encodeKeyReq req = some (keyReqFrame req) := by
  have htype : req.type < 256 ^ 1 := by rw [hf.type]; decide
  have hconv : req.convId < 256 ^ 2 := hf.convId
  have hsender : req.senderId < 256 ^ 2 := hf.senderId
  simp (disch := first | assumption | (simp; done)) only [Codec.encodeKeyReq, Buffer.writeUInt8,
    Buffer.writeUInt16BE, writeUIntBE_first, writeUIntBE_next, Option.bind_eq_bind,
    Option.bind_some]
  simp [Buffer.concat, keyReqFrame, route, Buffer.alloc]

theorem keyReqEncoders_wire {req : KeyReqDart} (hf : KeyReqFits req) :
    GoCodec.encodeKeyReq req = some (some (keyReqFrame req)) ∧
      RustCodec.encodeKeyReq (rustKeyReq req) = some (keyReqFrame req) := by
  simp (disch := (simp [Buffer.alloc]; done)) only [GoCodec.encodeKeyReq, RustCodec.encodeKeyReq,
    rustKeyReq, set_first, putUint16_next, Option.bind_eq_bind, Option.bind_some]
  simp [keyReqFrame, route, Buffer.alloc, hf.type]

section Shares

variable {key : Buffer} (hkey : key.length = 32)

theorem shareHeaders_wire (type convId senderId targetId epoch : ℕ) {nonce : Buffer}
    (hnonce : nonce.length = 12) :
    GoCodec.shareHeader type convId senderId targetId epoch nonce
        = some (shareHeader type convId senderId targetId epoch nonce) ∧
      RustCodec.shareHeader type convId senderId targetId epoch nonce
        = some (shareHeader type convId senderId targetId epoch nonce) := by
  simp (disch := (simp [hnonce, Buffer.alloc]; done)) only [GoCodec.shareHeader,
    RustCodec.shareHeader, set_first, putUint16_next, copyInto_next, copyFromSlice_next,
    Option.bind_eq_bind, Option.bind_some]
  simp [shareHeader, route, Buffer.alloc, hnonce]

include hkey

theorem encodeKeyShare_wire {share : KeyShareDart} (hf : KeyShareFits share) :
    Codec.encodeKeyShare C share key
      = some (sealedFrame C key share.nonce (keyShareHeader share) share.encryptedKey) := by
  have htype : share.type < 256 ^ 1 := by rw [hf.type]; decide
  have hconv : share.convId < 256 ^ 2 := hf.convId
  have hsender : share.senderId < 256 ^ 2 := hf.senderId
  have htarget : share.targetId < 256 ^ 2 := hf.targetId
  have hepoch : share.epoch < 256 ^ 2 := hf.epoch
  simp (disch := first | assumption | (simp [hf.nonce]; done)) only [Codec.encodeKeyShare,
    Buffer.writeUInt8, Buffer.writeUInt16BE, writeUIntBE_first, writeUIntBE_next,
    copy_next, Option.bind_eq_bind, Option.bind_some, Crypto.cipher, if_pos hkey]
  simp [Buffer.concat, sealedFrame, keyShareHeader, shareHeader, route, Buffer.alloc, hf.nonce]

theorem goEncodeKeyShare_wire (A : GoCodec.ShortAes) {share : KeyShareDart}
    (hf : KeyShareFits share) :
    GoCodec.encodeKeyShare C A share key
      = some (some (sealedFrame C key share.nonce (keyShareHeader share) share.encryptedKey)) := by
  rw [GoCodec.encodeKeyShare, GoCodec.keyShareAAD, (shareHeaders_wire _ _ _ _ _ hf.nonce).1]
  exact goSealedFrame_eq A hkey hf.nonce _ _

theorem rustEncodeKeyShare_wire {share : KeyShareDart} (hf : KeyShareFits share) :
    RustCodec.encodeKeyShare C (rustKeyShare share) key
      = some (some (sealedFrame C key share.nonce (keyShareHeader share) share.encryptedKey)) := by
  rw [RustCodec.encodeKeyShare, rustKeyShare, (shareHeaders_wire _ _ _ _ _ hf.nonce).2, keyShareHeader,
    hf.type]
  exact rustSealedFrame_eq hkey hf.nonce _ _

variable {share : ChainShareDart}

theorem encodeChainShare_wire (hf : ChainShareFits share) :
    Codec.encodeChainShare C share key
      = some (sealedFrame C key share.nonce (chainShareHeader share) (chainSharePayload share)) := by
  have htype : share.type < 256 ^ 1 := by rw [hf.type]; decide
  have hconv : share.convId < 256 ^ 2 := hf.convId
  have hsender : share.senderId < 256 ^ 2 := hf.senderId
  have htarget : share.targetId < 256 ^ 2 := hf.targetId
  have hepoch : share.epoch < 256 ^ 2 := hf.epoch
  have hindex : share.chainIndex < 256 ^ 4 := hf.chainIndex
  have hcopy : share.chainKey.copy (Buffer.alloc 36) 0 = share.chainKey ++ Buffer.alloc 4 := by
    have h := copy_next (p := []) (k := 36) rfl (by rw [hf.chainKey]; decide :
      share.chainKey.length ≤ 36)
    rwa [hf.chainKey] at h
  simp (disch := first | assumption | (simp [hf.nonce, hf.chainKey]; done)) only
    [Codec.encodeChainShare, Nat.mod_eq_of_lt hf.chainIndex, hcopy, Buffer.writeUInt8,
    Buffer.writeUInt16BE, Buffer.writeUInt32BE, writeUIntBE_first, writeUIntBE_next,
    copy_next, Option.bind_eq_bind, Option.bind_some, Crypto.cipher, if_pos hkey]
  simp [Buffer.concat, sealedFrame, chainShareHeader, chainSharePayload, shareHeader, route,
    Buffer.alloc, hf.nonce]

theorem goEncodeChainShare_wire (A : GoCodec.ShortAes) (hf : ChainShareFits share) :
    GoCodec.encodeChainShare C A share key
      = some (some (sealedFrame C key share.nonce (chainShareHeader share)
          (chainSharePayload share))) := by
  have hcopy : copyInto (Buffer.alloc 36) 0 32 share.chainKey
      = some (share.chainKey ++ Buffer.alloc (36 - share.chainKey.length)) :=
    copyInto_next (p := []) (i := 0) (j := 32) (k := 36) rfl (by simp [hf.chainKey]) (by decide)
  have hput : putUint32 (share.chainKey ++ Buffer.alloc (36 - share.chainKey.length)) 32 36
      share.chainIndex = some (chainSharePayload share) := by
    rw [putUint32_next hf.chainKey (le_refl _) (by rw [hf.chainKey])]
    simp [chainSharePayload, Buffer.alloc, hf.chainKey]
  rw [GoCodec.encodeChainShare, (shareHeaders_wire _ _ _ _ _ hf.nonce).1]
  simp only [Option.bind_eq_bind, Option.bind_some, hcopy, hput]
  exact goSealedFrame_eq A hkey hf.nonce _ _

theorem rustEncodeChainShare_wire (hf : ChainShareFits share) :
    RustCodec.encodeChainShare C (rustChainShare share) key
      = some (some (sealedFrame C key share.nonce (chainShareHeader share)
          (chainSharePayload share))) := by
  rw [RustCodec.encodeChainShare, rustChainShare, (shareHeaders_wire _ _ _ _ _ hf.nonce).2,
    chainShareHeader, hf.type]
  exact rustSealedFrame_eq hkey hf.nonce _ _

end Shares

end DartProtocol.Wire
