import DartProtocol.CheckedSlice
import DartProtocol.ClientState
import DartProtocol.CodecControl
import DartProtocol.CodecKeys

/-!
# The Go codec

The frames of `go/core`: `codec_data.go`, `codec_control.go`, `codec_keys.go`, `chain.go` and
`control.go`.  Every index and slice expression goes through the checked operations of `CheckedSlice`;
a datagram is a slice without spare capacity, as the listeners copy it.

* A function returns `Option (Option _)`: outside a panic, inside a returned error.
* The cipher of a key follows from its length, so a key of 16 or 24 bytes is no error here.
* Numbers have the width of their Go type and are cut to the field they are put into.
* A nonce is drawn by the caller.
-/

namespace DartProtocol.GoCodec

open Slice

/-- AES-128-GCM and AES-192-GCM, the ciphers of shorter keys. -/
structure ShortAes where
  /-- Ciphertext and tag for key, nonce, associated data and plaintext. -/
  encrypt : Buffer → Buffer → Buffer → Buffer → Buffer × Buffer
  /-- Plaintext for key, nonce, associated data, ciphertext and tag, when the tag verifies. -/
  decrypt : Buffer → Buffer → Buffer → Buffer → Buffer → Option Buffer

/-- The group keys and epochs of a codec. -/
structure Codec where
  convKeys : NumMap Buffer := ∅
  currentEpochs : NumMap ℕ := ∅

/-- A decrypted Data dart that is not inflated yet. -/
structure DecryptedData extends DartProtocol.DecryptedData where
  epoch : ℕ
  deriving DecidableEq, Repr

variable (C : Crypto) (A : ShortAes)

/-! ### Sealing and opening -/

/-- The key lengths `aes.NewCipher` takes. -/
def IsAesKey (key : Buffer) : Prop := key.length = 16 ∨ key.length = 24 ∨ key.length = 32

instance (key : Buffer) : Decidable (IsAesKey key) := by
  unfold IsAesKey
  infer_instance

/-- `aesgcm.Seal`: a nonce of another length than twelve panics. -/
def aesSeal (key nonce aad plain : Buffer) : Option (Option Buffer) :=
  if IsAesKey key then
    if nonce.length = 12 then
      let (encrypted, tag) :=
        if key.length = 32 then C.gcmEncrypt key nonce aad plain else A.encrypt key nonce aad plain
      some (some (encrypted ++ tag))
    else none
  else some none

/-- `aesgcm.Open`: the tag is the end of what is opened. -/
def aesOpen (key nonce aad encryptedWithTag : Buffer) : Option (Option Buffer) :=
  if IsAesKey key then
    if nonce.length = 12 then
      if encryptedWithTag.length < 16 then some none
      else
        let encrypted := encryptedWithTag.take (encryptedWithTag.length - 16)
        let tag := encryptedWithTag.drop (encryptedWithTag.length - 16)
        some (if key.length = 32 then C.gcmDecrypt key nonce aad encrypted tag
          else A.decrypt key nonce aad encrypted tag)
    else none
  else some none

/-- A cleartext header and what is sealed under it. -/
def sealedFrame (key nonce header plain : Buffer) : Option (Option Buffer) :=
  tryOk (aesSeal C A key nonce header plain) fun ciphertext => some (some (header ++ ciphertext))

def getConvKey (c : Codec) (convId : ℕ) : Option (Option Buffer) := some (c.convKeys.get convId)

/-! ### Data -/

/-- The epoch a dart is sent under: zero stands for the current one, and for `1` without a current
one. -/
def dataEpoch (c : Codec) (convId epoch : ℕ) : ℕ :=
  if epoch = 0 then
    let current := (c.currentEpochs.get convId).getD 0
    if current = 0 then 1 else current
  else epoch

/-- The header and extension of a Data dart. -/
def dataPrefix (dart : DataDart) (dict : Buffer) (idx epoch : ℕ) (nonce : Buffer) : Option Buffer := do
  let p := (Buffer.alloc (7 + 24)).set 0 (UInt8.ofNat dart.type)
  let p ← putUint16 p 1 3 dart.convId
  let p ← putUint24 p 3 6 dart.seq
  let p := p.set 6 (UInt8.ofNat 24)
  let p ← putUint16 p 7 9 dart.senderId
  let p ← copyInto p 9 21 nonce
  let p ← putUint16 p 21 23 epoch
  let p ← copyInto p 23 27 ((C.sha256 dict).take DICT_FP_LEN)
  putUint32 p 27 31 idx

/-- Encode a Data dart; `flate` is the compressor of `compress/flate`, given payload and dictionary. -/
def encodeData (flate : Buffer → Buffer → Buffer) (c : Codec) (dart : DataDart)
    (dict messageKey : Buffer) (idx epoch : ℕ) (nonce : Buffer) : Option (Option Buffer) := do
  let p ← dataPrefix C dart dict idx (dataEpoch c dart.convId epoch) nonce
  sealedFrame C A messageKey nonce p (flate (utf8 dart.payload) dict)

/-- First stage of decoding.  A sub-slice of the prefix reaches up to its capacity, which is that of
the datagram, so its fields are read in the datagram. -/
def decryptData (buf messageKey : Buffer) : Option (Option DecryptedData) :=
  if buf.length < 7 then some none
  else do
    let type ← index buf 0
    let convId ← (slice buf 1 3).bind uint16
    let seq ← (slice buf 3 6).bind uint24
    let extLen ← index buf 6
    if buf.length < 7 + extLen + 16 then some none
    else
      let header ← slice buf 0 (7 + extLen)
      let senderId ← (slice buf 7 9).bind uint16
      let nonce ← slice buf 9 21
      let epoch ← (slice buf 21 23).bind uint16
      let dictFp ← slice buf 23 27
      let idx ← (slice buf 27 31).bind uint32
      let encryptedWithTag ← slice buf (7 + extLen) buf.length
      tryOk (aesOpen C A messageKey nonce header encryptedWithTag) fun compressed =>
        some (some { type, convId, senderId, seq, compressed, dictFp, idx, epoch })

/-! ### KeyReq -/

def encodeKeyReq (req : KeyReqDart) : Option (Option Buffer) := do
  let header := (Buffer.alloc 5).set 0 (UInt8.ofNat req.type)
  let header ← putUint16 header 1 3 req.convId
  let header ← putUint16 header 3 5 req.senderId
  some (some (header ++ req.reqNonce ++ req.clientPubKey))

def decodeKeyReq (buf : Buffer) : Option (Option KeyReqDart) :=
  if buf.length < 21 then some none
  else do
    let type ← index buf 0
    let convId ← (slice buf 1 3).bind uint16
    let senderId ← (slice buf 3 5).bind uint16
    let reqNonce ← slice buf 5 21
    let clientPubKey ← slice buf 21 buf.length
    some (some { type, convId, senderId, reqNonce, clientPubKey })

theorem decodeKeyReq_isSome (buf : Buffer) : (decodeKeyReq buf).isSome := by
  rw [decodeKeyReq]
  by_cases h : buf.length < 21
  · rw [if_pos h]
    rfl
  · rw [if_neg h]
    obtain ⟨type, h₁⟩ := Option.isSome_iff_exists.mp (index_isSome_iff.mpr (by omega : 0 < buf.length))
    obtain ⟨convId, h₂⟩ := Option.isSome_iff_exists.mp
      (uint16_slice_isSome_iff.mpr (by omega : 1 + 2 ≤ buf.length))
    obtain ⟨senderId, h₃⟩ := Option.isSome_iff_exists.mp
      (uint16_slice_isSome_iff.mpr (by omega : 3 + 2 ≤ buf.length))
    obtain ⟨reqNonce, h₄, -⟩ := slice_of_le (by decide : 5 ≤ 21) (by omega : 21 ≤ buf.length)
    obtain ⟨pub, h₅, -⟩ := slice_of_le (by omega : 21 ≤ buf.length) (le_refl buf.length)
    simp [h₁, h₂, h₃, h₄, h₅]

/-! ### Shares -/

/-- The cleartext part of a share. -/
def shareHeader (type convId senderId targetId epoch : ℕ) (nonce : Buffer) : Option Buffer := do
  let header := (Buffer.alloc 21).set 0 (UInt8.ofNat type)
  let header ← putUint16 header 1 3 convId
  let header ← putUint16 header 3 5 senderId
  let header ← putUint16 header 5 7 targetId
  let header ← putUint16 header 7 9 epoch
  copyInto header 9 header.length nonce

def keyShareAAD (share : KeyShareDart) : Option Buffer :=
  shareHeader share.type share.convId share.senderId share.targetId share.epoch share.nonce

def encodeKeyShare (share : KeyShareDart) (transportKey : Buffer) : Option (Option Buffer) := do
  let header ← keyShareAAD share
  sealedFrame C A transportKey share.nonce header share.encryptedKey

/-- The epoch and group key of a share. -/
def decodeKeyShare (buf transportKey : Buffer) : Option (Option (ℕ × Buffer)) :=
  if buf.length < 21 + 48 then some none
  else do
    let epoch ← (slice buf 7 9).bind uint16
    let header ← slice buf 0 21
    let nonce ← slice buf 9 21
    let encryptedWithTag ← slice buf 21 buf.length
    tryOk (aesOpen C A transportKey nonce header encryptedWithTag) fun groupKey =>
      some (some (epoch, groupKey))

def encodeChainShare (share : ChainShareDart) (transportKey : Buffer) : Option (Option Buffer) := do
  let header ←
    shareHeader share.type share.convId share.senderId share.targetId share.epoch share.nonce
  let payload ← copyInto (Buffer.alloc 36) 0 32 share.chainKey
  let payload ← putUint32 payload 32 36 share.chainIndex
  sealedFrame C A transportKey share.nonce header payload

def decodeChainShare (buf transportKey : Buffer) : Option (Option ChainShareDart) :=
  if buf.length < 21 + 36 + 16 then some none
  else do
    let type ← index buf 0
    let convId ← (slice buf 1 3).bind uint16
    let senderId ← (slice buf 3 5).bind uint16
    let targetId ← (slice buf 5 7).bind uint16
    let epoch ← (slice buf 7 9).bind uint16
    let header ← slice buf 0 21
    let nonce ← slice buf 9 21
    let encryptedWithTag ← slice buf 21 buf.length
    tryOk (aesOpen C A transportKey nonce header encryptedWithTag) fun payload =>
      if payload.length < 36 then some none
      else do
        let chainKey ← slice payload 0 32
        let chainIndex ← (slice payload 32 36).bind uint32
        some (some { type, convId, senderId, targetId, epoch, nonce, chainKey, chainIndex })

/-! ### MEMBER_INFO -/

/-- The loop of `EncodeMemberInfo` over the roster. -/
def writeMembers (payload : Buffer) : ℕ → List RosterEntry → Option Buffer
  | _, [] => some payload
  | offset, m :: ms => do
    let payload ← putUint16 payload offset (offset + 2) m.senderId
    let payload ← copyInto payload (offset + 2) (offset + 67) m.pubKey
    writeMembers payload (offset + 67) ms

/-- The cleartext part of a roster frame and its payload. -/
def memberInfoParts (info : MemberInfo) : Option (Buffer × Buffer) := do
  let header := (Buffer.alloc 5).set 0 (UInt8.ofNat info.type)
  let header ← putUint16 header 1 3 info.convId
  let header ← putUint16 header 3 5 info.senderId
  let payload := Buffer.alloc (3 + info.members.length * 67)
  let payload := payload.set 0 (if info.creator then 1 else 0)
  let payload ← putUint16 payload 1 3 info.members.length
  let payload ← writeMembers payload 3 info.members
  some (header, payload)

/-- The transport key is a hash here. -/
def encodeMemberInfo (info : MemberInfo) (transportKey nonce : Buffer) : Option (Option Buffer) := do
  let (header, payload) ← memberInfoParts info
  let aad := header ++ info.serverPubKey ++ nonce
  match C.cipher transportKey nonce aad payload with
  | none => some none
  | some (encrypted, tag) => some (some (aad ++ (encrypted ++ tag)))

/-- The loop of `DecodeMemberInfo` over the roster.  It ends early at an entry that is cut off. -/
def readMembers (payload : Buffer) : ℕ → ℕ → Option (List RosterEntry)
  | _, 0 => some []
  | offset, count + 1 =>
    if payload.length < offset + 67 then some []
    else do
      let senderId ← (slice payload offset (offset + 2)).bind uint16
      let pubKey ← slice payload (offset + 2) (offset + 67)
      let members ← readMembers payload (offset + 67) count
      some (⟨senderId, pubKey⟩ :: members)

/-- What a decrypted roster says.  Nothing asks first how long it is. -/
def readRoster (payload : Buffer) : Option (Bool × List RosterEntry) := do
  let creator ← index payload 0
  let count ← (slice payload 1 3).bind uint16
  let members ← readMembers payload 3 count
  some (decide (creator = 1), members)

def decodeMemberInfo (buf transportKey : Buffer) : Option (Option MemberInfo) :=
  if buf.length < 5 + 65 + 12 + 16 then some none
  else do
    let type ← index buf 0
    let convId ← (slice buf 1 3).bind uint16
    let senderId ← (slice buf 3 5).bind uint16
    let serverPubKey ← slice buf 5 70
    let nonce ← slice buf 70 82
    let encrypted ← slice buf 82 buf.length
    let header ← slice buf 0 5
    tryOk (aesOpen C A transportKey nonce (header ++ serverPubKey ++ nonce) encrypted) fun payload => do
      let (creator, members) ← readRoster payload
      some (some { type, convId, senderId, serverPubKey, creator, members })

theorem writeMembers_isSome (ms : List RosterEntry) :
    ∀ {payload : Buffer} {offset : ℕ}, offset + ms.length * 67 ≤ payload.length →
      (writeMembers payload offset ms).isSome := by
  induction ms with
  | nil => exact fun _ => rfl
  | cons m ms ih =>
    intro payload offset h
    rw [List.length_cons] at h
    obtain ⟨p₁, e₁, l₁⟩ := exists_putUint16 m.senderId (le_refl (offset + 2))
      (by omega : offset + 2 ≤ payload.length)
    obtain ⟨p₂, e₂, l₂⟩ := exists_copyInto m.pubKey (by omega : offset + 2 ≤ offset + 67)
      (by omega : offset + 67 ≤ p₁.length)
    rw [writeMembers, e₁]
    simp only [Option.bind_eq_bind, Option.bind_some, e₂]
    apply ih
    omega

theorem memberInfoParts_isSome (info : MemberInfo) : (memberInfoParts info).isSome := by
  have hlen (n : ℕ) (v : UInt8) : ((Buffer.alloc n).set 0 v).length = n := by
    simp [Buffer.alloc]
  obtain ⟨h₁, e₁, l₁⟩ := exists_putUint16 (b := (Buffer.alloc 5).set 0 (UInt8.ofNat info.type))
    info.convId (by decide : 1 + 2 ≤ 3) (by rw [hlen]; decide)
  obtain ⟨h₂, e₂, l₂⟩ := exists_putUint16 info.senderId (by decide : 3 + 2 ≤ 5)
    (by rw [l₁, hlen] : 5 ≤ h₁.length)
  obtain ⟨p₁, f₁, m₁⟩ := exists_putUint16
    (b := (Buffer.alloc (3 + info.members.length * 67)).set 0 (if info.creator then 1 else 0))
    info.members.length (by decide : 1 + 2 ≤ 3) (by rw [hlen]; omega)
  obtain ⟨p₂, f₂⟩ := Option.isSome_iff_exists.mp
    (writeMembers_isSome info.members (by rw [m₁, hlen] : 3 + info.members.length * 67 ≤ p₁.length))
  simp only [memberInfoParts, Option.bind_eq_bind, e₁, e₂, f₁, f₂, Option.bind_some]
  rfl

theorem encodeMemberInfo_isSome (info : MemberInfo) (transportKey nonce : Buffer) :
    (encodeMemberInfo C info transportKey nonce).isSome := by
  obtain ⟨⟨header, payload⟩, h⟩ := Option.isSome_iff_exists.mp (memberInfoParts_isSome info)
  rw [encodeMemberInfo, h]
  simp only [Option.bind_eq_bind, Option.bind_some]
  split <;> rfl

/-! ### NACK -/

/-- The loop of `ParseNack` over the gap list. -/
def readSeqs (buf : Buffer) : ℕ → ℕ → Option (List ℕ)
  | _, 0 => some []
  | off, count + 1 => do
    let seq ← (slice buf off (off + 3)).bind uint24
    let seqs ← readSeqs buf (off + 3) count
    some (seq :: seqs)

def parseNack (buf : Buffer) : Option (Option NackDart) :=
  if buf.length < 21 then some none
  else do
    let count ← (slice buf 19 21).bind uint16
    if buf.length < DartProtocol.Codec.nackPrefixLen count then some none
    else
      let missingSeq ← readSeqs buf 21 count
      let type ← index buf 0
      let convId ← (slice buf 1 3).bind uint16
      let senderId ← (slice buf 3 5).bind uint16
      let targetId ← (slice buf 5 7).bind uint16
      some (some { type, convId, senderId, targetId, missingSeq })

theorem readSeqs_isSome {buf : Buffer} {count : ℕ} :
    ∀ {off : ℕ}, off + 3 * count ≤ buf.length → (readSeqs buf off count).isSome := by
  induction count with
  | zero => exact fun _ => rfl
  | succ count ih =>
    intro off h
    obtain ⟨seq, hseq⟩ :=
      Option.isSome_iff_exists.mp (uint24_slice_isSome (by omega : off + 3 ≤ buf.length))
    obtain ⟨seqs, hseqs⟩ := Option.isSome_iff_exists.mp (ih (by omega : off + 3 + 3 * count ≤ _))
    rw [readSeqs]
    simp [hseq, hseqs]

theorem parseNack_isSome (buf : Buffer) : (parseNack buf).isSome := by
  rw [parseNack]
  by_cases h : buf.length < 21
  · rw [if_pos h]
    rfl
  rw [if_neg h]
  obtain ⟨count, h₁⟩ := Option.isSome_iff_exists.mp
    (uint16_slice_isSome_iff.mpr (by omega : 19 + 2 ≤ buf.length))
  have h₁' : (slice buf 19 21).bind uint16 = some count := h₁
  rw [h₁']
  by_cases hlen : buf.length < DartProtocol.Codec.nackPrefixLen count
  · simp [hlen]
  rw [DartProtocol.Codec.nackPrefixLen] at hlen
  obtain ⟨seqs, h₂⟩ := Option.isSome_iff_exists.mp
    (readSeqs_isSome (by omega : 21 + 3 * count ≤ buf.length))
  obtain ⟨type, h₃⟩ := Option.isSome_iff_exists.mp (index_isSome_iff.mpr (by omega : 0 < buf.length))
  obtain ⟨convId, h₄⟩ := Option.isSome_iff_exists.mp
    (uint16_slice_isSome_iff.mpr (by omega : 1 + 2 ≤ buf.length))
  obtain ⟨senderId, h₅⟩ := Option.isSome_iff_exists.mp
    (uint16_slice_isSome_iff.mpr (by omega : 3 + 2 ≤ buf.length))
  obtain ⟨targetId, h₆⟩ := Option.isSome_iff_exists.mp
    (uint16_slice_isSome_iff.mpr (by omega : 5 + 2 ≤ buf.length))
  simp [DartProtocol.Codec.nackPrefixLen, hlen, h₂, h₃, h₄, h₅, h₆]

/-- The loop of `EncodeNack` over the gap list. -/
def writeSeqs (header : Buffer) : ℕ → List ℕ → Option Buffer
  | _, [] => some header
  | off, seq :: seqs => do
    let header ← putUint24 header off (off + 3) seq
    writeSeqs header (off + 3) seqs

def encodeNack (c : Codec) (nack : NackDart) (nonce : Buffer) : Option (Option Buffer) :=
  tryOk (getConvKey c nack.convId) fun convKey => do
    let header := (Buffer.alloc (DartProtocol.Codec.nackPrefixLen nack.missingSeq.length)).set 0
      (UInt8.ofNat nack.type)
    let header ← putUint16 header 1 3 nack.convId
    let header ← putUint16 header 3 5 nack.senderId
    let header ← putUint16 header 5 7 nack.targetId
    let header ← copyInto header 7 19 nonce
    let header ← putUint16 header 19 21 nack.missingSeq.length
    let header ← writeSeqs header 21 nack.missingSeq
    sealedFrame C A convKey nonce header []

def decodeNack (c : Codec) (buf : Buffer) : Option (Option NackDart) :=
  tryOk (parseNack buf) fun nack =>
    let headerLen := DartProtocol.Codec.nackPrefixLen nack.missingSeq.length
    if buf.length < headerLen + 16 then some none
    else do
      let header ← slice buf 0 headerLen
      let nonce ← slice header 7 19
      let tag ← slice buf headerLen buf.length
      tryOk (getConvKey c nack.convId) fun convKey =>
        tryOk (aesOpen C A convKey nonce header tag) fun _ => some (some nack)

/-! ### SYNC -/

def encodeSync (c : Codec) (sync : SyncDart) (nonce : Buffer) : Option (Option Buffer) :=
  tryOk (getConvKey c sync.convId) fun convKey => do
    let header := (Buffer.alloc 17).set 0 (UInt8.ofNat sync.type)
    let header ← putUint16 header 1 3 sync.convId
    let header ← putUint16 header 3 5 sync.senderId
    let header ← copyInto header 5 header.length nonce
    let payload ← putUint24 (Buffer.alloc 3) 0 3 sync.highestSeq
    sealedFrame C A convKey nonce header payload

def decodeSync (c : Codec) (buf : Buffer) : Option (Option SyncDart) :=
  if buf.length < 17 then some none
  else do
    let type ← index buf 0
    let convId ← (slice buf 1 3).bind uint16
    let senderId ← (slice buf 3 5).bind uint16
    let header ← slice buf 0 17
    let nonce ← slice buf 5 17
    let encrypted ← slice buf 17 buf.length
    tryOk (getConvKey c convId) fun convKey =>
      tryOk (aesOpen C A convKey nonce header encrypted) fun payload =>
        if payload.length < 3 then some none
        else do
          let highestSeq ← (slice payload 0 3).bind uint24
          some (some { type, convId, senderId, highestSeq })

/-! ### Dict-Reset and ACK -/

def encodeDictReset (c : Codec) (reset : DictResetDart) (nonce : Buffer) : Option (Option Buffer) :=
  tryOk (getConvKey c reset.convId) fun convKey => do
    let header := (Buffer.alloc 19).set 0 (UInt8.ofNat reset.type)
    let header ← putUint16 header 1 3 reset.convId
    let header ← putUint16 header 3 5 reset.senderId
    let header ← putUint16 header 5 7 reset.targetId
    let header ← copyInto header 7 header.length nonce
    sealedFrame C A convKey nonce header []

def decodeDictReset (c : Codec) (buf : Buffer) : Option (Option DictResetDart) :=
  if buf.length < 19 then some none
  else do
    let type ← index buf 0
    let convId ← (slice buf 1 3).bind uint16
    let senderId ← (slice buf 3 5).bind uint16
    let targetId ← (slice buf 5 7).bind uint16
    let header ← slice buf 0 19
    let nonce ← slice buf 7 19
    let tag ← slice buf 19 buf.length
    tryOk (getConvKey c convId) fun convKey =>
      tryOk (aesOpen C A convKey nonce header tag) fun _ =>
        some (some { type, convId, senderId, targetId })

def encodeAck (c : Codec) (ack : AckDart) (nonce : Buffer) : Option (Option Buffer) :=
  tryOk (getConvKey c ack.convId) fun convKey => do
    let header := (Buffer.alloc 22).set 0 (UInt8.ofNat ack.type)
    let header ← putUint16 header 1 3 ack.convId
    let header ← putUint16 header 3 5 ack.senderId
    let header ← putUint16 header 5 7 ack.targetId
    let header ← putUint24 header 7 10 ack.seq
    let header ← copyInto header 10 header.length nonce
    sealedFrame C A convKey nonce header []

def decodeAck (c : Codec) (buf : Buffer) : Option (Option AckDart) :=
  if buf.length < 22 then some none
  else do
    let type ← index buf 0
    let convId ← (slice buf 1 3).bind uint16
    let senderId ← (slice buf 3 5).bind uint16
    let targetId ← (slice buf 5 7).bind uint16
    let seq ← (slice buf 7 10).bind uint24
    let header ← slice buf 0 22
    let nonce ← slice buf 10 22
    let tag ← slice buf 22 buf.length
    tryOk (getConvKey c convId) fun convKey =>
      tryOk (aesOpen C A convKey nonce header tag) fun _ =>
        some (some { type, convId, senderId, targetId, seq })

/-! ### Control-frame authentication -/

/-- The HMAC of a frame, and what it covers. -/
def stripControlFrame (frame : Buffer) : Option (Option Buffer) :=
  if frame.length < CTRL_MAC_LEN then some none
  else (slice frame 0 (frame.length - CTRL_MAC_LEN)).map some

def verifyControlFrame (frame key : Buffer) : Option (Option Buffer) :=
  if frame.length < CTRL_MAC_LEN then some none
  else do
    let payload ← slice frame 0 (frame.length - CTRL_MAC_LEN)
    let mac ← slice frame (frame.length - CTRL_MAC_LEN) frame.length
    if C.hmac key payload = mac then some (some payload) else some none

theorem stripControlFrame_isSome (frame : Buffer) : (stripControlFrame frame).isSome := by
  rw [stripControlFrame]
  split
  · rfl
  · obtain ⟨payload, h, -⟩ := slice_of_le (b := frame) (Nat.zero_le (frame.length - CTRL_MAC_LEN))
      (by omega)
    rw [h]
    rfl

theorem verifyControlFrame_isSome (frame key : Buffer) :
    (verifyControlFrame C frame key).isSome := by
  rw [verifyControlFrame]
  split
  · rfl
  · obtain ⟨payload, h₁, -⟩ := slice_of_le (b := frame)
      (Nat.zero_le (frame.length - CTRL_MAC_LEN)) (by omega)
    obtain ⟨mac, h₂, -⟩ := slice_of_le (b := frame)
      (by omega : frame.length - CTRL_MAC_LEN ≤ frame.length) (le_refl _)
    simp only [h₁, h₂, Option.bind_eq_bind, Option.bind_some]
    split <;> rfl

end DartProtocol.GoCodec
