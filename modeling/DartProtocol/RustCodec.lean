import DartProtocol.CheckedSlice
import DartProtocol.ClientState
import DartProtocol.CodecControl

/-!
# The Rust codec

The frames of `rust/src/core/codec.rs` with the records of `mod.rs` and the cipher calls of
`crypto.rs`.  Indexing and slicing out of bounds panics, as does unwrapping an error.

* A function returns `Option (Option _)`: outside a panic, inside a returned error.
* Records carry no frame type: encoders write the constant, decoders do not look at it.
* A vector that grows is a concatenation; a zeroed one is filled through its sub-slices.
* A nonce is drawn by the caller.  Its type has twelve bytes; `copy_from_slice` would panic on any
  other length.
-/

namespace DartProtocol.RustCodec

open Slice

/-! ### Records -/

structure DataDart where
  convId : ℕ
  senderId : ℕ
  seq : ℕ
  payload : String
  deriving DecidableEq, Repr

structure DecryptedData where
  convId : ℕ
  senderId : ℕ
  seq : ℕ
  compressed : Buffer
  dictFp : Buffer
  epoch : ℕ
  idx : ℕ
  deriving DecidableEq, Repr

structure ChainShareDart where
  convId : ℕ
  senderId : ℕ
  targetId : ℕ
  epoch : ℕ
  nonce : Buffer
  chainKey : Buffer
  chainIndex : ℕ
  deriving DecidableEq, Repr

structure NackDart where
  convId : ℕ
  senderId : ℕ
  targetId : ℕ
  missingSeq : List ℕ
  deriving DecidableEq, Repr

structure SyncDart where
  convId : ℕ
  senderId : ℕ
  highestSeq : ℕ
  deriving DecidableEq, Repr

structure KeyReqDart where
  convId : ℕ
  senderId : ℕ
  reqNonce : Buffer
  clientPubKey : Buffer
  deriving DecidableEq, Repr

structure KeyShareDart where
  convId : ℕ
  senderId : ℕ
  targetId : ℕ
  epoch : ℕ
  nonce : Buffer
  encryptedKey : Buffer
  deriving DecidableEq, Repr

structure MemberInfo where
  convId : ℕ
  senderId : ℕ
  serverPubKey : Buffer
  creator : Bool
  members : List RosterEntry
  deriving DecidableEq, Repr

structure DictResetDart where
  convId : ℕ
  senderId : ℕ
  targetId : ℕ
  deriving DecidableEq, Repr

structure AckDart where
  convId : ℕ
  senderId : ℕ
  targetId : ℕ
  seq : ℕ
  deriving DecidableEq, Repr

/-- The group keys and epochs of a codec. -/
structure Codec where
  convKeys : NumMap Buffer := ∅
  currentEpochs : NumMap ℕ := ∅

variable (C : Crypto)

/-! ### Sealing and opening -/

/-- `encrypt_gcm`: only a key of 32 bytes survives the unwrap. -/
def encryptGcm (key iv plaintext aad : Buffer) : Option (Option Buffer) :=
  if key.length = 32 ∧ iv.length = 12 then
    let (encrypted, tag) := C.gcmEncrypt key iv aad plaintext
    some (some (encrypted ++ tag))
  else none

/-- `decrypt_gcm`: the tag is the end of the ciphertext. -/
def decryptGcm (key iv ciphertext aad : Buffer) : Option (Option Buffer) :=
  if key.length = 32 ∧ iv.length = 12 then
    if ciphertext.length < 16 then some none
    else some (C.gcmDecrypt key iv aad (ciphertext.take (ciphertext.length - 16))
      (ciphertext.drop (ciphertext.length - 16)))
  else none

/-- A cleartext header and what is sealed under it. -/
def sealedFrame (key nonce header plaintext : Buffer) : Option (Option Buffer) :=
  tryOk (encryptGcm C key nonce plaintext header) fun ciphertext => some (some (header ++ ciphertext))

def getConvKey (c : Codec) (convId : ℕ) : Option (Option Buffer) := some (c.convKeys.get convId)

/-! ### Data -/

/-- The epoch a dart is sent under: zero stands for the current one, and for `1` without a current
one. -/
def dataEpoch (c : Codec) (convId epoch : ℕ) : ℕ :=
  if epoch = 0 then (c.currentEpochs.get convId).getD 1 else epoch

/-- The header and extension of a Data dart. -/
def dataPrefix (dart : DataDart) (dict : Buffer) (idx epoch : ℕ) (nonce : Buffer) : Option Buffer := do
  let p := (Buffer.alloc (7 + 24)).set 0 (UInt8.ofNat TYPE_DATA)
  let p ← putUint16 p 1 3 dart.convId
  let p ← putUint24 p 3 6 dart.seq
  let p := p.set 6 (UInt8.ofNat 24)
  let p ← putUint16 p 7 9 dart.senderId
  let p ← copyFromSlice p 9 21 nonce
  let p ← putUint16 p 21 23 epoch
  let p ← copyFromSlice p 23 27 ((C.sha256 dict).take 4)
  putUint32 p 27 31 idx

/-- Encode a Data dart.  `deflate` is the compressor for payload and dictionary, which may refuse a
dictionary; its stream is cut off at the size of the buffer it is given. -/
def encodeData (deflate : Buffer → Buffer → Option Buffer) (c : Codec) (dart : DataDart)
    (dict messageKey : Buffer) (idx epoch : ℕ) (nonce : Buffer) : Option (Option Buffer) :=
  tryOk (some (deflate (utf8 dart.payload) dict)) fun stream => do
    let compressed := stream.take ((utf8 dart.payload).length + 1024)
    let p ← dataPrefix C dart dict idx (dataEpoch c dart.convId epoch) nonce
    sealedFrame C messageKey nonce p compressed

def decryptData (buf messageKey : Buffer) : Option (Option DecryptedData) :=
  if buf.length < 7 then some none
  else do
    let convId ← (slice buf 1 3).bind uint16
    let seq ← (slice buf 3 6).bind uint24
    let extLen ← index buf 6
    if buf.length < 7 + extLen + 16 then some none
    else
      let header ← slice buf 0 (7 + extLen)
      let senderId ← (slice header 7 9).bind uint16
      let nonce ← slice header 9 21
      let epoch ← (slice header 21 23).bind uint16
      let dictFp ← slice header 23 27
      let idx ← (slice header 27 31).bind uint32
      let encryptedWithTag ← slice buf (7 + extLen) buf.length
      tryOk (decryptGcm C messageKey nonce encryptedWithTag header) fun compressed =>
        some (some { convId, senderId, seq, compressed, dictFp, epoch, idx })

/-! ### NACK -/

/-- The loop of `parse_nack` over the gap list. -/
def readSeqs (buf : Buffer) : ℕ → ℕ → Option (List ℕ)
  | _, 0 => some []
  | off, count + 1 => do
    let seq ← (slice buf off (off + 3)).bind uint24
    let seqs ← readSeqs buf (off + 3) count
    some (seq :: seqs)

def parseNack (buf : Buffer) : Option (Option NackDart) :=
  if buf.length < 21 then some none
  else do
    let count ← (slice buf 19 21).bind uint16
    if buf.length < DartProtocol.Codec.nackPrefixLen count then some none
    else
      let missingSeq ← readSeqs buf 21 count
      let convId ← (slice buf 1 3).bind uint16
      let senderId ← (slice buf 3 5).bind uint16
      let targetId ← (slice buf 5 7).bind uint16
      some (some { convId, senderId, targetId, missingSeq })

/-- The loop of `encode_nack` over the gap list. -/
def writeSeqs (header : Buffer) : ℕ → List ℕ → Option Buffer
  | _, [] => some header
  | off, seq :: seqs => do
    let header ← putUint24 header off (off + 3) seq
    writeSeqs header (off + 3) seqs

def encodeNack (c : Codec) (nack : NackDart) (nonce : Buffer) : Option (Option Buffer) :=
  tryOk (getConvKey c nack.convId) fun convKey => do
    let header := (Buffer.alloc (DartProtocol.Codec.nackPrefixLen nack.missingSeq.length)).set 0
      (UInt8.ofNat TYPE_NACK)
    let header ← putUint16 header 1 3 nack.convId
    let header ← putUint16 header 3 5 nack.senderId
    let header ← putUint16 header 5 7 nack.targetId
    let header ← copyFromSlice header 7 19 nonce
    let header ← putUint16 header 19 21 nack.missingSeq.length
    let header ← writeSeqs header 21 nack.missingSeq
    sealedFrame C convKey nonce header []

def decodeNack (c : Codec) (buf : Buffer) : Option (Option NackDart) :=
  tryOk (parseNack buf) fun nack =>
    let headerLen := DartProtocol.Codec.nackPrefixLen nack.missingSeq.length
    if buf.length < headerLen + 16 then some none
    else do
      let header ← slice buf 0 headerLen
      let nonce ← slice header 7 19
      let tag ← slice buf headerLen buf.length
      tryOk (getConvKey c nack.convId) fun convKey =>
        tryOk (decryptGcm C convKey nonce tag header) fun _ => some (some nack)

/-! ### SYNC -/

def encodeSync (c : Codec) (sync : SyncDart) (nonce : Buffer) : Option (Option Buffer) :=
  tryOk (getConvKey c sync.convId) fun convKey => do
    let header := (Buffer.alloc 17).set 0 (UInt8.ofNat TYPE_SYNC)
    let header ← putUint16 header 1 3 sync.convId
    let header ← putUint16 header 3 5 sync.senderId
    let header ← copyFromSlice header 5 17 nonce
    let payload ← putUint24 (Buffer.alloc 3) 0 3 sync.highestSeq
    sealedFrame C convKey nonce header payload

def decodeSync (c : Codec) (buf : Buffer) : Option (Option SyncDart) :=
  if buf.length < 17 then some none
  else do
    let convId ← (slice buf 1 3).bind uint16
    let senderId ← (slice buf 3 5).bind uint16
    let header ← slice buf 0 17
    let nonce ← slice buf 5 17
    let encrypted ← slice buf 17 buf.length
    tryOk (getConvKey c convId) fun convKey =>
      tryOk (decryptGcm C convKey nonce encrypted header) fun payload =>
        if payload.length < 3 then some none
        else do
          let highestSeq ← (slice payload 0 3).bind uint24
          some (some { convId, senderId, highestSeq })

/-! ### KeyReq -/

def encodeKeyReq (req : KeyReqDart) : Option Buffer := do
  let res := (Buffer.alloc 5).set 0 (UInt8.ofNat TYPE_KEY_REQ)
  let res ← putUint16 res 1 3 req.convId
  let res ← putUint16 res 3 5 req.senderId
  some (res ++ req.reqNonce ++ req.clientPubKey)

def decodeKeyReq (buf : Buffer) : Option (Option KeyReqDart) :=
  if buf.length < 21 then some none
  else do
    let reqNonce ← slice buf 5 21
    let convId ← (slice buf 1 3).bind uint16
    let senderId ← (slice buf 3 5).bind uint16
    let clientPubKey ← slice buf 21 buf.length
    some (some { convId, senderId, reqNonce, clientPubKey })

/-! ### Shares -/

/-- The cleartext part of a share. -/
def shareHeader (type convId senderId targetId epoch : ℕ) (nonce : Buffer) : Option Buffer := do
  let header := (Buffer.alloc 21).set 0 (UInt8.ofNat type)
  let header ← putUint16 header 1 3 convId
  let header ← putUint16 header 3 5 senderId
  let header ← putUint16 header 5 7 targetId
  let header ← putUint16 header 7 9 epoch
  copyFromSlice header 9 header.length nonce

def encodeKeyShare (share : KeyShareDart) (transportKey : Buffer) : Option (Option Buffer) := do
  let header ←
    shareHeader TYPE_KEY_SHARE share.convId share.senderId share.targetId share.epoch share.nonce
  sealedFrame C transportKey share.nonce header share.encryptedKey

/-- The epoch and group key of a share. -/
def decodeKeyShare (buf transportKey : Buffer) : Option (Option (ℕ × Buffer)) :=
  if buf.length < 21 + 48 then some none
  else do
    let epoch ← (slice buf 7 9).bind uint16
    let header ← slice buf 0 21
    let nonce ← slice buf 9 21
    let encryptedWithTag ← slice buf 21 buf.length
    tryOk (decryptGcm C transportKey nonce encryptedWithTag header) fun groupKey =>
      some (some (epoch, groupKey))

def encodeChainShare (share : ChainShareDart) (transportKey : Buffer) : Option (Option Buffer) := do
  let header ←
    shareHeader TYPE_CHAIN_SHARE share.convId share.senderId share.targetId share.epoch share.nonce
  let payload := share.chainKey ++ Buffer.bytesBE 4 share.chainIndex
  sealedFrame C transportKey share.nonce header payload

def decodeChainShare (buf transportKey : Buffer) : Option (Option ChainShareDart) :=
  if buf.length < 21 + 36 + 16 then some none
  else do
    let convId ← (slice buf 1 3).bind uint16
    let senderId ← (slice buf 3 5).bind uint16
    let targetId ← (slice buf 5 7).bind uint16
    let epoch ← (slice buf 7 9).bind uint16
    let header ← slice buf 0 21
    let nonce ← slice buf 9 21
    let encryptedWithTag ← slice buf 21 buf.length
    tryOk (decryptGcm C transportKey nonce encryptedWithTag header) fun payload =>
      if payload.length < 36 then some none
      else do
        let chainKey ← slice payload 0 32
        let chainIndex ← (slice payload 32 36).bind uint32
        some (some { convId, senderId, targetId, epoch, nonce, chainKey, chainIndex })

/-! ### MEMBER_INFO -/

/-- A roster entry as it is appended: a public key keeps its length. -/
def memberBytes (m : RosterEntry) : Buffer := Buffer.bytesBE 2 m.senderId ++ m.pubKey

def encodeMemberInfo (info : MemberInfo) (transportKey nonce : Buffer) : Option (Option Buffer) := do
  let header := (Buffer.alloc 5).set 0 (UInt8.ofNat TYPE_MEMBER_INFO)
  let header ← putUint16 header 1 3 info.convId
  let header ← putUint16 header 3 5 info.senderId
  let payload := [if info.creator then 1 else 0] ++ Buffer.bytesBE 2 info.members.length
    ++ info.members.flatMap memberBytes
  sealedFrame C transportKey nonce (header ++ info.serverPubKey ++ nonce) payload

/-- The loop of `decode_member_info` over the roster.  It ends early at an entry that is cut off. -/
def readMembers (payload : Buffer) : ℕ → ℕ → Option (List RosterEntry)
  | _, 0 => some []
  | offset, count + 1 =>
    if payload.length < offset + 67 then some []
    else do
      let senderId ← (slice payload offset (offset + 2)).bind uint16
      let pubKey ← slice payload (offset + 2) (offset + 67)
      let members ← readMembers payload (offset + 67) count
      some (⟨senderId, pubKey⟩ :: members)

/-- What a decrypted roster says. -/
def readRoster (payload : Buffer) : Option (Option (Bool × List RosterEntry)) :=
  if payload.length < 3 then some none
  else do
    let creator ← index payload 0
    let count ← (slice payload 1 3).bind uint16
    let members ← readMembers payload 3 count
    some (some (decide (creator = 1), members))

def decodeMemberInfo (buf transportKey : Buffer) : Option (Option MemberInfo) :=
  if buf.length < 5 + 65 + 12 + 16 then some none
  else do
    let convId ← (slice buf 1 3).bind uint16
    let senderId ← (slice buf 3 5).bind uint16
    let serverPubKey ← slice buf 5 70
    let nonce ← slice buf 70 82
    let encrypted ← slice buf 82 buf.length
    let header ← slice buf 0 5
    tryOk (decryptGcm C transportKey nonce encrypted (header ++ serverPubKey ++ nonce)) fun payload =>
      tryOk (readRoster payload) fun (creator, members) =>
        some (some { convId, senderId, serverPubKey, creator, members })

/-! ### Dict-Reset and ACK -/

def encodeDictReset (c : Codec) (reset : DictResetDart) (nonce : Buffer) : Option (Option Buffer) :=
  tryOk (getConvKey c reset.convId) fun convKey => do
    let header := (Buffer.alloc 19).set 0 (UInt8.ofNat TYPE_DICT_RESET)
    let header ← putUint16 header 1 3 reset.convId
    let header ← putUint16 header 3 5 reset.senderId
    let header ← putUint16 header 5 7 reset.targetId
    let header ← copyFromSlice header 7 19 nonce
    sealedFrame C convKey nonce header []

def decodeDictReset (c : Codec) (buf : Buffer) : Option (Option DictResetDart) :=
  if buf.length < 19 then some none
  else do
    let convId ← (slice buf 1 3).bind uint16
    let senderId ← (slice buf 3 5).bind uint16
    let targetId ← (slice buf 5 7).bind uint16
    let header ← slice buf 0 19
    let nonce ← slice buf 7 19
    let tag ← slice buf 19 buf.length
    tryOk (getConvKey c convId) fun convKey =>
      tryOk (decryptGcm C convKey nonce tag header) fun _ =>
        some (some { convId, senderId, targetId })

def encodeAck (c : Codec) (ack : AckDart) (nonce : Buffer) : Option (Option Buffer) :=
  tryOk (getConvKey c ack.convId) fun convKey => do
    let header := (Buffer.alloc 22).set 0 (UInt8.ofNat TYPE_ACK)
    let header ← putUint16 header 1 3 ack.convId
    let header ← putUint16 header 3 5 ack.senderId
    let header ← putUint16 header 5 7 ack.targetId
    let header ← putUint24 header 7 10 ack.seq
    let header ← copyFromSlice header 10 22 nonce
    sealedFrame C convKey nonce header []

def decodeAck (c : Codec) (buf : Buffer) : Option (Option AckDart) :=
  if buf.length < 22 then some none
  else do
    let convId ← (slice buf 1 3).bind uint16
    let senderId ← (slice buf 3 5).bind uint16
    let targetId ← (slice buf 5 7).bind uint16
    let seq ← (slice buf 7 10).bind uint24
    let header ← slice buf 0 22
    let nonce ← slice buf 10 22
    let tag ← slice buf 22 buf.length
    tryOk (getConvKey c convId) fun convKey =>
      tryOk (decryptGcm C convKey nonce tag header) fun _ =>
        some (some { convId, senderId, targetId, seq })

end DartProtocol.RustCodec
