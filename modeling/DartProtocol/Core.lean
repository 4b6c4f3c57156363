import Mathlib.Data.Finset.Basic
import DartProtocol.ByteBuffer
import DartProtocol.SerialNumber

/-!
# The protocol core: sequence numbers, control-frame MACs and the sender ratchet

The shared vocabulary of client and server, translated from `src/core.ts`: frame types, the dart
records, 24-bit sequence arithmetic, the appended HMAC of control frames and the per-sender message
ratchet.  The cryptographic and compression libraries are the parameter `Crypto`; what the program
relies on is collected in `Crypto.Lawful` and assumed only where a result needs it.

Payloads are `String`, that is sequences of Unicode scalar values with their UTF-8 form.  A thrown
exception is `none`.
-/

namespace DartProtocol

/-! ### Frame types and constants -/

def TYPE_DATA : ℕ := 0x01
def TYPE_NACK : ℕ := 0x02
def TYPE_SYNC : ℕ := 0x03
def TYPE_KEY_REQ : ℕ := 0x04
def TYPE_KEY_SHARE : ℕ := 0x08
def TYPE_MEMBER_INFO : ℕ := 0x09
def TYPE_CHAIN_SHARE : ℕ := 0x0A
def TYPE_DICT_RESET : ℕ := 0x06
def TYPE_ACK : ℕ := 0x07

/-- Delta compression reaches back over this many messages of a sender. -/
def DICT_WINDOW : ℕ := 200

/-- Bytes of the dictionary fingerprint in the Data header. -/
def DICT_FP_LEN : ℕ := 4

/-- Sequence numbers live on a circle of `2^24`. -/
def SEQ_MOD : ℕ := 16777216

/-- Bytes of the HMAC appended to a control frame. -/
def CTRL_MAC_LEN : ℕ := 32

/-! ### Records -/

structure DataDart where
  type : ℕ
  convId : ℕ
  senderId : ℕ
  seq : ℕ
  payload : String
  deriving DecidableEq, Repr

structure NackDart where
  type : ℕ
  convId : ℕ
  senderId : ℕ
  targetId : ℕ
  missingSeq : List ℕ
  deriving DecidableEq, Repr

structure SyncDart where
  type : ℕ
  convId : ℕ
  senderId : ℕ
  highestSeq : ℕ
  deriving DecidableEq, Repr

structure KeyReqDart where
  type : ℕ
  convId : ℕ
  senderId : ℕ
  reqNonce : Buffer
  clientPubKey : Buffer
  deriving DecidableEq, Repr

structure KeyShareDart where
  type : ℕ
  convId : ℕ
  senderId : ℕ
  targetId : ℕ
  epoch : ℕ
  nonce : Buffer
  encryptedKey : Buffer
  deriving DecidableEq, Repr

structure RosterEntry where
  senderId : ℕ
  pubKey : Buffer
  deriving DecidableEq, Repr

structure MemberInfo where
  type : ℕ
  convId : ℕ
  senderId : ℕ
  serverPubKey : Buffer
  creator : Bool
  members : List RosterEntry
  deriving DecidableEq, Repr

structure DictResetDart where
  type : ℕ
  convId : ℕ
  senderId : ℕ
  targetId : ℕ
  deriving DecidableEq, Repr

structure AckDart where
  type : ℕ
  convId : ℕ
  senderId : ℕ
  targetId : ℕ
  seq : ℕ
  deriving DecidableEq, Repr

structure DecryptedData where
  type : ℕ
  convId : ℕ
  senderId : ℕ
  seq : ℕ
  compressed : Buffer
  dictFp : Buffer
  idx : ℕ
  deriving DecidableEq, Repr

/-- A ratchet chain: `key` is the chain key for the next message, number `index`. -/
structure ChainState where
  key : Buffer
  index : ℕ
  deriving DecidableEq, Repr

structure ChainShareDart where
  type : ℕ
  convId : ℕ
  senderId : ℕ
  targetId : ℕ
  epoch : ℕ
  nonce : Buffer
  chainKey : Buffer
  chainIndex : ℕ
  deriving DecidableEq, Repr

/-! ### The libraries the program calls -/

/-- Hashing, AES-256-GCM, ECDH on prime256v1 and raw deflate, as the program calls them. -/
structure Crypto where
  /-- `createHmac('sha256', key).update(data).digest()` -/
  hmac : Buffer → Buffer → Buffer
  /-- `createHash('sha256').update(data).digest()` -/
  sha256 : Buffer → Buffer
  /-- Ciphertext and tag for key, nonce, associated data and plaintext. -/
  gcmEncrypt : Buffer → Buffer → Buffer → Buffer → Buffer × Buffer
  /-- Plaintext for key, nonce, associated data, ciphertext and tag, when the tag verifies. -/
  gcmDecrypt : Buffer → Buffer → Buffer → Buffer → Buffer → Option Buffer
  /-- The public key of a private key. -/
  getPublicKey : Buffer → Buffer
  /-- The shared secret of a private and a public key; throws when the latter is no curve point. -/
  computeSecret : Buffer → Buffer → Option Buffer
  /-- `pako.deflateRaw(payload, { dictionary })` -/
  deflateRaw : Buffer → Buffer → Buffer
  /-- `pako.inflateRaw(data, { dictionary })` -/
  inflateRaw : Buffer → Buffer → Option Buffer

namespace Crypto

/-- `createCipheriv` refuses a key that is not 32 bytes long. -/
def cipher (C : Crypto) (key nonce aad plain : Buffer) : Option (Buffer × Buffer) :=
  if key.length = 32 then some (C.gcmEncrypt key nonce aad plain) else none

/-- `createDecipheriv` refuses a key that is not 32 bytes long; `final` throws on a bad tag. -/
def decipher (C : Crypto) (key nonce aad encrypted tag : Buffer) : Option Buffer :=
  if key.length = 32 then C.gcmDecrypt key nonce aad encrypted tag else none

/-- The documented behaviour of the libraries on honest inputs. -/
structure Lawful (C : Crypto) : Prop where
  hmac_length : ∀ key data, (C.hmac key data).length = 32
  sha256_length : ∀ data, (C.sha256 data).length = 32
  tag_length : ∀ key nonce aad plain, (C.gcmEncrypt key nonce aad plain).2.length = 16
  decrypt_encrypt : ∀ key nonce aad plain, nonce.length = 12 →
    C.gcmDecrypt key nonce aad (C.gcmEncrypt key nonce aad plain).1 (C.gcmEncrypt key nonce aad plain).2
      = some plain
  inflate_deflate : ∀ payload dict, C.inflateRaw (C.deflateRaw payload dict) dict = some payload

end Crypto

/-- A GCM ciphertext is as long as its plaintext. -/
def LengthPreserving (C : Crypto) : Prop :=
  ∀ key nonce aad plain, (C.gcmEncrypt key nonce aad plain).1.length = plain.length

variable (C : Crypto)

/-! ### Strings and falsy defaults -/

/-- `Buffer.from(s, 'utf-8')` -/
def utf8 (s : String) : Buffer := s.toUTF8.data.toList

/-- `map.get(k) || d`: a missing entry and the number zero both give the default. -/
def orDefault (o : Option ℕ) (d : ℕ) : ℕ :=
  match o with
  | none => d
  | some 0 => d
  | some (n + 1) => n + 1

/-! ### Fingerprint and sequence arithmetic -/

/-- First four bytes of SHA-256 of the dictionary. -/
def dictFingerprint (dict : Buffer) : Buffer := (C.sha256 dict).subarray 0 DICT_FP_LEN

/-- Steps from `src` to `dst` on the 24-bit circle. -/
def seqDelta (src dst : ℕ) : ℕ := SerialNumber.delta SEQ_MOD src dst

/-- The sequence number after `s`. -/
def seqNext (s : ℕ) : ℕ := (s + 1) % SEQ_MOD

/-! ### Control-frame authentication -/

/-- Byte comparison that looks at every position. -/
def safeEqual (a b : Buffer) : Bool :=
  if a.length ≠ b.length then false
  else (List.zipWith (fun x y => x ^^^ y) a b).foldl (fun diff x => diff ||| x) 0 == 0

/-- `SHA-256(ECDH(my private key, peer public key))`: the MAC key of a pair, and the transport key
of shares and rosters. -/
def pairwiseKey (privateKey peerPubKey : Buffer) : Option Buffer :=
  (C.computeSecret privateKey peerPubKey).map C.sha256

theorem pairwiseKey_length {C : Crypto} (hC : C.Lawful) {privateKey pub key : Buffer}
    (h : pairwiseKey C privateKey pub = some key) : key.length = 32 := by
  obtain ⟨secret, -, rfl⟩ := Option.map_eq_some_iff.mp h
  exact hC.sha256_length secret

def signControlFrame (frame key : Buffer) : Buffer := frame ++ C.hmac key frame

/-- Verify and strip the trailing HMAC; `none` is the source's `null`. -/
def verifyControlFrame (frame key : Buffer) : Option Buffer :=
  if frame.length < CTRL_MAC_LEN then none
  else
    let payload := frame.subarray 0 ((frame.length : ℤ) - CTRL_MAC_LEN)
    let mac := frame.subarrayFrom ((frame.length : ℤ) - CTRL_MAC_LEN)
    if safeEqual (C.hmac key payload) mac then some payload else none

/-- Strip the trailing HMAC unverified; `none` is the source's `null`. -/
def stripControlFrame (frame : Buffer) : Option Buffer :=
  if frame.length < CTRL_MAC_LEN then none
  else some (frame.subarray 0 ((frame.length : ℤ) - CTRL_MAC_LEN))

/-! ### The message ratchet -/

/-- The key of message `index` under a chain key. -/
def chainMessageKey (chainKey : Buffer) (index : ℕ) : Buffer :=
  C.hmac chainKey (utf8 "DartMsgKey" ++ Buffer.bytesBE 4 (index % 2 ^ 32))

/-- The chain key after one message. -/
def chainNextKey (chainKey : Buffer) : Buffer := C.hmac chainKey (utf8 "DartChainKey")

/-- `n` steps of the chain. -/
def chainSteps : ℕ → Buffer → Buffer
  | 0, key => key
  | n + 1, key => chainSteps n (chainNextKey C key)

/-- Advance the chain to `targetIndex`, skipping lost messages, and take its message key: the loop
runs while the index is below the target. -/
def advanceChain (state : ChainState) (targetIndex : ℕ) : Buffer × ChainState :=
  let steps := targetIndex - state.index
  let key := chainSteps C steps state.key
  let index := state.index + steps
  (chainMessageKey C key index, ⟨chainNextKey C key, index + 1⟩)

/-! ### Basic facts -/

theorem seqDelta_lt (a b : ℕ) : seqDelta a b < SEQ_MOD :=
  SerialNumber.delta_lt (by decide) a b

theorem seqNext_lt (s : ℕ) : seqNext s < SEQ_MOD := Nat.mod_lt _ (by decide)

/-- `seqDelta` on numbers below the modulus, in a form linear arithmetic can use. -/
theorem seqDelta_eq {a b : ℕ} (ha : a < SEQ_MOD) (hb : b < SEQ_MOD) :
    seqDelta a b = if a ≤ b then b - a else SEQ_MOD - (a - b) := by
  unfold seqDelta SerialNumber.delta SEQ_MOD at *
  split <;> omega

theorem orDefault_zero (o : Option ℕ) : orDefault o 0 = o.getD 0 := by
  rcases o with _ | _ | n <;> rfl

@[simp] theorem orDefault_none (d : ℕ) : orDefault none d = d := rfl

theorem orDefault_some_pos {n : ℕ} (d : ℕ) (h : n ≠ 0) : orDefault (some n) d = n := by
  cases n with
  | zero => exact absurd rfl h
  | succ n => rfl

theorem dictFingerprint_length {C : Crypto} (hC : C.Lawful) (dict : Buffer) :
    (dictFingerprint C dict).length = 4 := by
  have h : (C.sha256 dict).length = 32 := hC.sha256_length dict
  rw [dictFingerprint, show ((0 : ℤ)) = ((0 : ℕ) : ℤ) from rfl,
    Buffer.subarray_of_le (Nat.zero_le _) (by rw [h]; decide), List.length_take, List.drop_zero, h]
  rfl

theorem chainSteps_succ (n : ℕ) (key : Buffer) :
    chainSteps C (n + 1) key = chainNextKey C (chainSteps C n key) := by
  induction n generalizing key with
  | zero => rfl
  | succ n ih =>
    rw [chainSteps, ih]
    rfl

/-- Steps of the chain add up. -/
theorem chainSteps_add (m n : ℕ) (key : Buffer) :
    chainSteps C (m + n) key = chainSteps C n (chainSteps C m key) := by
  induction m generalizing key with
  | zero => rw [Nat.zero_add]; rfl
  | succ m ih =>
    rw [Nat.succ_add]
    exact ih (chainNextKey C key)

/-- **Skipping is harmless.**  A state behind the target yields the key of the target's position on
the same chain. -/
theorem advanceChain_of_le {st : ChainState} {t : ℕ} (h : st.index ≤ t) :
    advanceChain C st t
      = (chainMessageKey C (chainSteps C (t - st.index) st.key) t,
          ⟨chainSteps C (t - st.index + 1) st.key, t + 1⟩) := by
  have hidx : st.index + (t - st.index) = t := by omega
  simp only [advanceChain, hidx, chainSteps_succ]

end DartProtocol
