import DartProtocol.Core

/-!
# Key-exchange frames on the wire

KeyReq, KEY_SHARE, CHAIN_SHARE and MEMBER_INFO of `src/core.ts`.  Shares travel from member to
member under a transport key of the pair; MEMBER_INFO travels from the server to one member, with
the server's public key in clear so that the member can derive the transport key first.

* `encodeMemberInfo_isSome_iff` — a roster frame can be built exactly when the number of its entries
  fits the count field.
-/

namespace DartProtocol.Codec

variable (C : Crypto)

/-! ### KeyReq -/

def encodeKeyReq (req : KeyReqDart) : Option Buffer := do
  let header ← (Buffer.alloc 5).writeUInt8 req.type 0
  let header ← header.writeUInt16BE req.convId 1
  let header ← header.writeUInt16BE req.senderId 3
  some (Buffer.concat [header, req.reqNonce, req.clientPubKey])

def decodeKeyReq (buf : Buffer) : Option KeyReqDart := do
  let type ← buf.readUInt8 0
  let convId ← buf.readUInt16BE 1
  let senderId ← buf.readUInt16BE 3
  let reqNonce := buf.subarray 5 21
  let clientPubKey := buf.subarrayFrom 21
  some { type, convId, senderId, reqNonce, clientPubKey }

/-- One byte as two lower-case hexadecimal digits. -/
def hexByte (b : UInt8) : List Char := [Nat.digitChar (b.toNat / 16), Nat.digitChar (b.toNat % 16)]

/-- SHA-256 of the server's public key in hexadecimal. -/
def serverFingerprint (serverPubKey : Buffer) : String :=
  String.ofList ((C.sha256 serverPubKey).flatMap hexByte)

/-! ### KEY_SHARE -/

def encodeKeyShare (share : KeyShareDart) (transportKey : Buffer) : Option Buffer := do
  let header ← (Buffer.alloc 21).writeUInt8 share.type 0
  let header ← header.writeUInt16BE share.convId 1
  let header ← header.writeUInt16BE share.senderId 3
  let header ← header.writeUInt16BE share.targetId 5
  let header ← header.writeUInt16BE share.epoch 7
  let header := share.nonce.copy header 9
  let (encrypted, tag) ← C.cipher transportKey share.nonce header share.encryptedKey
  some (Buffer.concat [header, Buffer.concat [encrypted, tag]])

/-- The epoch and group key of a share. -/
def decodeKeyShare (buf transportKey : Buffer) : Option (ℕ × Buffer) := do
  if buf.length < 21 + 48 then none
  else
    let epoch ← buf.readUInt16BE 7
    let header := buf.subarray 0 21
    let nonce := header.subarrayFrom 9
    let encryptedKey := buf.subarray 21 ((buf.length : ℤ) - 16)
    let tag := buf.subarrayFrom ((buf.length : ℤ) - 16)
    let groupKey ← C.decipher transportKey nonce header encryptedKey tag
    some (epoch, groupKey)

/-! ### CHAIN_SHARE -/

def encodeChainShare (share : ChainShareDart) (transportKey : Buffer) : Option Buffer := do
  let header ← (Buffer.alloc 21).writeUInt8 share.type 0
  let header ← header.writeUInt16BE share.convId 1
  let header ← header.writeUInt16BE share.senderId 3
  let header ← header.writeUInt16BE share.targetId 5
  let header ← header.writeUInt16BE share.epoch 7
  let header := share.nonce.copy header 9
  let payload := share.chainKey.copy (Buffer.alloc 36) 0
  let payload ← payload.writeUInt32BE (share.chainIndex % 2 ^ 32) 32
  let (encrypted, tag) ← C.cipher transportKey share.nonce header payload
  some (Buffer.concat [header, Buffer.concat [encrypted, tag]])

def decodeChainShare (buf transportKey : Buffer) : Option ChainShareDart := do
  if buf.length < 21 + 36 + 16 then none
  else
    let type ← buf.readUInt8 0
    let convId ← buf.readUInt16BE 1
    let senderId ← buf.readUInt16BE 3
    let targetId ← buf.readUInt16BE 5
    let epoch ← buf.readUInt16BE 7
    let header := buf.subarray 0 21
    let nonce := header.subarrayFrom 9
    let encrypted := buf.subarray 21 ((buf.length : ℤ) - 16)
    let tag := buf.subarrayFrom ((buf.length : ℤ) - 16)
    let payload ← C.decipher transportKey nonce header encrypted tag
    let chainIndex ← payload.readUInt32BE 32
    some { type, convId, senderId, targetId, epoch, nonce,
           chainKey := payload.subarray 0 32, chainIndex }

/-! ### What is sealed in a share -/

/-- What the body of a share decrypts to: the nonce ends the header, the tag ends the frame. -/
def openShare (buf transportKey : Buffer) : Option Buffer :=
  C.decipher transportKey ((buf.subarray 0 21).subarrayFrom 9) (buf.subarray 0 21)
    (buf.subarray 21 ((buf.length : ℤ) - 16)) (buf.subarrayFrom ((buf.length : ℤ) - 16))

variable {C}

variable {transportKey : Buffer}

/-- A body that was encrypted under the transport key decrypts under it. -/
theorem openShare_sealed (hC : C.Lawful) {header nonce plain encrypted tag : Buffer}
    (hheader : header.length = 21) (hnonce : header.drop 9 = nonce)
    (hsealed : C.cipher transportKey nonce header plain = some (encrypted, tag)) :
    openShare C (Buffer.concat [header, Buffer.concat [encrypted, tag]]) transportKey
      = some plain := by
  have hkey : transportKey.length = 32 := by
    by_contra hne
    rw [Crypto.cipher, if_neg hne] at hsealed
    cases hsealed
  rw [Crypto.cipher, if_pos hkey, Option.some.injEq] at hsealed
  have hlaw := hC.decrypt_encrypt transportKey nonce header plain
    (by rw [← hnonce, List.length_drop, hheader])
  have htag := hC.tag_length transportKey nonce header plain
  rw [hsealed] at hlaw htag
  simp only at hlaw htag
  have hbuf : Buffer.concat [header, Buffer.concat [encrypted, tag]]
      = header ++ (encrypted ++ tag) := by
    simp [Buffer.concat]
  rw [hbuf, openShare, show ((header ++ (encrypted ++ tag)).length : ℤ) - 16
    = ((21 + encrypted.length : ℕ) : ℤ) by simp [hheader, htag]; omega]
  have h₁ : Buffer.subarray (header ++ (encrypted ++ tag)) 0 21 = header :=
    Buffer.subarray_append (p := []) (s := 0) (e := 21) rfl (by omega)
  have h₂ : Buffer.subarray (header ++ (encrypted ++ tag)) 21 ((21 + encrypted.length : ℕ) : ℤ)
      = encrypted := Buffer.subarray_append (s := 21) hheader rfl
  have h₃ : Buffer.subarrayFrom (header ++ (encrypted ++ tag)) ((21 + encrypted.length : ℕ) : ℤ)
      = tag := by
    rw [← List.append_assoc]
    exact Buffer.subarrayFrom_append (by rw [List.length_append, hheader])
  have h₄ : Buffer.subarrayFrom header 9 = nonce := by
    rw [← hnonce]
    exact Buffer.subarrayFrom_of_le (s := 9) (by omega)
  rw [h₁, h₂, h₃, h₄, Crypto.decipher, if_pos hkey]
  exact hlaw

theorem shareHeader {b₁ b₂ b₃ b₄ b₅ nonce : Buffer} {type convId senderId targetId epoch : ℕ}
    (h₁ : (Buffer.alloc 21).writeUInt8 type 0 = some b₁) (h₂ : b₁.writeUInt16BE convId 1 = some b₂)
    (h₃ : b₂.writeUInt16BE senderId 3 = some b₃) (h₄ : b₃.writeUInt16BE targetId 5 = some b₄)
    (h₅ : b₄.writeUInt16BE epoch 7 = some b₅) (hnonce : nonce.length = 12) :
    (nonce.copy b₅ 9).length = 21 ∧ (nonce.copy b₅ 9).drop 9 = nonce := by
  have hlen : b₅.length = 21 := by
    rw [Buffer.length_of_writeUIntBE h₅, Buffer.length_of_writeUIntBE h₄,
      Buffer.length_of_writeUIntBE h₃, Buffer.length_of_writeUIntBE h₂,
      Buffer.length_of_writeUIntBE h₁]
    rfl
  refine ⟨by rw [Buffer.length_copy (by omega), hlen], ?_⟩
  rw [Buffer.copy, hnonce, hlen, List.drop_eq_nil_of_le (by omega : b₅.length ≤ 9 + 12),
    List.append_nil, List.drop_append, List.length_take, hlen,
    List.drop_eq_nil_of_le (by simp), List.nil_append]
  simp [List.take_of_length_le (le_of_eq hnonce)]

/-- **A group-key share opens under its transport key.** -/
theorem openShare_of_encodeKeyShare (hC : C.Lawful) {share : KeyShareDart} {buf : Buffer}
    (hnonce : share.nonce.length = 12) (h : encodeKeyShare C share transportKey = some buf) :
    openShare C buf transportKey = some share.encryptedKey := by
  simp only [encodeKeyShare, Option.bind_eq_bind, Option.bind_eq_some_iff] at h
  obtain ⟨b₁, h₁, b₂, h₂, b₃, h₃, b₄, h₄, b₅, h₅, ⟨encrypted, tag⟩, hsealed, hbuf⟩ := h
  obtain ⟨hlen, hdrop⟩ := shareHeader h₁ h₂ h₃ h₄ h₅ hnonce
  rw [← Option.some.inj hbuf]
  exact openShare_sealed hC hlen hdrop hsealed

/-- **A chain share opens under its transport key.** -/
theorem openShare_of_encodeChainShare (hC : C.Lawful) {share : ChainShareDart}
    {buf : Buffer} (hnonce : share.nonce.length = 12)
    (h : encodeChainShare C share transportKey = some buf) :
    (openShare C buf transportKey).isSome := by
  simp only [encodeChainShare, Option.bind_eq_bind, Option.bind_eq_some_iff] at h
  obtain ⟨b₁, h₁, b₂, h₂, b₃, h₃, b₄, h₄, b₅, h₅, payload, -, ⟨encrypted, tag⟩, hsealed, hbuf⟩ := h
  obtain ⟨hlen, hdrop⟩ := shareHeader h₁ h₂ h₃ h₄ h₅ hnonce
  rw [← Option.some.inj hbuf, openShare_sealed hC hlen hdrop hsealed]
  rfl

variable (C)

/-! ### MEMBER_INFO -/

/-- Bytes of one roster entry: sender id and public key. -/
def rosterEntryLen : ℕ := 67

/-- Write the roster entries from `offset` on.  A public key is copied as far as the buffer goes,
so one of unexpected length reaches into the entries behind it. -/
def writeMembers (payload : Buffer) : ℕ → List RosterEntry → Option Buffer
  | _, [] => some payload
  | offset, m :: ms => do
    let payload ← payload.writeUInt16BE m.senderId offset
    let payload := m.pubKey.copy payload (offset + 2)
    writeMembers payload (offset + rosterEntryLen) ms

/-- Read `count` roster entries from `offset` on. -/
def readMembers (payload : Buffer) : ℕ → ℕ → Option (List RosterEntry)
  | _, 0 => some []
  | offset, count + 1 => do
    let senderId ← payload.readUInt16BE offset
    let pubKey := payload.subarray ((offset + 2 : ℕ) : ℤ) ((offset + rosterEntryLen : ℕ) : ℤ)
    let rest ← readMembers payload (offset + rosterEntryLen) count
    some (⟨senderId, pubKey⟩ :: rest)

def encodeMemberInfo (info : MemberInfo) (transportKey nonce : Buffer) : Option Buffer := do
  let header ← (Buffer.alloc 5).writeUInt8 info.type 0
  let header ← header.writeUInt16BE info.convId 1
  let header ← header.writeUInt16BE info.senderId 3
  let payload := Buffer.alloc (1 + 2 + info.members.length * rosterEntryLen)
  let payload ← payload.writeUInt8 (if info.creator then 1 else 0) 0
  let payload ← payload.writeUInt16BE info.members.length 1
  let payload ← writeMembers payload 3 info.members
  let aad := Buffer.concat [header, info.serverPubKey, nonce]
  let (encrypted, tag) ← C.cipher transportKey nonce aad payload
  some (Buffer.concat [header, info.serverPubKey, nonce, Buffer.concat [encrypted, tag]])

/-- Entries with ids that fit can be written into a buffer that has room for them. -/
theorem exists_writeMembers (ms : List RosterEntry) :
    ∀ {payload : Buffer} {offset : ℕ}, (∀ m ∈ ms, m.senderId < 65536) →
      offset + ms.length * rosterEntryLen ≤ payload.length →
      ∃ written, writeMembers payload offset ms = some written := by
  induction ms with
  | nil => exact fun _ _ => ⟨_, rfl⟩
  | cons m ms ih =>
    intro payload offset hids hroom
    rw [List.length_cons, rosterEntryLen] at hroom
    have hid : m.senderId < 256 ^ 2 := hids m List.mem_cons_self
    obtain ⟨p, hp, hlen⟩ :=
      Buffer.exists_writeUIntBE (n := 2) hid (by omega : offset + 2 ≤ payload.length)
    rw [writeMembers, Buffer.writeUInt16BE, hp]
    apply ih (fun m' h => hids m' (List.mem_cons_of_mem _ h))
    rw [Buffer.length_copy (by omega), hlen, rosterEntryLen]
    omega

/-- **Only the count can fail.**  With ids that fit and a proper key, a roster frame can be built
exactly when the number of entries fits its two-byte field. -/
theorem encodeMemberInfo_isSome_iff {info : MemberInfo} (nonce : Buffer)
    (htype : info.type < 256) (hconv : info.convId < 65536) (hsender : info.senderId < 65536)
    (hids : ∀ m ∈ info.members, m.senderId < 65536) (hkey : transportKey.length = 32) :
    (encodeMemberInfo C info transportKey nonce).isSome ↔ info.members.length < 65536 := by
  obtain ⟨h₁, e₁, l₁⟩ :=
    Buffer.exists_writeUIntBE (n := 1) htype (by decide : 0 + 1 ≤ (Buffer.alloc 5).length)
  obtain ⟨h₂, e₂, l₂⟩ :=
    Buffer.exists_writeUIntBE (n := 2) hconv (by rw [l₁]; decide : 1 + 2 ≤ h₁.length)
  obtain ⟨h₃, e₃, -⟩ :=
    Buffer.exists_writeUIntBE (n := 2) hsender (by rw [l₂, l₁]; decide : 3 + 2 ≤ h₂.length)
  have hroom : (Buffer.alloc (1 + 2 + info.members.length * rosterEntryLen)).length
      = 3 + info.members.length * rosterEntryLen := by
    rw [Buffer.alloc, List.length_replicate]
  have hflag : (if info.creator then 1 else 0) < 256 ^ 1 := by split <;> decide
  obtain ⟨p₁, f₁, m₁⟩ := Buffer.exists_writeUIntBE (n := 1) hflag
    (by rw [hroom]; omega :
      0 + 1 ≤ (Buffer.alloc (1 + 2 + info.members.length * rosterEntryLen)).length)
  rw [encodeMemberInfo, Buffer.writeUInt8, e₁]
  simp only [Buffer.writeUInt16BE, Buffer.writeUInt8, Option.bind_eq_bind, Option.bind_some, e₂, e₃,
    f₁]
  constructor
  · intro h
    by_contra hcount
    rw [Buffer.writeUIntBE, if_neg (fun hc => hcount hc.1)] at h
    cases h
  · intro hcount
    obtain ⟨p₂, f₂, m₂⟩ := Buffer.exists_writeUIntBE (n := 2)
      (hcount : info.members.length < 256 ^ 2) (by rw [m₁, hroom]; omega : 1 + 2 ≤ p₁.length)
    have hfits : 3 + info.members.length * rosterEntryLen ≤ p₂.length := by rw [m₂, m₁, hroom]
    obtain ⟨p₃, f₃⟩ := exists_writeMembers info.members hids hfits
    rw [f₂, Option.bind_some, f₃, Option.bind_some, Crypto.cipher, if_pos hkey]
    rfl

/-- The server public key embedded in a MEMBER_INFO frame. -/
def memberInfoServerKey (buf : Buffer) : Option Buffer :=
  if buf.length < 70 then none else some (buf.subarray 5 70)

def decodeMemberInfo (buf transportKey : Buffer) : Option MemberInfo := do
  if buf.length < 5 + 65 + 12 + 16 then none
  else
    let type ← buf.readUInt8 0
    let convId ← buf.readUInt16BE 1
    let senderId ← buf.readUInt16BE 3
    let serverPubKey := buf.subarray 5 70
    let nonce := buf.subarray 70 82
    let encrypted := buf.subarrayFrom 82
    let header := buf.subarray 0 5
    let aad := Buffer.concat [header, serverPubKey, nonce]
    let tag := encrypted.subarrayFrom ((encrypted.length : ℤ) - 16)
    let payload ← C.decipher transportKey nonce aad
      (encrypted.subarray 0 ((encrypted.length : ℤ) - 16)) tag
    let creator ← payload.readUInt8 0
    let count ← payload.readUInt16BE 1
    let members ← readMembers payload 3 count
    some { type, convId, senderId, serverPubKey, creator := decide (creator = 1), members }

end DartProtocol.Codec
