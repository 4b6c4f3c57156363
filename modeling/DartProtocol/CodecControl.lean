import DartProtocol.Core

/-!
# Control frames on the wire

NACK, SYNC, Dict-Reset and ACK of `src/core.ts`.  All four carry a GCM tag under the group key with
the whole cleartext header as associated data; only SYNC has a ciphertext (three bytes).  The gap
list of a NACK is cleartext, so `parseNack` needs no key.
-/

namespace DartProtocol.Codec

variable (C : Crypto)

/-! ### NACK -/

def nackPrefixLen (missingCount : ℕ) : ℕ := 21 + missingCount * 3

/-- Read `count` 24-bit numbers from `off` on. -/
def readSeqs (buf : Buffer) : ℕ → ℕ → Option (List ℕ)
  | _, 0 => some []
  | off, count + 1 => do
    let seq ← buf.readUIntBE off 3
    let rest ← readSeqs buf (off + 3) count
    some (seq :: rest)

/-- Write 24-bit numbers from `off` on. -/
def writeSeqs (buf : Buffer) : ℕ → List ℕ → Option Buffer
  | _, [] => some buf
  | off, seq :: seqs => do
    let buf ← buf.writeUIntBE (seq % SEQ_MOD) off 3
    writeSeqs buf (off + 3) seqs

def parseNack (buf : Buffer) : Option NackDart := do
  if buf.length < 21 then none
  else
    let type ← buf.readUInt8 0
    let convId ← buf.readUInt16BE 1
    let senderId ← buf.readUInt16BE 3
    let targetId ← buf.readUInt16BE 5
    let count ← buf.readUInt16BE 19
    let headerLen := nackPrefixLen count
    if buf.length < headerLen then none
    else
      let missingSeq ← readSeqs buf 21 count
      some { type, convId, senderId, targetId, missingSeq }

def encodeNack (nack : NackDart) (convKey nonce : Buffer) : Option Buffer := do
  let count := nack.missingSeq.length
  let header ← (Buffer.alloc (nackPrefixLen count)).writeUInt8 nack.type 0
  let header ← header.writeUInt16BE nack.convId 1
  let header ← header.writeUInt16BE nack.senderId 3
  let header ← header.writeUInt16BE nack.targetId 5
  let header := nonce.copy header 7
  let header ← header.writeUInt16BE count 19
  let header ← writeSeqs header 21 nack.missingSeq
  let (_, tag) ← C.cipher convKey nonce header []
  some (Buffer.concat [header, tag])

def decodeNack (buf convKey : Buffer) : Option NackDart := do
  let nack ← parseNack buf
  let headerLen := nackPrefixLen nack.missingSeq.length
  if buf.length < headerLen + 16 then none
  else
    let header := buf.subarray 0 (headerLen : ℤ)
    let nonce := header.subarray 7 19
    let tag := buf.subarray (headerLen : ℤ) ((headerLen + 16 : ℕ) : ℤ)
    let _ ← C.decipher convKey nonce header [] tag
    some nack

variable {C}

variable {seqs : List ℕ}

theorem writeSeqs_length :
    ∀ {b b' : Buffer} {off : ℕ}, writeSeqs b off seqs = some b' → b'.length = b.length := by
  induction seqs with
  | nil =>
    intro b b' off h
    cases h
    rfl
  | cons seq seqs ih =>
    intro b b' off h
    simp only [writeSeqs, Option.bind_eq_bind, Option.bind_eq_some_iff] at h
    obtain ⟨b₁, h₁, h⟩ := h
    rw [ih h, Buffer.length_of_writeUIntBE h₁]

theorem readUIntBE_of_writeSeqs {off' n' : ℕ} :
    ∀ {b b' : Buffer} {off : ℕ}, writeSeqs b off seqs = some b' → off' + n' ≤ off →
      b'.readUIntBE off' n' = b.readUIntBE off' n' := by
  induction seqs with
  | nil =>
    intro b b' off h _
    cases h
    rfl
  | cons seq seqs ih =>
    intro b b' off h hle
    simp only [writeSeqs, Option.bind_eq_bind, Option.bind_eq_some_iff] at h
    obtain ⟨b₁, h₁, h⟩ := h
    rw [ih h (by omega), Buffer.readUIntBE_of_write_right h₁ hle]

theorem readSeqs_of_writeSeqs {b b' : Buffer} {off : ℕ} (h : writeSeqs b off seqs = some b') :
    readSeqs b' off seqs.length = some (seqs.map (· % SEQ_MOD)) := by
  induction seqs generalizing b off with
  | nil => rfl
  | cons seq seqs ih =>
    simp only [writeSeqs, Option.bind_eq_bind, Option.bind_eq_some_iff] at h
    obtain ⟨b₁, h₁, h⟩ := h
    rw [List.length_cons, readSeqs, readUIntBE_of_writeSeqs h (le_refl _),
      Buffer.readUIntBE_of_writeUIntBE h₁, ih h]
    rfl

theorem readSeqs_append_left {p q : Buffer} {count off : ℕ} (h : off + count * 3 ≤ p.length) :
    readSeqs (p ++ q) off count = readSeqs p off count := by
  induction count generalizing off with
  | zero => rfl
  | succ count ih =>
    rw [readSeqs, readSeqs, Buffer.readUIntBE_append_left (by omega), ih (by omega)]

/-- **A NACK parses back**, with its numbers modulo the sequence space. -/
theorem parseNack_encodeNack {nack : NackDart} {convKey nonce buf : Buffer}
    (h : encodeNack C nack convKey nonce = some buf) :
    parseNack buf = some { nack with missingSeq := nack.missingSeq.map (· % SEQ_MOD) } := by
  simp only [encodeNack, Option.bind_eq_bind, Option.bind_eq_some_iff] at h
  obtain ⟨b₁, h₁, b₂, h₂, b₃, h₃, b₄, h₄, b₅, h₅, b₆, h₆, ⟨_, tag⟩, -, hbuf⟩ := h
  have hlen₄ : b₄.length = nackPrefixLen nack.missingSeq.length := by
    rw [Buffer.length_of_writeUIntBE h₄, Buffer.length_of_writeUIntBE h₃,
      Buffer.length_of_writeUIntBE h₂, Buffer.length_of_writeUIntBE h₁, Buffer.alloc,
      List.length_replicate]
  have hroom : 21 ≤ b₄.length := by
    rw [hlen₄, nackPrefixLen]
    omega
  have hlen : b₆.length = nackPrefixLen nack.missingSeq.length := by
    rw [writeSeqs_length h₆, Buffer.length_of_writeUIntBE h₅, Buffer.length_copy (by omega), hlen₄]
  have hb : buf = b₆ ++ tag := by
    rw [← Option.some.inj hbuf, Buffer.concat]
    simp
  -- the header fields stand in front of the nonce
  have hfield : ∀ off n, off + n ≤ 7 → buf.readUIntBE off n = b₄.readUIntBE off n := by
    intro off n hle
    rw [hb, Buffer.readUIntBE_append_left (by rw [hlen, nackPrefixLen]; omega),
      readUIntBE_of_writeSeqs h₆ (by omega), Buffer.readUIntBE_of_write_right h₅ (by omega),
      Buffer.readUIntBE_copy_right (by omega) (by omega)]
  have htype : buf.readUInt8 0 = some nack.type := by
    rw [Buffer.readUInt8, hfield 0 1 (by omega), Buffer.readUIntBE_of_write_right h₄ (by omega),
      Buffer.readUIntBE_of_write_right h₃ (by omega), Buffer.readUIntBE_of_write_right h₂ (by omega),
      Buffer.readUIntBE_of_writeUIntBE h₁]
  have hconv : buf.readUInt16BE 1 = some nack.convId := by
    rw [Buffer.readUInt16BE, hfield 1 2 (by omega), Buffer.readUIntBE_of_write_right h₄ (by omega),
      Buffer.readUIntBE_of_write_right h₃ (by omega), Buffer.readUIntBE_of_writeUIntBE h₂]
  have hsender : buf.readUInt16BE 3 = some nack.senderId := by
    rw [Buffer.readUInt16BE, hfield 3 2 (by omega), Buffer.readUIntBE_of_write_right h₄ (by omega),
      Buffer.readUIntBE_of_writeUIntBE h₃]
  have htarget : buf.readUInt16BE 5 = some nack.targetId := by
    rw [Buffer.readUInt16BE, hfield 5 2 (by omega), Buffer.readUIntBE_of_writeUIntBE h₄]
  have hcount : buf.readUInt16BE 19 = some nack.missingSeq.length := by
    rw [Buffer.readUInt16BE, hb, Buffer.readUIntBE_append_left (by rw [hlen, nackPrefixLen]; omega),
      readUIntBE_of_writeSeqs h₆ (by omega), Buffer.readUIntBE_of_writeUIntBE h₅]
  have hseqs : readSeqs buf 21 nack.missingSeq.length
      = some (nack.missingSeq.map (· % SEQ_MOD)) := by
    rw [hb, readSeqs_append_left (by rw [hlen, nackPrefixLen]), readSeqs_of_writeSeqs h₆]
  have hlong : nackPrefixLen nack.missingSeq.length ≤ buf.length := by
    rw [hb, List.length_append, hlen]
    omega
  rw [parseNack, if_neg (by rw [nackPrefixLen] at hlong; omega), htype, hconv, hsender, htarget, hcount]
  simp only [Option.bind_eq_bind, Option.bind_some]
  rw [if_neg (by omega), hseqs]
  rfl

variable (C)

/-! ### SYNC -/

def encodeSync (sync : SyncDart) (convKey nonce : Buffer) : Option Buffer := do
  let header ← (Buffer.alloc 17).writeUInt8 sync.type 0
  let header ← header.writeUInt16BE sync.convId 1
  let header ← header.writeUInt16BE sync.senderId 3
  let header := nonce.copy header 5
  let payload ← (Buffer.alloc 3).writeUIntBE (sync.highestSeq % SEQ_MOD) 0 3
  let (encryptedPayload, tag) ← C.cipher convKey nonce header payload
  some (Buffer.concat [header, encryptedPayload, tag])

def decodeSync (buf convKey : Buffer) : Option SyncDart := do
  let type ← buf.readUInt8 0
  let convId ← buf.readUInt16BE 1
  let senderId ← buf.readUInt16BE 3
  let header := buf.subarray 0 17
  let nonce := header.subarrayFrom 5
  let encryptedPayload := buf.subarray 17 ((buf.length : ℤ) - 16)
  let tag := buf.subarrayFrom ((buf.length : ℤ) - 16)
  let payload ← C.decipher convKey nonce header encryptedPayload tag
  let highestSeq ← payload.readUIntBE 0 3
  some { type, convId, senderId, highestSeq }

/-! ### Dict-Reset -/

def encodeDictReset (reset : DictResetDart) (convKey nonce : Buffer) : Option Buffer := do
  let header ← (Buffer.alloc 19).writeUInt8 reset.type 0
  let header ← header.writeUInt16BE reset.convId 1
  let header ← header.writeUInt16BE reset.senderId 3
  let header ← header.writeUInt16BE reset.targetId 5
  let header := nonce.copy header 7
  let (_, tag) ← C.cipher convKey nonce header []
  some (Buffer.concat [header, tag])

def decodeDictReset (buf convKey : Buffer) : Option DictResetDart := do
  if buf.length < 19 then none
  else
    let type ← buf.readUInt8 0
    let convId ← buf.readUInt16BE 1
    let senderId ← buf.readUInt16BE 3
    let targetId ← buf.readUInt16BE 5
    let header := buf.subarray 0 19
    let nonce := header.subarrayFrom 7
    let encryptedPayload := buf.subarray 19 ((buf.length : ℤ) - 16)
    let tag := buf.subarrayFrom ((buf.length : ℤ) - 16)
    let _ ← C.decipher convKey nonce header encryptedPayload tag
    some { type, convId, senderId, targetId }

/-! ### ACK -/

def encodeAck (ack : AckDart) (convKey nonce : Buffer) : Option Buffer := do
  let header ← (Buffer.alloc 22).writeUInt8 ack.type 0
  let header ← header.writeUInt16BE ack.convId 1
  let header ← header.writeUInt16BE ack.senderId 3
  let header ← header.writeUInt16BE ack.targetId 5
  let header ← header.writeUIntBE (ack.seq % SEQ_MOD) 7 3
  let header := nonce.copy header 10
  let (_, tag) ← C.cipher convKey nonce header []
  some (Buffer.concat [header, tag])

def decodeAck (buf convKey : Buffer) : Option AckDart := do
  if buf.length < 22 then none
  else
    let type ← buf.readUInt8 0
    let convId ← buf.readUInt16BE 1
    let senderId ← buf.readUInt16BE 3
    let targetId ← buf.readUInt16BE 5
    let seq ← buf.readUIntBE 7 3
    let header := buf.subarray 0 22
    let nonce := header.subarrayFrom 10
    let encryptedPayload := buf.subarray 22 ((buf.length : ℤ) - 16)
    let tag := buf.subarrayFrom ((buf.length : ℤ) - 16)
    let _ ← C.decipher convKey nonce header encryptedPayload tag
    some { type, convId, senderId, targetId, seq }

variable {C}

end DartProtocol.Codec
