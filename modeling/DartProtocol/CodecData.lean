import DartProtocol.Core

/-!
# The Data dart on the wire

`encodeDataHelper`, `decryptData` and `inflateData` of `src/core.ts`.  A Data dart is a 7-byte
header, a 24-byte cleartext extension, and the deflated payload under AES-GCM, with header and
extension as associated data:

`type(1) | convId(2) | seq(3) | extLen(1) | senderId(2) | nonce(12) | epoch(2) | dictFp(4) | idx(4)`.

* `encodeDataHelper_eq` — when every field fits its width the encoder succeeds with exactly that
  concatenation, and it throws otherwise (`encodeDataHelper_fits`);
* `headerFields_of_encode` — what any reader of the frame finds at the fixed offsets;
* `decryptData_of_encode` — decrypting under the same message key returns the fields and
  the compressed bytes.
-/

namespace DartProtocol

variable (C : Crypto)

/-! ### UTF-8 text of a buffer -/

/-- State of the replacement decoder: continuation bytes still needed, the code point so far, and
the bounds for the next continuation byte. -/
structure Utf8State where
  needed : ℕ
  codePoint : ℕ
  lower : ℕ
  upper : ℕ

/-- The decoder between two characters. -/
def Utf8State.start : Utf8State := ⟨0, 0, 0x80, 0xBF⟩

/-- A byte in the start state: a character, the beginning of one, or an error. -/
def utf8Lead (b : ℕ) : Utf8State × List Char :=
  if b ≤ 0x7F then (.start, [Char.ofNat b])
  else if 0xC2 ≤ b ∧ b ≤ 0xDF then (⟨1, b % 0x20, 0x80, 0xBF⟩, [])
  else if 0xE0 ≤ b ∧ b ≤ 0xEF then
    (⟨2, b % 0x10, if b = 0xE0 then 0xA0 else 0x80, if b = 0xED then 0x9F else 0xBF⟩, [])
  else if 0xF0 ≤ b ∧ b ≤ 0xF4 then
    (⟨3, b % 0x08, if b = 0xF0 then 0x90 else 0x80, if b = 0xF4 then 0x8F else 0xBF⟩, [])
  else (.start, ['�'])

/-- Decode with replacement characters for malformed input. -/
def utf8Replace : Utf8State → Buffer → List Char
  | st, [] => if st.needed = 0 then [] else ['�']
  | st, byte :: rest =>
    let b := byte.toNat
    if st.needed = 0 then
      let r := utf8Lead b
      r.2 ++ utf8Replace r.1 rest
    else if b < st.lower ∨ st.upper < b then
      -- the sequence breaks off here; the byte is looked at again as a lead byte
      let r := utf8Lead b
      '�' :: (r.2 ++ utf8Replace r.1 rest)
    else
      let cp := st.codePoint * 0x40 + b % 0x40
      if st.needed = 1 then Char.ofNat cp :: utf8Replace .start rest
      else utf8Replace ⟨st.needed - 1, cp, 0x80, 0xBF⟩ rest

/-- `buffer.toString('utf-8')` -/
def utf8ToString (b : Buffer) : String :=
  if h : (ByteArray.mk ⟨b⟩).IsValidUTF8 then String.fromUTF8 _ h
  else String.ofList (utf8Replace .start b)

theorem utf8ToString_utf8 (s : String) : utf8ToString (utf8 s) = s := by
  have h : ByteArray.mk ⟨utf8 s⟩ = s.toUTF8 := rfl
  have hv : (ByteArray.mk ⟨utf8 s⟩).IsValidUTF8 := by
    rw [h]
    exact s.isValidUTF8
  rw [utf8ToString, dif_pos hv]
  rfl

/-! ### Encoder and decoder -/

namespace Codec

/-- Length of the header and the extension. -/
def dataPrefixLen : ℕ := 7 + 24

/-- Encode a Data dart.  The nonce is drawn by the caller. -/
def encodeDataHelper (dart : DataDart) (dict messageKey : Buffer) (idx epoch : ℕ)
    (nonce : Buffer) : Option Buffer := do
  let payload := utf8 dart.payload
  let compressed := C.deflateRaw payload dict
  let dictFp := dictFingerprint C dict
  let p ← (Buffer.alloc dataPrefixLen).writeUInt8 dart.type 0
  let p ← p.writeUInt16BE dart.convId 1
  let p ← p.writeUIntBE (dart.seq % SEQ_MOD) 3 3
  let p ← p.writeUInt8 24 6
  let p ← p.writeUInt16BE dart.senderId 7
  let p := nonce.copy p 9
  let p ← p.writeUInt16BE epoch 21
  let p := dictFp.copy p 23
  let p ← p.writeUInt32BE (idx % 2 ^ 32) 27
  let (encryptedPayload, tag) ← C.cipher messageKey nonce p compressed
  some (Buffer.concat [p, encryptedPayload, tag])

/-- First stage of decoding: verify and decrypt, without inflating. -/
def decryptData (buf messageKey : Buffer) : Option DecryptedData := do
  let type ← buf.readUInt8 0
  let convId ← buf.readUInt16BE 1
  let seq ← buf.readUIntBE 3 3
  let extLen ← buf.readUInt8 6
  let header := buf.subarray 0 ((7 + extLen : ℕ) : ℤ)
  let senderId ← header.readUInt16BE 7
  let nonce := header.subarray 9 ((9 + 12 : ℕ) : ℤ)
  let _epoch ← header.readUInt16BE 21
  let dictFp := header.subarray 23 ((23 + 4 : ℕ) : ℤ)
  let idx ← header.readUInt32BE 27
  let encryptedPayload := buf.subarray ((7 + extLen : ℕ) : ℤ) ((buf.length : ℤ) - 16)
  let tag := buf.subarrayFrom ((buf.length : ℤ) - 16)
  let compressed ← C.decipher messageKey nonce header encryptedPayload tag
  some { type, convId, senderId, seq, compressed, dictFp, idx }

/-- Second stage: inflate against the dictionary. -/
def inflateData (compressed dict : Buffer) : Option String :=
  (C.inflateRaw compressed dict).map utf8ToString

/-! ### The layout of an encoded dart -/

/-- The 31 bytes in front of the ciphertext. -/
def dataPrefix (dart : DataDart) (dict : Buffer) (idx epoch : ℕ) (nonce : Buffer) : Buffer :=
  Buffer.bytesBE 1 dart.type ++ (Buffer.bytesBE 2 dart.convId ++
    (Buffer.bytesBE 3 (dart.seq % SEQ_MOD) ++ (Buffer.bytesBE 1 24 ++
    (Buffer.bytesBE 2 dart.senderId ++ (nonce ++ (Buffer.bytesBE 2 epoch ++
    (dictFingerprint C dict ++ Buffer.bytesBE 4 (idx % 2 ^ 32))))))))

/-- Every field fits its width on the wire. -/
structure DataFits (dart : DataDart) (messageKey : Buffer) (epoch : ℕ) : Prop where
  type : dart.type < 256
  convId : dart.convId < 65536
  senderId : dart.senderId < 65536
  epoch : epoch < 65536
  key : messageKey.length = 32

variable {C}

variable {nonce dict messageKey buf : Buffer} {dart : DataDart} {idx epoch : ℕ}

theorem dataPrefix_length (hC : C.Lawful) (dart : DataDart) (dict : Buffer) (idx epoch : ℕ)
    (hn : nonce.length = 12) :
    (dataPrefix C dart dict idx epoch nonce).length = 31 := by
  simp [dataPrefix, hn, dictFingerprint_length hC]

/-- **The encoder is a concatenation.** -/
theorem encodeDataHelper_eq (hC : C.Lawful) (hn : nonce.length = 12)
    (hf : DataFits dart messageKey epoch) :
    encodeDataHelper C dart dict messageKey idx epoch nonce
      = some (dataPrefix C dart dict idx epoch nonce ++
          ((C.gcmEncrypt messageKey nonce (dataPrefix C dart dict idx epoch nonce)
              (C.deflateRaw (utf8 dart.payload) dict)).1 ++
            (C.gcmEncrypt messageKey nonce (dataPrefix C dart dict idx epoch nonce)
              (C.deflateRaw (utf8 dart.payload) dict)).2)) := by
  have hseq : dart.seq % SEQ_MOD < 256 ^ 3 := Nat.mod_lt _ (by decide)
  have hidx : idx % 2 ^ 32 < 256 ^ 4 := Nat.mod_lt _ (by decide)
  have hfp := dictFingerprint_length hC dict
  -- each write moves one field from the zeroed rest of the buffer to its written front
  rw [encodeDataHelper, dataPrefixLen, Buffer.writeUInt8, Buffer.writeUIntBE_first hf.type (by decide)]
  simp only [Option.bind_eq_bind, Option.bind_some, Buffer.writeUInt16BE, Buffer.writeUInt8,
    Buffer.writeUInt32BE]
  rw [Buffer.writeUIntBE_next hf.convId (by simp) (by decide), Option.bind_some,
    Buffer.writeUIntBE_next hseq (by simp) (by decide), Option.bind_some,
    Buffer.writeUIntBE_next (by decide) (by simp) (by decide), Option.bind_some,
    Buffer.writeUIntBE_next hf.senderId (by simp) (by decide), Option.bind_some,
    Buffer.copy_next (by simp) (by omega),
    Buffer.writeUIntBE_next hf.epoch (by simp [hn]) (by omega), Option.bind_some,
    Buffer.copy_next (by simp [hn]) (by omega),
    Buffer.writeUIntBE_next hidx (by simp [hn, hfp]) (by omega), Option.bind_some,
    Crypto.cipher, if_pos hf.key, Option.bind_some]
  simp [Buffer.concat, dataPrefix, Buffer.alloc, hn, hfp]

/-- What a reader of an encoded dart finds at the fixed offsets of the cleartext prefix. -/
structure HeaderFields (dart : DataDart) (idx epoch : ℕ) (buf : Buffer) : Prop where
  type : buf.readUInt8 0 = some dart.type
  convId : buf.readUInt16BE 1 = some dart.convId
  seq : buf.readUIntBE 3 3 = some (dart.seq % SEQ_MOD)
  extLen : buf.readUInt8 6 = some 24
  senderId : buf.readUInt16BE 7 = some dart.senderId
  epoch : buf.readUInt16BE 21 = some epoch
  idx : buf.readUInt32BE 27 = some (idx % 2 ^ 32)

theorem dataPrefix_headerFields (hC : C.Lawful) (hn : nonce.length = 12)
    (hf : DataFits dart messageKey epoch) (rest : Buffer) :
    HeaderFields dart idx epoch (dataPrefix C dart dict idx epoch nonce ++ rest) := by
  have hfp := dictFingerprint_length hC dict
  have hseq : dart.seq % SEQ_MOD < 256 ^ 3 := Nat.mod_lt _ (by decide)
  have hidx : idx % 2 ^ 32 < 256 ^ 4 := Nat.mod_lt _ (by decide)
  constructor <;>
    simp only [dataPrefix, Buffer.readUInt8, Buffer.readUInt16BE, Buffer.readUInt32BE,
      List.append_assoc]
  · rw [Buffer.readUIntBE_head hf.type]
  · rw [Buffer.readUIntBE_append_right (by simp), Buffer.length_bytesBE,
      Buffer.readUIntBE_head hf.convId]
  · iterate 2 rw [Buffer.readUIntBE_append_right (by simp), Buffer.length_bytesBE]
    rw [Buffer.readUIntBE_head hseq]
  · iterate 3 rw [Buffer.readUIntBE_append_right (by simp), Buffer.length_bytesBE]
    rw [Buffer.readUIntBE_head (by decide)]
  · iterate 4 rw [Buffer.readUIntBE_append_right (by simp), Buffer.length_bytesBE]
    rw [Buffer.readUIntBE_head hf.senderId]
  · iterate 5 rw [Buffer.readUIntBE_append_right (by simp), Buffer.length_bytesBE]
    rw [Buffer.readUIntBE_append_right (by rw [hn]), hn, Buffer.readUIntBE_head hf.epoch]
  · iterate 5 rw [Buffer.readUIntBE_append_right (by simp), Buffer.length_bytesBE]
    rw [Buffer.readUIntBE_append_right (by rw [hn]; decide), hn,
      Buffer.readUIntBE_append_right (by simp), Buffer.length_bytesBE,
      Buffer.readUIntBE_append_right (by rw [hfp]), hfp, Buffer.readUIntBE_head hidx]

/-- A dart that the encoder accepts has fields of the right widths. -/
theorem encodeDataHelper_fits (h : encodeDataHelper C dart dict messageKey idx epoch nonce = some buf) :
    DataFits dart messageKey epoch := by
  simp only [encodeDataHelper, Option.bind_eq_bind, Option.bind_eq_some_iff] at h
  obtain ⟨p₁, h₁, p₂, h₂, p₃, _, p₄, _, p₅, h₅, p₆, h₆, p₇, _, _, h₈, _⟩ := h
  have hkey : messageKey.length = 32 := by
    rw [Crypto.cipher] at h₈
    split at h₈
    · assumption
    · cases h₈
  exact ⟨Buffer.lt_of_writeUIntBE h₁, Buffer.lt_of_writeUIntBE h₂, Buffer.lt_of_writeUIntBE h₅,
    Buffer.lt_of_writeUIntBE h₆, hkey⟩

theorem headerFields_of_encode (hC : C.Lawful) (hn : nonce.length = 12)
    (h : encodeDataHelper C dart dict messageKey idx epoch nonce = some buf) :
    HeaderFields dart idx epoch buf := by
  have hf := encodeDataHelper_fits h
  rw [encodeDataHelper_eq hC hn hf] at h
  cases h
  exact dataPrefix_headerFields hC hn hf _

/-- Under whatever key an encoded dart is opened, the fields come from its cleartext prefix. -/
theorem decryptData_encoded (hC : C.Lawful) (hn : nonce.length = 12)
    (h : encodeDataHelper C dart dict messageKey idx epoch nonce = some buf) (key : Buffer) :
    decryptData C buf key
      = (C.decipher key nonce (dataPrefix C dart dict idx epoch nonce)
          (C.gcmEncrypt messageKey nonce (dataPrefix C dart dict idx epoch nonce)
            (C.deflateRaw (utf8 dart.payload) dict)).1
          (C.gcmEncrypt messageKey nonce (dataPrefix C dart dict idx epoch nonce)
            (C.deflateRaw (utf8 dart.payload) dict)).2).map fun compressed =>
        { type := dart.type, convId := dart.convId, senderId := dart.senderId,
          seq := dart.seq % SEQ_MOD, compressed, dictFp := dictFingerprint C dict,
          idx := idx % 2 ^ 32 } := by
  have hf := encodeDataHelper_fits h
  have hfp := dictFingerprint_length hC dict
  have hlen := dataPrefix_length hC dart dict idx epoch hn
  rw [encodeDataHelper_eq hC hn hf] at h
  obtain ⟨P, hP⟩ : ∃ P, P = dataPrefix C dart dict idx epoch nonce := ⟨_, rfl⟩
  obtain ⟨E, hE⟩ : ∃ E, E = C.gcmEncrypt messageKey nonce P
    (C.deflateRaw (utf8 dart.payload) dict) := ⟨_, rfl⟩
  rw [← hP] at h hlen ⊢
  rw [← hE] at h ⊢
  cases h
  have htag : E.2.length = 16 := by rw [hE]; exact hC.tag_length _ _ _ _
  have hfull : HeaderFields dart idx epoch (P ++ (E.1 ++ E.2)) := by
    rw [hP]
    exact dataPrefix_headerFields hC hn hf _
  have hown : HeaderFields dart idx epoch P := by
    rw [hP, ← List.append_nil (dataPrefix C dart dict idx epoch nonce)]
    exact dataPrefix_headerFields hC hn hf []
  -- the slices of the frame
  have hheader : Buffer.subarray (P ++ (E.1 ++ E.2)) 0 ((7 + 24 : ℕ) : ℤ) = P :=
    Buffer.subarray_append (p := []) rfl (by rw [hlen])
  have hnonce : P.subarray 9 ((9 + 12 : ℕ) : ℤ) = nonce := by
    rw [hP, dataPrefix, ← List.append_assoc, ← List.append_assoc, ← List.append_assoc,
      ← List.append_assoc]
    exact Buffer.subarray_append (s := 9) (by simp) (by rw [hn])
  have hdictFp : P.subarray 23 ((23 + 4 : ℕ) : ℤ) = dictFingerprint C dict := by
    rw [hP, dataPrefix, ← List.append_assoc, ← List.append_assoc, ← List.append_assoc,
      ← List.append_assoc, ← List.append_assoc, ← List.append_assoc]
    exact Buffer.subarray_append (s := 23) (by simp [hn]) (by rw [hfp])
  have hend : (((P ++ (E.1 ++ E.2)).length : ℕ) : ℤ) - 16 = ((31 + E.1.length : ℕ) : ℤ) := by
    simp only [List.length_append, hlen, htag]
    push_cast
    ring
  have hcipher : Buffer.subarray (P ++ (E.1 ++ E.2)) ((7 + 24 : ℕ) : ℤ)
      ((31 + E.1.length : ℕ) : ℤ) = E.1 :=
    Buffer.subarray_append (by rw [hlen]) rfl
  have htagSlice : Buffer.subarrayFrom (P ++ (E.1 ++ E.2)) ((31 + E.1.length : ℕ) : ℤ) = E.2 := by
    rw [← List.append_assoc]
    exact Buffer.subarrayFrom_append (by rw [List.length_append, hlen])
  simp only [decryptData, Option.bind_eq_bind, hfull.type, hfull.convId, hfull.seq, hfull.extLen,
    Option.bind_some, hheader, hown.senderId, hown.epoch, hown.idx, hnonce, hdictFp, hend, hcipher,
    htagSlice]
  cases C.decipher key nonce P E.1 E.2 <;> rfl

/-- **Decryption undoes encoding** up to the inflation step: the fields and the compressed payload
come back. -/
theorem decryptData_of_encode (hC : C.Lawful) (hn : nonce.length = 12)
    (h : encodeDataHelper C dart dict messageKey idx epoch nonce = some buf) :
    decryptData C buf messageKey
      = some { type := dart.type, convId := dart.convId, senderId := dart.senderId,
               seq := dart.seq % SEQ_MOD, compressed := C.deflateRaw (utf8 dart.payload) dict,
               dictFp := dictFingerprint C dict, idx := idx % 2 ^ 32 } := by
  rw [decryptData_encoded hC hn h, Crypto.decipher, if_pos (encodeDataHelper_fits h).key,
    hC.decrypt_encrypt _ _ _ _ hn]
  rfl

/-- The fingerprint a decrypted dart shows is that of the dictionary it was encoded against. -/
theorem dictFp_of_encode (hC : C.Lawful) (hn : nonce.length = 12)
    (h : encodeDataHelper C dart dict messageKey idx epoch nonce = some buf) {key : Buffer}
    {dec : DecryptedData} (hdec : decryptData C buf key = some dec) :
    dec.dictFp = dictFingerprint C dict := by
  rw [decryptData_encoded hC hn h, Option.map_eq_some_iff] at hdec
  obtain ⟨compressed, _, rfl⟩ := hdec
  rfl

/-- Inflating what was deflated against the same dictionary gives the payload back. -/
theorem inflateData_deflate (hC : C.Lawful) (payload : String) (dict : Buffer) :
    inflateData C (C.deflateRaw (utf8 payload) dict) dict = some payload := by
  rw [inflateData, hC.inflate_deflate, Option.map_some, utf8ToString_utf8]

end Codec

end DartProtocol
