import DartProtocol.WireFormat

/-!
# The decoders of the three implementations

The decoders of `src/core.ts` read fields of a buffer and take clamped slices, those of `go/core` and
`codec.rs` take checked slices and read numbers from their front.  Here they are compared on bytes that
nobody has to have encoded: on every frame that is long enough for its fixed header and a tag, a Go or
Rust decoder computes what the TypeScript one computes.  For NACK and MEMBER_INFO, where the sealed
parts are delimited differently, the comparison is exact for every byte string.

* `opened` — what a frame holds, with the nonce at the end of its header;
* `ackDecoders_eq` and its siblings — the frames with a fixed header;
* `decodeNack_eq`, `goDecodeNack_eq`, `rustDecodeNack_eq` — which bytes count as the tag of a NACK;
* `decodeMemberInfo_eq`, `goDecodeMemberInfo_eq`, `rustDecodeMemberInfo_eq` — rosters.
-/

namespace DartProtocol.Wire

open Buffer Slice

variable {C : Crypto}

/-! ### Opening a frame -/

/-- What a frame holds whose header has `n` bytes and ends with the nonce, which begins at `a`. -/
def opened (C : Crypto) (key : Buffer) (a n : ℕ) (buf : Buffer) : Option Buffer :=
  C.decipher key (buf.subarray a n) (buf.subarray 0 n) (buf.subarray n ((buf.length : ℤ) - 16))
    (buf.subarrayFrom ((buf.length : ℤ) - 16))

variable {b payload buf : Buffer} {n : ℕ}

theorem exists_read (off n : ℕ) (h : off + n ≤ b.length) :
    ∃ v, b.readUIntBE off n = some v :=
  Option.isSome_iff_exists.mp (readUIntBE_isSome_iff.mpr h)

theorem exists_route (h : 5 ≤ b.length) : ∃ type convId senderId, b.readUIntBE 0 1 = some type ∧
    b.readUIntBE 1 2 = some convId ∧ b.readUIntBE 3 2 = some senderId := by
  obtain ⟨type, htype⟩ := exists_read (b := b) 0 1 (by omega)
  obtain ⟨convId, hconvId⟩ := exists_read (b := b) 1 2 (by omega)
  obtain ⟨senderId, hsenderId⟩ := exists_read (b := b) 3 2 (by omega)
  exact ⟨type, convId, senderId, htype, hconvId, hsenderId⟩

theorem subarray_length {s e : ℕ} (hs : s ≤ e) (he : e ≤ b.length) :
    (b.subarray s e).length = e - s := by
  rw [subarray_of_le hs he, List.length_take, List.length_drop]
  omega

theorem subarray_zero {e : ℕ} (he : e ≤ b.length) : b.subarray 0 e = b.take e := by
  have h := subarray_of_le (s := 0) (Nat.zero_le e) he
  simpa using h

theorem take_tail (h : n + 16 ≤ b.length) :
    (b.subarrayFrom n).take ((b.subarrayFrom n).length - 16)
      = b.subarray n ((b.length : ℤ) - 16) := by
  rw [show (b.length : ℤ) - 16 = ((b.length - 16 : ℕ) : ℤ) by omega,
    subarray_of_le (by omega) (by omega), subarrayFrom_of_le (by omega),
    List.length_drop]
  congr 1
  omega

theorem drop_tail (h : n + 16 ≤ b.length) :
    (b.subarrayFrom n).drop ((b.subarrayFrom n).length - 16)
      = b.subarrayFrom ((b.length : ℤ) - 16) := by
  rw [show (b.length : ℤ) - 16 = ((b.length - 16 : ℕ) : ℤ) by omega,
    subarrayFrom_of_le (by omega), subarrayFrom_of_le (by omega), List.length_drop,
    List.drop_drop]
  congr 1
  omega

theorem tail_length (h : n + 16 ≤ b.length) :
    ¬ (b.subarrayFrom n).length < 16 := by
  rw [subarrayFrom_of_le (by omega), List.length_drop]
  omega

section Open

variable {key : Buffer} (hkey : key.length = 32)

include hkey

variable {nonce buf : Buffer} {n : ℕ}

theorem goOpen_tail (A : GoCodec.ShortAes) (aad : Buffer)
    (hnonce : nonce.length = 12) (hn : n + 16 ≤ buf.length) :
    GoCodec.aesOpen C A key nonce aad (buf.subarrayFrom n)
      = some (C.decipher key nonce aad (buf.subarray n ((buf.length : ℤ) - 16))
          (buf.subarrayFrom ((buf.length : ℤ) - 16))) := by
  have haes : GoCodec.IsAesKey key := .inr (.inr hkey)
  rw [GoCodec.aesOpen, if_pos haes, if_pos hnonce, if_neg (tail_length hn)]
  simp only
  rw [if_pos hkey, take_tail hn, drop_tail hn, Crypto.decipher, if_pos hkey]

theorem rustOpen_tail (aad : Buffer) (hnonce : nonce.length = 12) (hn : n + 16 ≤ buf.length) :
    RustCodec.decryptGcm C key nonce (buf.subarrayFrom n) aad
      = some (C.decipher key nonce aad (buf.subarray n ((buf.length : ℤ) - 16))
          (buf.subarrayFrom ((buf.length : ℤ) - 16))) := by
  rw [RustCodec.decryptGcm, if_pos ⟨hkey, hnonce⟩, if_neg (tail_length hn), take_tail hn, drop_tail hn,
    Crypto.decipher, if_pos hkey]

variable {s e : ℤ} (hs : 0 ≤ s) (he : e = s + 12) (hlen : e + 16 ≤ buf.length)

include hs he hlen

theorem goOpen_eq (A : GoCodec.ShortAes) :
    GoCodec.aesOpen C A key (buf.subarray s e) (buf.subarray 0 e) (buf.subarray e buf.length)
      = some (C.decipher key (buf.subarray s e) (buf.subarray 0 e)
          (buf.subarray e ((buf.length : ℤ) - 16)) (buf.subarrayFrom ((buf.length : ℤ) - 16))) := by
  obtain ⟨a, rfl⟩ := Int.eq_ofNat_of_zero_le hs
  obtain rfl : e = ((a + 12 : ℕ) : ℤ) := by omega
  exact goOpen_tail hkey A _ (by rw [subarray_length (by omega) (by omega)]; omega) (by omega)

theorem rustOpen_eq :
    RustCodec.decryptGcm C key (buf.subarray s e) (buf.subarray e buf.length) (buf.subarray 0 e)
      = some (C.decipher key (buf.subarray s e) (buf.subarray 0 e)
          (buf.subarray e ((buf.length : ℤ) - 16)) (buf.subarrayFrom ((buf.length : ℤ) - 16))) := by
  obtain ⟨a, rfl⟩ := Int.eq_ofNat_of_zero_le hs
  obtain rfl : e = ((a + 12 : ℕ) : ℤ) := by omega
  exact rustOpen_tail hkey _ (by rw [subarray_length (by omega) (by omega)]; omega) (by omega)

omit hs he hlen

omit hkey in
theorem sealed_slices (hC : C.Lawful) {header : Buffer} (plain : Buffer)
    (hheader : header.length = n) :
    (sealedFrame C key nonce header plain).subarray n
        (((sealedFrame C key nonce header plain).length : ℤ) - 16)
      = (C.gcmEncrypt key nonce header plain).1 ∧
      (sealedFrame C key nonce header plain).subarrayFrom
        (((sealedFrame C key nonce header plain).length : ℤ) - 16)
        = (C.gcmEncrypt key nonce header plain).2 := by
  have htag := hC.tag_length key nonce header plain
  rw [sealedFrame]
  obtain ⟨⟨body, tag⟩, hE⟩ : ∃ E, E = C.gcmEncrypt key nonce header plain := ⟨_, rfl⟩
  rw [← hE] at htag ⊢
  simp only at htag ⊢
  have hend : ((header ++ (body ++ tag)).length : ℤ) - 16 = ((n + body.length : ℕ) : ℤ) := by
    simp [hheader, htag]
    omega
  rw [hend]
  refine ⟨subarray_append hheader rfl, ?_⟩
  rw [← List.append_assoc]
  exact subarrayFrom_append (by rw [List.length_append, hheader])

theorem sealed_opens (hC : C.Lawful) {header : Buffer} (hnonce : nonce.length = 12)
    (plain : Buffer) (hheader : header.length = n) :
    C.decipher key nonce header
      ((sealedFrame C key nonce header plain).subarray n
        (((sealedFrame C key nonce header plain).length : ℤ) - 16))
      ((sealedFrame C key nonce header plain).subarrayFrom
        (((sealedFrame C key nonce header plain).length : ℤ) - 16)) = some plain := by
  obtain ⟨hbody, htag⟩ := sealed_slices hC plain hheader
  rw [hbody, htag, Crypto.decipher, if_pos hkey]
  exact hC.decrypt_encrypt key nonce header plain hnonce

theorem opened_sealed (hC : C.Lawful) {header : Buffer} (plain : Buffer) {a : ℕ}
    (ha : a + 12 = n) (hheader : header.length = n) (hnonce : header.drop a = nonce) :
    opened C key a n (sealedFrame C key nonce header plain) = some plain ∧
      (sealedFrame C key nonce header plain).subarray a n = nonce := by
  have hlen : nonce.length = 12 := by
    rw [← hnonce, List.length_drop]
    omega
  have hslice : (sealedFrame C key nonce header plain).subarray a n = nonce := by
    rw [sealedFrame, subarray_of_le (by omega) (by simp; omega), ← hnonce,
      List.drop_append_of_le_length (by omega),
      List.take_append_of_le_length (by rw [List.length_drop]; omega),
      List.take_of_length_le (by rw [List.length_drop]; omega)]
  have hfront : (sealedFrame C key nonce header plain).subarray 0 n = header :=
    subarray_append (p := []) (s := 0) rfl (by omega)
  refine ⟨?_, hslice⟩
  rw [opened, hslice, hfront]
  exact sealed_opens hkey hC hlen plain hheader

end Open

theorem subarrayFrom_subarray {s e : ℤ} (hs : 0 ≤ s) (hse : s ≤ e) (he : e ≤ b.length) :
    (b.subarray 0 e).subarrayFrom s = b.subarray s e := by
  obtain ⟨s, rfl⟩ := Int.eq_ofNat_of_zero_le hs
  obtain ⟨e, rfl⟩ := Int.eq_ofNat_of_zero_le (hs.trans hse)
  rw [subarray_zero (by omega), subarrayFrom_of_le (by rw [List.length_take]; omega),
    subarray_of_le (by omega) (by omega), List.drop_take]

/-- Asking for the length before a read makes an error of what would be none. -/
theorem guarded_read {α : Type} {off w : ℕ} (hn : off + w = n) (f : ℕ → α) :
    (if payload.length < n then some none
      else (payload.readUIntBE off w).bind fun v => some (some (f v)))
      = some ((payload.readUIntBE off w).bind fun v => some (f v)) := by
  by_cases h : payload.length < n
  · rw [if_pos h, Buffer.readUIntBE, if_neg (by omega)]
    rfl
  · obtain ⟨v, hv⟩ := exists_read (b := payload) off w (by omega)
    rw [if_neg h, hv]
    rfl

section Decoders

variable {key : Buffer} (hkey : key.length = 32) {buf : Buffer} (A : GoCodec.ShortAes)

include hkey

theorem keyShareDecoders_eq (hlen : 21 + 48 ≤ buf.length) :
    GoCodec.decodeKeyShare C A buf key = some (Codec.decodeKeyShare C buf key) ∧
      RustCodec.decodeKeyShare C buf key = some (Codec.decodeKeyShare C buf key) := by
  obtain ⟨epoch, hepoch⟩ := exists_read (b := buf) 7 2 (by omega)
  simp (disch := rfl) only [GoCodec.decodeKeyShare, RustCodec.decodeKeyShare, Codec.decodeKeyShare,
    if_neg (show ¬ buf.length < 21 + 48 by omega), uint16_slice, Buffer.readUInt16BE, hepoch,
    Option.bind_eq_bind, Option.bind_some]
  simp (disch := omega) only [slice_eq_subarray, Option.bind_some, Nat.cast_ofNat, Nat.cast_zero,
    goOpen_eq hkey, rustOpen_eq hkey, subarrayFrom_subarray, tryOk_some, and_self]

theorem chainShareDecoders_eq (hlen : 21 + 36 + 16 ≤ buf.length) :
    GoCodec.decodeChainShare C A buf key = some (Codec.decodeChainShare C buf key) ∧
      RustCodec.decodeChainShare C buf key
        = some ((Codec.decodeChainShare C buf key).map rustChainShare) := by
  obtain ⟨type, convId, senderId, htype, hconvId, hsenderId⟩ := exists_route (b := buf) (by omega)
  obtain ⟨targetId, htargetId⟩ := exists_read (b := buf) 5 2 (by omega)
  obtain ⟨epoch, hepoch⟩ := exists_read (b := buf) 7 2 (by omega)
  simp (disch := rfl) only [GoCodec.decodeChainShare, RustCodec.decodeChainShare,
    Codec.decodeChainShare, if_neg (show ¬ buf.length < 21 + 36 + 16 by omega), index_eq,
    uint16_slice, uint32_slice, Buffer.readUInt8, Buffer.readUInt16BE, Buffer.readUInt32BE, htype,
    hconvId, hsenderId, htargetId, hepoch, Option.bind_eq_bind, Option.bind_some]
  simp (disch := omega) only [slice_eq_subarray, Option.bind_some, Nat.cast_ofNat, Nat.cast_zero,
    goOpen_eq hkey, rustOpen_eq hkey, subarrayFrom_subarray, tryOk_some, guarded_read,
    Option.map_bind, Function.comp_def, Option.map_some, rustChainShare, and_self]

variable {convId : ℕ} (hconvId : buf.readUIntBE 1 2 = some convId) {g : GoCodec.Codec}
  (hg : g.convKeys.get convId = some key) {r : RustCodec.Codec} (hr : r.convKeys.get convId = some key)

include hconvId hg hr

theorem ackDecoders_eq (hlen : 22 + 16 ≤ buf.length) :
    GoCodec.decodeAck C A g buf = some (Codec.decodeAck C buf key) ∧
      RustCodec.decodeAck C r buf = some ((Codec.decodeAck C buf key).map rustAck) := by
  obtain ⟨type, _, senderId, htype, _, hsenderId⟩ := exists_route (b := buf) (by omega)
  obtain ⟨targetId, htargetId⟩ := exists_read (b := buf) 5 2 (by omega)
  obtain ⟨seq, hseq⟩ := exists_read (b := buf) 7 3 (by omega)
  simp (disch := rfl) only [GoCodec.decodeAck, RustCodec.decodeAck, Codec.decodeAck,
    if_neg (show ¬ buf.length < 22 by omega), index_eq, uint16_slice, uint24_slice,
    Buffer.readUInt8, Buffer.readUInt16BE, htype, hconvId, hsenderId, htargetId, hseq,
    Option.bind_eq_bind, Option.bind_some, GoCodec.getConvKey, RustCodec.getConvKey, hg, hr, tryOk_ok]
  simp (disch := omega) only [slice_eq_subarray, Option.bind_some, Nat.cast_ofNat, Nat.cast_zero,
    goOpen_eq hkey, rustOpen_eq hkey, subarrayFrom_subarray, tryOk_some, Option.map_bind,
    Function.comp_def, Option.map_some, rustAck, and_self]

theorem dictResetDecoders_eq (hlen : 19 + 16 ≤ buf.length) :
    GoCodec.decodeDictReset C A g buf = some (Codec.decodeDictReset C buf key) ∧
      RustCodec.decodeDictReset C r buf
        = some ((Codec.decodeDictReset C buf key).map rustReset) := by
  obtain ⟨type, _, senderId, htype, _, hsenderId⟩ := exists_route (b := buf) (by omega)
  obtain ⟨targetId, htargetId⟩ := exists_read (b := buf) 5 2 (by omega)
  simp (disch := rfl) only [GoCodec.decodeDictReset, RustCodec.decodeDictReset,
    Codec.decodeDictReset, if_neg (show ¬ buf.length < 19 by omega), index_eq, uint16_slice,
    Buffer.readUInt8, Buffer.readUInt16BE, htype, hconvId, hsenderId, htargetId,
    Option.bind_eq_bind, Option.bind_some, GoCodec.getConvKey, RustCodec.getConvKey, hg, hr, tryOk_ok]
  simp (disch := omega) only [slice_eq_subarray, Option.bind_some, Nat.cast_ofNat, Nat.cast_zero,
    goOpen_eq hkey, rustOpen_eq hkey, subarrayFrom_subarray, tryOk_some, Option.map_bind,
    Function.comp_def, Option.map_some, rustReset, and_self]

theorem syncDecoders_eq (hlen : 17 + 16 ≤ buf.length) :
    GoCodec.decodeSync C A g buf = some (Codec.decodeSync C buf key) ∧
      RustCodec.decodeSync C r buf = some ((Codec.decodeSync C buf key).map rustSync) := by
  obtain ⟨type, _, senderId, htype, _, hsenderId⟩ := exists_route (b := buf) (by omega)
  simp (disch := rfl) only [GoCodec.decodeSync, RustCodec.decodeSync, Codec.decodeSync,
    if_neg (show ¬ buf.length < 17 by omega), index_eq, uint16_slice, uint24_slice,
    Buffer.readUInt8, Buffer.readUInt16BE, htype, hconvId, hsenderId, Option.bind_eq_bind,
    Option.bind_some, GoCodec.getConvKey, RustCodec.getConvKey, hg, hr, tryOk_ok]
  simp (disch := omega) only [slice_eq_subarray, Option.bind_some, Nat.cast_ofNat, Nat.cast_zero,
    goOpen_eq hkey, rustOpen_eq hkey, subarrayFrom_subarray, tryOk_some, guarded_read,
    Option.map_bind, Function.comp_def, Option.map_some, rustSync, and_self]

end Decoders

/-! ### KeyReq and NACK -/

theorem keyReqDecoders_eq (hlen : 21 ≤ buf.length) :
    GoCodec.decodeKeyReq buf = some (Codec.decodeKeyReq buf) ∧
      RustCodec.decodeKeyReq buf = some ((Codec.decodeKeyReq buf).map rustKeyReq) := by
  obtain ⟨type, convId, senderId, htype, hconvId, hsenderId⟩ := exists_route (b := buf) (by omega)
  simp (disch := rfl) only [GoCodec.decodeKeyReq, RustCodec.decodeKeyReq, Codec.decodeKeyReq,
    if_neg (show ¬ buf.length < 21 by omega), index_eq, uint16_slice, Buffer.readUInt8,
    Buffer.readUInt16BE, htype, hconvId, hsenderId, Option.bind_eq_bind, Option.bind_some]
  simp (disch := omega) only [slice_eq_subarray, Option.bind_some, Nat.cast_ofNat]
  exact ⟨rfl, rfl⟩

theorem readSeqs_eq (buf : Buffer) (count : ℕ) :
    ∀ off, GoCodec.readSeqs buf off count = Codec.readSeqs buf off count ∧
      RustCodec.readSeqs buf off count = Codec.readSeqs buf off count := by
  induction count with
  | zero => exact fun _ => ⟨rfl, rfl⟩
  | succ count ih =>
    intro off
    rw [GoCodec.readSeqs, RustCodec.readSeqs, Codec.readSeqs, uint24_slice rfl]
    simp only [ih, and_self]

theorem parseNack_eq (buf : Buffer) :
    GoCodec.parseNack buf = some (Codec.parseNack buf) ∧
      RustCodec.parseNack buf = some ((Codec.parseNack buf).map rustNack) := by
  by_cases hlen : buf.length < 21
  · rw [GoCodec.parseNack, RustCodec.parseNack, Codec.parseNack, if_pos hlen, if_pos hlen, if_pos hlen]
    exact ⟨rfl, rfl⟩
  obtain ⟨type, convId, senderId, htype, hconvId, hsenderId⟩ := exists_route (b := buf) (by omega)
  obtain ⟨targetId, htargetId⟩ := exists_read (b := buf) 5 2 (by omega)
  obtain ⟨count, hcount⟩ := exists_read (b := buf) 19 2 (by omega)
  simp (disch := rfl) only [GoCodec.parseNack, RustCodec.parseNack, Codec.parseNack, if_neg hlen,
    index_eq, uint16_slice, Buffer.readUInt8, Buffer.readUInt16BE, htype, hconvId, hsenderId,
    htargetId, hcount, Option.bind_eq_bind, Option.bind_some, readSeqs_eq]
  by_cases hlist : buf.length < Codec.nackPrefixLen count
  · simp only [if_pos hlist, true_and]
    rfl
  · have hroom : 21 + 3 * count ≤ buf.length := by
      rw [Codec.nackPrefixLen] at hlist
      omega
    obtain ⟨seqs, hseqs⟩ := Option.isSome_iff_exists.mp (GoCodec.readSeqs_isSome hroom)
    rw [(readSeqs_eq buf count _).1] at hseqs
    simp only [if_neg hlist, hseqs]
    exact ⟨rfl, rfl⟩

theorem readSeqs_length {count : ℕ} :
    ∀ {off : ℕ} {seqs : List ℕ}, Codec.readSeqs buf off count = some seqs → seqs.length = count := by
  induction count with
  | zero =>
    intro off seqs h
    cases h
    rfl
  | succ count ih =>
    intro off seqs h
    simp only [Codec.readSeqs, Option.bind_eq_bind, Option.bind_eq_some_iff] at h
    obtain ⟨seq, -, rest, hrest, hseqs⟩ := h
    rw [← Option.some.inj hseqs, List.length_cons, ih hrest]

theorem parseNack_fits {nack : NackDart} (h : Codec.parseNack buf = some nack) :
    buf.readUInt16BE 1 = some nack.convId ∧
      Codec.nackPrefixLen nack.missingSeq.length ≤ buf.length := by
  rw [Codec.parseNack] at h
  split at h
  · cases h
  simp only [Option.bind_eq_bind, Option.bind_eq_some_iff] at h
  obtain ⟨type, -, convId, hconv, senderId, -, targetId, -, count, -, h⟩ := h
  split at h
  · cases h
  rename_i hlist
  simp only [Option.bind_eq_some_iff] at h
  obtain ⟨seqs, hseqs, hnack⟩ := h
  rw [← Option.some.inj hnack]
  exact ⟨hconv, by rw [readSeqs_length hseqs]; omega⟩

/-- What the bytes behind a gap list of `n` bytes hold, when the last sixteen of them are the tag. -/
def openedNack (C : Crypto) (key : Buffer) (n : ℕ) (buf : Buffer) : Option Buffer :=
  C.decipher key (buf.subarray 7 19) (buf.subarray 0 n) (buf.subarray n ((buf.length : ℤ) - 16))
    (buf.subarrayFrom ((buf.length : ℤ) - 16))

/-- What they hold when the first sixteen of them are the tag. -/
def checkedNack (C : Crypto) (key : Buffer) (n : ℕ) (buf : Buffer) : Option Buffer :=
  C.decipher key (buf.subarray 7 19) (buf.subarray 0 n) [] (buf.subarray n ((n + 16 : ℕ) : ℤ))

theorem subarray_subarray {s e : ℕ} (hs : s ≤ e) (he : e ≤ n) (hn : n ≤ b.length) :
    (b.subarray 0 n).subarray s e = b.subarray s e := by
  rw [subarray_zero hn, subarray_of_le hs (by rw [List.length_take]; omega),
    subarray_of_le hs (by omega), List.drop_take, List.take_take]
  congr 1
  omega

/-- The rest of a NACK decoder: a frame without room for a tag is refused. -/
def checkNack (buf : Buffer) (tagged : ℕ → Option Buffer) (nack : NackDart) : Option NackDart :=
  let headerLen := Codec.nackPrefixLen nack.missingSeq.length
  if buf.length < headerLen + 16 then none else (tagged headerLen).map fun _ => nack

theorem decodeNack_eq (key buf : Buffer) :
    Codec.decodeNack C buf key
      = (Codec.parseNack buf).bind (checkNack buf fun n => checkedNack C key n buf) := by
  rw [Codec.decodeNack]
  cases h : Codec.parseNack buf with
  | none => rfl
  | some nack =>
    obtain ⟨-, hfits⟩ := parseNack_fits h
    have hnonce := subarray_subarray (s := 7) (e := 19) (by decide)
      (by rw [Codec.nackPrefixLen]; omega) hfits
    simp only [Nat.cast_ofNat] at hnonce
    simp only [Option.bind_eq_bind, Option.bind_some, checkNack, hnonce, checkedNack]
    split
    · rfl
    · cases C.decipher key _ _ _ _ <;> rfl

theorem nackSlices (hH : 19 ≤ n) (hn : n ≤ buf.length) :
    slice buf 0 n = some (buf.subarray 0 n) ∧
      slice (buf.subarray 0 n) 7 19 = some (buf.subarray 7 19) ∧
      slice buf n buf.length = some (buf.subarrayFrom n) ∧ (buf.subarray 7 19).length = 12 := by
  have hheader : (buf.subarray 0 n).length = n := by
    rw [subarray_zero hn, List.length_take]
    omega
  refine ⟨slice_eq_subarray (Nat.zero_le n) hn, ?_, slice_eq_subarrayFrom hn,
    subarray_length (s := 7) (e := 19) (by decide) (by omega)⟩
  rw [slice_eq_subarray (by decide) (by rw [hheader]; exact hH),
    subarray_subarray (by decide) hH hn]
  rfl

section Nack

variable {key : Buffer} (hkey : key.length = 32) {buf : Buffer}

include hkey

theorem goDecodeNack_eq (A : GoCodec.ShortAes) {c : GoCodec.Codec}
    (hc : ∀ convId, buf.readUInt16BE 1 = some convId → c.convKeys.get convId = some key) :
    GoCodec.decodeNack C A c buf
      = some ((Codec.parseNack buf).bind (checkNack buf fun n => openedNack C key n buf)) := by
  rw [GoCodec.decodeNack, (parseNack_eq buf).1]
  cases h : Codec.parseNack buf with
  | none => rfl
  | some nack =>
    obtain ⟨hconv, hfits⟩ := parseNack_fits h
    rw [tryOk_ok, Option.bind_some, checkNack]
    by_cases hlen : buf.length < Codec.nackPrefixLen nack.missingSeq.length + 16
    · rw [if_pos hlen, if_pos hlen]
    obtain ⟨hheader, hnonce, htag, hnlen⟩ :=
      nackSlices (by rw [Codec.nackPrefixLen]; omega) hfits
    simp only [if_neg hlen, hheader, hnonce, htag, Option.bind_eq_bind, Option.bind_some,
      GoCodec.getConvKey, hc _ hconv, tryOk_ok, goOpen_tail hkey A _ hnlen (Nat.le_of_not_lt hlen),
      tryOk_some, openedNack]
    cases C.decipher key _ _ _ _ <;> rfl

theorem rustDecodeNack_eq {c : RustCodec.Codec}
    (hc : ∀ convId, buf.readUInt16BE 1 = some convId → c.convKeys.get convId = some key) :
    RustCodec.decodeNack C c buf
      = some (((Codec.parseNack buf).bind
          (checkNack buf fun n => openedNack C key n buf)).map rustNack) := by
  rw [RustCodec.decodeNack, (parseNack_eq buf).2]
  cases h : Codec.parseNack buf with
  | none => rfl
  | some nack =>
    obtain ⟨hconv, hfits⟩ := parseNack_fits h
    rw [Option.map_some, tryOk_ok, Option.bind_some, checkNack]
    show (if buf.length < Codec.nackPrefixLen nack.missingSeq.length + 16 then some none else _) = _
    by_cases hlen : buf.length < Codec.nackPrefixLen nack.missingSeq.length + 16
    · rw [if_pos hlen, if_pos hlen]
      rfl
    obtain ⟨hheader, hnonce, htag, hnlen⟩ :=
      nackSlices (by rw [Codec.nackPrefixLen]; omega) hfits
    simp only [if_neg hlen, rustNack, hheader, hnonce, htag, Option.bind_eq_bind, Option.bind_some,
      RustCodec.getConvKey, hc _ hconv, tryOk_ok, rustOpen_tail hkey _ hnlen (Nat.le_of_not_lt hlen),
      tryOk_some, openedNack]
    cases C.decipher key _ _ _ _ <;> rfl

end Nack

/-! ### MEMBER_INFO -/

/-- The three parts of the associated data stand side by side in the frame. -/
theorem memberHeader_slices (hlen : 82 ≤ buf.length) :
    buf.subarray 0 5 ++ buf.subarray 5 70 ++ buf.subarray 70 82 = buf.subarray 0 82 := by
  have h₁ := subarray_of_le (b := buf) (s := 0) (e := 5) (by decide) (by omega)
  have h₂ := subarray_of_le (b := buf) (s := 5) (e := 70) (by decide) (by omega)
  have h₃ := subarray_of_le (b := buf) (s := 70) (e := 82) (by decide) (by omega)
  have h₄ := subarray_of_le (b := buf) (s := 0) (e := 82) (by decide) (by omega)
  simp only [Nat.cast_ofNat, Nat.cast_zero, List.drop_zero, Nat.sub_zero] at h₁ h₂ h₃ h₄
  rw [h₁, h₂, h₃, h₄, ← List.take_add, ← List.take_add]

/-- The cleartext fields of a roster frame, and what its sealed part says. -/
def memberInfoOf (buf : Buffer) (roster : Bool × List RosterEntry) : Option MemberInfo := do
  let type ← buf.readUInt8 0
  let convId ← buf.readUInt16BE 1
  let senderId ← buf.readUInt16BE 3
  some { type, convId, senderId, serverPubKey := buf.subarray 5 70, creator := roster.1,
         members := roster.2 }

theorem memberInfoOf_reads {type convId senderId : ℕ} (htype : buf.readUIntBE 0 1 = some type)
    (hconv : buf.readUIntBE 1 2 = some convId) (hsender : buf.readUIntBE 3 2 = some senderId)
    (roster : Bool × List RosterEntry) : memberInfoOf buf roster
      = some ⟨type, convId, senderId, buf.subarray 5 70, roster.1, roster.2⟩ := by
  simp only [memberInfoOf, Buffer.readUInt8, Buffer.readUInt16BE, htype, hconv, hsender,
    Option.bind_eq_bind, Option.bind_some]

/-- What the TypeScript decoder reads from the sealed part. -/
def readRoster (payload : Buffer) : Option (Bool × List RosterEntry) := do
  let creator ← payload.readUInt8 0
  let count ← payload.readUInt16BE 1
  let members ← Codec.readMembers payload 3 count
  some (decide (creator = 1), members)

theorem decodeMemberInfo_eq {key : Buffer} (hlen : 98 ≤ buf.length) :
    Codec.decodeMemberInfo C buf key
      = ((opened C key 70 82 buf).bind readRoster).bind (memberInfoOf buf) := by
  obtain ⟨type, convId, senderId, htype, hconvId, hsenderId⟩ := exists_route (b := buf) (by omega)
  have haad : Buffer.concat [buf.subarray 0 5, buf.subarray 5 70, buf.subarray 70 82]
      = buf.subarray 0 82 := by
    rw [← memberHeader_slices (by omega)]
    simp [Buffer.concat]
  have htail : 16 ≤ (buf.subarrayFrom 82).length :=
    Nat.le_of_not_lt (tail_length (n := 82) (by omega))
  have hend : ((buf.subarrayFrom 82).length : ℤ) - 16
      = (((buf.subarrayFrom 82).length - 16 : ℕ) : ℤ) := by omega
  have hbody : (buf.subarrayFrom 82).subarray 0 (((buf.subarrayFrom 82).length : ℤ) - 16)
      = buf.subarray 82 ((buf.length : ℤ) - 16) := by
    rw [hend, subarray_zero (by omega)]
    exact take_tail (n := 82) (by omega)
  have htag : (buf.subarrayFrom 82).subarrayFrom (((buf.subarrayFrom 82).length : ℤ) - 16)
      = buf.subarrayFrom ((buf.length : ℤ) - 16) := by
    rw [hend, subarrayFrom_of_le (by omega)]
    exact drop_tail (n := 82) (by omega)
  rw [Codec.decodeMemberInfo, if_neg (by omega)]
  simp only [Buffer.readUInt8, Buffer.readUInt16BE, htype, hconvId, hsenderId, Option.bind_eq_bind,
    Option.bind_some, haad, hbody, htag, memberInfoOf, readRoster, opened, Nat.cast_ofNat,
    Option.bind_assoc]

section MemberInfo

variable {key : Buffer} (hkey : key.length = 32) {buf : Buffer}

include hkey

theorem goDecodeMemberInfo_eq (A : GoCodec.ShortAes) (hlen : 98 ≤ buf.length) :
    GoCodec.decodeMemberInfo C A buf key
      = tryOk (some (opened C key 70 82 buf)) fun payload =>
          (GoCodec.readRoster payload).map (memberInfoOf buf) := by
  obtain ⟨type, convId, senderId, htype, hconvId, hsenderId⟩ := exists_route (b := buf) (by omega)
  have haad := memberHeader_slices (by omega : 82 ≤ buf.length)
  simp (disch := rfl) only [GoCodec.decodeMemberInfo, if_neg (show ¬ buf.length < 5 + 65 + 12 + 16 by
    omega), index_eq, uint16_slice, Buffer.readUInt8, Buffer.readUInt16BE, htype, hconvId, hsenderId,
    Option.bind_eq_bind, Option.bind_some]
  simp (disch := omega) only [slice_eq_subarray, Option.bind_some, Nat.cast_ofNat, Nat.cast_zero, haad,
    goOpen_eq hkey, opened]
  congr 1
  funext payload
  cases GoCodec.readRoster payload with
  | none => rfl
  | some roster =>
    rw [Option.map_some, memberInfoOf_reads htype hconvId hsenderId]
    rfl

theorem rustDecodeMemberInfo_eq (hlen : 98 ≤ buf.length) :
    RustCodec.decodeMemberInfo C buf key
      = tryOk (some (opened C key 70 82 buf)) fun payload =>
          (RustCodec.readRoster payload).map fun roster =>
            (roster.bind (memberInfoOf buf)).map rustMemberInfo := by
  obtain ⟨type, convId, senderId, htype, hconvId, hsenderId⟩ := exists_route (b := buf) (by omega)
  have haad := memberHeader_slices (by omega : 82 ≤ buf.length)
  simp (disch := rfl) only [RustCodec.decodeMemberInfo, if_neg (show ¬ buf.length < 5 + 65 + 12 + 16 by
    omega), uint16_slice, Buffer.readUInt16BE, hconvId, hsenderId, Option.bind_eq_bind,
    Option.bind_some]
  simp (disch := omega) only [slice_eq_subarray, Option.bind_some, Nat.cast_ofNat, Nat.cast_zero, haad,
    rustOpen_eq hkey, opened]
  congr 1
  funext payload
  rcases RustCodec.readRoster payload with _ | _ | roster
  · rfl
  · rfl
  · rw [Option.map_some, Option.bind_some, memberInfoOf_reads htype hconvId hsenderId]
    rfl

end MemberInfo

theorem rustReadMembers_eq (payload : Buffer) (count : ℕ) :
    ∀ offset, RustCodec.readMembers payload offset count
      = GoCodec.readMembers payload offset count := by
  induction count with
  | zero => exact fun _ => rfl
  | succ count ih =>
    intro offset
    simp only [RustCodec.readMembers, GoCodec.readMembers, ih]

theorem goReadMembers_eq {count : ℕ} :
    ∀ {offset : ℕ}, offset + count * 67 ≤ payload.length →
      GoCodec.readMembers payload offset count = Codec.readMembers payload offset count := by
  induction count with
  | zero => exact fun _ => rfl
  | succ count ih =>
    intro offset h
    rw [GoCodec.readMembers, Codec.readMembers, if_neg (by omega), uint16_slice rfl,
      slice_eq_subarray (by omega) (by omega), ih (by omega)]
    rfl

theorem readMembers_isSome {count : ℕ} :
    ∀ {offset : ℕ}, offset + count * 67 ≤ payload.length →
      (Codec.readMembers payload offset count).isSome := by
  induction count with
  | zero => exact fun _ => rfl
  | succ count ih =>
    intro offset h
    obtain ⟨senderId, hsender⟩ := exists_read (b := payload) offset 2 (by omega)
    obtain ⟨ms, hms⟩ := Option.isSome_iff_exists.mp
      (ih (by omega : offset + 67 + count * 67 ≤ payload.length))
    rw [Codec.readMembers, Buffer.readUInt16BE, hsender]
    simp only [Option.bind_eq_bind, Option.bind_some, Codec.rosterEntryLen, hms]
    rfl

end DartProtocol.Wire
