import DartProtocol.SumCrypto
import DartProtocol.WireDecode

/-!
# One wire format in three languages

`core.ts`, `go/core` and `codec.rs` each write and read the nine kinds of frames with their own
offsets.  `WireFormat` and `WireDecode` relate every encoder to one layout and every decoder to the
TypeScript one.  Here the layouts are read back, and both directions are put together.

* `decodeSync_wire` and its siblings — the TypeScript decoders undo the layouts;
* `readRoster_memberPayload` — all three read the roster that was written;
* `dataFormat_sealed` — the prefix and the compressed bytes of a dart, for all three decoders;
* `one_wire_format` — the three encoders write the same bytes and every decoder reads them;
* `epoch_zero_written_differently` — the one value that is written in two ways.
-/

namespace DartProtocol.Wire

open Buffer Slice

variable {C : Crypto}

/-! ### Fields of a header -/

theorem read_skip {p q : Buffer} {k off n : ℕ} (hp : p.length = k) (h : k ≤ off) :
    (p ++ q).readUIntBE off n = q.readUIntBE (off - k) n := by
  rw [readUIntBE_append_right (by omega), hp]

theorem route_length (type convId senderId : ℕ) : (route type convId senderId).length = 5 := by
  simp [route]

/-- What every header begins with, and where the rest of it stands. -/
theorem route_reads {type convId senderId : ℕ} (htype : type < 256 ^ 1) (hconv : convId < 256 ^ 2)
    (hsender : senderId < 256 ^ 2) (rest : Buffer) :
    (route type convId senderId ++ rest).readUIntBE 0 1 = some type ∧
      (route type convId senderId ++ rest).readUIntBE 1 2 = some convId ∧
      (route type convId senderId ++ rest).readUIntBE 3 2 = some senderId ∧
      ∀ off n, 5 ≤ off →
        (route type convId senderId ++ rest).readUIntBE off n = rest.readUIntBE (off - 5) n := by
  refine ⟨?_, ?_, ?_, fun off n h => read_skip (route_length _ _ _) h⟩
  · rw [route, List.append_assoc, readUIntBE_head htype]
  · rw [route, List.append_assoc, read_skip (k := 1) (by simp) (by decide), List.append_assoc,
      readUIntBE_head hconv]
  · rw [route, List.append_assoc, read_skip (k := 1) (by simp) (by decide), List.append_assoc,
      read_skip (k := 2) (by simp) (by decide), readUIntBE_head hsender]

theorem sealedFrame_length (hC : C.Lawful) (hbody : LengthPreserving C)
    (key nonce header plain : Buffer) :
    (sealedFrame C key nonce header plain).length = header.length + plain.length + 16 := by
  rw [sealedFrame, List.length_append, List.length_append, hC.tag_length, hbody]
  omega

/-! ### The TypeScript decoders undo the encoders -/

section RoundTrips

variable (hC : C.Lawful) (hbody : LengthPreserving C) {key nonce : Buffer} (hkey : key.length = 32)

include hC hbody hkey

/-- What a decoder finds in a sealed frame whose header has `n` bytes and ends with the nonce. -/
theorem sealed_facts {header : Buffer} (plain : Buffer) {a n : ℕ} (ha : a + 12 = n)
    (hheader : header.length = n) (hdrop : header.drop a = nonce) :
    ∃ buf, buf = sealedFrame C key nonce header plain ∧ buf.length = n + plain.length + 16 ∧
      (∀ off w, off + w ≤ n → buf.readUIntBE off w = header.readUIntBE off w) ∧
      (buf.subarray 0 n).subarrayFrom a = nonce ∧ buf.subarray a n = nonce ∧
      C.decipher key nonce (buf.subarray 0 n) (buf.subarray n ((buf.length : ℤ) - 16))
        (buf.subarrayFrom ((buf.length : ℤ) - 16)) = some plain := by
  obtain ⟨hopen, hnonce⟩ := opened_sealed hkey hC plain ha hheader hdrop
  have hlen := sealedFrame_length hC hbody key nonce header plain
  rw [opened, hnonce] at hopen
  refine ⟨_, rfl, by rw [hlen, hheader], fun off w h => readUIntBE_append_left (by omega), ?_,
    hnonce, hopen⟩
  rw [subarrayFrom_subarray (by omega) (by omega) (by omega), hnonce]

variable (hnonce : nonce.length = 12)

include hnonce

theorem decodeSync_wire {sync : SyncDart} (hf : SyncFits sync) :
    Codec.decodeSync C (sealedFrame C key nonce (syncHeader sync nonce)
      (bytesBE 3 sync.highestSeq)) key = some sync := by
  have hheader : (syncHeader sync nonce).length = 17 := by simp [syncHeader, route_length, hnonce]
  have hdrop : (syncHeader sync nonce).drop 5 = nonce := List.drop_left' (by simp [route_length])
  obtain ⟨htype, hconv, hsender, -⟩ :=
    route_reads (by rw [hf.type]; decide : sync.type < 256 ^ 1) hf.convId hf.senderId nonce
  rw [← syncHeader] at htype hconv hsender
  have hseq : sync.highestSeq < 256 ^ 3 := hf.highestSeq
  obtain ⟨buf, hbuf, hlen, hread, hend, -, hopen⟩ :=
    sealed_facts hC hbody hkey (bytesBE 3 sync.highestSeq) (a := 5) (n := 17) rfl hheader hdrop
  simp only [Nat.cast_ofNat] at hend hopen
  rw [← hbuf]
  simp (disch := decide) only [Codec.decodeSync, Buffer.readUInt8, Buffer.readUInt16BE, hread, htype,
    hconv, hsender, hend, hopen, readUIntBE_head_nil hseq, Option.bind_eq_bind,
    Option.bind_some]

omit hC hbody hkey hnonce in
theorem seqBytes_length (seqs : List ℕ) : (seqBytes seqs).length = 3 * seqs.length := by
  induction seqs with
  | nil => rfl
  | cons seq seqs ih =>
    rw [seqBytes, List.flatMap_cons, List.length_append, ← seqBytes, ih, length_bytesBE,
      List.length_cons]
    ring

omit hC hbody hkey hnonce in
/-- In a frame that ends with the tag it does not matter which end of the rest is taken for it. -/
theorem openedNack_eq {buf : Buffer} {n : ℕ} (hlen : buf.length = n + 16) :
    openedNack C key n buf = checkedNack C key n buf := by
  have hend : (buf.length : ℤ) - 16 = (n : ℤ) := by omega
  have hbody : buf.subarray n n = [] := by
    rw [subarray_of_le (le_refl n) (by omega), Nat.sub_self, List.take_zero]
  rw [openedNack, checkedNack, hend, hbody, Buffer.subarrayFrom, hlen]

theorem decodeNack_wire {nack : NackDart} (hf : NackFits nack) :
    Codec.parseNack (sealedFrame C key nonce (nackHeader nack nonce) []) = some nack ∧
      Codec.decodeNack C (sealedFrame C key nonce (nackHeader nack nonce) []) key = some nack := by
  have hparse : Codec.parseNack (sealedFrame C key nonce (nackHeader nack nonce) []) = some nack := by
    rw [Codec.parseNack_encodeNack (encodeNack_wire hkey hnonce hbody hf)]
    congr 2
    rw [List.map_congr_left fun seq hseq => Nat.mod_eq_of_lt (hf.seqs seq hseq), List.map_id']
  refine ⟨hparse, ?_⟩
  have hheader : (nackHeader nack nonce).length = Codec.nackPrefixLen nack.missingSeq.length := by
    simp [nackHeader, route_length, hnonce, seqBytes_length, Codec.nackPrefixLen]
    omega
  have htag := hC.tag_length key nonce (nackHeader nack nonce) []
  have hlaw := hC.decrypt_encrypt key nonce (nackHeader nack nonce) [] hnonce
  have hnil : (C.gcmEncrypt key nonce (nackHeader nack nonce) []).1 = [] :=
    List.eq_nil_of_length_eq_zero (hbody key nonce _ [])
  rw [hnil] at hlaw
  have hslices : ∀ tag : Buffer, tag.length = 16 →
      Buffer.subarray (nackHeader nack nonce ++ tag) 7 19 = nonce ∧
      Buffer.subarray (nackHeader nack nonce ++ tag) 0 (Codec.nackPrefixLen nack.missingSeq.length)
        = nackHeader nack nonce ∧
      Buffer.subarray (nackHeader nack nonce ++ tag) (Codec.nackPrefixLen nack.missingSeq.length)
        ((Codec.nackPrefixLen nack.missingSeq.length + 16 : ℕ) : ℤ) = tag := by
    intro tag htag
    refine ⟨?_, ?_, ?_⟩
    · have hsplit : nackHeader nack nonce ++ tag
          = (route nack.type nack.convId nack.senderId ++ bytesBE 2 nack.targetId) ++
            (nonce ++ (bytesBE 2 nack.missingSeq.length ++ (seqBytes nack.missingSeq ++ tag))) := by
        simp only [nackHeader, List.append_assoc]
      rw [hsplit]
      exact subarray_append (s := 7) (e := 19) (by simp [route_length]) (by rw [hnonce])
    · exact subarray_append (p := []) (s := 0) rfl (by rw [hheader, Nat.zero_add])
    · have hsplit : nackHeader nack nonce ++ tag = nackHeader nack nonce ++ (tag ++ []) := by
        rw [List.append_nil]
      rw [hsplit]
      exact subarray_append hheader (by rw [htag])
  rw [decodeNack_eq, hparse, Option.bind_some, checkNack, sealedFrame_nil hbody]
  obtain ⟨h₁, h₂, h₃⟩ := hslices _ htag
  simp only [checkedNack, h₁, h₂, h₃, Crypto.decipher, if_pos hkey, hlaw, Option.map_some]
  rw [if_neg (by rw [List.length_append, hheader, htag]; omega)]

end RoundTrips

section Shares

variable (hC : C.Lawful) (hbody : LengthPreserving C) {key : Buffer} (hkey : key.length = 32)

include hC hbody hkey

theorem decodeKeyShare_wire {share : KeyShareDart} (hf : KeyShareFits share) :
    Codec.decodeKeyShare C (sealedFrame C key share.nonce (keyShareHeader share) share.encryptedKey) key
      = some (share.epoch, share.encryptedKey) := by
  have hheader : (keyShareHeader share).length = 21 := by
    simp [keyShareHeader, shareHeader, route_length, hf.nonce]
  have hdrop : (keyShareHeader share).drop 9 = share.nonce := by
    rw [keyShareHeader, shareHeader, ← List.append_assoc, ← List.append_assoc]
    exact List.drop_left' (by simp [route_length])
  have hepoch : (keyShareHeader share).readUIntBE 7 2 = some share.epoch := by
    rw [keyShareHeader, shareHeader, read_skip (route_length _ _ _) (by decide),
      read_skip (k := 2) (by simp) (by decide), readUIntBE_head hf.epoch]
  obtain ⟨buf, hbuf, hlen, hread, hend, -, hopen⟩ :=
    sealed_facts hC hbody hkey share.encryptedKey (a := 9) (n := 21) rfl hheader hdrop
  simp only [Nat.cast_ofNat] at hend hopen
  rw [hf.encryptedKey] at hlen
  rw [← hbuf]
  simp (disch := decide) only [Codec.decodeKeyShare, if_neg (show ¬ buf.length < 21 + 48 by omega),
    Buffer.readUInt16BE, hread, hepoch, hend, hopen, Option.bind_eq_bind, Option.bind_some]

end Shares

theorem decodeKeyReq_wire {req : KeyReqDart} (hf : KeyReqFits req) :
    Codec.decodeKeyReq (keyReqFrame req) = some req := by
  obtain ⟨htype, hconv, hsender, -⟩ :=
    route_reads (by rw [hf.type]; decide : req.type < 256 ^ 1) hf.convId hf.senderId
      (req.reqNonce ++ req.clientPubKey)
  rw [← keyReqFrame] at htype hconv hsender
  have hnonce : (keyReqFrame req).subarray 5 21 = req.reqNonce :=
    subarray_append (s := 5) (e := 21) (route_length _ _ _) (by rw [hf.reqNonce])
  have hpub : (keyReqFrame req).subarrayFrom 21 = req.clientPubKey := by
    rw [keyReqFrame, ← List.append_assoc]
    exact subarrayFrom_append (s := 21) (by simp [route_length, hf.reqNonce])
  simp only [Codec.decodeKeyReq, Buffer.readUInt8, Buffer.readUInt16BE, htype, hconv, hsender, hnonce,
    hpub, Option.bind_eq_bind, Option.bind_some]

/-! ### Rosters -/

variable {ms : List RosterEntry}

theorem readMembers_flatMap (hids : ∀ m ∈ ms, m.senderId < 65536)
    (hkeys : ∀ m ∈ ms, m.pubKey.length = 65) :
    ∀ {p : Buffer} {off : ℕ}, p.length = off →
      Codec.readMembers (p ++ ms.flatMap RustCodec.memberBytes) off ms.length = some ms := by
  induction ms with
  | nil => exact fun _ => rfl
  | cons m ms ih =>
    intro p off hoff
    have hid : m.senderId < 256 ^ 2 := hids m List.mem_cons_self
    have hkey := hkeys m List.mem_cons_self
    have hsplit : p ++ (m :: ms).flatMap RustCodec.memberBytes
        = p ++ (bytesBE 2 m.senderId ++ (m.pubKey ++ ms.flatMap RustCodec.memberBytes)) := by
      simp [RustCodec.memberBytes]
    have hread : (p ++ (m :: ms).flatMap RustCodec.memberBytes).readUInt16BE off = some m.senderId := by
      rw [hsplit, Buffer.readUInt16BE, read_skip hoff (le_refl _), Nat.sub_self,
        readUIntBE_head hid]
    have hpub : (p ++ (m :: ms).flatMap RustCodec.memberBytes).subarray ((off + 2 : ℕ) : ℤ)
        ((off + Codec.rosterEntryLen : ℕ) : ℤ) = m.pubKey := by
      rw [hsplit, ← List.append_assoc]
      exact subarray_append (by simp [hoff]) (by rw [hkey, Codec.rosterEntryLen])
    have hrest : Codec.readMembers (p ++ (m :: ms).flatMap RustCodec.memberBytes)
        (off + Codec.rosterEntryLen) ms.length = some ms := by
      rw [List.flatMap_cons, ← List.append_assoc]
      exact ih (fun m' h => hids m' (List.mem_cons_of_mem _ h))
        (fun m' h => hkeys m' (List.mem_cons_of_mem _ h))
        (by simp [RustCodec.memberBytes, hoff, hkey, Codec.rosterEntryLen])
    rw [List.length_cons, Codec.readMembers, hread]
    simp only [Option.bind_eq_bind, Option.bind_some, hpub, hrest]

theorem flatMap_memberBytes_length (hkeys : ∀ m ∈ ms, m.pubKey.length = 65) :
    (ms.flatMap RustCodec.memberBytes).length = ms.length * 67 := by
  induction ms with
  | nil => rfl
  | cons m ms ih =>
    have hm : (RustCodec.memberBytes m).length = 67 := by
      simp [RustCodec.memberBytes, hkeys m List.mem_cons_self]
    rw [List.flatMap_cons, List.length_append, hm,
      ih fun m' h => hkeys m' (List.mem_cons_of_mem _ h), List.length_cons]
    ring

theorem readRoster_memberPayload {info : MemberInfo} (hf : MemberInfoFits info) :
    readRoster (memberPayload info) = some (info.creator, info.members) ∧
      GoCodec.readRoster (memberPayload info) = some (info.creator, info.members) ∧
      RustCodec.readRoster (memberPayload info) = some (some (info.creator, info.members)) := by
  have hflag : (if info.creator then 1 else 0) < 256 ^ 1 := by split <;> decide
  have hcreator : decide ((if info.creator then 1 else 0) = 1) = info.creator := by
    cases info.creator <;> rfl
  have hlen : (memberPayload info).length = 3 + info.members.length * 67 := by
    simp [memberPayload, flatMap_memberBytes_length hf.pubKeys]
    omega
  have h₀ : (memberPayload info).readUIntBE 0 1 = some (if info.creator then 1 else 0) := by
    rw [memberPayload, readUIntBE_head hflag]
  have h₁ : (memberPayload info).readUIntBE 1 2 = some info.members.length := by
    rw [memberPayload, read_skip (k := 1) (by simp) (le_refl _), readUIntBE_head hf.count]
  have hms : Codec.readMembers (memberPayload info) 3 info.members.length = some info.members := by
    rw [memberPayload, ← List.append_assoc]
    exact readMembers_flatMap hf.ids hf.pubKeys (by simp)
  have hgo : GoCodec.readMembers (memberPayload info) 3 info.members.length = some info.members := by
    rw [goReadMembers_eq (by omega), hms]
  refine ⟨?_, ?_, ?_⟩
  · simp only [readRoster, Buffer.readUInt8, Buffer.readUInt16BE, h₀, h₁, hms, hcreator,
      Option.bind_eq_bind, Option.bind_some]
  · simp (disch := rfl) only [GoCodec.readRoster, index_eq, uint16_slice, Buffer.readUInt8,
      Buffer.readUInt16BE, h₀, h₁, hgo, hcreator, Option.bind_eq_bind, Option.bind_some]
  · simp (disch := rfl) only [RustCodec.readRoster, index_eq, uint16_slice, Buffer.readUInt8,
      Buffer.readUInt16BE, h₀, h₁, rustReadMembers_eq, hgo, hcreator, Option.bind_eq_bind,
      Option.bind_some, if_neg (show ¬ (memberPayload info).length < 3 by omega)]

section MemberInfo

variable {key nonce : Buffer} {info : MemberInfo}

theorem memberHeader_length (hnonce : nonce.length = 12) (hserver : info.serverPubKey.length = 65) :
    (memberHeader info nonce).length = 82 := by
  simp [memberHeader, route_length, hnonce, hserver]

theorem memberFrame_opened (hC : C.Lawful) (hkey : key.length = 32) (hnonce : nonce.length = 12)
    (hserver : info.serverPubKey.length = 65) (payload : Buffer) :
    opened C key 70 82 (sealedFrame C key nonce (memberHeader info nonce) payload) = some payload := by
  have hdrop : (memberHeader info nonce).drop 70 = nonce := by
    rw [memberHeader, ← List.append_assoc]
    exact List.drop_left' (by simp [route_length, hserver])
  exact (opened_sealed hkey hC payload rfl (memberHeader_length hnonce hserver) hdrop).1

theorem memberFrame_header (key payload : Buffer) (htype : info.type < 256 ^ 1)
    (hconv : info.convId < 256 ^ 2) (hsender : info.senderId < 256 ^ 2)
    (hserver : info.serverPubKey.length = 65) (nonce : Buffer) :
    (sealedFrame C key nonce (memberHeader info nonce) payload).subarray 5 70 = info.serverPubKey ∧
      ∀ roster, memberInfoOf (sealedFrame C key nonce (memberHeader info nonce) payload) roster
        = some { info with creator := roster.1, members := roster.2 } := by
  obtain ⟨rest, hframe⟩ : ∃ rest, sealedFrame C key nonce (memberHeader info nonce) payload
      = route info.type info.convId info.senderId ++ (info.serverPubKey ++ rest) :=
    ⟨nonce ++ ((C.gcmEncrypt key nonce (memberHeader info nonce) payload).1 ++
      (C.gcmEncrypt key nonce (memberHeader info nonce) payload).2), by
      simp only [sealedFrame, memberHeader, List.append_assoc]⟩
  obtain ⟨h₀, h₁, h₃, -⟩ := route_reads htype hconv hsender (info.serverPubKey ++ rest)
  have hslice : Buffer.subarray (route info.type info.convId info.senderId ++
      (info.serverPubKey ++ rest)) 5 70 = info.serverPubKey :=
    subarray_append (s := 5) (e := 70) (route_length _ _ _) (by rw [hserver])
  rw [hframe]
  refine ⟨hslice, fun roster => ?_⟩
  rw [memberInfoOf_reads h₀ h₁ h₃, hslice]

theorem memberFrame_length (hC : C.Lawful) (key : Buffer) (hnonce : nonce.length = 12)
    (hserver : info.serverPubKey.length = 65) (payload : Buffer) :
    98 ≤ (sealedFrame C key nonce (memberHeader info nonce) payload).length := by
  have htag := hC.tag_length key nonce (memberHeader info nonce) payload
  rw [sealedFrame, List.length_append, List.length_append, htag, memberHeader_length hnonce hserver]
  omega

theorem MemberInfoFits.header (hf : MemberInfoFits info) (key payload : Buffer) :
    (sealedFrame C key nonce (memberHeader info nonce) payload).subarray 5 70 = info.serverPubKey ∧
      memberInfoOf (sealedFrame C key nonce (memberHeader info nonce) payload)
        (info.creator, info.members) = some info := by
  have htype : info.type < 256 ^ 1 := by rw [hf.type]; decide
  have h := memberFrame_header (C := C) key payload htype hf.convId hf.senderId hf.serverPubKey nonce
  exact ⟨h.1, h.2 _⟩

theorem memberInfoServerKey_wire (hC : C.Lawful) (key : Buffer) (hnonce : nonce.length = 12)
    (hf : MemberInfoFits info) :
    Codec.memberInfoServerKey
        (sealedFrame C key nonce (memberHeader info nonce) (memberPayload info))
      = some info.serverPubKey := by
  have hlen := memberFrame_length hC key hnonce hf.serverPubKey (memberPayload info)
  rw [Codec.memberInfoServerKey, if_neg (by omega), (hf.header key _).1]

theorem decodeMemberInfo_wire (hC : C.Lawful) (hkey : key.length = 32) (hnonce : nonce.length = 12)
    (hf : MemberInfoFits info) :
    Codec.decodeMemberInfo C
        (sealedFrame C key nonce (memberHeader info nonce) (memberPayload info)) key = some info := by
  rw [decodeMemberInfo_eq (memberFrame_length hC key hnonce hf.serverPubKey _),
    memberFrame_opened hC hkey hnonce hf.serverPubKey, Option.bind_some,
    (readRoster_memberPayload hf).1, Option.bind_some, (hf.header key _).2]

theorem memberInfo_wire (hC : C.Lawful) (A : GoCodec.ShortAes) (hkey : key.length = 32)
    (hnonce : nonce.length = 12) (hf : MemberInfoFits info) :
    Codec.decodeMemberInfo C
        (sealedFrame C key nonce (memberHeader info nonce) (memberPayload info)) key = some info ∧
      GoCodec.decodeMemberInfo C A
        (sealedFrame C key nonce (memberHeader info nonce) (memberPayload info)) key
          = some (some info) ∧
      RustCodec.decodeMemberInfo C
        (sealedFrame C key nonce (memberHeader info nonce) (memberPayload info)) key
          = some (some (rustMemberInfo info)) := by
  have hopen := memberFrame_opened hC hkey hnonce hf.serverPubKey (memberPayload info)
  have hlen := memberFrame_length hC key hnonce hf.serverPubKey (memberPayload info)
  obtain ⟨-, hinfo⟩ := @MemberInfoFits.header C nonce info hf key (memberPayload info)
  obtain ⟨-, hgo, hrust⟩ := readRoster_memberPayload hf
  refine ⟨decodeMemberInfo_wire hC hkey hnonce hf, ?_, ?_⟩
  · rw [goDecodeMemberInfo_eq hkey A (by omega), hopen, tryOk_ok, hgo, Option.map_some, hinfo]
  · rw [rustDecodeMemberInfo_eq hkey (by omega), hopen, tryOk_ok, hrust, Option.map_some,
      Option.bind_some, hinfo]
    rfl

/-! ### Rosters with keys of any length -/

/-- Writing entries changes nothing in front of them. -/
theorem writeMembers_keeps {ms : List RosterEntry} :
    ∀ {p out : Buffer} {off : ℕ}, Codec.writeMembers p off ms = some out →
      out.length = p.length ∧ ∀ o n, o + n ≤ off → out.readUIntBE o n = p.readUIntBE o n := by
  induction ms with
  | nil =>
    intro p out off h
    cases h
    exact ⟨rfl, fun _ _ _ => rfl⟩
  | cons m ms ih =>
    intro p out off h
    rw [Codec.writeMembers] at h
    obtain ⟨q, hq, h⟩ := Option.bind_eq_some_iff.mp h
    have hlen := length_of_writeUIntBE hq
    have hroom : off + 2 ≤ q.length := by
      have hread := readUIntBE_of_writeUIntBE hq
      exact readUIntBE_isSome_iff.mp (by rw [hread]; rfl)
    obtain ⟨hout, hreads⟩ := ih h
    refine ⟨hout.trans ((length_copy hroom).trans hlen), fun o n hle => ?_⟩
    rw [hreads o n (by omega), readUIntBE_copy_right (by omega) hroom, readUIntBE_of_write_right hq hle]

/-- **A roster frame**, whatever the registered keys are. -/
theorem encodeMemberInfo_frame {buf : Buffer} (h : Codec.encodeMemberInfo C info key nonce = some buf) :
    key.length = 32 ∧ info.type < 256 ^ 1 ∧ info.convId < 256 ^ 2 ∧ info.senderId < 256 ^ 2 ∧
      ∃ payload, buf = sealedFrame C key nonce (memberHeader info nonce) payload ∧
        payload.length = 3 + info.members.length * 67 ∧
        payload.readUIntBE 0 1 = some (if info.creator then 1 else 0) ∧
        payload.readUIntBE 1 2 = some info.members.length := by
  simp only [Codec.encodeMemberInfo, Option.bind_eq_bind, Option.bind_eq_some_iff] at h
  obtain ⟨h₁, e₁, h₂, e₂, h₃, e₃, p₁, f₁, p₂, f₂, payload, f₃, sealed, hsealed, hbuf⟩ := h
  have htype := lt_of_writeUIntBE e₁
  have hconv := lt_of_writeUIntBE e₂
  have hsender := lt_of_writeUIntBE e₃
  rw [Crypto.cipher] at hsealed
  split at hsealed
  · rename_i hkey
    refine ⟨hkey, htype, hconv, hsender, payload, ?_, ?_, ?_, ?_⟩
    · simp (disch := first | assumption | (simp; done) | omega) only [Buffer.writeUInt8,
        writeUIntBE_first, Option.some.injEq] at e₁
      subst e₁
      simp (disch := first | assumption | (simp; done) | omega) only [Buffer.writeUInt16BE,
        writeUIntBE_next, Option.some.injEq] at e₂
      subst e₂
      simp (disch := first | assumption | (simp; done) | omega) only [Buffer.writeUInt16BE,
        writeUIntBE_next, Option.some.injEq] at e₃
      subst e₃
      cases hsealed
      cases hbuf
      simp [Buffer.concat, sealedFrame, memberHeader, route, Buffer.alloc]
    · rw [(writeMembers_keeps f₃).1, length_of_writeUIntBE f₂, length_of_writeUIntBE f₁,
        Buffer.alloc, List.length_replicate, Codec.rosterEntryLen]
    · rw [(writeMembers_keeps f₃).2 0 1 (by decide), readUIntBE_of_write_right f₂ (by decide)]
      exact readUIntBE_of_writeUIntBE f₁
    · rw [(writeMembers_keeps f₃).2 1 2 (by decide)]
      exact readUIntBE_of_writeUIntBE f₂
  · cases hsealed

variable {buf : Buffer}

theorem encodeMemberInfo_length (hC : C.Lawful) (hbody : LengthPreserving C)
    (hnonce : nonce.length = 12) (hserver : info.serverPubKey.length = 65)
    (h : Codec.encodeMemberInfo C info key nonce = some buf) :
    buf.length = 101 + 67 * info.members.length := by
  obtain ⟨-, -, -, -, payload, rfl, hlen, -, -⟩ := encodeMemberInfo_frame h
  rw [sealedFrame_length hC hbody, memberHeader_length hnonce hserver, hlen]
  omega

/-- **Whoever has the key reads who the frame is for and the creator flag.** -/
theorem exists_decodeMemberInfo (hC : C.Lawful) (hnonce : nonce.length = 12)
    (hserver : info.serverPubKey.length = 65)
    (h : Codec.encodeMemberInfo C info key nonce = some buf) :
    ∃ members, Codec.decodeMemberInfo C buf key = some { info with members } := by
  obtain ⟨hkey, htype, hconv, hsender, payload, rfl, hlen, hflag, hcount⟩ := encodeMemberInfo_frame h
  obtain ⟨members, hmembers⟩ := Option.isSome_iff_exists.mp (readMembers_isSome hlen.ge)
  have hcreator : decide ((if info.creator then 1 else 0) = 1) = info.creator := by
    cases info.creator <;> rfl
  refine ⟨members, ?_⟩
  rw [decodeMemberInfo_eq (memberFrame_length hC key hnonce hserver _),
    memberFrame_opened hC hkey hnonce hserver, Option.bind_some, readRoster]
  simp only [Buffer.readUInt8, Buffer.readUInt16BE, hflag, hcount, hmembers, hcreator,
    Option.bind_eq_bind, Option.bind_some]
  exact (memberFrame_header key payload htype hconv hsender hserver nonce).2 _

end MemberInfo

/-! ### Data -/

section Data

variable {key nonce : Buffer}

/-- What `frame` has to hold and the decoders have to return for a dart whose payload was compressed to
`compressed`. -/
structure DataFormat (C : Crypto) (A : GoCodec.ShortAes) (key nonce : Buffer) (dart : DataDart)
    (dict : Buffer) (idx epoch : ℕ) (compressed frame : Buffer) : Prop where
  header : frame.take 31 = Codec.dataPrefix C dart dict idx epoch nonce
  ts : Codec.decryptData C frame key = some
    { type := dart.type, convId := dart.convId, senderId := dart.senderId, seq := dart.seq,
      compressed := compressed, dictFp := dictFingerprint C dict, idx := idx }
  go : GoCodec.decryptData C A frame key = some (some
    { type := dart.type, convId := dart.convId, senderId := dart.senderId, seq := dart.seq,
      compressed := compressed, dictFp := dictFingerprint C dict, idx := idx, epoch := epoch })
  rust : RustCodec.decryptData C frame key = some (some
    { convId := dart.convId, senderId := dart.senderId, seq := dart.seq, compressed := compressed,
      dictFp := dictFingerprint C dict, epoch := epoch, idx := idx })

/-- The nonce and the fingerprint of a prefix, whatever follows it. -/
theorem dataPrefix_slices (hC : C.Lawful) (hnonce : nonce.length = 12) (dart : DataDart)
    (dict : Buffer) (idx epoch : ℕ) (rest : Buffer) :
    Buffer.subarray (Codec.dataPrefix C dart dict idx epoch nonce ++ rest) 9 21 = nonce ∧
      Buffer.subarray (Codec.dataPrefix C dart dict idx epoch nonce ++ rest) 23 27
        = dictFingerprint C dict := by
  have hfp := dictFingerprint_length hC dict
  simp only [Codec.dataPrefix, List.append_assoc]
  constructor
  · rw [← List.append_assoc, ← List.append_assoc, ← List.append_assoc, ← List.append_assoc]
    exact subarray_append (s := 9) (e := 21) (by simp) (by rw [hnonce])
  · rw [← List.append_assoc, ← List.append_assoc, ← List.append_assoc, ← List.append_assoc,
      ← List.append_assoc, ← List.append_assoc]
    exact subarray_append (s := 23) (e := 27) (by simp [hnonce]) (by rw [hfp])

/-- The parts of a sealed dart `buf` with prefix `P`. -/
structure DataFrame (C : Crypto) (key nonce : Buffer) (dart : DataDart) (dict : Buffer) (idx epoch : ℕ)
    (plain P buf : Buffer) : Prop where
  length : 47 ≤ buf.length
  own : Codec.HeaderFields dart idx epoch P
  full : Codec.HeaderFields dart idx epoch buf
  header : buf.subarray 0 31 = P
  lengthP : P.length = 31
  nonceP : P.subarray 9 21 = nonce
  dictFpP : P.subarray 23 27 = dictFingerprint C dict
  ownNonce : buf.subarray 9 21 = nonce
  dictFp : buf.subarray 23 27 = dictFingerprint C dict
  opens : C.decipher key nonce P (buf.subarray 31 ((buf.length : ℤ) - 16))
    (buf.subarrayFrom ((buf.length : ℤ) - 16)) = some plain

theorem dataFrame_sealed (hC : C.Lawful) (hbody : LengthPreserving C) (hkey : key.length = 32)
    (hnonce : nonce.length = 12) {dart : DataDart} (dict : Buffer) {idx epoch : ℕ}
    (hf : DataDartFits dart idx epoch) (plain : Buffer) :
    DataFrame C key nonce dart dict idx epoch plain (Codec.dataPrefix C dart dict idx epoch nonce)
      (sealedFrame C key nonce (Codec.dataPrefix C dart dict idx epoch nonce) plain) := by
  have hfits : Codec.DataFits dart key epoch :=
    ⟨by rw [hf.type]; decide, hf.convId, hf.senderId, hf.epoch, hkey⟩
  have hfull : ∀ rest, Codec.HeaderFields dart idx epoch
      (Codec.dataPrefix C dart dict idx epoch nonce ++ rest) :=
    Codec.dataPrefix_headerFields hC hnonce hfits
  have hown := hfull []
  obtain ⟨hn, hfp⟩ := dataPrefix_slices hC hnonce dart dict idx epoch []
  rw [List.append_nil] at hown hn hfp
  have hlenP := Codec.dataPrefix_length hC dart dict idx epoch hnonce
  have hlen := sealedFrame_length hC hbody key nonce (Codec.dataPrefix C dart dict idx epoch nonce) plain
  have hslices := dataPrefix_slices hC hnonce dart dict idx epoch
  have hheader : (sealedFrame C key nonce (Codec.dataPrefix C dart dict idx epoch nonce)
      plain).subarray 0 31 = Codec.dataPrefix C dart dict idx epoch nonce :=
    subarray_append (p := []) (s := 0) (e := 31) rfl (by rw [hlenP])
  exact
    { length := by omega
      own := hown
      full := hfull _
      header := hheader
      lengthP := hlenP
      nonceP := hn
      dictFpP := hfp
      ownNonce := (hslices _).1
      dictFp := (hslices _).2
      opens := sealed_opens hkey hC hnonce plain hlenP }

section Decrypt

variable {dart : DataDart} {dict : Buffer} {idx epoch : ℕ} {plain P buf : Buffer}
  (h : DataFrame C key nonce dart dict idx epoch plain P buf) (hf : DataDartFits dart idx epoch)

include h hf

theorem decryptData_frame : Codec.decryptData C buf key = some
    { type := dart.type, convId := dart.convId, senderId := dart.senderId, seq := dart.seq,
      compressed := plain, dictFp := dictFingerprint C dict, idx := idx } := by
  have hseq := h.full.seq
  have hidx := h.own.idx
  rw [Nat.mod_eq_of_lt hf.seq] at hseq
  rw [Nat.mod_eq_of_lt hf.idx] at hidx
  simp only [Codec.decryptData, h.full.type, h.full.convId, hseq, h.full.extLen, Nat.reduceAdd,
    Nat.cast_ofNat, h.header, h.own.senderId, h.own.epoch, hidx, h.nonceP, h.dictFpP, h.opens,
    Option.bind_eq_bind, Option.bind_some]

theorem goDecryptData_frame (A : GoCodec.ShortAes) (hkey : key.length = 32)
    (hnonce : nonce.length = 12) : GoCodec.decryptData C A buf key = some (some
    { type := dart.type, convId := dart.convId, senderId := dart.senderId, seq := dart.seq,
      compressed := plain, dictFp := dictFingerprint C dict, idx := idx, epoch := epoch }) := by
  have hlen := h.length
  have hseq := h.full.seq
  have hidx := h.full.idx
  rw [Nat.mod_eq_of_lt hf.seq] at hseq
  rw [Nat.mod_eq_of_lt hf.idx] at hidx
  have hopen := goOpen_tail (C := C) hkey A P (n := 31) hnonce (by omega : 31 + 16 ≤ buf.length)
  rw [Nat.cast_ofNat, h.opens, Buffer.subarrayFrom] at hopen
  simp (disch := rfl) only [GoCodec.decryptData, index_eq, uint16_slice, uint24_slice, uint32_slice,
    h.full.type, h.full.convId, hseq, h.full.extLen, h.full.senderId, h.full.epoch, hidx,
    Option.bind_eq_bind, Option.bind_some, Nat.reduceAdd,
    if_neg (show ¬ buf.length < 7 by omega), if_neg (show ¬ buf.length < 47 by omega)]
  simp (disch := omega) only [slice_eq_subarray, Option.bind_some,
    Nat.cast_ofNat, Nat.cast_zero, h.header, h.ownNonce, h.dictFp, hopen, tryOk_ok]

theorem rustDecryptData_frame (hkey : key.length = 32) (hnonce : nonce.length = 12) :
    RustCodec.decryptData C buf key = some (some
    { convId := dart.convId, senderId := dart.senderId, seq := dart.seq, compressed := plain,
      dictFp := dictFingerprint C dict, epoch := epoch, idx := idx }) := by
  have hlen := h.length
  have hlenP := h.lengthP
  have hseq := h.full.seq
  have hidx := h.own.idx
  rw [Nat.mod_eq_of_lt hf.seq] at hseq
  rw [Nat.mod_eq_of_lt hf.idx] at hidx
  have hopen := rustOpen_tail (C := C) hkey P (n := 31) hnonce (by omega : 31 + 16 ≤ buf.length)
  rw [Nat.cast_ofNat, h.opens, Buffer.subarrayFrom] at hopen
  have hslice : slice buf 0 31 = some P :=
    (slice_eq_subarray (Nat.zero_le 31) (by omega)).trans (congrArg some h.header)
  simp (disch := rfl) only [RustCodec.decryptData, index_eq, uint16_slice, uint24_slice, uint32_slice,
    h.full.convId, hseq, h.full.extLen, Option.bind_eq_bind, Option.bind_some, Nat.reduceAdd,
    if_neg (show ¬ buf.length < 7 by omega), if_neg (show ¬ buf.length < 47 by omega), hslice,
    h.own.senderId, h.own.epoch, hidx]
  simp (disch := omega) only [slice_eq_subarray, Option.bind_some,
    Nat.cast_ofNat, h.nonceP, h.dictFpP, hopen, tryOk_ok]

end Decrypt

theorem dataFormat_sealed (hC : C.Lawful) (hbody : LengthPreserving C) (A : GoCodec.ShortAes)
    (hkey : key.length = 32) (hnonce : nonce.length = 12) {dart : DataDart} (dict : Buffer)
    {idx epoch : ℕ} (hf : DataDartFits dart idx epoch) (plain : Buffer) :
    DataFormat C A key nonce dart dict idx epoch plain
      (sealedFrame C key nonce (Codec.dataPrefix C dart dict idx epoch nonce) plain) := by
  have h := dataFrame_sealed hC hbody hkey hnonce dict hf plain
  exact
    { header := List.take_left' h.lengthP
      ts := decryptData_frame h hf
      go := goDecryptData_frame h hf A hkey hnonce
      rust := rustDecryptData_frame h hf hkey hnonce }

end Data

/-! ### One wire format -/

/-- The encoders `ts`, `go` and `rust` give one frame, and each decoder reads its value out of it. -/
def OneFormat {α β γ : Type} (ts : Option Buffer) (go rust : Option (Option Buffer))
    (tsDecode : Buffer → Option α) (goDecode : Buffer → Option (Option β))
    (rustDecode : Buffer → Option (Option γ)) (value : α) (goValue : β) (rustValue : γ) : Prop :=
  ∃ frame, ts = some frame ∧ go = some (some frame) ∧ rust = some (some frame) ∧
    tsDecode frame = some value ∧ goDecode frame = some (some goValue) ∧
    rustDecode frame = some (some rustValue)

/-- The conversation a frame names is the one its key is looked up for. -/
theorem convKey_of_route {key' : Buffer} {keys : NumMap Buffer} {type convId senderId : ℕ}
    (htype : type < 256 ^ 1) (hconv : convId < 256 ^ 2) (hsender : senderId < 256 ^ 2) (rest : Buffer)
    (hkeys : keys.get convId = some key') :
    ∀ conv, (route type convId senderId ++ rest).readUInt16BE 1 = some conv →
      keys.get conv = some key' := by
  intro conv hread
  obtain ⟨-, h, -, -⟩ := route_reads htype hconv hsender rest
  rw [Buffer.readUInt16BE, h] at hread
  cases hread
  exact hkeys

section Formats

variable (hC : C.Lawful) (hbody : LengthPreserving C) (A : GoCodec.ShortAes) {key nonce : Buffer}
  (hkey : key.length = 32) {g : GoCodec.Codec} {r : RustCodec.Codec}

include hC hbody hkey

theorem keyShare_format {share : KeyShareDart} (hf : KeyShareFits share) :
    OneFormat (Codec.encodeKeyShare C share key) (GoCodec.encodeKeyShare C A share key)
      (RustCodec.encodeKeyShare C (rustKeyShare share) key)
      (fun buf => Codec.decodeKeyShare C buf key) (fun buf => GoCodec.decodeKeyShare C A buf key)
      (fun buf => RustCodec.decodeKeyShare C buf key) (share.epoch, share.encryptedKey)
      (share.epoch, share.encryptedKey) (share.epoch, share.encryptedKey) := by
  have hdec := decodeKeyShare_wire hC hbody hkey hf
  have hlen := sealedFrame_length hC hbody key share.nonce (keyShareHeader share) share.encryptedKey
  have hheader : (keyShareHeader share).length = 21 := by
    simp [keyShareHeader, shareHeader, route_length, hf.nonce]
  rw [hf.encryptedKey] at hlen
  have hothers := keyShareDecoders_eq (C := C) hkey A (le_trans (by omega) hlen.ge)
  rw [hdec] at hothers
  exact ⟨_, encodeKeyShare_wire hkey hf, goEncodeKeyShare_wire hkey A hf,
    rustEncodeKeyShare_wire hkey hf, hdec, hothers⟩

theorem chainShare_format {share : ChainShareDart} (hf : ChainShareFits share) :
    OneFormat (Codec.encodeChainShare C share key) (GoCodec.encodeChainShare C A share key)
      (RustCodec.encodeChainShare C (rustChainShare share) key)
      (fun buf => Codec.decodeChainShare C buf key) (fun buf => GoCodec.decodeChainShare C A buf key)
      (fun buf => RustCodec.decodeChainShare C buf key) share share (rustChainShare share) := by
  have hheader : (chainShareHeader share).length = 21 := by
    simp [chainShareHeader, shareHeader, route_length, hf.nonce]
  have hdrop : (chainShareHeader share).drop 9 = share.nonce := by
    rw [chainShareHeader, shareHeader, ← List.append_assoc, ← List.append_assoc]
    exact List.drop_left' (by simp [route_length])
  obtain ⟨htype, hconv, hsender, hrest⟩ :=
    route_reads (by rw [hf.type]; decide : share.type < 256 ^ 1) hf.convId hf.senderId
      (bytesBE 2 share.targetId ++ (bytesBE 2 share.epoch ++ share.nonce))
  rw [← shareHeader, ← chainShareHeader] at htype hconv hsender
  have htarget : (chainShareHeader share).readUIntBE 5 2 = some share.targetId := by
    rw [chainShareHeader, shareHeader, hrest _ _ (by decide), readUIntBE_head hf.targetId]
  have hepoch : (chainShareHeader share).readUIntBE 7 2 = some share.epoch := by
    rw [chainShareHeader, shareHeader, hrest _ _ (by decide), read_skip (k := 2) (by simp) (by decide),
      readUIntBE_head hf.epoch]
  have hindex : (chainSharePayload share).readUIntBE 32 4 = some share.chainIndex := by
    rw [chainSharePayload, read_skip hf.chainKey (le_refl _)]
    exact readUIntBE_head_nil hf.chainIndex
  have hchain : (chainSharePayload share).subarray 0 32 = share.chainKey :=
    subarray_append (p := []) (s := 0) (e := 32) rfl (by rw [hf.chainKey])
  obtain ⟨buf, hbuf, hlen, hread, hend, -, hopen⟩ :=
    sealed_facts hC hbody hkey (chainSharePayload share) (a := 9) (n := 21) rfl hheader hdrop
  simp only [Nat.cast_ofNat] at hend hopen
  have hpayload : (chainSharePayload share).length = 36 := by simp [chainSharePayload, hf.chainKey]
  have hdec : Codec.decodeChainShare C buf key = some share := by
    simp (disch := decide) only [Codec.decodeChainShare,
      if_neg (show ¬ buf.length < 21 + 36 + 16 by omega), Buffer.readUInt8, Buffer.readUInt16BE,
      Buffer.readUInt32BE, hread, htype, hconv, hsender, htarget, hepoch, hend, hopen, hindex, hchain,
      Option.bind_eq_bind, Option.bind_some]
  have hothers := chainShareDecoders_eq (C := C) hkey A (by omega : 21 + 36 + 16 ≤ buf.length)
  rw [hdec] at hothers
  subst hbuf
  exact ⟨_, encodeChainShare_wire hkey hf, goEncodeChainShare_wire hkey A hf,
    rustEncodeChainShare_wire hkey hf, hdec, hothers⟩

variable (hnonce : nonce.length = 12)

include hnonce

omit hbody in
theorem memberInfo_format {info : MemberInfo} (hf : MemberInfoFits info) :
    OneFormat (Codec.encodeMemberInfo C info key nonce) (GoCodec.encodeMemberInfo C info key nonce)
      (RustCodec.encodeMemberInfo C (rustMemberInfo info) key nonce)
      (fun buf => Codec.decodeMemberInfo C buf key) (fun buf => GoCodec.decodeMemberInfo C A buf key)
      (fun buf => RustCodec.decodeMemberInfo C buf key) info info (rustMemberInfo info) :=
  ⟨_, encodeMemberInfo_wire hkey hf, goEncodeMemberInfo_wire hkey hf,
    rustEncodeMemberInfo_wire hkey hnonce hf.type, memberInfo_wire hC A hkey hnonce hf⟩

theorem ack_format {ack : AckDart} (hf : AckFits ack) (hg : g.convKeys.get ack.convId = some key)
    (hr : r.convKeys.get ack.convId = some key) :
    OneFormat (Codec.encodeAck C ack key nonce) (GoCodec.encodeAck C A g ack nonce)
      (RustCodec.encodeAck C r (rustAck ack) nonce) (fun buf => Codec.decodeAck C buf key)
      (GoCodec.decodeAck C A g) (RustCodec.decodeAck C r) ack ack (rustAck ack) := by
  have hheader : (ackHeader ack nonce).length = 22 := by simp [ackHeader, route_length, hnonce]
  have hdrop : (ackHeader ack nonce).drop 10 = nonce := by
    rw [ackHeader, ← List.append_assoc, ← List.append_assoc]
    exact List.drop_left' (by simp [route_length])
  obtain ⟨htype, hconv, hsender, hrest⟩ :=
    route_reads (by rw [hf.type]; decide : ack.type < 256 ^ 1) hf.convId hf.senderId
      (bytesBE 2 ack.targetId ++ (bytesBE 3 ack.seq ++ nonce))
  rw [← ackHeader] at htype hconv hsender
  have htarget : (ackHeader ack nonce).readUIntBE 5 2 = some ack.targetId := by
    rw [ackHeader, hrest _ _ (by decide), readUIntBE_head hf.targetId]
  have hseq : (ackHeader ack nonce).readUIntBE 7 3 = some ack.seq := by
    rw [ackHeader, hrest _ _ (by decide), read_skip (k := 2) (by simp) (by decide),
      readUIntBE_head hf.seq]
  obtain ⟨buf, hbuf, hlen, hread, hend, -, hopen⟩ :=
    sealed_facts hC hbody hkey [] (a := 10) (n := 22) rfl hheader hdrop
  simp only [Nat.cast_ofNat] at hend hopen
  have hdec : Codec.decodeAck C buf key = some ack := by
    simp (disch := decide) only [Codec.decodeAck, if_neg (show ¬ buf.length < 22 by omega),
      Buffer.readUInt8, Buffer.readUInt16BE, hread, htype, hconv, hsender, htarget, hseq, hend, hopen,
      Option.bind_eq_bind, Option.bind_some]
  have hothers := ackDecoders_eq (C := C) hkey A ((hread 1 2 (by decide)).trans hconv) hg hr (by omega)
  rw [hdec] at hothers
  subst hbuf
  obtain ⟨hgo, hrust⟩ := ackEncoders_wire (C := C) hkey hnonce A hf hg hr
  exact ⟨_, encodeAck_wire hkey hnonce hbody hf, hgo, hrust, hdec, hothers⟩

theorem dictReset_format {reset : DictResetDart} (hf : ResetFits reset)
    (hg : g.convKeys.get reset.convId = some key) (hr : r.convKeys.get reset.convId = some key) :
    OneFormat (Codec.encodeDictReset C reset key nonce) (GoCodec.encodeDictReset C A g reset nonce)
      (RustCodec.encodeDictReset C r (rustReset reset) nonce)
      (fun buf => Codec.decodeDictReset C buf key) (GoCodec.decodeDictReset C A g)
      (RustCodec.decodeDictReset C r) reset reset (rustReset reset) := by
  have hheader : (resetHeader reset nonce).length = 19 := by
    simp [resetHeader, route_length, hnonce]
  have hdrop : (resetHeader reset nonce).drop 7 = nonce := by
    rw [resetHeader, ← List.append_assoc]
    exact List.drop_left' (by simp [route_length])
  obtain ⟨htype, hconv, hsender, hrest⟩ :=
    route_reads (by rw [hf.type]; decide : reset.type < 256 ^ 1) hf.convId hf.senderId
      (bytesBE 2 reset.targetId ++ nonce)
  rw [← resetHeader] at htype hconv hsender
  have htarget : (resetHeader reset nonce).readUIntBE 5 2 = some reset.targetId := by
    rw [resetHeader, hrest _ _ (by decide), readUIntBE_head hf.targetId]
  obtain ⟨buf, hbuf, hlen, hread, hend, -, hopen⟩ :=
    sealed_facts hC hbody hkey [] (a := 7) (n := 19) rfl hheader hdrop
  simp only [Nat.cast_ofNat] at hend hopen
  have hdec : Codec.decodeDictReset C buf key = some reset := by
    simp (disch := decide) only [Codec.decodeDictReset, if_neg (show ¬ buf.length < 19 by omega),
      Buffer.readUInt8, Buffer.readUInt16BE, hread, htype, hconv, hsender, htarget, hend, hopen,
      Option.bind_eq_bind, Option.bind_some]
  have hothers := dictResetDecoders_eq (C := C) hkey A ((hread 1 2 (by decide)).trans hconv) hg hr
    (by omega)
  rw [hdec] at hothers
  subst hbuf
  obtain ⟨hgo, hrust⟩ := dictResetEncoders_wire (C := C) hkey hnonce A hf hg hr
  exact ⟨_, encodeDictReset_wire hkey hnonce hbody hf, hgo, hrust, hdec, hothers⟩

theorem sync_format {sync : SyncDart} (hf : SyncFits sync)
    (hg : g.convKeys.get sync.convId = some key) (hr : r.convKeys.get sync.convId = some key) :
    OneFormat (Codec.encodeSync C sync key nonce) (GoCodec.encodeSync C A g sync nonce)
      (RustCodec.encodeSync C r (rustSync sync) nonce) (fun buf => Codec.decodeSync C buf key)
      (GoCodec.decodeSync C A g) (RustCodec.decodeSync C r) sync sync (rustSync sync) := by
  have hdec := decodeSync_wire hC hbody hkey hnonce hf
  have hlen := sealedFrame_length hC hbody key nonce (syncHeader sync nonce)
    (bytesBE 3 sync.highestSeq)
  have hheader : (syncHeader sync nonce).length = 17 := by simp [syncHeader, route_length, hnonce]
  have hconv : (sealedFrame C key nonce (syncHeader sync nonce)
      (bytesBE 3 sync.highestSeq)).readUIntBE 1 2 = some sync.convId := by
    rw [sealedFrame, syncHeader, List.append_assoc]
    exact (route_reads (by rw [hf.type]; decide) hf.convId hf.senderId _).2.1
  have hothers := syncDecoders_eq (C := C) hkey A hconv hg hr (by omega)
  rw [hdec] at hothers
  obtain ⟨hgo, hrust⟩ := syncEncoders_wire (C := C) hkey hnonce A hf hg hr
  exact ⟨_, encodeSync_wire hkey hnonce hf, hgo, hrust, hdec, hothers⟩

theorem nack_format {nack : NackDart} (hf : NackFits nack)
    (hg : g.convKeys.get nack.convId = some key) (hr : r.convKeys.get nack.convId = some key) :
    OneFormat (Codec.encodeNack C nack key nonce) (GoCodec.encodeNack C A g nack nonce)
      (RustCodec.encodeNack C r (rustNack nack) nonce) (fun buf => Codec.decodeNack C buf key)
      (GoCodec.decodeNack C A g) (RustCodec.decodeNack C r) nack nack (rustNack nack) ∧
    OneFormat (Codec.encodeNack C nack key nonce) (GoCodec.encodeNack C A g nack nonce)
      (RustCodec.encodeNack C r (rustNack nack) nonce) Codec.parseNack GoCodec.parseNack
      RustCodec.parseNack nack nack (rustNack nack) := by
  obtain ⟨hparse, hdec⟩ := decodeNack_wire hC hbody hkey hnonce hf
  have hlen := sealedFrame_length hC hbody key nonce (nackHeader nack nonce) []
  have hheader : (nackHeader nack nonce).length = Codec.nackPrefixLen nack.missingSeq.length := by
    simp [nackHeader, route_length, hnonce, seqBytes_length, Codec.nackPrefixLen]
    omega
  have htype : nack.type < 256 ^ 1 := by rw [hf.type]; decide
  -- the frame ends with its tag, so all three take the same bytes for it
  have hopened : (Codec.parseNack (sealedFrame C key nonce (nackHeader nack nonce) [])).bind
      (checkNack (sealedFrame C key nonce (nackHeader nack nonce) []) fun n =>
        openedNack C key n (sealedFrame C key nonce (nackHeader nack nonce) [])) = some nack := by
    rw [decodeNack_eq, hparse, Option.bind_some, checkNack] at hdec
    rw [hparse, Option.bind_some, checkNack, openedNack_eq (by rw [hlen, hheader]; rfl), hdec]
  refine ⟨⟨_, encodeNack_wire hkey hnonce hbody hf, goEncodeNack_wire hkey hnonce A hg,
    rustEncodeNack_wire hkey hnonce hf hr, hdec, ?_, ?_⟩,
    ⟨_, encodeNack_wire hkey hnonce hbody hf, goEncodeNack_wire hkey hnonce A hg,
    rustEncodeNack_wire hkey hnonce hf hr, hparse, by rw [(parseNack_eq _).1, hparse],
    by rw [(parseNack_eq _).2, hparse]; rfl⟩⟩
  · rw [goDecodeNack_eq hkey A ?_, hopened]
    rw [sealedFrame, nackHeader, List.append_assoc]
    exact convKey_of_route htype hf.convId hf.senderId _ hg
  · rw [rustDecodeNack_eq hkey ?_, hopened]
    · rfl
    · rw [sealedFrame, nackHeader, List.append_assoc]
      exact convKey_of_route htype hf.convId hf.senderId _ hr

end Formats

theorem keyReq_format {req : KeyReqDart} (hf : KeyReqFits req) :
    OneFormat (Codec.encodeKeyReq req) (GoCodec.encodeKeyReq req)
      ((RustCodec.encodeKeyReq (rustKeyReq req)).map some) Codec.decodeKeyReq GoCodec.decodeKeyReq
      RustCodec.decodeKeyReq req req (rustKeyReq req) := by
  have hdec := decodeKeyReq_wire hf
  have hlen : 21 ≤ (keyReqFrame req).length := by
    simp [keyReqFrame, route_length, hf.reqNonce, hf.clientPubKey]
  have hothers := keyReqDecoders_eq hlen
  rw [hdec] at hothers
  obtain ⟨hgo, hrust⟩ := keyReqEncoders_wire hf
  exact ⟨_, encodeKeyReq_wire hf, hgo, by rw [hrust]; rfl, hdec, hothers⟩

/-- **One wire format.**  Under one key and nonce, the three encoders write the same bytes for every
value whose fields have their widths, and all three decoders read the value back; what each returns of
a share's header is its epoch.  The bodies of Data darts differ where the compressors differ, their
31 bytes of prefix do not, and each decoder returns the fields and the compressed bytes of a dart of
any of the three.  Epoch zero is left out for Data: `encodeData` of `go/core` and `encode_data` of
`codec.rs` take it for the current one. -/
theorem one_wire_format (hC : C.Lawful) (hbody : LengthPreserving C) (A : GoCodec.ShortAes)
    (flate : Buffer → Buffer → Buffer) (deflate : Buffer → Buffer → Option Buffer) (g : GoCodec.Codec)
    (r : RustCodec.Codec) {key nonce : Buffer} (hkey : key.length = 32) (hnonce : nonce.length = 12) :
    (∀ nack, NackFits nack → g.convKeys.get nack.convId = some key →
      r.convKeys.get nack.convId = some key →
      OneFormat (Codec.encodeNack C nack key nonce) (GoCodec.encodeNack C A g nack nonce)
        (RustCodec.encodeNack C r (rustNack nack) nonce) (fun buf => Codec.decodeNack C buf key)
        (GoCodec.decodeNack C A g) (RustCodec.decodeNack C r) nack nack (rustNack nack) ∧
      OneFormat (Codec.encodeNack C nack key nonce) (GoCodec.encodeNack C A g nack nonce)
        (RustCodec.encodeNack C r (rustNack nack) nonce) Codec.parseNack GoCodec.parseNack
        RustCodec.parseNack nack nack (rustNack nack)) ∧
    (∀ sync, SyncFits sync → g.convKeys.get sync.convId = some key →
      r.convKeys.get sync.convId = some key →
      OneFormat (Codec.encodeSync C sync key nonce) (GoCodec.encodeSync C A g sync nonce)
        (RustCodec.encodeSync C r (rustSync sync) nonce) (fun buf => Codec.decodeSync C buf key)
        (GoCodec.decodeSync C A g) (RustCodec.decodeSync C r) sync sync (rustSync sync)) ∧
    (∀ ack, AckFits ack → g.convKeys.get ack.convId = some key →
      r.convKeys.get ack.convId = some key →
      OneFormat (Codec.encodeAck C ack key nonce) (GoCodec.encodeAck C A g ack nonce)
        (RustCodec.encodeAck C r (rustAck ack) nonce) (fun buf => Codec.decodeAck C buf key)
        (GoCodec.decodeAck C A g) (RustCodec.decodeAck C r) ack ack (rustAck ack)) ∧
    (∀ reset, ResetFits reset → g.convKeys.get reset.convId = some key →
      r.convKeys.get reset.convId = some key →
      OneFormat (Codec.encodeDictReset C reset key nonce) (GoCodec.encodeDictReset C A g reset nonce)
        (RustCodec.encodeDictReset C r (rustReset reset) nonce)
        (fun buf => Codec.decodeDictReset C buf key) (GoCodec.decodeDictReset C A g)
        (RustCodec.decodeDictReset C r) reset reset (rustReset reset)) ∧
    (∀ req, KeyReqFits req →
      OneFormat (Codec.encodeKeyReq req) (GoCodec.encodeKeyReq req)
        ((RustCodec.encodeKeyReq (rustKeyReq req)).map some) Codec.decodeKeyReq GoCodec.decodeKeyReq
        RustCodec.decodeKeyReq req req (rustKeyReq req)) ∧
    (∀ share, KeyShareFits share →
      OneFormat (Codec.encodeKeyShare C share key) (GoCodec.encodeKeyShare C A share key)
        (RustCodec.encodeKeyShare C (rustKeyShare share) key)
        (fun buf => Codec.decodeKeyShare C buf key) (fun buf => GoCodec.decodeKeyShare C A buf key)
        (fun buf => RustCodec.decodeKeyShare C buf key) (share.epoch, share.encryptedKey)
        (share.epoch, share.encryptedKey) (share.epoch, share.encryptedKey)) ∧
    (∀ share, ChainShareFits share →
      OneFormat (Codec.encodeChainShare C share key) (GoCodec.encodeChainShare C A share key)
        (RustCodec.encodeChainShare C (rustChainShare share) key)
        (fun buf => Codec.decodeChainShare C buf key)
        (fun buf => GoCodec.decodeChainShare C A buf key)
        (fun buf => RustCodec.decodeChainShare C buf key) share share (rustChainShare share)) ∧
    (∀ info, MemberInfoFits info →
      OneFormat (Codec.encodeMemberInfo C info key nonce) (GoCodec.encodeMemberInfo C info key nonce)
        (RustCodec.encodeMemberInfo C (rustMemberInfo info) key nonce)
        (fun buf => Codec.decodeMemberInfo C buf key)
        (fun buf => GoCodec.decodeMemberInfo C A buf key)
        (fun buf => RustCodec.decodeMemberInfo C buf key) info info (rustMemberInfo info)) ∧
    ∀ dart dict idx epoch, DataDartFits dart idx epoch → epoch ≠ 0 →
      (Codec.dataPrefix C dart dict idx epoch nonce).length = 31 ∧
      (∃ frame, Codec.encodeDataHelper C dart dict key idx epoch nonce = some frame ∧
        DataFormat C A key nonce dart dict idx epoch (C.deflateRaw (utf8 dart.payload) dict) frame) ∧
      (∃ frame, GoCodec.encodeData C A flate g dart dict key idx epoch nonce = some (some frame) ∧
        DataFormat C A key nonce dart dict idx epoch (flate (utf8 dart.payload) dict) frame) ∧
      ∀ stream, deflate (utf8 dart.payload) dict = some stream →
        ∃ frame, RustCodec.encodeData C deflate r (rustData dart) dict key idx epoch nonce
            = some (some frame) ∧
          DataFormat C A key nonce dart dict idx epoch
            (stream.take ((utf8 dart.payload).length + 1024)) frame := by
  refine ⟨fun nack hf hg hr => nack_format hC hbody A hkey hnonce hf hg hr,
    fun sync hf hg hr => sync_format hC hbody A hkey hnonce hf hg hr,
    fun ack hf hg hr => ack_format hC hbody A hkey hnonce hf hg hr,
    fun reset hf hg hr => dictReset_format hC hbody A hkey hnonce hf hg hr,
    fun req hf => keyReq_format hf,
    fun share hf => keyShare_format hC hbody A hkey hf,
    fun share hf => chainShare_format hC hbody A hkey hf,
    fun info hf => memberInfo_format hC A hkey hnonce hf, ?_⟩
  intro dart dict idx epoch hf hepoch
  have hformat := dataFormat_sealed hC hbody A hkey hnonce dict hf
  refine ⟨Codec.dataPrefix_length hC dart dict idx epoch hnonce,
    ⟨_, encodeData_wire hkey hnonce hC dict hf, hformat _⟩,
    ⟨_, goEncodeData_wire hkey hnonce A hC flate g dict hf hepoch, hformat _⟩, ?_⟩
  intro stream hstream
  exact ⟨_, rustEncodeData_wire hkey hnonce hC r hf hepoch hstream, hformat _⟩

/-! ### Values of every kind -/

/-- An AES with other key sizes, which seals as `sumCrypto` does. -/
def sumAes : GoCodec.ShortAes := ⟨sumCrypto.gcmEncrypt, sumCrypto.gcmDecrypt⟩

def wireKey : Buffer := bytesBE 32 77

def wireNonce : Buffer := bytesBE 12 5

def wireGo : GoCodec.Codec := { convKeys := (∅ : NumMap Buffer).set 1 wireKey }

def wireRust : RustCodec.Codec := { convKeys := (∅ : NumMap Buffer).set 1 wireKey }

def wireNack : NackDart :=
  { type := TYPE_NACK, convId := 1, senderId := 7, targetId := 9, missingSeq := [1, 16777215] }

def wireInfo : MemberInfo :=
  { type := TYPE_MEMBER_INFO, convId := 1, senderId := 0, serverPubKey := bytesBE 65 3,
    creator := true, members := [⟨7, bytesBE 65 7⟩, ⟨9, bytesBE 65 9⟩] }

def wireDart : DataDart :=
  { type := TYPE_DATA, convId := 1, senderId := 7, seq := 9, payload := "hi" }

/-- A NACK with the lowest and the highest seq, a roster of two and a dart. -/
theorem wire_values :
    OneFormat (Codec.encodeNack sumCrypto wireNack wireKey wireNonce)
      (GoCodec.encodeNack sumCrypto sumAes wireGo wireNack wireNonce)
      (RustCodec.encodeNack sumCrypto wireRust (rustNack wireNack) wireNonce)
      (fun buf => Codec.decodeNack sumCrypto buf wireKey) (GoCodec.decodeNack sumCrypto sumAes wireGo)
      (RustCodec.decodeNack sumCrypto wireRust) wireNack wireNack (rustNack wireNack) ∧
    OneFormat (Codec.encodeMemberInfo sumCrypto wireInfo wireKey wireNonce)
      (GoCodec.encodeMemberInfo sumCrypto wireInfo wireKey wireNonce)
      (RustCodec.encodeMemberInfo sumCrypto (rustMemberInfo wireInfo) wireKey wireNonce)
      (fun buf => Codec.decodeMemberInfo sumCrypto buf wireKey)
      (fun buf => GoCodec.decodeMemberInfo sumCrypto sumAes buf wireKey)
      (fun buf => RustCodec.decodeMemberInfo sumCrypto buf wireKey) wireInfo wireInfo
      (rustMemberInfo wireInfo) ∧
    ∃ frame, GoCodec.encodeData sumCrypto sumAes (fun payload _ => payload) wireGo wireDart [] wireKey 4 2
        wireNonce = some (some frame) ∧
      DataFormat sumCrypto sumAes wireKey wireNonce wireDart [] 4 2 (utf8 "hi") frame := by
  obtain ⟨hnack, -, -, -, -, -, -, hinfo, hdata⟩ :=
    one_wire_format sumCrypto_lawful sumCrypto_lengthPreserving sumAes (fun payload _ => payload)
      (fun payload _ => some payload) wireGo wireRust (by decide : wireKey.length = 32)
      (by decide : wireNonce.length = 12)
  refine ⟨(hnack wireNack ⟨rfl, by decide, by decide, by decide, by decide, by decide⟩ rfl rfl).1,
    hinfo wireInfo ⟨rfl, by decide, by decide, by decide, by decide, by decide, by decide⟩,
    (hdata wireDart [] 4 2 ⟨rfl, by decide, by decide, by decide, by decide, by decide⟩
      (by decide)).2.2.1⟩

/-- **Epoch zero.**  A dart of epoch zero has three encodings, but `core.ts` writes the zero while the
other two write the epoch one. -/
theorem epoch_zero_written_differently :
    DataDartFits wireDart 4 0 ∧
      (Codec.encodeDataHelper sumCrypto wireDart [] wireKey 4 0 wireNonce).map (fun b => b.subarray 21 23)
        = some [0, 0] ∧
      (GoCodec.encodeData sumCrypto sumAes (fun payload _ => payload) wireGo wireDart [] wireKey 4 0
        wireNonce).map (fun r => r.map fun b => b.subarray 21 23) = some (some [0, 1]) ∧
      (RustCodec.encodeData sumCrypto (fun payload _ => some payload) wireRust (rustData wireDart) []
        wireKey 4 0 wireNonce).map (fun r => r.map fun b => b.subarray 21 23) = some (some [0, 1]) := by
  refine ⟨⟨rfl, by decide, by decide, by decide, by decide, by decide⟩, ?_⟩
  decide +kernel

end DartProtocol.Wire
