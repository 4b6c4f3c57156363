import DartProtocol.WireRoundTrip

/-!
# Where the three decoders agree

Outside the image of the encoders, what a decoder accepts is decided by its own length checks, by the
bytes it takes for the tag, and by how it leaves the loop over a roster.  For every byte string and
every key this module says exactly when `core.ts`, `go/core` and `codec.rs` agree.

* `Agree` — all three refuse, or all three return the value; a panic is neither;
* `keyReq_agree_iff` — `decodeKeyReq` of `core.ts` has no length check of its own, so a KeyReq that
  ends inside its nonce is accepted there only;
* `nack_agree_iff` — `decodeNack` of `core.ts` takes the sixteen bytes behind the gap list for the tag
  and ignores what follows, the other two take the last sixteen bytes of the frame;
* `memberInfo_agree_iff` — a count that promises more entries than there is room for fails in
  `core.ts` and is cut short by the other two.
-/

namespace DartProtocol.Wire

open Buffer Slice

variable {C : Crypto}

/-- All three decoders refuse, or all three return the same value. -/
def Agree {α β : Type} (ts : Option α) (go : Option (Option α)) (rust : Option (Option β))
    (port : α → β) : Prop :=
  (ts = none ∧ go = some none ∧ rust = some none) ∨
    ∃ value, ts = some value ∧ go = some (some value) ∧ rust = some (some (port value))

theorem agree_iff {α β : Type} {ts : Option α} {go : Option (Option α)} {rust : Option (Option β)}
    {port : α → β} : Agree ts go rust port ↔ go = some ts ∧ rust = some (ts.map port) := by
  rw [Agree]
  cases ts with
  | none => simp
  | some value => simp

/-! ### KeyReq -/

variable {buf payload : Buffer}

theorem decodeKeyReq_isSome_iff :
    (Codec.decodeKeyReq buf).isSome ↔ 5 ≤ buf.length := by
  constructor
  · intro h
    obtain ⟨req, hreq⟩ := Option.isSome_iff_exists.mp h
    simp only [Codec.decodeKeyReq, Option.bind_eq_bind, Option.bind_eq_some_iff] at hreq
    obtain ⟨-, -, -, -, senderId, hsender, -⟩ := hreq
    exact readUIntBE_isSome_iff.mp (Option.isSome_iff_exists.mpr ⟨senderId, hsender⟩)
  · intro h
    obtain ⟨type, htype⟩ := exists_read (b := buf) 0 1 (by omega)
    obtain ⟨convId, hconvId⟩ := exists_read (b := buf) 1 2 (by omega)
    obtain ⟨senderId, hsenderId⟩ := exists_read (b := buf) 3 2 (by omega)
    simp only [Codec.decodeKeyReq, Buffer.readUInt8, Buffer.readUInt16BE, htype, hconvId, hsenderId,
      Option.bind_eq_bind, Option.bind_some, Option.isSome_some]

theorem keyReq_agree_iff (buf : Buffer) :
    Agree (Codec.decodeKeyReq buf) (GoCodec.decodeKeyReq buf) (RustCodec.decodeKeyReq buf) rustKeyReq ↔
      buf.length < 5 ∨ 21 ≤ buf.length := by
  rw [agree_iff]
  by_cases hlong : 21 ≤ buf.length
  · exact iff_of_true (keyReqDecoders_eq hlong) (.inr hlong)
  have hgo : GoCodec.decodeKeyReq buf = some none := by rw [GoCodec.decodeKeyReq, if_pos (by omega)]
  have hrust : RustCodec.decodeKeyReq buf = some none := by
    rw [RustCodec.decodeKeyReq, if_pos (by omega)]
  rw [hgo, hrust]
  cases hts : Codec.decodeKeyReq buf with
  | none =>
    have hshort : ¬ 5 ≤ buf.length := by
      intro h
      rw [← decodeKeyReq_isSome_iff, hts] at h
      cases h
    exact iff_of_true ⟨rfl, rfl⟩ (.inl (by omega))
  | some req =>
    have hfive : 5 ≤ buf.length := decodeKeyReq_isSome_iff.mp (by rw [hts]; rfl)
    exact iff_of_false (by simp) (by omega)

/-! ### NACK -/

/-- Under a key of another size `decode_nack` panics once it comes to opening the frame. -/
theorem rustDecodeNack_badKey {key : Buffer} (hkey : key.length ≠ 32) {c : RustCodec.Codec}
    (hc : ∀ convId, buf.readUInt16BE 1 = some convId → c.convKeys.get convId = some key)
    {nack : NackDart} (hparse : Codec.parseNack buf = some nack)
    (hlen : ¬ buf.length < Codec.nackPrefixLen nack.missingSeq.length + 16) :
    RustCodec.decodeNack C c buf = none := by
  obtain ⟨hconv, hfits⟩ := parseNack_fits hparse
  obtain ⟨hheader, hnonce, htag, -⟩ := nackSlices (by rw [Codec.nackPrefixLen]; omega) hfits
  rw [RustCodec.decodeNack, (parseNack_eq buf).2, hparse, Option.map_some, tryOk_ok]
  show (if buf.length < Codec.nackPrefixLen nack.missingSeq.length + 16 then some none else _) = _
  simp only [if_neg hlen, rustNack, hheader, hnonce, htag, Option.bind_eq_bind, Option.bind_some,
    RustCodec.getConvKey, hc _ hconv, tryOk_ok, RustCodec.decryptGcm,
    if_neg (fun h : key.length = 32 ∧ _ => hkey h.1)]
  rfl

theorem nack_agree_iff (A : GoCodec.ShortAes) {g : GoCodec.Codec} {r : RustCodec.Codec}
    {key : Buffer}
    (hg : ∀ convId, buf.readUInt16BE 1 = some convId → g.convKeys.get convId = some key)
    (hr : ∀ convId, buf.readUInt16BE 1 = some convId → r.convKeys.get convId = some key) :
    Agree (Codec.decodeNack C buf key) (GoCodec.decodeNack C A g buf) (RustCodec.decodeNack C r buf)
      rustNack ↔
      ∀ nack, Codec.parseNack buf = some nack →
        buf.length < Codec.nackPrefixLen nack.missingSeq.length + 16 ∨
          key.length = 32 ∧
            ((checkedNack C key (Codec.nackPrefixLen nack.missingSeq.length) buf).isSome ↔
              (openedNack C key (Codec.nackPrefixLen nack.missingSeq.length) buf).isSome) := by
  rw [agree_iff]
  cases hparse : Codec.parseNack buf with
  | none =>
    have hgo : GoCodec.decodeNack C A g buf = some none := by
      rw [GoCodec.decodeNack, (parseNack_eq buf).1, hparse]
      rfl
    have hrust : RustCodec.decodeNack C r buf = some none := by
      rw [RustCodec.decodeNack, (parseNack_eq buf).2, hparse]
      rfl
    rw [decodeNack_eq, hparse, hgo, hrust]
    exact iff_of_true ⟨rfl, rfl⟩ (fun nack h => by cases h)
  | some nack =>
    by_cases hlen : buf.length < Codec.nackPrefixLen nack.missingSeq.length + 16
    · have hgo : GoCodec.decodeNack C A g buf = some none := by
        rw [GoCodec.decodeNack, (parseNack_eq buf).1, hparse, tryOk_ok]
        exact if_pos hlen
      have hrust : RustCodec.decodeNack C r buf = some none := by
        rw [RustCodec.decodeNack, (parseNack_eq buf).2, hparse, Option.map_some, tryOk_ok]
        exact if_pos hlen
      have hts : Codec.decodeNack C buf key = none := by
        rw [decodeNack_eq, hparse, Option.bind_some, checkNack]
        exact if_pos hlen
      rw [hts, hgo, hrust]
      refine iff_of_true ⟨rfl, rfl⟩ fun other h => ?_
      rw [← Option.some.inj h]
      exact .inl hlen
    by_cases hkey : key.length = 32
    · rw [goDecodeNack_eq hkey A hg, rustDecodeNack_eq hkey hr, decodeNack_eq, hparse, Option.bind_some,
        Option.bind_some, checkNack, checkNack]
      simp only [if_neg hlen]
      have hiff : (∀ other, some nack = some other →
          buf.length < Codec.nackPrefixLen other.missingSeq.length + 16 ∨ key.length = 32 ∧
            ((checkedNack C key (Codec.nackPrefixLen other.missingSeq.length) buf).isSome ↔
              (openedNack C key (Codec.nackPrefixLen other.missingSeq.length) buf).isSome)) ↔
          ((checkedNack C key (Codec.nackPrefixLen nack.missingSeq.length) buf).isSome ↔
              (openedNack C key (Codec.nackPrefixLen nack.missingSeq.length) buf).isSome) := by
        constructor
        · intro h
          exact ((h nack rfl).resolve_left hlen).2
        · intro h other hother
          rw [← Option.some.inj hother]
          exact .inr ⟨hkey, h⟩
      rw [hiff]
      cases checkedNack C key (Codec.nackPrefixLen nack.missingSeq.length) buf <;>
        cases openedNack C key (Codec.nackPrefixLen nack.missingSeq.length) buf <;> simp
    · rw [rustDecodeNack_badKey hkey hr hparse hlen]
      refine iff_of_false (fun h => by cases h.2) fun h => ?_
      exact hkey ((h nack rfl).resolve_left hlen).1

/-! ### MEMBER_INFO -/

theorem readMembers_length {count : ℕ} :
    ∀ {offset : ℕ} {ms : List RosterEntry}, Codec.readMembers payload offset count = some ms →
      ms.length = count := by
  induction count with
  | zero =>
    intro offset ms h
    cases h
    rfl
  | succ count ih =>
    intro offset ms h
    simp only [Codec.readMembers, Option.bind_eq_bind, Option.bind_eq_some_iff] at h
    obtain ⟨senderId, -, rest, hrest, hms⟩ := h
    rw [← Option.some.inj hms, List.length_cons, ih hrest]

theorem goReadMembers_short {count : ℕ} :
    ∀ {offset : ℕ}, offset ≤ payload.length → payload.length < offset + count * 67 →
      ∃ ms, GoCodec.readMembers payload offset count = some ms ∧ ms.length < count := by
  induction count with
  | zero =>
    intro offset hle h
    omega
  | succ count ih =>
    intro offset hle h
    rw [GoCodec.readMembers]
    by_cases hroom : payload.length < offset + 67
    · exact ⟨[], if_pos hroom, Nat.succ_pos count⟩
    obtain ⟨senderId, hsender⟩ := exists_read (b := payload) offset 2 (by omega)
    obtain ⟨ms, hms, hshort⟩ := ih (by omega : offset + 67 ≤ payload.length) (by omega)
    refine ⟨⟨senderId, payload.subarray ((offset + 2 : ℕ) : ℤ) ((offset + 67 : ℕ) : ℤ)⟩ :: ms, ?_,
      Nat.succ_lt_succ hshort⟩
    rw [if_neg hroom, uint16_slice rfl, Buffer.readUInt16BE, hsender,
      slice_eq_subarray (by omega) (by omega), hms]
    rfl

/-- The room a roster needs for the entries it announces. -/
def RosterFits (payload : Buffer) : Prop :=
  ∃ count, payload.readUInt16BE 1 = some count ∧ 3 + count * 67 ≤ payload.length

/-- `codec.rs` reads a roster as `go/core` does, except where the latter panics. -/
theorem rustReadRoster_of_go {roster : Bool × List RosterEntry}
    (h : GoCodec.readRoster payload = some roster) :
    RustCodec.readRoster payload = some (some roster) := by
  simp (disch := rfl) only [GoCodec.readRoster, index_eq, uint16_slice, Option.bind_eq_bind,
    Option.bind_eq_some_iff] at h
  obtain ⟨flag, hflag, count, hcount, members, hmembers, hroster⟩ := h
  have hlen : 3 ≤ payload.length :=
    readUIntBE_isSome_iff.mp (Option.isSome_iff_exists.mpr ⟨count, hcount⟩)
  simp (disch := rfl) only [RustCodec.readRoster, index_eq, uint16_slice, hflag, hcount,
    rustReadMembers_eq, hmembers, Option.bind_eq_bind, Option.bind_some,
    if_neg (show ¬ payload.length < 3 by omega)]
  rw [← Option.some.inj hroster]

theorem readRoster_agree_iff (payload : Buffer) :
    (∃ roster, readRoster payload = some roster ∧ GoCodec.readRoster payload = some roster) ↔
      RosterFits payload := by
  constructor
  · rintro ⟨⟨creator, ms⟩, hts, hgo⟩
    simp only [readRoster, Option.bind_eq_bind, Option.bind_eq_some_iff] at hts
    obtain ⟨flag, hflag, count, hcount, members, hmembers, hroster⟩ := hts
    refine ⟨count, hcount, ?_⟩
    by_contra hshort
    have hlen : 3 ≤ payload.length :=
      readUIntBE_isSome_iff.mp (Option.isSome_iff_exists.mpr ⟨count, hcount⟩)
    obtain ⟨cut, hcut, hless⟩ := goReadMembers_short hlen (Nat.lt_of_not_le hshort)
    simp (disch := rfl) only [GoCodec.readRoster, index_eq, uint16_slice, hflag, hcount, hcut,
      Option.bind_eq_bind, Option.bind_some] at hgo
    have hsame : cut = members := by
      have h := hgo.trans hroster.symm
      exact (Prod.mk.inj (Option.some.inj h)).2
    have hfull := readMembers_length hmembers
    rw [hsame] at hless
    omega
  · rintro ⟨count, hcount, hroom⟩
    obtain ⟨flag, hflag⟩ := exists_read (b := payload) 0 1 (by omega)
    obtain ⟨ms, hms⟩ := Option.isSome_iff_exists.mp (readMembers_isSome hroom)
    have hgo := goReadMembers_eq hroom
    rw [hms] at hgo
    refine ⟨(decide (flag = 1), ms), ?_, ?_⟩
    · simp only [readRoster, Buffer.readUInt8, hflag, hcount, hms, Option.bind_eq_bind,
        Option.bind_some]
    · simp (disch := rfl) only [GoCodec.readRoster, index_eq, uint16_slice, Buffer.readUInt8, hflag,
        hcount, hgo, Option.bind_eq_bind, Option.bind_some]

theorem rustDecodeMemberInfo_badKey {key : Buffer} (hkey : key.length ≠ 32)
    (hlen : 98 ≤ buf.length) : RustCodec.decodeMemberInfo C buf key = none := by
  obtain ⟨convId, hconvId⟩ := exists_read (b := buf) 1 2 (by omega)
  obtain ⟨senderId, hsenderId⟩ := exists_read (b := buf) 3 2 (by omega)
  simp (disch := rfl) only [RustCodec.decodeMemberInfo, if_neg (show ¬ buf.length < 5 + 65 + 12 + 16 by
    omega), uint16_slice, Buffer.readUInt16BE, hconvId, hsenderId, Option.bind_eq_bind,
    Option.bind_some]
  simp (disch := omega) only [slice_eq_subarray, Option.bind_some, RustCodec.decryptGcm,
    if_neg (fun h : key.length = 32 ∧ _ => hkey h.1)]
  rfl

/-- The cleartext fields of a long enough frame are there, and the roster is kept as it is. -/
theorem memberInfoOf_eq (hlen : 98 ≤ buf.length) :
    ∃ type convId senderId, ∀ roster, memberInfoOf buf roster = some
      { type := type, convId := convId, senderId := senderId, serverPubKey := buf.subarray 5 70,
        creator := roster.1, members := roster.2 } := by
  obtain ⟨type, convId, senderId, htype, hconv, hsender⟩ := exists_route (b := buf) (by omega)
  exact ⟨type, convId, senderId, memberInfoOf_reads htype hconv hsender⟩

theorem memberInfo_agree_iff (A : GoCodec.ShortAes) (key buf : Buffer) :
    Agree (Codec.decodeMemberInfo C buf key) (GoCodec.decodeMemberInfo C A buf key)
      (RustCodec.decodeMemberInfo C buf key) rustMemberInfo ↔
      buf.length < 98 ∨ key.length = 32 ∧
        ∀ payload, opened C key 70 82 buf = some payload → RosterFits payload := by
  by_cases hlen : buf.length < 98
  · refine iff_of_true (.inl ⟨?_, ?_, ?_⟩) (.inl hlen)
    · rw [Codec.decodeMemberInfo, if_pos (by omega)]
    · rw [GoCodec.decodeMemberInfo, if_pos (by omega)]
    · rw [RustCodec.decodeMemberInfo, if_pos (by omega)]
  have hlong : 98 ≤ buf.length := Nat.le_of_not_lt hlen
  by_cases hkey : key.length = 32
  · rw [agree_iff, decodeMemberInfo_eq hlong, goDecodeMemberInfo_eq hkey A hlong,
      rustDecodeMemberInfo_eq hkey hlong]
    cases hopen : opened C key 70 82 buf with
    | none => exact iff_of_true ⟨rfl, rfl⟩ (.inr ⟨hkey, fun payload h => by cases h⟩)
    | some payload =>
      have hfits : (buf.length < 98 ∨ key.length = 32 ∧
          ∀ other, some payload = some other → RosterFits other) ↔ RosterFits payload := by
        constructor
        · intro h
          exact (h.resolve_left hlen).2 payload rfl
        · intro h
          refine .inr ⟨hkey, fun other hother => ?_⟩
          rw [← Option.some.inj hother]
          exact h
      rw [hfits, ← readRoster_agree_iff, Option.bind_some, tryOk_ok, tryOk_ok]
      obtain ⟨type, convId, senderId, hinfo⟩ := memberInfoOf_eq hlong
      constructor
      · rintro ⟨hgo, -⟩
        obtain ⟨roster, hroster, hof⟩ := Option.map_eq_some_iff.mp hgo
        rw [hinfo] at hof
        obtain ⟨tsRoster, hts, hval⟩ := Option.bind_eq_some_iff.mp hof.symm
        rw [hinfo] at hval
        have hsame : tsRoster = roster := by
          have h := Option.some.inj hval
          exact Prod.ext (congrArg MemberInfo.creator h) (congrArg MemberInfo.members h)
        rw [hsame] at hts
        exact ⟨roster, hts, hroster⟩
      · rintro ⟨roster, hts, hgo⟩
        rw [hts, hgo, rustReadRoster_of_go hgo]
        exact ⟨rfl, rfl⟩
  · rw [agree_iff, rustDecodeMemberInfo_badKey hkey hlong]
    refine iff_of_false (fun h => by cases h.2) fun h => ?_
    exact hkey (h.resolve_left hlen).1

/-! ### The three kinds together -/

/-- **Where the decoders agree.**  For every byte string and every key, exactly: a KeyReq, unless it
ends inside its nonce; a NACK, when it is refused for its length, or the key has 32 bytes and the bytes
behind the gap list verify in both ways of finding the tag or in neither; a MEMBER_INFO, when it is
refused for its length, or the key has 32 bytes and the payload, if the frame opens, has room for the
entries it announces. -/
theorem decoders_agree_iff (A : GoCodec.ShortAes) (g : GoCodec.Codec) (r : RustCodec.Codec)
    (key buf : Buffer)
    (hg : ∀ convId, buf.readUInt16BE 1 = some convId → g.convKeys.get convId = some key)
    (hr : ∀ convId, buf.readUInt16BE 1 = some convId → r.convKeys.get convId = some key) :
    (Agree (Codec.decodeKeyReq buf) (GoCodec.decodeKeyReq buf) (RustCodec.decodeKeyReq buf) rustKeyReq ↔
      buf.length < 5 ∨ 21 ≤ buf.length) ∧
    (Agree (Codec.decodeNack C buf key) (GoCodec.decodeNack C A g buf) (RustCodec.decodeNack C r buf)
      rustNack ↔
      ∀ nack, Codec.parseNack buf = some nack →
        buf.length < Codec.nackPrefixLen nack.missingSeq.length + 16 ∨
          key.length = 32 ∧
            ((checkedNack C key (Codec.nackPrefixLen nack.missingSeq.length) buf).isSome ↔
              (openedNack C key (Codec.nackPrefixLen nack.missingSeq.length) buf).isSome)) ∧
    (Agree (Codec.decodeMemberInfo C buf key) (GoCodec.decodeMemberInfo C A buf key)
      (RustCodec.decodeMemberInfo C buf key) rustMemberInfo ↔
      buf.length < 98 ∨ key.length = 32 ∧
        ∀ payload, opened C key 70 82 buf = some payload → RosterFits payload) :=
  ⟨keyReq_agree_iff buf, nack_agree_iff A hg hr, memberInfo_agree_iff A key buf⟩

/-- A NACK as it was encoded, in front of other bytes. -/
def nackFrame (trailing : Buffer) : Buffer :=
  sealedFrame sumCrypto wireKey wireNonce (nackHeader wireNack wireNonce) [] ++ trailing

/-- A NACK that ends with its tag is decoded alike. -/
theorem nack_frame_agrees :
    Agree (Codec.decodeNack sumCrypto (nackFrame []) wireKey)
      (GoCodec.decodeNack sumCrypto sumAes wireGo (nackFrame []))
      (RustCodec.decodeNack sumCrypto wireRust (nackFrame [])) rustNack := by
  have hconv : (nackFrame []).readUInt16BE 1 = some 1 := by decide +kernel
  have hkey : ∀ convId, (nackFrame []).readUInt16BE 1 = some convId →
      ((∅ : NumMap Buffer).set 1 wireKey).get convId = some wireKey := by
    intro convId h
    rw [hconv] at h
    cases h
    rfl
  refine (decoders_agree_iff (C := sumCrypto) sumAes wireGo wireRust wireKey (nackFrame []) hkey
    hkey).2.1.mpr ?_
  intro nack hparse
  have hwire : Codec.parseNack (nackFrame []) = some wireNack := by decide +kernel
  rw [hwire] at hparse
  cases hparse
  exact .inr ⟨by decide, by decide +kernel⟩

/-- A roster that announces one entry and holds none. -/
def emptyRosterFrame : Buffer :=
  sealedFrame sumCrypto wireKey wireNonce (memberHeader wireInfo wireNonce)
    (bytesBE 1 0 ++ bytesBE 2 1)

/-- **Three frames that are not decoded alike.**  A KeyReq of five bytes is accepted by `core.ts` only,
with no nonce and no key; so is a NACK with one more byte behind its tag; and a roster that announces an
entry it does not hold is refused by `core.ts` and accepted as empty by the other two. -/
theorem decoders_disagree :
    (Codec.decodeKeyReq [4, 0, 1, 0, 7]).map KeyReqDart.reqNonce = some [] ∧
      GoCodec.decodeKeyReq [4, 0, 1, 0, 7] = some none ∧
      RustCodec.decodeKeyReq [4, 0, 1, 0, 7] = some none ∧
    Codec.decodeNack sumCrypto (nackFrame [1]) wireKey = some wireNack ∧
      GoCodec.decodeNack sumCrypto sumAes wireGo (nackFrame [1]) = some none ∧
      RustCodec.decodeNack sumCrypto wireRust (nackFrame [1]) = some none ∧
    Codec.decodeMemberInfo sumCrypto emptyRosterFrame wireKey = none ∧
      GoCodec.decodeMemberInfo sumCrypto sumAes emptyRosterFrame wireKey
        = some (some { wireInfo with creator := false, members := [] }) ∧
      RustCodec.decodeMemberInfo sumCrypto emptyRosterFrame wireKey
        = some (some (rustMemberInfo { wireInfo with creator := false, members := [] })) := by
  decide +kernel

end DartProtocol.Wire
