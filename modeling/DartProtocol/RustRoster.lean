import DartProtocol.Announcement
import DartProtocol.RustRules
import DartProtocol.WireRoundTrip

/-!
# Rosters of the Rust server

`notify_members` announces the registered keys of a room.  The encoder appends an entry with the key
as it was registered, of any length; the decoder takes entries of 67 bytes.  So an entry with a key
of another length than 65 bytes moves all entries behind it.

* `mem_readMembers` — the decoder returns what stands at the multiples of 67 bytes;
* `Announces`, `notifyMember_announces` — the frames `notify_members` sends, in any interleaving;
* `roster_isolated_iff` — in every reachable state and for every iteration order, the members with a
  65-byte key are in the decoded roster exactly when each of their entries stands at such a place.
-/

namespace DartProtocol.RustServer

open Buffer Slice RustCodec

/-! ### Reading with a fixed stride -/

/-- The entry stands in the bytes of a roster at stride `j`. -/
def StandsAt (bytes : Buffer) (m : RosterEntry) (j : ℕ) : Prop :=
  (bytes.drop (67 * j)).take 67 = memberBytes m

instance (bytes : Buffer) (m : RosterEntry) (j : ℕ) : Decidable (StandsAt bytes m j) :=
  inferInstanceAs (Decidable (_ = _))

variable {m : RosterEntry} {roster : List RosterEntry}

theorem memberBytes_length (h : m.pubKey.length = 65) :
    (memberBytes m).length = 67 := by
  simp [memberBytes, h]

theorem memberBytes_eq_iff {b : Buffer} (hb : b.length = 67) (hid : m.senderId < 65536) :
    b = memberBytes m ↔ m = ⟨natBE (b.take 2), b.drop 2⟩ := by
  have htake : (b.take 2).length = 2 := by
    rw [List.length_take]
    omega
  constructor
  · intro h
    have hfront : (memberBytes m).take 2 = bytesBE 2 m.senderId := by simp [memberBytes]
    have hback : (memberBytes m).drop 2 = m.pubKey := by simp [memberBytes]
    rw [h, hfront, hback, natBE_bytesBE_of_lt hid]
  · intro h
    have hbytes := bytesBE_natBE (b.take 2)
    rw [htake] at hbytes
    rw [h, memberBytes]
    simp only
    rw [hbytes, List.take_append_drop]

/-- **The decoder returns what stands at the strides.** -/
theorem mem_readMembers {payload : Buffer} (hid : m.senderId < 65536) (hkey : m.pubKey.length = 65) :
    ∀ {count offset : ℕ} {ms : List RosterEntry}, readMembers payload offset count = some ms →
      (m ∈ ms ↔ ∃ j < count, StandsAt (payload.drop offset) m j) := by
  intro count
  induction count with
  | zero =>
    intro offset ms h
    cases h
    simp
  | succ count ih =>
    intro offset ms h
    rw [readMembers] at h
    by_cases hshort : payload.length < offset + 67
    · rw [if_pos hshort] at h
      cases h
      refine iff_of_false (by simp) ?_
      rintro ⟨j, -, hj⟩
      have hlen := congrArg List.length hj
      rw [memberBytes_length hkey, List.length_take, List.length_drop, List.length_drop] at hlen
      omega
    · rw [if_neg hshort] at h
      have hfirst : ((payload.drop offset).take 67).length = 67 := by
        rw [List.length_take, List.length_drop]
        omega
      have hsender : (slice payload offset (offset + 2)).bind uint16
          = some (natBE (((payload.drop offset).take 67).take 2)) := by
        rw [uint16_slice rfl, Buffer.readUInt16BE, Buffer.readUIntBE, if_pos (by omega), List.take_take]
        rfl
      have hpub : slice payload (offset + 2) (offset + 67)
          = some (((payload.drop offset).take 67).drop 2) := by
        rw [slice, if_pos (by omega), List.drop_take, List.drop_drop]
        congr 2
        omega
      have hnext : ∀ j, StandsAt (payload.drop (offset + 67)) m j ↔
          StandsAt (payload.drop offset) m (j + 1) := by
        intro j
        rw [StandsAt, StandsAt, List.drop_drop, List.drop_drop,
          show offset + 67 + 67 * j = offset + 67 * (j + 1) by ring]
      have hhere : StandsAt (payload.drop offset) m 0 ↔
          m = ⟨natBE (((payload.drop offset).take 67).take 2),
            ((payload.drop offset).take 67).drop 2⟩ := memberBytes_eq_iff hfirst hid
      rw [hsender, hpub] at h
      simp only [Option.bind_eq_bind, Option.bind_some, Option.bind_eq_some_iff, Option.some.injEq] at h
      obtain ⟨rest, hrest, rfl⟩ := h
      rw [List.mem_cons, ← hhere, ih hrest]
      simp only [hnext]
      constructor
      · rintro (h | ⟨j, hj, h⟩)
        · exact ⟨0, by omega, h⟩
        · exact ⟨j + 1, by omega, h⟩
      · rintro ⟨_ | j, hj, h⟩
        · exact .inl h
        · exact .inr ⟨j, by omega, h⟩

theorem readMembers_total (payload : Buffer) (count : ℕ) :
    ∀ offset, ∃ ms, readMembers payload offset count = some ms := by
  induction count with
  | zero => exact fun _ => ⟨_, rfl⟩
  | succ count ih =>
    intro offset
    rw [readMembers]
    split
    · exact ⟨_, rfl⟩
    · obtain ⟨senderId, hs⟩ := Option.isSome_iff_exists.mp
        (uint16_slice_isSome_iff.mpr (by omega : offset + 2 ≤ payload.length))
      obtain ⟨pubKey, hp, -⟩ := slice_of_le (b := payload) (i := offset + 2) (j := offset + 67)
        (by omega) (by omega)
      obtain ⟨ms, hms⟩ := ih (offset + 67)
      rw [hs, hp, hms]
      exact ⟨_, rfl⟩

theorem standsAt_of_split {front back : List RosterEntry} {j : ℕ}
    (hkey : m.pubKey.length = 65) (hfront : (front.flatMap memberBytes).length = 67 * j) :
    StandsAt ((front ++ m :: back).flatMap memberBytes) m j := by
  rw [StandsAt, List.flatMap_append, List.flatMap_cons, ← hfront, List.drop_left,
    List.take_left' (memberBytes_length hkey)]

/-! ### The announced frames -/

variable {C : Crypto} {keys : ServerKeys}

/-- What an announcement says. -/
def announced (C : Crypto) (keys : ServerKeys) (convId : ℕ) (roster : List RosterEntry)
    (senderId : ℕ) (creator : Bool) : RustCodec.MemberInfo where
  convId := convId
  senderId := senderId
  serverPubKey := C.getPublicKey keys.privateKey
  creator := creator
  members := roster

/-- The frame announces a roster to a member whose shared secret with the server is `shared`. -/
def Announces (C : Crypto) (keys : ServerKeys) (convId : ℕ) (roster : List RosterEntry)
    (senderId : ℕ) (shared msg : Buffer) : Prop :=
  ∃ creator nonce, nonce.length = 12 ∧
    encodeMemberInfo C (announced C keys convId roster senderId creator) (C.sha256 shared) nonce
      = some (some msg)

/-- **`notify_members` announces.**  Whatever the other tasks do in between, the only frame that the
server sends to a member for a roster announces that roster to it. -/
theorem notifyMember_announces (hkeys : keys.Lawful) (convId : ℕ) (e : ℕ × Buffer) :
    (notifyMember C keys convId roster e).Within fun _ os _ =>
      ∀ msg peer carried, Output.sent msg peer carried ∈ os →
        ∃ shared, C.computeSecret keys.privateKey e.2 = some shared ∧
          Announces C keys convId roster e.1 shared msg := by
  rw [notifyMember]
  split
  · exact .pure _
  · rename_i shared hshared
    refine .bind (.read (fun _ _ _ _ h => absurd h List.not_mem_nil) _) ?_
    intro creator s
    refine ⟨fun _ _ _ h => absurd h List.not_mem_nil, .ofOption_bind fun out hout => ?_⟩
    cases out with
    | none => exact .pure _
    | some frame =>
      refine .bind (.read (fun _ _ _ _ h => absurd h List.not_mem_nil) _) ?_
      intro target
      split
      · exact .pure _
      · refine .emit fun t msg peer carried hmem => ?_
        cases List.mem_singleton.mp hmem
        exact ⟨shared, hshared, creator, _, hkeys s.draws 12, hout⟩

/-- The count of a roster is written modulo `2 ^ 16`, and the entries follow it. -/
theorem readRoster_payload (info : DartProtocol.MemberInfo) :
    ∃ ms, readMembers (Wire.memberPayload info) 3 (info.members.length % 65536) = some ms ∧
      readRoster (Wire.memberPayload info) = some (some (info.creator, ms)) := by
  obtain ⟨ms, hms⟩ := readMembers_total (Wire.memberPayload info) (info.members.length % 65536) 3
  refine ⟨ms, hms, ?_⟩
  have hflag : (if info.creator then 1 else 0) < 256 ^ 1 := by split <;> decide
  have hcreator : decide ((if info.creator then 1 else 0) = 1) = info.creator := by
    cases info.creator <;> rfl
  have hcount : bytesBE 2 info.members.length
      = bytesBE 2 (info.members.length % 65536) := by
    have hbytes := bytesBE_natBE (bytesBE 2 info.members.length)
    rw [length_bytesBE, natBE_bytesBE] at hbytes
    exact hbytes.symm
  have h₀ : (Wire.memberPayload info).readUIntBE 0 1 = some (if info.creator then 1 else 0) := by
    rw [Wire.memberPayload, readUIntBE_head hflag]
  have h₁ : (Wire.memberPayload info).readUIntBE 1 2 = some (info.members.length % 65536) := by
    have hlt : info.members.length % 65536 < 256 ^ 2 := Nat.mod_lt _ (by decide)
    rw [Wire.memberPayload, Wire.read_skip (k := 1) (by simp) (le_refl _), hcount,
      readUIntBE_head hlt]
  have hlong : ¬ (Wire.memberPayload info).length < 3 := by
    simp [Wire.memberPayload]
    omega
  simp (disch := rfl) only [readRoster, index_eq, uint16_slice, Buffer.readUInt8, Buffer.readUInt16BE,
    h₀, h₁, hms, hcreator, Option.bind_eq_bind, Option.bind_some, if_neg hlong]

theorem announces_decodes (hC : C.Lawful) (hpub : (C.getPublicKey keys.privateKey).length = 65)
    {convId senderId : ℕ} {shared msg : Buffer}
    (h : Announces C keys convId roster senderId shared msg) :
    ∃ info, decodeMemberInfo C msg (C.sha256 shared) = some (some info) ∧
      ∀ m : RosterEntry, m.senderId < 65536 → m.pubKey.length = 65 →
        (m ∈ info.members ↔
          ∃ j < roster.length % 65536, StandsAt (roster.flatMap memberBytes) m j) := by
  obtain ⟨creator, nonce, hnonce, henc⟩ := h
  obtain ⟨info, hinfo⟩ : ∃ info : DartProtocol.MemberInfo, info =
    ⟨TYPE_MEMBER_INFO, convId, senderId, C.getPublicKey keys.privateKey, creator, roster⟩ := ⟨_, rfl⟩
  have hkey := hC.sha256_length shared
  have htype : info.type = TYPE_MEMBER_INFO := by rw [hinfo]
  have hserver : info.serverPubKey.length = 65 := by rw [hinfo]; exact hpub
  have hmembers : info.members = roster := by rw [hinfo]
  -- the frame, and what it opens to
  have hmsg : msg = Wire.sealedFrame C (C.sha256 shared) nonce (Wire.memberHeader info nonce)
      (Wire.memberPayload info) := by
    have hsame : announced C keys convId roster senderId creator = Wire.rustMemberInfo info := by
      rw [hinfo]
      rfl
    rw [hsame, Wire.rustEncodeMemberInfo_wire hkey hnonce htype, Option.some.injEq,
      Option.some.injEq] at henc
    exact henc.symm
  have hopen : Wire.opened C (C.sha256 shared) 70 82 msg = some (Wire.memberPayload info) := by
    rw [hmsg]
    exact Wire.memberFrame_opened hC hkey hnonce hserver _
  have hlen : 98 ≤ msg.length := by
    rw [hmsg]
    exact Wire.memberFrame_length hC _ hnonce hserver _
  obtain ⟨ms, hms, hroster⟩ := readRoster_payload info
  have hdecode := Wire.rustDecodeMemberInfo_eq (C := C) hkey hlen
  rw [hopen, tryOk_ok, hroster, Option.map_some, Option.bind_some] at hdecode
  obtain ⟨type, ht⟩ := Wire.exists_read (b := msg) 0 1 (by omega)
  obtain ⟨conv, hc⟩ := Wire.exists_read (b := msg) 1 2 (by omega)
  obtain ⟨sender, hs⟩ := Wire.exists_read (b := msg) 3 2 (by omega)
  simp only [Wire.memberInfoOf, Buffer.readUInt8, Buffer.readUInt16BE, ht, hc, hs,
    Option.bind_eq_bind, Option.bind_some, Option.map_some] at hdecode
  refine ⟨_, hdecode, fun m hid hpubKey => ?_⟩
  have hbytes : (Wire.memberPayload info).drop 3 = roster.flatMap memberBytes := by
    rw [Wire.memberPayload, hmembers, ← List.append_assoc]
    exact List.drop_left' (by simp)
  show m ∈ ms ↔ _
  rw [mem_readMembers hid hpubKey hms, hbytes, hmembers]

/-! ### Reachable rosters -/

/-- The ids of the registered members fit two bytes. -/
def IdsFit (s : ServerState) : Prop :=
  ∀ convId senderId key, get₂ s.members convId senderId = some key → senderId < 65536

theorem keyReq_senderId_lt {msg : Buffer} {req : RustCodec.KeyReqDart}
    (h : decodeKeyReq msg = some (some req)) : req.senderId < 65536 := by
  rw [decodeKeyReq] at h
  split at h
  · cases h
  · simp only [Option.bind_eq_bind, Option.bind_eq_some_iff] at h
    obtain ⟨reqNonce, -, convId, -, senderId, ⟨field, -, hsender⟩, clientPubKey, -, hreq⟩ := h
    cases hreq
    exact readUIntBE_lt hsender

theorem idsFit_rules : TaskRules fun s _ t => IdsFit s → IdsFit t where
  refl := fun _ hs => hs
  sent := fun _ _ _ hs => hs
  drawn := fun _ hs => hs
  counted := fun _ _ hs => hs
  noted := by
    intro s typ convId msg peer _ hs
    rw [notePeer]
    split
    · split <;> exact hs
    · exact hs
  cached := fun _ _ _ _ _ _ _ hs => hs
  registered := by
    intro s msg req hreq hs convId senderId key hget
    have hmembers : (registerMember req s).members
        = set₂ s.members req.convId req.senderId req.clientPubKey := rfl
    rw [hmembers, get₂_set₂] at hget
    split at hget
    · rename_i hsame
      rw [← hsame.2]
      exact keyReq_senderId_lt hreq
    · exact hs convId senderId key hget
  removed := by
    intro s peer hs convId senderId key hget
    rw [get₂_removePeer] at hget
    split at hget
    · cases hget
    · exact hs convId senderId key hget
  connected := fun _ _ hs => hs
  ticked := fun _ _ hs => hs

/-- The registered members of a room in some iteration order. -/
def IsRoster (mems : NumMap Buffer) (roster : List RosterEntry) : Prop :=
  roster.Perm (GroupServer.rosterEntries mems)

/-- Every member with a 65-byte key has an entry of its own. -/
def Isolated (roster decoded : List RosterEntry) : Prop :=
  ∀ m ∈ roster, m.pubKey.length = 65 → m ∈ decoded

/-- Every entry with a 65-byte key stands at a multiple of 67 bytes that the decoder comes to. -/
def Aligned (roster : List RosterEntry) : Prop :=
  ∀ m ∈ roster, m.pubKey.length = 65 →
    ∃ j < roster.length % 65536, StandsAt (roster.flatMap memberBytes) m j

theorem aligned_of_keys (hcount : roster.length < 65536)
    (hkeys : ∀ front m back, roster = front ++ m :: back → m.pubKey.length = 65 →
      ∀ e ∈ front, e.pubKey.length = 65) : Aligned roster := by
  intro m hm hkey
  obtain ⟨front, back, rfl⟩ := List.append_of_mem hm
  refine ⟨front.length, ?_, ?_⟩
  · rw [Nat.mod_eq_of_lt hcount, List.length_append, List.length_cons]
    omega
  · refine standsAt_of_split hkey ?_
    rw [Wire.flatMap_memberBytes_length (hkeys front m back rfl hkey), Nat.mul_comm]

/-- **Isolation of roster entries.**  In every reachable state, for every iteration order of the
members of a room, what `notify_members` sends to a member decodes, and the decoded roster has the
entry of every member with a 65-byte key exactly when the roster is aligned.  It is aligned when only
keys of 65 bytes stand in front of such an entry and the count fits its field. -/
theorem roster_isolated_iff (hC : C.Lawful) (hpub : (C.getPublicKey keys.privateKey).length = 65)
    (es : List Event) {convId : ℕ} {mems : NumMap Buffer}
    (hmems : (stateAfter C keys es).members.get convId = some mems) {roster : List RosterEntry}
    (hroster : IsRoster mems roster) {senderId : ℕ} {shared msg : Buffer}
    (hmsg : Announces C keys convId roster senderId shared msg) :
    (∃ info, decodeMemberInfo C msg (C.sha256 shared) = some (some info) ∧
        (Isolated roster info.members ↔ Aligned roster)) ∧
      (roster.length < 65536 → (∀ front m back, roster = front ++ m :: back →
          m.pubKey.length = 65 → ∀ e ∈ front, e.pubKey.length = 65) → Aligned roster) := by
  refine ⟨?_, aligned_of_keys⟩
  obtain ⟨info, hdecode, hmem⟩ := announces_decodes hC hpub hmsg
  have hfit : IdsFit (stateAfter C keys es) :=
    invariant_stateAfter idsFit_rules (fun _ _ _ h => by cases h) es
  have hids : ∀ m ∈ roster, m.senderId < 65536 := by
    intro m hm
    obtain ⟨e, he, rfl⟩ := List.mem_map.mp (hroster.mem_iff.mp hm)
    refine hfit convId e.1 e.2 ?_
    rw [get₂, hmems]
    exact InsertionMap.mem_entries_iff_get.mp he
  refine ⟨info, hdecode, forall_congr' fun m => forall_congr' fun hm => forall_congr' fun hkey => ?_⟩
  exact hmem m (hids m hm) hkey

/-! ### Two rooms -/

/-- Two clients ask to join a room; the first one registers the key `key`. -/
def twoJoin (key : Buffer) : List Event :=
  .message (GroupServer.sumKeyReq 5 1 key) (.udp "10.0.0.1:4000") :: List.replicate 12 (.turn 0) ++
    .message (GroupServer.sumKeyReq 5 2 (bytesBE 65 2)) (.udp "10.0.0.2:4000") ::
      List.replicate 16 (.turn 1)

/-- The frame that announces two members with keys of 65 bytes to the second one. -/
def evenFrame : Buffer :=
  ((encodeMemberInfo sumCrypto (announced sumCrypto GroupServer.sumServer 5 (sumRoster [1, 2]) 2 false)
    (sumPairwise 9 2) (Buffer.alloc 12)).join).getD []

/-- With two keys of 65 bytes both members are in the decoded roster. -/
theorem even_keys_isolated :
    ∃ info, decodeMemberInfo sumCrypto evenFrame (sumPairwise 9 2) = some (some info) ∧
      Isolated (sumRoster [1, 2]) info.members := by
  obtain ⟨mems, hmems⟩ : ∃ mems, (stateAfter sumCrypto GroupServer.sumServer
      (twoJoin (bytesBE 65 1))).members.get 5 = some mems :=
    Option.isSome_iff_exists.mp (by decide +kernel)
  have hroster : IsRoster mems (sumRoster [1, 2]) := by
    have heval : ((stateAfter sumCrypto GroupServer.sumServer
        (twoJoin (bytesBE 65 1))).members.get 5).map GroupServer.rosterEntries
          = some (sumRoster [1, 2]) := by decide +kernel
    rw [hmems, Option.map_some, Option.some.injEq] at heval
    rw [IsRoster, heval]
  obtain ⟨shared, hshared, hkey⟩ : ∃ shared, sumCrypto.computeSecret (bytesBE 65 9)
      (bytesBE 65 2) = some shared ∧ sumPairwise 9 2 = sumCrypto.sha256 shared :=
    ⟨_, rfl, rfl⟩
  have hmsg : Announces sumCrypto GroupServer.sumServer 5 (sumRoster [1, 2]) 2 shared evenFrame := by
    refine ⟨false, Buffer.alloc 12, by decide, ?_⟩
    rw [← hkey]
    decide +kernel
  have hpub : (sumCrypto.getPublicKey GroupServer.sumServer.privateKey).length = 65 := by decide +kernel
  obtain ⟨⟨info, hinfo, hiff⟩, haligned⟩ := roster_isolated_iff sumCrypto_lawful hpub
    (twoJoin (bytesBE 65 1)) hmems hroster hmsg
  rw [hkey]
  refine ⟨info, hinfo, hiff.mpr (haligned (by decide) ?_)⟩
  intro front m back hsplit _ e he
  have hall : ∀ e ∈ sumRoster [1, 2], e.pubKey.length = 65 := by decide +kernel
  exact hall e (by rw [hsplit]; simp [he])

/-- The server announces to the second client last; what that frame decodes to. -/
def lastDecoded (key : Buffer) : Option RustCodec.MemberInfo :=
  let frames := (run sumCrypto GroupServer.sumServer (twoJoin key) { state := {} }).output.filterMap
    fun o => match o with
      | .sent msg _ _ => some msg
      | .cached _ _ _ _ => none
  (decodeMemberInfo sumCrypto (frames.getLastD []) (sumPairwise 9 2)).join

/-- **A short key takes the next entry with it.**  The first client registers 33 bytes.  The second
one, registered with its 65-byte key, then decodes a roster it is not in. -/
theorem short_key_shifts_roster :
    get₂ (stateAfter sumCrypto GroupServer.sumServer (twoJoin (Buffer.alloc 33))).members 5 2
        = some (bytesBE 65 2) ∧
      ∃ info, lastDecoded (Buffer.alloc 33) = some info ∧ ∀ m ∈ info.members, m.senderId ≠ 2 := by
  have heval : ∃ m ∈ lastDecoded (Buffer.alloc 33), ∀ e ∈ m.members, e.senderId ≠ 2 := by
    decide +kernel
  obtain ⟨info, hinfo, hother⟩ := heval
  exact ⟨by decide +kernel, info, hinfo, hother⟩

end DartProtocol.RustServer
