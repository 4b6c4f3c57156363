import DartProtocol.EpochWindow
import DartProtocol.NackLists

/-!
# How many numbers a NACK can carry

The gap test admits darts and SYNCs up to half the circle ahead, and the list of missing numbers has as
many entries; the count of a NACK frame has 16 bits.  The TypeScript encoder throws on a longer list.
The Go encoder keeps the low 16 bits of its length in front of all the numbers, and what is decoded is
not that list.

* `NackAccepted`, `GoNackAccepted` — the frame of a list decodes to the list;
* `nackAccepted_iff`, `goNackAccepted_iff` — it does exactly for lists below 65536 numbers;
* `missingOf_subset` — what the Go client asks for are numbers of the gap;
* `nack_capacity_iff` — the same for every gap that a client finds.
-/

namespace DartProtocol

open Prog InsertionMap Buffer Wire

/-! ### One frame -/

/-- The frame built for a NACK is accepted under the key, and yields the NACK. -/
def NackAccepted (C : Crypto) (nack : NackDart) (key nonce : Buffer) : Prop :=
  ∃ buf, Codec.encodeNack C nack key nonce = some buf ∧ Codec.decodeNack C buf key = some nack

/-- The same in Go, between two clients. -/
def GoNackAccepted (C : Crypto) (A : GoCodec.ShortAes) (sender target : GoCodec.Codec) (nack : NackDart)
    (nonce : Buffer) : Prop :=
  ∃ buf, GoCodec.encodeNack C A sender nack nonce = some (some buf) ∧
    GoCodec.decodeNack C A target buf = some (some nack)

variable {buf : Buffer}

theorem parseNack_count {nack : NackDart} (h : Codec.parseNack buf = some nack) :
    nack.missingSeq.length < 65536 := by
  rw [Codec.parseNack] at h
  split at h
  · cases h
  simp only [Option.bind_eq_bind, Option.bind_eq_some_iff] at h
  obtain ⟨type, -, convId, -, senderId, -, targetId, -, count, hcount, h⟩ := h
  split at h
  · cases h
  simp only [Option.bind_eq_some_iff] at h
  obtain ⟨seqs, hseqs, hnack⟩ := h
  cases hnack
  show seqs.length < 65536
  rw [readSeqs_length hseqs]
  exact readUIntBE_lt hcount

section Frame

variable {C : Crypto} {key nonce : Buffer} {nack : NackDart}

/-- **The TypeScript frame** is accepted exactly for a list that fits the count. -/
theorem nackAccepted_iff (hC : C.Lawful) (hbody : LengthPreserving C) (hkey : key.length = 32)
    (hnonce : nonce.length = 12) (htype : nack.type = TYPE_NACK) (hconv : nack.convId < 65536)
    (hsender : nack.senderId < 65536) (htarget : nack.targetId < 65536)
    (hseqs : ∀ seq ∈ nack.missingSeq, seq < SEQ_MOD) :
    NackAccepted C nack key nonce ↔ nack.missingSeq.length < 65536 := by
  constructor
  · rintro ⟨buf, -, hdec⟩
    rw [Codec.decodeNack, Option.bind_eq_bind, Option.bind_eq_some_iff] at hdec
    obtain ⟨parsed, hparse, hdec⟩ := hdec
    have hsame : parsed = nack := by
      simp only at hdec
      split at hdec
      · cases hdec
      · obtain ⟨-, -, hsome⟩ := Option.bind_eq_some_iff.mp hdec
        exact Option.some.inj hsome
    rw [← hsame]
    exact parseNack_count hparse
  · intro hcount
    have hfits : NackFits nack := ⟨htype, hconv, hsender, htarget, hcount, hseqs⟩
    exact ⟨_, encodeNack_wire hkey hnonce hbody hfits,
      (decodeNack_wire hC hbody hkey hnonce hfits).2⟩

/-- **So is the Go frame**, although one is built for every list. -/
theorem goNackAccepted_iff (hC : C.Lawful) (hbody : LengthPreserving C) (A : GoCodec.ShortAes)
    {sender target : GoCodec.Codec} (hkey : key.length = 32) (hnonce : nonce.length = 12)
    (htype : nack.type = TYPE_NACK) (hconv : nack.convId < 65536) (hsender : nack.senderId < 65536)
    (htarget : nack.targetId < 65536) (hseqs : ∀ seq ∈ nack.missingSeq, seq < SEQ_MOD)
    (hs : sender.convKeys.get nack.convId = some key) (ht : target.convKeys.get nack.convId = some key) :
    GoNackAccepted C A sender target nack nonce ↔ nack.missingSeq.length < 65536 := by
  constructor
  · rintro ⟨buf, -, hdec⟩
    rw [GoCodec.decodeNack, (parseNack_eq _).1] at hdec
    cases hparse : Codec.parseNack buf with
    | none =>
      rw [hparse] at hdec
      cases hdec
    | some parsed =>
      rw [hparse, Slice.tryOk_ok] at hdec
      have hsame : parsed = nack := by
        simp only [Option.bind_eq_bind] at hdec
        split at hdec
        · cases hdec
        · simp only [Option.bind_eq_some_iff, Slice.tryOk_eq_ok] at hdec
          obtain ⟨_, -, _, -, _, -, _, -, _, -, hdec⟩ := hdec
          exact Option.some.inj (Option.some.inj hdec)
      rw [← hsame]
      exact parseNack_count hparse
  · intro hcount
    have hfits : NackFits nack := ⟨htype, hconv, hsender, htarget, hcount, hseqs⟩
    have hr : (({} : RustCodec.Codec).convKeys.set nack.convId key).get nack.convId = some key :=
      get_set_self _ _ _
    obtain ⟨⟨frame, -, henc, -, -, hdec, -⟩, -⟩ := nack_format hC hbody A hkey hnonce hfits ht
      (r := { convKeys := ({} : RustCodec.Codec).convKeys.set nack.convId key }) hr
    refine ⟨frame, ?_, hdec⟩
    rw [goEncodeNack_wire hkey hnonce A hs, ← henc, goEncodeNack_wire hkey hnonce A ht]

end Frame

/-! ### The gaps of a client -/

/-- The NACK that a client builds for a list of missing numbers. -/
def nackOf (me : Identity) (convId targetId : ℕ) (missing : List ℕ) : NackDart :=
  { type := TYPE_NACK, convId, senderId := me.senderId, targetId, missingSeq := missing }

theorem seqsAfter_lt {h n q : ℕ} (hq : q ∈ seqsAfter h n) : q < SEQ_MOD := by
  obtain ⟨k, -, rfl⟩ := List.mem_map.mp hq
  exact Nat.mod_lt _ (by decide)

theorem dataHeader_sender {convId senderId seq : ℕ}
    (h : dataHeader buf = some (some (convId, senderId, seq))) : senderId < 65536 := by
  simp only [dataHeader, Option.bind_eq_bind, Option.bind_eq_some_iff] at h
  obtain ⟨_, -, _, -, _, -, h⟩ := h
  split at h
  · cases h
  · obtain ⟨id, hid, h⟩ := Option.bind_eq_some_iff.mp h
    cases h
    exact readUIntBE_lt hid

theorem openSync_sender {C : Crypto} {s : Client} {sync : SyncDart}
    (h : openSync C s buf = some (some sync)) : sync.senderId < 65536 := by
  simp only [openSync, Option.bind_eq_bind, Option.bind_eq_some_iff] at h
  obtain ⟨_ | ⟨stripped, key⟩, -, h⟩ := h
  · cases h
  · obtain ⟨sync', hdec, h⟩ := Option.bind_eq_some_iff.mp h
    cases h
    simp only [Codec.decodeSync, Option.bind_eq_bind, Option.bind_eq_some_iff] at hdec
    obtain ⟨_, -, _, -, id, hid, payload, -, seq, -, hdec⟩ := hdec
    cases hdec
    exact readUIntBE_lt hid

namespace GoClient

open Slice GoCodec

/-- Conversation, sender and number of a Data frame that the Go client looks at. -/
def dataHeader (buf : Buffer) : Option (ℕ × ℕ × ℕ) := do
  let extLen ← index buf 6
  if buf.length < 7 + 24 ∨ extLen < 24 then none
  else
    let convId ← (slice buf 1 3).bind uint16
    let seq ← (slice buf 3 6).bind uint24
    let senderId ← (slice buf 7 9).bind uint16
    some (convId, senderId, seq)

/-- The datagram of a SYNC without its MAC, decoded. -/
def openSync (C : Crypto) (A : ShortAes) (s : NativeDartClient) (buf : Buffer) : Option SyncDart :=
  match GoCodec.stripControlFrame buf with
  | some (some stripped) => (decodeSync C A s.codec stripped).join
  | _ => none

/-- How far an announced number is ahead of what was received. -/
def syncAhead (s : NativeDartClient) (senderId highestSeq : ℕ) : ℕ :=
  if s.highestReceived.has senderId then seqDelta (highestOf s senderId) highestSeq else highestSeq

section Sites

variable (C : Crypto) (A : ShortAes) (F : Flate) (me : Identity)

/-- The search for what is missing before a Data dart. -/
def dataGap (s : NativeDartClient) (buf : Buffer) (convId senderId seq : ℕ) :
    Outcome NativeDartClient Output (List ℕ) :=
  missingOf (askFor C A me convId senderId (pure ()))
    (seqsAfter (highestOf s senderId) (dataAhead s senderId seq - 1))
    { s with outOfOrderBuffer := set₂ s.outOfOrderBuffer senderId seq buf }

/-- The search for what is missing up to an announced number. -/
def syncGap (s : NativeDartClient) (sync : SyncDart) : Outcome NativeDartClient Output (List ℕ) :=
  missingOf (askFor C A me sync.convId sync.senderId (processBufferedPackets C A F me sync.senderId))
    (seqsAfter (highestOf s sync.senderId) (syncAhead s sync.senderId sync.highestSeq))
    (ensureReceived sync.senderId s)

variable {C A F me}

variable {missing : List ℕ} {s : NativeDartClient}

/-- **What is asked for** are numbers of the gap. -/
theorem missingOf_subset {ask : ℕ → Locked Bool} {is : List ℕ}
    (h : (missingOf ask is s).result = some missing) : missing ⊆ is := by
  induction is generalizing s missing with
  | nil =>
    cases h
    exact List.Subset.refl _
  | cons i is ih =>
    rw [missingOf] at h
    obtain ⟨wanted, -, hrun, hsome⟩ := bind_of_isSome (Option.isSome_of_eq_some h)
    obtain ⟨rest, hrest, hrun', -⟩ := bind_of_isSome hsome
    rw [hrun, hrun'] at h
    have hmissing : missing = if wanted then i :: rest else rest := (Option.some.inj h).symm
    have hrest : rest ⊆ i :: is := List.subset_cons_of_subset i (ih hrest)
    rw [hmissing]
    split
    · exact List.cons_subset.mpr ⟨List.mem_cons_self, hrest⟩
    · exact hrest

/-- **A Data dart beyond a gap**: what is missing before it is looked for, and asked for. -/
theorem handleData_gap {buf : Buffer} {convId senderId seq : ℕ}
    (hheader : dataHeader buf = some (convId, senderId, seq))
    (hgap : 1 < dataAhead s senderId seq) (hnear : dataAhead s senderId seq < SEQ_MOD / 2)
    (hmissing : (dataGap C A me s buf convId senderId seq).result = some missing) :
    handleData C A F me buf s
      = (nackMissing C A me convId senderId missing
          (dataGap C A me s buf convId senderId seq).state).prepend
        (dataGap C A me s buf convId senderId seq).output := by
  obtain ⟨extLen, hext, hheader⟩ := Option.bind_eq_some_iff.mp hheader
  split at hheader
  · cases hheader
  next hlong =>
    obtain ⟨c, hconv, hheader⟩ := Option.bind_eq_some_iff.mp hheader
    obtain ⟨q, hseq, hheader⟩ := Option.bind_eq_some_iff.mp hheader
    obtain ⟨id, hid, hheader⟩ := Option.bind_eq_some_iff.mp hheader
    cases hheader
    have hstale : ¬(dataAhead s senderId seq = 0 ∨ SEQ_MOD / 2 ≤ dataAhead s senderId seq) := by omega
    rw [handleData, if_neg (by omega), hext, ofOption_some_bind, if_neg (by omega),
      hconv, ofOption_some_bind, hseq, ofOption_some_bind, hid,
      ofOption_some_bind, get_bind, if_neg hstale, if_pos hgap, bufferAhead,
      get_bind, modify_bind]
    exact bind_of_some hmissing _

/-- **So is what a SYNC announces.** -/
theorem handleSync_gap {buf : Buffer} {sync : SyncDart} (hsync : openSync C A s buf = some sync)
    (hgap : 0 < syncAhead s sync.senderId sync.highestSeq)
    (hnear : syncAhead s sync.senderId sync.highestSeq < SEQ_MOD / 2)
    (hmissing : (syncGap C A F me s sync).result = some missing) :
    handleSync C A F me buf s
      = (nackMissing C A me sync.convId sync.senderId missing
          (syncGap C A F me s sync).state).prepend (syncGap C A F me s sync).output := by
  rw [openSync] at hsync
  split at hsync
  · next stripped hstrip =>
    have hdec : decodeSync C A s.codec stripped = some (some sync) := Option.join_eq_some_iff.mp hsync
    rw [handleSync, hstrip, ofOption_some_bind]
    simp only [get_bind, hdec, ofOption_some_bind]
    rw [requestSync, get_bind]
    rw [if_pos ⟨hgap, hnear⟩, modify_bind]
    exact bind_of_some hmissing _
  · cases hsync

theorem missingOf_fresh {convId senderId : ℕ} {after : Locked Unit} {is : List ℕ}
    (hnodup : is.Nodup) (hfree : ∀ i ∈ is, get₂ s.outOfOrderBuffer senderId i = none ∧
      get₂ s.receivedMessages senderId i = none ∧ get₂ s.nackTimestamps senderId i = none) :
    (missingOf (askFor C A me convId senderId after) is s).result = some is := by
  induction is generalizing s with
  | nil => rfl
  | cons i is ih =>
    obtain ⟨hout, hreceived, hstamp⟩ := hfree i List.mem_cons_self
    obtain ⟨hnew, hnodup⟩ := List.nodup_cons.mp hnodup
    have hask : askFor C A me convId senderId after i s
        = ⟨some true, { s with nackTimestamps := set₂ s.nackTimestamps senderId i s.clock }, []⟩ := by
      rw [askFor, get_bind, hout, hreceived, hstamp]
      rfl
    have hrest := ih hnodup (s := { s with
      nackTimestamps := set₂ s.nackTimestamps senderId i s.clock }) fun j hj => by
        obtain ⟨h₁, h₂, h₃⟩ := hfree j (List.mem_cons_of_mem _ hj)
        have hne : i ≠ j := fun h => hnew (h ▸ hj)
        rw [get₂_set₂, if_neg fun h => hne h.2]
        exact ⟨h₁, h₂, h₃⟩
    rw [missingOf, bind_of_some (a := true) (by rw [hask]), hask, bind_of_some hrest]
    rfl

end Sites

theorem dataHeader_bounds {buf : Buffer} {convId senderId seq : ℕ}
    (h : dataHeader buf = some (convId, senderId, seq)) : convId < 65536 ∧ senderId < 65536 := by
  obtain ⟨extLen, -, h⟩ := Option.bind_eq_some_iff.mp h
  split at h
  · cases h
  · obtain ⟨c, hconv, h⟩ := Option.bind_eq_some_iff.mp h
    obtain ⟨q, -, h⟩ := Option.bind_eq_some_iff.mp h
    obtain ⟨id, hid, h⟩ := Option.bind_eq_some_iff.mp h
    cases h
    obtain ⟨_, -, hconv⟩ := Option.bind_eq_some_iff.mp hconv
    obtain ⟨_, -, hid⟩ := Option.bind_eq_some_iff.mp hid
    exact ⟨readUIntBE_lt hconv, readUIntBE_lt hid⟩

theorem openSync_bounds {C : Crypto} {A : ShortAes} {s : NativeDartClient} {buf : Buffer}
    {sync : SyncDart} (h : openSync C A s buf = some sync) :
    sync.convId < 65536 ∧ sync.senderId < 65536 := by
  rw [openSync] at h
  split at h
  · next stripped hstrip =>
    have hdec : decodeSync C A s.codec stripped = some (some sync) := Option.join_eq_some_iff.mp h
    rw [decodeSync] at hdec
    split at hdec
    · cases hdec
    · simp only [Option.bind_eq_bind] at hdec
      obtain ⟨_, -, hdec⟩ := Option.bind_eq_some_iff.mp hdec
      obtain ⟨c, hconv, hdec⟩ := Option.bind_eq_some_iff.mp hdec
      obtain ⟨id, hid, hdec⟩ := Option.bind_eq_some_iff.mp hdec
      simp only [Option.bind_eq_some_iff, tryOk_eq_ok] at hdec hconv hid
      obtain ⟨_, -, _, -, _, -, _, -, payload, -, hdec⟩ := hdec
      obtain ⟨_, -, hconv⟩ := hconv
      obtain ⟨_, -, hid⟩ := hid
      split at hdec
      · cases hdec
      · obtain ⟨_, -, hdec⟩ := Option.bind_eq_some_iff.mp hdec
        cases hdec
        exact ⟨readUIntBE_lt hconv, readUIntBE_lt hid⟩
  · cases h

end GoClient

/-! ### Every gap -/

/-- **Which gaps can be asked for.**  When a Data dart or a SYNC leaves a gap of less than half the
circle, the client builds one NACK for the numbers it misses.  The frame of this NACK is accepted at the
other end, with exactly this list, if and only if the list has at most 65535 numbers: in the TypeScript
client and in the Go client. -/
theorem nack_capacity_iff {C : Crypto} (hC : C.Lawful) (hbody : LengthPreserving C)
    (A : GoCodec.ShortAes) (F : GoClient.Flate) {me : Identity} (hme : me.senderId < 65536)
    {key nonce : Buffer} (hkey : key.length = 32) (hnonce : nonce.length = 12) :
    (∀ (s : Client) (buf : Buffer) (c id seq : ℕ), s.closed = false →
      buf.readUInt8 0 = some TYPE_DATA → dataHeader buf = some (some (c, id, seq)) →
      1 < dataAhead s id seq → dataAhead s id seq < SEQ_MOD / 2 →
      step C me (.message buf) s
          = ⟨some (), (nackMissing C me c id (dataGapList s buf id seq)
                ((s.noteSeen id seq).hold id seq buf)).state,
              (nackMissing C me c id (dataGapList s buf id seq)
                ((s.noteSeen id seq).hold id seq buf)).output⟩ ∧
        (NackAccepted C (nackOf me c id (dataGapList s buf id seq)) key nonce ↔
          (dataGapList s buf id seq).length < 65536)) ∧
    (∀ (s : Client) (buf : Buffer) (sync : SyncDart), s.closed = false →
      buf.readUInt8 0 = some TYPE_SYNC → openSync C s buf = some (some sync) →
      0 < syncAhead s sync.senderId sync.highestSeq →
      syncAhead s sync.senderId sync.highestSeq < SEQ_MOD / 2 →
      step C me (.message buf) s
          = ⟨some (), (nackMissing C me sync.convId sync.senderId
                (syncGapList s sync.senderId sync.highestSeq)
                (ensureReceived sync.senderId (s.noteSeen sync.senderId sync.highestSeq))).state,
              (nackMissing C me sync.convId sync.senderId
                (syncGapList s sync.senderId sync.highestSeq)
                (ensureReceived sync.senderId (s.noteSeen sync.senderId sync.highestSeq))).output⟩ ∧
        (NackAccepted C (nackOf me sync.convId sync.senderId
            (syncGapList s sync.senderId sync.highestSeq)) key nonce ↔
          (syncGapList s sync.senderId sync.highestSeq).length < 65536)) ∧
    (∀ (s : GoClient.NativeDartClient) (target : GoCodec.Codec) (buf : Buffer) (c id seq : ℕ)
      (missing : List ℕ), GoClient.dataHeader buf = some (c, id, seq) →
      s.codec.convKeys.get c = some key → target.convKeys.get c = some key →
      1 < GoClient.dataAhead s id seq → GoClient.dataAhead s id seq < SEQ_MOD / 2 →
      (GoClient.dataGap C A me s buf c id seq).result = some missing →
      GoClient.handleData C A F me buf s
          = (GoClient.nackMissing C A me c id missing
              (GoClient.dataGap C A me s buf c id seq).state).prepend
            (GoClient.dataGap C A me s buf c id seq).output ∧
        (GoNackAccepted C A s.codec target (nackOf me c id missing) nonce ↔ missing.length < 65536)) ∧
    (∀ (s : GoClient.NativeDartClient) (target : GoCodec.Codec) (buf : Buffer) (sync : SyncDart)
      (missing : List ℕ), GoClient.openSync C A s buf = some sync →
      s.codec.convKeys.get sync.convId = some key → target.convKeys.get sync.convId = some key →
      0 < GoClient.syncAhead s sync.senderId sync.highestSeq →
      GoClient.syncAhead s sync.senderId sync.highestSeq < SEQ_MOD / 2 →
      (GoClient.syncGap C A F me s sync).result = some missing →
      GoClient.handleSync C A F me buf s
          = (GoClient.nackMissing C A me sync.convId sync.senderId missing
              (GoClient.syncGap C A F me s sync).state).prepend
            (GoClient.syncGap C A F me s sync).output ∧
        (GoNackAccepted C A s.codec target (nackOf me sync.convId sync.senderId missing) nonce ↔
          missing.length < 65536)) := by
  refine ⟨?_, ?_, ?_, ?_⟩
  · intro s buf c id seq hopen htype hheader hgap hnear
    refine ⟨step_data_gap hopen htype hheader hgap hnear, ?_⟩
    refine nackAccepted_iff hC hbody hkey hnonce rfl (dataHeader_bounds hheader).1 hme
      (dataHeader_sender hheader) fun q hq => ?_
    exact seqsAfter_lt (List.mem_of_mem_filter hq)
  · intro s buf sync hopen htype hsync hgap hnear
    refine ⟨step_sync_gap hopen htype hsync hgap hnear, ?_⟩
    refine nackAccepted_iff hC hbody hkey hnonce rfl (openSync_bounds hsync).1 hme
      (openSync_sender hsync) fun q hq => ?_
    exact seqsAfter_lt (List.mem_of_mem_filter hq)
  · intro s target buf c id seq missing hheader hs ht hgap hnear hmissing
    obtain ⟨hconv, hid⟩ := GoClient.dataHeader_bounds hheader
    exact ⟨GoClient.handleData_gap hheader hgap hnear hmissing,
      goNackAccepted_iff hC hbody A hkey hnonce rfl hconv hme hid
        (fun q hq => seqsAfter_lt (GoClient.missingOf_subset hmissing hq)) hs ht⟩
  · intro s target buf sync missing hsync hs ht hgap hnear hmissing
    obtain ⟨hconv, hid⟩ := GoClient.openSync_bounds hsync
    exact ⟨GoClient.handleSync_gap hsync hgap hnear hmissing,
      goNackAccepted_iff hC hbody A hkey hnonce rfl hconv hme hid
        (fun q hq => seqsAfter_lt (GoClient.missingOf_subset hmissing hq)) hs ht⟩

/-- The gap before the third of three darts is asked for. -/
theorem third_dart_nack_accepted :
    NackAccepted sumCrypto (nackOf (sumIdentity 2) 1 1
      (dataGapList (memberAfter ["a", "b", "c"] [0, 1, 2]) thirdDart 1 3)) wireKey wireNonce := by
  have hiff := nack_capacity_iff sumCrypto_lawful sumCrypto_lengthPreserving sumAes sumFlate
    (show (sumIdentity 2).senderId < 65536 by decide) (show wireKey.length = 32 by decide)
    (show wireNonce.length = 12 by decide)
  exact (hiff.1 (memberAfter ["a", "b", "c"] [0, 1, 2]) thirdDart 1 1 3 (by decide +kernel)
    (by decide +kernel) (by decide +kernel) (by decide +kernel) (by decide +kernel)).2.mpr
      (by decide +kernel)

/-- The header of a dart numbered 65538 of member 1 in conversation 1. -/
def farDart : Buffer := bytesBE 1 TYPE_DATA ++ bytesBE 2 1 ++ bytesBE 3 65538 ++
  bytesBE 1 24 ++ bytesBE 2 1 ++ Buffer.alloc 22

/-- A Go client of the same conversation that received dart 1 of member 1. -/
def farReceiver : GoClient.NativeDartClient :=
  { codec := wireGo, highestReceived := (∅ : NumMap ℕ).set 1 1 }

theorem mem_farGap {q : ℕ} (hq : q ∈ seqsAfter 1 65536) : 2 ≤ q ∧ q ≤ 65537 := by
  obtain ⟨k, hk, rfl⟩ := List.mem_map.mp hq
  rw [List.mem_range] at hk
  simp only [SEQ_MOD]
  omega

/-- A gap in which nothing is held or stored is missing as a whole. -/
theorem dataGapList_of_free {s : Client} {id seq h n : ℕ}
    (hbase : s.highestReceivedSeq.get id = some h) (hahead : dataAhead s id seq = n + 1)
    (hfree : ∀ q ∈ seqsAfter h n, q ≠ seq ∧ get₂ s.outOfOrderBuffer id q = none ∧
      get₂ s.receivedMessages id q = none) : dataGapList s buf id seq = seqsAfter h n := by
  rw [dataGapList, orDefault_zero, hbase, Option.getD_some, hahead, Nat.add_sub_cancel]
  refine List.filter_eq_self.mpr fun q hq => ?_
  obtain ⟨hne, hout, hreceived⟩ := hfree q hq
  rw [isMissing, Client.hold, get₂_set₂, if_neg fun heq => hne heq.2.symm, hout, hreceived]
  rfl

theorem long_list_refused {missing : List ℕ} (hlength : missing.length = 65536)
    (hlt : ∀ q ∈ missing, q < SEQ_MOD) :
    ¬ NackAccepted sumCrypto (nackOf (sumIdentity 2) 1 1 missing) wireKey wireNonce ∧
      ¬ GoNackAccepted sumCrypto sumAes wireGo wireGo (nackOf (sumIdentity 2) 1 1 missing)
        wireNonce := by
  have hlong : ¬ missing.length < 65536 := Nat.not_lt.mpr hlength.ge
  have htype : (nackOf (sumIdentity 2) 1 1 missing).type = TYPE_NACK := rfl
  have hid : (sumIdentity 2).senderId < 65536 := by decide
  have hkey : wireKey.length = 32 := by decide
  have hnonce : wireNonce.length = 12 := by decide
  constructor
  · rwa [nackAccepted_iff sumCrypto_lawful sumCrypto_lengthPreserving hkey hnonce htype
      (show 1 < 65536 by decide) hid (show 1 < 65536 by decide) hlt]
  · rwa [goNackAccepted_iff sumCrypto_lawful sumCrypto_lengthPreserving sumAes hkey hnonce htype
      (show 1 < 65536 by decide) hid (show 1 < 65536 by decide) hlt rfl rfl]

/-- **A gap of 65536 darts cannot be asked for.**  Behind the first dart, the dart with number 65538
passes the gap test of both clients, and both look for 65536 numbers. -/
theorem far_dart_not_nacked :
    (let s := memberAfter ["a", "b", "c"] [0, 1, 2]
     dataHeader farDart = some (some (1, 1, 65538)) ∧ 1 < dataAhead s 1 65538 ∧
      dataAhead s 1 65538 < SEQ_MOD / 2 ∧ dataGapList s farDart 1 65538 = seqsAfter 1 65536 ∧
      ¬ NackAccepted sumCrypto (nackOf (sumIdentity 2) 1 1 (dataGapList s farDart 1 65538))
        wireKey wireNonce) ∧
    (GoClient.dataHeader farDart = some (1, 1, 65538) ∧ 1 < GoClient.dataAhead farReceiver 1 65538 ∧
      GoClient.dataAhead farReceiver 1 65538 < SEQ_MOD / 2 ∧
      (GoClient.dataGap sumCrypto sumAes (sumIdentity 2) farReceiver farDart 1 1 65538).result
        = some (seqsAfter 1 65536) ∧
      ¬ GoNackAccepted sumCrypto sumAes farReceiver.codec farReceiver.codec
        (nackOf (sumIdentity 2) 1 1 (seqsAfter 1 65536)) wireNonce) := by
  have hlength : (seqsAfter 1 65536).length = 65536 := by
    rw [seqsAfter, List.length_map, List.length_range]
  have hlt : ∀ q ∈ seqsAfter 1 65536, q < SEQ_MOD := fun q hq => seqsAfter_lt hq
  obtain ⟨hheader, hbase, hbuffer, hkeys⟩ :
      dataHeader farDart = some (some (1, 1, 65538)) ∧
        (memberAfter ["a", "b", "c"] [0, 1, 2]).highestReceivedSeq.get 1 = some 1 ∧
        (memberAfter ["a", "b", "c"] [0, 1, 2]).outOfOrderBuffer.get 1 = none ∧
        (((memberAfter ["a", "b", "c"] [0, 1, 2]).receivedMessages.get 1).getD ∅).keys = [1] := by
    decide +kernel
  have hahead : dataAhead (memberAfter ["a", "b", "c"] [0, 1, 2]) 1 65538 = 65537 := by
    rw [dataAhead_of_baseline hbase]
    decide
  -- nothing is held or stored between the two darts
  have hlist : dataGapList (memberAfter ["a", "b", "c"] [0, 1, 2]) farDart 1 65538
      = seqsAfter 1 65536 := by
    refine dataGapList_of_free hbase hahead fun q hq => ?_
    obtain ⟨hlow, hhigh⟩ := mem_farGap hq
    refine ⟨by omega, by rw [get₂, hbuffer]; rfl, ?_⟩
    rw [get₂]
    cases hget : (memberAfter ["a", "b", "c"] [0, 1, 2]).receivedMessages.get 1 with
    | none => rfl
    | some received =>
      refine Option.eq_none_iff_forall_ne_some.mpr fun dart hdart => ?_
      have hmem := mem_keys_iff.mpr ⟨dart, hdart⟩
      rw [hget] at hkeys
      rw [show received.keys = [1] from hkeys, List.mem_singleton] at hmem
      omega
  have hgap : (GoClient.dataGap sumCrypto sumAes (sumIdentity 2) farReceiver farDart 1 1 65538).result
      = some (seqsAfter 1 65536) := by
    have hnodup : (seqsAfter 1 65536).Nodup :=
      (pairwise_seqsAfter (by decide)).imp fun h heq => absurd (heq ▸ h) (Nat.lt_irrefl _)
    refine GoClient.missingOf_fresh hnodup fun q hq => ?_
    obtain ⟨hlow, hhigh⟩ := mem_farGap hq
    refine ⟨?_, rfl, rfl⟩
    rw [get₂_set₂, if_neg (by omega)]
    rfl
  obtain ⟨hts, hgo⟩ := long_list_refused hlength hlt
  refine ⟨⟨hheader, by rw [hahead]; decide, by rw [hahead]; decide, hlist, ?_⟩,
    by decide, by decide, by decide, hgap, hgo⟩
  rw [hlist]
  exact hts

end DartProtocol
