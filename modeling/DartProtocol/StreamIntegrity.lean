import DartProtocol.SenderLog
import DartProtocol.StreamReceive
import DartProtocol.SumCrypto

/-!
# Integrity of a received stream on an active network

Whatever datagrams reach a receiver, and in whatever order, the darts it stores of a sender are a
subsequence of the darts the sender sent.  Nothing is assumed about the network; what is assumed is
that the cipher is ideal for the data of the sender (`DataFrom`), that the chain states the receiver
accepts in the sender's name are the sender's (`SharesFrom`), and that the fingerprint tells the
dictionaries of the run apart.

`ReceiverLog` is the invariant: what was stored so far is sorted and genuine, the highest number
bounds it, the chains lie on the sender's chains, and the buffer holds datagrams under the number in
their header.

* `openData_genuine` — what decrypts is an encoding of the sender;
* `drainBuffer_receiverLog` — the draining loop only moves up;
* `receiverLog_run` — the invariant over every run;
* `stored_sublist_sent` — the stored log is a subsequence of the sent log.
-/

namespace DartProtocol

open Prog InsertionMap Outcome

/-! ### Logs -/

/-- Number and payload of the darts a client sent. -/
def sentLog (os : List Output) : List (ℕ × String) :=
  (sentDarts os).map fun d => (d.seq, d.payload)

/-- Number and payload of the darts a client stored for a sender. -/
def storedLog (sender : ℕ) (os : List Output) : List (ℕ × String) :=
  ((storedDarts os).filter fun d => decide (d.senderId = sender)).map fun d => (d.seq, d.payload)

theorem storedLog_append (sender : ℕ) (os os' : List Output) :
    storedLog sender (os ++ os') = storedLog sender os ++ storedLog sender os' := by
  simp [storedLog, storedDarts_append]

/-- The chains among outputs, with conversation, epoch and seed. -/
def chainStarts (os : List Output) : List (ℕ × ℕ × Buffer) :=
  os.filterMap fun o => match o with
    | .chainStarted convId epoch seed => some (convId, epoch, seed)
    | _ => none

variable {os hist : List Output} {s : Client} {senderId q : ℕ} {buf : Buffer} {dec : DecryptedData}

theorem mem_chainStarts {convId epoch : ℕ} {seed : Buffer}
    (h : Output.chainStarted convId epoch seed ∈ os) : (convId, epoch, seed) ∈ chainStarts os :=
  List.mem_filterMap.mpr ⟨_, h, rfl⟩

/-- The dictionaries among outputs that were compared with a fingerprint. -/
def checkedDicts (os : List Output) : List Buffer :=
  os.filterMap fun o => match o with
    | .checked dict => some dict
    | _ => none

theorem checkedDicts_append (os os' : List Output) :
    checkedDicts (os ++ os') = checkedDicts os ++ checkedDicts os' := List.filterMap_append

/-- **Ideal cipher.**  A datagram that decrypts under the key its header names on a chain of the
sender is, byte for byte, what the sender encoded under that key. -/
def DataFrom (C : Crypto) (sent : List Output) (bufs : List Buffer) : Prop :=
  ∀ buf ∈ bufs, ∀ start ∈ chainStarts sent, ∀ idx ∈ buf.readUInt32BE 27,
    buf.readUInt16BE 1 = some start.1 → buf.readUInt16BE 21 = some start.2.1 →
    (Codec.decryptData C buf (chainMessageKey C (chainSteps C idx start.2.2) idx)).isSome →
    ∃ e ∈ encodings sent, e.buf = buf ∧
      e.messageKey = chainMessageKey C (chainSteps C idx start.2.2) idx

/-! ### The invariant -/

/-- What is known about the sender: its record, a bound on its numbers, an ideal cipher for the
datagrams of the run, and a fingerprint that tells dictionaries apart. -/
structure Genuine (C : Crypto) (sent : List Output) (bufs dicts : List Buffer) : Prop where
  lawful : C.Lawful
  encoded : ∀ e ∈ encodings sent, GoodEncoding C sent e
  bounded : ∀ d ∈ sentDarts sent, d.seq < SEQ_MOD / 2
  data : DataFrom C sent bufs
  fingerprint : Set.InjOn (dictFingerprint C)
    {d | d ∈ (encodings sent).map (fun e => e.dict) ++ dicts}

/-- What a receiver holds of a sender. -/
structure ReceiverLog (C : Crypto) (sender : ℕ) (sent : List Output) (bufs : List Buffer)
    (os : List Output) (s : Client) : Prop where
  sorted : (storedLog sender os).Pairwise fun p p' => p.1 < p'.1
  genuine : ∀ p ∈ storedLog sender os, p ∈ sentLog sent
  highest : ∀ p ∈ storedLog sender os, ∃ h, s.highestReceivedSeq.get sender = some h ∧ p.1 ≤ h
  bounded : ∀ h, s.highestReceivedSeq.get sender = some h → h < SEQ_MOD / 2
  chains : ∀ convId epoch st, s.getChain convId epoch sender = some st →
    OnChain C sent convId epoch st
  buffer : ∀ q raw, get₂ s.outOfOrderBuffer sender q = some raw →
    q + 1 < SEQ_MOD ∧ raw.readUIntBE 3 3 = some q ∧ raw ∈ bufs

/-- Every number from `q` on is new. -/
def Beyond (sender : ℕ) (s : Client) (q : ℕ) : Prop :=
  ∀ h, s.highestReceivedSeq.get sender = some h → h < q

variable {C : Crypto} {me : Identity} {sender : ℕ} {sent : List Output} {bufs dicts : List Buffer}

theorem ReceiverLog.init : ReceiverLog C sender sent bufs [] {} := by
  constructor
  · exact List.Pairwise.nil
  · intro p hp
    cases hp
  · intro p hp
    cases hp
  · intro h hh
    cases hh
  · intro convId epoch st hst
    cases hst
  · intro q raw hraw
    cases hraw

/-! ### What does not concern the stream -/

/-- Nothing that the invariant speaks about changes, and nothing is stored for the sender. -/
structure LeavesStream (sender : ℕ) (s : Client) (os : List Output) (t : Client) : Prop where
  highest : t.highestReceivedSeq.get sender = s.highestReceivedSeq.get sender
  chains : ∀ convId epoch, t.getChain convId epoch sender = s.getChain convId epoch sender
  buffer : ∀ q, get₂ t.outOfOrderBuffer sender q = get₂ s.outOfOrderBuffer sender q
  stored : storedLog sender os = []

theorem LeavesStream.of_fields {t : Client}
    (h₁ : t.highestReceivedSeq = s.highestReceivedSeq) (h₂ : t.senderChains = s.senderChains)
    (h₃ : t.outOfOrderBuffer = s.outOfOrderBuffer) (h₄ : storedLog sender os = []) :
    LeavesStream sender s os t := by
  constructor
  · rw [h₁]
  · intro convId epoch
    rw [Client.getChain, Client.getChain, h₂]
  · intro q
    rw [h₃]
  · exact h₄

theorem leavesStream_background (sender : ℕ) : Background (LeavesStream sender) where
  comp := by
    constructor
    · intro s
      exact LeavesStream.of_fields rfl rfl rfl rfl
    · intro s t u os os' h h'
      constructor
      · exact h'.highest.trans h.highest
      · exact fun convId epoch => (h'.chains convId epoch).trans (h.chains convId epoch)
      · exact fun q => (h'.buffer q).trans (h.buffer q)
      · rw [storedLog_append, h.stored, h'.stored]
        rfl
  bookkeeping := fun s t hcore => LeavesStream.of_fields
    (congrArg (fun c => c.highestReceivedSeq) hcore) (congrArg (fun c => c.senderChains) hcore)
    (congrArg (fun c => c.outOfOrderBuffer) hcore) rfl
  broadcast := fun s buf via => LeavesStream.of_fields rfl rfl rfl rfl

theorem leavesStream_clearReceived (s : Client) (senderId : ℕ) :
    LeavesStream sender s [] (clearReceived senderId s) := by
  rw [clearReceived]
  split
  · exact LeavesStream.of_fields rfl rfl rfl rfl
  · exact LeavesStream.of_fields rfl rfl rfl rfl

theorem leavesStream_setChain (s : Client) (convId epoch : ℕ) (st : ChainState)
    (h : senderId ≠ sender) : LeavesStream sender s [] (s.setChain convId epoch senderId st) := by
  constructor
  · rfl
  · intro c e
    exact Client.getChain_setChain_of_ne s st fun hc => h hc.2.2
  · intro q
    rfl
  · rfl

theorem get₂_set_of_ne {ν : Type} (m : NumMap (NumMap ν)) (i : ℕ) {i' : ℕ} (v : NumMap ν)
    (h : i ≠ i') (j : ℕ) : get₂ (m.set i v) i' j = get₂ m i' j := by
  rw [get₂, get_set_of_ne _ _ h, get₂]

/-- Storing a dart of any sender moves at most that sender's highest number, to the dart. -/
theorem storeReceived_get (dart : DataDart) (s : Client) (id : ℕ) :
    (storeReceived dart s).highestReceivedSeq.get id = s.highestReceivedSeq.get id ∨
      (dart.senderId = id ∧ (storeReceived dart s).highestReceivedSeq.get id = some dart.seq) := by
  have hhigh : (storeReceived dart s).highestReceivedSeq = s.highestReceivedSeq ∨
      (storeReceived dart s).highestReceivedSeq
        = s.highestReceivedSeq.set dart.senderId dart.seq := by
    unfold storeReceived pruneReceived
    simp only
    split
    · exact (ite_eq_or_eq _ _ _).symm
    · exact (ite_eq_or_eq _ _ _).symm
  rcases hhigh with h | h
  · left
    rw [h]
  · rw [h, get_set]
    by_cases hid : dart.senderId = id
    · right
      rw [if_pos hid]
      exact ⟨hid, rfl⟩
    · left
      rw [if_neg hid]

theorem leavesStream_receive (hne : senderId ≠ sender) :
    ReceiveRules C (LeavesStream sender) senderId where
  toBackground := leavesStream_background sender
  clearReceived := fun s => leavesStream_clearReceived s senderId
  buffer := by
    intro s seq buf _
    constructor
    · rfl
    · exact fun _ _ => rfl
    · intro q
      show get₂ (set₂ s.outOfOrderBuffer senderId seq buf) sender q = _
      rw [get₂_set₂, if_neg fun h => hne h.1]
    · rfl
  unbuffer := by
    intro s seq
    rw [unbuffer]
    split
    · exact (leavesStream_background sender).comp.refl s
    · constructor
      · rfl
      · exact fun _ _ => rfl
      · exact fun q => get₂_set_of_ne _ _ _ hne q
      · rfl
  openData := by
    intro s buf dec s' hopen
    obtain ⟨convId, epoch, _, _, _, _, _, _, _, _, rfl⟩ := openData_eq hopen
    exact leavesStream_setChain s convId epoch _ hne
  checked := fun s dict => LeavesStream.of_fields rfl rfl rfl rfl
  store := by
    intro s dart hid _ _
    constructor
    · rcases storeReceived_get dart s sender with h | h
      · exact h
      · exact absurd (hid.symm.trans h.1) hne
    · intro convId epoch
      rw [Client.getChain, (storeReceived_frame dart s).2]
      rfl
    · intro q
      rw [(storeReceived_frame dart s).1]
    · have : dart.senderId ≠ sender := hid ▸ hne
      simp [storedLog, storedDarts, this]

theorem leavesStream_keys (hne : me.senderId ≠ sender) : KeyRules C me (LeavesStream sender) := by
  refine .of_streams (leavesStream_background sender) (fun s t h => ?_)
    (fun _ _ => LeavesStream.of_fields rfl rfl rfl rfl) fun s convId epoch seed => ?_
  · exact LeavesStream.of_fields (congrArg (·.highestReceivedSeq) h) (congrArg (·.senderChains) h)
      (congrArg (·.outOfOrderBuffer) h) rfl
  · have hset := leavesStream_setChain s convId epoch ⟨seed, 0⟩ hne
    exact ⟨hset.highest, hset.chains, hset.buffer, rfl⟩

theorem ReceiverLog.leaves {t : Client}
    (hlog : ReceiverLog C sender sent bufs hist s) (h : LeavesStream sender s os t) :
    ReceiverLog C sender sent bufs (hist ++ os) t := by
  have hstored : storedLog sender (hist ++ os) = storedLog sender hist := by
    rw [storedLog_append, h.stored, List.append_nil]
  constructor
  · rw [hstored]
    exact hlog.sorted
  · rw [hstored]
    exact hlog.genuine
  · rw [hstored, h.highest]
    exact hlog.highest
  · rw [h.highest]
    exact hlog.bounded
  · intro convId epoch st hst
    rw [h.chains] at hst
    exact hlog.chains convId epoch st hst
  · intro q raw hraw
    rw [h.buffer] at hraw
    exact hlog.buffer q raw hraw

theorem Beyond.leaves {t : Client} (h : Beyond sender s q)
    (hleaves : LeavesStream sender s os t) : Beyond sender t q := by
  intro high hhigh
  rw [hleaves.highest] at hhigh
  exact h high hhigh

/-! ### What decrypts is genuine -/

theorem ReceiverLog.setChain
    (hlog : ReceiverLog C sender sent bufs hist s) {convId epoch : ℕ} {st : ChainState}
    (h : senderId = sender → OnChain C sent convId epoch st) :
    ReceiverLog C sender sent bufs hist (s.setChain convId epoch senderId st) := by
  exact ⟨hlog.sorted, hlog.genuine, hlog.highest, hlog.bounded,
    Client.forall_getChain_setChain hlog.chains h, hlog.buffer⟩

/-- The decrypted content of an encoding. -/
structure DecryptsTo (C : Crypto) (e : Encoding) (dec : DecryptedData) : Prop where
  dictFp : dec.dictFp = dictFingerprint C e.dict
  compressed : dec.compressed = C.deflateRaw (utf8 e.dart.payload) e.dict

/-- **What decrypts is an encoding of the sender**, with the number its header shows, and the chain
stays on the sender's chain. -/
theorem openData_genuine (hG : Genuine C sent bufs dicts) {s' : Client}
    (hlog : ReceiverLog C sender sent bufs hist s) (hbuf : buf ∈ bufs)
    (hopen : openData C s buf sender = some (some (dec, s'))) :
    (∃ e ∈ encodings sent, buf.readUIntBE 3 3 = some e.dart.seq ∧ DecryptsTo C e dec) ∧
      ReceiverLog C sender sent bufs hist s' ∧
      s'.highestReceivedSeq = s.highestReceivedSeq := by
  obtain ⟨convId, epoch, idx, chain, hepoch, hidx, hconv, hget, hle, hdec, rfl⟩ := openData_eq hopen
  have hon := hlog.chains convId epoch chain hget
  obtain ⟨seed, hseed, hkey⟩ := hon
  have hmk : (advanceChain C chain idx).1 = chainMessageKey C (chainSteps C idx seed) idx := by
    rw [advanceChain_of_le C hle, hkey, ← chainSteps_add, Nat.add_sub_cancel' hle]
  rw [hmk] at hdec
  obtain ⟨e, he, hbufe, hkeye⟩ := hG.data buf hbuf (convId, epoch, seed) (mem_chainStarts hseed)
    idx hidx hconv hepoch (by rw [hdec]; rfl)
  have hgood := hG.encoded e he
  have hround := Codec.decryptData_of_encode hG.lawful hgood.nonce hgood.buf
  rw [hbufe, hkeye, hdec] at hround
  have hheader := Codec.headerFields_of_encode hG.lawful hgood.nonce hgood.buf
  have hseq : e.dart.seq < SEQ_MOD / 2 := hG.bounded _ hgood.sent
  refine ⟨⟨e, he, ?_, ?_⟩, ?_, rfl⟩
  · rw [← hbufe, hheader.seq, Nat.mod_eq_of_lt]
    unfold SEQ_MOD at *
    omega
  · cases hround
    exact ⟨rfl, rfl⟩
  · exact hlog.setChain fun _ => (hlog.chains convId epoch chain hget).advance hle

/-! ### Storing -/

theorem seqDelta_of_lt {h : ℕ} (hlt : h < q) (hq : q < SEQ_MOD / 2) :
    0 < seqDelta h q ∧ seqDelta h q < SEQ_MOD / 2 := by
  rw [seqDelta_eq (by unfold SEQ_MOD at *; omega) (by unfold SEQ_MOD at *; omega)]
  unfold SEQ_MOD at *
  split <;> omega

theorem storedLog_stored (dart : DataDart) (dict : Buffer) (h : dart.senderId = sender) :
    storedLog sender [.checked dict, .stored dart] = [(dart.seq, dart.payload)] := by
  simp [storedLog, storedDarts, h]

/-- **Storing a genuine dart with a new number.** -/
theorem ReceiverLog.store (hG : Genuine C sent bufs dicts)
    (hlog : ReceiverLog C sender sent bufs hist s) (dart : DataDart) (dict : Buffer)
    (hid : dart.senderId = sender) (hbeyond : Beyond sender s dart.seq)
    (hgenuine : (dart.seq, dart.payload) ∈ sentLog sent) :
    ReceiverLog C sender sent bufs (hist ++ [.checked dict, .stored dart])
      (storeReceived dart s) := by
  have hbound : dart.seq < SEQ_MOD / 2 := by
    obtain ⟨d, hd, heq⟩ := List.mem_map.mp hgenuine
    have hseq : d.seq = dart.seq := congrArg Prod.fst heq
    rw [← hseq]
    exact hG.bounded d hd
  have hhigh : (storeReceived dart s).highestReceivedSeq.get sender = some dart.seq := by
    have hcase : s.highestReceivedSeq.has dart.senderId = false ∨
        (0 < seqDelta (orDefault (s.highestReceivedSeq.get dart.senderId) 0) dart.seq ∧
          seqDelta (orDefault (s.highestReceivedSeq.get dart.senderId) 0) dart.seq
            < SEQ_MOD / 2) := by
      rw [hid, has_eq_false_iff]
      cases hget : s.highestReceivedSeq.get sender with
      | none => exact Or.inl rfl
      | some h =>
        right
        rw [orDefault_zero, Option.getD_some]
        exact seqDelta_of_lt (hbeyond h hget) hbound
    rw [(storeReceived_highest s dart hcase).1, hid, get_set_self]
  -- everything stored before is below the highest number, so below the new one
  have hbelow : ∀ p ∈ storedLog sender hist, p.1 < dart.seq := by
    intro p hp
    obtain ⟨h, hh, hle⟩ := hlog.highest p hp
    exact Nat.lt_of_le_of_lt hle (hbeyond h hh)
  have hstored : storedLog sender (hist ++ [.checked dict, .stored dart])
      = storedLog sender hist ++ [(dart.seq, dart.payload)] := by
    rw [storedLog_append, storedLog_stored dart dict hid]
  constructor
  · rw [hstored, List.pairwise_append]
    refine ⟨hlog.sorted, List.pairwise_singleton _ _, ?_⟩
    intro p hp p' hp'
    rw [List.mem_singleton.mp hp']
    exact hbelow p hp
  · rw [hstored]
    intro p hp
    rcases List.mem_append.mp hp with hp | hp
    · exact hlog.genuine p hp
    · rw [List.mem_singleton.mp hp]
      exact hgenuine
  · rw [hstored]
    intro p hp
    refine ⟨dart.seq, hhigh, ?_⟩
    rcases List.mem_append.mp hp with hp | hp
    · exact Nat.le_of_lt (hbelow p hp)
    · rw [List.mem_singleton.mp hp]
  · intro h hh
    rw [hhigh] at hh
    cases hh
    exact hbound
  · intro convId epoch st hst
    rw [Client.getChain, (storeReceived_frame dart s).2] at hst
    exact hlog.chains convId epoch st hst
  · intro q raw hraw
    rw [(storeReceived_frame dart s).1] at hraw
    exact hlog.buffer q raw hraw

/-- What processing a packet can do: leave the stream, or store a dart whose dictionary has the
packet's fingerprint and whose payload inflates against it. -/
theorem processDataPacket_cases (dec : DecryptedData) (sender q : ℕ)
    (s : Client) :
    LeavesStream sender s (processDataPacket C me dec sender q s).output
        (processDataPacket C me dec sender q s).state ∨
      ∃ dict payload, dec.dictFp = dictFingerprint C dict ∧
        Codec.inflateData C dec.compressed dict = some payload ∧
        (processDataPacket C me dec sender q s).output
          = [.checked dict, .stored ⟨TYPE_DATA, dec.convId, sender, q, payload⟩] ∧
        (processDataPacket C me dec sender q s).state
          = storeReceived ⟨TYPE_DATA, dec.convId, sender, q, payload⟩ s := by
  have hB := leavesStream_background sender
  have hchecked : ∀ dict, LeavesStream sender s [.checked dict] s :=
    fun dict => LeavesStream.of_fields rfl rfl rfl rfl
  rw [processDataPacket, get_bind, emit_bind]
  by_cases hfp : dec.dictFp ≠ dictFingerprint C (getDictionary me s sender q)
  · left
    rw [if_pos hfp, modify_bind]
    apply hB.comp.trans (hchecked _)
    exact hB.comp.trans (leavesStream_clearReceived s sender)
      (sendDictReset_obeys hB dec.convId sender _)
  · rw [if_neg hfp]
    cases hinf : Codec.inflateData C dec.compressed (getDictionary me s sender q) with
    | none => exact Or.inl (hB.comp.trans (hchecked _) (hB.comp.refl s))
    | some payload =>
      simp only
      split
      · exact Or.inl (hB.comp.trans (hchecked _) (hB.comp.refl s))
      · exact Or.inr ⟨_, payload, not_not.mp hfp, hinf, rfl, rfl⟩

/-- A packet that the sender encoded is processed with the sender's dictionary or not at all. -/
theorem processDataPacket_receiverLog (hG : Genuine C sent bufs dicts)
    (hlog : ReceiverLog C sender sent bufs hist s) {e : Encoding}
    (he : e ∈ encodings sent) (hdec : DecryptsTo C e dec)
    (hbeyond : Beyond sender s e.dart.seq)
    (hdicts : checkedDicts (processDataPacket C me dec sender e.dart.seq s).output ⊆ dicts) :
    ReceiverLog C sender sent bufs
        (hist ++ (processDataPacket C me dec sender e.dart.seq s).output)
        (processDataPacket C me dec sender e.dart.seq s).state ∧
      Beyond sender (processDataPacket C me dec sender e.dart.seq s).state (e.dart.seq + 1) := by
  rcases processDataPacket_cases dec sender e.dart.seq s with hleaves | hstore
  · refine ⟨hlog.leaves hleaves, ?_⟩
    intro h hh
    have := hbeyond.leaves hleaves h hh
    omega
  · obtain ⟨dict, payload, hfp, hinf, hout, hstate⟩ := hstore
    rw [hout] at hdicts
    -- equal fingerprints are fingerprints of equal dictionaries, so the payload is the one sent
    have hsame : e.dict = dict := by
      apply hG.fingerprint
      · exact List.mem_append_left _ (List.mem_map.mpr ⟨e, he, rfl⟩)
      · exact List.mem_append_right _ (hdicts List.mem_cons_self)
      · rw [← hfp, hdec.dictFp]
    have hpayload : payload = e.dart.payload := by
      rw [hdec.compressed, hsame, Codec.inflateData_deflate hG.lawful] at hinf
      exact (Option.some.inj hinf).symm
    subst hpayload
    rw [hout, hstate]
    constructor
    · apply hlog.store hG ⟨_, _, _, e.dart.seq, e.dart.payload⟩ dict rfl hbeyond
      exact List.mem_map.mpr ⟨e.dart, (hG.encoded e he).sent, rfl⟩
    · intro h hh
      rcases storeReceived_get ⟨TYPE_DATA, dec.convId, sender, e.dart.seq, e.dart.payload⟩ s sender
        with hsame | ⟨_, hnew⟩
      · rw [hsame] at hh
        have := hbeyond h hh
        omega
      · rw [hnew] at hh
        cases hh
        exact Nat.lt_succ_self _

/-! ### Draining and routing -/

theorem processBuffered_receiverLog (hG : Genuine C sent bufs dicts)
    (hlog : ReceiverLog C sender sent bufs hist s) {raw : Buffer}
    (hraw : raw ∈ bufs) (hread : raw.readUIntBE 3 3 = some q) (hbeyond : Beyond sender s q)
    (hdicts : checkedDicts (processBuffered C me raw sender q s).output ⊆ dicts) :
    ReceiverLog C sender sent bufs (hist ++ (processBuffered C me raw sender q s).output)
        (processBuffered C me raw sender q s).state ∧
      Beyond sender (processBuffered C me raw sender q s).state (q + 1) := by
  have hstay : ReceiverLog C sender sent bufs (hist ++ []) s ∧ Beyond sender s (q + 1) := by
    rw [List.append_nil]
    exact ⟨hlog, fun h hh => Nat.lt_succ_of_lt (hbeyond h hh)⟩
  rw [processBuffered, decryptDataInOrder_bind] at hdicts ⊢
  rcases hopen : openData C s raw sender with _ | _ | ⟨dec, s'⟩
  · exact hstay
  · exact hstay
  · obtain ⟨⟨e, he, hseq, hdec⟩, hlog', hhigh⟩ := openData_genuine hG hlog hraw hopen
    have hq : q = e.dart.seq := Option.some.inj (hread.symm.trans hseq)
    have hbeyond' : Beyond sender s' q := by
      intro h hh
      rw [hhigh] at hh
      exact hbeyond h hh
    rw [hopen] at hdicts
    simp only at hdicts ⊢
    by_cases hid : dec.senderId = sender
    · rw [if_pos hid] at hdicts ⊢
      subst hq
      exact processDataPacket_receiverLog hG hlog' he hdec hbeyond' hdicts
    · rw [if_neg hid]
      show ReceiverLog C sender sent bufs (hist ++ []) s' ∧ Beyond sender s' (q + 1)
      rw [List.append_nil]
      exact ⟨hlog', fun h hh => Nat.lt_succ_of_lt (hbeyond' h hh)⟩

theorem ReceiverLog.unbuffer (hlog : ReceiverLog C sender sent bufs hist s) (q : ℕ) :
    ReceiverLog C sender sent bufs hist (DartProtocol.unbuffer sender q s) ∧
      (DartProtocol.unbuffer sender q s).highestReceivedSeq = s.highestReceivedSeq := by
  have hget := get₂_unbuffer s sender q
  obtain ⟨b, hb⟩ := unbuffer_frame s sender q
  rw [hb] at hget ⊢
  refine ⟨⟨hlog.sorted, hlog.genuine, hlog.highest, hlog.bounded, hlog.chains, ?_⟩, rfl⟩
  intro q' raw hraw
  rw [hget] at hraw
  split at hraw
  · cases hraw
  · exact hlog.buffer q' raw hraw

/-- **The draining loop only moves up.**  Induction on the turns; the number each turn looks at is
beyond everything stored, whether or not the packets before it were accepted. -/
theorem drainBuffer_receiverLog (hG : Genuine C sent bufs dicts) (turns : ℕ) :
    ∀ {hist : List Output} {s : Client} {q : ℕ}, ReceiverLog C sender sent bufs hist s →
      Beyond sender s q → checkedDicts (drainBuffer C me sender turns q s).output ⊆ dicts →
      ReceiverLog C sender sent bufs (hist ++ (drainBuffer C me sender turns q s).output)
        (drainBuffer C me sender turns q s).state := by
  induction turns with
  | zero =>
    intro hist s q hlog _ _
    show ReceiverLog C sender sent bufs (hist ++ []) s
    rw [List.append_nil]
    exact hlog
  | succ turns ih =>
    intro hist s q hlog hbeyond hdicts
    cases hget : get₂ s.outOfOrderBuffer sender q with
    | none =>
      rw [drainBuffer_of_none C me hget]
      show ReceiverLog C sender sent bufs (hist ++ []) s
      rw [List.append_nil]
      exact hlog
    | some raw =>
      rw [drainBuffer_of_some C me hget] at hdicts ⊢
      obtain ⟨hlt, hread, hmem⟩ := hlog.buffer q raw hget
      obtain ⟨hlog₁, hhigh⟩ := hlog.unbuffer q
      have hbeyond₁ : Beyond sender (DartProtocol.unbuffer sender q s) q := by
        rw [Beyond, hhigh]
        exact hbeyond
      rw [prepend_output, checkedDicts_append, List.append_subset] at hdicts
      obtain ⟨hlog₂, hbeyond₂⟩ := processBuffered_receiverLog hG hlog₁ hmem hread hbeyond₁ hdicts.1
      rw [prepend_output, prepend_state, ← List.append_assoc]
      have hnext : seqNext q = q + 1 := Nat.mod_eq_of_lt hlt
      exact ih hlog₂ (hnext ▸ hbeyond₂) hdicts.2

theorem processBufferedPackets_receiverLog (hG : Genuine C sent bufs dicts)
    (hlog : ReceiverLog C sender sent bufs hist s)
    (hdicts : checkedDicts (processBufferedPackets C me sender s).output ⊆ dicts) :
    ReceiverLog C sender sent bufs (hist ++ (processBufferedPackets C me sender s).output)
      (processBufferedPackets C me sender s).state := by
  rw [processBufferedPackets, get_bind] at hdicts ⊢
  cases hget : s.outOfOrderBuffer.get sender with
  | none =>
    show ReceiverLog C sender sent bufs (hist ++ []) s
    rw [List.append_nil]
    exact hlog
  | some bufferMap =>
    rw [hget] at hdicts
    apply drainBuffer_receiverLog hG bufferMap.size hlog ?_ hdicts
    intro h hh
    have hbound := hlog.bounded h hh
    rw [hh, orDefault_zero, Option.getD_some, seqNext, Nat.mod_eq_of_lt]
    · exact Nat.lt_succ_self h
    · unfold SEQ_MOD at *
      omega

theorem acceptNext_receiverLog (hG : Genuine C sent bufs dicts)
    (hlog : ReceiverLog C sender sent bufs hist s) (hbuf : buf ∈ bufs)
    (hread : buf.readUIntBE 3 3 = some q) (hbeyond : Beyond sender s q)
    (hdicts : checkedDicts (acceptNext C me buf sender q s).output ⊆ dicts) :
    ReceiverLog C sender sent bufs (hist ++ (acceptNext C me buf sender q s).output)
      (acceptNext C me buf sender q s).state := by
  have hstay : ReceiverLog C sender sent bufs (hist ++ []) s := by
    rw [List.append_nil]
    exact hlog
  rw [acceptNext, decryptDataInOrder_bind] at hdicts ⊢
  rcases hopen : openData C s buf sender with _ | _ | ⟨dec, s'⟩
  · exact hstay
  · exact hstay
  · obtain ⟨⟨e, he, hseq, hdec⟩, hlog', hhigh⟩ := openData_genuine hG hlog hbuf hopen
    have hq : q = e.dart.seq := Option.some.inj (hread.symm.trans hseq)
    have hbeyond' : Beyond sender s' q := by
      intro h hh
      rw [hhigh] at hh
      exact hbeyond h hh
    rw [hopen] at hdicts
    simp only at hdicts ⊢
    subst hq
    -- an exception while asking for a reset ends the handler before the buffer is drained
    cases hres : (processDataPacket C me dec sender e.dart.seq s').result with
    | none =>
      rw [bind_of_none hres] at hdicts ⊢
      exact (processDataPacket_receiverLog hG hlog' he hdec hbeyond' hdicts).1
    | some u =>
      rw [bind_of_some hres] at hdicts ⊢
      rw [prepend_output, checkedDicts_append, List.append_subset] at hdicts
      rw [prepend_output, prepend_state, ← List.append_assoc]
      have hmid := (processDataPacket_receiverLog hG hlog' he hdec hbeyond' hdicts.1).1
      exact processBufferedPackets_receiverLog hG hmid hdicts.2

theorem ReceiverLog.buffer_lt (hlog : ReceiverLog C sender sent bufs hist s) (hq : q < SEQ_MOD)
    (hgap : 1 < dataAhead s sender q) (hahead : dataAhead s sender q < SEQ_MOD / 2) :
    q + 1 < SEQ_MOD := by
  rw [dataAhead] at hgap hahead
  split at hahead
  · rename_i hhas
    obtain ⟨h, hh⟩ := has_iff.mp hhas
    have hbound := hlog.bounded h hh
    have hh' : h < SEQ_MOD := by
      unfold SEQ_MOD at *
      omega
    rw [hh, orDefault_zero, Option.getD_some, seqDelta_eq hh' hq] at hahead
    unfold SEQ_MOD at *
    split at hahead <;> omega
  · split at hahead
    · rename_i hwindow
      unfold SEQ_MOD DICT_WINDOW at *
      omega
    · rename_i hno hwindow
      rw [if_neg hno, if_neg hwindow] at hgap
      omega

theorem ReceiverLog.beyond_of_next (hlog : ReceiverLog C sender sent bufs hist s) (hq : q < SEQ_MOD)
    (hnext : dataAhead s sender q = 1) : Beyond sender s q := by
  intro h hh
  have hbound := hlog.bounded h hh
  have hh' : h < SEQ_MOD := by
    unfold SEQ_MOD at *
    omega
  rw [dataAhead, if_pos (has_iff.mpr ⟨h, hh⟩), hh, orDefault_zero, Option.getD_some,
    seqDelta_eq hh' hq] at hnext
  unfold SEQ_MOD at *
  split at hnext <;> omega

theorem routeData_receiverLog (hG : Genuine C sent bufs dicts)
    (hlog : ReceiverLog C sender sent bufs hist s) (hbuf : buf ∈ bufs)
    (hread : buf.readUIntBE 3 3 = some q) (hq : q < SEQ_MOD) (convId : ℕ)
    (hdicts : checkedDicts (routeData C me buf convId sender q s).output ⊆ dicts) :
    ReceiverLog C sender sent bufs (hist ++ (routeData C me buf convId sender q s).output)
      (routeData C me buf convId sender q s).state := by
  rw [routeData, get_bind] at hdicts ⊢
  by_cases hstale : dataAhead s sender q = 0 ∨ SEQ_MOD / 2 ≤ dataAhead s sender q
  · rw [if_pos hstale]
    show ReceiverLog C sender sent bufs (hist ++ []) s
    rw [List.append_nil]
    exact hlog
  rw [if_neg hstale] at hdicts ⊢
  by_cases hgap : 1 < dataAhead s sender q
  · rw [if_pos hgap]
    rw [bufferAhead, modify_bind, get_bind]
    have hheld : ReceiverLog C sender sent bufs hist
        { s with outOfOrderBuffer := set₂ s.outOfOrderBuffer sender q buf } := by
      refine ⟨hlog.sorted, hlog.genuine, hlog.highest, hlog.bounded, hlog.chains, ?_⟩
      intro q' raw hraw
      rw [get₂_set₂] at hraw
      split at hraw
      · rename_i hc
        cases hraw
        rw [← hc.2]
        exact ⟨hlog.buffer_lt hq hgap (by omega), hread, hbuf⟩
      · exact hlog.buffer q' raw hraw
    exact hheld.leaves (nackMissing_obeys (leavesStream_background sender) _ _ _ _)
  · rw [if_neg hgap] at hdicts ⊢
    apply acceptNext_receiverLog hG hlog hbuf hread ?_ hdicts
    exact hlog.beyond_of_next hq (by omega)

/-! ### Whole runs -/

/-- The invariant survives, as long as the dictionaries on the way are among those told apart. -/
def KeepsReceived (C : Crypto) (sender : ℕ) (sent : List Output) (bufs dicts : List Buffer) :
    Client → List Output → Client → Prop :=
  fun s os t => checkedDicts os ⊆ dicts → ∀ hist, ReceiverLog C sender sent bufs hist s →
    ReceiverLog C sender sent bufs (hist ++ os) t

theorem keepsReceived_of_leaves {t : Client}
    (h : LeavesStream sender s os t) : KeepsReceived C sender sent bufs dicts s os t :=
  fun _ _ hlog => hlog.leaves h

theorem keepsReceived_background : Background (KeepsReceived C sender sent bufs dicts) where
  comp := by
    constructor
    · intro s
      exact keepsReceived_of_leaves ((leavesStream_background sender).comp.refl s)
    · intro s t u os os' h h' hdicts hist hlog
      rw [checkedDicts_append, List.append_subset] at hdicts
      rw [← List.append_assoc]
      exact h' hdicts.2 _ (h hdicts.1 hist hlog)
  bookkeeping := fun s t hcore =>
    keepsReceived_of_leaves ((leavesStream_background sender).bookkeeping s t hcore)
  broadcast := fun s buf via =>
    keepsReceived_of_leaves ((leavesStream_background sender).broadcast s buf via)

theorem step_receiverLog (hG : Genuine C sent bufs dicts) (hne : me.senderId ≠ sender)
    (hgood : ∀ share, Output.chainShared share ∈ sent → GoodShare C sent share) {es : List Event}
    {e : Event} (hbufs : ∀ buf ∈ e.datagram, buf ∈ bufs)
    (hshares : SharesFrom C me sender (fun _ => sent) (es ++ [e])) :
    ObeysAt (KeepsReceived C sender sent bufs dicts) (step C me e) (stateAfter C me es) := by
  have hL := leavesStream_background sender
  have hB : Background (KeepsReceived C sender sent bufs dicts) := keepsReceived_background
  have hK : KeyRules C me (KeepsReceived C sender sent bufs dicts) :=
    (leavesStream_keys hne).mono hB fun _ _ _ => keepsReceived_of_leaves
  apply step_obeysAt hK.toAdoptRules
  · intro s
    exact keepsReceived_of_leaves (LeavesStream.of_fields rfl rfl rfl rfl)
  · intro convId payload _
    apply sendData_obeysAt hB
    · exact fun _ => keepsReceived_of_leaves (LeavesStream.of_fields rfl rfl rfl rfl)
    · intro chain _ os t hrest
      have hset := leavesStream_setChain (stateAfter C me es) convId
        ((stateAfter C me es).sendingEpoch convId) (advanceChain C chain chain.index).2 hne
      have henter : LeavesStream sender (stateAfter C me es)
          [.sent (sentDart me convId payload (stateAfter C me es))]
          (enterSent C me convId payload chain (stateAfter C me es)) :=
        ⟨hset.highest, hset.chains, hset.buffer, rfl⟩
      exact hB.comp.trans (keepsReceived_of_leaves henter) hrest
    · intro chain _ t i buf _
      exact keepsReceived_of_leaves (LeavesStream.of_fields rfl rfl rfl rfl)
  · intro buf he
    subst he
    apply handleMessage_obeysAt hB
    intro type _
    apply handlerOf_obeysAt hK
    · apply handleSync_obeys hB
      intro s senderId
      rw [ensureReceived]
      split
      · exact keepsReceived_of_leaves (hL.comp.refl s)
      · exact keepsReceived_of_leaves (LeavesStream.of_fields rfl rfl rfl rfl)
    · intro _
      apply handleData_obeysAt hB
      intro convId senderId q hread hq
      by_cases hid : senderId = sender
      · subst hid
        intro hdicts hist hlog
        exact routeData_receiverLog hG hlog (hbufs buf rfl) hread hq convId hdicts
      · exact keepsReceived_of_leaves (routeData_obeys (leavesStream_receive hid) buf convId hq _)
    · intro _
      apply handleChainShare_obeysAt hB
      intro convId key decoded hopen hdec _ hist hlog
      rw [List.append_nil]
      apply hlog.setChain
      intro hid
      obtain ⟨share, hmem, hc, hep, hk, hi⟩ := hshares.last hopen hdec hid
      have hon : OnChain C sent share.convId share.epoch ⟨share.chainKey, share.chainIndex⟩ :=
        hgood share hmem
      rw [hc, hep, hk, hi] at hon
      exact hon
    · intro _
      apply handleNack_obeys hB
      · exact fun seq s => retransmit_obeysAt hB fun _ _ _ _ t _ _ _ =>
          keepsReceived_of_leaves (LeavesStream.of_fields rfl rfl rfl rfl)
      · exact fun _ _ s => reshareSeed_obeysAt hB fun t _ _ _ _ _ =>
          keepsReceived_of_leaves (LeavesStream.of_fields rfl rfl rfl rfl)
    · intro _
      apply handleDictReset_obeys hB
      intro s targetId
      rw [applyDictReset]
      split
      · exact keepsReceived_of_leaves (LeavesStream.of_fields rfl rfl rfl rfl)
      · exact keepsReceived_of_leaves (leavesStream_clearReceived s targetId)
  · intro i _
    have h : Obeys (KeepsReceived C sender sent bufs dicts) (step C me (.shareTimer i)) :=
      fire_obeys hB
        (fun s => keepsReceived_of_leaves (LeavesStream.of_fields rfl rfl rfl rfl))
        fun retry => runShareRetry_obeys hB retry fun _ _ _ _ _ t _ _ _ _ _ _ =>
          keepsReceived_of_leaves (LeavesStream.of_fields rfl rfl rfl rfl)
    exact h _

/-- **The invariant over every run.** -/
theorem receiverLog_run (hG : Genuine C sent bufs dicts) (hne : me.senderId ≠ sender)
    (hgood : ∀ share, Output.chainShared share ∈ sent → GoodShare C sent share) (es : List Event)
    (hbufs : es.filterMap Event.datagram ⊆ bufs)
    (hdicts : checkedDicts (outputsOf C me es) ⊆ dicts)
    (hshares : SharesFrom C me sender (fun _ => sent) es) :
    ReceiverLog C sender sent bufs (outputsOf C me es) (stateAfter C me es) := by
  induction es using List.reverseRecOn with
  | nil => exact ReceiverLog.init
  | append_singleton es e ih =>
    rw [List.filterMap_append, List.append_subset] at hbufs
    rw [outputsOf_concat, checkedDicts_append, List.append_subset] at hdicts
    have hlog := ih hbufs.1 hdicts.1 hshares.init
    rw [outputsOf_concat, stateAfter_concat]
    refine step_receiverLog hG hne hgood ?_ hshares hdicts.2 _ hlog
    intro buf hbuf
    apply hbufs.2
    exact List.mem_filterMap.mpr ⟨e, List.mem_singleton.mpr rfl, hbuf⟩

/-- A strictly sorted list all of whose elements occur in another one is a subsequence of it. -/
theorem sublist_of_sorted {α : Type} {l l' : List (ℕ × α)} (h : l.Pairwise fun p q => p.1 < q.1)
    (h' : l'.Pairwise fun p q => p.1 < q.1) (hsub : l ⊆ l') : List.Sublist l l' := by
  have hnodup : l.Nodup := h.imp fun hlt heq => by
    rw [heq] at hlt
    exact Nat.lt_irrefl _ hlt
  have hanti : Std.Antisymm fun p q : ℕ × α => p.1 < q.1 :=
    ⟨fun p q hpq hqp => absurd hpq (Nat.lt_asymm hqp)⟩
  exact List.sublist_of_subperm_of_pairwise (List.subperm_of_subset hnodup hsub) h h'

/-- **Integrity of a received stream.**  Over every run `es` of a receiver, with any datagrams, and
every run `fs` of a sender with fewer than `2 ^ 23` sends: the log the receiver stores for the
sender is a subsequence of the sent log, and the sent log is strictly increasing. -/
theorem stored_sublist_sent {C : Crypto} (hC : C.Lawful) {S R : Identity} (hS : S.Lawful)
    (hne : R.senderId ≠ S.senderId) {fs es : List Event} (hcount : sendCount fs < SEQ_MOD / 2)
    (hown : SharesFrom C S S.senderId (outputsOf C S) fs)
    (hshares : SharesFrom C R S.senderId (fun _ => outputsOf C S fs) es)
    (hdata : DataFrom C (outputsOf C S fs) (es.filterMap Event.datagram))
    (hinj : Set.InjOn (dictFingerprint C)
      {d | d ∈ (encodings (outputsOf C S fs)).map (fun e => e.dict) ++
        checkedDicts (outputsOf C R es)}) :
    List.Sublist (storedLog S.senderId (outputsOf C R es)) (sentLog (outputsOf C S fs)) ∧
      (sentLog (outputsOf C S fs)).Pairwise fun p q => p.1 < q.1 := by
  have hroom : sendCount fs + 2 < SEQ_MOD := by
    unfold SEQ_MOD at *
    omega
  have hsender := senderLog_run hS fs hroom hown
  have hnext : (stateAfter C S fs).nextSeq = sendCount fs + 1 := by
    rw [nextSeq_stateAfter, Nat.mod_eq_of_lt (by omega)]
  have hG : Genuine C (outputsOf C S fs) (es.filterMap Event.datagram)
      (checkedDicts (outputsOf C R es)) := by
    refine ⟨hC, fun e he => hsender.encoded e (mem_encodings.mp he), ?_, hdata, hinj⟩
    intro d hd
    have := hsender.below d hd
    omega
  have hreceiver := receiverLog_run hG hne hsender.shared es (fun _ h => h) (fun _ h => h) hshares
  have hsorted : (sentLog (outputsOf C S fs)).Pairwise fun p q => p.1 < q.1 :=
    List.pairwise_map.mpr hsender.sorted
  exact ⟨sublist_of_sorted hreceiver.sorted hsorted hreceiver.genuine, hsorted⟩

/-! ### A run and a forged run -/

/-- The sender founds the group and sends twice. -/
def integritySends : List Event :=
  [.message (sumMemberInfo 5 1 true [1, 2]), .sendData 5 "a", .sendData 5 "b"]

/-- The receiver gets the roster and everything the sender emits, then all of it again backwards. -/
def integrityArrivals : List Event :=
  let frames := sumMemberInfo 5 2 false [1, 2] ::
    framesOf (outputsOf sumCrypto (sumIdentity 1) integritySends)
  (frames ++ frames.reverse).map Event.message

theorem stored_sublist_sent_run :
    storedLog 1 (outputsOf sumCrypto (sumIdentity 2) integrityArrivals) = [(1, "a"), (2, "b")] ∧
      List.Sublist (storedLog 1 (outputsOf sumCrypto (sumIdentity 2) integrityArrivals))
        (sentLog (outputsOf sumCrypto (sumIdentity 1) integritySends)) := by
  refine ⟨by decide +kernel, ?_⟩
  refine (stored_sublist_sent sumCrypto_lawful (sumIdentity_lawful 1) (R := sumIdentity 2)
    (by decide) (by decide) ?_ ?_ ?_ ?_).1
  · unfold SharesFrom
    decide +kernel
  · unfold SharesFrom
    decide +kernel
  · unfold DataFrom
    decide +kernel
  · have hlist : ∀ d ∈ (encodings (outputsOf sumCrypto (sumIdentity 1) integritySends)).map
          (fun e => e.dict) ++ checkedDicts (outputsOf sumCrypto (sumIdentity 2) integrityArrivals),
        ∀ d' ∈ (encodings (outputsOf sumCrypto (sumIdentity 1) integritySends)).map
          (fun e => e.dict) ++ checkedDicts (outputsOf sumCrypto (sumIdentity 2) integrityArrivals),
        dictFingerprint sumCrypto d = dictFingerprint sumCrypto d' → d = d' := by
      decide +kernel
    exact fun d hd d' hd' heq => hlist d hd d' hd' heq

/-- Somebody who is no member, with private key `7`, sends the receiver, which has no server
fingerprint pinned, a roster with its own public key as that of member `1`, then a chain share and a
dart in the name of member `1`. -/
def forgedArrivals : List Event :=
  let roster := sumServerInfo 7 5 2 false [⟨1, Buffer.bytesBE 65 7⟩]
  let share : ChainShareDart :=
    { type := TYPE_CHAIN_SHARE, convId := 5, senderId := 1, targetId := 2, epoch := 1,
      nonce := Buffer.alloc 12, chainKey := Buffer.alloc 32, chainIndex := 0 }
  let dart : DataDart :=
    { type := TYPE_DATA, convId := 5, senderId := 1, seq := 1, payload := "forged" }
  [.message roster,
    .message ((Codec.encodeChainShare sumCrypto share (sumPairwise 7 2)).getD []),
    .message ((Codec.encodeDataHelper sumCrypto dart [] (chainMessageKey sumCrypto share.chainKey 0)
      0 1 (Buffer.alloc 12)).getD [])]

/-- **An unpinned receiver can be made to store what was never sent**, although the cipher is ideal
for the data of the sender and the fingerprint tells all dictionaries apart. -/
theorem forged_without_pin :
    sendCount integritySends < SEQ_MOD / 2 ∧
      DataFrom sumCrypto (outputsOf sumCrypto (sumIdentity 1) integritySends)
        (forgedArrivals.filterMap Event.datagram) ∧
      (∀ d ∈ (encodings (outputsOf sumCrypto (sumIdentity 1) integritySends)).map
          (fun e => e.dict) ++ checkedDicts (outputsOf sumCrypto (sumIdentity 2) forgedArrivals),
        ∀ d' ∈ (encodings (outputsOf sumCrypto (sumIdentity 1) integritySends)).map
          (fun e => e.dict) ++ checkedDicts (outputsOf sumCrypto (sumIdentity 2) forgedArrivals),
        dictFingerprint sumCrypto d = dictFingerprint sumCrypto d' → d = d') ∧
      sentLog (outputsOf sumCrypto (sumIdentity 1) integritySends) = [(1, "a"), (2, "b")] ∧
      storedLog 1 (outputsOf sumCrypto (sumIdentity 2) forgedArrivals) = [(1, "forged")] ∧
      ¬ List.Sublist (storedLog 1 (outputsOf sumCrypto (sumIdentity 2) forgedArrivals))
        (sentLog (outputsOf sumCrypto (sumIdentity 1) integritySends)) := by
  have hstored : storedLog 1 (outputsOf sumCrypto (sumIdentity 2) forgedArrivals)
      = [(1, "forged")] := by decide +kernel
  have hsent : sentLog (outputsOf sumCrypto (sumIdentity 1) integritySends)
      = [(1, "a"), (2, "b")] := by decide +kernel
  refine ⟨by decide, ?_, by decide +kernel, hsent, hstored, ?_⟩
  · unfold DataFrom
    decide +kernel
  · rw [hstored, hsent]
    decide

end DartProtocol
