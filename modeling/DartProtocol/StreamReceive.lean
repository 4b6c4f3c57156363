import DartProtocol.Reassembly
import DartProtocol.StreamSend

/-!
# The receiving end of a stream

A receiver that is in step with a sender hands its darts on in order, whatever the order and the
number of their arrivals.  The abstract receiver is `Reassembly`; `InSync` relates its state to the
client's: the highest number is the one before the next dart, the history agrees with the sender's
on the window, the buffer holds exactly the encodings of the held darts, and for every dart still to
come the client has a state of the sender's chain from which the dart's key can be reached.

* `deliver_next` — the next dart decrypts, matches the dictionary, inflates and is stored;
* `drainBuffer_sync` — the draining loop follows `Reassembly.release`;
* `processBufferedPackets_sync` — its bound on the turns is no bound.
-/

namespace DartProtocol

open Prog InsertionMap

/-! ### Numbers around the next one -/

/-- The number of the `j`-th dart from `a` on. -/
def seqAt (a j : ℕ) : ℕ := SerialNumber.position SEQ_MOD a j

theorem seqAt_lt (a j : ℕ) : seqAt a j < SEQ_MOD := SerialNumber.position_lt (by decide) a j

theorem seqAt_zero {a : ℕ} (ha : a < SEQ_MOD) : seqAt a 0 = a := Nat.mod_eq_of_lt ha

theorem seqNext_seqAt (a j : ℕ) : seqNext (seqAt a j) = seqAt a (j + 1) :=
  SerialNumber.position_add_one a j

theorem seqAt_seqNext (a j : ℕ) : seqAt (seqNext a) j = seqAt a (j + 1) := by
  unfold seqAt SerialNumber.position seqNext
  rw [Nat.mod_add_mod, Nat.add_right_comm, Nat.add_assoc]

variable {q k : ℕ} {r : Client} {st : Reassembly} {l : Link} {m : NumMap DataDart} {held : Finset ℕ}

theorem seqNext_seqBack (hq : q < SEQ_MOD) : seqNext (seqBack q 1) = q := by
  unfold seqNext seqBack
  unfold SEQ_MOD at *
  omega

theorem seqBack_seqNext (hq : q < SEQ_MOD) : seqBack (seqNext q) 1 = q := by
  unfold seqNext seqBack
  unfold SEQ_MOD at *
  omega

/-- The number before the `k`-th and the `i`-th number, counted from the number before the first. -/
theorem seqAt_from_back (a k i : ℕ) :
    seqBack (seqAt a k) 1 = SerialNumber.position SEQ_MOD (a + (SEQ_MOD - 1)) k ∧
      seqAt a i = SerialNumber.position SEQ_MOD (a + (SEQ_MOD - 1)) (i + 1) := by
  unfold seqBack seqAt SerialNumber.position
  rw [Nat.mod_add_mod, Nat.add_right_comm,
    show a + (SEQ_MOD - 1) + (i + 1) = a + i + SEQ_MOD by unfold SEQ_MOD; omega, Nat.add_mod_right]
  exact ⟨rfl, rfl⟩

/-- How far the `i`-th dart is ahead of the number before the `k`-th, when it is not older. -/
theorem ahead_of_le {a i : ℕ} (hki : k ≤ i) (hlt : i + 1 - k < SEQ_MOD) :
    seqDelta (seqBack (seqAt a k) 1) (seqAt a i) = i + 1 - k := by
  obtain ⟨hk, hi⟩ := seqAt_from_back a k i
  rw [hk, hi]
  exact SerialNumber.delta_position_of_le (by omega) hlt

/-- An older dart is a duplicate, or more than half the circle ahead. -/
theorem stale_of_lt {a i : ℕ} (hik : i < k) (hlt : k < SEQ_MOD / 2) :
    seqDelta (seqBack (seqAt a k) 1) (seqAt a i) = 0 ∨
      SEQ_MOD / 2 ≤ seqDelta (seqBack (seqAt a k) 1) (seqAt a i) := by
  obtain ⟨hk, hi⟩ := seqAt_from_back a k i
  rcases Nat.lt_or_ge (i + 1) k with h | h
  · right
    have hd : seqDelta (seqBack (seqAt a k) 1) (seqAt a i) = SEQ_MOD - (k - (i + 1)) := by
      rw [hk, hi]
      exact SerialNumber.delta_position_of_lt h (by unfold SEQ_MOD at *; omega)
    rw [hd]
    unfold SEQ_MOD at *
    omega
  · left
    have hki : k = i + 1 := by omega
    rw [hk, hi, hki]
    exact SerialNumber.delta_self _

theorem seqAt_inj {a i j : ℕ} (hi : i < SEQ_MOD / 2) (hj : j < SEQ_MOD / 2)
    (h : seqAt a i = seqAt a j) : i = j :=
  SerialNumber.position_inj (by unfold SEQ_MOD at *; omega) (by unfold SEQ_MOD at *; omega) h

/-! ### Parts of a stream -/

section StreamParts

variable {C : Crypto} {senderId convId : ℕ}

theorem Stream.drop {ls : List Link} (k : ℕ) :
    ∀ {m : NumMap DataDart} {q : ℕ}, q < SEQ_MOD → Stream C senderId convId m q ls →
      ∃ m', Stream C senderId convId m' (seqAt q k) (ls.drop k) := by
  induction k generalizing ls with
  | zero =>
    intro m q hq h
    rw [seqAt_zero hq]
    exact ⟨m, h⟩
  | succ k ih =>
    intro m q hq h
    cases h with
    | nil => exact ⟨m, Stream.nil _ _⟩
    | cons henc hchain hrest =>
      obtain ⟨m', hm'⟩ := ih (seqNext_lt q) hrest
      rw [seqAt_seqNext] at hm'
      exact ⟨m', hm'⟩

/-- The history after the darts of some links were pushed on it. -/
def pushLinks (m : NumMap DataDart) (ls : List Link) : NumMap DataDart :=
  ls.foldl (fun m l => pushHistory m l.enc.dart) m

theorem pushLinks_concat (m : NumMap DataDart) (ls : List Link) (l : Link) :
    pushLinks m (ls ++ [l]) = pushHistory (pushLinks m ls) l.enc.dart := List.foldl_concat ..

variable {m : NumMap DataDart}

theorem Stream.encodes {ls : List Link} {q j : ℕ} {l : Link}
    (hq : q < SEQ_MOD) (h : Stream C senderId convId m q ls) (hl : ls[j]? = some l) :
    ∃ m', l.Encodes C senderId convId m' (seqAt q j) := by
  obtain ⟨m', hm'⟩ := h.drop j hq
  have hdrop : ls.drop j = l :: ls.drop (j + 1) := by
    obtain ⟨hlt, hget⟩ := List.getElem?_eq_some_iff.mp hl
    rw [List.drop_eq_getElem_cons hlt, hget]
  rw [hdrop] at hm'
  cases hm' with
  | cons henc _ _ => exact ⟨m', henc⟩

theorem Link.Encodes.header (hC : C.Lawful) {q : ℕ} {l : Link}
    (h : l.Encodes C senderId convId m q) :
    Codec.HeaderFields l.enc.dart l.enc.idx l.enc.epoch l.enc.buf :=
  Codec.headerFields_of_encode hC h.nonce h.buf

theorem Link.Encodes.read_seq (hC : C.Lawful) {q : ℕ} {l : Link}
    (h : l.Encodes C senderId convId m q) : l.enc.buf.readUIntBE 3 3 = some q := by
  rw [(h.header hC).seq, h.seq, Nat.mod_eq_of_lt h.seq_lt]

end StreamParts

/-! ### Being in step -/

/-- The client can reach the key of a link from the chain state it holds. -/
def Reaches (C : Crypto) (senderId convId : ℕ) (r : Client) (l : Link) : Prop :=
  ∃ chain, r.getChain convId l.enc.epoch senderId = some chain ∧ chain.index ≤ l.enc.idx ∧
    l.chainKey = chainSteps C (l.enc.idx - chain.index) chain.key

instance (C : Crypto) (senderId convId : ℕ) (r : Client) (l : Link) :
    Decidable (Reaches C senderId convId r l) :=
  match h : r.getChain convId l.enc.epoch senderId with
  | none => isFalse fun ⟨_, hget, _⟩ => by rw [h] at hget; cases hget
  | some chain =>
    decidable_of_iff (chain.index ≤ l.enc.idx ∧
      l.chainKey = chainSteps C (l.enc.idx - chain.index) chain.key)
      ⟨fun hc => ⟨chain, h, hc⟩, fun ⟨_, hget, hc⟩ => by
        rw [h] at hget
        cases hget
        exact hc⟩

/-- The client `r` is where the abstract receiver `st` is, on the stream `ls` from number `a` on over
the history `m₀`. -/
structure InSync (C : Crypto) (senderId convId : ℕ) (m₀ : NumMap DataDart) (a : ℕ) (ls : List Link)
    (r : Client) (st : Reassembly) : Prop where
  next_le : st.next ≤ ls.length
  held_lt : ∀ j ∈ st.held, j < ls.length
  held_ge : ∀ j ∈ st.held, st.next ≤ j
  form : r.WellFormed
  highest : r.highestReceivedSeq.get senderId = some (seqBack (seqAt a st.next) 1)
  stream : Stream C senderId convId (pushLinks m₀ (ls.take st.next)) (seqAt a st.next)
    (ls.drop st.next)
  history : Agree (receivedOf r senderId) (pushLinks m₀ (ls.take st.next)) (seqAt a st.next)
  buffer : ∀ q raw, get₂ r.outOfOrderBuffer senderId q = some raw ↔
    ∃ j l, j ∈ st.held ∧ ls[j]? = some l ∧ q = seqAt a j ∧ raw = l.enc.buf
  chains : ∀ l ∈ ls.drop st.next, Reaches C senderId convId r l

variable {C : Crypto} {me : Identity} {senderId convId a : ℕ} {ls : List Link}
  {m₀ : NumMap DataDart}

theorem InSync.of_core {t : Client} (h : InSync C senderId convId m₀ a ls r st)
    (hcore : t.core = r.core) : InSync C senderId convId m₀ a ls t st := by
  have hhigh : t.highestReceivedSeq = r.highestReceivedSeq :=
    congrArg (fun c => c.highestReceivedSeq) hcore
  have hrec : t.receivedMessages = r.receivedMessages := congrArg (fun c => c.receivedMessages) hcore
  have hbuf : t.outOfOrderBuffer = r.outOfOrderBuffer := congrArg (fun c => c.outOfOrderBuffer) hcore
  have hchains : t.senderChains = r.senderChains := congrArg (fun c => c.senderChains) hcore
  refine ⟨h.next_le, h.held_lt, h.held_ge, h.form.of_core hcore, hhigh ▸ h.highest, h.stream,
    ?_, ?_, ?_⟩
  · rw [receivedOf, hrec]
    exact h.history
  · intro q raw
    rw [hbuf]
    exact h.buffer q raw
  · intro l hl
    obtain ⟨chain, hget, hidx, hkey⟩ := h.chains l hl
    refine ⟨chain, ?_, hidx, hkey⟩
    rw [Client.getChain, hchains]
    exact hget

/-! ### Delivering the next dart -/

/-- What decrypting a link returns. -/
def decryptedLink (C : Crypto) (senderId convId q : ℕ) (l : Link) : DecryptedData :=
  { type := TYPE_DATA, convId, senderId, seq := q,
    compressed := C.deflateRaw (utf8 l.enc.dart.payload) l.enc.dict,
    dictFp := dictFingerprint C l.enc.dict, idx := l.enc.idx }

/-- The receiver's chain after a link. -/
def chainAfter (C : Crypto) (l : Link) : ChainState := ⟨chainNextKey C l.chainKey, l.enc.idx + 1⟩

/-- **Decryption in order.**  From any earlier state of the sender's chain the ratchet arrives at the
key the dart was encrypted under. -/
theorem openData_link (hC : C.Lawful)
    (henc : l.Encodes C senderId convId m q) (hidx : l.enc.idx < 2 ^ 32)
    (hreach : Reaches C senderId convId r l) :
    openData C r l.enc.buf senderId
      = some (some (decryptedLink C senderId convId q l,
          r.setChain convId l.enc.epoch senderId (chainAfter C l))) := by
  obtain ⟨chain, hget, hle, hkey⟩ := hreach
  have hdr := henc.header hC
  have hidxMod : l.enc.idx % 2 ^ 32 = l.enc.idx := Nat.mod_eq_of_lt hidx
  have hadv : advanceChain C chain l.enc.idx = (l.enc.messageKey, chainAfter C l) := by
    rw [advanceChain_of_le C hle, chainSteps_succ, ← hkey, henc.messageKey]
    rfl
  have hdec : Codec.decryptData C l.enc.buf l.enc.messageKey
      = some (decryptedLink C senderId convId q l) := by
    rw [Codec.decryptData_of_encode hC henc.nonce henc.buf, henc.type, henc.convId, henc.senderId,
      henc.seq, Nat.mod_eq_of_lt henc.seq_lt, hidxMod]
    rfl
  have hconv : l.enc.buf.readUInt16BE 1 = some convId := by rw [hdr.convId, henc.convId]
  have hread : l.enc.buf.readUInt32BE 27 = some l.enc.idx := by rw [hdr.idx, hidxMod]
  simp only [openData, Option.bind_eq_bind, hdr.epoch, hread, hconv, Option.bind_some, hget,
    if_neg (Nat.not_lt.mpr hle), hadv, hdec]

/-- The dart of a link, from what its header and its payload say. -/
theorem Link.Encodes.dart_eq (henc : l.Encodes C senderId convId m q) :
    ({ type := TYPE_DATA, convId, senderId, seq := q, payload := l.enc.dart.payload } : DataDart)
      = l.enc.dart := by
  have h₁ := henc.type
  have h₂ := henc.convId
  have h₃ := henc.senderId
  have h₄ := henc.seq
  cases hd : l.enc.dart with
  | mk type conv sender seq payload =>
    rw [hd] at h₁ h₂ h₃ h₄
    subst h₁ h₂ h₃ h₄
    rfl

/-- A stored dart is at most the window behind the highest number, so the next number is free. -/
theorem Client.WellFormed.free_next (hform : r.WellFormed) (hq : q < SEQ_MOD)
    (hhigh : r.highestReceivedSeq.get senderId = some (seqBack q 1)) :
    get₂ r.receivedMessages senderId q = none := by
  rw [← get_receivedOf]
  cases hget : (receivedOf r senderId).get q with
  | none => rfl
  | some d =>
    have hrecent := hform.recent senderId q d hget
    rw [hhigh, orDefault_zero, Option.getD_some, DartProtocol.recent, decide_eq_true_eq,
      seqDelta_eq hq (seqBack_lt q 1)] at hrecent
    unfold seqBack DICT_WINDOW at hrecent
    unfold SEQ_MOD at hrecent hq
    split at hrecent <;> omega

/-- **Storing in order.**  Where the history agrees with the sender's on the window, the fingerprint
matches, the payload inflates, and the dart is new. -/
theorem processDataPacket_link (hC : C.Lawful) (hne : senderId ≠ me.senderId)
    (henc : l.Encodes C senderId convId m q)
    (hkeyed : Keyed (receivedOf r senderId)) (hagree : Agree (receivedOf r senderId) m q)
    (hfree : get₂ r.receivedMessages senderId q = none) :
    processDataPacket C me (decryptedLink C senderId convId q l) senderId q r
      = ⟨some (), storeReceived l.enc.dart r, [.checked l.enc.dict, .stored l.enc.dart]⟩ := by
  have hdict : getDictionary me r senderId q = l.enc.dict := by
    rw [getDictionary, historyOf_of_ne hne, henc.dict]
    exact dictionaryOf_congr hkeyed henc.keyed henc.seq_lt hagree
  have hpayload : Codec.inflateData C (decryptedLink C senderId convId q l).compressed l.enc.dict
      = some l.enc.dart.payload := Codec.inflateData_deflate hC _ _
  have hfp : ¬ (decryptedLink C senderId convId q l).dictFp ≠ dictFingerprint C l.enc.dict :=
    fun h => h rfl
  have hdart := henc.dart_eq
  unfold processDataPacket
  rw [get_bind]
  simp only [hdict]
  rw [emit_bind, if_neg hfp, hpayload]
  simp only [hfree, Option.isSome_none, Bool.false_eq_true, if_false]
  rw [modify_bind]
  show Outcome.prepend [Output.checked l.enc.dict]
    ⟨some (), storeReceived ⟨TYPE_DATA, convId, senderId, q, l.enc.dart.payload⟩ r,
      [Output.stored ⟨TYPE_DATA, convId, senderId, q, l.enc.dart.payload⟩]⟩ = _
  rw [hdart]
  rfl

theorem storeReceived_frame (dart : DataDart) (r : Client) :
    (storeReceived dart r).outOfOrderBuffer = r.outOfOrderBuffer ∧
      (storeReceived dart r).senderChains = r.senderChains := by
  unfold storeReceived pruneReceived
  simp only
  split <;> exact ⟨rfl, rfl⟩

/-- The client after the next dart. -/
def afterLink (C : Crypto) (senderId convId : ℕ) (l : Link) (r : Client) : Client :=
  storeReceived l.enc.dart (r.setChain convId l.enc.epoch senderId (chainAfter C l))

theorem highest_afterLink (henc : l.Encodes C senderId convId m q)
    (hhigh : r.highestReceivedSeq.get senderId = some (seqBack q 1)) :
    (afterLink C senderId convId l r).highestReceivedSeq.get senderId = some q ∧
      receivedOf (afterLink C senderId convId l r) senderId
        = pushHistory (receivedOf r senderId) l.enc.dart := by
  have hdelta : seqDelta (seqBack q 1) q = 1 := seqDelta_seqBack henc.seq_lt (by decide)
  have hstore := storeReceived_highest
    (r.setChain convId l.enc.epoch senderId (chainAfter C l)) l.enc.dart (by
      right
      rw [henc.senderId, henc.seq]
      show 0 < seqDelta (orDefault (r.highestReceivedSeq.get senderId) 0) q ∧
        seqDelta (orDefault (r.highestReceivedSeq.get senderId) 0) q < SEQ_MOD / 2
      rw [hhigh, orDefault_zero, Option.getD_some, hdelta]
      decide)
  rw [henc.senderId] at hstore
  refine ⟨?_, ?_⟩
  · rw [afterLink, hstore.1, get_set_self, henc.seq]
  · rw [afterLink, receivedOf, hstore.2, get_set_self]
    rfl

/-- A later link is reached from the chain that a delivered link leaves. -/
theorem reaches_afterLink {later : Link} (hchain : l.ChainsTo C later)
    (hreach : Reaches C senderId convId r later) :
    Reaches C senderId convId (afterLink C senderId convId l r) later := by
  have hget : ∀ e, (afterLink C senderId convId l r).getChain convId e senderId
      = (r.setChain convId l.enc.epoch senderId (chainAfter C l)).getChain convId e senderId := by
    intro e
    rw [Client.getChain, afterLink, (storeReceived_frame _ _).2]
    rfl
  by_cases he : later.enc.epoch = l.enc.epoch
  · obtain ⟨hlt, hkey⟩ := hchain he
    refine ⟨chainAfter C l, ?_, hlt, ?_⟩
    · rw [hget, he, Client.getChain_setChain_self]
    · show later.chainKey
        = chainSteps C (later.enc.idx - (l.enc.idx + 1)) (chainNextKey C l.chainKey)
      rw [hkey, show later.enc.idx - l.enc.idx = later.enc.idx - (l.enc.idx + 1) + 1 by omega]
      rfl
  · obtain ⟨chain, hc, hidx, hkey⟩ := hreach
    refine ⟨chain, ?_, hidx, hkey⟩
    rw [hget, Client.getChain_setChain_of_ne _ _ (fun h => he h.2.1.symm)]
    exact hc

/-- **The next dart keeps the client in step.** -/
theorem InSync.deliver
    (h : InSync C senderId convId m₀ a ls r ⟨k, held⟩) (hl : ls[k]? = some l) (hk : k ∉ held) :
    InSync C senderId convId m₀ a ls (afterLink C senderId convId l r) ⟨k + 1, held⟩ := by
  obtain ⟨hklt, hgetk⟩ := List.getElem?_eq_some_iff.mp hl
  have hdrop : ls.drop k = l :: ls.drop (k + 1) := by
    rw [List.drop_eq_getElem_cons hklt, hgetk]
  have hpush : pushLinks m₀ (ls.take (k + 1)) = pushHistory (pushLinks m₀ (ls.take k)) l.enc.dart := by
    rw [List.take_add_one, hl]
    exact pushLinks_concat m₀ _ l
  have hstream : Stream C senderId convId (pushLinks m₀ (ls.take k)) (seqAt a k)
      (l :: ls.drop (k + 1)) := hdrop ▸ h.stream
  cases hstream with
  | cons henc hchain hrest =>
    obtain ⟨hhigh, hrec⟩ := highest_afterLink henc h.highest
    refine ⟨hklt, h.held_lt, ?_, ?_, ?_, ?_, ?_, ?_, ?_⟩
    · intro j hj
      have hjk : k ≤ j := h.held_ge j hj
      have hne : j ≠ k := fun e => hk (e ▸ hj)
      show k + 1 ≤ j
      omega
    · exact (h.form.of_fields (t := r.setChain convId l.enc.epoch senderId (chainAfter C l))
        rfl rfl rfl rfl).store (henc.seq ▸ henc.seq_lt)
    · show _ = some (seqBack (seqAt a (k + 1)) 1)
      rw [hhigh, ← seqNext_seqAt, seqBack_seqNext (seqAt_lt a k)]
    · show Stream C senderId convId (pushLinks m₀ (ls.take (k + 1))) (seqAt a (k + 1))
        (ls.drop (k + 1))
      rw [hpush, ← seqNext_seqAt]
      exact hrest
    · show Agree _ (pushLinks m₀ (ls.take (k + 1))) (seqAt a (k + 1))
      rw [hpush, hrec, ← seqNext_seqAt]
      exact h.history.push (seqAt_lt a k) henc.seq henc.seq rfl
    · intro q raw
      rw [afterLink, (storeReceived_frame _ _).1]
      exact h.buffer q raw
    · intro later hlater
      have hmem : later ∈ ls.drop k := by
        rw [hdrop]
        exact List.mem_cons_of_mem _ hlater
      exact reaches_afterLink (hchain later hlater) (h.chains later hmem)

/-- Decrypting and processing the next dart, by a client with the history and the chains of one that is
in step. -/
theorem deliver_next_of (hC : C.Lawful) (hne : senderId ≠ me.senderId) {t : Client}
    (hidx : l.enc.idx < 2 ^ 32)
    (h : InSync C senderId convId m₀ a ls r ⟨k, held⟩) (hl : ls[k]? = some l)
    (hreceived : t.receivedMessages = r.receivedMessages) (hchains : t.senderChains = r.senderChains) :
    decryptDataInOrder C l.enc.buf senderId t
        = ⟨some (some (decryptedLink C senderId convId (seqAt a k) l)),
            t.setChain convId l.enc.epoch senderId (chainAfter C l), []⟩ ∧
      processDataPacket C me (decryptedLink C senderId convId (seqAt a k) l) senderId (seqAt a k)
          (t.setChain convId l.enc.epoch senderId (chainAfter C l))
        = ⟨some (), afterLink C senderId convId l t,
            [.checked l.enc.dict, .stored l.enc.dart]⟩ := by
  obtain ⟨hklt, hgetk⟩ := List.getElem?_eq_some_iff.mp hl
  have hdrop : ls.drop k = l :: ls.drop (k + 1) := by
    rw [List.drop_eq_getElem_cons hklt, hgetk]
  have hstream : Stream C senderId convId (pushLinks m₀ (ls.take k)) (seqAt a k)
      (l :: ls.drop (k + 1)) := hdrop ▸ h.stream
  have hhistory : receivedOf t senderId = receivedOf r senderId := by
    rw [receivedOf, hreceived, receivedOf]
  cases hstream with
  | cons henc hchain hrest =>
    have hreach : Reaches C senderId convId t l := by
      have hmem : l ∈ ls.drop k := hdrop ▸ List.mem_cons_self
      obtain ⟨chain, hget, hle, hkey⟩ := h.chains l hmem
      refine ⟨chain, ?_, hle, hkey⟩
      rw [Client.getChain, hchains]
      exact hget
    refine ⟨?_, ?_⟩
    · rw [decryptDataInOrder_run, openData_link hC henc hidx hreach]
    · refine processDataPacket_link hC hne henc ?_ ?_ ?_
      · exact hhistory ▸ h.form.received senderId
      · exact hhistory ▸ h.history
      · show get₂ t.receivedMessages senderId (seqAt a k) = none
        rw [hreceived]
        exact h.form.free_next henc.seq_lt h.highest

/-- Decrypting and processing the next dart, as both paths of the receiver do it. -/
theorem deliver_next (hC : C.Lawful) (hne : senderId ≠ me.senderId) (hidx : l.enc.idx < 2 ^ 32)
    (h : InSync C senderId convId m₀ a ls r ⟨k, held⟩) (hl : ls[k]? = some l) :
    decryptDataInOrder C l.enc.buf senderId r
        = ⟨some (some (decryptedLink C senderId convId (seqAt a k) l)),
            r.setChain convId l.enc.epoch senderId (chainAfter C l), []⟩ ∧
      processDataPacket C me (decryptedLink C senderId convId (seqAt a k) l) senderId (seqAt a k)
          (r.setChain convId l.enc.epoch senderId (chainAfter C l))
        = ⟨some (), afterLink C senderId convId l r,
            [.checked l.enc.dict, .stored l.enc.dart]⟩ :=
  deliver_next_of hC hne hidx h hl rfl rfl

/-! ### Draining -/

/-- The darts among outputs that entered a received history. -/
def storedDarts (os : List Output) : List DataDart :=
  os.filterMap fun o => match o with
    | .stored dart => some dart
    | _ => none

theorem storedDarts_append (os os' : List Output) :
    storedDarts (os ++ os') = storedDarts os ++ storedDarts os' := List.filterMap_append

theorem storedDarts_of_broadcasts {os : List Output}
    (h : ∀ o ∈ os, ∃ buf via, o = Output.broadcast buf via) : storedDarts os = [] := by
  rw [storedDarts, List.filterMap_eq_nil_iff]
  intro o ho
  obtain ⟨buf, via, rfl⟩ := h o ho
  rfl

theorem get₂_unbuffer (r : Client) (senderId q q' : ℕ) :
    get₂ (unbuffer senderId q r).outOfOrderBuffer senderId q'
      = if q = q' then none else get₂ r.outOfOrderBuffer senderId q' := by
  unfold unbuffer
  cases hget : r.outOfOrderBuffer.get senderId with
  | none =>
    show get₂ r.outOfOrderBuffer senderId q' = _
    rw [get₂, hget]
    split <;> rfl
  | some bufferMap =>
    show get₂ (r.outOfOrderBuffer.set senderId (bufferMap.delete q)) senderId q' = _
    rw [get₂, get_set_self, Option.bind_some, get_delete, get₂, hget,
      Option.bind_some]

theorem unbuffer_frame (r : Client) (senderId q : ℕ) :
    ∃ b, unbuffer senderId q r = { r with outOfOrderBuffer := b } := by
  unfold unbuffer
  split
  · exact ⟨r.outOfOrderBuffer, rfl⟩
  · exact ⟨_, rfl⟩

theorem InSync.with_buffer {b : NumMap (NumMap Buffer)} (h : InSync C senderId convId m₀ a ls r st)
    (hlt : ∀ j ∈ held, j < ls.length) (hge : ∀ j ∈ held, st.next ≤ j)
    (hb : ∀ q raw, get₂ b senderId q = some raw ↔
      ∃ j l, j ∈ held ∧ ls[j]? = some l ∧ q = seqAt a j ∧ raw = l.enc.buf) :
    InSync C senderId convId m₀ a ls { r with outOfOrderBuffer := b } ⟨st.next, held⟩ :=
  ⟨h.next_le, hlt, hge, h.form.of_fields rfl rfl rfl rfl, h.highest, h.stream, h.history, hb,
    h.chains⟩

/-- The buffer holds a dart exactly when the abstract receiver does. -/
theorem InSync.buffered (hn : ls.length < SEQ_MOD / 2)
    (h : InSync C senderId convId m₀ a ls r st) {j : ℕ} (hl : ls[j]? = some l) :
    get₂ r.outOfOrderBuffer senderId (seqAt a j) = if j ∈ st.held then some l.enc.buf else none := by
  have hj : j < ls.length := (List.getElem?_eq_some_iff.mp hl).1
  by_cases hmem : j ∈ st.held
  · rw [if_pos hmem]
    exact (h.buffer _ _).mpr ⟨j, l, hmem, hl, rfl, rfl⟩
  · rw [if_neg hmem]
    cases hget : get₂ r.outOfOrderBuffer senderId (seqAt a j) with
    | none => rfl
    | some raw =>
      obtain ⟨i, _, hi, _, hq, _⟩ := (h.buffer _ _).mp hget
      have hilt : i < ls.length := h.held_lt i hi
      have hij : j = i := seqAt_inj (by omega) (by omega) hq
      exact absurd (hij ▸ hi) hmem

theorem InSync.not_buffered_end
    (h : InSync C senderId convId m₀ a ls r st) (hend : st.next = ls.length) :
    get₂ r.outOfOrderBuffer senderId (seqAt a st.next) = none := by
  cases hget : get₂ r.outOfOrderBuffer senderId (seqAt a st.next) with
  | none => rfl
  | some raw =>
    obtain ⟨i, _, hi, _, _, _⟩ := (h.buffer _ _).mp hget
    have hlt := h.held_lt i hi
    have hge := h.held_ge i hi
    omega

theorem InSync.unbuffer (hn : ls.length < SEQ_MOD / 2)
    (h : InSync C senderId convId m₀ a ls r st) (hmem : st.next ∈ st.held) :
    InSync C senderId convId m₀ a ls (DartProtocol.unbuffer senderId (seqAt a st.next) r)
      ⟨st.next, st.held.erase st.next⟩ := by
  have hnlt : st.next < ls.length := h.held_lt _ hmem
  obtain ⟨b, hb⟩ := unbuffer_frame r senderId (seqAt a st.next)
  have hget : ∀ q, get₂ b senderId q
      = if seqAt a st.next = q then none else get₂ r.outOfOrderBuffer senderId q := by
    intro q
    rw [← get₂_unbuffer, hb]
  rw [hb]
  refine h.with_buffer ?_ ?_ ?_
  · intro j hj
    exact h.held_lt j (Finset.mem_of_mem_erase hj)
  · intro j hj
    exact h.held_ge j (Finset.mem_of_mem_erase hj)
  · intro q raw
    rw [hget]
    constructor
    · intro hq
      split at hq
      · cases hq
      · rename_i hneq
        obtain ⟨j, l, hj, hl, hqj, hraw⟩ := (h.buffer q raw).mp hq
        refine ⟨j, l, Finset.mem_erase.mpr ⟨?_, hj⟩, hl, hqj, hraw⟩
        intro hjn
        exact hneq (by rw [hqj, hjn])
    · rintro ⟨j, l, hj, hl, hqj, hraw⟩
      obtain ⟨hjne, hj⟩ := Finset.mem_erase.mp hj
      have hjlt : j < ls.length := h.held_lt j hj
      have hneq : ¬ seqAt a st.next = q := by
        intro heq
        exact hjne (seqAt_inj (by omega) (by omega) (hqj.symm.trans heq.symm))
      rw [if_neg hneq]
      exact (h.buffer q raw).mpr ⟨j, l, hj, hl, hqj, hraw⟩

/-- The darts handed on between two states of the abstract receiver. -/
def HandedOn (ls : List Link) (st st' : Reassembly) (os : List Output) : Prop :=
  (ls.take st.next).map (fun l => l.enc.dart) ++ storedDarts os
    = (ls.take st'.next).map fun l => l.enc.dart

theorem HandedOn.refl (st : Reassembly) : HandedOn ls st st [] := by
  rw [HandedOn]
  exact List.append_nil _

theorem HandedOn.trans {st' st'' : Reassembly} {os os' : List Output}
    (h : HandedOn ls st st' os) (h' : HandedOn ls st' st'' os') :
    HandedOn ls st st'' (os ++ os') := by
  unfold HandedOn at *
  rw [storedDarts_append, ← List.append_assoc, h, h']

theorem HandedOn.next {held' : Finset ℕ} (hl : ls[k]? = some l)
    (dict : Buffer) : HandedOn ls ⟨k, held⟩ ⟨k + 1, held'⟩ [.checked dict, .stored l.enc.dart] := by
  show (ls.take k).map (fun l => l.enc.dart) ++ [l.enc.dart]
    = (ls.take (k + 1)).map fun l => l.enc.dart
  rw [List.take_add_one, hl, List.map_append]
  rfl

/-- **The draining loop follows the abstract release.**  Induction on the turns; each one takes the
next dart out of the buffer and delivers it. -/
theorem drainBuffer_sync (hC : C.Lawful) (hne : senderId ≠ me.senderId)
    (hn : ls.length < SEQ_MOD / 2) (hidx : ∀ l ∈ ls, l.enc.idx < 2 ^ 32) (turns : ℕ) :
    ∀ {r : Client} {st : Reassembly}, InSync C senderId convId m₀ a ls r st →
      InSync C senderId convId m₀ a ls (drainBuffer C me senderId turns (seqAt a st.next) r).state
          (Reassembly.release turns st) ∧
        HandedOn ls st (Reassembly.release turns st)
          (drainBuffer C me senderId turns (seqAt a st.next) r).output ∧
        framesOf (drainBuffer C me senderId turns (seqAt a st.next) r).output = [] := by
  induction turns with
  | zero =>
    intro r st h
    exact ⟨h, HandedOn.refl st, rfl⟩
  | succ turns ih =>
    intro r st h
    by_cases hmem : st.next ∈ st.held
    · have hnlt : st.next < ls.length := h.held_lt _ hmem
      obtain ⟨l, hl⟩ : ∃ l, ls[st.next]? = some l := ⟨_, List.getElem?_eq_getElem hnlt⟩
      have hlidx : l.enc.idx < 2 ^ 32 := hidx l (List.mem_of_getElem? hl)
      have hbuf : get₂ r.outOfOrderBuffer senderId (seqAt a st.next) = some l.enc.buf := by
        rw [h.buffered hn hl, if_pos hmem]
      have h₁ := h.unbuffer hn hmem
      obtain ⟨hdec, hproc⟩ := deliver_next hC hne hlidx h₁ hl
      have h₂ := h₁.deliver hl (Finset.notMem_erase _ _)
      obtain ⟨ihsync, ihlog, ihframes⟩ := ih h₂
      have hbody : processBuffered C me l.enc.buf senderId (seqAt a st.next)
          (DartProtocol.unbuffer senderId (seqAt a st.next) r)
          = ⟨some (), afterLink C senderId convId l
              (DartProtocol.unbuffer senderId (seqAt a st.next) r),
              [.checked l.enc.dict, .stored l.enc.dart]⟩ := by
        unfold processBuffered
        rw [bind_of_some (a := some (decryptedLink C senderId convId (seqAt a st.next) l))
          (by rw [hdec]), hdec]
        simp only [Outcome.prepend_nil]
        rw [if_pos (show (decryptedLink C senderId convId (seqAt a st.next) l).senderId = senderId
          from rfl)]
        exact hproc
      have hrun : drainBuffer C me senderId (turns + 1) (seqAt a st.next) r
          = (drainBuffer C me senderId turns (seqAt a (st.next + 1))
              (afterLink C senderId convId l
                (DartProtocol.unbuffer senderId (seqAt a st.next) r))).prepend
              [.checked l.enc.dict, .stored l.enc.dart] := by
        rw [drainBuffer_of_some C me hbuf, hbody, seqNext_seqAt]
      rw [hrun, Reassembly.release_succ_of_mem hmem]
      exact ⟨ihsync, (HandedOn.next hl l.enc.dict).trans ihlog, ihframes⟩
    · have hnone : get₂ r.outOfOrderBuffer senderId (seqAt a st.next) = none := by
        rcases Nat.lt_or_ge st.next ls.length with hlt | hge
        · rw [h.buffered hn (List.getElem?_eq_getElem hlt), if_neg hmem]
        · exact h.not_buffered_end (Nat.le_antisymm h.next_le hge)
      rw [drainBuffer_of_none C me hnone, Reassembly.release_of_notMem hmem]
      exact ⟨h, HandedOn.refl st, rfl⟩

theorem InSync.card_le_size (hn : ls.length < SEQ_MOD / 2)
    (h : InSync C senderId convId m₀ a ls r st) {bufferMap : NumMap Buffer}
    (hget : r.outOfOrderBuffer.get senderId = some bufferMap) : st.held.card ≤ bufferMap.size := by
  have hmaps : ∀ j ∈ st.held, seqAt a j ∈ bufferMap.keys.toFinset := by
    intro j hj
    obtain ⟨l, hl⟩ : ∃ l, ls[j]? = some l := ⟨_, List.getElem?_eq_getElem (h.held_lt j hj)⟩
    have hbuf := h.buffered hn hl
    rw [if_pos hj, get₂, hget, Option.bind_some] at hbuf
    exact List.mem_toFinset.mpr (mem_keys_iff.mpr ⟨_, hbuf⟩)
  have hinj : Set.InjOn (seqAt a) (st.held : Set ℕ) := by
    intro i hi j hj hij
    have hilt : i < ls.length := h.held_lt i hi
    have hjlt : j < ls.length := h.held_lt j hj
    exact seqAt_inj (by omega) (by omega) hij
  have hcard := Finset.card_le_card_of_injOn (seqAt a) hmaps hinj
  refine Nat.le_trans hcard ?_
  have hkeys : bufferMap.keys.length = bufferMap.size := List.length_map _
  rw [← hkeys]
  exact List.toFinset_card_le _

/-- **Draining the buffer** hands on every held dart that directly follows. -/
theorem processBufferedPackets_sync (hC : C.Lawful) (hne : senderId ≠ me.senderId)
    (hn : ls.length < SEQ_MOD / 2) (hidx : ∀ l ∈ ls, l.enc.idx < 2 ^ 32)
    (h : InSync C senderId convId m₀ a ls r st) :
    InSync C senderId convId m₀ a ls (processBufferedPackets C me senderId r).state
        (Reassembly.release st.held.card st) ∧
      HandedOn ls st (Reassembly.release st.held.card st)
        (processBufferedPackets C me senderId r).output ∧
      framesOf (processBufferedPackets C me senderId r).output = [] := by
  have hstart : seqNext (orDefault (r.highestReceivedSeq.get senderId) 0) = seqAt a st.next := by
    rw [h.highest, orDefault_zero, Option.getD_some, seqNext_seqBack (seqAt_lt a _)]
  cases hget : r.outOfOrderBuffer.get senderId with
  | none =>
    -- no buffer was ever made for this sender, so nothing is held
    have hrun : processBufferedPackets C me senderId r = ⟨some (), r, []⟩ := by
      unfold processBufferedPackets
      rw [get_bind]
      simp only [hget]
      rfl
    have hempty : st.next ∉ st.held := by
      intro hmem
      obtain ⟨l, hl⟩ : ∃ l, ls[st.next]? = some l :=
        ⟨_, List.getElem?_eq_getElem (h.held_lt _ hmem)⟩
      have hbuf := h.buffered hn hl
      rw [if_pos hmem, get₂, hget] at hbuf
      cases hbuf
    rw [hrun, Reassembly.release_of_notMem hempty]
    exact ⟨h, HandedOn.refl st, rfl⟩
  | some bufferMap =>
    have hrun : processBufferedPackets C me senderId r
        = drainBuffer C me senderId bufferMap.size (seqAt a st.next) r := by
      unfold processBufferedPackets
      rw [get_bind]
      simp only [hget, hstart]
    rw [hrun, ← Reassembly.release_of_card_le (h.card_le_size hn hget)]
    exact drainBuffer_sync hC hne hn hidx bufferMap.size h

end DartProtocol
