import DartProtocol.StreamDelivery

/-!
# Recovery from a dictionary mismatch

A receiver whose history differs from the sender's finds a fingerprint that does not match.  It
forgets its history of the sender and asks for a Dict-Reset; the sender forgets its sent history.
The receiver's highest number stays *before* the dart that did not match, so it goes on waiting for
that dart.

* `handleMessage_unmatched` — a copy with another dictionary is refused;
* `step_takesReset` — the reset empties the sender's sent history.
-/

namespace DartProtocol

open Prog InsertionMap Outcome

variable {C : Crypto} {me : Identity} {senderId convId q : ℕ}

variable {ls : List Link} {m : NumMap DataDart} {r : Client}

theorem utf8_eq_nil {p : String} : utf8 p = [] ↔ p = "" := by
  constructor
  · intro h
    have : utf8ToString (utf8 p) = utf8ToString (utf8 "") := by rw [h]; rfl
    rwa [utf8ToString_utf8, utf8ToString_utf8] at this
  · rintro rfl
    rfl

/-! ### Waiting for a dart -/

/-- The next dart is number `q`, and no copy of it is buffered. -/
structure Waits (senderId q : ℕ) (r : Client) : Prop where
  highest : r.highestReceivedSeq.get senderId = some (seqBack q 1)
  buffer : get₂ r.outOfOrderBuffer senderId q = none

theorem Waits.of_core {t : Client} (h : Waits senderId q r) (hcore : t.core = r.core) :
    Waits senderId q t := by
  have hhigh : t.highestReceivedSeq = r.highestReceivedSeq :=
    congrArg (fun c => c.highestReceivedSeq) hcore
  have hbuf : t.outOfOrderBuffer = r.outOfOrderBuffer :=
    congrArg (fun c => c.outOfOrderBuffer) hcore
  exact ⟨hhigh ▸ h.highest, hbuf ▸ h.buffer⟩

theorem receivedOf_of_core {t : Client} (hcore : t.core = r.core) (senderId : ℕ) :
    receivedOf t senderId = receivedOf r senderId := by
  have h := congrArg (fun c => receivedOf c senderId) hcore
  exact h

theorem Waits.dataAhead (h : Waits senderId q r) (q' : ℕ) :
    dataAhead r senderId q' = seqDelta (seqBack q 1) q' := by
  have hhas : r.highestReceivedSeq.has senderId = true := has_iff.mpr ⟨_, h.highest⟩
  rw [DartProtocol.dataAhead, if_pos hhas, h.highest, orDefault_zero, Option.getD_some]

/-- Nothing is drained when the packet that comes next is not held. -/
theorem processBufferedPackets_none
    (h : get₂ r.outOfOrderBuffer senderId
      (seqNext (orDefault (r.highestReceivedSeq.get senderId) 0)) = none) :
    processBufferedPackets C me senderId r = ⟨some (), r, []⟩ := by
  rw [processBufferedPackets, get_bind]
  cases hget : r.outOfOrderBuffer.get senderId with
  | none => rfl
  | some bufferMap =>
    simp only
    cases bufferMap.size with
    | zero => rfl
    | succ n => exact drainBuffer_of_none C me h n

theorem processBufferedPackets_waits (hq : q < SEQ_MOD) (h : Waits senderId q r) :
    processBufferedPackets C me senderId r = ⟨some (), r, []⟩ := by
  apply processBufferedPackets_none
  rw [h.highest, orDefault_zero, Option.getD_some, seqNext_seqBack hq]
  exact h.buffer

theorem receivedOf_clearReceived (r : Client) (senderId : ℕ) :
    receivedOf (clearReceived senderId r) senderId = ∅ := by
  rw [clearReceived]
  split
  · rw [receivedOf, get_set_self]
    rfl
  · rename_i hno
    rw [receivedOf, has_eq_false_iff.mp (by simpa using hno)]
    rfl

/-- What a dart that is refused does to the stream it belongs to. -/
structure Refused (senderId : ℕ) (r t : Client) : Prop where
  highest : t.highestReceivedSeq = r.highestReceivedSeq
  buffer : t.outOfOrderBuffer = r.outOfOrderBuffer
  history : receivedOf t senderId = receivedOf r senderId ∨ receivedOf t senderId = ∅
  form : r.WellFormed → t.WellFormed

theorem Refused.waits {t : Client} (h : Refused senderId r t) (hr : Waits senderId q r) :
    Waits senderId q t :=
  ⟨h.highest ▸ hr.highest, h.buffer ▸ hr.buffer⟩

theorem Refused.of_core {t u : Client} (h : Refused senderId r t) (hcore : u.core = t.core) :
    Refused senderId r u where
  highest := (congrArg (fun c => c.highestReceivedSeq) hcore).trans h.highest
  buffer := (congrArg (fun c => c.outOfOrderBuffer) hcore).trans h.buffer
  history := receivedOf_of_core hcore senderId ▸ h.history
  form := fun hr => (h.form hr).of_core hcore

theorem refused_clearReceived (r : Client) (convId epoch : ℕ) (chain : ChainState) :
    Refused senderId r (clearReceived senderId (r.setChain convId epoch senderId chain)) := by
  refine ⟨?_, ?_, Or.inr (receivedOf_clearReceived _ senderId), fun hr => ?_⟩
  · rw [clearReceived]
    split <;> rfl
  · rw [clearReceived]
    split <;> rfl
  · have hr' : (r.setChain convId epoch senderId chain).WellFormed := hr.of_fields rfl rfl rfl rfl
    rw [clearReceived]
    split
    · exact hr'.emptied rfl rfl rfl rfl
    · exact hr'

/-- **A copy that does not match** is refused.  When it decrypts, the history is forgotten. -/
theorem acceptNext_unmatched (hq : q < SEQ_MOD)
    (h : Waits senderId q r) {buf : Buffer} {fp : Buffer}
    (hfp : ∀ key dec, Codec.decryptData C buf key = some dec → dec.dictFp = fp)
    (hne : fp ≠ dictFingerprint C (getDictionary me r senderId q)) :
    Refused senderId r (acceptNext C me buf senderId q r).state ∧
      (∀ opened, openData C r buf senderId = some (some opened) →
        receivedOf (acceptNext C me buf senderId q r).state senderId = ∅) ∧
      storedDarts (acceptNext C me buf senderId q r).output = [] := by
  rw [acceptNext, decryptDataInOrder_bind]
  rcases hopen : openData C r buf senderId with _ | _ | ⟨dec, r'⟩
  · exact ⟨⟨rfl, rfl, Or.inl rfl, fun hr => hr⟩, fun _ ho => (by cases ho), rfl⟩
  · exact ⟨⟨rfl, rfl, Or.inl rfl, fun hr => hr⟩, fun _ ho => (by cases ho), rfl⟩
  · obtain ⟨_, epoch, _, _, chain, _, _, _, _, hdec, rfl⟩ := openData_eq hopen
    simp only
    generalize hr : r.setChain _ _ senderId _ = r'
    have hrefused : Refused senderId r (clearReceived senderId r') := by
      rw [← hr]
      exact refused_clearReceived r _ _ _
    have hdict : getDictionary me r' senderId q = getDictionary me r senderId q := by
      rw [← hr]
      rfl
    have hrun : processDataPacket C me dec senderId q r'
        = (sendDictReset C me dec.convId senderId (clearReceived senderId r')).prepend
            [.checked (getDictionary me r senderId q)] := by
      rw [processDataPacket, get_bind, emit_bind, hdict, if_pos, modify_bind]
      rw [hfp _ dec hdec]
      exact hne
    have hsilent : Silent (clearReceived senderId r')
        (sendDictReset C me dec.convId senderId (clearReceived senderId r')).output
        (sendDictReset C me dec.convId senderId (clearReceived senderId r')).state :=
      sendDictReset_obeys silent_background dec.convId senderId _
    have hstate : Refused senderId r (processDataPacket C me dec senderId q r').state := by
      rw [hrun]
      exact hrefused.of_core hsilent.1
    have hrec : receivedOf (processDataPacket C me dec senderId q r').state senderId = ∅ := by
      rw [hrun, prepend_state, receivedOf_of_core hsilent.1, receivedOf_clearReceived]
    have hstored : storedDarts (processDataPacket C me dec senderId q r').output = [] := by
      rw [hrun, prepend_output, storedDarts_append, storedDarts_of_broadcasts hsilent.2]
      rfl
    -- with or without an exception on the way to the reset, there is nothing to drain
    cases hres : (processDataPacket C me dec senderId q r').result with
    | none =>
      rw [bind_of_none hres]
      exact ⟨hstate, fun _ _ => hrec, hstored⟩
    | some u =>
      rw [bind_of_some hres, processBufferedPackets_waits hq (hstate.waits h), prepend_output,
        List.append_nil]
      exact ⟨hstate, fun _ _ => hrec, hstored⟩

theorem handleMessage_unmatched (me : Identity) (hC : C.Lawful) (hq : q < SEQ_MOD)
    (h : Waits senderId q r) {l : Link}
    (henc : l.Encodes C senderId convId m q)
    (hne : dictFingerprint C l.enc.dict ≠ dictFingerprint C (getDictionary me r senderId q)) :
    Refused senderId r (handleMessage C me l.enc.buf r).state ∧
      (l.enc.idx < 2 ^ 32 → Reaches C senderId convId r l →
        receivedOf (handleMessage C me l.enc.buf r).state senderId = ∅) ∧
      storedDarts (handleMessage C me l.enc.buf r).output = [] := by
  have hcore := noteSeen_core r senderId q
  have h' : Waits senderId q (r.noteSeen senderId q) := h.of_core hcore
  have hahead : dataAhead (r.noteSeen senderId q) senderId q = 1 := by
    rw [h'.dataAhead, seqDelta_seqBack hq (by decide)]
  have hdict : getDictionary me (r.noteSeen senderId q) senderId q
      = getDictionary me r senderId q := by
    rw [Client.noteSeen]
    split
    · rfl
    · split <;> rfl
  obtain ⟨hstate, houtput⟩ := handleMessage_link me hC henc r
  rw [hstate, houtput, routeData, get_bind]
  simp only [hahead]
  rw [if_neg (by decide), if_neg (by decide)]
  obtain ⟨hrefused, hrec, hstored⟩ := acceptNext_unmatched hq h'
    (fun key dec hdec => Codec.dictFp_of_encode hC henc.nonce henc.buf hdec)
    (by rw [hdict]; exact hne)
  refine ⟨?_, ?_, hstored⟩
  · exact {
      highest := hrefused.highest.trans (congrArg (fun c => c.highestReceivedSeq) hcore)
      buffer := hrefused.buffer.trans (congrArg (fun c => c.outOfOrderBuffer) hcore)
      history := receivedOf_of_core hcore senderId ▸ hrefused.history
      form := fun hr => hrefused.form (hr.of_core hcore) }
  · intro hidx hreach
    have hreach' : Reaches C senderId convId (r.noteSeen senderId q) l := by
      obtain ⟨chain, hget, hrest⟩ := hreach
      exact ⟨chain, (Client.getChain_of_core hcore ..).trans hget, hrest⟩
    exact hrec _ (openData_link hC henc hidx hreach')

/-! ### The sender's side of a reset -/

/-- The frame is a Dict-Reset that the client takes as one of its own stream. -/
def TakesReset (C : Crypto) (me : Identity) (s : Client) (buf : Buffer) : Prop :=
  s.closed = false ∧ buf.readUInt8 0 = some TYPE_DICT_RESET ∧
    ∃ opened ∈ (openRelayed s buf).join, ∃ reset ∈ Codec.decodeDictReset C opened.1 opened.2,
      reset.targetId = me.senderId

theorem step_takesReset {s : Client} {buf : Buffer} (h : TakesReset C me s buf) :
    (step C me (.message buf) s).state = { s with sentMessages := ∅ } := by
  obtain ⟨hclosed, htype, opened, hopen, reset, hreset, htarget⟩ := h
  have hrelayed : openRelayed s buf = some (some opened) := by
    rcases hr : openRelayed s buf with _ | _ | o
    · rw [hr] at hopen
      cases hopen
    · rw [hr] at hopen
      cases hopen
    · rw [hr] at hopen
      cases hopen
      rfl
  have hhandle : handleDictReset C me buf s = ⟨some (), { s with sentMessages := ∅ }, []⟩ := by
    rw [handleDictReset, get_bind, hrelayed, ofOption_some_bind]
    simp only
    rw [show Codec.decodeDictReset C opened.1 opened.2 = some reset from hreset,
      ofOption_some_bind]
    show (⟨some (), applyDictReset me reset.targetId s, []⟩ : Outcome Client Output Unit) = _
    rw [applyDictReset, if_pos htarget]
  have hdispatch : dispatch C me buf = handleDictReset C me buf := by
    rw [dispatch, htype, ofOption_some_bind]
    rfl
  rw [step_message, if_neg (by rw [hclosed]; exact Bool.false_ne_true), handleMessage,
    attempt_bind, hdispatch, hhandle]
  rfl

/-! ### A reset on the wire -/

/-- The sender founds a group of three. -/
def foundingEvents : List Event := [.message (sumMemberInfo 5 1 true [1, 2, 3])]

/-- The Dict-Reset of the sender's stream that the third member broadcasts. -/
def thirdReset : Buffer :=
  signControlFrame sumCrypto
    ((Codec.encodeDictReset sumCrypto
      { type := TYPE_DICT_RESET, convId := 5, senderId := 3, targetId := 1 }
      (((stateAfter sumCrypto (sumIdentity 1) foundingEvents).getCurrentKey 5).getD [])
      (Buffer.alloc 12)).getD []) (sumPairwise 3 9)

end DartProtocol
