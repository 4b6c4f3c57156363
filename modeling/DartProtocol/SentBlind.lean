import DartProtocol.PairedPrograms
import DartProtocol.ClientHandle

/-!
# Where the client looks at what it sent

`sentMessages` is read by `sendData` and by the answer to a NACK, and emptied by a Dict-Reset that
targets the client.  Everything else — sharing keys and chains, the SYNC, ACK and NACK frames, and the
whole receiving side, as long as no Data dart names the client itself as its sender — behaves the same
whatever is stored there.  The lemmas follow the text of each function.
-/

namespace DartProtocol

open Prog

/-- The same client with another history of sent darts. -/
def Client.withSent (h : NumMap DataDart) (s : Client) : Client := { s with sentMessages := h }

variable (C : Crypto) (me : Identity) (h : NumMap DataDart)

/-- The program neither reads nor writes `sentMessages`. -/
abbrev SentBlind {α : Type} (m : ClientProg α) : Prop := Commutes (Client.withSent h) m

/-! ### Sending frames -/

theorem randomBytes_blind (n : ℕ) : SentBlind h (randomBytes me n) := by
  unfold randomBytes
  refine .get_bind (fun _ => rfl) fun s => ?_
  exact .bind (.modify fun _ => rfl) fun _ => .pure _

theorem broadcast_blind (buf : Buffer) : SentBlind h (broadcast buf) := by
  unfold broadcast
  refine .get_bind (fun _ => rfl) fun s => ?_
  refine .ite (.pure _) ?_
  refine .ite ?_ (.emit _)
  exact .ofOption_bind fun _ => .emit _

theorem sendControl_blind (convId : ℕ) {peer : Client → Option Buffer}
    (hpeer : ∀ s : Client, peer (s.withSent h) = peer s) (encode : Buffer → Buffer → Option Buffer) :
    SentBlind h (sendControl C me convId peer encode) := by
  unfold sendControl
  refine .get_bind (fun s => ?_) fun s => ?_
  · rw [hpeer]
    rfl
  · split
    · refine .bind (randomBytes_blind me h 12) fun nonce => ?_
      refine .ofOption_bind fun buf => ?_
      exact .ofOption_bind fun macKey => broadcast_blind h _
    · exact .pure _

theorem sendSync_blind (convId : ℕ) : SentBlind h (sendSync C me convId) := by
  unfold sendSync
  refine .get_bind (fun _ => rfl) fun s => ?_
  exact .ite (.pure _) (sendControl_blind C me h convId (fun _ => rfl) _)

theorem nackMissing_blind (convId senderId : ℕ) (missing : List ℕ) :
    SentBlind h (nackMissing C me convId senderId missing) := by
  unfold nackMissing
  refine .ite (.pure _) ?_
  refine .bind (sendControl_blind C me h convId (fun _ => rfl) _) fun _ => ?_
  refine .modify fun s => ?_
  show (if s.nackRetryTimers.has senderId then s.withSent h else _) = _
  split <;> rfl

theorem runProbe_blind (convId : ℕ) : SentBlind h (runProbe C me convId) := by
  unfold runProbe
  refine .bind (sendSync_blind C me h convId) fun _ => ?_
  refine .get_bind (fun _ => rfl) fun s => ?_
  exact .ite (.modify fun _ => rfl) (.pure _)

theorem runNackRetry_blind (convId senderId : ℕ) : SentBlind h (runNackRetry C me convId senderId) := by
  unfold runNackRetry
  refine .get_bind (fun _ => rfl) fun s => ?_
  split
  · exact nackMissing_blind C me h _ _ _
  · exact .pure _

theorem sendKeyReq_blind (convId : ℕ) : SentBlind h (sendKeyReq C me convId) := by
  unfold sendKeyReq
  refine .bind (randomBytes_blind me h 16) fun reqNonce => ?_
  exact .ofOption_bind fun buf => broadcast_blind h buf

/-! ### Keys and chains -/

theorem sendKeyShare_blind (convId epoch : ℕ) (key : Buffer) (roster : NumMap Buffer) (mId : ℕ) :
    SentBlind h (sendKeyShare C me convId epoch key roster mId) := by
  unfold sendKeyShare
  refine .ofOption_bind fun targetPubKey => ?_
  refine .ofOption_bind fun transportKey => ?_
  refine .bind (randomBytes_blind me h 12) fun nonce => ?_
  exact .ofOption_bind fun buf => broadcast_blind h buf

theorem shareWithNewMembers_blind (convId : ℕ) : SentBlind h (shareWithNewMembers C me convId) := by
  unfold shareWithNewMembers
  refine .get_bind (fun _ => rfl) fun s => ?_
  split
  · exact .pure _
  · split
    · exact .pure _
    · refine .bind (.modify fun _ => rfl) fun _ => ?_
      refine .ite (.pure _) ?_
      refine .bind (.forEach (fun mId => ?_) _) fun _ => ?_
      · exact sendKeyShare_blind C me h _ _ _ _ mId
      · exact .modify fun _ => rfl

theorem sendChainShare_blind (convId epoch targetId : ℕ) (chain : ChainState) :
    SentBlind h (sendChainShare C me convId epoch targetId chain) := by
  unfold sendChainShare
  refine .get_bind (fun _ => rfl) fun s => ?_
  split
  · exact .pure _
  · refine .ofOption_bind fun transportKey => ?_
    refine .bind (randomBytes_blind me h 12) fun nonce => ?_
    refine .ofOption_bind fun buf => ?_
    exact .bind (.emit _) fun _ => broadcast_blind h buf

theorem shareChainWithMembers_blind (convId epoch : ℕ) :
    SentBlind h (shareChainWithMembers C me convId epoch) := by
  unfold shareChainWithMembers
  refine .get_bind (fun _ => rfl) fun s => ?_
  split
  · refine .bind (.modify fun _ => rfl) fun _ => ?_
    refine .ite (.pure _) ?_
    refine .bind (.forEach (fun mId => ?_) _) fun _ => ?_
    · exact sendChainShare_blind C me h _ _ mId _
    · exact .modify fun _ => rfl
  · exact .pure _

theorem adoptKey_blind (convId epoch : ℕ) (key : Buffer) :
    SentBlind h (adoptKey C me convId epoch key) := by
  refine .bind (.modify fun _ => rfl) fun _ => ?_
  refine .bind (shareWithNewMembers_blind C me h convId) fun _ => ?_
  refine .bind ?_ fun _ => .modify fun _ => rfl
  refine .bind (randomBytes_blind me h 32) fun seed => ?_
  refine .bind (.modify fun _ => rfl) fun _ => ?_
  exact .bind (.emit _) fun _ => shareChainWithMembers_blind C me h convId epoch

theorem rekey_blind (convId : ℕ) : SentBlind h (rekey C me convId) := by
  unfold rekey
  refine .get_bind (fun _ => rfl) fun s => ?_
  refine .ite ?_ (.pure _)
  refine .bind (randomBytes_blind me h 32) fun key => ?_
  refine .bind (adoptKey_blind C me h _ _ _) fun _ => ?_
  refine .modify fun s => ?_
  have hkeys : (s.withSent h).roomKeys = s.roomKeys := rfl
  simp only [pruneEpochs, hkeys]
  cases s.roomKeys.get convId <;> rfl

theorem afterRoster_blind (info : MemberInfo) (prevCreator : Bool) :
    SentBlind h (afterRoster C me info prevCreator) := by
  unfold afterRoster foundOrShare rotateIfElected
  refine .get_bind (fun _ => rfl) fun s => ?_
  refine .bind ?_ fun _ => .bind ?_ fun _ => ?_
  · refine .ite ?_ (.ite (shareWithNewMembers_blind C me h _) (.pure _))
    exact .bind (randomBytes_blind me h 32) fun key => adoptKey_blind C me h _ _ key
  · exact .ite (rekey_blind C me h _) (.pure _)
  · refine .get_bind (fun _ => rfl) fun s => ?_
    refine .bind (shareChainWithMembers_blind C me h _ _) fun _ => ?_
    exact .modify fun _ => rfl

theorem handleMemberInfo_blind (buf : Buffer) : SentBlind h (handleMemberInfo C me buf) := by
  unfold handleMemberInfo
  refine .get_bind (fun _ => rfl) fun s => ?_
  refine .ofOption_bind fun opened => ?_
  split
  · exact .pure _
  · refine .bind (.modify fun _ => rfl) fun _ => ?_
    exact afterRoster_blind C me h _ _

theorem handleKeyShare_blind (buf : Buffer) : SentBlind h (handleKeyShare C me buf) := by
  unfold handleKeyShare
  refine .get_bind (fun _ => rfl) fun s => ?_
  refine .ofOption_bind fun opened => ?_
  split
  · exact .pure _
  · split
    · exact .pure _
    · exact .ite (adoptKey_blind C me h _ _ _) (.pure _)

theorem handleChainShare_blind (buf : Buffer) : SentBlind h (handleChainShare C me buf) := by
  unfold handleChainShare
  refine .get_bind (fun _ => rfl) fun s => ?_
  refine .ofOption_bind fun opened => ?_
  split
  · exact .pure _
  · split
    · exact .pure _
    · exact .modify fun _ => rfl

theorem reshareSeed_blind (convId targetId : ℕ) : SentBlind h (reshareSeed C me convId targetId) := by
  unfold reshareSeed
  refine .get_bind (fun _ => rfl) fun s => ?_
  simp only
  split
  · exact .pure _
  · exact sendChainShare_blind C me h _ _ _ _

theorem runShareRetry_blind (retry : ShareRetry) : SentBlind h (runShareRetry C me retry) := by
  cases retry with
  | key convId epoch key targets roster =>
    exact .forEach (fun mId => sendKeyShare_blind C me h _ _ _ _ mId) _
  | chain convId epoch targets chain =>
    exact .forEach (fun mId => sendChainShare_blind C me h _ _ mId _) _

/-! ### Receiving -/

theorem openData_withSent (s : Client) (buf : Buffer) (senderId : ℕ) :
    openData C (s.withSent h) buf senderId
      = (openData C s buf senderId).map fun o => o.map fun r => (r.1, r.2.withSent h) := by
  simp only [openData, Option.bind_eq_bind]
  cases buf.readUInt16BE 21 with
  | none => rfl
  | some epoch =>
    cases buf.readUInt32BE 27 with
    | none => rfl
    | some idx =>
      cases buf.readUInt16BE 1 with
      | none => rfl
      | some convId =>
        simp only [Option.bind_some]
        have hchain : (s.withSent h).getChain = s.getChain := rfl
        rw [hchain]
        cases s.getChain convId epoch senderId with
        | none => rfl
        | some chain =>
          simp only
          split
          · rfl
          · cases Codec.decryptData C buf (advanceChain C chain idx).1 <;> rfl

theorem decryptDataInOrder_blind (buf : Buffer) (senderId : ℕ) :
    SentBlind h (decryptDataInOrder C buf senderId) := by
  intro s
  rw [decryptDataInOrder_run, decryptDataInOrder_run, openData_withSent]
  rcases openData C s buf senderId with _ | _ | ⟨dec, s'⟩ <;> rfl

theorem clearReceived_withSent (senderId : ℕ) (s : Client) :
    clearReceived senderId (s.withSent h) = (clearReceived senderId s).withSent h := by
  show (if s.receivedMessages.has senderId then _ else s.withSent h) = _
  unfold clearReceived
  split <;> rfl

theorem storeReceived_withSent (dart : DataDart) (s : Client) :
    storeReceived dart (s.withSent h) = (storeReceived dart s).withSent h := by
  have hreceived : (s.withSent h).receivedMessages = s.receivedMessages := rfl
  simp only [storeReceived, pruneReceived, hreceived]
  cases (set₂ s.receivedMessages dart.senderId dart.seq dart).get dart.senderId <;> rfl

section Received

variable {senderId : ℕ} (hne : senderId ≠ me.senderId)
include hne

/-- The dictionary of another sender's stream is built from what was received. -/
theorem getDictionary_withSent (s : Client) (maxSeq : ℕ) :
    getDictionary me (s.withSent h) senderId maxSeq = getDictionary me s senderId maxSeq := by
  rw [getDictionary, getDictionary, historyOf, historyOf, if_neg hne, if_neg hne]
  rfl

theorem processDataPacket_blind (dec : DecryptedData) (seq : ℕ) :
    SentBlind h (processDataPacket C me dec senderId seq) := by
  unfold processDataPacket
  refine .get_bind (fun s => ?_) fun s => ?_
  · rw [getDictionary_withSent me h hne]
    rfl
  · refine .bind (.emit _) fun _ => ?_
    refine .ite ?_ ?_
    · refine .bind (.modify (clearReceived_withSent h _)) fun _ => ?_
      exact sendControl_blind C me h _ (fun _ => rfl) _
    · split
      · exact .pure _
      · refine .ite (.pure _) ?_
        refine .bind (.modify (storeReceived_withSent h _)) fun _ => ?_
        exact .emit _

theorem processBuffered_blind (raw : Buffer) (nextSeq : ℕ) :
    SentBlind h (processBuffered C me raw senderId nextSeq) := by
  unfold processBuffered
  refine .bind (decryptDataInOrder_blind C h raw senderId) fun dec => ?_
  split
  · exact .pure _
  · exact .ite (processDataPacket_blind C me h hne _ _) (.pure _)

theorem drainBuffer_blind (turns nextSeq : ℕ) :
    SentBlind h (drainBuffer C me senderId turns nextSeq) := by
  induction turns generalizing nextSeq with
  | zero => exact .pure _
  | succ turns ih =>
    refine .get_bind (fun _ => rfl) fun s => ?_
    split
    · exact .pure _
    · refine .bind (.modify fun s => ?_) fun _ => ?_
      · have hbuffer : (s.withSent h).outOfOrderBuffer = s.outOfOrderBuffer := rfl
        simp only [unbuffer, hbuffer]
        cases s.outOfOrderBuffer.get senderId <;> rfl
      · refine .bind (.attempt ?_) fun _ => ih _
        exact processBuffered_blind C me h hne _ _

theorem processBufferedPackets_blind : SentBlind h (processBufferedPackets C me senderId) := by
  unfold processBufferedPackets
  refine .get_bind (fun _ => rfl) fun s => ?_
  split
  · exact .pure _
  · exact drainBuffer_blind C me h hne _ _

theorem routeData_blind (buf : Buffer) (convId seq : ℕ) :
    SentBlind h (routeData C me buf convId senderId seq) := by
  unfold routeData bufferAhead acceptNext
  refine .get_bind (fun _ => rfl) fun s => ?_
  refine .ite (.pure _) (.ite ?_ ?_)
  · refine .bind (.modify fun _ => rfl) fun _ => ?_
    exact .get_bind (fun _ => rfl) fun s => nackMissing_blind C me h _ _ _
  · refine .bind (decryptDataInOrder_blind C h buf senderId) fun dec => ?_
    split
    · exact .pure _
    · refine .bind (processDataPacket_blind C me h hne _ _) fun _ => ?_
      exact processBufferedPackets_blind C me h hne

end Received

theorem noteSeen_withSent (s : Client) (senderId seq : ℕ) :
    (s.withSent h).noteSeen senderId seq = (s.noteSeen senderId seq).withSent h := by
  have hseen : (s.withSent h).seenSeq = s.seenSeq := rfl
  simp only [Client.noteSeen, hseen]
  split
  · rfl
  · split <;> rfl

theorem handleData_blind {buf : Buffer} (hne : buf.readUInt16BE 7 ≠ some me.senderId) :
    SentBlind h (handleData C me buf) := by
  unfold handleData
  refine .ofOption_bind fun convId => ?_
  refine .ofOption_bind fun seq => ?_
  refine .ofOption_bind fun extLen => ?_
  refine .ite (.pure _) ?_
  cases hid : buf.readUInt16BE 7 with
  | none => exact .throw
  | some senderId =>
    have hne' : senderId ≠ me.senderId := fun heq => hne (by rw [hid, heq])
    rw [ofOption_some_bind]
    refine .bind (.modify fun s => noteSeen_withSent h s _ _) fun _ => ?_
    exact routeData_blind C me h hne' _ _ _

theorem handleSync_blind (buf : Buffer) : SentBlind h (handleSync C me buf) := by
  unfold handleSync
  refine .get_bind (fun _ => rfl) fun s => ?_
  refine .ofOption_bind fun opened => ?_
  split
  · exact .pure _
  · refine .ofOption_bind fun sync => ?_
    refine .bind (.modify fun s => noteSeen_withSent h s _ _) fun _ => ?_
    refine .get_bind (fun _ => rfl) fun s => ?_
    refine .ite ?_ (.pure _)
    refine .bind (.modify fun s => ?_) fun _ => ?_
    · show (if s.receivedMessages.has sync.senderId then s.withSent h else _)
        = (ensureReceived sync.senderId s).withSent h
      unfold ensureReceived
      split <;> rfl
    · exact .get_bind (fun _ => rfl) fun s => nackMissing_blind C me h _ _ _

theorem handleAck_blind (buf : Buffer) : SentBlind h (handleAck C me buf) := by
  unfold handleAck
  refine .get_bind (fun _ => rfl) fun s => ?_
  refine .ofOption_bind fun opened => ?_
  split
  · exact .pure _
  · split
    · exact .pure _
    · refine .ofOption_bind fun ack => ?_
      exact .ite (.modify fun _ => rfl) (.pure _)

/-! ### Timers -/

theorem fire_blind {α : Type} {pending : Client → Option α} {clear : Client → Client}
    {callback : α → ClientProg Unit} (hpending : ∀ s : Client, pending (s.withSent h) = pending s)
    (hclear : ∀ s : Client, clear (s.withSent h) = (clear s).withSent h)
    (hcall : ∀ a, SentBlind h (callback a)) : SentBlind h (fire pending clear callback) := by
  unfold fire
  refine .get_bind (fun s => by rw [hpending]) fun s => ?_
  split
  · exact .pure _
  · exact .bind (.modify hclear) fun _ => hcall _

/-- **Every event but three.**  A send, a NACK and a Dict-Reset aside, an event does the same whatever
the client has stored of its own darts. -/
theorem step_blind {e : Event} (hsend : ∀ c p, e ≠ .sendData c p) (hmsg : ∀ buf, e ≠ .message buf) :
    SentBlind h (step C me e) := by
  cases e with
  | sendData c p => exact absurd rfl (hsend c p)
  | message buf => exact absurd rfl (hmsg buf)
  | joinConversation convId =>
    exact .bind (sendKeyReq_blind C me h convId) fun _ => .modify fun _ => rfl
  | shareTimer i =>
    exact fire_blind h (fun _ => rfl) (fun _ => rfl) fun retry => runShareRetry_blind C me h retry
  | joinTimer i =>
    exact fire_blind h (fun _ => rfl) (fun _ => rfl) fun convId => sendKeyReq_blind C me h convId
  | rekeyTimer => exact fire_blind h (fun _ => rfl) (fun _ => rfl) fun convId => rekey_blind C me h convId
  | probeTimer =>
    exact fire_blind h (fun _ => rfl) (fun _ => rfl) fun convId => runProbe_blind C me h convId
  | nackRetryTimer senderId =>
    exact fire_blind h (fun _ => rfl) (fun _ => rfl) fun convId =>
      runNackRetry_blind C me h convId senderId
  | ackTimer senderId =>
    exact fire_blind h (fun _ => rfl) (fun _ => rfl) fun _ => sendControl_blind C me h _ (fun _ => rfl) _
  | optimisticTimer seq =>
    exact fire_blind h (fun _ => rfl) (fun _ => rfl) fun _ => .modify fun _ => rfl
  | addPeer peer => exact .modify fun _ => rfl
  | setServerFingerprint fp => exact .modify fun _ => rfl
  | enableFallback =>
    refine .modify fun s => ?_
    show (if s.useFallback then s.withSent h else _) = _
    split <;> rfl
  | disableFallback => exact .modify fun _ => rfl
  | close => exact .modify fun _ => rfl

end DartProtocol
