import DartProtocol.BoundedMemory
import DartProtocol.RustClient

/-!
# The sequence numbers of the Rust client

A typed text takes the next number and moves the counter on in 24 bits, a join announcement by a plain
addition.

* `Numbers.Ok`, `Keeps` — the invariant, kept unless an announcement takes the last number;
* `numbers_in_range` — what follows for every run.
-/

namespace DartProtocol.RustClient

open Prog InsertionMap

structure Numbers where
  next : ℕ
  highest : ℕ
  sent : NumMap RustCodec.DataDart

@[grind] def ClientState.numbers (s : ClientState) : Numbers :=
  ⟨s.nextSeq, s.highestSentSeq, s.sentMessages⟩

/-- Everything is in range, and the sent darts lie in the window, each under its own number. -/
structure Numbers.Ok (n : Numbers) : Prop where
  next : n.next < SEQ_MOD
  highest : n.highest < SEQ_MOD
  sent : ∀ seq dart, n.sent.get seq = some dart →
    dart.seq = seq ∧ seq < SEQ_MOD ∧ inWindow n.highest seq = true

def Keeps (s : ClientState) (os : List Output) (t : ClientState) : Prop :=
  .announced (SEQ_MOD - 1) ∉ os → s.numbers.Ok → t.numbers.Ok

theorem keeps_comp : Composable Keeps where
  refl _ _ hs := hs
  trans h h' hlast hs := by
    rw [List.mem_append, not_or] at hlast
    exact h' hlast.2 (h hlast.1 hs)

/-! ### Rules -/

variable {C : Crypto} {L : Setup} {me : Identity} {α β : Type}

abbrev Safe (m : RustProg α) : Prop := Obeys Keeps m

@[grind ←] theorem safe_pure (a : α) : Safe (pure a) := .pure keeps_comp a

@[grind ←] theorem safe_bind {m : RustProg α} {f : α → RustProg β} (hm : Safe m)
    (hf : ∀ a, Safe (f a)) : Safe (m >>= f) := .bind keeps_comp hm hf

@[grind ←] theorem safe_get : Safe Prog.get := keeps_comp.refl

@[grind ←] theorem safe_ofOption (o : Option α) : Safe (ofOption o) := .ofOption keeps_comp o

@[grind ←] theorem safe_modify {f : ClientState → ClientState} (h : ∀ s, (f s).numbers = s.numbers) :
    Safe (Prog.modify f) := fun s _ hs => (h s).symm ▸ hs

@[grind ←] theorem safe_emit {o : Output} (_ : ∀ seq, o ≠ .announced seq) : Safe (emit o) :=
  fun _ _ hs => hs

@[grind ←] theorem safe_forEach {f : β → RustProg Unit} (h : ∀ b, Safe (f b)) (bs : List β) :
    Safe (forEach f bs) := .forEach keeps_comp fun b _ => h b

@[grind ←] theorem safe_attempt {m : RustProg α} (h : Safe m) : Safe (attempt m) := .attempt h

/-! ### Frames and shares -/

@[grind ←] theorem randomBytes_safe (n : ℕ) : Safe (randomBytes me n) := by
  grind [randomBytes]

@[grind ←] theorem send_safe (buf : Buffer) : Safe (send buf) := by
  grind [send]

@[grind ←] theorem sendOk_safe (buf : Option Buffer) : Safe (sendOk buf) := by
  cases buf with
  | none => exact safe_pure _
  | some buf => exact send_safe buf

@[grind ←] theorem sendThrice_safe (bufs : List Buffer) : Safe (sendThrice bufs) := by
  grind [sendThrice]

@[grind ←] theorem sendToMember_safe (after convId targetId : ℕ)
    (encode : Buffer → Option (Option Buffer)) :
    Safe (sendToMember C me after convId targetId encode) := by
  grind [sendToMember]

@[grind ←] theorem sendNack_safe (convId targetId : ℕ) (missing : List ℕ) :
    Safe (sendNack C me convId targetId missing) := by
  grind [sendNack]

@[grind ←] theorem sendAck_safe (convId targetId seq : ℕ) :
    Safe (sendAck C me convId targetId seq) := by
  grind [sendAck]

@[grind ←] theorem sendSync_safe : Safe (sendSync C me) := by
  grind [sendSync]

@[grind ←] theorem sendLossReset_safe (convId targetId : ℕ) :
    Safe (sendLossReset C me convId targetId) := by
  grind [sendLossReset]

@[grind ←] theorem sendDesyncReset_safe (convId targetId : ℕ) :
    Safe (sendDesyncReset C me convId targetId) := by
  grind [sendDesyncReset]

@[grind ←] theorem buildKeyShare_safe (convId epoch : ℕ) (key : Buffer) (roster : NumMap Buffer)
    (mId : ℕ) : Safe (buildKeyShare C me convId epoch key roster mId) := by
  grind [buildKeyShare]

@[grind ←] theorem buildChainShare_safe (convId epoch targetId : ℕ) (targetPub : Option Buffer)
    (chain : ChainState) : Safe (buildChainShare C me convId epoch targetId targetPub chain) := by
  grind [buildChainShare]

@[grind ←] theorem buildAll_safe {build : ℕ → RustProg (Option Buffer)} (h : ∀ m, Safe (build m))
    (ms : List ℕ) : Safe (buildAll build ms) := by
  induction ms with
  | nil => exact safe_pure []
  | cons m ms ih => exact safe_bind (h m) fun _ => safe_bind ih fun _ => safe_pure _

@[grind ←] theorem shareWithNewMembers_safe (convId : ℕ) :
    Safe (shareWithNewMembers C me convId) := by
  refine safe_bind safe_get fun s => ?_
  split
  · refine safe_bind (safe_modify fun _ => rfl) fun _ => .ite (safe_pure _) ?_
    exact safe_bind (buildAll_safe (buildKeyShare_safe _ _ _ _) _) sendThrice_safe
  · exact safe_pure _

@[grind ←] theorem shareChainWithMembers_safe (convId epoch : ℕ) :
    Safe (shareChainWithMembers C me convId epoch) := by
  refine safe_bind safe_get fun s => ?_
  split
  · refine safe_bind (safe_modify fun _ => rfl) fun _ => .ite (safe_pure _) ?_
    exact safe_bind (buildAll_safe (fun m => buildChainShare_safe _ _ m _ _) _) sendThrice_safe
  · exact safe_pure _

@[grind ←] theorem initOwnChain_safe (convId epoch : ℕ) : Safe (initOwnChain C me convId epoch) := by
  grind [initOwnChain, startChain, ClientState.setChain]

/-! ### New darts -/

@[grind ←] theorem sendStep_safe (convId : ℕ) : Safe (sendStep C L me convId) := by
  refine safe_bind safe_get fun s => ?_
  dsimp only
  split
  · exact safe_pure _
  · refine safe_bind (safe_ofOption _) fun advanced => ?_
    exact safe_bind (safe_modify fun _ => rfl) fun _ => safe_pure _

@[grind ←] theorem encodeOwn_safe (dart : RustCodec.DataDart) (dict : Buffer) (key : MessageKey) :
    Safe (encodeOwn C L me dart dict key) := by
  refine safe_bind safe_get fun s => safe_bind (randomBytes_safe 12) fun nonce => ?_
  refine safe_bind (safe_ofOption _) fun buf => ?_
  split
  · exact safe_pure _
  · exact safe_bind (safe_emit fun _ h => by cases h) fun _ => safe_pure _

theorem Numbers.Ok.enter {n : Numbers} (h : n.Ok) {next : ℕ} (hnext : next < SEQ_MOD)
    (dart : RustCodec.DataDart) (hseq : dart.seq < SEQ_MOD) :
    Numbers.Ok ⟨next, dart.seq,
      (n.sent.set dart.seq dart).retain fun seq _ => inWindow dart.seq seq⟩ where
  next := hnext
  highest := hseq
  sent seq d hd := by
    rw [get_retain_eq_some, get_set] at hd
    have := h.sent seq d
    grind

@[grind ←] theorem sendDart_safe (text : String) (key : Buffer) (idx : ℕ) :
    Safe (sendDart C L me text key idx) := by
  intro s
  refine ObeysAt.bind keeps_comp (safe_get s) ?_
  rintro _ ⟨⟩
  refine ObeysAt.bind keeps_comp (fun _ hs => ?_) fun _ _ => (?_ : Safe _) _
  · exact hs.enter (Nat.mod_lt _ (by decide)) ⟨s.roomId, me.senderId, s.nextSeq, text⟩ hs.next
  · grind

@[grind ←] theorem announce_safe (convId epoch : ℕ) : Safe (announce C L me convId epoch) := by
  intro s
  refine ObeysAt.bind keeps_comp (safe_get s) ?_
  rintro _ ⟨⟩
  show ObeysAt Keeps (ofOption (addIn L 32 s.nextSeq 1) >>= _) s
  cases hadd : addIn L 32 s.nextSeq 1 with
  | none => exact keeps_comp.refl s
  | some next =>
    rw [ofOption_some_bind]
    refine ObeysAt.bind keeps_comp (fun hlast hs => ?_) fun _ _ => (?_ : Safe _) _
    · have hseq : s.nextSeq < SEQ_MOD := hs.next
      have hne : SEQ_MOD - 1 ≠ s.nextSeq := fun h => hlast (h ▸ List.mem_cons_self)
      rw [addIn, if_pos (Nat.lt_of_le_of_lt hseq (by decide)), Option.some.injEq] at hadd
      have hnext : next < SEQ_MOD := by omega
      exact hs.enter hnext ⟨convId, me.senderId, s.nextSeq, joinText me⟩ hseq
    · refine safe_bind safe_get fun t => safe_bind (sendStep_safe convId) fun step => ?_
      split
      · exact safe_pure _
      · refine safe_bind (safe_modify fun _ => rfl) fun _ =>
          safe_bind (encodeOwn_safe _ _ _) fun buf => ?_
        grind

@[grind ←] theorem adoptKey_safe (convId epoch : ℕ) (key : Buffer) :
    Safe (adoptKey C L me convId epoch key) := by
  grind [adoptKey, installKey]

@[grind ←] theorem pruneOldEpochs_safe (convId : ℕ) : Safe (pruneOldEpochs L convId) := by
  grind [pruneOldEpochs]

@[grind ←] theorem rekey_safe (convId : ℕ) : Safe (rekey C L me convId) := by
  grind [rekey]

/-! ### Receiving -/

@[grind ←] theorem recover_safe (convId senderId : ℕ) : Safe (recover C me convId senderId) := by
  grind [recover]

@[grind ←] theorem decryptDataInOrder_safe (msg : Buffer) (senderId : ℕ) :
    Safe (decryptDataInOrder C L msg senderId) := by
  refine safe_bind (safe_ofOption _) fun epoch => safe_bind (safe_ofOption _) fun idx => ?_
  refine safe_bind (safe_ofOption _) fun convId => safe_bind safe_get fun s => ?_
  split
  · exact safe_pure _
  · refine .ite (safe_pure _) (safe_bind (safe_ofOption _) fun advanced => ?_)
    refine safe_bind (safe_ofOption _) fun dec => ?_
    split
    · exact safe_pure _
    · exact safe_bind (safe_modify fun _ => rfl) fun _ => safe_pure _

@[grind ←] theorem acceptBuffered_safe (dec : RustCodec.DecryptedData) (senderId seq : ℕ) :
    Safe (acceptBuffered C L me dec senderId seq) := by
  grind [acceptBuffered]

@[grind ←] theorem drainBuffer_safe (senderId turns nextSeq : ℕ) :
    Safe (drainBuffer C L me senderId turns nextSeq) := by
  induction turns generalizing nextSeq with
  | zero => exact safe_pure _
  | succ turns ih =>
    refine safe_bind safe_get fun s => ?_
    split
    · exact safe_pure _
    · refine safe_bind (safe_modify fun t => ?_) fun _ =>
        safe_bind (decryptDataInOrder_safe _ senderId) fun dec => ?_
      · rw [unbuffer]
        split <;> rfl
      · grind

@[grind ←] theorem acceptDart_safe (dart : RustCodec.DataDart) : Safe (acceptDart C L me dart) := by
  refine safe_bind safe_get fun s => safe_bind (safe_modify fun _ => rfl) fun _ => ?_
  refine safe_bind (safe_emit fun _ h => by cases h) fun _ => safe_bind safe_get fun t => ?_
  exact safe_bind (drainBuffer_safe _ _ _) fun _ => sendAck_safe _ _ _

@[grind ←] theorem processDataPacket_safe (dec : RustCodec.DecryptedData) (senderId seq : ℕ) :
    Safe (processDataPacket C L me dec senderId seq) := by
  grind [processDataPacket, pruneReceived, ensureSender]

@[grind ←] theorem askFor_safe (convId senderId i : ℕ) : Safe (askFor C me convId senderId i) := by
  refine safe_bind safe_get fun s => .ite (safe_pure _) ?_
  split
  · exact safe_bind (safe_modify fun _ => rfl) fun _ => safe_pure _
  · refine .ite (safe_bind (safe_bind (safe_modify fun _ => rfl) fun _ => ?_) fun _ => safe_pure _)
      (safe_pure _)
    exact sendLossReset_safe _ _

@[grind ←] theorem missingOf_safe (convId senderId : ℕ) (is : List ℕ) :
    Safe (missingOf C me convId senderId is) := by
  induction is with
  | nil => exact safe_pure _
  | cons i is ih => grind [missingOf]

@[grind ←] theorem nackMissing_safe (convId senderId : ℕ) (missing : List ℕ) :
    Safe (nackMissing C me convId senderId missing) := by
  grind [nackMissing]

@[grind ←] theorem bufferAhead_safe (msg : Buffer) (convId senderId seq ahead : ℕ) :
    Safe (bufferAhead C me msg convId senderId seq ahead) := by
  grind [bufferAhead]

@[grind ←] theorem handleData_safe (msg : Buffer) : Safe (handleData C L me msg) := by
  refine .ite (safe_pure _) (safe_bind (safe_ofOption _) fun extLen => .ite (safe_pure _) ?_)
  refine safe_bind (safe_ofOption _) fun convId => safe_bind (safe_ofOption _) fun seq => ?_
  refine safe_bind (safe_ofOption _) fun senderId => safe_bind safe_get fun s => ?_
  refine .ite (safe_pure _) (.ite (bufferAhead_safe _ _ _ _ _) ?_)
  refine safe_bind (decryptDataInOrder_safe msg senderId) fun dec => ?_
  split
  · exact safe_pure _
  · exact processDataPacket_safe _ _ _

/-! ### Control frames -/

@[grind ←] theorem retransmit_safe (seq : ℕ) : Safe (retransmit C L me seq) := by
  grind [retransmit]

@[grind ←] theorem reshareSeed_safe (convId targetId : ℕ) :
    Safe (reshareSeed C me convId targetId) := by
  grind [reshareSeed]

@[grind ←] theorem handleNack_safe (msg : Buffer) : Safe (handleNack C L me msg) := by
  refine safe_bind safe_get fun s => safe_bind (safe_ofOption _) fun opened => ?_
  split
  · exact safe_pure _
  · refine safe_bind (safe_ofOption _) fun nack => ?_
    split
    · exact safe_pure _
    · exact safe_bind (safe_forEach retransmit_safe _) fun _ => reshareSeed_safe _ _

@[grind ←] theorem requestSync_safe (sync : RustCodec.SyncDart) : Safe (requestSync C me sync) := by
  grind [requestSync]

@[grind ←] theorem handleSync_safe (msg : Buffer) : Safe (handleSync C me msg) := by
  grind [handleSync]

@[grind ←] theorem handleAck_safe (msg : Buffer) : Safe (handleAck C me msg) := by
  refine safe_bind safe_get fun s => safe_bind (safe_ofOption _) fun opened => ?_
  split
  · exact safe_pure _
  · refine safe_bind (safe_ofOption _) fun ack => ?_
    split
    · exact safe_pure _
    · exact .ite (safe_modify fun _ => rfl) (safe_pure _)

@[grind ←] theorem applyDictReset_safe (targetId : ℕ) :
    Safe (Prog.modify (applyDictReset me targetId)) := by
  intro s _ hs
  rw [modify_run, applyDictReset]
  split
  · exact ⟨hs.next, hs.highest, nofun⟩
  · exact hs

@[grind ←] theorem handleDictReset_safe (msg : Buffer) : Safe (handleDictReset C me msg) := by
  grind [handleDictReset]

@[grind ←] theorem handleChainShare_safe (msg : Buffer) : Safe (handleChainShare C me msg) := by
  refine safe_bind safe_get fun s => safe_bind (safe_ofOption _) fun opened => ?_
  split
  · exact safe_pure _
  · refine safe_bind (safe_ofOption _) fun decoded => ?_
    split
    · exact safe_pure _
    · exact safe_modify fun _ => rfl

@[grind ←] theorem handleKeyShare_safe (msg : Buffer) : Safe (handleKeyShare C L me msg) := by
  refine safe_bind safe_get fun s => safe_bind (safe_ofOption _) fun opened => ?_
  split
  · exact safe_pure _
  · refine safe_bind (safe_ofOption _) fun share => ?_
    split
    · exact safe_pure _
    · exact .ite (adoptKey_safe _ _ _) (safe_pure _)

@[grind ←] theorem afterRoster_safe (info : RustCodec.MemberInfo) (prevCreator : Bool) :
    Safe (afterRoster C L me info prevCreator) := by
  grind [afterRoster]

@[grind ←] theorem handleMemberInfo_safe (msg : Buffer) : Safe (handleMemberInfo C L me msg) := by
  unfold handleMemberInfo
  split
  · exact safe_pure _
  · refine safe_bind safe_get fun s => .ite (safe_pure _) ?_
    split
    · exact safe_pure _
    · refine safe_bind (safe_ofOption _) fun info => ?_
      split
      · exact safe_pure _
      · exact safe_bind (safe_modify fun _ => rfl) fun _ => afterRoster_safe _ _

/-! ### Steps and runs -/

@[grind ←] theorem processMessageInner_safe (msg : Buffer) : Safe (processMessageInner C L me msg) := by
  grind [processMessageInner]

@[grind ←] theorem handleMessage_safe (msg : Buffer) : Safe (handleMessage C L me msg) := by
  grind [handleMessage]

@[grind ←] theorem sendText_safe (text : String) : Safe (sendText C L me text) := by
  grind [sendText]

@[grind ←] theorem joinRoom_safe (roomId : ℕ) : Safe (joinRoom C me roomId) := by
  grind [joinRoom, keyReq]

@[grind ←] theorem mainTask_safe {m : RustProg Unit} (hm : Safe m) : Safe (mainTask m) := by
  grind [mainTask]

@[grind ←] theorem rotate_safe : Safe (rotate C L me) := by
  grind [rotate]

@[grind ←] theorem probeTurn_safe (p : Probe) : Safe (probeTurn C me p) := by
  cases p <;> grind [probeTurn]

theorem step_safe (e : Event) : Safe (step C L me e) := by
  refine safe_bind safe_get fun s => .ite (safe_pure _) ?_
  cases e with
  | text line => exact mainTask_safe (sendText_safe line)
  | joinRoom roomId => exact mainTask_safe (joinRoom_safe roomId)
  | message msg => exact handleMessage_safe msg
  | rotate =>
    refine safe_bind safe_get fun s =>
      .ite (safe_bind (safe_attempt rotate_safe) fun done => ?_) (safe_pure _)
    exact .ite (safe_modify fun _ => rfl) (safe_pure _)
  | probe i =>
    refine safe_bind safe_get fun s => ?_
    split
    · exact safe_pure _
    · refine safe_bind (safe_modify fun _ => rfl) fun _ => safe_bind (probeTurn_safe _) fun next => ?_
      exact safe_modify fun _ => rfl
  | tick ns => exact safe_modify fun _ => rfl

/-- **Numbers stay in range** in every run in which no announcement takes the last number, and the sent
history is bounded. -/
theorem numbers_in_range (C : Crypto) (L : Setup) (me : Identity) (fp : String) (es : List Event)
    (hlast : .announced (SEQ_MOD - 1) ∉ (run C L me fp es).output) :
    (stateAfter C L me fp es).numbers.Ok ∧
      (stateAfter C L me fp es).sentMessages.size ≤ DICT_WINDOW + 17 := by
  have hok : (stateAfter C L me fp es).numbers.Ok :=
    Obeys.eventLoop keeps_comp (fun e _ => step_safe e) _ hlast
      ⟨(by decide : 1 < SEQ_MOD), (by decide : 0 < SEQ_MOD), nofun⟩
  refine ⟨hok, size_le_of_within hok.highest fun seq hseq => ?_⟩
  obtain ⟨dart, hdart⟩ := mem_keys_iff.mp hseq
  obtain ⟨-, hlt, hin⟩ := hok.sent seq dart hdart
  exact ⟨hlt, of_decide_eq_true hin⟩

/-- A founder that has announced itself. -/
theorem founder_in_range :
    let es : List Event := [.joinRoom 5, .message (sumMemberInfo 5 1 true [1])]
    (stateAfter sumCrypto sumSetup (sumIdentity 1) "" es).nextSeq = 2 ∧
      (stateAfter sumCrypto sumSetup (sumIdentity 1) "" es).numbers.Ok :=
  ⟨by decide +kernel,
    (numbers_in_range sumCrypto sumSetup (sumIdentity 1) "" _ (by decide +kernel)).1⟩

end DartProtocol.RustClient
