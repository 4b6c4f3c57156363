import DartProtocol.GoClient

/-!
# What a step of the Go client does to the group keys

Keys and epochs change at two places, `adoptKey` and `pruneOldEpochs`.  Every other function keeps
them, which is one lemma per function (`KeepsEpochs`).  What an adoption runs through never panics,
so a rotation that keeps the lock comes to its end.

`keyChange` reads off an event and the state it meets what becomes of the keys, and `step_keyChange`
says that this is what happens.
-/

namespace DartProtocol.GoClient

open Prog Outcome Slice GoCodec

variable {C : Crypto} {A : ShortAes} {F : Flate} {me : Identity}

/-! ### Functions that return -/

variable {α : Type}

theorem randomBytes_returns (hme : me.Lawful) {n : ℕ} {f : Buffer → Locked α}
    (h : ∀ b : Buffer, b.length = n → Returns (f b)) : Returns (randomBytes me n >>= f) :=
  fun s => h (me.random s.draws n) (hme s.draws n) _

theorem send_returns (buf : Buffer) : Returns (send buf) := by
  apply Returns.get_bind
  intro s
  refine .ite ?_ (.emit _)
  obtain ⟨out, h, hlen⟩ := exists_putUint16 (b := Buffer.alloc (2 + buf.length)) buf.length
    (by decide : 0 + 2 ≤ 2) (by simp [Buffer.alloc])
  have hroom : 2 ≤ out.length := by
    rw [hlen]
    simp [Buffer.alloc]
  obtain ⟨out', h', -⟩ := exists_copyInto buf hroom (le_refl _)
  simp only [h, h', ofOption_some_bind]
  exact .emit _

theorem sendOk_returns (out : Option Buffer) : Returns (sendOk out) := by
  cases out with
  | none => exact .pure _
  | some buf => exact send_returns buf

theorem sealedFrame_isSome {nonce : Buffer} (hnonce : nonce.length = 12) (key header plain : Buffer) :
    (sealedFrame C A key nonce header plain).isSome := by
  rw [sealedFrame, aesSeal, if_pos hnonce]
  split <;> rfl

theorem shareHeader_isSome (type convId senderId targetId epoch : ℕ) (nonce : Buffer) :
    (shareHeader type convId senderId targetId epoch nonce).isSome := by
  have h₀ : ((Buffer.alloc 21).set 0 (UInt8.ofNat type)).length = 21 := by simp [Buffer.alloc]
  obtain ⟨b₁, e₁, h₁⟩ := exists_putUint16 (b := (Buffer.alloc 21).set 0 (UInt8.ofNat type)) convId
    (by decide : 1 + 2 ≤ 3) (by rw [h₀]; decide)
  obtain ⟨b₂, e₂, h₂⟩ := exists_putUint16 (b := b₁) senderId (by decide : 3 + 2 ≤ 5)
    (by rw [h₁, h₀]; decide)
  obtain ⟨b₃, e₃, h₃⟩ := exists_putUint16 (b := b₂) targetId (by decide : 5 + 2 ≤ 7)
    (by rw [h₂, h₁, h₀]; decide)
  obtain ⟨b₄, e₄, h₄⟩ := exists_putUint16 (b := b₃) epoch (by decide : 7 + 2 ≤ 9)
    (by rw [h₃, h₂, h₁, h₀]; decide)
  obtain ⟨b₅, e₅, -⟩ := exists_copyInto (b := b₄) (i := 9) nonce (by rw [h₄, h₃, h₂, h₁, h₀]; decide)
    (le_refl b₄.length)
  simp only [shareHeader, Option.bind_eq_bind, e₁, e₂, e₃, e₄, e₅, Option.bind_some]
  rfl

theorem encodeKeyShare_isSome {share : KeyShareDart} (hnonce : share.nonce.length = 12)
    (key : Buffer) : (encodeKeyShare C A share key).isSome := by
  obtain ⟨header, hheader⟩ := Option.isSome_iff_exists.mp
    (shareHeader_isSome share.type share.convId share.senderId share.targetId share.epoch share.nonce)
  rw [encodeKeyShare, keyShareAAD, hheader]
  exact sealedFrame_isSome hnonce key header share.encryptedKey

theorem encodeChainShare_isSome {share : ChainShareDart} (hnonce : share.nonce.length = 12)
    (key : Buffer) : (encodeChainShare C A share key).isSome := by
  obtain ⟨header, hheader⟩ := Option.isSome_iff_exists.mp
    (shareHeader_isSome share.type share.convId share.senderId share.targetId share.epoch share.nonce)
  obtain ⟨p₁, e₁, h₁⟩ := exists_copyInto (b := Buffer.alloc 36) (i := 0) (j := 32) share.chainKey
    (by decide) (by simp [Buffer.alloc])
  have hput : (putUint32 p₁ 32 36 share.chainIndex).isSome := by
    rw [putUint32, putUintBE, if_pos ⟨by decide, by rw [h₁]; simp [Buffer.alloc]⟩]
    rfl
  obtain ⟨p₂, e₂⟩ := Option.isSome_iff_exists.mp hput
  simp only [encodeChainShare, Option.bind_eq_bind, hheader, e₁, e₂, Option.bind_some]
  exact sealedFrame_isSome hnonce key header p₂

theorem sendKeyShare_returns (hme : me.Lawful) (convId epoch : ℕ) (key : Buffer)
    (roster : NumMap Buffer) (mId : ℕ) :
    Returns (sendKeyShare C A me convId epoch key roster mId) := by
  unfold sendKeyShare
  split
  · exact .pure _
  · refine randomBytes_returns hme fun nonce hnonce => ?_
    exact .bind (.ofOption (encodeKeyShare_isSome hnonce _)) sendOk_returns

theorem shareWithNewMembers_returns (hme : me.Lawful) (convId : ℕ) :
    Returns (shareWithNewMembers C A me convId) := by
  refine .get_bind fun s => ?_
  split
  · exact .pure _
  · refine .modify_bind (.ite (.pure _) ?_)
    refine .bind ?_ fun _ => fun _ => rfl
    exact .forEach fun mId _ => sendKeyShare_returns hme _ _ _ _ mId

theorem sendChainShare_returns (hme : me.Lawful) (convId epoch targetId : ℕ) (chain : ChainState) :
    Returns (sendChainShare C A me convId epoch targetId chain) := by
  refine .get_bind fun s => ?_
  split
  · exact .pure _
  · refine randomBytes_returns hme fun nonce hnonce => ?_
    exact .bind (.ofOption (encodeChainShare_isSome hnonce _)) sendOk_returns

theorem shareChainWithMembers_returns (hme : me.Lawful) (convId epoch : ℕ) :
    Returns (shareChainWithMembers C A me convId epoch) := by
  refine .get_bind fun s => ?_
  split
  · exact .pure _
  · refine .modify_bind (.ite (.pure _) ?_)
    refine .bind ?_ fun _ => fun _ => rfl
    exact .forEach fun mId _ => sendChainShare_returns hme _ _ _ _

theorem initOwnChain_returns (hme : me.Lawful) (convId epoch : ℕ) :
    Returns (initOwnChain C A me convId epoch) :=
  randomBytes_returns hme fun _ _ =>
    Returns.modify_bind (shareChainWithMembers_returns hme convId epoch)

/-! ### Sending and sharing -/

/-- What sending may change: nothing but the random source. -/
structure Sending (R : NativeDartClient → List Output → NativeDartClient → Prop) : Prop where
  comp : Composable R
  emit : ∀ s o, R s [o] s
  draws : ∀ (s : NativeDartClient) n, R s [] { s with draws := n }

/-- Sharing the group key writes marks, sends shares and writes retries. -/
theorem shareWithNewMembers_obeys {R : NativeDartClient → List Output → NativeDartClient → Prop}
    (hcomp : Composable R) (hmarks : ∀ (s : NativeDartClient) f l,
      R s [] { s with sharedWith := f, shareTimers := l })
    (hshare : ∀ convId epoch key roster mId,
      Obeys R (sendKeyShare C A me convId epoch key roster mId)) (convId : ℕ) :
    Obeys R (shareWithNewMembers C A me convId) := by
  refine .get_bind fun s => ?_
  split
  · exact .pure hcomp _
  · refine .bind hcomp (.modify fun t => hmarks t _ _) fun _ => ?_
    refine .ite (.pure hcomp _) ?_
    exact .bind hcomp (.forEach hcomp fun mId _ => hshare _ _ _ _ mId) fun _ =>
      Obeys.modify fun t => hmarks t _ _

theorem shareChainWithMembers_obeys {R : NativeDartClient → List Output → NativeDartClient → Prop}
    (hcomp : Composable R) (hmarks : ∀ (s : NativeDartClient) g l,
      R s [] { s with chainSharedWith := g, shareTimers := l })
    (hshare : ∀ convId epoch mId chain,
      Obeys R (sendChainShare C A me convId epoch mId chain)) (convId epoch : ℕ) :
    Obeys R (shareChainWithMembers C A me convId epoch) := by
  refine .get_bind fun s => ?_
  split
  · exact .pure hcomp _
  · refine .bind hcomp (.modify fun t => hmarks t _ _) fun _ => ?_
    refine .ite (.pure hcomp _) ?_
    exact .bind hcomp (.forEach hcomp fun mId _ => hshare _ _ mId _) fun _ =>
      Obeys.modify fun t => hmarks t _ _

namespace Sending

variable {R : NativeDartClient → List Output → NativeDartClient → Prop} (hR : Sending R)

include hR

theorem ofOption {α β : Type} (o : Option α) {f : α → Locked β} (hf : ∀ a, Obeys R (f a)) :
    Obeys R (ofOption o >>= f) :=
  Obeys.bind hR.comp (.ofOption hR.comp o) hf

theorem randomBytes (n : ℕ) : Obeys R (randomBytes me n) := fun s => hR.draws s _

theorem send (buf : Buffer) : Obeys R (send buf) := by
  refine .get_bind fun s => .ite ?_ (.emit fun t => hR.emit t _)
  exact hR.ofOption _ fun _ => hR.ofOption _ fun _ => .emit fun t => hR.emit t _

theorem sendOk (out : Option Buffer) : Obeys R (sendOk out) := by
  cases out with
  | none => exact .pure hR.comp _
  | some buf => exact hR.send buf

theorem sendKeyShare (convId epoch : ℕ) (key : Buffer) (roster : NumMap Buffer) (mId : ℕ) :
    Obeys R (sendKeyShare C A me convId epoch key roster mId) := by
  unfold GoClient.sendKeyShare
  split
  · exact .pure hR.comp _
  · exact .bind hR.comp (hR.randomBytes 12) fun nonce => hR.ofOption _ hR.sendOk

theorem sendChainShare (convId epoch targetId : ℕ) (chain : ChainState) :
    Obeys R (sendChainShare C A me convId epoch targetId chain) := by
  refine .get_bind fun s => ?_
  split
  · exact .pure hR.comp _
  · exact .bind hR.comp (hR.randomBytes 12) fun nonce => hR.ofOption _ hR.sendOk

theorem shareWithNewMembers (hmarks : ∀ (s : NativeDartClient) f l,
    R s [] { s with sharedWith := f, shareTimers := l }) (convId : ℕ) :
    Obeys R (shareWithNewMembers C A me convId) :=
  shareWithNewMembers_obeys hR.comp hmarks hR.sendKeyShare convId

theorem shareChainWithMembers (hmarks : ∀ (s : NativeDartClient) g l,
    R s [] { s with chainSharedWith := g, shareTimers := l }) (convId epoch : ℕ) :
    Obeys R (shareChainWithMembers C A me convId epoch) :=
  shareChainWithMembers_obeys hR.comp hmarks hR.sendChainShare convId epoch

end Sending

/-! ### Functions that keep the keys -/

/-- The epochs and the group keys by epoch. -/
def NativeDartClient.epochKeys (s : NativeDartClient) := (s.codec.currentEpochs, s.roomKeys)

def KeepsEpochs : NativeDartClient → List Output → NativeDartClient → Prop :=
  fun s _ t => t.epochKeys = s.epochKeys

theorem keepsEpochs_comp : Composable KeepsEpochs :=
  ⟨fun _ => rfl, fun h h' => Eq.trans h' h⟩

/-- A program that keeps the epochs and the keys. -/
abbrev Keeps {α : Type} (m : Locked α) : Prop := Obeys KeepsEpochs m

theorem keeps_pure (a : α) : Keeps (pure a : Locked α) := Obeys.pure keepsEpochs_comp a

theorem keeps_bind {β : Type} {m : Locked α} {f : α → Locked β} (hm : Keeps m)
    (hf : ∀ a, Keeps (f a)) : Keeps (m >>= f) := .bind keepsEpochs_comp hm hf

theorem keeps_get {f : NativeDartClient → Locked α} (hf : ∀ s, Keeps (f s)) :
    Keeps (Prog.get >>= f) := .get_bind hf

theorem keeps_modify {f : NativeDartClient → NativeDartClient}
    (h : ∀ s, (f s).epochKeys = s.epochKeys) : Keeps (Prog.modify f : Locked PUnit) :=
  Obeys.modify h

theorem keeps_ofOption {β : Type} (o : Option α) {f : α → Locked β} (hf : ∀ a, Keeps (f a)) :
    Keeps (ofOption o >>= f) := keeps_bind (.ofOption keepsEpochs_comp o) hf

theorem keeps_forEach {β : Type} {f : β → Locked PUnit} {bs : List β} (hf : ∀ b, Keeps (f b)) :
    Keeps (forEach f bs) := .forEach keepsEpochs_comp fun b _ => hf b

theorem randomBytes_keeps (n : ℕ) : Keeps (randomBytes me n) := fun _ => rfl

theorem keepsEpochs_sending : Sending KeepsEpochs :=
  ⟨keepsEpochs_comp, fun _ _ => rfl, fun _ _ => rfl⟩

theorem send_keeps (buf : Buffer) : Keeps (send buf) := keepsEpochs_sending.send buf

theorem sendOk_keeps (out : Option Buffer) : Keeps (sendOk out) := keepsEpochs_sending.sendOk out

theorem sendSigned_keeps (peerPub : Option Buffer) (encode : Buffer → Option (Option Buffer)) :
    Keeps (sendSigned C me peerPub encode) := by
  refine keeps_bind (randomBytes_keeps 12) fun nonce => keeps_ofOption _ fun buf => ?_
  split
  · exact keeps_pure _
  · split
    · exact keeps_pure _
    · exact send_keeps _

theorem sendSync_keeps (convId : ℕ) : Keeps (sendSync C A me convId) :=
  keeps_get fun _ => .ite (keeps_pure _) (sendSigned_keeps _ _)

theorem sendDictReset_keeps (convId targetId : ℕ) : Keeps (sendDictReset C A me convId targetId) :=
  keeps_get fun _ => sendSigned_keeps _ _

theorem sendData_keeps (roomId : ℕ) (payload : String) : Keeps (sendData C A F me roomId payload) := by
  refine keeps_get fun s => .ite (keeps_pure _) ?_
  refine keeps_bind (keeps_modify fun _ => rfl) fun _ => ?_
  split
  · refine keeps_bind (keeps_modify fun _ => rfl) fun _ => keeps_get fun t => ?_
    refine keeps_bind (randomBytes_keeps 12) fun nonce => keeps_ofOption _ fun buf => ?_
    exact keeps_bind (sendOk_keeps buf) fun _ => keeps_modify fun _ => rfl
  · exact keeps_modify fun _ => rfl

theorem sendKeyShare_keeps (convId epoch : ℕ) (key : Buffer) (roster : NumMap Buffer) (mId : ℕ) :
    Keeps (sendKeyShare C A me convId epoch key roster mId) :=
  keepsEpochs_sending.sendKeyShare convId epoch key roster mId

theorem shareWithNewMembers_keeps (convId : ℕ) : Keeps (shareWithNewMembers C A me convId) :=
  keepsEpochs_sending.shareWithNewMembers (fun _ _ _ => rfl) convId

theorem sendChainShare_keeps (convId epoch targetId : ℕ) (chain : ChainState) :
    Keeps (sendChainShare C A me convId epoch targetId chain) :=
  keepsEpochs_sending.sendChainShare convId epoch targetId chain

theorem shareChainWithMembers_keeps (convId epoch : ℕ) :
    Keeps (shareChainWithMembers C A me convId epoch) :=
  keepsEpochs_sending.shareChainWithMembers (fun _ _ _ => rfl) convId epoch

theorem initOwnChain_keeps (convId epoch : ℕ) : Keeps (initOwnChain C A me convId epoch) :=
  keeps_bind (randomBytes_keeps 32) fun _ =>
    keeps_bind (keeps_modify fun _ => rfl) fun _ => shareChainWithMembers_keeps convId epoch

theorem finishMemberInfo_keeps (convId : ℕ) : Keeps (finishMemberInfo C A me convId) :=
  keeps_get fun _ => keeps_bind (shareChainWithMembers_keeps _ _) fun _ => keeps_modify fun _ => rfl

theorem declarePermanentLoss_keeps (convId senderId lostSeq : ℕ) :
    Keeps (declarePermanentLoss C A me convId senderId lostSeq) :=
  keeps_bind (keeps_modify fun _ => rfl) fun _ => sendDictReset_keeps _ _

theorem recover_keeps (convId senderId : ℕ) : Keeps (recover C A me convId senderId) :=
  keeps_bind (keeps_modify fun _ => rfl) fun _ => sendDictReset_keeps _ _

theorem processDataPacket_keeps (dec : GoCodec.DecryptedData) (senderId seq : ℕ) :
    Keeps (processDataPacket C A F me dec senderId seq) := by
  refine .ite (keeps_pure _) (keeps_get fun s => .ite (recover_keeps _ _) ?_)
  split
  · exact recover_keeps _ _
  · refine keeps_bind (keeps_modify fun t => ?_) fun _ => keeps_get fun t => ?_
    · unfold ensureReceived
      split <;> rfl
    · exact .ite (keeps_pure _) (keeps_modify fun _ => rfl)

theorem decryptDataInOrder_keeps (buf : Buffer) (senderId : ℕ) :
    Keeps (decryptDataInOrder C A buf senderId) := by
  refine keeps_ofOption _ fun epoch => keeps_ofOption _ fun idx => keeps_ofOption _ fun convId => ?_
  refine keeps_get fun s => ?_
  split
  · exact keeps_pure _
  · refine .ite (keeps_pure _) (keeps_ofOption _ fun dec => ?_)
    split
    · exact keeps_pure _
    · exact keeps_bind (keeps_modify fun _ => rfl) fun _ => keeps_pure _

theorem processBuffered_keeps (buf : Buffer) (senderId nextSeq : ℕ) :
    Keeps (processBuffered C A F me buf senderId nextSeq) := by
  refine keeps_bind (decryptDataInOrder_keeps _ _) fun dec => ?_
  split
  · exact keeps_pure _
  · exact .ite (processDataPacket_keeps _ _ _) (keeps_pure _)

theorem drainBuffer_keeps (senderId turns : ℕ) :
    ∀ nextSeq, Keeps (drainBuffer C A F me senderId turns nextSeq) := by
  induction turns with
  | zero => exact fun _ => keeps_pure _
  | succ turns ih =>
    intro nextSeq
    refine keeps_get fun s => ?_
    split
    · exact keeps_pure _
    · refine keeps_bind (keeps_modify fun t => ?_) fun _ => ?_
      · unfold unbuffer
        split <;> rfl
      · exact keeps_bind (processBuffered_keeps _ _ _) fun _ => ih _

theorem processBufferedPackets_keeps (senderId : ℕ) :
    Keeps (processBufferedPackets C A F me senderId) := by
  refine keeps_get fun s => ?_
  split
  · exact keeps_pure _
  · exact drainBuffer_keeps _ _ _

theorem askFor_keeps (convId senderId : ℕ) {after : Locked Unit} (h : Keeps after) (i : ℕ) :
    Keeps (askFor C A me convId senderId after i) := by
  refine keeps_get fun s => .ite (keeps_pure _) ?_
  split
  · exact keeps_bind (keeps_modify fun _ => rfl) fun _ => keeps_pure _
  · refine .ite ?_ (keeps_pure _)
    exact keeps_bind (declarePermanentLoss_keeps _ _ _) fun _ => keeps_bind h fun _ => keeps_pure _

theorem missingOf_keeps {ask : ℕ → Locked Bool} (h : ∀ i, Keeps (ask i)) (is : List ℕ) :
    Keeps (missingOf ask is) := by
  induction is with
  | nil => exact keeps_pure _
  | cons i is ih => exact keeps_bind (h i) fun _ => keeps_bind ih fun _ => keeps_pure _

theorem nackMissing_keeps (convId senderId : ℕ) (missing : List ℕ) :
    Keeps (nackMissing C A me convId senderId missing) :=
  Obeys.ite (keeps_pure _) (keeps_get fun _ => sendSigned_keeps _ _)

theorem handleData_keeps (buf : Buffer) : Keeps (handleData C A F me buf) := by
  refine .ite (keeps_pure _) (keeps_ofOption _ fun extLen => ?_)
  refine .ite (keeps_pure _) ?_
  refine keeps_ofOption _ fun convId => keeps_ofOption _ fun seq => keeps_ofOption _ fun senderId => ?_
  refine keeps_get fun s => .ite (keeps_pure _) (.ite ?_ ?_)
  · refine keeps_get fun t => keeps_bind (keeps_modify fun _ => rfl) fun _ => ?_
    refine keeps_bind (missingOf_keeps (askFor_keeps _ _ (keeps_pure _)) _) fun _ => ?_
    exact nackMissing_keeps _ _ _
  · refine keeps_bind (decryptDataInOrder_keeps _ _) fun dec => ?_
    split
    · exact keeps_pure _
    · exact keeps_bind (processDataPacket_keeps _ _ _) fun _ => processBufferedPackets_keeps _

theorem retransmit_keeps (seq : ℕ) : Keeps (retransmit C A F me seq) := by
  refine keeps_get fun s => ?_
  split
  · refine keeps_bind (randomBytes_keeps 12) fun nonce => keeps_ofOption _ fun buf => ?_
    exact send_keeps _
  · exact keeps_pure _

theorem handleNack_keeps (buf : Buffer) : Keeps (handleNack C A F me buf) := by
  refine keeps_get fun s => keeps_ofOption _ fun opened => ?_
  split
  · exact keeps_pure _
  · refine keeps_ofOption _ fun nack => ?_
    split
    · exact keeps_pure _
    · refine keeps_bind (keeps_forEach retransmit_keeps) fun _ => keeps_get fun t => ?_
      refine .ite (keeps_pure _) ?_
      split
      · exact keeps_pure _
      · exact sendChainShare_keeps _ _ _ _

theorem handleSync_keeps (buf : Buffer) : Keeps (handleSync C A F me buf) := by
  refine keeps_ofOption _ fun stripped => ?_
  split
  · exact keeps_pure _
  · refine keeps_get fun s => keeps_ofOption _ fun sync => ?_
    split
    · exact keeps_pure _
    · refine keeps_get fun t => .ite ?_ (keeps_pure _)
      refine keeps_bind (keeps_modify fun u => ?_) fun _ => ?_
      · unfold ensureReceived
        split <;> rfl
      · refine keeps_bind (missingOf_keeps ?_ _) fun _ => nackMissing_keeps _ _ _
        exact askFor_keeps _ _ (processBufferedPackets_keeps _)

theorem handleAck_keeps (buf : Buffer) : Keeps (handleAck C A me buf) := by
  refine keeps_get fun s => keeps_ofOption _ fun opened => ?_
  split
  · exact keeps_pure _
  · refine keeps_ofOption _ fun ack => ?_
    split
    · exact keeps_pure _
    · exact .ite (keeps_modify fun _ => rfl) (keeps_pure _)

theorem handleDictReset_keeps (buf : Buffer) : Keeps (handleDictReset C A me buf) := by
  refine keeps_ofOption _ fun stripped => ?_
  split
  · exact keeps_pure _
  · refine keeps_get fun s => keeps_ofOption _ fun reset => ?_
    split
    · exact keeps_pure _
    · refine keeps_modify fun t => ?_
      unfold applyDictReset
      split <;> rfl

theorem handleChainShare_keeps (buf : Buffer) : Keeps (handleChainShare C A me buf) := by
  refine keeps_get fun s => keeps_ofOption _ fun opened => ?_
  split
  · exact keeps_pure _
  · refine keeps_ofOption _ fun decoded => ?_
    split
    · exact keeps_pure _
    · exact keeps_modify fun _ => rfl

theorem sendKeyReq_keeps (roomId : ℕ) : Keeps (sendKeyReq C me roomId) :=
  keeps_bind (randomBytes_keeps 16) fun _ => keeps_ofOption _ fun _ => send_keeps _

/-! ### Changes of the keys -/

/-- The current epochs, and the group keys by epoch. -/
abbrev EpochKeys := NumMap ℕ × NumMap (NumMap Buffer)

/-- What an event does to the keys. -/
inductive KeyChange
  /-- A key is entered. -/
  | enter (convId epoch : ℕ) (key : Buffer)
  /-- A key is entered, and the old ones are forgotten. -/
  | rotate (convId epoch : ℕ) (key : Buffer)
  /-- The old keys are forgotten. -/
  | forget (convId : ℕ)
  deriving DecidableEq

def enterKey (convId epoch : ℕ) (key : Buffer) (k : EpochKeys) : EpochKeys :=
  (k.1.set convId epoch, set₂ k.2 convId epoch key)

/-- Is an epoch more than four behind, in 16 bits? -/
def isOld (current epoch : ℕ) : Bool := decide ((epoch + 4) % 2 ^ 16 < current)

def forgetKeys (convId : ℕ) (k : EpochKeys) : EpochKeys :=
  match k.2.get convId with
  | none => k
  | some keys =>
    (k.1, k.2.set convId (keys.retain fun epoch _ => !isOld ((k.1.get convId).getD 0) epoch))

def KeyChange.apply : KeyChange → EpochKeys → EpochKeys
  | .enter convId epoch key => enterKey convId epoch key
  | .rotate convId epoch key => fun k => forgetKeys convId (enterKey convId epoch key k)
  | .forget convId => forgetKeys convId

theorem pruneEpochs_epochKeys (convId : ℕ) (s : NativeDartClient) :
    (pruneEpochs convId s).epochKeys = forgetKeys convId s.epochKeys := by
  rw [pruneEpochs, forgetKeys]
  show _ = match s.roomKeys.get convId with
    | none => _
    | some keys => _
  cases s.roomKeys.get convId <;> rfl

/-- Does forgetting old epochs follow? -/
def Caller.forgets : Caller → Bool
  | .rekey => true
  | .election => true
  | _ => false

/-- A key that is adopted: the goroutine comes to the point where it forgets, unless it gives up the
lock before. -/
def adopting (s : NativeDartClient) (caller : Caller) (convId epoch : ℕ) (key : Buffer) : KeyChange :=
  if s.codec.convKeys.has convId && caller.forgets then .rotate convId epoch key
  else .enter convId epoch key

theorem finishAdopt_epochKeys (hme : me.Lawful) (convId : ℕ) (caller : Caller)
    (s : NativeDartClient) :
    (finishAdopt C A me convId caller s).state.epochKeys
      = if caller.forgets then forgetKeys convId s.epochKeys else s.epochKeys := by
  obtain ⟨u, hu⟩ := Option.isSome_iff_exists.mp
    (shareWithNewMembers_returns (C := C) (A := A) hme convId s)
  have hshare : (shareWithNewMembers C A me convId s).state.epochKeys = s.epochKeys :=
    shareWithNewMembers_keeps convId s
  rw [finishAdopt, bind_of_some hu, scheduleRekey, modify_bind, prepend_state,
    ← hshare]
  obtain ⟨t, ht⟩ : ∃ t, t = { (shareWithNewMembers C A me convId s).state with
    rekeyTimer := some convId } := ⟨_, rfl⟩
  rw [← ht, show (shareWithNewMembers C A me convId s).state.epochKeys = t.epochKeys by rw [ht]; rfl]
  cases caller with
  | keyShare => rfl
  | memberInfo => exact finishMemberInfo_keeps convId t
  | rekey => exact pruneEpochs_epochKeys convId t
  | election =>
    rw [returnTo, pruneOldEpochs, modify_bind]
    have hkeep : (finishMemberInfo C A me convId (pruneEpochs convId t)).state.epochKeys
        = (pruneEpochs convId t).epochKeys := finishMemberInfo_keeps convId _
    rw [hkeep]
    exact pruneEpochs_epochKeys convId t

theorem adoptKey_epochKeys (hme : me.Lawful) (convId epoch : ℕ) (key : Buffer) (caller : Caller)
    (s : NativeDartClient) :
    (adoptKey C A me convId epoch key caller s).state.epochKeys
      = (adopting s caller convId epoch key).apply s.epochKeys := by
  rw [adoptKey, get_bind, modify_bind]
  obtain ⟨t, ht⟩ : ∃ t, t = installKey convId epoch key s := ⟨_, rfl⟩
  have hentered : t.epochKeys = enterKey convId epoch key s.epochKeys := by
    rw [ht]
    rfl
  obtain ⟨u, hu⟩ := Option.isSome_iff_exists.mp
    (initOwnChain_returns (C := C) (A := A) hme convId epoch t)
  have hinit : (initOwnChain C A me convId epoch t).state.epochKeys = t.epochKeys :=
    initOwnChain_keeps convId epoch t
  rw [← ht, bind_of_some hu, prepend_state, adopting]
  cases s.codec.convKeys.has convId with
  | false => exact hinit.trans hentered
  | true =>
    have hfinish := finishAdopt_epochKeys (C := C) (A := A) hme convId caller
      (initOwnChain C A me convId epoch t).state
    rw [hinit, hentered] at hfinish
    refine after_bind (P := fun v : NativeDartClient => v.epochKeys = _) ?_ fun _ v hv => hv
    rw [hfinish]
    cases caller.forgets <;> rfl

/-! ### What an event does -/

/-- A rotation of the creator. -/
def rotation (me : Identity) (convId : ℕ) (caller : Caller) (s : NativeDartClient) :
    Option KeyChange :=
  if s.isCreator.get convId = some true then
    some (adopting s caller convId ((s.sendingEpoch convId + 1) % 2 ^ 16) (me.random s.draws 32))
  else none

/-- A group-key share that is taken over. -/
def keyShareChange (C : Crypto) (A : ShortAes) (me : Identity) (buf : Buffer) (s : NativeDartClient) :
    Option KeyChange :=
  if buf.length < 7 then none
  else do
    let opened ← shareTransportKey C me s buf
    let (convId, transportKey) ← opened
    let share ← decodeKeyShare C A buf transportKey
    let (epoch, key) ← share
    if shouldAdopt s convId epoch key then some (.enter convId epoch key) else none

/-- What follows a roster that was taken over. -/
def foundation (C : Crypto) (A : ShortAes) (me : Identity) (info : MemberInfo) (prevCreator : Bool)
    (s : NativeDartClient) : Option KeyChange :=
  if s.codec.convKeys.has info.convId then
    if info.creator && !prevCreator then
      rotation me info.convId .election (shareWithNewMembers C A me info.convId s).state
    else none
  else if info.creator then some (.enter info.convId 1 (me.random s.draws 32))
  else none

def rosterChange (C : Crypto) (A : ShortAes) (me : Identity) (buf : Buffer) (s : NativeDartClient) :
    Option KeyChange := do
  let serverPub ← memberInfoServerKey buf
  if s.serverFingerprint ≠ "" ∧
      DartProtocol.Codec.serverFingerprint C serverPub ≠ s.serverFingerprint then none
  else
    let transportKey ← pairwiseKey C me.privateKey serverPub
    let info ← decodeMemberInfo C A buf transportKey
    let info ← info
    foundation C A me info ((s.isCreator.get info.convId).getD false) (installRoster info serverPub s)

/-- A goroutine that goes on. -/
def resumeChange (s : NativeDartClient) : Waiting → Option KeyChange
  | .drain convId caller =>
    if s.pendingQueue = [] ∧ caller.forgets = true then some (.forget convId) else none
  | .flush convId [] caller => if caller.forgets = true then some (.forget convId) else none
  | _ => none

/-- **What an event does to the keys**, in the state it meets. -/
def keyChange (C : Crypto) (A : ShortAes) (me : Identity) (s : NativeDartClient) :
    Event → Option KeyChange
  | .message buf =>
    if index buf 0 = some TYPE_KEY_SHARE then keyShareChange C A me buf s
    else if index buf 0 = some TYPE_MEMBER_INFO then rosterChange C A me buf s
    else none
  | .rekeyTimer => s.rekeyTimer.bind fun convId => rotation me convId .rekey s
  | .resume i => (s.waiting[i]?).bind (resumeChange s)
  | _ => none

/-- The keys after a change, or as they were. -/
def changed (o : Option KeyChange) (k : EpochKeys) : EpochKeys :=
  match o with
  | none => k
  | some change => change.apply k

theorem doRekey_epochKeys (hme : me.Lawful) (convId : ℕ) (caller : Caller) {skipped : Locked Unit}
    (hskipped : Keeps skipped) (s : NativeDartClient) :
    (doRekey C A me convId caller skipped s).state.epochKeys
      = changed (rotation me convId caller s) s.epochKeys := by
  rw [doRekey, get_bind, rotation]
  by_cases hcreator : s.isCreator.get convId = some true
  · rw [if_pos hcreator, if_pos hcreator]
    exact adoptKey_epochKeys hme convId _ (me.random s.draws 32) caller { s with draws := s.draws + 1 }
  · rw [if_neg hcreator, if_neg hcreator]
    exact keeps_bind hskipped (fun _ => keeps_pure _) s

theorem handleKeyShare_epochKeys (hme : me.Lawful) (buf : Buffer) (s : NativeDartClient) :
    (handleKeyShare C A me buf s).state.epochKeys
      = changed (keyShareChange C A me buf s) s.epochKeys := by
  unfold handleKeyShare keyShareChange
  by_cases hlen : buf.length < 7
  · rw [if_pos hlen, if_pos hlen]
    rfl
  rw [if_neg hlen, if_neg hlen, get_bind]
  rcases shareTransportKey C me s buf with _ | _ | ⟨convId, transportKey⟩
  · rfl
  · rfl
  rw [ofOption_some_bind]
  simp only [Option.bind_eq_bind, Option.bind_some]
  rcases decodeKeyShare C A buf transportKey with _ | _ | ⟨epoch, key⟩
  · rfl
  · rfl
  rw [ofOption_some_bind]
  simp only [Option.bind_some]
  by_cases hadopt : shouldAdopt s convId epoch key = true
  · rw [if_pos hadopt, if_pos hadopt, adoptKey_epochKeys hme]
    have hchange : adopting s .keyShare convId epoch key = .enter convId epoch key := by
      rw [adopting, if_neg (by simp [Caller.forgets])]
    rw [hchange]
    rfl
  · rw [if_neg hadopt, if_neg hadopt]
    rfl

theorem afterRoster_epochKeys (hme : me.Lawful) (info : MemberInfo) (prev : Bool)
    (s : NativeDartClient) :
    (afterRoster C A me info prev s).state.epochKeys
      = changed (foundation C A me info prev s) s.epochKeys := by
  have hfinish : Keeps (do
      finishMemberInfo C A me info.convId
      pure none : Locked (Option Waiting)) :=
    keeps_bind (finishMemberInfo_keeps _) fun _ => keeps_pure _
  rw [afterRoster, get_bind, foundation]
  by_cases hkey : s.codec.convKeys.has info.convId = true
  · rw [if_pos hkey, if_pos hkey]
    obtain ⟨u, hu⟩ := Option.isSome_iff_exists.mp
      (shareWithNewMembers_returns (C := C) (A := A) hme info.convId s)
    have hshare : (shareWithNewMembers C A me info.convId s).state.epochKeys = s.epochKeys :=
      shareWithNewMembers_keeps info.convId s
    rw [bind_of_some hu, prepend_state, ← hshare]
    split
    · exact doRekey_epochKeys hme info.convId .election (finishMemberInfo_keeps _) _
    · exact hfinish _
  · rw [if_neg hkey, if_neg hkey]
    by_cases hcreator : info.creator = true
    · rw [if_pos hcreator, if_pos hcreator]
      have hchange : adopting { s with draws := s.draws + 1 } .memberInfo info.convId 1
          (me.random s.draws 32) = .enter info.convId 1 (me.random s.draws 32) := by
        rw [adopting, if_neg (by simp [Caller.forgets])]
      have hadopt := adoptKey_epochKeys (C := C) (A := A) hme info.convId 1 (me.random s.draws 32)
        .memberInfo { s with draws := s.draws + 1 }
      rw [hchange] at hadopt
      exact hadopt
    · rw [if_neg hcreator, if_neg hcreator]
      exact hfinish s

theorem handleMemberInfo_epochKeys (hme : me.Lawful) (buf : Buffer) (s : NativeDartClient) :
    (handleMemberInfo C A me buf s).state.epochKeys
      = changed (rosterChange C A me buf s) s.epochKeys := by
  unfold handleMemberInfo rosterChange
  cases memberInfoServerKey buf with
  | none => rfl
  | some serverPub =>
    simp only [Option.bind_eq_bind, Option.bind_some]
    rw [get_bind]
    split
    · rfl
    · cases pairwiseKey C me.privateKey serverPub with
      | none => rfl
      | some transportKey =>
        simp only [Option.bind_some]
        rcases decodeMemberInfo C A buf transportKey with _ | _ | info
        · rfl
        · rfl
        rw [ofOption_some_bind]
        simp only [Option.bind_some]
        rw [modify_bind]
        exact afterRoster_epochKeys hme info _ (installRoster info serverPub s)

theorem resumeWaiting_epochKeys (hme : me.Lawful) (w : Waiting) (s : NativeDartClient) :
    (resumeWaiting C A F me w s).state.epochKeys = changed (resumeChange s w) s.epochKeys := by
  have hend : ∀ convId caller (t : NativeDartClient),
      ((do
        finishAdopt C A me convId caller
        pure none : Locked (Option Waiting)) t).state.epochKeys
        = changed (if caller.forgets = true then some (.forget convId) else none) t.epochKeys := by
    intro convId caller t
    have hfinish := finishAdopt_epochKeys (C := C) (A := A) hme convId caller t
    refine after_bind (P := fun v : NativeDartClient => v.epochKeys = _) ?_ fun _ v hv => hv
    rw [hfinish]
    cases caller.forgets <;> rfl
  have hsend : ∀ convId payload (w' : Waiting), Keeps (do
      sendData C A F me convId payload
      pure (some w') : Locked (Option Waiting)) :=
    fun convId payload _ => keeps_bind (sendData_keeps convId payload) fun _ => keeps_pure _
  match w with
  | .announce convId caller => exact hsend _ _ _ s
  | .drain convId caller =>
    rw [resumeWaiting, get_bind, resumeChange]
    by_cases hqueue : s.pendingQueue = []
    · rw [if_pos hqueue, hend]
      simp [hqueue]
    · rw [if_neg hqueue, if_neg fun h => hqueue h.1]
      rfl
  | .flush convId (pending :: queue) caller => exact hsend _ _ _ s
  | .flush convId [] caller => exact hend convId caller { s with pendingQueue := [] }

theorem handlerOf_epochKeys (hme : me.Lawful) (typ : ℕ) (buf : Buffer) (s : NativeDartClient) :
    (handlerOf C A F me typ buf s).state.epochKeys
      = changed (if typ = TYPE_KEY_SHARE then keyShareChange C A me buf s
          else if typ = TYPE_MEMBER_INFO then rosterChange C A me buf s else none) s.epochKeys := by
  have hmap : ∀ {m : Locked Unit}, Keeps m → Keeps ((fun _ => none) <$> m : Locked (Option Waiting)) :=
    fun hm => keeps_bind hm fun _ => keeps_pure _
  unfold handlerOf
  by_cases hkey : typ = TYPE_KEY_SHARE
  · subst hkey
    exact handleKeyShare_epochKeys hme buf s
  by_cases hinfo : typ = TYPE_MEMBER_INFO
  · subst hinfo
    exact handleMemberInfo_epochKeys hme buf s
  rw [if_neg hkey, if_neg hinfo, if_neg hkey, if_neg hinfo]
  split_ifs
  · exact hmap (handleData_keeps buf) s
  · exact hmap (handleChainShare_keeps buf) s
  · exact hmap (handleNack_keeps buf) s
  · exact hmap (handleSync_keeps buf) s
  · exact hmap (handleAck_keeps buf) s
  · exact hmap (handleDictReset_keeps buf) s
  · rfl

theorem handleMessage_epochKeys (hme : me.Lawful) (buf : Buffer) (s : NativeDartClient) :
    (handleMessage C A F me buf s).state.epochKeys
      = changed (keyChange C A me s (.message buf)) s.epochKeys := by
  have hdispatch : (dispatch C A F me buf s).state.epochKeys
      = changed (keyChange C A me s (.message buf)) s.epochKeys := by
    unfold dispatch
    rw [keyChange]
    by_cases hlen : buf.length = 0
    · have hindex : index buf 0 = none := by
        rw [List.length_eq_zero_iff.mp hlen]
        rfl
      rw [if_pos hlen, hindex]
      rfl
    · rw [if_neg hlen]
      cases hindex : index buf 0 with
      | none => rfl
      | some typ =>
        rw [ofOption_some_bind, handlerOf_epochKeys hme]
        simp only [Option.some.injEq]
  rw [handleMessage, attempt_bind]
  exact hdispatch

theorem fire_none (pending : NativeDartClient → Option α) {clear : NativeDartClient → NativeDartClient}
    {callback : α → Locked Unit} {s : NativeDartClient} (h : pending s = none) :
    fire pending clear callback s = ⟨some (), s, []⟩ := by
  rw [fire, get_bind, h]
  rfl

theorem fire_some (pending : NativeDartClient → Option α) {clear : NativeDartClient → NativeDartClient}
    {callback : α → Locked Unit} {s : NativeDartClient} {a : α} (h : pending s = some a) :
    fire pending clear callback s = callback a (clear s) := by
  rw [fire, get_bind, h]
  rfl

theorem fire_keeps {pending : NativeDartClient → Option α}
    {clear : NativeDartClient → NativeDartClient} {callback : α → Locked Unit}
    (hclear : ∀ s, (clear s).epochKeys = s.epochKeys) (hcall : ∀ a, Keeps (callback a)) :
    Keeps (fire pending clear callback) := by
  refine keeps_get fun t => ?_
  split
  · exact keeps_pure _
  · exact keeps_bind (keeps_modify hclear) fun _ => hcall _

theorem runShareRetry_keeps (retry : ShareRetry) : Keeps (runShareRetry C A me retry) := by
  cases retry with
  | key => exact keeps_forEach fun mId => sendKeyShare_keeps _ _ _ _ mId
  | chain => exact keeps_forEach fun mId => sendChainShare_keeps _ _ _ _

theorem runProbe_keeps (convId : ℕ) : Keeps (runProbe C A me convId) :=
  keeps_bind (sendSync_keeps convId) fun _ => keeps_get fun _ =>
    Obeys.ite (keeps_modify fun _ => rfl) (keeps_pure _)

theorem step_keeps (e : Event) (hmessage : ∀ buf, e ≠ .message buf) (hrekey : e ≠ .rekeyTimer)
    (hresume : ∀ i, e ≠ .resume i) : Keeps (step C A F me e) := by
  cases e with
  | sendData roomId payload => exact sendData_keeps roomId payload
  | joinRoom roomId => exact keeps_bind (sendKeyReq_keeps roomId) fun _ => keeps_modify fun _ => rfl
  | message buf => exact absurd rfl (hmessage buf)
  | resume i => exact absurd rfl (hresume i)
  | rekeyTimer => exact absurd rfl hrekey
  | shareTimer i => exact fire_keeps (fun _ => rfl) runShareRetry_keeps
  | joinTimer i => exact fire_keeps (fun _ => rfl) sendKeyReq_keeps
  | syncTimer i => exact fire_keeps (fun _ => rfl) runProbe_keeps
  | ackTimer senderId =>
    exact fire_keeps (fun _ => rfl) fun p => keeps_get fun _ => sendSigned_keeps _ _
  | enableFallback => exact keeps_modify fun _ => rfl
  | tick ns => exact keeps_modify fun _ => rfl

/-- **One event** changes the keys as `keyChange` says. -/
theorem step_keyChange (hme : me.Lawful) (e : Event) (s : NativeDartClient) :
    (step C A F me e s).state.epochKeys = changed (keyChange C A me s e) s.epochKeys := by
  have hpark : ∀ {m : Locked (Option Waiting)} {t : NativeDartClient} {k : EpochKeys},
      (m t).state.epochKeys = k → ((m >>= park) t).state.epochKeys = k := by
    intro m t k h
    exact after_bind (P := fun v : NativeDartClient => v.epochKeys = k) h fun _ v hv => hv
  cases e with
  | message buf => exact handleMessage_epochKeys hme buf s
  | resume i =>
    rw [keyChange]
    cases hwaiting : s.waiting[i]? with
    | none => exact congrArg (fun r => r.state.epochKeys) (fire_none (fun s => s.waiting[i]?) hwaiting)
    | some w =>
      refine (congrArg (fun r => r.state.epochKeys)
        (fire_some (fun s => s.waiting[i]?) hwaiting)).trans ?_
      exact hpark (resumeWaiting_epochKeys hme w _)
  | rekeyTimer =>
    rw [keyChange]
    cases hpending : s.rekeyTimer with
    | none => exact congrArg (fun r => r.state.epochKeys) (fire_none (fun s => s.rekeyTimer) hpending)
    | some convId =>
      refine (congrArg (fun r => r.state.epochKeys) (fire_some (fun s => s.rekeyTimer) hpending)).trans ?_
      exact hpark (doRekey_epochKeys hme convId .rekey (keeps_pure ()) _)
  | _ => exact step_keeps _ (by simp) (by simp) (by simp) s

end DartProtocol.GoClient
