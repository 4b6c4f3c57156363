import DartProtocol.ClientHandle

/-!
# What one event can do to a client

Every function of the client is a sequence of a few kinds of changes.  A relation between an initial
state, the outputs and the final state that is closed under composition and allows each kind of
change therefore describes every event, and so every run.  The kinds are collected in records:

* `Background` — timers, statuses, counters and frames on the wire;
* `ShareRules` — own chains and shares, given what sharing does;
* `AdoptRules` — these together with group keys;
* `KeyRules` — these together with rosters;
* `ReceiveRules` — the received history, the out-of-order buffer and the chains of one sender;
* `PartRules`, `FrameRules` — all of these without any condition, for statements about a part of the
  state; the former leave rosters to the caller.

Each function of the source has one lemma here, which follows its text.  Where a statement depends on
the state in which a function starts, its lemma is about that state (`ObeysAt`), and the functions
that hand out chain states or darts are left to the caller.
-/

namespace DartProtocol

open Prog

/-- The part of the state that is not a timer, a status, a counter or a transport setting. -/
def Client.core (s : Client) : Client :=
  { s with
    draws := 0, probeTimer := none, optimisticTimers := ∅, messageStatus := ∅,
    nackRetryTimers := ∅, ackTimers := ∅, joinTimers := [], rekeyTimer := none, seenSeq := ∅,
    ackedSeq := ∅, peers := [], serverFingerprint := "", useFallback := false, tcpSocket := false }

/-- The same with or without what is known of gaps: the numbers seen and the pending NACK retries. -/
def Client.coreWith (gaps : Bool) (s : Client) : Client :=
  { s.core with
    seenSeq := bif gaps then s.seenSeq else ∅
    nackRetryTimers := bif gaps then s.nackRetryTimers else ∅ }

theorem Client.getChain_of_core {s t : Client} (h : t.core = s.core) (c e m : ℕ) :
    t.getChain c e m = s.getChain c e m := by
  have hget := congrArg (fun u => u.getChain c e m) h
  exact hget

variable (C : Crypto) (me : Identity) (R : Client → List Output → Client → Prop)

/-- Changes that concern no key, no chain and no history, and with `gaps` no known gap either. -/
structure Background (gaps : Bool := false) : Prop where
  comp : Composable R
  bookkeeping : ∀ s t : Client, t.coreWith gaps = s.coreWith gaps → R s [] t
  broadcast : ∀ s buf via, R s [.broadcast buf via] s

/-- Changes of own chains.  What sharing does is an assumption. -/
structure ShareRules (gaps : Bool := false) : Prop extends Background R gaps where
  shareKey : ∀ convId, Obeys R (shareWithNewMembers C me convId)
  shareChain : ∀ convId epoch, Obeys R (shareChainWithMembers C me convId epoch)
  startChain : ∀ s convId epoch seed,
    R s [.chainStarted convId epoch seed] (DartProtocol.startChain me convId epoch seed s)

/-- Changes of keys and own chains. -/
structure AdoptRules (gaps : Bool := false) : Prop extends ShareRules C me R gaps where
  installKey : ∀ s convId epoch key, R s [] (DartProtocol.installKey convId epoch key s)
  pruneEpochs : ∀ s convId, R s [] (DartProtocol.pruneEpochs convId s)

/-- Changes of keys, rosters and own chains. -/
structure KeyRules (gaps : Bool := false) : Prop extends AdoptRules C me R gaps where
  installRoster : ∀ s info serverPubKey, R s [] (DartProtocol.installRoster info serverPubKey s)

/-- Changes of the received history, the buffer and the chains of one sender. -/
structure ReceiveRules (senderId : ℕ) (gaps : Bool := false) : Prop extends Background R gaps where
  clearReceived : ∀ s, R s [] (DartProtocol.clearReceived senderId s)
  buffer : ∀ (s : Client) seq buf, seq < SEQ_MOD →
    R s [] { s with outOfOrderBuffer := set₂ s.outOfOrderBuffer senderId seq buf }
  unbuffer : ∀ s seq, R s [] (DartProtocol.unbuffer senderId seq s)
  openData : ∀ s buf dec s',
    DartProtocol.openData C s buf senderId = some (some (dec, s')) → R s [] s'
  checked : ∀ s dict, R s [.checked dict] s
  store : ∀ s dart, dart.senderId = senderId → dart.seq < SEQ_MOD →
    get₂ s.receivedMessages senderId dart.seq = none → R s [.stored dart] (storeReceived dart s)

/-- What is received, sent again and shared again, without conditions. -/
structure FlowRules : Prop extends Background R where
  receive : ∀ senderId, ReceiveRules C R senderId
  ensureReceived : ∀ s senderId, R s [] (DartProtocol.ensureReceived senderId s)
  retries : ∀ (s : Client) l, R s [] { s with shareTimers := l }
  chainShared : ∀ s share, R s [.chainShared share] s
  encoded : ∀ s e, R s [.encoded e] s

/-- Every change except one of the own stream or of a roster, without conditions. -/
structure PartRules : Prop extends Background R where
  receive : ∀ senderId, ReceiveRules C R senderId
  ensureReceived : ∀ s senderId, R s [] (DartProtocol.ensureReceived senderId s)
  flags : ∀ (s : Client) f g, R s [] { s with sharedWith := f, chainSharedWith := g }
  retries : ∀ (s : Client) l, R s [] { s with shareTimers := l }
  chainShared : ∀ s share, R s [.chainShared share] s
  encoded : ∀ s e, R s [.encoded e] s
  installKey : ∀ s convId epoch key, R s [] (DartProtocol.installKey convId epoch key s)
  startChain : ∀ s convId epoch seed,
    R s [.chainStarted convId epoch seed] (DartProtocol.startChain me convId epoch seed s)
  pruneEpochs : ∀ s convId, R s [] (DartProtocol.pruneEpochs convId s)
  setChain : ∀ (s : Client) convId epoch senderId chain,
    R s [] (s.setChain convId epoch senderId chain)
  close : ∀ s, R s [] (closeClient s)

/-- Every change except one of the own stream, without conditions. -/
structure FrameRules : Prop extends PartRules C me R where
  installRoster : ∀ s info serverPubKey, R s [] (DartProtocol.installRoster info serverPubKey s)

variable {C me R} {gaps : Bool}

/-! ### What is received, and the rest -/

/-- The state without the histories and the buffers of what was received. -/
def Client.rest (s : Client) : Client :=
  { s.core with receivedMessages := ∅, highestReceivedSeq := ∅, outOfOrderBuffer := ∅ }

theorem clearReceived_rest (senderId : ℕ) (s : Client) : (clearReceived senderId s).rest = s.rest := by
  unfold clearReceived
  split <;> rfl

theorem ensureReceived_rest (senderId : ℕ) (s : Client) :
    (ensureReceived senderId s).rest = s.rest := by
  unfold ensureReceived
  split <;> rfl

theorem unbuffer_rest (senderId seq : ℕ) (s : Client) : (unbuffer senderId seq s).rest = s.rest := by
  unfold unbuffer
  split <;> rfl

theorem storeReceived_rest (dart : DataDart) (s : Client) : (storeReceived dart s).rest = s.rest := by
  unfold storeReceived pruneReceived
  simp only
  split <;> rfl

/-- **Statements about the rest.**  What was received plays no part; only the chain that a decryption
moves may matter. -/
theorem ReceiveRules.of_rest {senderId : ℕ} (hB : Background R)
    (h : ∀ s t : Client, t.rest = s.rest → R s [] t) (hchecked : ∀ s dict, R s [.checked dict] s)
    (hstored : ∀ s dart, R s [.stored dart] s)
    (hopen : ∀ s buf dec s', DartProtocol.openData C s buf senderId = some (some (dec, s')) →
      R s [] s') : ReceiveRules C R senderId where
  toBackground := hB
  clearReceived := fun s => h _ _ (clearReceived_rest senderId s)
  buffer := fun _ _ _ _ => h _ _ rfl
  unbuffer := fun s seq => h _ _ (unbuffer_rest senderId seq s)
  openData := hopen
  checked := hchecked
  store := fun s dart _ _ _ => hB.comp.trans (h _ _ (storeReceived_rest dart s)) (hstored _ dart)

/-- The state without keys, rosters and marks. -/
def Client.streams (s : Client) : Client :=
  { s with
    roster := ∅, isCreator := ∅, serverPubKeys := ∅, sharedWith := ∅, chainSharedWith := ∅,
    shareTimers := [], roomKeys := ∅, currentEpochs := ∅, adoptedEpochs := ∅, chainSeeds := ∅ }

theorem pruneEpochs_streams (convId : ℕ) (s : Client) :
    (pruneEpochs convId s).streams = s.streams := by
  obtain ⟨keys, seeds, h⟩ := pruneEpochs_eq convId s
  rw [h]
  rfl

/-! ### Background -/

theorem Background.modify (hB : Background R gaps) {f : Client → Client}
    (h : ∀ s, (f s).coreWith gaps = s.coreWith gaps) :
    Obeys R (Prog.modify f : ClientProg PUnit) :=
  Obeys.modify fun s => hB.bookkeeping s (f s) (h s)

/-- Keeping the keys, chains and histories is a relation of its own. -/
theorem background_core : Background fun s (_ : List Output) t => t.core = s.core where
  comp := ⟨fun _ => rfl, fun h h' => h'.trans h⟩
  bookkeeping := fun _ _ h => h
  broadcast := fun _ _ _ => rfl

theorem randomBytes_obeys (hB : Background R gaps) (n : ℕ) : Obeys R (randomBytes me n) := by
  unfold randomBytes
  refine .get_bind fun s => ?_
  refine .bind hB.comp (hB.modify fun _ => rfl) fun _ => ?_
  exact .pure hB.comp _

theorem broadcast_obeys (hB : Background R gaps) (buf : Buffer) : Obeys R (broadcast buf) := by
  unfold DartProtocol.broadcast
  refine .get_bind fun s => ?_
  refine .ite (.pure hB.comp _) ?_
  refine .ite ?_ (.emit fun t => hB.broadcast t _ _)
  refine .ofOption_bind hB.comp fun out => ?_
  exact .emit fun t => hB.broadcast t _ _

theorem sendControl_obeys (hB : Background R gaps) (convId : ℕ) (peer : Client → Option Buffer)
    (encode : Buffer → Buffer → Option Buffer) :
    Obeys R (sendControl C me convId peer encode) := by
  unfold sendControl
  refine .get_bind fun s => ?_
  split
  · refine .bind hB.comp (randomBytes_obeys hB 12) fun nonce => ?_
    refine .ofOption_bind hB.comp fun buf => ?_
    refine .ofOption_bind hB.comp fun macKey => ?_
    exact broadcast_obeys hB _
  · exact .pure hB.comp _

theorem sendDictReset_obeys (hB : Background R gaps) (convId targetId : ℕ) :
    Obeys R (sendDictReset C me convId targetId) := sendControl_obeys hB _ _ _

theorem sendSync_obeys (hB : Background R gaps) (convId : ℕ) : Obeys R (sendSync C me convId) := by
  unfold sendSync
  refine .get_bind fun s => ?_
  exact .ite (.pure hB.comp _) (sendControl_obeys hB _ _ _)

theorem scheduleNackRetry_obeys (hB : Background R) (convId senderId : ℕ) :
    Obeys R (scheduleNackRetry convId senderId) := by
  refine hB.modify fun s => ?_
  split <;> rfl

variable {convId senderId targetId seq : ℕ} {chain : ChainState} {s : Client} {buf : Buffer}
  {e : Event}

/-- Asking for what is missing, given what setting the retry does. -/
theorem nackMissing_obeys_of (hB : Background R gaps)
    (hretry : Obeys R (scheduleNackRetry convId senderId)) (missing : List ℕ) :
    Obeys R (nackMissing C me convId senderId missing) := by
  unfold nackMissing
  refine .ite (.pure hB.comp _) ?_
  exact .bind hB.comp (sendControl_obeys hB _ _ _) fun _ => hretry

theorem nackMissing_obeys (hB : Background R) (convId senderId : ℕ) (missing : List ℕ) :
    Obeys R (nackMissing C me convId senderId missing) :=
  nackMissing_obeys_of hB (scheduleNackRetry_obeys hB convId senderId) missing

theorem noteSeen_core (s : Client) (senderId seq : ℕ) : (s.noteSeen senderId seq).core = s.core := by
  unfold Client.noteSeen
  simp only
  split
  · rfl
  · split <;> rfl

theorem runProbe_obeys (hB : Background R gaps) (convId : ℕ) : Obeys R (runProbe C me convId) := by
  unfold runProbe
  refine .bind hB.comp (sendSync_obeys hB convId) fun _ => ?_
  refine .get_bind fun s => ?_
  exact .ite (hB.modify fun _ => rfl) (.pure hB.comp _)

theorem runNackRetry_obeys (hB : Background R) (convId senderId : ℕ) :
    Obeys R (runNackRetry C me convId senderId) := by
  unfold runNackRetry
  refine .get_bind fun s => ?_
  split
  · exact nackMissing_obeys hB _ _ _
  · exact .pure hB.comp _

theorem handleAck_obeys (hB : Background R gaps) (buf : Buffer) :
    Obeys R (handleAck C me buf) := by
  unfold handleAck
  refine .get_bind fun s => ?_
  refine .ofOption_bind hB.comp fun opened => ?_
  split
  · exact .pure hB.comp _
  · split
    · exact .pure hB.comp _
    · refine .ofOption_bind hB.comp fun ack => ?_
      exact .ite (hB.modify fun _ => rfl) (.pure hB.comp _)

theorem sendKeyReq_obeys (hB : Background R gaps) (convId : ℕ) :
    Obeys R (sendKeyReq C me convId) := by
  unfold sendKeyReq
  refine .bind hB.comp (randomBytes_obeys hB 16) fun reqNonce => ?_
  refine .ofOption_bind hB.comp fun buf => ?_
  exact broadcast_obeys hB buf

theorem joinConversation_obeys (hB : Background R gaps) (convId : ℕ) :
    Obeys R (joinConversation C me convId) := by
  unfold joinConversation
  refine .bind hB.comp (sendKeyReq_obeys hB convId) fun _ => ?_
  exact hB.modify fun _ => rfl

theorem sendKeyShare_obeys (hB : Background R gaps) (convId epoch : ℕ) (key : Buffer)
    (roster : NumMap Buffer) (mId : ℕ) :
    Obeys R (sendKeyShare C me convId epoch key roster mId) := by
  unfold sendKeyShare
  refine .ofOption_bind hB.comp fun targetPubKey => ?_
  refine .ofOption_bind hB.comp fun transportKey => ?_
  refine .bind hB.comp (randomBytes_obeys hB 12) fun nonce => ?_
  refine .ofOption_bind hB.comp fun buf => ?_
  exact broadcast_obeys hB buf

/-- A chain share needs, besides the background, that the state it hands out may be handed out to
its target. -/
theorem sendChainShare_obeys_to (hB : Background R gaps) {epoch : ℕ}
    (h : ∀ s share, share.convId = convId → share.senderId = me.senderId → share.epoch = epoch →
      share.targetId = targetId → share.chainKey = chain.key → share.chainIndex = chain.index →
      R s [.chainShared share] s) :
    Obeys R (sendChainShare C me convId epoch targetId chain) := by
  unfold sendChainShare
  refine .get_bind fun s => ?_
  split
  · exact .pure hB.comp _
  · refine .ofOption_bind hB.comp fun transportKey => ?_
    refine .bind hB.comp (randomBytes_obeys hB 12) fun nonce => ?_
    refine .ofOption_bind hB.comp fun buf => ?_
    refine .bind hB.comp (.emit fun t => ?_) fun _ => broadcast_obeys hB buf
    exact h t _ rfl rfl rfl rfl rfl rfl

/-- The same where the target does not matter. -/
theorem sendChainShare_obeys (hB : Background R gaps) {epoch : ℕ}
    (h : ∀ s share, share.convId = convId → share.senderId = me.senderId → share.epoch = epoch →
      share.chainKey = chain.key → share.chainIndex = chain.index → R s [.chainShared share] s) :
    Obeys R (sendChainShare C me convId epoch targetId chain) :=
  sendChainShare_obeys_to hB fun s share hc hs he _ hk hi => h s share hc hs he hk hi

/-- A timer callback runs after the timer was taken out of the state. -/
theorem fire_obeys (hB : Background R gaps) {α : Type} {pending : Client → Option α}
    {clear : Client → Client} {callback : α → ClientProg Unit} (hclear : ∀ s, R s [] (clear s))
    (hcall : ∀ a, Obeys R (callback a)) : Obeys R (fire pending clear callback) := by
  unfold fire
  refine .get_bind fun s => ?_
  split
  · exact .pure hB.comp _
  · exact .bind hB.comp (.modify hclear) fun _ => hcall _

/-! ### Sharing -/

/-- Sharing the group key: a mark on every target, then the shares, then their retries. -/
theorem shareWithNewMembers_obeys (hB : Background R gaps)
    (hflags : ∀ (s : Client) f, R s [] { s with sharedWith := f })
    (convId : ℕ)
    (hretry : ∀ (s : Client) epoch key targets roster,
      R s [] { s with shareTimers := s.shareTimers ++
        [.key convId epoch key targets roster, .key convId epoch key targets roster] }) :
    Obeys R (shareWithNewMembers C me convId) := by
  unfold shareWithNewMembers
  refine .get_bind fun s => ?_
  split
  · exact .pure hB.comp _
  · split
    · exact .pure hB.comp _
    · refine .bind hB.comp (.modify fun t => hflags t _) fun _ => ?_
      refine .ite (.pure hB.comp _) ?_
      refine .bind hB.comp (.forEach hB.comp fun mId _ => ?_) fun _ => ?_
      · exact sendKeyShare_obeys hB _ _ _ _ mId
      · exact .modify fun t => hretry t _ _ _ _

/-- Sharing the own chain, from a state in which it may be handed out. -/
theorem shareChainWithMembers_obeysAt (hB : Background R gaps) {epoch : ℕ}
    (hflags : ∀ (t : Client) g, R t [] { t with chainSharedWith := g })
    (hretry : ∀ (t : Client) targets chain,
      s.getChain convId epoch me.senderId = some chain →
      R t [] { t with shareTimers := t.shareTimers ++
        [.chain convId epoch targets chain, .chain convId epoch targets chain] })
    (hshared : ∀ (t : Client) share, s.getChain convId epoch me.senderId
        = some ⟨share.chainKey, share.chainIndex⟩ → share.convId = convId →
      share.senderId = me.senderId → share.epoch = epoch → R t [.chainShared share] t) :
    ObeysAt R (shareChainWithMembers C me convId epoch) s := by
  unfold shareChainWithMembers
  unfold ObeysAt
  rw [get_bind]
  cases hchain : s.getChain convId epoch me.senderId with
  | none => exact hB.comp.refl s
  | some myChain =>
    cases hroster : s.roster.get convId with
    | none => exact hB.comp.refl s
    | some roster =>
      refine Obeys.bind hB.comp (Obeys.modify fun t => hflags t _) (fun _ => ?_) s
      refine Obeys.ite (Obeys.pure hB.comp _) ?_
      refine .bind hB.comp (.forEach hB.comp fun mId _ => ?_) fun _ => ?_
      · refine sendChainShare_obeys hB fun t share hc hs he hk hi => ?_
        exact hshared t share (by rw [hchain, hk, hi]) hc hs he
      · exact .modify fun t => hretry t _ myChain hchain

/-! ### Keys, rosters and chains -/

/-- A weaker relation allows what a stronger one allows. -/
theorem KeyRules.mono {Q : Client → List Output → Client → Prop} (hK : KeyRules C me Q gaps)
    (hB : Background R gaps) (h : ∀ s os t, Q s os t → R s os t) : KeyRules C me R gaps where
  toBackground := hB
  shareKey := fun convId s => h _ _ _ (hK.shareKey convId s)
  shareChain := fun convId epoch s => h _ _ _ (hK.shareChain convId epoch s)
  installKey := fun s convId epoch key => h _ _ _ (hK.installKey s convId epoch key)
  startChain := fun s convId epoch seed => h _ _ _ (hK.startChain s convId epoch seed)
  pruneEpochs := fun s convId => h _ _ _ (hK.pruneEpochs s convId)
  installRoster := fun s info serverPubKey => h _ _ _ (hK.installRoster s info serverPubKey)

/-- **Statements about streams.**  Keys, rosters and marks play no part, and every share is allowed. -/
theorem KeyRules.of_streams (hB : Background R gaps)
    (h : ∀ s t : Client, t.streams = s.streams → R s [] t)
    (hshared : ∀ s share, R s [.chainShared share] s)
    (hstart : ∀ s convId epoch seed,
      R s [.chainStarted convId epoch seed] (DartProtocol.startChain me convId epoch seed s)) :
    KeyRules C me R gaps where
  toBackground := hB
  shareKey := fun convId => shareWithNewMembers_obeys hB (fun _ _ => h _ _ rfl) convId
    fun _ _ _ _ _ => h _ _ rfl
  shareChain := fun _ _ _ => shareChainWithMembers_obeysAt hB (fun _ _ => h _ _ rfl)
    (fun _ _ _ _ => h _ _ rfl) fun t share _ _ _ _ => hshared t share
  installKey := fun _ _ _ _ => h _ _ rfl
  startChain := hstart
  pruneEpochs := fun s convId => h _ _ (pruneEpochs_streams convId s)
  installRoster := fun _ _ _ => h _ _ rfl

theorem initOwnChain_obeys (hS : ShareRules C me R gaps) (convId epoch : ℕ) :
    Obeys R (initOwnChain C me convId epoch) := by
  unfold initOwnChain
  refine .bind hS.comp (randomBytes_obeys hS.toBackground 32) fun seed => ?_
  intro s
  unfold ObeysAt
  rw [modify_bind, emit_bind]
  -- the new chain and its observation are one change
  exact hS.comp.trans (hS.startChain s convId epoch seed)
    (hS.shareChain convId epoch _)

theorem announceKey_obeys (hS : ShareRules C me R gaps) (convId epoch : ℕ) :
    Obeys R (announceKey C me convId epoch) := by
  unfold announceKey
  refine .bind hS.comp (hS.shareKey convId) fun _ => ?_
  refine .bind hS.comp (initOwnChain_obeys hS convId epoch) fun _ => ?_
  exact hS.toBackground.modify fun _ => rfl

theorem adoptKey_obeys (hK : AdoptRules C me R gaps) (convId epoch : ℕ) (key : Buffer) :
    Obeys R (adoptKey C me convId epoch key) := by
  unfold adoptKey
  refine .bind hK.comp (.modify fun t => hK.installKey t _ _ _) fun _ => ?_
  exact announceKey_obeys hK.toShareRules convId epoch

theorem pruneOldEpochs_obeys (hK : AdoptRules C me R gaps) (convId : ℕ) :
    Obeys R (pruneOldEpochs convId) :=
  Obeys.modify fun t => hK.pruneEpochs t convId

theorem rekey_obeys (hK : AdoptRules C me R gaps) (convId : ℕ) : Obeys R (rekey C me convId) := by
  unfold rekey
  refine .get_bind fun s => ?_
  refine .ite ?_ (.pure hK.comp _)
  refine .bind hK.comp (randomBytes_obeys hK.toBackground 32) fun key => ?_
  refine .bind hK.comp (adoptKey_obeys hK convId _ key) fun _ => ?_
  exact pruneOldEpochs_obeys hK convId

theorem foundOrShare_obeys (hK : AdoptRules C me R gaps) (info : MemberInfo) (myEpoch : ℕ) :
    Obeys R (foundOrShare C me info myEpoch) := by
  unfold foundOrShare
  refine .ite ?_ (.ite (hK.shareKey _) ?_)
  · refine .bind hK.comp (randomBytes_obeys hK.toBackground 32) fun key => ?_
    exact adoptKey_obeys hK _ 1 key
  · exact .pure hK.comp _

theorem rotateIfElected_obeys (hK : AdoptRules C me R gaps) (info : MemberInfo) (prevCreator : Bool)
    (myEpoch : ℕ) : Obeys R (rotateIfElected C me info prevCreator myEpoch) := by
  unfold rotateIfElected
  exact .ite (rekey_obeys hK _) (.pure hK.comp _)

theorem afterRoster_obeys (hK : AdoptRules C me R gaps) (info : MemberInfo) (prevCreator : Bool) :
    Obeys R (afterRoster C me info prevCreator) := by
  unfold afterRoster
  refine .get_bind fun s => ?_
  refine .bind hK.comp (foundOrShare_obeys hK info _) fun _ => ?_
  refine .bind hK.comp (rotateIfElected_obeys hK info prevCreator _) fun _ => ?_
  refine .get_bind fun t => ?_
  refine .bind hK.comp (hK.shareChain _ _) fun _ => ?_
  exact hK.toBackground.modify fun _ => rfl

theorem handleMemberInfo_obeys (hK : KeyRules C me R gaps) (buf : Buffer) :
    Obeys R (handleMemberInfo C me buf) := by
  unfold handleMemberInfo
  refine .get_bind fun s => ?_
  refine .ofOption_bind hK.comp fun opened => ?_
  split
  · exact .pure hK.comp _
  · refine .bind hK.comp (.modify fun t => hK.installRoster t _ _) fun _ => ?_
    exact afterRoster_obeys hK.toAdoptRules _ _

theorem handleKeyShare_obeys (hK : AdoptRules C me R gaps) (buf : Buffer) :
    Obeys R (handleKeyShare C me buf) := by
  unfold handleKeyShare
  refine .get_bind fun s => ?_
  refine .ofOption_bind hK.comp fun opened => ?_
  split
  · exact .pure hK.comp _
  · split
    · exact .pure hK.comp _
    · exact .ite (adoptKey_obeys hK _ _ _) (.pure hK.comp _)

/-- A chain share is stored under the sender its frame names. -/
theorem handleChainShare_obeysAt (hB : Background R gaps)
    (h : ∀ convId key decoded, shareTransportKey C me s buf = some (some (convId, key)) →
      Codec.decodeChainShare C buf key = some decoded →
      R s [] (s.setChain convId decoded.epoch decoded.senderId
        ⟨decoded.chainKey, decoded.chainIndex⟩)) :
    ObeysAt R (handleChainShare C me buf) s := by
  unfold ObeysAt handleChainShare
  rw [get_bind]
  cases hopen : shareTransportKey C me s buf with
  | none => exact hB.comp.refl s
  | some opened =>
    rw [ofOption_some_bind]
    cases opened with
    | none => exact hB.comp.refl s
    | some p =>
      obtain ⟨convId, key⟩ := p
      simp only
      cases hdec : Codec.decodeChainShare C buf key with
      | none => exact hB.comp.refl s
      | some decoded => exact h convId key decoded hopen hdec

/-- An answer to a NACK hands out the seed of the current epoch to the member that asked. -/
theorem reshareSeed_obeysAt_to (hB : Background R gaps)
    (hshared : ∀ (t : Client) share, get₂ s.chainSeeds convId (s.sendingEpoch convId)
        = some ⟨share.chainKey, share.chainIndex⟩ → share.convId = convId →
      share.senderId = me.senderId → share.epoch = s.sendingEpoch convId →
      share.targetId = targetId → R t [.chainShared share] t) :
    ObeysAt R (reshareSeed C me convId targetId) s := by
  unfold reshareSeed ObeysAt
  rw [get_bind]
  cases hseed : get₂ s.chainSeeds convId (s.sendingEpoch convId) with
  | none => exact hB.comp.refl s
  | some seed =>
    refine sendChainShare_obeys_to hB (fun t share hc hs he ht hk hi => ?_) s
    exact hshared t share (by rw [hseed, hk, hi]) hc hs he ht

/-- The same where the target does not matter. -/
theorem reshareSeed_obeysAt (hB : Background R gaps)
    (hshared : ∀ (t : Client) share, get₂ s.chainSeeds convId (s.sendingEpoch convId)
        = some ⟨share.chainKey, share.chainIndex⟩ → share.convId = convId →
      share.senderId = me.senderId → share.epoch = s.sendingEpoch convId →
      R t [.chainShared share] t) :
    ObeysAt R (reshareSeed C me convId targetId) s :=
  reshareSeed_obeysAt_to hB fun t share hseed hc hs he _ => hshared t share hseed hc hs he

/-- The callback of a retry hands out the chain state it captured to the targets it captured. -/
theorem runShareRetry_obeys_to (hB : Background R gaps) (retry : ShareRetry)
    (hshared : ∀ convId epoch targets chain, retry = .chain convId epoch targets chain →
      ∀ (t : Client) share, share.convId = convId → share.senderId = me.senderId →
        share.epoch = epoch → share.targetId ∈ targets → share.chainKey = chain.key →
        share.chainIndex = chain.index → R t [.chainShared share] t) :
    Obeys R (runShareRetry C me retry) := by
  cases retry with
  | key convId epoch key targets roster =>
    exact .forEach hB.comp fun mId _ => sendKeyShare_obeys hB _ _ _ _ mId
  | chain convId epoch targets chain =>
    refine .forEach hB.comp fun mId hmId => ?_
    refine sendChainShare_obeys_to hB fun t share hc hs he ht hk hi => ?_
    exact hshared convId epoch targets chain rfl t share hc hs he (by rw [ht]; exact hmId) hk hi

/-- The same where the targets do not matter. -/
theorem runShareRetry_obeys (hB : Background R gaps) (retry : ShareRetry)
    (hshared : ∀ convId epoch targets chain, retry = .chain convId epoch targets chain →
      ∀ (t : Client) share, share.convId = convId → share.senderId = me.senderId →
        share.epoch = epoch → share.chainKey = chain.key → share.chainIndex = chain.index →
        R t [.chainShared share] t) :
    Obeys R (runShareRetry C me retry) :=
  runShareRetry_obeys_to hB retry fun convId epoch targets chain hretry t share hc hs he _ hk hi =>
    hshared convId epoch targets chain hretry t share hc hs he hk hi

/-! ### Streams -/

theorem transmitData_obeys (hB : Background R gaps) {dart : DataDart} {dict messageKey : Buffer}
    {idx epoch : ℕ}
    (henc : ∀ (t : Client) i buf,
      Codec.encodeDataHelper C dart dict messageKey idx epoch (me.random i 12) = some buf →
      R t [.encoded ⟨dart, dict, messageKey, idx, epoch, me.random i 12, buf⟩] t) :
    Obeys R (transmitData C me dart dict messageKey idx epoch) := by
  intro s
  unfold ObeysAt transmitData
  refine ObeysAt.bind hB.comp (randomBytes_obeys hB 12 s) fun nonce hnonce => ?_
  cases hnonce
  cases hbuf : Codec.encodeDataHelper C dart dict messageKey idx epoch (me.random s.draws 12) with
  | none => exact Obeys.throw hB.comp _
  | some buf =>
    rw [ofOption_some_bind]
    refine Obeys.bind hB.comp (Obeys.emit fun t => henc t s.draws buf hbuf) ?_ _
    exact fun _ => broadcast_obeys hB buf

/-- One send: the number is used up, and with a chain the dart is entered and then transmitted.
What the transmission obeys may rest on the dart having been entered. -/
theorem sendData_obeysAt {Q : Client → List Output → Client → Prop} (hB : Background Q gaps)
    {payload : String} (huse : s.getChain convId (s.sendingEpoch convId) me.senderId = none →
      R s [] { s with nextSeq := seqNext s.nextSeq })
    (henter : ∀ chain, s.getChain convId (s.sendingEpoch convId) me.senderId = some chain →
      ∀ os t, Q (enterSent C me convId payload chain s) os t →
        R s (.sent ⟨TYPE_DATA, convId, me.senderId, s.nextSeq, payload⟩ :: os) t)
    (henc : ∀ chain, s.getChain convId (s.sendingEpoch convId) me.senderId = some chain →
      ∀ (t : Client) i buf,
        Codec.encodeDataHelper C ⟨TYPE_DATA, convId, me.senderId, s.nextSeq, payload⟩
          (getDictionary me s me.senderId s.nextSeq) (advanceChain C chain chain.index).1
          chain.index (s.sendingEpoch convId) (me.random i 12) = some buf →
        Q t [.encoded ⟨⟨TYPE_DATA, convId, me.senderId, s.nextSeq, payload⟩,
          getDictionary me s me.senderId s.nextSeq, (advanceChain C chain chain.index).1,
          chain.index, s.sendingEpoch convId, me.random i 12, buf⟩] t) :
    ObeysAt R (sendData C me convId payload) s := by
  unfold ObeysAt sendData
  rw [get_bind]
  simp only
  cases hchain : s.getChain convId (s.sendingEpoch convId) me.senderId with
  | none => exact huse hchain
  | some chain =>
    simp only
    rw [modify_bind, emit_bind]
    -- entering the dart is one change; transmission and timers follow it
    refine henter chain hchain _ _ ?_
    refine Obeys.bind hB.comp (transmitData_obeys hB (henc chain hchain)) (fun _ => ?_) _
    refine Obeys.bind hB.comp (hB.modify fun _ => rfl) fun _ => ?_
    exact hB.modify fun _ => rfl

/-- A repeated transmission encodes a dart of the history under its cached key. -/
theorem retransmit_obeysAt (hB : Background R gaps)
    (henc : ∀ dart mk, s.sentMessages.get seq = some dart → s.messageKeys.get seq = some mk →
      ∀ (t : Client) i buf,
        Codec.encodeDataHelper C dart (getDictionary me s me.senderId seq) mk.key mk.idx mk.epoch
          (me.random i 12) = some buf →
        R t [.encoded ⟨dart, getDictionary me s me.senderId seq, mk.key, mk.idx, mk.epoch,
          me.random i 12, buf⟩] t) :
    ObeysAt R (retransmit C me seq) s := by
  unfold retransmit ObeysAt
  rw [get_bind]
  cases hdart : s.sentMessages.get seq with
  | none => exact hB.comp.refl s
  | some dart =>
    cases hmk : s.messageKeys.get seq with
    | none => exact hB.comp.refl s
    | some mk =>
      refine Obeys.bind hB.comp (transmitData_obeys hB (henc dart mk hdart hmk)) ?_ s
      exact fun _ => hB.modify fun _ => rfl

/-- A repeated transmission touches no key, no chain and no history. -/
theorem retransmit_core (seq : ℕ) :
    Obeys (fun s (_ : List Output) t => t.core = s.core) (retransmit C me seq) :=
  fun _ => retransmit_obeysAt background_core fun _ _ _ _ _ _ _ _ => rfl

theorem decryptDataInOrder_obeys (hV : ReceiveRules C R senderId gaps) (buf : Buffer) :
    Obeys R (decryptDataInOrder C buf senderId) := by
  intro s
  unfold ObeysAt decryptDataInOrder
  rw [get_bind]
  cases hopen : openData C s buf senderId with
  | none => exact hV.comp.refl s
  | some opened =>
    rw [ofOption_some_bind]
    cases opened with
    | none => exact hV.comp.refl s
    | some p => exact hV.openData s buf p.1 p.2 hopen

theorem processDataPacket_obeys (hV : ReceiveRules C R senderId gaps)
    (dec : DecryptedData) (hseq : seq < SEQ_MOD) :
    Obeys R (processDataPacket C me dec senderId seq) := by
  intro s
  unfold processDataPacket
  unfold ObeysAt
  rw [get_bind, emit_bind]
  refine hV.comp.trans (hV.checked s _) ?_
  by_cases hfp : dec.dictFp ≠ dictFingerprint C (getDictionary me s senderId seq)
  · rw [if_pos hfp, modify_bind]
    refine hV.comp.trans (hV.clearReceived s) ?_
    exact sendDictReset_obeys hV.toBackground dec.convId senderId _
  · rw [if_neg hfp]
    cases Codec.inflateData C dec.compressed (getDictionary me s senderId seq) with
    | none => exact hV.comp.refl s
    | some payload =>
      simp only
      cases hget : get₂ s.receivedMessages senderId seq with
      | some d => exact hV.comp.refl s
      | none =>
        simp only [Option.isSome_none, Bool.false_eq_true, if_false]
        exact hV.store s _ rfl hseq hget

theorem processBuffered_obeys (hV : ReceiveRules C R senderId gaps) (raw : Buffer)
    {nextSeq : ℕ} (hseq : nextSeq < SEQ_MOD) :
    Obeys R (processBuffered C me raw senderId nextSeq) := by
  unfold processBuffered
  refine .bind hV.comp (decryptDataInOrder_obeys hV raw) fun dec => ?_
  split
  · exact .pure hV.comp _
  · exact .ite (processDataPacket_obeys hV _ hseq) (.pure hV.comp _)

theorem drainBuffer_obeys (hV : ReceiveRules C R senderId gaps) (turns : ℕ) :
    ∀ {nextSeq : ℕ}, nextSeq < SEQ_MOD → Obeys R (drainBuffer C me senderId turns nextSeq) := by
  induction turns with
  | zero =>
    intro nextSeq _
    exact .pure hV.comp _
  | succ turns ih =>
    intro nextSeq hseq
    unfold drainBuffer
    refine .get_bind fun s => ?_
    split
    · exact .pure hV.comp _
    · refine .bind hV.comp (.modify fun t => hV.unbuffer t _) fun _ => ?_
      refine .bind hV.comp (.attempt (processBuffered_obeys hV _ hseq)) ?_
      intro _
      exact ih (seqNext_lt nextSeq)

theorem processBufferedPackets_obeys (hV : ReceiveRules C R senderId gaps) :
    Obeys R (processBufferedPackets C me senderId) := by
  unfold processBufferedPackets
  refine .get_bind fun s => ?_
  split
  · exact .pure hV.comp _
  · exact drainBuffer_obeys hV _ (seqNext_lt _)

theorem bufferAhead_obeys (hV : ReceiveRules C R senderId gaps) (buf : Buffer)
    (hretry : Obeys R (scheduleNackRetry convId senderId)) (hseq : seq < SEQ_MOD) (ahead : ℕ) :
    Obeys R (bufferAhead C me buf convId senderId seq ahead) := by
  unfold bufferAhead
  refine .bind hV.comp (.modify fun t => hV.buffer t _ _ hseq) fun _ => ?_
  refine .get_bind fun s => ?_
  exact nackMissing_obeys_of hV.toBackground hretry _

theorem acceptNext_obeys (hV : ReceiveRules C R senderId gaps) (buf : Buffer)
    (hseq : seq < SEQ_MOD) : Obeys R (acceptNext C me buf senderId seq) := by
  unfold acceptNext
  refine .bind hV.comp (decryptDataInOrder_obeys hV buf) fun dec => ?_
  split
  · exact .pure hV.comp _
  · refine .bind hV.comp (processDataPacket_obeys hV _ hseq) fun _ => ?_
    exact processBufferedPackets_obeys hV

/-- The gap test, given what setting the retry does. -/
theorem routeData_obeys_of (hV : ReceiveRules C R senderId gaps) (buf : Buffer)
    (hretry : Obeys R (scheduleNackRetry convId senderId))
    (hseq : seq < SEQ_MOD) : Obeys R (routeData C me buf convId senderId seq) := by
  unfold routeData
  refine .get_bind fun t => ?_
  refine .ite (.pure hV.comp _) ?_
  exact .ite (bufferAhead_obeys hV buf hretry hseq _) (acceptNext_obeys hV buf hseq)

theorem routeData_obeys (hV : ReceiveRules C R senderId) (buf : Buffer)
    (convId : ℕ) (hseq : seq < SEQ_MOD) :
    Obeys R (routeData C me buf convId senderId seq) :=
  routeData_obeys_of hV buf (scheduleNackRetry_obeys hV.toBackground convId senderId) hseq

/-- A Data frame is routed by the sender and the number in its header. -/
theorem handleData_obeysAt (hB : Background R)
    (h : ∀ convId senderId seq, buf.readUIntBE 3 3 = some seq → seq < SEQ_MOD →
      ObeysAt R (routeData C me buf convId senderId seq) (s.noteSeen senderId seq)) :
    ObeysAt R (handleData C me buf) s := by
  unfold ObeysAt
  rw [handleData_run]
  rcases hheader : dataHeader buf with _ | _ | ⟨convId, senderId, seq⟩
  · exact hB.comp.refl s
  · exact hB.comp.refl s
  · have hnote : R s [] (s.noteSeen senderId seq) :=
      hB.bookkeeping s _ (noteSeen_core s senderId seq)
    obtain ⟨-, hseq, hlt⟩ := dataHeader_bounds hheader
    exact hB.comp.trans hnote (h convId senderId seq hseq hlt)

theorem handleData_obeys (hB : Background R) (hV : ∀ senderId, ReceiveRules C R senderId)
    (buf : Buffer) : Obeys R (handleData C me buf) :=
  fun _ => handleData_obeysAt hB fun convId senderId _ _ hlt =>
    routeData_obeys (hV senderId) buf convId hlt _

theorem handleSync_obeys (hB : Background R)
    (hensure : ∀ s senderId, R s [] (ensureReceived senderId s)) (buf : Buffer) :
    Obeys R (handleSync C me buf) := by
  unfold handleSync
  refine .get_bind fun s => ?_
  refine .ofOption_bind hB.comp fun opened => ?_
  split
  · exact .pure hB.comp _
  · refine .ofOption_bind hB.comp fun sync => ?_
    refine .bind hB.comp
      (hB.modify fun t => noteSeen_core t _ _) fun _ => ?_
    refine .get_bind fun t => ?_
    refine .ite ?_ (.pure hB.comp _)
    refine .bind hB.comp (.modify fun u => hensure u _) fun _ => ?_
    refine .get_bind fun u => ?_
    exact nackMissing_obeys hB _ _ _

theorem handleDictReset_obeys (hB : Background R gaps)
    (happly : ∀ s targetId, R s [] (applyDictReset me targetId s)) (buf : Buffer) :
    Obeys R (handleDictReset C me buf) := by
  unfold handleDictReset
  refine .get_bind fun s => ?_
  refine .ofOption_bind hB.comp fun opened => ?_
  split
  · exact .pure hB.comp _
  · refine .ofOption_bind hB.comp fun reset => ?_
    exact .modify fun t => happly t _

/-! ### Frames and events -/

theorem handleNack_obeys (hB : Background R gaps) (hre : ∀ seq, Obeys R (retransmit C me seq))
    (hseed : ∀ convId targetId, Obeys R (reshareSeed C me convId targetId)) (buf : Buffer) :
    Obeys R (handleNack C me buf) := by
  unfold handleNack
  refine .get_bind fun s => ?_
  refine .ofOption_bind hB.comp fun opened => ?_
  split
  · exact .pure hB.comp _
  · split
    · exact .pure hB.comp _
    · refine .ofOption_bind hB.comp fun nack => ?_
      refine .bind hB.comp
        (.forEach hB.comp fun seq _ => hre seq) fun _ => ?_
      exact hseed _ _

/-- A NACK is answered to the member it was verified for, from the keys and chains of that moment. -/
theorem handleNack_obeysAt (hB : Background R gaps) (hre : ∀ seq, Obeys R (retransmit C me seq))
    (hseed : ∀ convId senderId stripped,
      openPairwise C me s buf = some (some (convId, senderId, stripped)) →
      ∀ t : Client, t.core = s.core → ObeysAt R (reshareSeed C me convId senderId) t) :
    ObeysAt R (handleNack C me buf) s := by
  unfold ObeysAt handleNack
  rw [get_bind]
  rcases hopen : openPairwise C me s buf with _ | _ | ⟨convId, senderId, stripped⟩
  · exact hB.comp.refl s
  · exact hB.comp.refl s
  rw [ofOption_some_bind]
  simp only
  cases s.getCurrentKey convId with
  | none => exact hB.comp.refl s
  | some convKey =>
    simp only
    cases Codec.decodeNack C stripped convKey with
    | none => exact hB.comp.refl s
    | some nack =>
      -- repeated transmissions leave the keys and chains alone
      have hcore : ObeysAt (fun s (_ : List Output) t => t.core = s.core)
          (forEach (retransmit C me) nack.missingSeq) s :=
        Obeys.forEach background_core.comp (fun seq _ => retransmit_core seq) s
      rw [ofOption_some_bind]
      refine ObeysAt.bind hB.comp (Obeys.forEach hB.comp (fun seq _ => hre seq) s) ?_
      exact fun _ _ => hseed convId senderId stripped hopen _ hcore

/-- A frame does what the handler of its type does. -/
theorem handleMessage_obeysAt (hB : Background R gaps)
    (h : ∀ type, buf.readUInt8 0 = some type → ObeysAt R (handlerOf C me type buf) s) :
    ObeysAt R (handleMessage C me buf) s := by
  unfold handleMessage
  refine .bind hB.comp (.attempt ?_) fun _ _ => hB.comp.refl _
  unfold dispatch
  cases htype : buf.readUInt8 0 with
  | none => exact hB.comp.refl s
  | some type =>
    rw [ofOption_some_bind]
    exact h type htype

/-- One case per frame type. -/
theorem handlerOf_cases {P : ClientProg Unit → Prop} {type : ℕ}
    (hdata : type = TYPE_DATA → P (handleData C me buf))
    (hchain : type = TYPE_CHAIN_SHARE → P (handleChainShare C me buf))
    (hnack : type = TYPE_NACK → P (handleNack C me buf))
    (hkey : type = TYPE_KEY_SHARE → P (handleKeyShare C me buf))
    (hinfo : type = TYPE_MEMBER_INFO → P (handleMemberInfo C me buf))
    (hsync : type = TYPE_SYNC → P (handleSync C me buf))
    (hreset : type = TYPE_DICT_RESET → P (handleDictReset C me buf))
    (hack : type = TYPE_ACK → P (handleAck C me buf)) (hother : P (pure ())) :
    P (handlerOf C me type buf) := by
  have hsplit : ∀ {n : ℕ} {m m' : ClientProg Unit}, (type = n → P m) → P m' →
      P (if type = n then m else m') := by
    intro n m m' h h'
    split
    · rename_i hn
      exact h hn
    · exact h'
  exact hsplit hdata (hsplit hchain (hsplit hnack (hsplit hkey (hsplit hinfo (hsplit hsync
    (hsplit hreset (hsplit hack hother)))))))

/-- **What the handlers can do**, given those for Data, chain shares, NACKs and resets. -/
theorem handlerOf_obeysAt (hK : KeyRules C me R gaps)
    (hsync : ∀ buf, Obeys R (handleSync C me buf)) {type : ℕ}
    (hdata : type = TYPE_DATA → ObeysAt R (handleData C me buf) s)
    (hshare : type = TYPE_CHAIN_SHARE → ObeysAt R (handleChainShare C me buf) s)
    (hnack : type = TYPE_NACK → ObeysAt R (handleNack C me buf) s)
    (hreset : type = TYPE_DICT_RESET → ObeysAt R (handleDictReset C me buf) s) :
    ObeysAt R (handlerOf C me type buf) s :=
  handlerOf_cases (P := fun m => ObeysAt R m s) hdata hshare hnack
    (fun _ => handleKeyShare_obeys hK.toAdoptRules buf s) (fun _ => handleMemberInfo_obeys hK buf s)
    (fun _ => hsync buf s) hreset (fun _ => handleAck_obeys hK.toBackground buf s)
    (Obeys.pure hK.comp _ s)

/-- What an event can do, given sends, frames, share retries, rotations and NACK retries. -/
theorem step_obeysAt_gaps (hB : Background R gaps) (hclose : e = .close → R s [] (closeClient s))
    (hsend : ∀ convId payload, e = .sendData convId payload →
      ObeysAt R (sendData C me convId payload) s)
    (hmessage : ∀ buf, e = .message buf → s.closed = false →
      ObeysAt R (handleMessage C me buf) s)
    (hretry : ∀ i, e = .shareTimer i → ObeysAt R (step C me (.shareTimer i)) s)
    (hrekey : e = .rekeyTimer → ObeysAt R (step C me .rekeyTimer) s)
    (hnack : ∀ senderId, e = .nackRetryTimer senderId →
      ObeysAt R (step C me (.nackRetryTimer senderId)) s) :
    ObeysAt R (step C me e) s := by
  cases e with
  | sendData convId payload => exact hsend convId payload rfl
  | joinConversation convId => exact joinConversation_obeys hB convId s
  | message buf =>
    unfold ObeysAt
    rw [step_message]
    split
    · exact hB.comp.refl s
    · rename_i hopen
      exact hmessage buf rfl (by simpa using hopen)
  | shareTimer i => exact hretry i rfl
  | joinTimer i =>
    have h : Obeys R (step C me (.joinTimer i)) :=
      fire_obeys hB (fun s => hB.bookkeeping _ _ rfl) (sendKeyReq_obeys hB)
    exact h s
  | rekeyTimer => exact hrekey rfl
  | probeTimer =>
    have h : Obeys R (step C me .probeTimer) :=
      fire_obeys hB (fun s => hB.bookkeeping _ _ rfl) (runProbe_obeys hB)
    exact h s
  | nackRetryTimer senderId => exact hnack senderId rfl
  | ackTimer senderId =>
    have h : Obeys R (step C me (.ackTimer senderId)) :=
      fire_obeys hB (fun s => hB.bookkeeping _ _ rfl) fun p => sendControl_obeys hB _ _ _
    exact h s
  | optimisticTimer seq =>
    have h : Obeys R (step C me (.optimisticTimer seq)) :=
      fire_obeys hB (fun s => hB.bookkeeping _ _ rfl) fun _ => hB.modify fun _ => rfl
    exact h s
  | addPeer peer =>
    have h : Obeys R (step C me (.addPeer peer)) := hB.modify fun _ => rfl
    exact h s
  | setServerFingerprint fp =>
    have h : Obeys R (step C me (.setServerFingerprint fp)) := hB.modify fun _ => rfl
    exact h s
  | enableFallback =>
    have h : Obeys R (step C me .enableFallback) := by
      refine hB.modify fun s => ?_
      split <;> rfl
    exact h s
  | disableFallback =>
    have h : Obeys R (step C me .disableFallback) := hB.modify fun _ => rfl
    exact h s
  | close => exact hclose rfl

/-- What an event can do, given sends, frames, share retries and rotations. -/
theorem step_obeysAt_with (hB : Background R) (hclose : e = .close → R s [] (closeClient s))
    (hsend : ∀ convId payload, e = .sendData convId payload →
      ObeysAt R (sendData C me convId payload) s)
    (hmessage : ∀ buf, e = .message buf → s.closed = false →
      ObeysAt R (handleMessage C me buf) s)
    (hretry : ∀ i, e = .shareTimer i → ObeysAt R (step C me (.shareTimer i)) s)
    (hrekey : e = .rekeyTimer → ObeysAt R (step C me .rekeyTimer) s) :
    ObeysAt R (step C me e) s := by
  refine step_obeysAt_gaps hB hclose hsend hmessage hretry hrekey fun senderId _ => ?_
  have h : Obeys R (step C me (.nackRetryTimer senderId)) :=
    fire_obeys hB (fun s => hB.bookkeeping _ _ rfl) fun c => runNackRetry_obeys hB c senderId
  exact h s

/-- **What an event can do**, given sends, frames and share retries. -/
theorem step_obeysAt (hK : AdoptRules C me R) (hclose : ∀ s, R s [] (closeClient s))
    (hsend : ∀ convId payload, e = .sendData convId payload →
      ObeysAt R (sendData C me convId payload) s)
    (hmessage : ∀ buf, e = .message buf → ObeysAt R (handleMessage C me buf) s)
    (hretry : ∀ i, e = .shareTimer i → ObeysAt R (step C me (.shareTimer i)) s) :
    ObeysAt R (step C me e) s := by
  have hB := hK.toBackground
  refine step_obeysAt_with hB (fun _ => hclose s) hsend (fun buf he _ => hmessage buf he) hretry
    fun _ => ?_
  have h : Obeys R (step C me .rekeyTimer) :=
    fire_obeys hB (fun s => hB.bookkeeping _ _ rfl) (rekey_obeys hK)
  exact h s

/-- **What an event can do**, handler by handler.  The received half needs its rules only; sends, chain
shares, NACKs and share retries are left to the caller. -/
theorem step_obeysAt_of_handlers (hK : KeyRules C me R) (hV : ∀ senderId, ReceiveRules C R senderId)
    (hensure : ∀ s senderId, R s [] (ensureReceived senderId s))
    (hreset : ∀ s targetId, R s [] (applyDictReset me targetId s))
    (hclose : ∀ s, R s [] (closeClient s))
    (hsend : ∀ convId payload, e = .sendData convId payload →
      ObeysAt R (sendData C me convId payload) s)
    (hshare : ∀ buf, e = .message buf → buf.readUInt8 0 = some TYPE_CHAIN_SHARE →
      ObeysAt R (handleChainShare C me buf) s)
    (hnack : ∀ buf, e = .message buf → buf.readUInt8 0 = some TYPE_NACK →
      ObeysAt R (handleNack C me buf) s)
    (hretry : ∀ i, e = .shareTimer i → ObeysAt R (step C me (.shareTimer i)) s) :
    ObeysAt R (step C me e) s := by
  have hB := hK.toBackground
  refine step_obeysAt hK.toAdoptRules hclose hsend (fun buf he => ?_) hretry
  apply handleMessage_obeysAt hB
  intro type htype
  refine handlerOf_obeysAt hK (handleSync_obeys hB hensure)
    (fun _ => handleData_obeys hB hV buf s) ?_ ?_ (fun _ => handleDictReset_obeys hB hreset buf s)
  · exact fun h => hshare buf he (by rw [htype, h])
  · exact fun h => hnack buf he (by rw [htype, h])

/-! ### Statements about a part of the state -/

namespace FlowRules

/-- What the handlers can do, given those for chain shares, keys, rosters and resets. -/
theorem handlerOf (hF : FlowRules C R) {type : ℕ}
    (hshare : type = TYPE_CHAIN_SHARE → ObeysAt R (handleChainShare C me buf) s)
    (hkey : type = TYPE_KEY_SHARE → ObeysAt R (handleKeyShare C me buf) s)
    (hinfo : type = TYPE_MEMBER_INFO → ObeysAt R (handleMemberInfo C me buf) s)
    (hreset : type = TYPE_DICT_RESET → ObeysAt R (handleDictReset C me buf) s) :
    ObeysAt R (DartProtocol.handlerOf C me type buf) s := by
  have hB := hF.toBackground
  refine handlerOf_cases (P := fun m => ObeysAt R m s)
    (fun _ => handleData_obeys hB hF.receive buf s) hshare (fun _ => handleNack_obeys hB ?_ ?_ buf s)
    hkey hinfo (fun _ => handleSync_obeys hB hF.ensureReceived buf s) hreset
    (fun _ => handleAck_obeys hB buf s) (hB.comp.refl s)
  · exact fun seq t => retransmit_obeysAt hB fun _ _ _ _ u _ _ _ => hF.encoded u _
  · exact fun _ _ t => reshareSeed_obeysAt hB fun u share _ _ _ _ => hF.chainShared u share

theorem shareTimer (hF : FlowRules C R) (i : ℕ) : Obeys R (step C me (.shareTimer i)) :=
  fire_obeys hF.toBackground (fun t => hF.retries t _) fun retry =>
    runShareRetry_obeys hF.toBackground retry fun _ _ _ _ _ u share _ _ _ _ _ =>
      hF.chainShared u share

/-- A reset empties a history. -/
theorem handleDictReset (hF : FlowRules C R) (hsent : ∀ s : Client, R s [] { s with sentMessages := ∅ })
    (buf : Buffer) : Obeys R (DartProtocol.handleDictReset C me buf) := by
  refine handleDictReset_obeys hF.toBackground (fun s targetId => ?_) buf
  unfold applyDictReset
  split
  · exact hsent s
  · exact (hF.receive targetId).clearReceived s

end FlowRules

namespace PartRules

theorem flow (hP : PartRules C me R) : FlowRules C R :=
  ⟨hP.toBackground, hP.receive, hP.ensureReceived, hP.retries, hP.chainShared, hP.encoded⟩

theorem adopts (hP : PartRules C me R) : AdoptRules C me R where
  toBackground := hP.toBackground
  shareKey := fun convId => shareWithNewMembers_obeys hP.toBackground (fun s f => hP.flags s f _)
    convId fun s _ _ _ _ => hP.retries s _
  shareChain := fun _ _ _ => shareChainWithMembers_obeysAt hP.toBackground
    (fun t g => hP.flags t _ g) (fun t _ _ _ => hP.retries t _)
    fun t share _ _ _ _ => hP.chainShared t share
  installKey := hP.installKey
  startChain := hP.startChain
  pruneEpochs := hP.pruneEpochs

/-- An event that neither sends nor resets nor brings a roster obeys the rules. -/
theorem step_of (hP : PartRules C me R) {e : Event} {s : Client}
    (hsend : ∀ convId payload, e = .sendData convId payload →
      ObeysAt R (sendData C me convId payload) s)
    (hinfo : ∀ buf, e = .message buf → buf.readUInt8 0 = some TYPE_MEMBER_INFO →
      ObeysAt R (handleMemberInfo C me buf) s)
    (hreset : ∀ buf, e = .message buf → buf.readUInt8 0 = some TYPE_DICT_RESET →
      ObeysAt R (handleDictReset C me buf) s) : ObeysAt R (step C me e) s := by
  have hB := hP.toBackground
  refine step_obeysAt hP.adopts hP.close hsend ?_ ?_
  · intro buf he
    refine handleMessage_obeysAt hB fun type htype => ?_
    exact hP.flow.handlerOf (fun _ => handleChainShare_obeysAt hB fun _ _ _ _ _ => hP.setChain s _ _ _ _)
      (fun _ => handleKeyShare_obeys hP.adopts buf s) (fun h => hinfo buf he (by rw [htype, h]))
      fun h => hreset buf he (by rw [htype, h])
  · exact fun i _ => hP.flow.shareTimer i s

end PartRules

namespace FrameRules

theorem keys (hF : FrameRules C me R) : KeyRules C me R where
  toAdoptRules := hF.toPartRules.adopts
  installRoster := hF.installRoster

/-- An event that neither sends nor resets obeys the rules. -/
theorem step_of (hF : FrameRules C me R) {e : Event} {s : Client}
    (hsend : ∀ convId payload, e = .sendData convId payload →
      ObeysAt R (sendData C me convId payload) s)
    (hreset : ∀ buf, e = .message buf → buf.readUInt8 0 = some TYPE_DICT_RESET →
      ObeysAt R (handleDictReset C me buf) s) : ObeysAt R (step C me e) s :=
  hF.toPartRules.step_of hsend (fun buf _ _ => handleMemberInfo_obeys hF.keys buf s) hreset

/-- Statements about streams, where chains and shares play no part. -/
theorem of_streams (hB : Background R) (hV : ∀ senderId, ReceiveRules C R senderId)
    (hensure : ∀ s senderId, R s [] (DartProtocol.ensureReceived senderId s))
    (h : ∀ s t : Client, t.streams = s.streams → R s [] t)
    (hchains : ∀ (s : Client) chains, R s [] { s with senderChains := chains })
    (hclose : ∀ s, R s [] (closeClient s)) (hshared : ∀ s share, R s [.chainShared share] s)
    (hencoded : ∀ s e, R s [.encoded e] s)
    (hstarted : ∀ s convId epoch seed, R s [.chainStarted convId epoch seed] s) :
    FrameRules C me R where
  toBackground := hB
  receive := hV
  ensureReceived := hensure
  flags := fun _ _ _ => h _ _ rfl
  retries := fun _ _ => h _ _ rfl
  chainShared := hshared
  encoded := hencoded
  installKey := fun _ _ _ _ => h _ _ rfl
  startChain := by
    intro s convId epoch seed
    have hset : R s [] (s.setChain convId epoch me.senderId ⟨seed, 0⟩) := hchains s _
    have hseed : R (s.setChain convId epoch me.senderId ⟨seed, 0⟩) []
        (DartProtocol.startChain me convId epoch seed s) := h _ _ rfl
    exact hB.comp.trans (hB.comp.trans hset hseed) (hstarted _ convId epoch seed)
  pruneEpochs := fun s convId => h _ _ (pruneEpochs_streams convId s)
  setChain := fun s _ _ _ _ => hchains s _
  close := hclose
  installRoster := fun _ _ _ => h _ _ rfl

end FrameRules

end DartProtocol
