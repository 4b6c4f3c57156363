import DartProtocol.MessageKeys

/-!
# A receiver stays on the sender's chain

Chain shares may reach a receiver in any order, repeated and stale, and each one overwrites the state
it holds; decryptions skip over lost indices; and the sender may start a chain anew within an epoch.
Whatever the order, the state a receiver stores for a sender lies on a chain the sender started for
that conversation and epoch, and from such a state the key of every later dart on the same chain is
derived.

* `HeldOnChain` — the states held for a sender lie on its chains, kept by every event of a receiver;
* `CachedOnChain` — the message keys a sender caches belong to its chains, so that everything it
  encodes, first or again, is made on a chain it started;
* `decryptDataInOrder_onChain` — from a state on the chain of a dart, at or before its index, the
  dart decrypts under exactly the key it was encrypted under.

**Main result** (`receiver_stays_on_chain`): these together, over every run of both sides.
-/

namespace DartProtocol

variable {C : Crypto}

/-! ### The states a receiver holds -/

/-- The states held for a sender lie on chains it started. -/
def HeldOnChain (C : Crypto) (sender : ℕ) (sent : List Output) (s : Client) : Prop :=
  ∀ convId epoch st, s.getChain convId epoch sender = some st → OnChain C sent convId epoch st

/-- The states held for a sender stay on its chains. -/
def KeepsHeld (C : Crypto) (sender : ℕ) (sent : List Output) :
    Client → List Output → Client → Prop :=
  fun s _ t => HeldOnChain C sender sent s → HeldOnChain C sender sent t

section Held

variable {me : Identity} {sender : ℕ} {sent : List Output}

theorem HeldOnChain.setChain {s : Client} (h : HeldOnChain C sender sent s) {convId epoch m : ℕ}
    {st : ChainState} (hst : m = sender → OnChain C sent convId epoch st) :
    HeldOnChain C sender sent (s.setChain convId epoch m st) := by
  exact Client.forall_getChain_setChain h hst

theorem KeepsHeld.of_fields {s t : Client} {os : List Output}
    (h : t.senderChains = s.senderChains) : KeepsHeld C sender sent s os t := by
  intro hs convId epoch st hget
  rw [Client.getChain, h] at hget
  exact hs convId epoch st hget

theorem keepsHeld_background : Background (KeepsHeld C sender sent) where
  comp := Prog.composable_preserves (HeldOnChain C sender sent)
  bookkeeping := fun _ _ hcore => KeepsHeld.of_fields (congrArg (fun c => c.senderChains) hcore)
  broadcast := fun _ _ _ => KeepsHeld.of_fields rfl

theorem KeepsHeld.of_rest {s t : Client} (h : t.rest = s.rest) : KeepsHeld C sender sent s [] t :=
  KeepsHeld.of_fields (congrArg (·.senderChains) h)

theorem keepsHeld_receive (senderId : ℕ) : ReceiveRules C (KeepsHeld C sender sent) senderId := by
  refine .of_rest keepsHeld_background (fun _ _ => KeepsHeld.of_rest)
    (fun _ _ => KeepsHeld.of_fields rfl) (fun _ _ => KeepsHeld.of_fields rfl) ?_
  intro s buf dec s' hopen hs
  obtain ⟨convId, epoch, idx, chain, _, _, _, hget, hle, _, rfl⟩ := openData_eq hopen
  apply hs.setChain
  intro hid
  rw [hid] at hget
  exact (hs convId epoch chain hget).advance hle

theorem keepsHeld_flow : FlowRules C (KeepsHeld C sender sent) where
  toBackground := keepsHeld_background
  receive := keepsHeld_receive
  ensureReceived := fun s senderId => KeepsHeld.of_rest (ensureReceived_rest senderId s)
  retries := fun _ _ => KeepsHeld.of_fields rfl
  chainShared := fun _ _ => KeepsHeld.of_fields rfl
  encoded := fun _ _ => KeepsHeld.of_fields rfl

theorem keepsHeld_keys (hne : me.senderId ≠ sender) : KeyRules C me (KeepsHeld C sender sent) :=
  .of_streams keepsHeld_background (fun _ _ h => KeepsHeld.of_fields (congrArg (·.senderChains) h))
    (fun _ _ => KeepsHeld.of_fields rfl)
    fun _ _ _ _ hs => hs.setChain fun hid => absurd hid hne

/-- One event of a receiver keeps the states it holds for a sender on the sender's chains. -/
theorem step_keepsHeld (hne : me.senderId ≠ sender)
    (hgood : ∀ share, Output.chainShared share ∈ sent → GoodShare C sent share) {es : List Event}
    {e : Event} (hshares : SharesFrom C me sender (fun _ => sent) (es ++ [e])) :
    Prog.ObeysAt (KeepsHeld C sender sent) (step C me e) (stateAfter C me es) := by
  have hB : Background (KeepsHeld C sender sent) := keepsHeld_background
  have hK : KeyRules C me (KeepsHeld C sender sent) := keepsHeld_keys hne
  refine step_obeysAt hK.toAdoptRules (fun _ => KeepsHeld.of_fields rfl) ?_ ?_
    fun i _ => keepsHeld_flow.shareTimer i _
  · intro convId payload _
    apply sendData_obeysAt hB
    · exact fun _ => KeepsHeld.of_fields rfl
    · intro chain _ os t hrest hs
      have hset : HeldOnChain C sender sent ((stateAfter C me es).setChain convId
          ((stateAfter C me es).sendingEpoch convId) me.senderId
          (advanceChain C chain chain.index).2) := hs.setChain fun hid => absurd hid hne
      exact hrest hset
    · exact fun _ _ _ _ _ _ => KeepsHeld.of_fields rfl
  · intro buf he
    subst he
    apply handleMessage_obeysAt hB
    intro type _
    refine keepsHeld_flow.handlerOf (fun _ => handleChainShare_obeysAt hB ?_)
      (fun _ => handleKeyShare_obeys hK.toAdoptRules buf _)
      (fun _ => handleMemberInfo_obeys hK buf _)
      fun _ => keepsHeld_flow.handleDictReset (fun _ => KeepsHeld.of_fields rfl) buf _
    intro convId key decoded hopen hdec hs
    apply hs.setChain
    intro hid
    obtain ⟨share, hmem, hc, hep, hk, hi⟩ := hshares.last hopen hdec hid
    have hon : OnChain C sent share.convId share.epoch ⟨share.chainKey, share.chainIndex⟩ :=
      hgood share hmem
    rw [hc, hep, hk, hi] at hon
    exact hon

theorem heldOnChain_run (hne : me.senderId ≠ sender)
    (hgood : ∀ share, Output.chainShared share ∈ sent → GoodShare C sent share) {es : List Event}
    (hshares : SharesFrom C me sender (fun _ => sent) es) :
    HeldOnChain C sender sent (stateAfter C me es) := by
  induction es using List.reverseRecOn with
  | nil =>
    intro convId epoch st h
    cases h
  | append_singleton es e ih =>
    rw [stateAfter_concat]
    exact step_keepsHeld hne hgood hshares (ih hshares.init)

end Held

/-! ### The keys a sender uses -/

/-- A message key is the one at a position of the chain of a seed. -/
def KeyOf (C : Crypto) (seed : Buffer) (idx : ℕ) (key : Buffer) : Prop :=
  key = chainMessageKey C (chainSteps C idx seed) idx

/-- The message key is one of a chain that was started for the conversation and epoch. -/
def KeyOnChain (C : Crypto) (os : List Output) (convId epoch idx : ℕ) (key : Buffer) : Prop :=
  ∃ seed, Output.chainStarted convId epoch seed ∈ os ∧ KeyOf C seed idx key

variable {os : List Output} {s : Client}

theorem KeyOnChain.mono {convId epoch idx : ℕ} {key : Buffer}
    (h : KeyOnChain C os convId epoch idx key) (os' : List Output) :
    KeyOnChain C (os ++ os') convId epoch idx key := by
  obtain ⟨seed, hmem, hkey⟩ := h
  exact ⟨seed, List.mem_append_left _ hmem, hkey⟩

theorem OnChain.messageKey {convId epoch : ℕ} {st : ChainState} (h : OnChain C os convId epoch st) :
    KeyOnChain C os convId epoch st.index (advanceChain C st st.index).1 := by
  obtain ⟨seed, hmem, hkey⟩ := h
  refine ⟨seed, hmem, ?_⟩
  rw [advanceChain_of_le C (le_refl _), Nat.sub_self, KeyOf]
  show chainMessageKey C st.key st.index = _
  rw [hkey]

/-- A dart and a key cached under the same number belong to a chain that was started. -/
def CachedOnChain (C : Crypto) (os : List Output) (s : Client) : Prop :=
  ∀ seq d mk, s.sentMessages.get seq = some d → s.messageKeys.get seq = some mk →
    KeyOnChain C os d.convId mk.epoch mk.idx mk.key

/-- An encoding is what the encoder makes under a key of a chain that was started. -/
def MadeOnChain (C : Crypto) (me : Identity) (os : List Output) (enc : Encoding) : Prop :=
  Made C me enc ∧ KeyOnChain C os enc.dart.convId enc.epoch enc.idx enc.messageKey

variable {me : Identity}

theorem CachedOnChain.step_of (h : CachedOnChain C os s) {e : Event}
    (hsend : ∀ c p, e ≠ .sendData c p) :
    CachedOnChain C os (step C me e s).state ∧
      ∀ enc ∈ encodings (step C me e s).output,
        MadeOnChain C me os enc := by
  have hstep : Prog.ObeysAt (CacheOnly C me s.sentMessages s.messageKeys) (step C me e) s :=
    step_cacheOnly hsend s
  obtain ⟨hwithin, henc⟩ := hstep ⟨fun seq d hd => hd, rfl⟩
  constructor
  · intro seq d mk hd hmk
    rw [hwithin.2] at hmk
    exact h seq d mk (hwithin.1 seq d hd) hmk
  · intro enc hmem
    obtain ⟨hmade, seq, hdart, hkey⟩ := henc enc (mem_encodings.mp hmem)
    exact ⟨hmade, h seq _ _ hdart hkey⟩

theorem CachedOnChain.send (h : CachedOnChain C os s)
    (hlog : ChainLog C me os s) (convId : ℕ) (payload : String) :
    CachedOnChain C os (sendData C me convId payload s).state ∧
      ∀ enc ∈ encodings (sendData C me convId payload s).output,
        MadeOnChain C me os enc := by
  cases hchain : s.getChain convId (s.sendingEpoch convId) me.senderId with
  | none =>
    rw [sendData_of_no_chain C payload hchain]
    exact ⟨h, fun enc henc => by cases henc⟩
  | some chain =>
    have hkey := (hlog.chains convId _ chain hchain).messageKey
    obtain ⟨hcore, henc⟩ := sendData_run C payload hchain
    have hsent : (sendData C me convId payload s).state.sentMessages
        = pushHistory s.sentMessages (sentDart me convId payload s) :=
      congrArg (fun c => c.sentMessages) hcore
    have hkeys : (sendData C me convId payload s).state.messageKeys
        = (enterSent C me convId payload chain s).messageKeys :=
      congrArg (fun c => c.messageKeys) hcore
    constructor
    · intro seq d mk hd hmk
      rw [hsent, get_pushHistory] at hd
      rw [hkeys] at hmk
      rcases enterSent_messageKeys hmk with ⟨hq, rfl⟩ | ⟨hq, hold⟩
      · rw [if_pos (show (sentDart me convId payload s).seq = seq from hq)] at hd
        cases hd
        exact hkey
      · rw [if_neg (show ¬ (sentDart me convId payload s).seq = seq from hq)] at hd
        exact h seq d mk (Option.filter_eq_some_iff.mp hd).1 hold
    · intro enc hmem
      rw [henc, Option.mem_toList, Option.map_eq_some_iff] at hmem
      obtain ⟨buf, hbuf, rfl⟩ := hmem
      exact ⟨⟨⟨_, rfl⟩, hbuf⟩, hkey⟩

theorem madeOnChain_run {es : List Event}
    (hshares : SharesFrom C me me.senderId (outputsOf C me) es) :
    CachedOnChain C (outputsOf C me es) (stateAfter C me es) ∧
      ∀ enc ∈ encodings (outputsOf C me es), MadeOnChain C me (outputsOf C me es) enc := by
  induction es using List.reverseRecOn with
  | nil =>
    constructor
    · intro seq d mk hd
      cases hd
    · intro enc henc
      cases henc
  | append_singleton es e ih =>
    obtain ⟨hcached, hencoded⟩ := ih hshares.init
    have hlog := chainLog_run es hshares.init
    have hstep : CachedOnChain C (outputsOf C me es) (step C me e (stateAfter C me es)).state ∧
        ∀ enc ∈ encodings (step C me e (stateAfter C me es)).output,
          MadeOnChain C me (outputsOf C me es) enc := by
      by_cases hsend : ∃ c p, e = .sendData c p
      · obtain ⟨convId, payload, rfl⟩ := hsend
        exact hcached.send hlog convId payload
      · exact hcached.step_of fun c p he => hsend ⟨c, p, he⟩
    rw [outputsOf_concat, stateAfter_concat]
    constructor
    · exact fun seq d mk hd hmk => (hstep.1 seq d mk hd hmk).mono _
    · intro enc hmem
      rw [encodings_append, List.mem_append] at hmem
      rcases hmem with hmem | hmem
      · exact ⟨(hencoded enc hmem).1, (hencoded enc hmem).2.mono _⟩
      · exact ⟨(hstep.2 enc hmem).1, (hstep.2 enc hmem).2.mono _⟩

/-! ### Decryption -/

/-- A decryption that fails, by an exception or by ignoring the packet, leaves everything as it
was. -/
theorem decryptDataInOrder_of_failed {buf : Buffer} {senderId : ℕ}
    (h : ∀ dec, (decryptDataInOrder C buf senderId s).result ≠ some (some dec)) :
    (decryptDataInOrder C buf senderId s).state = s := by
  rw [decryptDataInOrder_run] at h ⊢
  rcases hopen : openData C s buf senderId with _ | _ | ⟨dec, s'⟩
  · rfl
  · rfl
  · rw [hopen] at h
    exact absurd rfl (h dec)

/-- **The right key is derived.**  From a state on the chain of a dart, at or before its index, the
dart decrypts under the key it was encrypted under, and the state moves to the next index of the same
chain. -/
theorem decryptDataInOrder_onChain (hC : C.Lawful) {enc : Encoding}
    (hme : me.Lawful) (hmade : Made C me enc) (hidx : enc.idx < 2 ^ 32) {seed : Buffer}
    (hkey : KeyOf C seed enc.idx enc.messageKey) {st : ChainState} {sender : ℕ}
    (hget : s.getChain enc.dart.convId enc.epoch sender = some st)
    (hst : st.key = chainSteps C st.index seed) (hle : st.index ≤ enc.idx) :
    (advanceChain C st enc.idx).1 = enc.messageKey ∧
      ∃ dec, decryptDataInOrder C enc.buf sender s
        = ⟨some (some dec), s.setChain enc.dart.convId enc.epoch sender
            ⟨chainSteps C (enc.idx + 1) seed, enc.idx + 1⟩, []⟩ := by
  have hadvance : advanceChain C st enc.idx
      = (enc.messageKey, ⟨chainSteps C (enc.idx + 1) seed, enc.idx + 1⟩) := by
    have hsteps (n : ℕ) (hn : st.index ≤ n) : chainSteps C (n - st.index) st.key
        = chainSteps C n seed := by
      rw [hst, ← chainSteps_add, Nat.add_sub_cancel' hn]
    rw [advanceChain_of_le C hle, hsteps enc.idx hle, ← hkey,
      show enc.idx - st.index + 1 = enc.idx + 1 - st.index by omega, hsteps _ (by omega)]
  obtain ⟨⟨i, hi⟩, hbuf⟩ := hmade
  have hnonce : enc.nonce.length = 12 := by rw [hi, hme]
  have hheader := Codec.headerFields_of_encode hC hnonce hbuf
  have hdec := Codec.decryptData_of_encode hC hnonce hbuf
  refine ⟨by rw [hadvance], ?_⟩
  rw [decryptDataInOrder_run, openData, hheader.epoch, hheader.idx, hheader.convId]
  simp only [Option.bind_eq_bind, Option.bind_some, Nat.mod_eq_of_lt hidx, hget]
  rw [if_neg (by omega), hadvance, hdec]
  exact ⟨_, rfl⟩

/-- **A receiver stays on the sender's chain.**  Take a run `fs` of a sender and a run `es` of a
receiver, of any length, in which accepted chain shares are authentic.

* Every state the receiver holds for the sender is some number `i` of steps from a seed the sender
  generated for that conversation and epoch, with index `i`.
* A decryption that fails, in whatever state, changes nothing.
* Every dart the sender encodes, first or again, is encrypted under a key of a chain it started for
  the conversation and epoch; and in every state on the same chain, at or before the dart's index,
  `decryptDataInOrder` derives exactly that key, decrypts the dart and stays on the chain. -/
theorem receiver_stays_on_chain (hC : C.Lawful) {S R : Identity} (hS : S.Lawful)
    (hne : R.senderId ≠ S.senderId) {fs es : List Event}
    (hown : SharesFrom C S S.senderId (outputsOf C S) fs)
    (hshares : SharesFrom C R S.senderId (fun _ => outputsOf C S fs) es) :
    (∀ convId epoch st, (stateAfter C R es).getChain convId epoch S.senderId = some st →
        ∃ seed i, Output.chainStarted convId epoch seed ∈ outputsOf C S fs ∧
          st = ⟨chainSteps C i seed, i⟩) ∧
      (∀ buf s, (∀ dec, (decryptDataInOrder C buf S.senderId s).result ≠ some (some dec)) →
        (decryptDataInOrder C buf S.senderId s).state = s) ∧
      ∀ enc ∈ encodings (outputsOf C S fs),
        (∃ seed, Output.chainStarted enc.dart.convId enc.epoch seed ∈ outputsOf C S fs ∧
          KeyOf C seed enc.idx enc.messageKey) ∧
        (enc.idx < 2 ^ 32 → ∀ seed i, KeyOf C seed enc.idx enc.messageKey → i ≤ enc.idx → ∀ s,
          s.getChain enc.dart.convId enc.epoch S.senderId = some ⟨chainSteps C i seed, i⟩ →
          (advanceChain C ⟨chainSteps C i seed, i⟩ enc.idx).1 = enc.messageKey ∧
            ∃ dec, decryptDataInOrder C enc.buf S.senderId s
              = ⟨some (some dec), s.setChain enc.dart.convId enc.epoch S.senderId
                  ⟨chainSteps C (enc.idx + 1) seed, enc.idx + 1⟩, []⟩) := by
  have hgood := (chainLog_run fs hown).shared
  refine ⟨?_, fun buf s => decryptDataInOrder_of_failed, ?_⟩
  · intro convId epoch st hget
    obtain ⟨seed, hmem, hkey⟩ := heldOnChain_run hne hgood hshares convId epoch st hget
    refine ⟨seed, st.index, hmem, ?_⟩
    rw [← hkey]
  · intro enc henc
    obtain ⟨hmade, hkey⟩ := (madeOnChain_run hown).2 enc henc
    refine ⟨hkey, ?_⟩
    intro hidx seed i hseed hle s hget
    exact decryptDataInOrder_onChain hC hS hmade hidx hseed hget rfl hle

/-- The sender founds the group, sends twice, and both of its retries fire. -/
def sharingRun : List Event :=
  [.message (sumMemberInfo 5 1 true [1, 2]), .sendData 5 "a", .sendData 5 "b", .shareTimer 3]

/-- The receiver gets the roster and everything the sender emits in this order; the stale share at the
end rolls its state back. -/
def sharingArrivals : List Event :=
  (sumMemberInfo 5 2 false [1, 2] ::
    framesOf (outputsOf sumCrypto (sumIdentity 1) sharingRun)).map Event.message

/-- A stale share rolls the receiver back to the seed, from which the second dart still decrypts. -/
theorem receiver_stays_on_chain_rollback :
    (∃ seed, (stateAfter sumCrypto (sumIdentity 2) sharingArrivals).getChain 5 1 1
        = some ⟨chainSteps sumCrypto 0 seed, 0⟩ ∧
      Output.chainStarted 5 1 seed ∈ outputsOf sumCrypto (sumIdentity 1) sharingRun) ∧
    ∃ enc ∈ encodings (outputsOf sumCrypto (sumIdentity 1) sharingRun), enc.idx = 1 ∧
      ∃ dec, (decryptDataInOrder sumCrypto enc.buf 1
        (stateAfter sumCrypto (sumIdentity 2) sharingArrivals)).result = some (some dec) := by
  have hauthentic : SharesFrom sumCrypto (sumIdentity 1) 1 (outputsOf sumCrypto (sumIdentity 1))
        sharingRun ∧
      SharesFrom sumCrypto (sumIdentity 2) 1
        (fun _ => outputsOf sumCrypto (sumIdentity 1) sharingRun) sharingArrivals := by
    unfold SharesFrom
    decide +kernel
  have hrun : ∃ st ∈ (stateAfter sumCrypto (sumIdentity 2) sharingArrivals).getChain 5 1 1,
      st.index = 0 ∧
        ∃ enc ∈ encodings (outputsOf sumCrypto (sumIdentity 1) sharingRun), enc.idx = 1 ∧
          enc.dart.convId = 5 ∧ enc.epoch = 1 ∧
          enc.messageKey = chainMessageKey sumCrypto (chainSteps sumCrypto 1 st.key) 1 := by
    decide +kernel
  obtain ⟨hown, hshares⟩ := hauthentic
  obtain ⟨st, hst, hindex, enc, henc, hidx, hconv, hepoch, hkey⟩ := hrun
  obtain ⟨hheld, -, hdarts⟩ := receiver_stays_on_chain sumCrypto_lawful (sumIdentity_lawful 1)
    (R := sumIdentity 2) (by decide) hown hshares
  obtain ⟨seed, i, hmem, heq⟩ := hheld 5 1 st hst
  have hi : i = 0 := by rw [← hindex, heq]
  subst hi
  have hst' : (stateAfter sumCrypto (sumIdentity 2) sharingArrivals).getChain 5 1 1
      = some ⟨chainSteps sumCrypto 0 seed, 0⟩ := by rw [← heq]; exact hst
  refine ⟨⟨seed, hst', hmem⟩, enc, henc, hidx, ?_⟩
  have hseed : KeyOf sumCrypto seed enc.idx enc.messageKey := by
    rw [KeyOf, hidx, hkey, heq]
    rfl
  obtain ⟨-, dec, hdec⟩ := (hdarts enc henc).2 (by rw [hidx]; decide) seed 0 hseed (Nat.zero_le _)
    (stateAfter sumCrypto (sumIdentity 2) sharingArrivals) (by rw [hconv, hepoch]; exact hst')
  refine ⟨dec, ?_⟩
  have hrun' := congrArg (fun r => r.result) hdec
  exact hrun'

end DartProtocol
