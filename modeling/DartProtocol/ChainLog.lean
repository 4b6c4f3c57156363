import DartProtocol.StreamSend

/-!
# Where the states of own chains come from

A client hands out states of its own chains in several places: when a chain starts, to newcomers, in
delayed retries and in answers to NACKs.  `ChainLog` ties all of them to the chains the client
started: a state in use, kept as a seed, waiting in a retry or handed out lies on a chain that was
started for its conversation and epoch.

* `OnChain` — the state is some number of steps from a seed;
* `KeepsChainLog` — every kind of change keeps the record;
* `chainLog_run` — the record over every run, of any length.

A client also accepts chain shares in its own name; `SharesFrom` says that those were handed out.
-/

namespace DartProtocol

open Prog InsertionMap

/-! ### The record -/

/-- The chain state lies on a chain that was started for the conversation and epoch. -/
def OnChain (C : Crypto) (os : List Output) (convId epoch : ℕ) (st : ChainState) : Prop :=
  ∃ seed, Output.chainStarted convId epoch seed ∈ os ∧ st.key = chainSteps C st.index seed

variable {os : List Output} {es : List Event}

theorem OnChain.mono {C : Crypto} {convId epoch : ℕ} {st : ChainState}
    (h : OnChain C os convId epoch st) (os' : List Output) :
    OnChain C (os ++ os') convId epoch st := by
  obtain ⟨seed, hmem, hkey⟩ := h
  exact ⟨seed, List.mem_append_left _ hmem, hkey⟩

theorem OnChain.advance {C : Crypto} {convId epoch : ℕ} {st : ChainState}
    (h : OnChain C os convId epoch st) {t : ℕ} (ht : st.index ≤ t) :
    OnChain C os convId epoch (advanceChain C st t).2 := by
  obtain ⟨seed, hmem, hkey⟩ := h
  refine ⟨seed, hmem, ?_⟩
  rw [advanceChain_of_le C ht]
  show chainSteps C (t - st.index + 1) st.key = chainSteps C (t + 1) seed
  rw [hkey, ← chainSteps_add]
  congr 1
  omega

/-- A chain share hands out a state of an own chain. -/
def GoodShare (C : Crypto) (os : List Output) (share : ChainShareDart) : Prop :=
  OnChain C os share.convId share.epoch ⟨share.chainKey, share.chainIndex⟩

/-- A pending retry hands out states of own chains only. -/
def GoodRetry (C : Crypto) (os : List Output) : ShareRetry → Prop
  | .key _ _ _ _ _ => True
  | .chain convId epoch _ chain => OnChain C os convId epoch chain

theorem GoodRetry.mono {C : Crypto} {r : ShareRetry} (h : GoodRetry C os r)
    (os' : List Output) : GoodRetry C (os ++ os') r := by
  cases r with
  | key => trivial
  | chain convId epoch targets chain => exact OnChain.mono h os'

/-- The states of own chains lie on chains the client started. -/
structure ChainLog (C : Crypto) (me : Identity) (os : List Output) (s : Client) : Prop where
  chains : ∀ convId epoch st, s.getChain convId epoch me.senderId = some st →
    OnChain C os convId epoch st
  seeds : ∀ convId epoch st, get₂ s.chainSeeds convId epoch = some st →
    OnChain C os convId epoch st
  retries : ∀ r ∈ s.shareTimers, GoodRetry C os r
  shared : ∀ share, Output.chainShared share ∈ os → GoodShare C os share

variable {C : Crypto} {me : Identity}

namespace ChainLog

theorem init : ChainLog C me [] {} := by
  constructor
  · intro convId epoch st h
    cases h
  · intro convId epoch st h
    cases h
  · intro r hr
    cases hr
  · intro share h
    cases h

variable {os : List Output} {s : Client}

theorem append {os' : List Output} (h : ChainLog C me os s)
    (hshared : ∀ share, Output.chainShared share ∈ os' → GoodShare C os share) :
    ChainLog C me (os ++ os') s := by
  constructor
  · exact fun convId epoch st hst => (h.chains convId epoch st hst).mono os'
  · exact fun convId epoch st hst => (h.seeds convId epoch st hst).mono os'
  · exact fun r hr => (h.retries r hr).mono os'
  · intro share hs
    rcases List.mem_append.mp hs with hs | hs
    · exact OnChain.mono (h.shared share hs) os'
    · exact OnChain.mono (hshared share hs) os'

/-- A state that differs only in fields the record does not speak about. -/
theorem of_fields {t : Client} (h : ChainLog C me os s)
    (h₁ : t.senderChains = s.senderChains) (h₂ : t.chainSeeds = s.chainSeeds)
    (h₃ : t.shareTimers = s.shareTimers) : ChainLog C me os t := by
  refine ⟨?_, h₂ ▸ h.seeds, h₃ ▸ h.retries, h.shared⟩
  intro convId epoch st hst
  rw [Client.getChain, h₁] at hst
  exact h.chains convId epoch st hst

theorem setChain (h : ChainLog C me os s) {convId epoch m : ℕ}
    {st : ChainState} (hst : m = me.senderId → OnChain C os convId epoch st) :
    ChainLog C me os (s.setChain convId epoch m st) := by
  exact ⟨Client.forall_getChain_setChain h.chains hst, h.seeds, h.retries, h.shared⟩

/-- A decrypted packet advances a chain, possibly an own one that was reflected. -/
theorem openData {s' : Client} (h : ChainLog C me os s) {buf : Buffer}
    {senderId : ℕ} {dec : DecryptedData}
    (hopen : DartProtocol.openData C s buf senderId = some (some (dec, s'))) :
    ChainLog C me os s' := by
  obtain ⟨convId, epoch, idx, chain, _, _, _, hget, hle, _, rfl⟩ := openData_eq hopen
  refine h.setChain fun hm => ?_
  rw [hm] at hget
  exact (h.chains convId epoch chain hget).advance hle

theorem startChain (h : ChainLog C me os s) {convId epoch : ℕ}
    {seed : Buffer} (hseed : OnChain C os convId epoch ⟨seed, 0⟩) :
    ChainLog C me os (DartProtocol.startChain me convId epoch seed s) := by
  have hset : ChainLog C me os (s.setChain convId epoch me.senderId ⟨seed, 0⟩) :=
    h.setChain fun _ => hseed
  refine ⟨hset.chains, ?_, hset.retries, hset.shared⟩
  intro c e st hst
  rw [show (DartProtocol.startChain me convId epoch seed s).chainSeeds
      = set₂ s.chainSeeds convId epoch ⟨seed, 0⟩ from rfl, get₂_set₂] at hst
  split at hst
  · rename_i hc
    obtain ⟨rfl, rfl⟩ := hc
    cases hst
    exact hseed
  · exact h.seeds c e st hst

theorem pruneEpochs (h : ChainLog C me os s) (convId : ℕ) :
    ChainLog C me os (DartProtocol.pruneEpochs convId s) := by
  unfold DartProtocol.pruneEpochs
  cases hkeys : s.roomKeys.get convId with
  | none => exact h
  | some keys =>
    refine ⟨h.chains, ?_, h.retries, h.shared⟩
    intro c e st hst
    simp only at hst
    cases hseeds : s.chainSeeds.get convId with
    | none =>
      rw [hseeds] at hst
      exact h.seeds c e st hst
    | some seeds =>
      rw [hseeds] at hst
      simp only at hst
      rw [get₂, get_set] at hst
      split at hst
      · rename_i hc
        subst hc
        have hget := (get_retain_eq_some.mp hst).1
        exact h.seeds convId e st (by rw [get₂, hseeds]; exact hget)
      · exact h.seeds c e st hst

theorem enterSent (h : ChainLog C me os s) {convId : ℕ} {payload : String} {chain : ChainState}
    (hchain : s.getChain convId (s.sendingEpoch convId) me.senderId = some chain) :
    ChainLog C me os (DartProtocol.enterSent C me convId payload chain s) := by
  have hset : ChainLog C me os (s.setChain convId (s.sendingEpoch convId) me.senderId
      (advanceChain C chain chain.index).2) :=
    h.setChain fun _ => (h.chains _ _ _ hchain).advance (Nat.le_refl _)
  exact hset.of_fields rfl rfl rfl

end ChainLog

/-! ### Every kind of change keeps the record -/

/-- A fact about the outputs so far that later outputs do not undo. -/
def Stable (G : List Output → Prop) : Prop := ∀ os os', G os → G (os ++ os')

/-- The record survives, given a fact `G` about the outputs so far. -/
def KeepsChainLog (C : Crypto) (me : Identity) (G : List Output → Prop) :
    Client → List Output → Client → Prop :=
  fun s os t => ∀ hist, G hist → ChainLog C me hist s → ChainLog C me (hist ++ os) t

section Guarded

variable {G : List Output → Prop}

theorem KeepsChainLog.of_state {s t : Client}
    (h : ∀ hist, G hist → ChainLog C me hist s → ChainLog C me hist t) :
    KeepsChainLog C me G s [] t := by
  intro hist hG hs
  rw [List.append_nil]
  exact h hist hG hs

/-- Nothing the record speaks about changes, and no state is handed out. -/
theorem KeepsChainLog.of_fields {s t : Client} {os : List Output}
    (h₁ : t.senderChains = s.senderChains) (h₂ : t.chainSeeds = s.chainSeeds)
    (h₃ : t.shareTimers = s.shareTimers) (hnone : ∀ share, Output.chainShared share ∉ os) :
    KeepsChainLog C me G s os t := fun _ _ hs =>
  (hs.append fun share hshare => absurd hshare (hnone share)).of_fields h₁ h₂ h₃

theorem keepsChainLog_background (hG : Stable G) : Background (KeepsChainLog C me G) where
  comp := by
    constructor
    · exact fun s => KeepsChainLog.of_state fun _ _ h => h
    · intro s t u os os' h h' hist hg hs
      rw [← List.append_assoc]
      exact h' _ (hG hist os hg) (h hist hg hs)
  bookkeeping := fun s t hcore => KeepsChainLog.of_fields
    (congrArg (fun c => c.senderChains) hcore) (congrArg (fun c => c.chainSeeds) hcore)
    (congrArg (fun c => c.shareTimers) hcore) fun _ => List.not_mem_nil
  broadcast := fun s buf via => KeepsChainLog.of_fields rfl rfl rfl (by simp)

theorem keepsChainLog_shared {share : ChainShareDart}
    (h : ∀ hist, G hist → GoodShare C hist share) (s : Client) :
    KeepsChainLog C me G s [.chainShared share] s := by
  intro hist hg hs
  apply hs.append
  intro share' hs'
  cases List.mem_singleton.mp hs'
  exact h hist hg

theorem keepsChainLog_with {F : List Output → Prop} {α : Type} {m : ClientProg α} {s : Client}
    (hF : ∀ hist, ChainLog C me hist s → F hist)
    (h : ObeysAt (KeepsChainLog C me F) m s) (G : List Output → Prop) :
    ObeysAt (KeepsChainLog C me G) m s :=
  fun hist _ hs => h hist (hF hist hs) hs

theorem KeepsChainLog.of_rest {s t : Client} (h : t.rest = s.rest) : KeepsChainLog C me G s [] t :=
  KeepsChainLog.of_fields (congrArg (·.senderChains) h) (congrArg (·.chainSeeds) h)
    (congrArg (·.shareTimers) h) (by simp)

theorem keepsChainLog_receive (hG : Stable G) (senderId : ℕ) :
    ReceiveRules C (KeepsChainLog C me G) senderId :=
  .of_rest (keepsChainLog_background hG) (fun _ _ => KeepsChainLog.of_rest)
    (fun _ _ => KeepsChainLog.of_fields rfl rfl rfl (by simp))
    (fun _ _ => KeepsChainLog.of_fields rfl rfl rfl (by simp))
    fun _ _ _ _ hopen => KeepsChainLog.of_state fun _ _ hs => hs.openData hopen

theorem keepsChainLog_retries (s : Client) {retry : ShareRetry}
    (h : ∀ hist, G hist → GoodRetry C hist retry) :
    KeepsChainLog C me G s [] { s with shareTimers := s.shareTimers ++ [retry, retry] } := by
  refine KeepsChainLog.of_state fun hist hg hs => ⟨hs.chains, hs.seeds, ?_, hs.shared⟩
  intro r hr
  rcases List.mem_append.mp hr with hr | hr
  · exact hs.retries r hr
  · have : r = retry := by simpa using hr
    rw [this]
    exact h hist hg

theorem keepsChainLog_shareChain (convId epoch : ℕ) :
    Obeys (KeepsChainLog C me G) (shareChainWithMembers C me convId epoch) := by
  intro s
  -- the chain that is handed out is the one the client holds now
  refine keepsChainLog_with (F := fun hist => ∀ chain,
    s.getChain convId epoch me.senderId = some chain → OnChain C hist convId epoch chain)
    (fun hist hs chain hchain => hs.chains convId epoch chain hchain) ?_ G
  have hchain : Stable fun hist => ∀ chain,
      s.getChain convId epoch me.senderId = some chain → OnChain C hist convId epoch chain :=
    fun os os' h chain hchain => (h chain hchain).mono os'
  refine shareChainWithMembers_obeysAt (keepsChainLog_background hchain) ?_ ?_ ?_
  · exact fun t g => KeepsChainLog.of_fields rfl rfl rfl (by simp)
  · exact fun t targets chain hchain => keepsChainLog_retries t fun hist hg => hg chain hchain
  · intro t share hchain hc _ he
    refine keepsChainLog_shared (fun hist hg => ?_) t
    show OnChain C hist share.convId share.epoch ⟨share.chainKey, share.chainIndex⟩
    rw [hc, he]
    exact hg _ hchain

theorem keepsChainLog_keys (hG : Stable G) : KeyRules C me (KeepsChainLog C me G) where
  toBackground := keepsChainLog_background hG
  shareKey := by
    intro convId
    refine shareWithNewMembers_obeys (keepsChainLog_background hG) ?_ convId ?_
    · exact fun s f => KeepsChainLog.of_fields rfl rfl rfl (by simp)
    · exact fun s epoch key targets roster => keepsChainLog_retries s fun _ _ => trivial
  shareChain := keepsChainLog_shareChain
  installKey := fun s convId epoch key => KeepsChainLog.of_fields rfl rfl rfl (by simp)
  startChain := by
    intro s convId epoch seed hist _ hs
    have happ : ChainLog C me (hist ++ [.chainStarted convId epoch seed]) s :=
      hs.append (by simp)
    exact happ.startChain ⟨seed, List.mem_append_right _ (List.mem_singleton.mpr rfl), rfl⟩
  pruneEpochs := fun s convId => KeepsChainLog.of_state fun hist _ hs => hs.pruneEpochs convId
  installRoster := fun s info serverPubKey => KeepsChainLog.of_fields rfl rfl rfl (by simp)

theorem keepsChainLog_retransmit (hG : Stable G) (seq : ℕ) :
    Obeys (KeepsChainLog C me G) (retransmit C me seq) := fun _ =>
  retransmit_obeysAt (keepsChainLog_background hG) fun _ _ _ _ _ _ _ _ =>
    KeepsChainLog.of_fields rfl rfl rfl (by simp)

theorem keepsChainLog_reshareSeed (convId targetId : ℕ) :
    Obeys (KeepsChainLog C me G) (reshareSeed C me convId targetId) := by
  intro s
  refine keepsChainLog_with (F := fun hist => ∀ epoch st, get₂ s.chainSeeds convId epoch = some st →
    OnChain C hist convId epoch st) (fun hist hs epoch st hst => hs.seeds convId epoch st hst) ?_ G
  refine reshareSeed_obeysAt (keepsChainLog_background ?_) ?_
  · exact fun os os' h epoch st hst => (h epoch st hst).mono os'
  · intro t share hseed hc _ he
    refine keepsChainLog_shared (fun hist hg => ?_) t
    show OnChain C hist share.convId share.epoch ⟨share.chainKey, share.chainIndex⟩
    rw [hc, he]
    exact hg _ _ hseed

theorem keepsChainLog_sendData (hG : Stable G) (s : Client) (convId : ℕ) (payload : String) :
    ObeysAt (KeepsChainLog C me G) (sendData C me convId payload) s := by
  have hB : Background (KeepsChainLog C me G) := keepsChainLog_background hG
  apply sendData_obeysAt hB
  · exact fun _ => KeepsChainLog.of_fields rfl rfl rfl (by simp)
  · intro chain hchain os t hrest hist hg hs
    have hsent : ChainLog C me (hist ++ [.sent (sentDart me convId payload s)])
        (enterSent C me convId payload chain s) := (hs.enterSent hchain).append (by simp)
    have h := hrest _ (hG _ _ hg) hsent
    rw [List.append_assoc] at h
    exact h
  · exact fun _ _ _ _ _ _ => KeepsChainLog.of_fields rfl rfl rfl (by simp)

theorem keepsChainLog_shareTimer (i : ℕ) (s : Client) :
    ObeysAt (KeepsChainLog C me G) (step C me (.shareTimer i)) s := by
  unfold ObeysAt
  rw [step_shareTimer]
  cases hget : s.shareTimers[i]? with
  | none => exact KeepsChainLog.of_state fun _ _ hs => hs
  | some retry =>
    have hmem : retry ∈ s.shareTimers := List.mem_of_getElem? hget
    -- the callback hands out what the retry captured, which is good as long as it was pending
    have hcall : Obeys (KeepsChainLog C me fun hist => GoodRetry C hist retry)
        (runShareRetry C me retry) := by
      refine runShareRetry_obeys (keepsChainLog_background fun os os' h => h.mono os') retry ?_
      intro convId epoch targets chain hretry t share hc _ he hk hi
      refine keepsChainLog_shared (fun hist hg => ?_) t
      rw [hretry] at hg
      show OnChain C hist share.convId share.epoch ⟨share.chainKey, share.chainIndex⟩
      rw [hc, he, hk, hi]
      exact hg
    intro hist _ hs
    refine hcall _ hist (hs.retries retry hmem) ⟨hs.chains, hs.seeds, ?_, hs.shared⟩
    exact fun r hr => hs.retries r (List.mem_of_mem_eraseIdx hr)

end Guarded

/-! ### Whole runs -/

/-- The chain shares among outputs. -/
def chainShares (os : List Output) : List ChainShareDart :=
  os.filterMap fun o => match o with
    | .chainShared share => some share
    | _ => none

theorem mem_chainShares {share : ChainShareDart} :
    share ∈ chainShares os ↔ Output.chainShared share ∈ os := by
  rw [chainShares, List.mem_filterMap]
  constructor
  · rintro ⟨o, ho, heq⟩
    cases o <;> simp at heq
    subst heq
    exact ho
  · intro h
    exact ⟨_, h, rfl⟩

/-- Every chain share in the name of `sharer` that the client accepts along its run carries a chain
state of `shared es`, the shares handed out so far, where `es` are the events before it. -/
def SharesFrom (C : Crypto) (me : Identity) (sharer : ℕ) (shared : List Event → List Output)
    (es : List Event) : Prop :=
  ∀ k < es.length, ∀ buf ∈ es[k]?.bind Event.datagram,
    ∀ opened ∈ (shareTransportKey C me (stateAfter C me (es.take k)) buf).join,
    ∀ decoded ∈ Codec.decodeChainShare C buf opened.2, decoded.senderId = sharer →
      ∃ share ∈ chainShares (shared (es.take k)), share.convId = opened.1 ∧
        share.epoch = decoded.epoch ∧ share.chainKey = decoded.chainKey ∧
        share.chainIndex = decoded.chainIndex

theorem SharesFrom.init {sharer : ℕ} {shared : List Event → List Output}
    {e : Event} (h : SharesFrom C me sharer shared (es ++ [e])) :
    SharesFrom C me sharer shared es := by
  intro k hk
  have hlast := h k (by simp; omega)
  rw [List.take_append_of_le_length (by omega), List.getElem?_append_left hk] at hlast
  exact hlast

theorem SharesFrom.last {sharer : ℕ} {shared : List Event → List Output}
    {buf : Buffer} (h : SharesFrom C me sharer shared (es ++ [.message buf])) {convId : ℕ}
    {key : Buffer} {decoded : ChainShareDart}
    (hopen : shareTransportKey C me (stateAfter C me es) buf = some (some (convId, key)))
    (hdec : Codec.decodeChainShare C buf key = some decoded) (hsharer : decoded.senderId = sharer) :
    ∃ share, Output.chainShared share ∈ shared es ∧ share.convId = convId ∧
      share.epoch = decoded.epoch ∧ share.chainKey = decoded.chainKey ∧
      share.chainIndex = decoded.chainIndex := by
  have hlast := h es.length (by simp)
  rw [List.take_left, List.getElem?_concat_length] at hlast
  obtain ⟨share, hmem, hrest⟩ :=
    hlast buf rfl (convId, key) (by rw [hopen]; rfl) decoded hdec hsharer
  exact ⟨share, mem_chainShares.mp hmem, hrest⟩

theorem step_chainLog {e : Event}
    (hshares : SharesFrom C me me.senderId (outputsOf C me) (es ++ [e]))
    (hlog : ChainLog C me (outputsOf C me es) (stateAfter C me es)) :
    ChainLog C me (outputsOf C me (es ++ [e])) (stateAfter C me (es ++ [e])) := by
  rw [outputsOf_concat, stateAfter_concat]
  -- a chain share in the own name is vouched for by the outputs before this event
  have hG : Stable fun hist => outputsOf C me es <+: hist :=
    fun os os' h => h.trans (List.prefix_append os os')
  have hB : Background (KeepsChainLog C me fun hist => outputsOf C me es <+: hist) :=
    keepsChainLog_background hG
  suffices hkeep : ObeysAt (KeepsChainLog C me fun hist => outputsOf C me es <+: hist)
      (step C me e) (stateAfter C me es) from hkeep _ List.prefix_rfl hlog
  refine step_obeysAt (keepsChainLog_keys hG).toAdoptRules ?_ ?_ ?_ ?_
  · exact fun s => KeepsChainLog.of_fields rfl rfl rfl (by simp)
  · exact fun convId payload _ => keepsChainLog_sendData hG _ convId payload
  · intro buf he
    subst he
    refine handleMessage_obeysAt hB fun type _ => ?_
    refine handlerOf_obeysAt (keepsChainLog_keys hG) (handleSync_obeys hB ?_)
      (fun _ => handleData_obeys hB (keepsChainLog_receive hG) buf _) (fun _ => ?_)
      (fun _ => handleNack_obeys hB (keepsChainLog_retransmit hG) keepsChainLog_reshareSeed buf _)
      (fun _ => handleDictReset_obeys hB ?_ buf _)
    · exact fun s senderId => KeepsChainLog.of_rest (ensureReceived_rest senderId s)
    · refine handleChainShare_obeysAt hB fun convId key decoded hopen hdec => ?_
      refine KeepsChainLog.of_state fun hist hpre hs => hs.setChain fun hself => ?_
      obtain ⟨share, hmem, hc, hep, hk, hi⟩ := hshares.last hopen hdec hself
      have hgood : OnChain C hist share.convId share.epoch ⟨share.chainKey, share.chainIndex⟩ :=
        hs.shared share (hpre.subset hmem)
      rw [hc, hep, hk, hi] at hgood
      exact hgood
    · intro s targetId
      rw [applyDictReset]
      split
      · exact KeepsChainLog.of_fields rfl rfl rfl (by simp)
      · exact KeepsChainLog.of_rest (clearReceived_rest targetId s)
  · exact fun i _ => keepsChainLog_shareTimer i _

/-- **The states of own chains**, over every run in which chain shares in the client's own name, if
it accepts any, are its own. -/
theorem chainLog_run (es : List Event) (hshares : SharesFrom C me me.senderId (outputsOf C me) es) :
    ChainLog C me (outputsOf C me es) (stateAfter C me es) := by
  induction es using List.reverseRecOn with
  | nil => exact ChainLog.init
  | append_singleton es e ih => exact step_chainLog hshares (ih hshares.init)

end DartProtocol
