import DartProtocol.StreamIntegrity

/-!
# One message key for every dart

A client takes the key of each new dart from its own chain and keeps it for repeated transmissions,
in a map of its own next to the sent history.  `keyUses` is the record of a run: every call of
`sendData` that had a chain, with the dart, its epoch and index, and the chain in use at that moment,
which is the latest one started for that conversation and epoch.

* `Unspent` — a chain state lies on the chain in use, beyond every index used on it;
* `OwnChains` — the own chains are unspent, kept by every change (`KeepsChains`);
* `KeyCache` — what the two maps hold for a number belongs to the latest use of that number;
* `UseLog` — both over whole runs, with distinct pairs of chain and index.

**Main result** (`darts_have_own_keys`): as long as every chain share in its own name that the client
accepts is unspent, repeated transmissions keep label and key together, and no pair of chain and
index is used twice.  A share in the own name can be provoked from outside, and one that is not
unspent makes the client use a key again (`reflected_share_repeats_key`).
-/

namespace DartProtocol

open Prog InsertionMap Buffer

/-! ### The chain in use -/

theorem chainStarts_append (os os' : List Output) :
    chainStarts (os ++ os') = chainStarts os ++ chainStarts os' := List.filterMap_append

/-- The last entry for a conversation and epoch: its position and its seed. -/
def latestIn (l : List (ℕ × ℕ × Buffer)) (convId epoch : ℕ) : Option (ℕ × Buffer) :=
  l.zipIdx.foldl
    (fun acc p => if p.1.1 = convId ∧ p.1.2.1 = epoch then some (p.2, p.1.2.2) else acc) none

theorem latestIn_concat (l : List (ℕ × ℕ × Buffer)) (x : ℕ × ℕ × Buffer) (convId epoch : ℕ) :
    latestIn (l ++ [x]) convId epoch
      = if x.1 = convId ∧ x.2.1 = epoch then some (l.length, x.2.2) else latestIn l convId epoch := by
  simp [latestIn, List.zipIdx_append]

variable {convId : ℕ} {os : List Output} {us : List KeyUse} {s : Client} {seeds : List Buffer}

theorem getElem?_of_latestIn {l : List (ℕ × ℕ × Buffer)} {epoch : ℕ} {start : ℕ × Buffer}
    (h : latestIn l convId epoch = some start) : l[start.1]? = some (convId, epoch, start.2) := by
  induction l using List.reverseRecOn with
  | nil => cases h
  | append_singleton l x ih =>
    rw [latestIn_concat] at h
    split at h
    · rename_i hx
      obtain ⟨c, e, seed⟩ := x
      obtain ⟨rfl, rfl⟩ := hx
      cases h
      exact List.getElem?_concat_length
    · have hget := ih h
      rw [List.getElem?_append_left (List.getElem?_eq_some_iff.mp hget).1]
      exact hget

/-- The chain in use for a conversation and epoch: its number among the chains started, and its
seed. -/
def latestStart (os : List Output) (convId epoch : ℕ) : Option (ℕ × Buffer) :=
  latestIn (chainStarts os) convId epoch

theorem latestStart_append {os' : List Output} (h : chainStarts os' = []) (convId epoch : ℕ) :
    latestStart (os ++ os') convId epoch = latestStart os convId epoch := by
  rw [latestStart, chainStarts_append, h, List.append_nil, latestStart]

theorem latestStart_started (os : List Output) (c e : ℕ) (seed : Buffer) (convId epoch : ℕ) :
    latestStart (os ++ [.chainStarted c e seed]) convId epoch
      = if c = convId ∧ e = epoch then some ((chainStarts os).length, seed)
        else latestStart os convId epoch := by
  rw [latestStart, chainStarts_append]
  exact latestIn_concat _ (c, e, seed) convId epoch

/-! ### The record -/

/-- One use of a message key: the dart, its epoch and index, and the chain in use. -/
structure KeyUse where
  dart : DataDart
  epoch : ℕ
  idx : ℕ
  chain : Option (ℕ × Buffer)
  deriving DecidableEq

/-- The message key at the position of a use. -/
def KeyUse.key (C : Crypto) (u : KeyUse) : Option Buffer :=
  u.chain.map fun start => chainMessageKey C (chainSteps C u.idx start.2) u.idx

/-- The use that an event makes, after some outputs and in some state. -/
def useOf (me : Identity) (os : List Output) (s : Client) : Event → Option KeyUse
  | .sendData convId payload =>
    (s.getChain convId (s.sendingEpoch convId) me.senderId).map fun chain =>
      { dart := sentDart me convId payload s, epoch := s.sendingEpoch convId, idx := chain.index,
        chain := latestStart os convId (s.sendingEpoch convId) }
  | _ => none

/-- The uses of a run from some state on. -/
def usesFrom (C : Crypto) (me : Identity) : List Output → Client → List Event → List KeyUse
  | _, _, [] => []
  | os, s, e :: es =>
    (useOf me os s e).toList ++
      usesFrom C me (os ++ (step C me e s).output) (step C me e s).state es

/-- The uses of a run of a fresh client. -/
def keyUses (C : Crypto) (me : Identity) (es : List Event) : List KeyUse := usesFrom C me [] {} es

/-- The latest use of a number. -/
def lastUse (us : List KeyUse) (seq : ℕ) : Option KeyUse :=
  us.reverse.find? fun u => decide (u.dart.seq = seq)

theorem lastUse_concat (us : List KeyUse) (u : KeyUse) (seq : ℕ) :
    lastUse (us ++ [u]) seq = if u.dart.seq = seq then some u else lastUse us seq := by
  rw [lastUse, List.reverse_append, List.reverse_singleton, List.singleton_append, List.find?_cons]
  by_cases h : u.dart.seq = seq
  · simp [h]
  · simp [h, lastUse]

theorem seq_of_lastUse {seq : ℕ} {u : KeyUse} (h : lastUse us seq = some u) :
    u.dart.seq = seq := of_decide_eq_true (List.find?_some h :)

variable {C : Crypto} {me : Identity}

theorem usesFrom_append (es es' : List Event) (os : List Output) (s : Client) :
    usesFrom C me os s (es ++ es')
      = usesFrom C me os s es
        ++ usesFrom C me (os ++ (run C me es s).output) (run C me es s).state es' := by
  induction es generalizing os s with
  | nil =>
    show usesFrom C me os s es' = [] ++ usesFrom C me (os ++ []) s es'
    rw [List.append_nil, List.nil_append]
  | cons e es ih =>
    rw [List.cons_append, usesFrom, usesFrom, ih, run_cons, List.append_assoc, List.append_assoc]
    rfl

theorem keyUses_concat (es : List Event) (e : Event) :
    keyUses C me (es ++ [e])
      = keyUses C me es ++ (useOf me (outputsOf C me es) (stateAfter C me es) e).toList := by
  rw [keyUses, usesFrom_append, keyUses, usesFrom, usesFrom, List.append_nil]
  rfl

/-! ### Own chains -/

/-- The state lies on the chain in use, beyond every index used on it. -/
def Unspent (C : Crypto) (us : List KeyUse) (os : List Output) (convId epoch : ℕ)
    (st : ChainState) : Prop :=
  ∃ start ∈ latestStart os convId epoch, st.key = chainSteps C st.index start.2 ∧
    ∀ u ∈ us, u.chain.map Prod.fst = some start.1 → u.idx < st.index

instance (us : List KeyUse) (os : List Output) (convId epoch : ℕ) (st : ChainState) :
    Decidable (Unspent C us os convId epoch st) := by
  unfold Unspent
  infer_instance

theorem Unspent.append {os' : List Output} {epoch : ℕ} {st : ChainState}
    (h : Unspent C us os convId epoch st) (hnone : chainStarts os' = []) :
    Unspent C us (os ++ os') convId epoch st := by
  obtain ⟨start, hstart, hrest⟩ := h
  refine ⟨start, ?_, hrest⟩
  rw [latestStart_append hnone]
  exact hstart

theorem Unspent.advance {epoch : ℕ} {st : ChainState}
    (h : Unspent C us os convId epoch st) {t : ℕ} (ht : st.index ≤ t) :
    Unspent C us os convId epoch (advanceChain C st t).2 := by
  obtain ⟨start, hstart, hkey, hspent⟩ := h
  rw [advanceChain_of_le C ht]
  refine ⟨start, hstart, ?_, ?_⟩
  · show chainSteps C (t - st.index + 1) st.key = chainSteps C (t + 1) start.2
    rw [hkey, ← chainSteps_add]
    congr 1
    omega
  · intro u hu hchain
    have := hspent u hu hchain
    show u.idx < t + 1
    omega

/-- The own chains are unspent, and the chains of the uses were started. -/
structure OwnChains (C : Crypto) (me : Identity) (us : List KeyUse) (os : List Output)
    (s : Client) : Prop where
  chains : ∀ convId epoch st, s.getChain convId epoch me.senderId = some st →
    Unspent C us os convId epoch st
  started : ∀ u ∈ us, ∃ start, u.chain = some start ∧
    (chainStarts os)[start.1]? = some (u.dart.convId, u.epoch, start.2)

namespace OwnChains

variable {us : List KeyUse} {os os' : List Output} {s t : Client}

theorem init : OwnChains C me [] [] {} := by
  constructor
  · intro convId epoch st h
    cases h
  · intro u hu
    cases hu

theorem started_append (h : OwnChains C me us os s) (os' : List Output) : ∀ u ∈ us,
    ∃ start, u.chain = some start ∧
      (chainStarts (os ++ os'))[start.1]? = some (u.dart.convId, u.epoch, start.2) := by
  intro u hu
  obtain ⟨start, hchain, hget⟩ := h.started u hu
  refine ⟨start, hchain, ?_⟩
  rw [chainStarts_append, List.getElem?_append_left (List.getElem?_eq_some_iff.mp hget).1]
  exact hget

theorem of_same (h : OwnChains C me us os s)
    (hchains : ∀ convId epoch, t.getChain convId epoch me.senderId
      = s.getChain convId epoch me.senderId) (hnone : chainStarts os' = []) :
    OwnChains C me us (os ++ os') t := by
  constructor
  · intro convId epoch st hst
    rw [hchains] at hst
    exact (h.chains convId epoch st hst).append hnone
  · exact h.started_append os'

/-- A chain is replaced by an unspent state, or one of another member is replaced. -/
theorem setChain (h : OwnChains C me us os s) {convId epoch m : ℕ} {st : ChainState}
    (hst : m = me.senderId → Unspent C us os convId epoch st) :
    OwnChains C me us os (s.setChain convId epoch m st) := by
  exact ⟨Client.forall_getChain_setChain h.chains hst, h.started⟩

/-- A fresh chain is in use from then on, and nothing was used on it. -/
theorem startChain (h : OwnChains C me us os s) (convId epoch : ℕ) (seed : Buffer) :
    OwnChains C me us (os ++ [.chainStarted convId epoch seed])
      (DartProtocol.startChain me convId epoch seed s) := by
  refine ⟨?_, h.started_append _⟩
  intro c e st hget
  have hget' : (s.setChain convId epoch me.senderId ⟨seed, 0⟩).getChain c e me.senderId = some st :=
    hget
  rw [Client.getChain_setChain] at hget'
  rw [Unspent, latestStart_started]
  by_cases hce : convId = c ∧ epoch = e
  · rw [if_pos ⟨hce.1, hce.2, rfl⟩] at hget'
    cases hget'
    rw [if_pos hce]
    refine ⟨_, rfl, rfl, ?_⟩
    intro u hu hnumber
    obtain ⟨start, hchain, hstart⟩ := h.started u hu
    have hlt := (List.getElem?_eq_some_iff.mp hstart).1
    rw [hchain, Option.map_some, Option.some.injEq] at hnumber
    exact absurd hlt (by rw [hnumber]; exact lt_irrefl _)
  · rw [if_neg fun hc => hce ⟨hc.1, hc.2.1⟩] at hget'
    rw [if_neg hce]
    exact h.chains c e st hget'

/-- **A send** uses up the index its chain stands at. -/
theorem enterSent (h : OwnChains C me us os s) {convId : ℕ} {payload : String} {chain : ChainState}
    (hchain : s.getChain convId (s.sendingEpoch convId) me.senderId = some chain) {u : KeyUse}
    (hu : useOf me os s (.sendData convId payload) = some u) :
    OwnChains C me (us ++ [u]) os (DartProtocol.enterSent C me convId payload chain s) := by
  rw [useOf, hchain, Option.map_some] at hu
  cases hu
  obtain ⟨start, hstart, hkey, hspent⟩ := h.chains convId _ chain hchain
  have hget := getElem?_of_latestIn (Option.mem_def.mp hstart)
  constructor
  · intro c e st hst
    have hst' : (s.setChain convId (s.sendingEpoch convId) me.senderId
        (advanceChain C chain chain.index).2).getChain c e me.senderId = some st := hst
    rw [Client.getChain_setChain] at hst'
    by_cases hce : convId = c ∧ s.sendingEpoch convId = e
    · rw [if_pos ⟨hce.1, hce.2, rfl⟩] at hst'
      cases hst'
      obtain ⟨rfl, rfl⟩ := hce
      obtain ⟨start', hstart', hkey', hspent'⟩ :=
        (h.chains convId _ chain hchain).advance (le_refl chain.index)
      refine ⟨start', hstart', hkey', ?_⟩
      intro v hv hnumber
      rcases List.mem_append.mp hv with hv | hv
      · exact hspent' v hv hnumber
      · rw [List.mem_singleton.mp hv, advanceChain_of_le C (le_refl _)]
        exact Nat.lt_succ_self _
    · rw [if_neg fun hc => hce ⟨hc.1, hc.2.1⟩] at hst'
      obtain ⟨start', hstart', hkey', hspent'⟩ := h.chains c e st hst'
      refine ⟨start', hstart', hkey', ?_⟩
      intro v hv hnumber
      rcases List.mem_append.mp hv with hv | hv
      · exact hspent' v hv hnumber
      · -- the chain of another conversation or epoch has another number
        rw [List.mem_singleton.mp hv] at hnumber
        have hget' := getElem?_of_latestIn (Option.mem_def.mp hstart')
        have hsame : start.1 = start'.1 := by
          rw [Option.mem_def.mp hstart, Option.map_some, Option.some.injEq] at hnumber
          exact hnumber
        rw [← hsame, hget, Option.some.injEq, Prod.mk.injEq, Prod.mk.injEq] at hget'
        exact absurd ⟨hget'.1, hget'.2.1⟩ hce
  · intro v hv
    rcases List.mem_append.mp hv with hv | hv
    · exact h.started v hv
    · rw [List.mem_singleton.mp hv]
      exact ⟨start, Option.mem_def.mp hstart, hget⟩

end OwnChains

/-! ### Every kind of change keeps own chains unspent -/

/-- The own chains stay unspent. -/
def KeepsChains (C : Crypto) (me : Identity) (us : List KeyUse) :
    Client → List Output → Client → Prop :=
  fun s os t => ∀ hist, OwnChains C me us hist s → OwnChains C me us (hist ++ os) t

section Kept

variable {us : List KeyUse}

variable {os : List Output} {es : List Event}

theorem KeepsChains.of_same {s t : Client}
    (hchains : ∀ convId epoch, t.getChain convId epoch me.senderId
      = s.getChain convId epoch me.senderId) (hnone : chainStarts os = []) :
    KeepsChains C me us s os t := fun _ h => h.of_same hchains hnone

theorem KeepsChains.of_fields {s t : Client}
    (h : t.senderChains = s.senderChains) (hnone : chainStarts os = []) :
    KeepsChains C me us s os t := by
  refine KeepsChains.of_same (fun convId epoch => ?_) hnone
  rw [Client.getChain, h]
  rfl

theorem keepsChains_background : Background (KeepsChains C me us) where
  comp := by
    constructor
    · exact fun s => KeepsChains.of_fields rfl rfl
    · intro s t u os os' h h' hist hs
      rw [← List.append_assoc]
      exact h' _ (h hist hs)
  bookkeeping := fun s t hcore =>
    KeepsChains.of_fields (congrArg (fun c => c.senderChains) hcore) rfl
  broadcast := fun s buf via => KeepsChains.of_fields rfl rfl

theorem KeepsChains.of_rest {s t : Client} (h : t.rest = s.rest) : KeepsChains C me us s [] t :=
  KeepsChains.of_fields (congrArg (·.senderChains) h) rfl

theorem keepsChains_receive (senderId : ℕ) : ReceiveRules C (KeepsChains C me us) senderId := by
  refine .of_rest keepsChains_background (fun _ _ => KeepsChains.of_rest)
    (fun _ _ => KeepsChains.of_fields rfl rfl) (fun _ _ => KeepsChains.of_fields rfl rfl) ?_
  intro s buf dec s' hopen hist hs
  obtain ⟨convId, epoch, idx, chain, _, _, _, hget, hle, _, rfl⟩ := openData_eq hopen
  rw [List.append_nil]
  refine hs.setChain fun hself => ?_
  -- a dart in the own name that decrypts moves the own chain forward
  rw [hself] at hget
  exact (hs.chains convId epoch chain hget).advance hle

theorem keepsChains_flow : FlowRules C (KeepsChains C me us) where
  toBackground := keepsChains_background
  receive := keepsChains_receive
  ensureReceived := fun s senderId => KeepsChains.of_rest (ensureReceived_rest senderId s)
  retries := fun _ _ => KeepsChains.of_fields rfl rfl
  chainShared := fun _ _ => KeepsChains.of_fields rfl rfl
  encoded := fun _ _ => KeepsChains.of_fields rfl rfl

theorem keepsChains_keys : KeyRules C me (KeepsChains C me us) :=
  .of_streams keepsChains_background
    (fun _ _ h => KeepsChains.of_fields (congrArg (·.senderChains) h) rfl)
    (fun _ _ => KeepsChains.of_fields rfl rfl) fun _ convId epoch seed _ hs =>
      hs.startChain convId epoch seed

/-- The accepted chain shares in the own name carry unspent states. -/
def OwnSharesUnspent (C : Crypto) (me : Identity) (es : List Event) : Prop :=
  ∀ k < es.length, ∀ buf ∈ es[k]?.bind Event.datagram,
    ∀ opened ∈ (shareTransportKey C me (stateAfter C me (es.take k)) buf).join,
    ∀ decoded ∈ Codec.decodeChainShare C buf opened.2, decoded.senderId = me.senderId →
      Unspent C (keyUses C me (es.take k)) (outputsOf C me (es.take k)) opened.1 decoded.epoch
        ⟨decoded.chainKey, decoded.chainIndex⟩

theorem OwnSharesUnspent.init {e : Event}
    (h : OwnSharesUnspent C me (es ++ [e])) : OwnSharesUnspent C me es := by
  intro k hk
  have hlast := h k (by simp; omega)
  rw [List.take_append_of_le_length (by omega), List.getElem?_append_left hk] at hlast
  exact hlast

theorem OwnSharesUnspent.last {buf : Buffer}
    (h : OwnSharesUnspent C me (es ++ [.message buf])) {convId : ℕ} {key : Buffer}
    {decoded : ChainShareDart}
    (hopen : shareTransportKey C me (stateAfter C me es) buf = some (some (convId, key)))
    (hdec : Codec.decodeChainShare C buf key = some decoded)
    (hself : decoded.senderId = me.senderId) :
    Unspent C (keyUses C me es) (outputsOf C me es) convId decoded.epoch
      ⟨decoded.chainKey, decoded.chainIndex⟩ := by
  have hlast := h es.length (by simp)
  rw [List.take_left, List.getElem?_concat_length] at hlast
  exact hlast buf rfl (convId, key) (by rw [hopen]; rfl) decoded hdec hself

theorem handleChainShare_run (buf : Buffer) (s : Client) :
    ((handleChainShare C me buf s).state = s ∨
      ∃ convId key decoded, shareTransportKey C me s buf = some (some (convId, key)) ∧
        Codec.decodeChainShare C buf key = some decoded ∧
        (handleChainShare C me buf s).state = s.setChain convId decoded.epoch decoded.senderId
          ⟨decoded.chainKey, decoded.chainIndex⟩) ∧
      (handleChainShare C me buf s).output = [] := by
  rw [handleChainShare, get_bind]
  cases hopen : shareTransportKey C me s buf with
  | none => exact ⟨Or.inl rfl, rfl⟩
  | some opened =>
    rw [ofOption_some_bind]
    cases opened with
    | none => exact ⟨Or.inl rfl, rfl⟩
    | some p =>
      obtain ⟨convId, key⟩ := p
      simp only
      cases hdec : Codec.decodeChainShare C buf key with
      | none => exact ⟨Or.inl rfl, rfl⟩
      | some decoded => exact ⟨Or.inr ⟨convId, key, decoded, rfl, hdec, rfl⟩, rfl⟩

theorem handleMessage_keepsChains {buf : Buffer} (h : buf.readUInt8 0 ≠ some TYPE_CHAIN_SHARE)
    (s : Client) : ObeysAt (KeepsChains C me us) (handleMessage C me buf) s := by
  apply handleMessage_obeysAt keepsChains_background
  intro type htype
  exact keepsChains_flow.handlerOf (fun hshare => absurd (by rw [htype, hshare]) h)
    (fun _ => handleKeyShare_obeys keepsChains_keys.toAdoptRules buf s)
    (fun _ => handleMemberInfo_obeys keepsChains_keys buf s)
    fun _ => keepsChains_flow.handleDictReset (fun _ => KeepsChains.of_fields rfl rfl) buf s

theorem step_keepsChains {e : Event} (hsend : ∀ c p, e ≠ .sendData c p)
    (hshares : OwnSharesUnspent C me (es ++ [e]))
    (hchains : OwnChains C me (keyUses C me es) (outputsOf C me es) (stateAfter C me es)) :
    OwnChains C me (keyUses C me es) (outputsOf C me (es ++ [e]))
      (stateAfter C me (es ++ [e])) := by
  rw [outputsOf_concat, stateAfter_concat]
  by_cases hshare : ∃ buf, e = .message buf ∧ buf.readUInt8 0 = some TYPE_CHAIN_SHARE
  · -- the share was checked against exactly the record so far
    obtain ⟨buf, rfl, htype⟩ := hshare
    rw [step_message]
    split
    · exact hchains.of_same (fun _ _ => rfl) rfl
    · rw [handleMessage_run, dispatch_of_type C me htype]
      have hhandler : handlerOf C me TYPE_CHAIN_SHARE buf = handleChainShare C me buf := rfl
      obtain ⟨hstate, hout⟩ := @handleChainShare_run C me buf (stateAfter C me es)
      rw [hhandler, hout, List.append_nil]
      rcases hstate with hsame | ⟨convId, key, decoded, hopen, hdec, hset⟩
      · rw [hsame]
        exact hchains
      · rw [hset]
        exact hchains.setChain fun hself => hshares.last hopen hdec hself
  · have hkeep : ObeysAt (KeepsChains C me (keyUses C me es)) (step C me e)
        (stateAfter C me es) :=
      step_obeysAt keepsChains_keys.toAdoptRules (fun s => KeepsChains.of_fields rfl rfl)
        (fun c p he => absurd he (hsend c p))
        (fun buf he => handleMessage_keepsChains (fun htype => hshare ⟨buf, he, htype⟩) _)
        fun i _ => keepsChains_flow.shareTimer i _
    exact hkeep _ hchains

/-- A send keeps the own chains unspent, also with respect to its own use. -/
theorem sendData_keepsChains {s : Client} (hchains : OwnChains C me us os s)
    (convId : ℕ) (payload : String) :
    OwnChains C me (us ++ (useOf me os s (.sendData convId payload)).toList)
      (os ++ (sendData C me convId payload s).output) (sendData C me convId payload s).state := by
  obtain ⟨us', hus'⟩ : ∃ us', us' = us ++ (useOf me os s (.sendData convId payload)).toList :=
    ⟨_, rfl⟩
  have hB : Background (KeepsChains C me us') := keepsChains_background
  have hkeep : ObeysAt (fun s' os' t => s' = s → OwnChains C me us' (os ++ os') t)
      (sendData C me convId payload) s := by
    refine sendData_obeysAt hB ?_ ?_ ?_
    · intro hchain _
      rw [hus', useOf, hchain, Option.map_none, Option.toList_none, List.append_nil]
      exact hchains.of_same (fun _ _ => rfl) rfl
    · intro chain hchain os' t hrest _
      obtain ⟨u, hu⟩ : ∃ u, useOf me os s (.sendData convId payload) = some u := by
        rw [useOf, hchain]
        exact ⟨_, rfl⟩
      have hentered := hchains.enterSent hchain hu
      rw [hu, Option.toList_some] at hus'
      rw [← hus'] at hentered
      have hsent : OwnChains C me us' (os ++ [.sent (sentDart me convId payload s)])
          (enterSent C me convId payload chain s) := hentered.of_same (fun _ _ => rfl) rfl
      have h := hrest _ hsent
      rw [List.append_assoc] at h
      exact h
    · exact fun _ _ t _ _ _ => KeepsChains.of_fields rfl rfl
  rw [← hus']
  exact hkeep rfl

end Kept

/-! ### The cached keys -/

/-- An encoding is of the dart that last used its number, under the key of that use. -/
def Paired (C : Crypto) (us : List KeyUse) (enc : Encoding) : Prop :=
  ∃ u, lastUse us enc.dart.seq = some u ∧ u.dart = enc.dart ∧ u.epoch = enc.epoch ∧
    u.idx = enc.idx ∧ u.key C = some enc.messageKey

/-- What the two maps hold for a number belongs to the latest use of that number. -/
structure KeyCache (C : Crypto) (us : List KeyUse) (s : Client) : Prop where
  history : ∀ seq d, s.sentMessages.get seq = some d → ∃ u, lastUse us seq = some u ∧ u.dart = d
  keys : ∀ seq mk, s.messageKeys.get seq = some mk → ∃ u, lastUse us seq = some u ∧
    u.epoch = mk.epoch ∧ u.idx = mk.idx ∧ u.key C = some mk.key

theorem KeyCache.init : KeyCache C [] {} := by
  constructor
  · intro seq d h
    cases h
  · intro seq mk h
    cases h

/-- A dart and a key cached under the same number belong together. -/
theorem KeyCache.paired (h : KeyCache C us s) {seq : ℕ}
    {enc : Encoding} (hdart : s.sentMessages.get seq = some enc.dart)
    (hkey : s.messageKeys.get seq = some ⟨enc.messageKey, enc.idx, enc.epoch⟩) :
    Paired C us enc := by
  obtain ⟨u, hu, hud⟩ := h.history seq _ hdart
  obtain ⟨u', hu', hepoch, hidx, hk⟩ := h.keys seq _ hkey
  rw [hu, Option.some.injEq] at hu'
  subst hu'
  have hseq : enc.dart.seq = seq := by rw [← hud, seq_of_lastUse hu]
  refine ⟨u, ?_, hud, hepoch, hidx, hk⟩
  rw [hseq]
  exact hu

/-- The state holds nothing beyond these two maps. -/
def Within (m : NumMap DataDart) (k : NumMap MessageKey) (s : Client) : Prop :=
  (∀ seq d, s.sentMessages.get seq = some d → m.get seq = some d) ∧ s.messageKeys = k

/-- An encoding is what the encoder makes with a nonce of the client. -/
def Made (C : Crypto) (me : Identity) (enc : Encoding) : Prop :=
  (∃ i, enc.nonce = me.random i 12) ∧
    Codec.encodeDataHelper C enc.dart enc.dict enc.messageKey enc.idx enc.epoch enc.nonce
      = some enc.buf

/-- What is cached stays or is dropped, and only cached darts are encoded, under cached keys. -/
def CacheOnly (C : Crypto) (me : Identity) (m : NumMap DataDart) (k : NumMap MessageKey) :
    Client → List Output → Client → Prop :=
  fun s os t => Within m k s → Within m k t ∧
    ∀ enc, Output.encoded enc ∈ os → Made C me enc ∧
      ∃ seq, m.get seq = some enc.dart ∧ k.get seq = some ⟨enc.messageKey, enc.idx, enc.epoch⟩

section Cached

variable {m : NumMap DataDart} {k : NumMap MessageKey}

theorem CacheOnly.of_own {s t : Client} {os : List Output} (hown : t.ownStream = s.ownStream)
    (hnone : encodings os = []) : CacheOnly C me m k s os t := by
  intro hs
  refine ⟨⟨?_, ?_⟩, ?_⟩
  · rw [show t.sentMessages = s.sentMessages from congrArg OwnStream.sentMessages hown]
    exact hs.1
  · rw [show t.messageKeys = s.messageKeys from congrArg OwnStream.messageKeys hown]
    exact hs.2
  · intro enc henc
    rw [← mem_encodings, hnone] at henc
    cases henc

theorem cacheOnly_background : Background (CacheOnly C me m k) where
  comp := by
    constructor
    · exact fun s => CacheOnly.of_own rfl rfl
    · intro s t u os os' h h' hs
      obtain ⟨ht, henc⟩ := h hs
      obtain ⟨hu, henc'⟩ := h' ht
      refine ⟨hu, ?_⟩
      intro enc hmem
      rcases List.mem_append.mp hmem with hmem | hmem
      · exact henc enc hmem
      · exact henc' enc hmem
  bookkeeping := fun s t h => CacheOnly.of_own ((keepsOwn_background fun o => o).bookkeeping s t h) rfl
  broadcast := fun s buf via => CacheOnly.of_own rfl rfl

theorem CacheOnly.of_rest {s t : Client} (h : t.rest = s.rest) : CacheOnly C me m k s [] t :=
  CacheOnly.of_own (congrArg (·.ownStream) h) rfl

theorem cacheOnly_receive (senderId : ℕ) : ReceiveRules C (CacheOnly C me m k) senderId :=
  .of_rest_chains cacheOnly_background (fun _ _ => CacheOnly.of_rest)
    (fun _ _ => CacheOnly.of_own rfl rfl) (fun _ _ => CacheOnly.of_own rfl rfl)
    fun _ _ => CacheOnly.of_own rfl rfl

theorem cacheOnly_keys : KeyRules C me (CacheOnly C me m k) :=
  .of_streams cacheOnly_background (fun _ _ h => CacheOnly.of_own (congrArg (·.ownStream) h) rfl)
    (fun _ _ => CacheOnly.of_own rfl rfl) fun _ _ _ _ => CacheOnly.of_own rfl rfl

/-- A repeated transmission takes dart and key from the two maps under the same number. -/
theorem cacheOnly_retransmit (seq : ℕ) : Obeys (CacheOnly C me m k) (retransmit C me seq) := by
  intro s
  by_cases hs : Within m k s
  · apply retransmit_obeysAt cacheOnly_background
    intro dart mk hdart hmk t i buf hbuf ht
    refine ⟨ht, ?_⟩
    intro enc henc
    cases List.mem_singleton.mp henc
    refine ⟨⟨⟨i, rfl⟩, hbuf⟩, seq, hs.1 seq dart hdart, ?_⟩
    rw [← hs.2]
    exact hmk
  · exact fun h => absurd h hs

theorem step_cacheOnly {e : Event} (hsend : ∀ c p, e ≠ .sendData c p) (s : Client) :
    ObeysAt (CacheOnly C me m k) (step C me e) s := by
  have hB : Background (CacheOnly C me m k) := cacheOnly_background
  refine step_obeysAt cacheOnly_keys.toAdoptRules (fun s => CacheOnly.of_own rfl rfl)
    (fun c p he => absurd he (hsend c p)) ?_ ?_
  · intro buf _
    apply handleMessage_obeysAt hB
    intro type _
    refine handlerOf_obeysAt cacheOnly_keys (handleSync_obeys hB ?_)
      (fun _ => handleData_obeys hB cacheOnly_receive buf s)
      (fun _ => handleChainShare_obeysAt hB fun _ _ _ _ _ => CacheOnly.of_own rfl rfl)
      (fun _ => handleNack_obeys hB cacheOnly_retransmit ?_ buf s)
      (fun _ => handleDictReset_obeys hB ?_ buf s)
    · exact fun t senderId => CacheOnly.of_rest (ensureReceived_rest senderId t)
    · exact fun _ _ t => reshareSeed_obeysAt hB fun u share _ _ _ _ => CacheOnly.of_own rfl rfl
    · intro t targetId
      rw [applyDictReset]
      split
      · -- the target of a reset drops its history and keeps the keys
        intro ht
        refine ⟨⟨fun seq d h => ?_, ht.2⟩, fun enc henc => ?_⟩
        · cases h
        · cases henc
      · exact CacheOnly.of_rest (clearReceived_rest targetId t)
  · intro i _
    have h : Obeys (CacheOnly C me m k) (step C me (.shareTimer i)) :=
      fire_obeys hB (fun t => CacheOnly.of_own rfl rfl) fun retry =>
        runShareRetry_obeys hB retry fun _ _ _ _ _ u share _ _ _ _ _ => CacheOnly.of_own rfl rfl
    exact h s

end Cached

/-- What an event other than a send encodes is paired, and the maps still belong to the uses. -/
theorem KeyCache.step_of (h : KeyCache C us s) {e : Event} (hsend : ∀ c p, e ≠ .sendData c p) :
    KeyCache C us (step C me e s).state ∧
      ∀ enc ∈ encodings (step C me e s).output, Paired C us enc := by
  have hstep : ObeysAt (CacheOnly C me s.sentMessages s.messageKeys) (step C me e) s :=
    step_cacheOnly hsend s
  obtain ⟨hwithin, henc⟩ := hstep ⟨fun seq d hd => hd, rfl⟩
  constructor
  · constructor
    · exact fun seq d hd => h.history seq d (hwithin.1 seq d hd)
    · intro seq mk hmk
      rw [hwithin.2] at hmk
      exact h.keys seq mk hmk
  · intro enc hmem
    obtain ⟨-, seq, hdart, hkey⟩ := henc enc (mem_encodings.mp hmem)
    exact h.paired hdart hkey

/-- The keys that are cached after a send: the new one, and older ones of other numbers. -/
theorem enterSent_messageKeys {payload : String} {chain : ChainState} {seq : ℕ} {mk : MessageKey}
    (h : (enterSent C me convId payload chain s).messageKeys.get seq = some mk) :
    (s.nextSeq = seq ∧
        mk = ⟨(advanceChain C chain chain.index).1, chain.index, s.sendingEpoch convId⟩) ∨
      (s.nextSeq ≠ seq ∧ s.messageKeys.get seq = some mk) := by
  have hget := (get_retain_eq_some.mp h).1
  have hset : (s.messageKeys.set s.nextSeq
      ⟨(advanceChain C chain chain.index).1, chain.index, s.sendingEpoch convId⟩).get seq
      = some mk := hget
  rw [get_set] at hset
  split at hset
  · rename_i hseq
    cases hset
    exact Or.inl ⟨hseq, rfl⟩
  · rename_i hseq
    exact Or.inr ⟨hseq, hset⟩

/-- A send encodes its own dart under the key of its own use, and caches both. -/
theorem KeyCache.send (h : KeyCache C us s)
    (hchains : OwnChains C me us os s) (convId : ℕ) (payload : String) :
    KeyCache C (us ++ (useOf me os s (.sendData convId payload)).toList)
        (sendData C me convId payload s).state ∧
      ∀ enc ∈ encodings (sendData C me convId payload s).output,
        Paired C (us ++ (useOf me os s (.sendData convId payload)).toList) enc := by
  cases hchain : s.getChain convId (s.sendingEpoch convId) me.senderId with
  | none =>
    rw [sendData_of_no_chain C payload hchain, useOf, hchain, Option.map_none, Option.toList_none,
      List.append_nil]
    exact ⟨⟨h.history, h.keys⟩, fun enc henc => by cases henc⟩
  | some chain =>
    obtain ⟨start, hstart, hkey, -⟩ := hchains.chains convId _ chain hchain
    obtain ⟨u, hu⟩ : ∃ u : KeyUse, u = ⟨sentDart me convId payload s, s.sendingEpoch convId,
      chain.index, latestStart os convId (s.sendingEpoch convId)⟩ := ⟨_, rfl⟩
    have huse : useOf me os s (.sendData convId payload) = some u := by
      rw [useOf, hchain, hu]
      rfl
    have hukey : u.key C = some (advanceChain C chain chain.index).1 := by
      rw [hu, KeyUse.key, Option.mem_def.mp hstart, advanceChain_of_le C (le_refl _), Nat.sub_self]
      show some _ = some (chainMessageKey C chain.key chain.index)
      rw [hkey]
    have hseq : u.dart.seq = s.nextSeq := by rw [hu]; rfl
    obtain ⟨hcore, henc⟩ := sendData_run C payload hchain
    rw [huse, Option.toList_some]
    have hsent : (sendData C me convId payload s).state.sentMessages
        = pushHistory s.sentMessages (sentDart me convId payload s) :=
      congrArg (fun c => c.sentMessages) hcore
    have hkeys : (sendData C me convId payload s).state.messageKeys
        = (enterSent C me convId payload chain s).messageKeys :=
      congrArg (fun c => c.messageKeys) hcore
    refine ⟨⟨?_, ?_⟩, ?_⟩
    · intro seq d hd
      rw [hsent, get_pushHistory] at hd
      rw [lastUse_concat, hseq]
      split at hd
      · rename_i hq
        cases hd
        refine ⟨u, ?_, by rw [hu]⟩
        rw [if_pos (show s.nextSeq = seq from hq)]
      · rename_i hq
        rw [if_neg (show ¬ s.nextSeq = seq from hq)]
        exact h.history seq d (Option.filter_eq_some_iff.mp hd).1
    · intro seq mk hmk
      rw [hkeys] at hmk
      rw [lastUse_concat, hseq]
      rcases enterSent_messageKeys hmk with ⟨hq, rfl⟩ | ⟨hq, hold⟩
      · rw [if_pos hq]
        exact ⟨u, rfl, by rw [hu], by rw [hu], hukey⟩
      · rw [if_neg hq]
        exact h.keys seq mk hold
    · intro enc hmem
      rw [henc, Option.mem_toList, Option.map_eq_some_iff] at hmem
      obtain ⟨buf, _, rfl⟩ := hmem
      refine ⟨u, ?_, by rw [hu], by rw [hu], by rw [hu], hukey⟩
      rw [lastUse_concat, if_pos (by rw [hseq]; rfl)]

/-! ### Whole runs -/

/-- No pair of chain and index is used twice. -/
def Distinct (us : List KeyUse) : Prop :=
  us.Pairwise fun u u' => ¬ (u.chain = u'.chain ∧ u.idx = u'.idx)

/-- Chains, caches and uses of a run fit together. -/
structure UseLog (C : Crypto) (me : Identity) (us : List KeyUse) (os : List Output)
    (s : Client) : Prop where
  chains : OwnChains C me us os s
  cache : KeyCache C us s
  distinct : Distinct us

theorem OwnChains.distinct_concat (h : OwnChains C me us os s) (hus : Distinct us) (e : Event) :
    Distinct (us ++ (useOf me os s e).toList) := by
  rw [Distinct, List.pairwise_append]
  refine ⟨hus, ?_, ?_⟩
  · cases useOf me os s e with
    | none => exact List.Pairwise.nil
    | some u => exact List.pairwise_singleton _ u
  · intro u hu u' hu' heq
    cases e with
    | sendData convId payload =>
      rw [useOf, Option.mem_toList, Option.map_eq_some_iff] at hu'
      obtain ⟨chain, hchain, rfl⟩ := hu'
      obtain ⟨start, hstart, -, hspent⟩ := h.chains convId _ chain hchain
      have hnumber : u.chain.map Prod.fst = some start.1 := by
        rw [heq.1, Option.mem_def.mp hstart, Option.map_some]
      have hlt := hspent u hu hnumber
      rw [heq.2] at hlt
      exact lt_irrefl _ hlt
    | _ => cases hu'

theorem step_useLog {es : List Event} {e : Event} (hshares : OwnSharesUnspent C me (es ++ [e]))
    (hlog : UseLog C me (keyUses C me es) (outputsOf C me es) (stateAfter C me es)) :
    UseLog C me (keyUses C me (es ++ [e])) (outputsOf C me (es ++ [e]))
        (stateAfter C me (es ++ [e])) ∧
      ∀ enc ∈ encodings (step C me e (stateAfter C me es)).output,
        Paired C (keyUses C me (es ++ [e])) enc := by
  have hdistinct := hlog.chains.distinct_concat hlog.distinct e
  rw [← keyUses_concat] at hdistinct
  by_cases hsend : ∃ c p, e = .sendData c p
  · obtain ⟨convId, payload, rfl⟩ := hsend
    have hchains := sendData_keepsChains hlog.chains convId payload
    obtain ⟨hcache, hpaired⟩ := hlog.cache.send hlog.chains convId payload
    rw [← keyUses_concat] at hchains hcache hpaired
    rw [outputsOf_concat, stateAfter_concat]
    exact ⟨⟨hchains, hcache, hdistinct⟩, hpaired⟩
  · have hnot : ∀ c p, e ≠ .sendData c p := fun c p he => hsend ⟨c, p, he⟩
    have hsame : keyUses C me (es ++ [e]) = keyUses C me es := by
      rw [keyUses_concat]
      cases e with
      | sendData convId payload => exact absurd rfl (hnot convId payload)
      | _ => exact List.append_nil _
    obtain ⟨hcache, hpaired⟩ : KeyCache C (keyUses C me es) (step C me e (stateAfter C me es)).state ∧
        ∀ enc ∈ encodings (step C me e (stateAfter C me es)).output,
          Paired C (keyUses C me es) enc := hlog.cache.step_of hnot
    rw [hsame] at hdistinct ⊢
    refine ⟨⟨step_keepsChains hnot hshares hlog.chains, ?_, hdistinct⟩, hpaired⟩
    rw [stateAfter_concat]
    exact hcache

theorem useLog_run {es : List Event} (hshares : OwnSharesUnspent C me es) :
    UseLog C me (keyUses C me es) (outputsOf C me es) (stateAfter C me es) := by
  induction es using List.reverseRecOn with
  | nil => exact ⟨OwnChains.init, KeyCache.init, List.Pairwise.nil⟩
  | append_singleton es e ih => exact (step_useLog hshares (ih hshares.init)).1

/-! ### Distinct keys -/

/-- The HMAC inputs that chains from these seeds use up to an index. -/
def chainInputs (C : Crypto) (seeds : List Buffer) (n : ℕ) : List (Buffer × Buffer) :=
  seeds.flatMap fun seed => (List.range n).flatMap fun i =>
    [(chainSteps C i seed, utf8 "DartChainKey"),
      (chainSteps C i seed, utf8 "DartMsgKey" ++ bytesBE 4 (i % 2 ^ 32))]

/-- HMAC has no collision among these inputs. -/
def CollisionFree (C : Crypto) (inputs : List (Buffer × Buffer)) : Prop :=
  ∀ p ∈ inputs, ∀ q ∈ inputs, C.hmac p.1 p.2 = C.hmac q.1 q.2 → p = q

theorem mem_chainInputs {n i : ℕ} {seed : Buffer} (hseed : seed ∈ seeds) (hi : i < n) :
    (chainSteps C i seed, utf8 "DartChainKey") ∈ chainInputs C seeds n ∧
      (chainSteps C i seed, utf8 "DartMsgKey" ++ bytesBE 4 (i % 2 ^ 32))
        ∈ chainInputs C seeds n := by
  have hmem : ∀ p, p ∈ [(chainSteps C i seed, utf8 "DartChainKey"),
      (chainSteps C i seed, utf8 "DartMsgKey" ++ bytesBE 4 (i % 2 ^ 32))] →
      p ∈ chainInputs C seeds n := fun p hp =>
    List.mem_flatMap.mpr ⟨seed, hseed, List.mem_flatMap.mpr ⟨i, List.mem_range.mpr hi, hp⟩⟩
  exact ⟨hmem _ (by simp), hmem _ (by simp)⟩

theorem seed_of_chainSteps {n : ℕ} (h : CollisionFree C (chainInputs C seeds n))
    {seed seed' : Buffer} (hseed : seed ∈ seeds) (hseed' : seed' ∈ seeds) {i : ℕ} (hi : i ≤ n)
    (heq : chainSteps C i seed = chainSteps C i seed') : seed = seed' := by
  induction i with
  | zero => exact heq
  | succ i ih =>
    rw [chainSteps_succ, chainSteps_succ] at heq
    have hpair := h _ (mem_chainInputs hseed hi).1 _ (mem_chainInputs hseed' hi).1 heq
    exact ih (by omega) (congrArg Prod.fst hpair)

theorem position_of_messageKey {n : ℕ}
    (h : CollisionFree C (chainInputs C seeds n)) (hn : n ≤ 2 ^ 32) {seed seed' : Buffer}
    (hseed : seed ∈ seeds) (hseed' : seed' ∈ seeds) {i j : ℕ} (hi : i < n) (hj : j < n)
    (heq : chainMessageKey C (chainSteps C i seed) i = chainMessageKey C (chainSteps C j seed') j) :
    seed = seed' ∧ i = j := by
  have hpair := h _ (mem_chainInputs hseed hi).2 _ (mem_chainInputs hseed' hj).2 heq
  rw [Prod.mk.injEq] at hpair
  obtain ⟨hkey, hlabel⟩ := hpair
  have hnum := congrArg natBE (List.append_cancel_left hlabel)
  rw [natBE_bytesBE, natBE_bytesBE] at hnum
  have hij : i = j := by omega
  subst hij
  exact ⟨seed_of_chainSteps h hseed hseed' hi.le hkey, rfl⟩

/-- The seeds of the chains that were started. -/
def startedSeeds (os : List Output) : List Buffer := (chainStarts os).map fun start => start.2.2

/-- **Distinct positions give distinct keys**, when the seeds are distinct and HMAC has no collision
on the chains. -/
theorem OwnChains.keys_nodup
    (hchains : OwnChains C me us os s) (hus : Distinct us) {n : ℕ} (hn : n ≤ 2 ^ 32)
    (hidx : ∀ u ∈ us, u.idx < n) (hseeds : (startedSeeds os).Nodup)
    (hfree : CollisionFree C (chainInputs C (startedSeeds os) n)) :
    (us.map (KeyUse.key C)).Nodup := by
  rw [List.Nodup, List.pairwise_map]
  refine List.Pairwise.imp_of_mem ?_ hus
  intro u u' hu hu' hne heq
  obtain ⟨⟨number, seed⟩, hchain, hget⟩ := hchains.started u hu
  obtain ⟨⟨number', seed'⟩, hchain', hget'⟩ := hchains.started u' hu'
  have hmem : (startedSeeds os)[number]? = some seed := by
    rw [startedSeeds, List.getElem?_map, hget]
    rfl
  have hmem' : (startedSeeds os)[number']? = some seed' := by
    rw [startedSeeds, List.getElem?_map, hget']
    rfl
  rw [KeyUse.key, KeyUse.key, hchain, hchain', Option.map_some, Option.map_some,
    Option.some.injEq] at heq
  obtain ⟨rfl, hij⟩ := position_of_messageKey hfree hn (List.mem_of_getElem? hmem)
    (List.mem_of_getElem? hmem') (hidx u hu) (hidx u' hu') heq
  have hnumber : number = number' :=
    (List.getElem?_inj (List.getElem?_eq_some_iff.mp hmem).1 hseeds).mp (hmem.trans hmem'.symm)
  exact hne ⟨by rw [hchain, hchain', hnumber], hij⟩

/-- **One message key for every dart.**  Take any run in which every chain share in its own name that
the client accepts is unspent.  What the last event encodes, for a first or a repeated transmission,
is the dart that last used its number, labelled with the epoch and index of that use and encrypted
under the key at that index of the chain that was in use then.  No two sends of the run use the same
chain and index; so with distinct seeds, fewer than `2^32` sends on a chain and an HMAC without
collisions, no two sends use the same key. -/
theorem darts_have_own_keys {es : List Event} {e : Event}
    (hshares : OwnSharesUnspent C me (es ++ [e])) :
    (∀ enc ∈ encodings (step C me e (stateAfter C me es)).output,
        Paired C (keyUses C me (es ++ [e])) enc) ∧
      Distinct (keyUses C me (es ++ [e])) ∧
      ∀ n ≤ 2 ^ 32, (∀ u ∈ keyUses C me (es ++ [e]), u.idx < n) →
        (startedSeeds (outputsOf C me (es ++ [e]))).Nodup →
        CollisionFree C (chainInputs C (startedSeeds (outputsOf C me (es ++ [e]))) n) →
        ((keyUses C me (es ++ [e])).map (KeyUse.key C)).Nodup := by
  obtain ⟨hlog, hpaired⟩ := step_useLog hshares (useLog_run hshares.init)
  refine ⟨hpaired, hlog.distinct, ?_⟩
  intro n hn hidx hseeds hfree
  exact hlog.chains.keys_nodup hlog.distinct hn hidx hseeds hfree

/-- Client `1` founds the group of conversation `7`, sends, rotates and sends again. -/
def rotatingRun : List Event :=
  [.message (sumMemberInfo 7 1 true [1, 2]), .sendData 7 "a", .rekeyTimer, .sendData 7 "b"]

/-- Member `2` asks for the first dart, which was sent in the epoch before. -/
def rotatingNack : Buffer :=
  signControlFrame sumCrypto
    ((Codec.encodeNack sumCrypto ⟨TYPE_NACK, 7, 2, 1, [1]⟩
      (((stateAfter sumCrypto (sumIdentity 1) rotatingRun).getCurrentKey 7).getD [])
      (Buffer.alloc 12)).getD []) (sumPairwise 2 1)

/-- The repeated transmission keeps the label and the key of the earlier epoch. -/
theorem darts_have_own_keys_rotation :
    ((encodings (step sumCrypto (sumIdentity 1) (.message rotatingNack)
        (stateAfter sumCrypto (sumIdentity 1) rotatingRun)).output).map fun enc =>
          (enc.dart.payload, enc.epoch, enc.idx)) = [("a", 1, 0)] ∧
      (∀ enc ∈ encodings (step sumCrypto (sumIdentity 1) (.message rotatingNack)
        (stateAfter sumCrypto (sumIdentity 1) rotatingRun)).output,
          Paired sumCrypto
            (keyUses sumCrypto (sumIdentity 1) (rotatingRun ++ [.message rotatingNack])) enc) ∧
      ((keyUses sumCrypto (sumIdentity 1) (rotatingRun ++ [.message rotatingNack])).map
        (KeyUse.key sumCrypto)).Nodup := by
  have hrun : OwnSharesUnspent sumCrypto (sumIdentity 1) (rotatingRun ++ [.message rotatingNack]) ∧
      ((encodings (step sumCrypto (sumIdentity 1) (.message rotatingNack)
        (stateAfter sumCrypto (sumIdentity 1) rotatingRun)).output).map fun enc =>
          (enc.dart.payload, enc.epoch, enc.idx)) = [("a", 1, 0)] ∧
      (∀ u ∈ keyUses sumCrypto (sumIdentity 1) (rotatingRun ++ [.message rotatingNack]),
        u.idx < 2) ∧
      (startedSeeds (outputsOf sumCrypto (sumIdentity 1)
        (rotatingRun ++ [.message rotatingNack]))).Nodup ∧
      CollisionFree sumCrypto (chainInputs sumCrypto (startedSeeds (outputsOf sumCrypto
        (sumIdentity 1) (rotatingRun ++ [.message rotatingNack]))) 2) := by
    unfold OwnSharesUnspent CollisionFree
    decide +kernel
  obtain ⟨hshares, henc, hidx, hseeds, hfree⟩ := hrun
  obtain ⟨hpaired, -, hkeys⟩ := darts_have_own_keys hshares
  exact ⟨henc, hpaired, hkeys 2 (by decide) hidx hseeds hfree⟩

/-! ### A share in the own name -/

/-- The last frame that client `1` put on the wire. -/
def lastFrame (es : List Event) : Buffer :=
  (framesOf (outputsOf sumCrypto (sumIdentity 1) es)).getLast?.getD []

/-- A Data header in the name of client `1`, with number `2` and nothing behind it. -/
def ownName : Buffer :=
  bytesBE 1 TYPE_DATA ++ bytesBE 2 7 ++ bytesBE 3 2 ++ bytesBE 1 24
    ++ bytesBE 2 1

/-- Client `1` founds the group and sends; a stranger sends the bare header and returns to the client
what it answers: first its NACK to itself, then the chain share to itself; the client sends again. -/
def reflectingRun : List Event :=
  let founded : List Event := [.message (sumMemberInfo 7 1 true [1, 2]), .sendData 7 "a"]
  let asked := founded ++ [.message ownName]
  let shared := asked ++ [.message (lastFrame asked)]
  shared ++ [.message (lastFrame shared), .sendData 7 "b"]

/-- **A reflected share repeats a key.**  No key is needed for this: the header is not
authenticated, and the other two frames are the client's own.  Both darts are encrypted at index `0`
of the same chain, under the same message key. -/
theorem reflected_share_repeats_key :
    ¬ Distinct (keyUses sumCrypto (sumIdentity 1) reflectingRun) ∧
      ∃ u u' : KeyUse, keyUses sumCrypto (sumIdentity 1) reflectingRun = [u, u'] ∧
        u.dart.payload = "a" ∧ u'.dart.payload = "b" ∧ u.chain = u'.chain ∧ u.idx = 0 ∧ u'.idx = 0 ∧
        u.key sumCrypto = u'.key sumCrypto := by
  have hrun : ∃ u ∈ (keyUses sumCrypto (sumIdentity 1) reflectingRun)[0]?,
      ∃ u' ∈ (keyUses sumCrypto (sumIdentity 1) reflectingRun)[1]?,
        keyUses sumCrypto (sumIdentity 1) reflectingRun = [u, u'] ∧
        u.dart.payload = "a" ∧ u'.dart.payload = "b" ∧ u.chain = u'.chain ∧ u.idx = 0 ∧ u'.idx = 0 ∧
        u.key sumCrypto = u'.key sumCrypto := by
    decide +kernel
  obtain ⟨u, -, u', -, huses, hrest⟩ := hrun
  refine ⟨?_, u, u', huses, hrest⟩
  obtain ⟨-, -, hchain, hidx, hidx', -⟩ := hrest
  rw [huses, Distinct, List.pairwise_cons]
  rintro ⟨hne, -⟩
  exact hne u' (List.mem_singleton.mpr rfl) ⟨hchain, hidx.trans hidx'.symm⟩

end DartProtocol
