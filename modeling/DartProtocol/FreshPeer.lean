import DartProtocol.Adoption
import DartProtocol.ReceiverChains

/-!
# What a fresh peer is given of the past

A member that joins is handed the present state of the sender's chain, so that it can read what
follows and nothing before.  A chain state leaves the client in three places: the present state when a
roster or a key arrives, the captured state when a retry fires, and the seed when a NACK is answered.

* `PastIndex` — the own chain, and what pending retries hold for a member, stand at or beyond an index;
* `Forward` — every kind of change keeps this and hands out no earlier state, as long as the chain is
  not started again;
* `Onward` — the events that do not look back.

**Main result** (`fresh_peer_gets_no_history`): a member that is not covered by an older retry, and
for which the client handles only such events, is never handed a state before the index at which it
joined.  The ordinary gap rule of a joining receiver is an event of the other kind
(`fresh_peer_reads_history`).
-/

namespace DartProtocol

open Prog

/-! ### The invariant -/

/-- What a pending retry holds for the member stands at or beyond index `k`. -/
def RetryAhead (c e r k : ℕ) : ShareRetry → Prop
  | .key _ _ _ _ _ => True
  | .chain convId epoch targets chain =>
    convId = c → epoch = e → r ∈ targets → k ≤ chain.index

instance (c e r k : ℕ) : DecidablePred (RetryAhead c e r k) := fun retry =>
  match retry with
  | .key _ _ _ _ _ => isTrue trivial
  | .chain convId epoch targets chain =>
    inferInstanceAs (Decidable (convId = c → epoch = e → r ∈ targets → k ≤ chain.index))

/-- The own chain of conversation `c` and epoch `e`, and what retries hold of it for member `r`, stand
at or beyond index `k`. -/
structure PastIndex (me : Identity) (c e r k : ℕ) (s : Client) : Prop where
  chain : ∃ st, s.getChain c e me.senderId = some st ∧ k ≤ st.index
  retries : ∀ retry ∈ s.shareTimers, RetryAhead c e r k retry

/-- A chain share for the member hands out no state before index `k`. -/
def ShareAhead (c e r k : ℕ) (share : ChainShareDart) : Prop :=
  share.convId = c → share.epoch = e → share.targetId = r → k ≤ share.chainIndex

namespace PastIndex

variable {me : Identity} {c e r k : ℕ} {s t : Client}

theorem of_fields (h : PastIndex me c e r k s) (h₁ : t.senderChains = s.senderChains)
    (h₂ : t.shareTimers = s.shareTimers) : PastIndex me c e r k t := by
  obtain ⟨st, hst, hk⟩ := h.chain
  refine ⟨⟨st, ?_, hk⟩, h₂ ▸ h.retries⟩
  rw [Client.getChain, h₁]
  exact hst

/-- The chain is replaced by a later state, or another chain is replaced. -/
theorem setChain (h : PastIndex me c e r k s) {convId epoch m : ℕ} {st : ChainState}
    (hst : convId = c → epoch = e → m = me.senderId → k ≤ st.index) :
    PastIndex me c e r k (s.setChain convId epoch m st) := by
  refine ⟨?_, h.retries⟩
  rw [Client.getChain_setChain]
  split
  · rename_i hsame
    exact ⟨st, rfl, hst hsame.1 hsame.2.1 hsame.2.2⟩
  · exact h.chain

theorem advance (h : PastIndex me c e r k s) (C : Crypto) {convId epoch m idx : ℕ} {chain : ChainState}
    (hget : s.getChain convId epoch m = some chain) (hle : chain.index ≤ idx) :
    PastIndex me c e r k (s.setChain convId epoch m (advanceChain C chain idx).2) := by
  apply h.setChain
  rintro rfl rfl rfl
  obtain ⟨st, hst, hk⟩ := h.chain
  rw [hget, Option.some.injEq] at hst
  rw [advanceChain_of_le C hle]
  show k ≤ idx + 1
  rw [← hst] at hk
  omega

end PastIndex

/-! ### Every kind of change looks forward -/

/-- Unless the chain is started again, the invariant survives and no earlier state is handed out. -/
def Forward (me : Identity) (c e r k : ℕ) : Client → List Output → Client → Prop :=
  fun s os t => (∀ seed, Output.chainStarted c e seed ∉ os) → PastIndex me c e r k s →
    PastIndex me c e r k t ∧ ∀ share, Output.chainShared share ∈ os → ShareAhead c e r k share

section Kept

variable {C : Crypto} {me : Identity} {c e r k : ℕ}

theorem Forward.of_state {s t : Client} {os : List Output}
    (h : PastIndex me c e r k s → PastIndex me c e r k t)
    (hnone : ∀ share, Output.chainShared share ∉ os) :
    Forward me c e r k s os t :=
  fun _ hs => ⟨h hs, fun share hshare => absurd hshare (hnone share)⟩

/-- Nothing the invariant speaks about changes, and no state is handed out. -/
theorem Forward.of_fields {s t : Client} {os : List Output}
    (h₁ : t.senderChains = s.senderChains) (h₂ : t.shareTimers = s.shareTimers)
    (hnone : ∀ share, Output.chainShared share ∉ os) : Forward me c e r k s os t :=
  Forward.of_state (fun hs => hs.of_fields h₁ h₂) hnone

theorem forward_background : Background (Forward me c e r k) where
  comp := by
    constructor
    · exact fun s => Forward.of_fields rfl rfl fun _ => List.not_mem_nil
    · intro s t u os os' h h' hnone hs
      obtain ⟨ht, hshared⟩ := h (fun seed hseed => hnone seed (List.mem_append_left _ hseed)) hs
      obtain ⟨hu, hshared'⟩ := h' (fun seed hseed => hnone seed (List.mem_append_right _ hseed)) ht
      refine ⟨hu, ?_⟩
      intro share hshare
      rcases List.mem_append.mp hshare with hshare | hshare
      · exact hshared share hshare
      · exact hshared' share hshare
  bookkeeping := fun s t hcore => Forward.of_fields (congrArg (·.senderChains) hcore)
    (congrArg (·.shareTimers) hcore) fun _ => List.not_mem_nil
  broadcast := fun s buf via => Forward.of_fields rfl rfl (by simp)

theorem forward_shared {share : ChainShareDart} (h : ShareAhead c e r k share) (s : Client) :
    Forward me c e r k s [.chainShared share] s := by
  intro _ hs
  refine ⟨hs, ?_⟩
  intro share' hshare'
  cases List.mem_singleton.mp hshare'
  exact h

theorem forward_retries {retry : ShareRetry} (h : RetryAhead c e r k retry) (s : Client) :
    Forward me c e r k s [] { s with shareTimers := s.shareTimers ++ [retry, retry] } := by
  refine Forward.of_state (fun hs => ⟨hs.chain, ?_⟩) fun _ => List.not_mem_nil
  intro r' hr'
  rcases List.mem_append.mp hr' with hr' | hr'
  · exact hs.retries r' hr'
  · have hsame : r' = retry := by simpa using hr'
    rw [hsame]
    exact h

theorem Forward.of_rest {s t : Client} (h : t.rest = s.rest) : Forward me c e r k s [] t :=
  Forward.of_fields (congrArg (·.senderChains) h) (congrArg (·.shareTimers) h) (by simp)

theorem forward_receive (senderId : ℕ) : ReceiveRules C (Forward me c e r k) senderId := by
  refine .of_rest forward_background (fun _ _ => Forward.of_rest)
    (fun _ _ => Forward.of_fields rfl rfl (by simp)) (fun _ _ => Forward.of_fields rfl rfl (by simp)) ?_
  intro s buf dec s' hopen
  obtain ⟨convId, epoch, idx, chain, _, _, _, hget, hle, _, rfl⟩ := openData_eq hopen
  exact Forward.of_state (fun hs => hs.advance C hget hle) fun _ => List.not_mem_nil

/-- What is handed to the members of a roster is the present state. -/
theorem forward_shareChain (convId epoch : ℕ) :
    Obeys (Forward me c e r k) (shareChainWithMembers C me convId epoch) := by
  intro s
  by_cases hs : PastIndex me c e r k s
  · have hpresent : ∀ chain, s.getChain convId epoch me.senderId = some chain → convId = c →
        epoch = e → k ≤ chain.index := by
      rintro chain hchain rfl rfl
      obtain ⟨st, hst, hk⟩ := hs.chain
      rw [hchain, Option.some.injEq] at hst
      rw [hst]
      exact hk
    refine shareChainWithMembers_obeysAt forward_background
      (fun t g => Forward.of_fields rfl rfl (by simp)) ?_ ?_
    · intro t targets chain hchain
      apply forward_retries
      exact fun hc he _ => hpresent chain hchain hc he
    · intro t share hchain hconv _ hepoch
      apply forward_shared
      intro hc he _
      exact hpresent _ hchain (hconv ▸ hc) (hepoch ▸ he)
  · exact fun _ h => absurd h hs

theorem forward_keys : KeyRules C me (Forward me c e r k) where
  toBackground := forward_background
  shareKey := by
    intro convId
    refine shareWithNewMembers_obeys forward_background ?_ convId ?_
    · exact fun s f => Forward.of_fields rfl rfl (by simp)
    · intro s epoch key targets roster
      apply forward_retries
      trivial
  shareChain := forward_shareChain
  installKey := fun s convId epoch key => Forward.of_fields rfl rfl (by simp)
  startChain := by
    intro s convId epoch seed hnone hs
    refine ⟨?_, by simp⟩
    have hset : PastIndex me c e r k (s.setChain convId epoch me.senderId ⟨seed, 0⟩) := by
      apply hs.setChain
      rintro rfl rfl _
      exact absurd (List.mem_singleton.mpr rfl) (hnone seed)
    exact hset.of_fields rfl rfl
  pruneEpochs := by
    intro s convId
    obtain ⟨keys, seeds, h⟩ := pruneEpochs_eq convId s
    rw [h]
    exact Forward.of_fields rfl rfl (by simp)
  installRoster := fun s info serverPubKey => Forward.of_fields rfl rfl (by simp)

theorem forward_retransmit (seq : ℕ) : Obeys (Forward me c e r k) (retransmit C me seq) :=
  fun _ => retransmit_obeysAt forward_background fun _ _ _ _ _ _ _ _ =>
    Forward.of_fields rfl rfl (by simp)

theorem forward_sendData (s : Client) (convId : ℕ) (payload : String) :
    ObeysAt (Forward me c e r k) (sendData C me convId payload) s := by
  apply sendData_obeysAt forward_background
  · exact fun _ => Forward.of_fields rfl rfl (by simp)
  · intro chain hchain os t hrest hnone hs
    have hset : PastIndex me c e r k (enterSent C me convId payload chain s) :=
      (hs.advance C hchain (le_refl chain.index)).of_fields rfl rfl
    obtain ⟨ht, hshared⟩ := hrest (fun seed hseed => hnone seed (List.mem_cons_of_mem _ hseed)) hset
    refine ⟨ht, fun share hshare => hshared share ?_⟩
    simpa using hshare
  · exact fun _ _ _ _ _ _ => Forward.of_fields rfl rfl (by simp)

theorem forward_shareTimer (i : ℕ) (s : Client) :
    ObeysAt (Forward me c e r k) (step C me (.shareTimer i)) s := by
  unfold ObeysAt
  rw [step_shareTimer]
  cases hget : s.shareTimers[i]? with
  | none => exact forward_background.comp.refl s
  | some retry =>
    intro hnone hs
    have hretry : RetryAhead c e r k retry := hs.retries retry (List.mem_of_getElem? hget)
    have hcall : Obeys (Forward me c e r k) (runShareRetry C me retry) := by
      apply runShareRetry_obeys_to forward_background
      intro convId epoch targets chain heq t share hconv _ hepoch htarget _ hindex
      subst heq
      apply forward_shared
      intro hc he hr
      rw [hindex]
      exact hretry (hconv ▸ hc) (hepoch ▸ he) (hr ▸ htarget)
    refine hcall _ hnone ⟨hs.chain, ?_⟩
    exact fun r' hr' => hs.retries r' (List.mem_of_mem_eraseIdx hr')

end Kept

/-! ### Events that do not look back -/

/-- The event enters no key for the epoch again, which would start its chain anew, brings back no
earlier state of the own chain, and asks for no seed before index `k` in the name of the member. -/
@[mk_iff] structure Onward (C : Crypto) (me : Identity) (c e r k : ℕ) (s : Client)
    (ev : Event) : Prop where
  adopted : ∀ a ∈ adoptionOf C me s ev, ¬ (a.convId = c ∧ a.epoch = e)
  shared : ∀ buf ∈ ev.datagram, ∀ opened ∈ (shareTransportKey C me s buf).join,
    ∀ decoded ∈ Codec.decodeChainShare C buf opened.2, opened.1 = c → decoded.epoch = e →
      decoded.senderId = me.senderId → k ≤ decoded.chainIndex
  asked : ∀ buf ∈ ev.datagram, buf.readUInt8 0 = some TYPE_NACK →
    ∀ opened ∈ (openPairwise C me s buf).join, opened.1 = c → opened.2.1 = r →
      s.sendingEpoch c = e → ∀ seed ∈ get₂ s.chainSeeds c e, k ≤ seed.index

instance (C : Crypto) (me : Identity) (c e r k : ℕ) (s : Client) (ev : Event) :
    Decidable (Onward C me c e r k s ev) :=
  decidable_of_iff _ (onward_iff C me c e r k s ev).symm

section Runs

variable {C : Crypto} {me : Identity} {c e r k : ℕ}

theorem step_forward {s : Client} {ev : Event} (hev : Onward C me c e r k s ev) :
    ObeysAt (Forward me c e r k) (step C me ev) s := by
  have hB : Background (Forward me c e r k) := forward_background
  refine step_obeysAt_of_handlers forward_keys forward_receive ?_ ?_ ?_ ?_ ?_ ?_ ?_
  · exact fun s senderId => Forward.of_rest (ensureReceived_rest senderId s)
  · intro s targetId
    rw [applyDictReset]
    split
    · exact Forward.of_fields rfl rfl (by simp)
    · exact Forward.of_rest (clearReceived_rest targetId s)
  · exact fun s => Forward.of_fields rfl rfl (by simp)
  · exact fun convId payload _ => forward_sendData s convId payload
  · intro buf he _
    subst he
    apply handleChainShare_obeysAt hB
    intro convId key decoded hopen hdec
    refine Forward.of_state (fun hs => hs.setChain fun hc hepoch hself => ?_) (by simp)
    exact hev.shared buf rfl (convId, key) (by rw [hopen]; rfl) decoded hdec hc hepoch hself
  · intro buf he htype
    subst he
    apply handleNack_obeysAt hB forward_retransmit
    intro convId senderId stripped hopen t hcore
    apply reshareSeed_obeysAt_to hB
    intro u share hseed hconv _ hepoch htarget
    apply forward_shared
    intro hc he hr
    -- the seed is the one the client held when the NACK arrived
    have hseeds : t.chainSeeds = s.chainSeeds := congrArg (fun c => c.chainSeeds) hcore
    have hsending : t.sendingEpoch convId = s.sendingEpoch convId := by
      rw [Client.sendingEpoch, show t.currentEpochs = s.currentEpochs from
        congrArg (fun c => c.currentEpochs) hcore]
      rfl
    rw [hseeds, hsending] at hseed
    rw [hsending] at hepoch
    have hconvId : convId = c := hconv.symm.trans hc
    subst hconvId
    have hsame : s.sendingEpoch convId = e := hepoch.symm.trans he
    rw [hsame] at hseed
    exact hev.asked buf rfl htype (convId, senderId, stripped) (by rw [hopen]; rfl) rfl
      (htarget.symm.trans hr) hsame ⟨share.chainKey, share.chainIndex⟩ hseed
  · exact fun i _ => forward_shareTimer i s

theorem run_forward {fs : List Event} : ∀ {s : Client}, PastIndex me c e r k s →
    (∀ i < fs.length, ∀ ev ∈ fs[i]?, Onward C me c e r k (run C me (fs.take i) s).state ev) →
    PastIndex me c e r k (run C me fs s).state ∧
      ∀ share, Output.chainShared share ∈ (run C me fs s).output → ShareAhead c e r k share := by
  induction fs with
  | nil =>
    intro s hs _
    exact ⟨hs, fun share hshare => by cases hshare⟩
  | cons ev fs ih =>
    intro s hs hfs
    have hev : Onward C me c e r k s ev := hfs 0 (by simp) ev rfl
    have hnone : ∀ seed, Output.chainStarted c e seed ∉ (step C me ev s).output := by
      intro seed hseed
      obtain ⟨a, ha, hstarted⟩ := step_startedBy ev (c, e, seed) (mem_chainStarts hseed)
      exact hev.adopted a ha hstarted
    obtain ⟨ht, hshared⟩ := step_forward hev hnone hs
    have hrest : ∀ i < fs.length, ∀ ev' ∈ fs[i]?,
        Onward C me c e r k (run C me (fs.take i) (step C me ev s).state).state ev' := by
      intro i hi ev' hev'
      have h := hfs (i + 1) (by simpa using hi) ev' (by simpa using hev')
      rw [List.take_succ_cons, run_cons] at h
      exact h
    obtain ⟨hu, hshared'⟩ := ih ht hrest
    rw [run_cons]
    refine ⟨hu, ?_⟩
    intro share hshare
    rcases List.mem_append.mp hshare with hshare | hshare
    · exact hshared share hshare
    · exact hshared' share hshare

/-- Client `1` founds the group of conversation `7` alone and sends twice. -/
def aloneRun : List Event :=
  [.message (sumMemberInfo 7 1 true [1]), .sendData 7 "a", .sendData 7 "b"]

/-- Member `2` joins, client `1` sends, and the retry of its chain share fires. -/
def joinedRun : List Event :=
  [.message (sumMemberInfo 7 1 true [1, 2]), .sendData 7 "c", .shareTimer 2]

end Runs

/-! ### A joining receiver that looks back -/

/-- The frames that a client puts out on further events of a run. -/
def framesSince (me : Identity) (es fs : List Event) : List Buffer :=
  framesOf (run sumCrypto me fs (stateAfter sumCrypto me es)).output

/-- The run of client `1` up to its first dart after member `2` joined. -/
def greetingRun : List Event :=
  aloneRun ++ [.message (sumMemberInfo 7 1 true [1, 2]), .sendData 7 "c"]

/-- What member `2` is sent from its join on: its roster, the group key, the chain and the dart. -/
def greetedRun : List Event :=
  (sumMemberInfo 7 2 false [1, 2] ::
    framesSince (sumIdentity 1) aloneRun (greetingRun.drop 3)).map Event.message

/-- The gap rule: the first dart has number `3`, so the member asks for `1` and `2`. -/
def gapNack : Buffer := (framesSince (sumIdentity 2) [] greetedRun).getLast?.getD []

/-- Client `1` answers, first the darts and then the seed, and sends once more. -/
def answeringRun : List Event := [.message gapNack, .sendData 7 "d"]

/-- All of it reaches the member, which now has the seed. -/
def answeredRun : List Event :=
  greetedRun ++ (framesSince (sumIdentity 1) greetingRun answeringRun).map Event.message

/-- The new dart shows the same gap, so the member asks again. -/
def nextNack : Buffer := (framesSince (sumIdentity 2) [] answeredRun).getLast?.getD []

/-- The second answer reaches the member. -/
def lookingBackRun : List Event :=
  answeredRun ++ (framesSince (sumIdentity 1) (greetingRun ++ answeringRun)
    [.message nextNack]).map Event.message

/-- Client `1` founds the group with member `2` and sends twice; member `2` comes back with a fresh
key, and then a retry of the first share fires. -/
def staleRetryRun : List Event :=
  [.message (sumMemberInfo 7 1 true [1, 2]), .sendData 7 "a", .sendData 7 "b",
    .message (sumServerInfo 9 7 1 true [⟨1, Buffer.bytesBE 65 1⟩, ⟨2, sumFreshKey 102⟩]),
    .shareTimer 2]

end DartProtocol
