import DartProtocol.MessageKeys
import DartProtocol.ShareDelivery

/-!
# The marks of members that have been given the keys

A client marks the members it has given the group key (`sharedWith`) and its own chain
(`chainSharedWith`), so that it does not share again.  A mark is set before anything is sent; it is
taken away when a new key or chain replaces the old one, or when a roster shows the member with a
public key other than the one in the roster before.

* `KeyShared`, `ChainShared` — a share for a public key left the client;
* `Honest` — every mark stands for such a share, for the key the member had when it was last listed;
* `Regular` — no handler that shares is left by an exception, and a member that returns while it is
  still marked returns with the key it left with;
* `honest_run` — the marks over every such run.

**Main result** (`marks_are_truthful`): then every mark of a listed member stands for a share of the
present key or chain, encrypted to the listed public key.  A member that leaves and comes back with a
fresh key keeps its marks and is given nothing (`returning_member_is_given_nothing`).
-/

namespace DartProtocol

open Prog InsertionMap Buffer

/-! ### Shares on the wire -/

/-- A KEY_SHARE of this epoch and group key for member `m`, encrypted to the public key, was
broadcast. -/
def KeyShared (C : Crypto) (me : Identity) (os : List Output) (c epoch : ℕ) (key : Buffer) (m : ℕ)
    (pub : Buffer) : Prop :=
  ∃ transportKey i buf via, pairwiseKey C me.privateKey pub = some transportKey ∧
    Codec.encodeKeyShare C ⟨TYPE_KEY_SHARE, c, me.senderId, m, epoch, me.random i 12, key⟩ transportKey
      = some buf ∧ Output.broadcast buf via ∈ os

/-- A CHAIN_SHARE of this chain state for member `m`, encrypted to the public key, was broadcast. -/
def ChainShared (C : Crypto) (me : Identity) (os : List Output) (c epoch : ℕ) (st : ChainState)
    (m : ℕ) (pub : Buffer) : Prop :=
  ∃ transportKey i buf via, pairwiseKey C me.privateKey pub = some transportKey ∧
    Codec.encodeChainShare C
      ⟨TYPE_CHAIN_SHARE, c, me.senderId, m, epoch, me.random i 12, st.key, st.index⟩ transportKey
      = some buf ∧ Output.broadcast buf via ∈ os

variable {C : Crypto} {me : Identity}

variable {os os' : List Output} {c epoch m : ℕ} {key pub : Buffer} {st chain : ChainState}
  {s : Client} {roster : NumMap Buffer} {targets : List ℕ} {es : List Event}

theorem KeyShared.mono (h : KeyShared C me os c epoch key m pub) (hsub : os ⊆ os') :
    KeyShared C me os' c epoch key m pub := by
  obtain ⟨transportKey, i, buf, via, hkey, hbuf, hmem⟩ := h
  exact ⟨transportKey, i, buf, via, hkey, hbuf, hsub hmem⟩

theorem ChainShared.mono (h : ChainShared C me os c epoch st m pub) (hsub : os ⊆ os') :
    ChainShared C me os' c epoch st m pub := by
  obtain ⟨transportKey, i, buf, via, hkey, hbuf, hmem⟩ := h
  exact ⟨transportKey, i, buf, via, hkey, hbuf, hsub hmem⟩

/-- The keys, chains and histories stay, and no chain is started. -/
def Quiet : Client → List Output → Client → Prop := fun s os t => t.core = s.core ∧ chainStarts os = []

theorem quiet_background : Background Quiet where
  comp := by
    constructor
    · exact fun s => ⟨rfl, rfl⟩
    · intro s t u os os' h h'
      refine ⟨h'.1.trans h.1, ?_⟩
      rw [chainStarts_append, h.2, h'.2, List.append_nil]
  bookkeeping := fun _ _ h => ⟨h, rfl⟩
  broadcast := fun _ _ _ => ⟨rfl, rfl⟩

theorem sendKeyShare_quiet (c epoch : ℕ) (key : Buffer)
    (roster : NumMap Buffer) (m : ℕ) :
    Obeys Quiet (sendKeyShare C me c epoch key roster m) :=
  sendKeyShare_obeys quiet_background c epoch key roster m

theorem sendChainShare_quiet (c epoch m : ℕ) (chain : ChainState) :
    Obeys Quiet (sendChainShare C me c epoch m chain) :=
  sendChainShare_obeys quiet_background fun _ _ _ _ _ _ _ => ⟨rfl, rfl⟩

theorem broadcast_of_open (hopen : s.closed = false) {buf : Buffer}
    (h : (broadcast buf s).result.isSome) :
    ∃ via, Output.broadcast buf via ∈ (broadcast buf s).output := by
  rw [broadcast, get_bind, if_neg (by rw [hopen]; decide)] at h ⊢
  split at h
  · rename_i htcp
    rw [if_pos htcp]
    cases hout : (Buffer.alloc (2 + buf.length)).writeUInt16BE buf.length 0 with
    | none =>
      rw [hout] at h
      cases h
    | some out => exact ⟨_, List.mem_singleton.mpr rfl⟩
  · rename_i htcp
    rw [if_neg htcp]
    exact ⟨_, List.mem_singleton.mpr rfl⟩

theorem sendKeyShare_shared (hopen : s.closed = false)
    (h : (sendKeyShare C me c epoch key roster m s).result.isSome) :
    ∃ pub, roster.get m = some pub ∧
      KeyShared C me (sendKeyShare C me c epoch key roster m s).output c epoch key m pub := by
  unfold sendKeyShare at h ⊢
  obtain ⟨pub, hpub, hrun⟩ := ofOption_bind_of_isSome h
  rw [hrun] at h ⊢
  obtain ⟨transportKey, htransport, hrun⟩ := ofOption_bind_of_isSome h
  rw [hrun, randomBytes_bind] at h ⊢
  obtain ⟨buf, hbuf, hrun⟩ := ofOption_bind_of_isSome h
  rw [hrun] at h ⊢
  obtain ⟨via, hvia⟩ := broadcast_of_open (by exact hopen) h
  exact ⟨pub, hpub, transportKey, s.draws, buf, via, htransport, hbuf, hvia⟩

theorem sendChainShare_shared (hopen : s.closed = false) (hpub : get₂ s.roster c m = some pub)
    (h : (sendChainShare C me c epoch m chain s).result.isSome) :
    ChainShared C me (sendChainShare C me c epoch m chain s).output c epoch chain m pub := by
  unfold sendChainShare at h ⊢
  rw [get_bind, hpub] at h ⊢
  simp only at h ⊢
  obtain ⟨transportKey, htransport, hrun⟩ := ofOption_bind_of_isSome h
  rw [hrun, randomBytes_bind] at h ⊢
  obtain ⟨buf, hbuf, hrun⟩ := ofOption_bind_of_isSome h
  rw [hrun, emit_bind] at h ⊢
  obtain ⟨via, hvia⟩ := broadcast_of_open (by exact hopen) h
  exact ⟨transportKey, s.draws, buf, via, htransport, hbuf, List.mem_cons_of_mem _ hvia⟩

/-! ### What sharing does -/

/-- The members marked for a conversation. -/
def marked (f : NumMap (Finset ℕ)) (c : ℕ) : Finset ℕ := (f.get c).getD ∅

theorem marked_set (f : NumMap (Finset ℕ)) (c c' : ℕ) (done : Finset ℕ) :
    marked (f.set c done) c' = if c = c' then done else marked f c' := by
  rw [marked, get_set]
  split <;> rfl

theorem forEach_sendKeyShare (hopen : s.closed = false)
    (h : (forEach (sendKeyShare C me c epoch key roster) targets s).result.isSome) :
    ∀ m ∈ targets, ∃ pub, roster.get m = some pub ∧ KeyShared C me
      (forEach (sendKeyShare C me c epoch key roster) targets s).output c epoch key m pub := by
  refine mem_forEach_output (I := fun t => t.closed = false)
    (P := fun m os => ∃ pub, roster.get m = some pub ∧ KeyShared C me os c epoch key m pub)
    ?_ ?_ ?_ hopen h
  · intro m _ t ht
    have hcore := (@sendKeyShare_quiet C me c epoch key roster m t).1
    exact (congrArg (fun c => c.closed) hcore).trans ht
  · exact fun m _ t ht hdone => sendKeyShare_shared ht hdone
  · rintro m os os' os'' ⟨pub, hpub, hshared⟩
    exact ⟨pub, hpub, hshared.mono fun o ho => by simp [ho]⟩

theorem forEach_sendChainShare (hopen : s.closed = false)
    (htargets : ∀ m ∈ targets, ∃ pub, get₂ s.roster c m = some pub)
    (h : (forEach (fun m => sendChainShare C me c epoch m chain) targets s).result.isSome) :
    ∀ m ∈ targets, ∃ pub, get₂ s.roster c m = some pub ∧ ChainShared C me
      (forEach (fun m => sendChainShare C me c epoch m chain) targets s).output
        c epoch chain m pub := by
  refine mem_forEach_output (I := fun t => t.closed = false ∧ t.roster = s.roster)
    (P := fun m os => ∃ pub, get₂ s.roster c m = some pub ∧ ChainShared C me os c epoch chain m pub)
    ?_ ?_ ?_ ⟨hopen, rfl⟩ h
  · intro m _ t ht
    have hcore := (@sendChainShare_quiet C me c epoch m chain t).1
    exact ⟨(congrArg (fun c => c.closed) hcore).trans ht.1,
      (congrArg (fun c => c.roster) hcore).trans ht.2⟩
  · intro m hm t ht hdone
    obtain ⟨pub, hpub⟩ := htargets m hm
    exact ⟨pub, hpub, sendChainShare_shared ht.1 (by rw [ht.2]; exact hpub) hdone⟩
  · rintro m os os' os'' ⟨pub, hpub, hshared⟩
    exact ⟨pub, hpub, hshared.mono fun o ho => by simp [ho]⟩

/-- Send to every target and schedule the retries, or do nothing when there is no target. -/
theorem sendAll_run {f : ℕ → ClientProg Unit} {retries : List ShareRetry} {prog : ClientProg Unit}
    (hf : ∀ m, Obeys Quiet (f m)) (h : (prog s).result.isSome)
    (hprog : prog = if targets = [] then pure () else do
      forEach f targets
      Prog.modify fun s => { s with shareTimers := s.shareTimers ++ retries }) :
    ∃ timers, (forEach f targets s).result.isSome ∧
      (prog s).output = (forEach f targets s).output ∧
      Quiet { s with shareTimers := timers } (forEach f targets s).output (prog s).state := by
  have hquiet : Quiet s (forEach f targets s).output (forEach f targets s).state :=
    Obeys.forEach quiet_background.comp (fun m _ => hf m) s
  subst hprog
  by_cases hnil : targets = []
  · rw [if_pos hnil]
    subst hnil
    exact ⟨s.shareTimers, rfl, rfl, rfl, rfl⟩
  · rw [if_neg hnil] at h ⊢
    obtain ⟨_, hres, hrun, -⟩ := bind_of_isSome h
    rw [hrun, hres]
    refine ⟨(forEach f targets s).state.shareTimers ++ retries, rfl, by simp, ?_, hquiet.2⟩
    -- the loop leaves the core alone, the last step adds the retries
    show { (forEach f targets s).state.core with
      shareTimers := (forEach f targets s).state.shareTimers ++ retries } = _
    rw [hquiet.1]
    rfl

theorem mem_marked_set {f : NumMap (Finset ℕ)} {c' : ℕ} {targets : List ℕ}
    (h : m ∈ marked (f.set c (marked f c ∪ targets.toFinset)) c') :
    m ∈ marked f c' ∨ c = c' ∧ m ∈ targets := by
  rw [marked_set] at h
  split at h
  · rename_i hc
    subst hc
    rw [Finset.mem_union, List.mem_toFinset] at h
    exact h.imp_right fun hm => ⟨rfl, hm⟩
  · exact .inl h

/-- **Sharing the group key**, when it goes through: nothing but the marks and the retries of the
conversation changes, and every member marked anew was given the current key. -/
theorem shareWithNewMembers_spec (hopen : s.closed = false)
    (h : (shareWithNewMembers C me c s).result.isSome) :
    ∃ done timers, Quiet { s with sharedWith := done, shareTimers := timers }
        (shareWithNewMembers C me c s).output (shareWithNewMembers C me c s).state ∧
      ∀ c', ∀ m ∈ marked done c', m ∈ marked s.sharedWith c' ∨
        ∃ pub key, get₂ s.roster c' m = some pub ∧ s.getCurrentKey c' = some key ∧
          KeyShared C me (shareWithNewMembers C me c s).output c' (s.sendingEpoch c') key m pub := by
  unfold shareWithNewMembers at h ⊢
  rw [get_bind] at h ⊢
  cases hkey : s.getCurrentKey c with
  | none => exact ⟨s.sharedWith, s.shareTimers, ⟨rfl, rfl⟩, fun _ _ hm => .inl hm⟩
  | some key =>
    simp only [hkey] at h ⊢
    cases hroster : s.roster.get c with
    | none => exact ⟨s.sharedWith, s.shareTimers, ⟨rfl, rfl⟩, fun _ _ hm => .inl hm⟩
    | some roster =>
      simp only [hroster] at h ⊢
      rw [modify_bind] at h ⊢
      obtain ⟨timers, hdone, hout, hquiet⟩ := sendAll_run (sendKeyShare_quiet c _ key roster) h rfl
      refine ⟨_, timers, hout ▸ hquiet, fun c' m hm => (mem_marked_set hm).imp_right ?_⟩
      rintro ⟨rfl, hnew⟩
      obtain ⟨pub, hpub, hshared⟩ := forEach_sendKeyShare (by exact hopen) hdone m hnew
      rw [hout]
      exact ⟨pub, key, by rw [get₂, hroster]; exact hpub, hkey, hshared⟩

/-- **Sharing the own chain**, when it goes through. -/
theorem shareChainWithMembers_spec (hopen : s.closed = false) (hepoch : s.sendingEpoch c = epoch)
    (h : (shareChainWithMembers C me c epoch s).result.isSome) :
    ∃ done timers, Quiet { s with chainSharedWith := done, shareTimers := timers }
        (shareChainWithMembers C me c epoch s).output (shareChainWithMembers C me c epoch s).state ∧
      ∀ c', ∀ m ∈ marked done c', m ∈ marked s.chainSharedWith c' ∨
        ∃ pub chain, get₂ s.roster c' m = some pub ∧
          s.getChain c' (s.sendingEpoch c') me.senderId = some chain ∧
          ChainShared C me (shareChainWithMembers C me c epoch s).output c' (s.sendingEpoch c') chain
            m pub := by
  unfold shareChainWithMembers at h ⊢
  rw [get_bind] at h ⊢
  cases hchain : s.getChain c epoch me.senderId with
  | none => exact ⟨s.chainSharedWith, s.shareTimers, ⟨rfl, rfl⟩, fun _ _ hm => .inl hm⟩
  | some chain =>
    cases hroster : s.roster.get c with
    | none => exact ⟨s.chainSharedWith, s.shareTimers, ⟨rfl, rfl⟩, fun _ _ hm => .inl hm⟩
    | some roster =>
      simp only [hchain, hroster] at h ⊢
      rw [modify_bind] at h ⊢
      obtain ⟨timers, hdone, hout, hquiet⟩ :=
        sendAll_run (fun m => sendChainShare_quiet c epoch m chain) h rfl
      refine ⟨_, timers, hout ▸ hquiet, fun c' m hm => (mem_marked_set hm).imp_right ?_⟩
      rintro ⟨rfl, hnew⟩
      have hlisted : ∀ m ∈ shareTargets me roster ((s.chainSharedWith.get c).getD ∅),
          ∃ pub, get₂ s.roster c m = some pub := by
        intro m hm
        rw [get₂, hroster]
        exact (mem_shareTargets hm).imp fun _ h => h.1
      obtain ⟨pub, hpub, hshared⟩ :=
        forEach_sendChainShare (by exact hopen) (by exact hlisted) hdone m hnew
      rw [hout, hepoch]
      exact ⟨pub, chain, hpub, hchain, hshared⟩

/-! ### Honest marks -/

/-- The state lies on the chain that was started last for the conversation and epoch. -/
def OnLatest (C : Crypto) (os : List Output) (c epoch : ℕ) (st : ChainState) : Prop :=
  ∃ start ∈ latestStart os c epoch, st.key = chainSteps C st.index start.2

instance (os : List Output) (c epoch : ℕ) (st : ChainState) : Decidable (OnLatest C os c epoch st) := by
  unfold OnLatest
  infer_instance

theorem OnLatest.append (h : OnLatest C os c epoch st) (hnone : chainStarts os' = []) :
    OnLatest C (os ++ os') c epoch st := by
  obtain ⟨start, hstart, hkey⟩ := h
  refine ⟨start, ?_, hkey⟩
  rw [latestStart_append hnone]
  exact hstart

/-- A chain that is started for another conversation does not matter. -/
theorem OnLatest.started
    (h : OnLatest C os c epoch st) {c' : ℕ} (hc : c' ≠ c) (epoch' : ℕ) (seed : Buffer) :
    OnLatest C (os ++ [.chainStarted c' epoch' seed]) c epoch st := by
  obtain ⟨start, hstart, hkey⟩ := h
  refine ⟨start, ?_, hkey⟩
  rw [latestStart_started, if_neg fun hcc => hc hcc.1]
  exact hstart

theorem OnLatest.advance (h : OnLatest C os c epoch st) {t : ℕ} (ht : st.index ≤ t) :
    OnLatest C os c epoch (advanceChain C st t).2 := by
  obtain ⟨start, hstart, hkey⟩ := h
  refine ⟨start, hstart, ?_⟩
  rw [advanceChain_of_le C ht]
  show chainSteps C (t - st.index + 1) st.key = chainSteps C (t + 1) start.2
  rw [hkey, ← chainSteps_add]
  congr 1
  omega

/-- **Every mark stands for a share** of the present key, or of the present chain, for the public key
`lk c m` that the member had when it was last listed.  While a key is being replaced, the chain of its
conversation is `skip`ped. -/
structure Honest (C : Crypto) (me : Identity) (lk : ℕ → ℕ → Option Buffer) (skip : Option ℕ)
    (os : List Output) (s : Client) : Prop where
  known : ∀ c m pub, get₂ s.roster c m = some pub → lk c m = some pub
  keys : ∀ c, ∀ m ∈ marked s.sharedWith c, ∃ pub key, lk c m = some pub ∧
    s.getCurrentKey c = some key ∧ KeyShared C me os c (s.sendingEpoch c) key m pub
  own : ∀ c, skip ≠ some c → ∀ st, s.getChain c (s.sendingEpoch c) me.senderId = some st →
    OnLatest C os c (s.sendingEpoch c) st
  chains : ∀ c, skip ≠ some c → ∀ m ∈ marked s.chainSharedWith c, ∃ pub st, lk c m = some pub ∧
    (s.getChain c (s.sendingEpoch c) me.senderId).isSome ∧ OnLatest C os c (s.sendingEpoch c) st ∧
    ChainShared C me os c (s.sendingEpoch c) st m pub

/-- The fields the marks depend on, except the chains. -/
def Client.shareView (s : Client) :
    NumMap (NumMap Buffer) × NumMap (Finset ℕ) × NumMap (Finset ℕ) × NumMap (NumMap Buffer) × NumMap ℕ :=
  (s.roster, s.sharedWith, s.chainSharedWith, s.roomKeys, s.currentEpochs)

namespace Honest

variable {lk : ℕ → ℕ → Option Buffer} {skip : Option ℕ} {os os' : List Output} {s t : Client}

theorem init : Honest C me (fun _ _ => none) none [] {} := by
  constructor
  · intro c m pub h
    cases h
  · intro c m hm
    cases hm
  · intro c _ st h
    cases h
  · intro c _ m hm
    cases hm

/-- Marks, rosters and keys stay, no chain is started, and own chains stay on their chains. -/
theorem of_view (h : Honest C me lk skip os s) (hview : t.shareView = s.shareView)
    (hnone : chainStarts os' = [])
    (hown : ∀ c, skip ≠ some c → ∀ st,
      t.getChain c (s.sendingEpoch c) me.senderId = some st → OnLatest C os c (s.sendingEpoch c) st)
    (hsome : ∀ c, (s.getChain c (s.sendingEpoch c) me.senderId).isSome →
      (t.getChain c (s.sendingEpoch c) me.senderId).isSome) :
    Honest C me lk skip (os ++ os') t := by
  have hroster : t.roster = s.roster := congrArg (fun v => v.1) hview
  have hshared : t.sharedWith = s.sharedWith := congrArg (fun v => v.2.1) hview
  have hchain : t.chainSharedWith = s.chainSharedWith := congrArg (fun v => v.2.2.1) hview
  have hkeys : t.roomKeys = s.roomKeys := congrArg (fun v => v.2.2.2.1) hview
  have hepochs : t.currentEpochs = s.currentEpochs := congrArg (fun v => v.2.2.2.2) hview
  have hepoch : ∀ c, t.sendingEpoch c = s.sendingEpoch c := by
    intro c
    rw [Client.sendingEpoch, hepochs]
    rfl
  have hkey : ∀ c, t.getCurrentKey c = s.getCurrentKey c := by
    intro c
    rw [Client.getCurrentKey, hkeys, hepochs]
    rfl
  constructor
  · rw [hroster]
    exact h.known
  · intro c m hm
    rw [hshared] at hm
    obtain ⟨pub, key, hlk, hget, hsent⟩ := h.keys c m hm
    rw [hkey, hepoch]
    exact ⟨pub, key, hlk, hget, hsent.mono (List.subset_append_left _ _)⟩
  · intro c hskip st hst
    rw [hepoch] at hst ⊢
    exact (hown c hskip st hst).append hnone
  · intro c hskip m hm
    rw [hchain] at hm
    obtain ⟨pub, st, hlk, hget, hon, hsent⟩ := h.chains c hskip m hm
    rw [hepoch]
    exact ⟨pub, st, hlk, hsome c hget, hon.append hnone, hsent.mono (List.subset_append_left _ _)⟩

theorem of_fields (h : Honest C me lk skip os s) (hview : t.shareView = s.shareView)
    (hchains : t.senderChains = s.senderChains) (hnone : chainStarts os' = []) :
    Honest C me lk skip (os ++ os') t := by
  have hget : ∀ c e, t.getChain c e me.senderId = s.getChain c e me.senderId := by
    intro c e
    rw [Client.getChain, hchains]
    rfl
  refine h.of_view hview hnone ?_ ?_
  · intro c hskip st hst
    rw [hget] at hst
    exact h.own c hskip st hst
  · intro c hc
    rw [hget]
    exact hc

theorem of_core (h : Honest C me lk skip os s) (hcore : t.core = s.core)
    (hnone : chainStarts os' = []) : Honest C me lk skip (os ++ os') t :=
  h.of_fields (congrArg (fun c => c.shareView) hcore) (congrArg (fun c => c.senderChains) hcore) hnone

/-- A chain of another member or epoch is replaced, or the own one by a state of its chain. -/
theorem setChain (h : Honest C me lk skip os s) {c epoch m : ℕ} {st : ChainState}
    (hst : m = me.senderId → epoch = s.sendingEpoch c → skip ≠ some c → OnLatest C os c epoch st) :
    Honest C me lk skip os (s.setChain c epoch m st) := by
  rw [← List.append_nil os]
  refine h.of_view rfl rfl ?_ ?_
  · intro c' hskip st' hget
    rw [Client.getChain_setChain] at hget
    split at hget
    · rename_i hsame
      obtain ⟨rfl, rfl, hm⟩ := hsame
      cases hget
      exact hst hm rfl hskip
    · exact h.own c' hskip st' hget
  · intro c' hsome
    rw [Client.getChain_setChain]
    split
    · rfl
    · exact hsome

theorem advance (h : Honest C me lk skip os s) {c epoch m idx : ℕ} {chain : ChainState}
    (hget : s.getChain c epoch m = some chain) (hle : chain.index ≤ idx) :
    Honest C me lk skip os (s.setChain c epoch m (advanceChain C chain idx).2) := by
  apply h.setChain
  rintro rfl rfl hskip
  exact (h.own c hskip chain hget).advance hle

/-! Replacing the key and the chain of a conversation. -/

/-- A new key takes all marks away, and its chain is yet to come. -/
theorem installKey (h : Honest C me lk none os s) (c epoch : ℕ) (key : Buffer) :
    Honest C me lk (some c) os (DartProtocol.installKey c epoch key s) := by
  have hepoch : ∀ c', c ≠ c' →
      (DartProtocol.installKey c epoch key s).sendingEpoch c' = s.sendingEpoch c' := by
    intro c' hc
    show orDefault ((s.currentEpochs.set c epoch).get c') 1 = _
    rw [get_set_of_ne _ _ hc]
    rfl
  have hkey : ∀ c', c ≠ c' →
      (DartProtocol.installKey c epoch key s).getCurrentKey c' = s.getCurrentKey c' := by
    intro c' hc
    show get₂ (set₂ s.roomKeys c epoch key) c'
      (orDefault ((s.currentEpochs.set c epoch).get c') 1) = _
    rw [get₂_set₂, if_neg fun hcc => hc hcc.1, get_set_of_ne _ _ hc]
    rfl
  constructor
  · exact h.known
  · intro c' m hm
    have hm' : m ∈ marked (s.sharedWith.set c ∅) c' := hm
    rw [marked_set] at hm'
    split at hm'
    · cases hm'
    · rename_i hc
      rw [hkey c' hc, hepoch c' hc]
      exact h.keys c' m hm'
  · intro c' hskip st hst
    have hc : c ≠ c' := fun hc => hskip (by rw [hc])
    rw [hepoch c' hc] at hst ⊢
    exact h.own c' (by simp) st hst
  · intro c' hskip m hm
    have hc : c ≠ c' := fun hc => hskip (by rw [hc])
    rw [hepoch c' hc]
    exact h.chains c' (by simp) m hm

/-- A new chain for the current epoch takes all of its marks away. -/
theorem startChain {c epoch : ℕ} (h : Honest C me lk (some c) os s) (hepoch : s.sendingEpoch c = epoch)
    (seed : Buffer) :
    Honest C me lk none (os ++ [.chainStarted c epoch seed])
      (DartProtocol.startChain me c epoch seed s) := by
  constructor
  · exact h.known
  · intro c' m hm
    obtain ⟨pub, key, hlk, hget, hsent⟩ := h.keys c' m hm
    exact ⟨pub, key, hlk, hget, hsent.mono (List.subset_append_left _ _)⟩
  · intro c' _ st hst
    have hst' : (s.setChain c epoch me.senderId ⟨seed, 0⟩).getChain c' (s.sendingEpoch c') me.senderId
        = some st := hst
    rw [Client.getChain_setChain] at hst'
    by_cases hc : c = c'
    · subst hc
      rw [if_pos ⟨rfl, hepoch.symm, rfl⟩] at hst'
      cases hst'
      refine ⟨((chainStarts os).length, seed), ?_, rfl⟩
      rw [latestStart_started, if_pos ⟨rfl, hepoch.symm⟩]
      rfl
    · rw [if_neg fun hcc => hc hcc.1] at hst'
      exact (h.own c' (by simpa using hc) st hst').started hc epoch seed
  · intro c' _ m hm
    have hm' : m ∈ marked (s.chainSharedWith.set c ∅) c' := hm
    rw [marked_set] at hm'
    split at hm'
    · cases hm'
    · rename_i hc
      obtain ⟨pub, st, hlk, hget, hon, hsent⟩ := h.chains c' (by simpa using hc) m hm'
      refine ⟨pub, st, hlk, ?_, hon.started hc epoch seed, hsent.mono (List.subset_append_left _ _)⟩
      show ((s.setChain c epoch me.senderId ⟨seed, 0⟩).getChain c' (s.sendingEpoch c')
        me.senderId).isSome
      rw [Client.getChain_setChain, if_neg fun hcc => hc hcc.1]
      exact hget

theorem pruneEpochs (h : Honest C me lk skip os s) (c : ℕ) :
    Honest C me lk skip os (DartProtocol.pruneEpochs c s) := by
  have hkey : ∀ c', (DartProtocol.pruneEpochs c s).getCurrentKey c' = s.getCurrentKey c' :=
    fun c' => getCurrentKey_pruneEpochs c c' s
  obtain ⟨keys, seeds, hprune⟩ := pruneEpochs_eq c s
  rw [hprune] at hkey ⊢
  refine ⟨h.known, fun c' m hm => ?_, h.own, h.chains⟩
  rw [hkey]
  exact h.keys c' m hm

theorem mark_keys (h : Honest C me lk skip os s) {done : NumMap (Finset ℕ)}
    (hdone : ∀ c, ∀ m ∈ marked done c, m ∈ marked s.sharedWith c ∨
      ∃ pub key, get₂ s.roster c m = some pub ∧ s.getCurrentKey c = some key ∧
        KeyShared C me os c (s.sendingEpoch c) key m pub) :
    Honest C me lk skip os { s with sharedWith := done } := by
  refine ⟨h.known, ?_, h.own, h.chains⟩
  intro c m hm
  rcases hdone c m hm with hold | ⟨pub, key, hpub, hkey, hsent⟩
  · exact h.keys c m hold
  · exact ⟨pub, key, h.known c m pub hpub, hkey, hsent⟩

/-- New marks, each for a share of the present state of the own chain. -/
theorem mark_chains (h : Honest C me lk none os s) {done : NumMap (Finset ℕ)}
    (hdone : ∀ c, ∀ m ∈ marked done c, m ∈ marked s.chainSharedWith c ∨
      ∃ pub chain, get₂ s.roster c m = some pub ∧
        s.getChain c (s.sendingEpoch c) me.senderId = some chain ∧
        ChainShared C me os c (s.sendingEpoch c) chain m pub) :
    Honest C me lk none os { s with chainSharedWith := done } := by
  refine ⟨h.known, h.keys, h.own, ?_⟩
  intro c hskip m hm
  rcases hdone c m hm with hold | ⟨pub, chain, hpub, hget, hsent⟩
  · exact h.chains c hskip m hold
  · have hsome : (s.getChain c (s.sendingEpoch c) me.senderId).isSome := by
      rw [hget]
      rfl
    exact ⟨pub, chain, h.known c m pub hpub, hsome, h.own c hskip chain hget, hsent⟩

end Honest

/-! ### A new roster -/

/-- The public key of each member where it was last listed, after a further roster. -/
def relisted (roster : NumMap (NumMap Buffer)) (lk : ℕ → ℕ → Option Buffer) (c m : ℕ) :
    Option Buffer := (get₂ roster c m).or (lk c m)

theorem Honest.relisted_eq {lk : ℕ → ℕ → Option Buffer} {skip : Option ℕ}
    (h : Honest C me lk skip os s) : relisted s.roster lk = lk := by
  funext c m
  rw [relisted]
  cases hget : get₂ s.roster c m with
  | none => rfl
  | some pub => rw [Option.some_or, h.known c m pub hget]

theorem marked_dropDone (f : NumMap (Finset ℕ)) (c c' : ℕ) (gone : Finset ℕ) :
    marked (dropDone f c gone) c' = if c = c' then marked f c' \ gone else marked f c' := by
  rw [dropDone]
  cases hget : f.get c with
  | none =>
    by_cases hc : c = c'
    · subst hc
      simp [marked, hget]
    · rw [if_neg hc]
  | some done =>
    simp only
    rw [marked_set]
    split
    · rename_i hc
      subst hc
      rw [marked, hget]
      rfl
    · rfl

/-- A member of both rosters that does not count as changed has the same key. -/
theorem same_of_not_mem_changedMembers {prevRoster rosterMap : NumMap Buffer}
    {prev : Buffer} (hprev : prevRoster.get m = some prev) (hpub : rosterMap.get m = some pub)
    (h : m ∉ changedMembers prevRoster rosterMap) : pub = prev := by
  by_contra hne
  apply h
  rw [changedMembers, List.mem_toFinset, List.mem_map]
  refine ⟨(m, pub), List.mem_filter.mpr ⟨mem_entries_iff_get.mpr hpub, ?_⟩, rfl⟩
  simp only [hprev]
  exact decide_eq_true fun heq => hne heq.symm

/-- **A new roster keeps marks honest** when members that return while they are still marked have the
key they left with. -/
theorem Honest.installRoster {lk : ℕ → ℕ → Option Buffer}
    (h : Honest C me lk none os s) {info : MemberInfo} (serverPubKey : Buffer)
    (hreturn : ∀ m pub, (rosterOf info).get m = some pub → get₂ s.roster info.convId m = none →
      m ∈ marked s.sharedWith info.convId ∨ m ∈ marked s.chainSharedWith info.convId →
      lk info.convId m = some pub) :
    Honest C me (relisted (DartProtocol.installRoster info serverPubKey s).roster lk) none os
      (DartProtocol.installRoster info serverPubKey s) := by
  obtain ⟨gone, hkeys, hchains, hgone⟩ : ∃ gone,
      (DartProtocol.installRoster info serverPubKey s).sharedWith
        = dropDone s.sharedWith info.convId gone ∧
      (DartProtocol.installRoster info serverPubKey s).chainSharedWith
        = dropDone s.chainSharedWith info.convId gone ∧
      ∀ prevRoster, s.roster.get info.convId = some prevRoster →
        gone = changedMembers prevRoster (rosterOf info) := by
    refine ⟨_, rfl, rfl, fun prevRoster hprev => ?_⟩
    rw [hprev]
  have hroster : ∀ c m, get₂ (DartProtocol.installRoster info serverPubKey s).roster c m
      = if info.convId = c then (rosterOf info).get m else get₂ s.roster c m := by
    intro c m
    show get₂ (s.roster.set info.convId (rosterOf info)) c m = _
    rw [get₂, get_set]
    split <;> rfl
  -- a mark that stays is for the key the member is listed with now, if it is listed
  have hstays : ∀ c m pub, (info.convId = c → m ∉ gone) →
      m ∈ marked s.sharedWith c ∨ m ∈ marked s.chainSharedWith c → lk c m = some pub →
      relisted (DartProtocol.installRoster info serverPubKey s).roster lk c m = some pub := by
    intro c m pub hnot hmarked hlk
    rw [relisted, hroster]
    by_cases hc : info.convId = c
    · subst hc
      rw [if_pos rfl]
      cases hpub : (rosterOf info).get m with
      | none => exact hlk
      | some pub' =>
        rw [Option.some_or]
        cases hprev : get₂ s.roster info.convId m with
        | none => rw [← hreturn m pub' hpub hprev hmarked, hlk]
        | some prev =>
          have hsame : pub' = prev := by
            rw [get₂] at hprev
            cases hold : s.roster.get info.convId with
            | none =>
              rw [hold] at hprev
              cases hprev
            | some prevRoster =>
              rw [hold, Option.bind_some] at hprev
              refine same_of_not_mem_changedMembers hprev hpub ?_
              rw [← hgone prevRoster hold]
              exact hnot rfl
          rw [hsame, ← hlk, h.known _ m prev hprev]
    · rw [if_neg hc]
      cases hpub : get₂ s.roster c m with
      | none => exact hlk
      | some pub' => rw [Option.some_or, ← hlk, h.known c m pub' hpub]
  have hmarked : ∀ (f : NumMap (Finset ℕ)) (c m : ℕ), m ∈ marked (dropDone f info.convId gone) c →
      m ∈ marked f c ∧ (info.convId = c → m ∉ gone) := by
    intro f c m hm
    rw [marked_dropDone] at hm
    split at hm
    · exact ⟨(Finset.mem_sdiff.mp hm).1, fun _ => (Finset.mem_sdiff.mp hm).2⟩
    · rename_i hc
      exact ⟨hm, fun hcc => absurd hcc hc⟩
  constructor
  · intro c m pub hpub
    rw [relisted, hpub, Option.some_or]
  · intro c m hm
    rw [hkeys] at hm
    obtain ⟨hold, hnot⟩ := hmarked _ c m hm
    obtain ⟨pub, key, hlk, hkey, hsent⟩ := h.keys c m hold
    exact ⟨pub, key, hstays c m pub hnot (.inl hold) hlk, hkey, hsent⟩
  · exact h.own
  · intro c hskip m hm
    rw [hchains] at hm
    obtain ⟨hold, hnot⟩ := hmarked _ c m hm
    obtain ⟨pub, st, hlk, hget, hon, hsent⟩ := h.chains c hskip m hold
    exact ⟨pub, st, hstays c m pub hnot (.inr hold) hlk, hget, hon, hsent⟩

/-! ### Programs that share -/

/-- A group key can be written into a share. -/
def KeyFits (s : Client) (c : ℕ) : Prop := ∀ key ∈ s.getCurrentKey c, key.length = 32

/-- The own chain of an epoch can be written into a share. -/
def ChainFits (me : Identity) (s : Client) (c epoch : ℕ) : Prop :=
  ∀ st ∈ s.getChain c epoch me.senderId, st.key.length = 32 ∧ st.index < 2 ^ 32

instance (s : Client) (c : ℕ) : Decidable (KeyFits s c) := by
  unfold KeyFits
  infer_instance

instance (s : Client) (c epoch : ℕ) : Decidable (ChainFits me s c epoch) := by
  unfold ChainFits
  infer_instance

/-- The client is open, has this roster, and its marks are honest. -/
structure Ready (C : Crypto) (me : Identity) (lk : ℕ → ℕ → Option Buffer)
    (roster : NumMap (NumMap Buffer)) (skip : Option ℕ) (os : List Output) (s : Client) : Prop where
  isOpen : s.closed = false
  roster_eq : s.roster = roster
  honest : Honest C me lk skip os s

/-- It also sends in this epoch, and everybody can be given its key and, unless that is yet to come,
its chain. -/
structure Tracked (C : Crypto) (me : Identity) (lk : ℕ → ℕ → Option Buffer)
    (roster : NumMap (NumMap Buffer)) (skip : Option ℕ) (c epoch : ℕ) (os : List Output)
    (s : Client) : Prop extends Ready C me lk roster skip os s where
  sending : s.sendingEpoch c = epoch
  served : CanServe C me c epoch ((roster.get c).getD ∅)
  key : KeyFits s c
  chain : skip ≠ some c → ChainFits me s c epoch

section Programs

variable {lk : ℕ → ℕ → Option Buffer} {roster : NumMap (NumMap Buffer)} {skip : Option ℕ}
  {c epoch : ℕ}

variable {os : List Output}

theorem Ready.of_core {s t : Client} (h : Ready C me lk roster skip os s) (hcore : t.core = s.core) :
    Ready C me lk roster skip os t := by
  have hhonest : Honest C me lk skip (os ++ []) t := h.honest.of_core hcore rfl
  rw [List.append_nil] at hhonest
  exact ⟨(congrArg (fun c => c.closed) hcore).trans h.isOpen,
    (congrArg (fun c => c.roster) hcore).trans h.roster_eq, hhonest⟩

theorem Tracked.of_core {s t : Client}
    (h : Tracked C me lk roster skip c epoch os s) (hcore : t.core = s.core) :
    Tracked C me lk roster skip c epoch os t := by
  refine ⟨h.toReady.of_core hcore, ?_, h.served, ?_, ?_⟩
  · exact (congrArg (fun u => u.sendingEpoch c) hcore).trans h.sending
  · have hkey : t.getCurrentKey c = s.getCurrentKey c := congrArg (fun u => u.getCurrentKey c) hcore
    rw [KeyFits, hkey]
    exact h.key
  · rw [ChainFits, Client.getChain_of_core hcore]
    exact h.chain

theorem Tracked.reaches {s : Client} (h : Tracked C me lk roster skip c epoch os s) :
    ∀ m pub, get₂ s.roster c m = some pub → m ≠ me.senderId → CanShare C me c epoch m pub := by
  intro m pub hpub hne
  rw [h.roster_eq] at hpub
  obtain ⟨members, hmembers, hget⟩ := Option.bind_eq_some_iff.mp hpub
  have hserved := h.served
  rw [hmembers] at hserved
  exact hserved.get hget hne

theorem scheduleRekey_ensures (c' : ℕ) :
    Ensures true (Tracked C me lk roster skip c epoch) (scheduleRekey c')
      (Tracked C me lk roster skip c epoch) :=
  Ensures.modify fun _ _ hs => hs.of_core rfl

section Deliver

variable (hC : C.Lawful) (hbody : LengthPreserving C) (hme : me.Lawful)
include hC hbody hme

theorem shareWithNewMembers_ensures :
    Ensures true (Tracked C me lk roster skip c epoch) (shareWithNewMembers C me c)
      (Tracked C me lk roster skip c epoch) := by
  intro os s hs _
  have hdone : (shareWithNewMembers C me c s).result.isSome := by
    cases hkey : s.getCurrentKey c with
    | none =>
      rw [shareWithNewMembers, get_bind, hkey]
      rfl
    | some key =>
      refine (shareWithNewMembers_returns_iff hC hbody hme hkey (hs.key key hkey)).mpr ?_
      rw [hs.sending]
      exact fun m pub hpub hne _ => hs.reaches m pub hpub hne
  refine ⟨hdone, ?_⟩
  obtain ⟨done, timers, hquiet, hnew⟩ := shareWithNewMembers_spec hs.isOpen hdone
  have hbase : Honest C me lk skip (os ++ (shareWithNewMembers C me c s).output)
      { s with shareTimers := timers } := hs.honest.of_fields rfl rfl hquiet.2
  have hmarked : Tracked C me lk roster skip c epoch (os ++ (shareWithNewMembers C me c s).output)
      { s with sharedWith := done, shareTimers := timers } := by
    refine { hs with honest := hbase.mark_keys fun c' m hm => (hnew c' m hm).imp_right ?_ }
    rintro ⟨pub, key, hpub, hkey, hsent⟩
    exact ⟨pub, key, hpub, hkey, hsent.mono (List.subset_append_right _ _)⟩
  exact hmarked.of_core hquiet.1

theorem shareChainWithMembers_ensures :
    Ensures true (Tracked C me lk roster none c epoch) (shareChainWithMembers C me c epoch)
      (Tracked C me lk roster none c epoch) := by
  intro os s hs _
  have hdone : (shareChainWithMembers C me c epoch s).result.isSome :=
    shareChainWithMembers_returns hC hbody hme (hs.chain (by simp)) hs.reaches
  refine ⟨hdone, ?_⟩
  obtain ⟨done, timers, hquiet, hnew⟩ := shareChainWithMembers_spec hs.isOpen hs.sending hdone
  have hbase : Honest C me lk none (os ++ (shareChainWithMembers C me c epoch s).output)
      { s with shareTimers := timers } := hs.honest.of_fields rfl rfl hquiet.2
  have hmarked : Tracked C me lk roster none c epoch
      (os ++ (shareChainWithMembers C me c epoch s).output)
      { s with chainSharedWith := done, shareTimers := timers } := by
    refine { hs with honest := hbase.mark_chains fun c' m hm => (hnew c' m hm).imp_right ?_ }
    rintro ⟨pub, chain, hpub, hget, hsent⟩
    exact ⟨pub, chain, hpub, hget, hsent.mono (List.subset_append_right _ _)⟩
  exact hmarked.of_core hquiet.1

theorem initOwnChain_ensures :
    Ensures true (Tracked C me lk roster (some c) c epoch) (initOwnChain C me c epoch)
      (Tracked C me lk roster none c epoch) := by
  unfold initOwnChain
  intro os s hs _
  refine Ensures.modify_emit_bind (P := fun os t => Tracked C me lk roster (some c) c epoch os t)
    ?_ (shareChainWithMembers_ensures hC hbody hme) os { s with draws := s.draws + 1 }
    (hs.of_core rfl) (by simp)
  intro os s hs
  refine ⟨⟨hs.isOpen, hs.roster_eq, hs.honest.startChain hs.sending _⟩, hs.sending, hs.served, hs.key,
    fun _ st hst => ?_⟩
  have hst : (s.setChain c epoch me.senderId ⟨me.random _ 32, 0⟩).getChain c epoch me.senderId
    = some st := hst
  rw [Client.getChain_setChain_self] at hst
  cases hst
  exact ⟨hme _ _, Nat.two_pow_pos 32⟩

theorem announceKey_ensures :
    Ensures true (Tracked C me lk roster (some c) c epoch) (announceKey C me c epoch)
      (Tracked C me lk roster none c epoch) := by
  unfold announceKey
  refine .bind (shareWithNewMembers_ensures hC hbody hme) fun _ => ?_
  exact .bind (initOwnChain_ensures hC hbody hme) fun _ => scheduleRekey_ensures c

/-- **Adopting a key** that everybody can be given leaves honest marks. -/
theorem adoptKey_ensures (hne : epoch ≠ 0) {key : Buffer} (hlen : key.length = 32)
    (hserved : CanServe C me c epoch ((roster.get c).getD ∅)) :
    Ensures true (Ready C me lk roster none) (adoptKey C me c epoch key)
      (Tracked C me lk roster none c epoch) := by
  unfold adoptKey
  refine .bind (.modify fun os s hs => ?_) fun _ => announceKey_ensures hC hbody hme
  have hcurrent : (installKey c epoch key s).currentEpochs.get c = some epoch := get_set_self ..
  refine ⟨⟨hs.isOpen, hs.roster_eq, hs.honest.installKey c epoch key⟩, ?_, hserved,
    fun key' hkey' => ?_, fun h => absurd rfl h⟩
  · rw [Client.sendingEpoch, hcurrent, orDefault_some_pos 1 hne]
  · have hkey' : (installKey c epoch key s).getCurrentKey c = some key' := hkey'
    rw [Client.getCurrentKey, hcurrent, orDefault_some_pos 1 hne] at hkey'
    have hkey' : get₂ (set₂ s.roomKeys c epoch key) c epoch = some key' := hkey'
    rw [get₂_set₂, if_pos ⟨rfl, rfl⟩] at hkey'
    cases hkey'
    exact hlen

/-- **A rotation**, when the creator can give everybody the next key. -/
theorem rekey_ensures {P Q : List Output → Client → Prop}
    (hready : ∀ os s, P os s → Ready C me lk roster none os s)
    (hnext : ∀ os s, P os s → s.isCreator.get c = some true →
      CanServe C me c (s.sendingEpoch c + 1) ((roster.get c).getD ∅))
    (hidle : ∀ os s, P os s → Q os s)
    (hdone : ∀ os s epoch, Tracked C me lk roster none c epoch os s → Q os s) :
    Ensures true P (rekey C me c) Q := by
  unfold rekey
  refine .get_bind fun s₀ => ?_
  rintro os s ⟨hs, rfl⟩
  by_cases hcreator : s.isCreator.get c = some true
  · rw [if_pos hcreator]
    refine Ensures.bind (adoptKey_ensures hC hbody hme (Nat.succ_ne_zero _) (hme s.draws 32)
      (hnext os s hs hcreator)) (fun _ => Ensures.modify fun os u hu => ?_) os
      { s with draws := s.draws + 1 } ((hready os s hs).of_core rfl)
    have hhonest := hu.honest.pruneEpochs c
    have hkey := getCurrentKey_pruneEpochs c c u
    obtain ⟨keys, seeds, hprune⟩ := pruneEpochs_eq c u
    rw [hprune] at hhonest hkey ⊢
    refine hdone _ _ _ ⟨⟨hu.isOpen, hu.roster_eq, hhonest⟩, hu.sending, hu.served, ?_, hu.chain⟩
    rw [KeyFits, hkey]
    exact hu.key
  · rw [if_neg hcreator]
    exact Ensures.pure _ os s (hidle os s hs)

end Deliver

end Programs

/-! ### Handlers that share -/

/-- **What a share asks of the client.**  A group key that is adopted has a positive epoch and 32
bytes, and everybody in the roster can be given it. -/
def AdoptsServed (C : Crypto) (me : Identity) (s : Client) (buf : Buffer) : Prop :=
  ∀ opened ∈ (shareTransportKey C me s buf).join,
    ∀ share ∈ Codec.decodeKeyShare C buf opened.2, shouldAdopt s opened.1 share.1 share.2 = true →
      share.1 ≠ 0 ∧ share.2.length = 32 ∧
        CanServe C me opened.1 share.1 ((s.roster.get opened.1).getD ∅)

/-- **What a roster asks of the client.**  Everybody in it can be given the current key and the own
chain; a creator that founds the group, or rotates because it was just elected, can give everybody the
new key. -/
@[mk_iff] structure RosterServed (C : Crypto) (me : Identity) (s : Client) (info : MemberInfo)
    (prevCreator : Bool) : Prop where
  current : CanServe C me info.convId (s.sendingEpoch info.convId) (rosterOf info)
  key : KeyFits s info.convId
  chain : ChainFits me s info.convId (s.sendingEpoch info.convId)
  founds : info.creator = true → orDefault (s.adoptedEpochs.get info.convId) 0 = 0 →
    CanServe C me info.convId 1 (rosterOf info)
  elected : info.creator = true → prevCreator = false →
    orDefault (s.adoptedEpochs.get info.convId) 0 ≠ 0 →
    CanServe C me info.convId (s.sendingEpoch info.convId + 1) (rosterOf info)

instance (s : Client) (buf : Buffer) : Decidable (AdoptsServed C me s buf) := by
  unfold AdoptsServed
  infer_instance

instance (s : Client) (info : MemberInfo) (prevCreator : Bool) :
    Decidable (RosterServed C me s info prevCreator) :=
  decidable_of_iff _ (rosterServed_iff C me s info prevCreator).symm

section Handlers

variable {lk : ℕ → ℕ → Option Buffer} {roster : NumMap (NumMap Buffer)} {os : List Output}
  {s : Client} {buf : Buffer} {c epoch : ℕ}

/-- The client is tracked in some epoch. -/
def Settled (C : Crypto) (me : Identity) (lk : ℕ → ℕ → Option Buffer)
    (roster : NumMap (NumMap Buffer)) (c : ℕ) (os : List Output) (s : Client) : Prop :=
  ∃ epoch, Tracked C me lk roster none c epoch os s

theorem ensures_settled {α : Type} {m : ClientProg α} {P : List Output → Client → Prop}
    (h : Ensures true P m (Tracked C me lk roster none c epoch)) :
    Ensures true P m (Settled C me lk roster c) :=
  fun os s hs hdone => ⟨(h os s hs hdone).1, _, (h os s hs hdone).2⟩

variable (hC : C.Lawful) (hbody : LengthPreserving C) (hme : me.Lawful)
include hC hbody hme

theorem afterRoster_ensures {info : MemberInfo} {prevCreator : Bool}
    (hroster : roster.get info.convId = some (rosterOf info))
    (hserved : RosterServed C me s info prevCreator) (hs : Ready C me lk roster none os s) :
    (afterRoster C me info prevCreator s).result.isSome ∧
      Settled C me lk roster info.convId (os ++ (afterRoster C me info prevCreator s).output)
        (afterRoster C me info prevCreator s).state := by
  have hmembers : (roster.get info.convId).getD ∅ = rosterOf info := by
    rw [hroster, Option.getD_some]
  have hend : Ensures true (Settled C me lk roster info.convId) (do
      let t ← Prog.get
      shareChainWithMembers C me info.convId (t.sendingEpoch info.convId)
      scheduleRekey info.convId : ClientProg Unit) (Settled C me lk roster info.convId) := by
    refine .get_bind fun s₁ => ?_
    rintro os t ⟨⟨epoch', ht⟩, rfl⟩
    rw [ht.sending]
    exact ensures_settled (.bind (shareChainWithMembers_ensures hC hbody hme) fun _ =>
      scheduleRekey_ensures info.convId) os t ht
  have htracked : Tracked C me lk roster none info.convId (s.sendingEpoch info.convId) os s :=
    ⟨hs, rfl, by rw [hmembers]; exact hserved.current, hserved.key, fun _ => hserved.chain⟩
  rw [afterRoster, get_bind]
  simp only [foundOrShare, rotateIfElected]
  by_cases hzero : orDefault (s.adoptedEpochs.get info.convId) 0 = 0
  · -- without a key there is nothing to rotate
    simp only [hzero, ne_eq, not_true_eq_false, decide_false, Bool.and_false, Bool.false_eq_true,
      if_false, decide_true, Bool.and_true]
    cases hcreator : info.creator with
    | false => exact Ensures.bind (Ensures.pure _) (fun _ => hend) os s ⟨_, htracked⟩ (by simp)
    | true =>
      refine Ensures.bind (ensures_settled (adoptKey_ensures hC hbody hme Nat.one_ne_zero
        (hme s.draws 32) ?_)) (fun _ => hend) os { s with draws := s.draws + 1 } (hs.of_core rfl)
        (by simp)
      rw [hmembers]
      exact hserved.founds hcreator hzero
  · simp only [hzero, decide_false, Bool.and_false, Bool.false_eq_true, if_false, ne_eq,
      not_false_eq_true, if_true, decide_true, Bool.and_true]
    refine Ensures.bind (shareWithNewMembers_ensures hC hbody hme) (fun _ => ?_) os s htracked
      (by simp)
    refine Ensures.bind (Q := Settled C me lk roster info.convId) ?_ fun _ => hend
    refine .ite (fun helected => ?_) fun _ => ensures_settled (.pure _)
    rw [Bool.and_eq_true, Bool.not_eq_true'] at helected
    refine rekey_ensures hC hbody hme (fun _ _ ht => ht.toReady) ?_ (fun _ _ ht => ⟨_, ht⟩)
      fun _ _ _ ht => ⟨_, ht⟩
    intro os t ht _
    rw [ht.sending, hmembers]
    exact hserved.elected helected.1 helected.2 hzero

theorem handleKeyShare_honest (hopen : s.closed = false) (hs : Honest C me lk none os s)
    (hserved : AdoptsServed C me s buf) :
    Honest C me lk none (os ++ (handleKeyShare C me buf s).output)
      (handleKeyShare C me buf s).state := by
  have hsame : Honest C me lk none (os ++ []) s := by
    rw [List.append_nil]
    exact hs
  unfold handleKeyShare
  rw [get_bind]
  rcases hkey : shareTransportKey C me s buf with _ | _ | ⟨c, key⟩
  · exact hsame
  · exact hsame
  · rw [ofOption_some_bind]
    simp only
    cases hdec : Codec.decodeKeyShare C buf key with
    | none => exact hsame
    | some share =>
      obtain ⟨epoch, groupKey⟩ := share
      simp only
      by_cases hadopt : shouldAdopt s c epoch groupKey = true
      · rw [if_pos hadopt]
        obtain ⟨hne, hlen, hserve⟩ := hserved (c, key) (by rw [hkey]; rfl) (epoch, groupKey) hdec hadopt
        exact (adoptKey_ensures hC hbody hme hne hlen hserve os s ⟨hopen, rfl, hs⟩ (by simp)).2.honest
      · rw [if_neg hadopt]
        exact hsame

theorem handleMemberInfo_honest (hopen : s.closed = false) (hs : Honest C me lk none os s)
    (hserved : ∀ info serverPubKey, openMemberInfo C me s buf = some (some (info, serverPubKey)) →
      RosterServed C me s info ((s.isCreator.get info.convId).getD false))
    (hreturn : ∀ info serverPubKey, openMemberInfo C me s buf = some (some (info, serverPubKey)) →
      ∀ m pub, (rosterOf info).get m = some pub → get₂ s.roster info.convId m = none →
      m ∈ marked s.sharedWith info.convId ∨ m ∈ marked s.chainSharedWith info.convId →
      lk info.convId m = some pub) :
    Honest C me (relisted (handleMemberInfo C me buf s).state.roster lk) none
      (os ++ (handleMemberInfo C me buf s).output) (handleMemberInfo C me buf s).state := by
  have hsame : Honest C me (relisted s.roster lk) none (os ++ []) s := by
    rw [hs.relisted_eq, List.append_nil]
    exact hs
  unfold handleMemberInfo
  rw [get_bind]
  rcases hinfo : openMemberInfo C me s buf with _ | _ | ⟨info, serverPubKey⟩
  · exact hsame
  · exact hsame
  · rw [ofOption_some_bind]
    simp only
    rw [modify_bind]
    have hafter : RosterServed C me (installRoster info serverPubKey s) info
        ((s.isCreator.get info.convId).getD false) :=
      let h := hserved info serverPubKey hinfo
      ⟨h.current, h.key, h.chain, h.founds, h.elected⟩
    have hinstalled : Ready C me (relisted (installRoster info serverPubKey s).roster lk)
        (installRoster info serverPubKey s).roster none os (installRoster info serverPubKey s) :=
      ⟨hopen, rfl, hs.installRoster serverPubKey (hreturn info serverPubKey hinfo)⟩
    obtain ⟨-, epoch, hfinal⟩ := afterRoster_ensures hC hbody hme (get_set_self ..) hafter hinstalled
    rw [hfinal.roster_eq]
    exact hfinal.honest

end Handlers

/-! ### All other events -/

/-- Honest marks stay honest. -/
def KeepsMarks (C : Crypto) (me : Identity) (lk : ℕ → ℕ → Option Buffer) :
    Client → List Output → Client → Prop :=
  fun s os t => ∀ hist, Honest C me lk none hist s → Honest C me lk none (hist ++ os) t

section Others

variable {lk : ℕ → ℕ → Option Buffer}

theorem KeepsMarks.of_fields {s t : Client} {os : List Output} (hview : t.shareView = s.shareView)
    (hchains : t.senderChains = s.senderChains) (hnone : chainStarts os = []) :
    KeepsMarks C me lk s os t := fun _ hs => hs.of_fields hview hchains hnone

theorem keepsMarks_background : Background (KeepsMarks C me lk) where
  comp := by
    constructor
    · exact fun s => KeepsMarks.of_fields rfl rfl rfl
    · intro s t u os os' h h' hist hs
      rw [← List.append_assoc]
      exact h' _ (h hist hs)
  bookkeeping := fun s t hcore hist hs => hs.of_core hcore rfl
  broadcast := fun s buf via => KeepsMarks.of_fields rfl rfl rfl

theorem KeepsMarks.of_rest {s t : Client} (h : t.rest = s.rest) : KeepsMarks C me lk s [] t :=
  KeepsMarks.of_fields (congrArg (·.shareView) h) (congrArg (·.senderChains) h) rfl

theorem keepsMarks_receive (senderId : ℕ) : ReceiveRules C (KeepsMarks C me lk) senderId := by
  refine .of_rest keepsMarks_background (fun _ _ => KeepsMarks.of_rest)
    (fun _ _ => KeepsMarks.of_fields rfl rfl rfl) (fun _ _ => KeepsMarks.of_fields rfl rfl rfl) ?_
  intro s buf dec s' hopen hist hs
  obtain ⟨convId, epoch, idx, chain, _, _, _, hget, hle, _, rfl⟩ := openData_eq hopen
  rw [List.append_nil]
  exact hs.advance hget hle

theorem keepsMarks_flow : FlowRules C (KeepsMarks C me lk) where
  toBackground := keepsMarks_background
  receive := keepsMarks_receive
  ensureReceived := fun s senderId => KeepsMarks.of_rest (ensureReceived_rest senderId s)
  retries := fun _ _ => KeepsMarks.of_fields rfl rfl rfl
  chainShared := fun _ _ => KeepsMarks.of_fields rfl rfl rfl
  encoded := fun _ _ => KeepsMarks.of_fields rfl rfl rfl

theorem keepsMarks_sendData (s : Client) (convId : ℕ) (payload : String) :
    ObeysAt (KeepsMarks C me lk) (sendData C me convId payload) s := by
  apply sendData_obeysAt keepsMarks_background
  · exact fun _ => KeepsMarks.of_fields rfl rfl rfl
  · intro chain hchain os t hrest hist hs
    have hadvanced := hs.advance hchain (le_refl chain.index)
    have hentered : Honest C me lk none (hist ++ [.sent (sentDart me convId payload s)])
        (enterSent C me convId payload chain s) := hadvanced.of_fields rfl rfl rfl
    have h := hrest _ hentered
    rw [List.append_assoc] at h
    exact h
  · exact fun _ _ _ _ _ _ => KeepsMarks.of_fields rfl rfl rfl

theorem handleMessage_keepsMarks {s : Client} {buf : Buffer}
    (hkey : buf.readUInt8 0 ≠ some TYPE_KEY_SHARE) (hinfo : buf.readUInt8 0 ≠ some TYPE_MEMBER_INFO)
    (hchain : buf.readUInt8 0 ≠ some TYPE_CHAIN_SHARE) :
    ObeysAt (KeepsMarks C me lk) (handleMessage C me buf) s := by
  apply handleMessage_obeysAt keepsMarks_background
  intro type htype
  have habsurd : ∀ {n : ℕ} {m : ClientProg Unit}, buf.readUInt8 0 ≠ some n → type = n →
      ObeysAt (KeepsMarks C me lk) m s := fun hne heq => absurd (by rw [htype, heq]) hne
  exact keepsMarks_flow.handlerOf (habsurd hchain) (habsurd hkey) (habsurd hinfo) fun _ =>
    keepsMarks_flow.handleDictReset (fun _ => KeepsMarks.of_fields rfl rfl rfl) buf s

theorem step_keepsMarks {s : Client} {e : Event} (hrekey : e ≠ .rekeyTimer)
    (hframe : ∀ buf ∈ e.datagram, buf.readUInt8 0 ≠ some TYPE_KEY_SHARE ∧
      buf.readUInt8 0 ≠ some TYPE_MEMBER_INFO ∧ buf.readUInt8 0 ≠ some TYPE_CHAIN_SHARE) :
    ObeysAt (KeepsMarks C me lk) (step C me e) s := by
  refine step_obeysAt_with keepsMarks_background (fun _ => KeepsMarks.of_fields rfl rfl rfl)
    (fun convId payload _ => keepsMarks_sendData s convId payload) ?_
    (fun i _ => keepsMarks_flow.shareTimer i s) fun he => absurd he hrekey
  intro buf he _
  obtain ⟨hkey, hinfo, hchain⟩ := hframe buf (by rw [he]; rfl)
  exact handleMessage_keepsMarks hkey hinfo hchain

end Others

/-! ### Whole runs -/

/-- The public key of each member in the last roster that listed it. -/
def lastKeys (C : Crypto) (me : Identity) (es : List Event) (c m : ℕ) : Option Buffer :=
  (es.foldl (fun (p : Client × Option Buffer) e =>
    let t := (step C me e p.1).state
    (t, (get₂ t.roster c m).or p.2)) ({}, none)).2

theorem lastKeys_concat (es : List Event) (e : Event) :
    lastKeys C me (es ++ [e]) = relisted (stateAfter C me (es ++ [e])).roster (lastKeys C me es) := by
  funext c m
  have hstate : ∀ fs : List Event, (fs.foldl (fun (p : Client × Option Buffer) e =>
      let t := (step C me e p.1).state
      (t, (get₂ t.roster c m).or p.2)) ({}, none)).1 = stateAfter C me fs := by
    intro fs
    induction fs using List.reverseRecOn with
    | nil => rfl
    | append_singleton fs f ih =>
      rw [List.foldl_append, stateAfter_concat, ← ih]
      rfl
  rw [lastKeys, List.foldl_append, relisted, stateAfter_concat, ← hstate es]
  rfl

/-- What the marks ask of an event in a state: whoever is to be given a key or a chain can be given it,
a member that returns while it is still marked has the key it left with, and a chain share in the
client's own name carries a state of its chain.  A frame that does not open asks for nothing. -/
@[mk_iff] structure RegularStep (C : Crypto) (me : Identity) (lk : ℕ → ℕ → Option Buffer)
    (os : List Output) (s : Client) (ev : Event) : Prop where
  adopts : ∀ buf ∈ ev.datagram, buf.readUInt8 0 = some TYPE_KEY_SHARE → AdoptsServed C me s buf
  rosters : ∀ buf ∈ ev.datagram, buf.readUInt8 0 = some TYPE_MEMBER_INFO →
    ∀ opened ∈ (openMemberInfo C me s buf).join,
      RosterServed C me s opened.1 ((s.isCreator.get opened.1.convId).getD false)
  rotates : ev = .rekeyTimer → ∀ c ∈ s.rekeyTimer, s.closed = false ∧
    (s.isCreator.get c = some true →
      CanServe C me c (s.sendingEpoch c + 1) ((s.roster.get c).getD ∅))
  returns : ∀ buf ∈ ev.datagram, buf.readUInt8 0 = some TYPE_MEMBER_INFO →
    ∀ opened ∈ (openMemberInfo C me s buf).join, ∀ entry ∈ (rosterOf opened.1).entries,
      get₂ s.roster opened.1.convId entry.1 = none →
      entry.1 ∈ marked s.sharedWith opened.1.convId ∨
        entry.1 ∈ marked s.chainSharedWith opened.1.convId →
      lk opened.1.convId entry.1 = some entry.2
  ownShares : ∀ buf ∈ ev.datagram, buf.readUInt8 0 = some TYPE_CHAIN_SHARE →
    ∀ opened ∈ (shareTransportKey C me s buf).join,
    ∀ decoded ∈ Codec.decodeChainShare C buf opened.2, decoded.senderId = me.senderId →
      decoded.epoch = s.sendingEpoch opened.1 →
      OnLatest C os opened.1 decoded.epoch ⟨decoded.chainKey, decoded.chainIndex⟩

instance (C : Crypto) (me : Identity) (lk : ℕ → ℕ → Option Buffer) (os : List Output) (s : Client)
    (ev : Event) : Decidable (RegularStep C me lk os s ev) :=
  decidable_of_iff _ (regularStep_iff C me lk os s ev).symm

/-- Every event of the run is regular at its moment. -/
def Regular (C : Crypto) (me : Identity) (es : List Event) : Prop :=
  ∀ i < es.length, ∀ ev ∈ es[i]?, RegularStep C me (lastKeys C me (es.take i))
    (outputsOf C me (es.take i)) (stateAfter C me (es.take i)) ev

theorem Regular.init {e : Event} (h : Regular C me (es ++ [e])) :
    Regular C me es := by
  intro k hk
  have hlast := h k (by simp; omega)
  rw [List.take_append_of_le_length (by omega), List.getElem?_append_left hk] at hlast
  exact hlast

theorem Regular.last {e : Event} (h : Regular C me (es ++ [e])) :
    RegularStep C me (lastKeys C me es) (outputsOf C me es) (stateAfter C me es) e := by
  have hlast := h es.length (by simp)
  rw [List.take_left, List.getElem?_concat_length] at hlast
  exact hlast e rfl

section Steps

variable {lk : ℕ → ℕ → Option Buffer} {os : List Output} {s : Client}
variable (hC : C.Lawful) (hbody : LengthPreserving C) (hme : me.Lawful)
include hC hbody hme

theorem step_rekeyTimer_honest (hs : Honest C me lk none os s)
    (hev : RegularStep C me lk os s .rekeyTimer) :
    Honest C me lk none (os ++ (step C me .rekeyTimer s).output)
      (step C me .rekeyTimer s).state := by
  have hrun := step_rekeyTimer C me s
  cases hpending : s.rekeyTimer with
  | none =>
    rw [hrun, hpending, List.append_nil]
    exact hs
  | some c =>
    obtain ⟨hopen, hnext⟩ := hev.rotates rfl c hpending
    rw [hrun, hpending]
    have hready : Ready C me lk s.roster none os s := ⟨hopen, rfl, hs⟩
    exact (rekey_ensures hC hbody hme (Q := Ready C me lk s.roster none)
      (P := fun os t => Ready C me lk s.roster none os t ∧ t = { s with rekeyTimer := none })
      (fun _ _ ht => ht.1) (fun _ _ ht => by rw [ht.2]; exact hnext) (fun _ _ ht => ht.1)
      (fun _ _ _ ht => ht.toReady) os { s with rekeyTimer := none } ⟨hready.of_core rfl, rfl⟩
      (by simp)).2.honest

/-- A roster, a group-key share or a chain share that reaches an open client. -/
theorem step_share_honest (hs : Honest C me lk none os s) (hopen : s.closed = false) {buf : Buffer}
    {type : ℕ} (htype : buf.readUInt8 0 = some type)
    (hshare : type = TYPE_KEY_SHARE ∨ type = TYPE_MEMBER_INFO ∨ type = TYPE_CHAIN_SHARE)
    (hev : RegularStep C me lk os s (.message buf)) :
    Honest C me (relisted (step C me (.message buf) s).state.roster lk) none
      (os ++ (step C me (.message buf) s).output) (step C me (.message buf) s).state := by
  rw [step_message_of_type C me hopen htype]
  rcases hshare with rfl | rfl | rfl
  · have hkey := handleKeyShare_honest hC hbody hme hopen hs (hev.adopts buf rfl htype)
    show Honest C me (relisted (handleKeyShare C me buf s).state.roster lk) none
      (os ++ (handleKeyShare C me buf s).output) (handleKeyShare C me buf s).state
    rw [hkey.relisted_eq]
    exact hkey
  · refine handleMemberInfo_honest hC hbody hme hopen hs ?_ ?_
    · intro info serverPubKey hinfo
      exact hev.rosters buf rfl htype (info, serverPubKey) (by rw [hinfo]; rfl)
    · intro info serverPubKey hinfo m pub hpub
      exact hev.returns buf rfl htype (info, serverPubKey) (by rw [hinfo]; rfl) (m, pub)
        (mem_entries_iff_get.mpr hpub)
  · obtain ⟨hstate, hout⟩ := @handleChainShare_run C me buf s
    show Honest C me (relisted (handleChainShare C me buf s).state.roster lk) none
      (os ++ (handleChainShare C me buf s).output) (handleChainShare C me buf s).state
    rw [hout, List.append_nil]
    have hchain : Honest C me lk none os (handleChainShare C me buf s).state := by
      rcases hstate with hsame | ⟨c, key, decoded, hc, hdec, hset⟩
      · rw [hsame]
        exact hs
      · rw [hset]
        apply hs.setChain
        intro hself hepoch _
        exact hev.ownShares buf rfl htype (c, key) (by rw [hc]; rfl) decoded hdec hself hepoch
    rw [hchain.relisted_eq]
    exact hchain

/-- **One regular event keeps the marks honest.** -/
theorem step_honest (hs : Honest C me lk none os s) {e : Event} (hev : RegularStep C me lk os s e) :
    Honest C me (relisted (step C me e s).state.roster lk) none (os ++ (step C me e s).output)
      (step C me e s).state := by
  have hunlisted : Honest C me lk none (os ++ (step C me e s).output) (step C me e s).state →
      Honest C me (relisted (step C me e s).state.roster lk) none (os ++ (step C me e s).output)
        (step C me e s).state := by
    intro h
    rw [h.relisted_eq]
    exact h
  by_cases hrekey : e = .rekeyTimer
  · subst hrekey
    exact hunlisted (step_rekeyTimer_honest hC hbody hme hs hev)
  by_cases hshare : ∃ buf type, e = .message buf ∧ s.closed = false ∧ buf.readUInt8 0 = some type ∧
      (type = TYPE_KEY_SHARE ∨ type = TYPE_MEMBER_INFO ∨ type = TYPE_CHAIN_SHARE)
  · obtain ⟨buf, type, rfl, hopen, htype, htypes⟩ := hshare
    exact step_share_honest hC hbody hme hs hopen htype htypes hev
  apply hunlisted
  by_cases hclosed : s.closed = true ∧ ∃ buf, e = .message buf
  · obtain ⟨hclosed, buf, rfl⟩ := hclosed
    rw [step_message, if_pos hclosed, List.append_nil]
    exact hs
  · refine step_keepsMarks hrekey ?_ os hs
    intro buf hbuf
    have he : e = .message buf := by
      cases e with
      | message b =>
        cases hbuf
        rfl
      | _ => cases hbuf
    have hopen : s.closed = false := by
      cases hc : s.closed with
      | false => rfl
      | true => exact absurd ⟨hc, buf, he⟩ hclosed
    refine ⟨fun h => hshare ⟨buf, _, he, hopen, h, .inl rfl⟩,
      fun h => hshare ⟨buf, _, he, hopen, h, .inr (.inl rfl)⟩,
      fun h => hshare ⟨buf, _, he, hopen, h, .inr (.inr rfl)⟩⟩

end Steps

theorem honest_run (hC : C.Lawful) (hbody : LengthPreserving C) (hme : me.Lawful)
    (hes : Regular C me es) :
    Honest C me (lastKeys C me es) none (outputsOf C me es) (stateAfter C me es) := by
  induction es using List.reverseRecOn with
  | nil => exact Honest.init
  | append_singleton es e ih =>
    rw [lastKeys_concat, outputsOf_concat, stateAfter_concat]
    exact step_honest hC hbody hme (ih hes.init) hes.last

/-- **Marks are truthful.**  After every run of regular events, for every conversation `c` and every
member `m` that is listed with public key `pub`:

* if `m` is marked as having the group key, a KEY_SHARE of the current epoch and key for `m`,
  encrypted to `pub`, was broadcast;
* if `m` is marked as having the chain, a CHAIN_SHARE for `m`, encrypted to `pub`, was broadcast, and
  it carries a state of the chain that the client started last for the current epoch and still sends
  on. -/
theorem marks_are_truthful (hC : C.Lawful) (hbody : LengthPreserving C) (hme : me.Lawful)
    {es : List Event} (hes : Regular C me es) {c m : ℕ} {pub : Buffer}
    (hpub : get₂ (stateAfter C me es).roster c m = some pub) :
    (m ∈ marked (stateAfter C me es).sharedWith c →
      ∃ key, (stateAfter C me es).getCurrentKey c = some key ∧
        KeyShared C me (outputsOf C me es) c ((stateAfter C me es).sendingEpoch c) key m pub) ∧
    (m ∈ marked (stateAfter C me es).chainSharedWith c →
      ∃ start st st',
        latestStart (outputsOf C me es) c ((stateAfter C me es).sendingEpoch c) = some start ∧
        (stateAfter C me es).getChain c ((stateAfter C me es).sendingEpoch c) me.senderId = some st ∧
        st.key = chainSteps C st.index start.2 ∧ st'.key = chainSteps C st'.index start.2 ∧
        ChainShared C me (outputsOf C me es) c ((stateAfter C me es).sendingEpoch c) st' m pub) := by
  have h := honest_run hC hbody hme hes
  have hlast := h.known c m pub hpub
  constructor
  · intro hm
    obtain ⟨pub', key, hlk, hkey, hsent⟩ := h.keys c m hm
    rw [hlast, Option.some.injEq] at hlk
    subst hlk
    exact ⟨key, hkey, hsent⟩
  · intro hm
    obtain ⟨pub', st', hlk, hsome, ⟨start, hstart, hst'⟩, hsent⟩ := h.chains c (by simp) m hm
    rw [hlast, Option.some.injEq] at hlk
    subst hlk
    obtain ⟨st, hst⟩ := Option.isSome_iff_exists.mp hsome
    obtain ⟨start', hstart', hkey⟩ := h.own c (by simp) st hst
    have hsame : start = start' := Option.some.inj (hstart.symm.trans hstart')
    subst hsame
    exact ⟨start, st, st', hstart, hst, hkey, hst', hsent⟩

/-- Client `1` founds the group with member `2`, which leaves and comes back with its old key; then
the client rotates. -/
def returningRun : List Event :=
  [.message (sumMemberInfo 7 1 true [1, 2]), .message (sumMemberInfo 7 1 true [1]),
    .message (sumMemberInfo 7 1 true [1, 2]), .rekeyTimer]

/-- Member `2` is marked, and was given the key and the chain of the second epoch. -/
theorem marks_are_truthful_return :
    (∃ key, (stateAfter sumCrypto (sumIdentity 1) returningRun).getCurrentKey 7 = some key ∧
      KeyShared sumCrypto (sumIdentity 1) (outputsOf sumCrypto (sumIdentity 1) returningRun) 7 2 key 2
        (bytesBE 65 2)) ∧
    ∃ st, ChainShared sumCrypto (sumIdentity 1) (outputsOf sumCrypto (sumIdentity 1) returningRun) 7 2
      st 2 (bytesBE 65 2) := by
  have hregular : Regular sumCrypto (sumIdentity 1) returningRun := by
    unfold Regular
    decide +kernel
  have hrun : get₂ (stateAfter sumCrypto (sumIdentity 1) returningRun).roster 7 2
        = some (bytesBE 65 2) ∧
      (stateAfter sumCrypto (sumIdentity 1) returningRun).sendingEpoch 7 = 2 := by
    decide +kernel
  obtain ⟨hpub, hepoch⟩ := hrun
  obtain ⟨hkey, hchain⟩ := marks_are_truthful sumCrypto_lawful
    sumCrypto_lengthPreserving (sumIdentity_lawful 1) hregular hpub
  obtain ⟨key, hcurrent, hshared⟩ := hkey (by decide +kernel)
  obtain ⟨start, st, st', -, -, -, -, hsent⟩ := hchain (by decide +kernel)
  rw [hepoch] at hshared hsent
  exact ⟨⟨key, hcurrent, hshared⟩, st', hsent⟩

/-! ### A member that returns with a fresh key -/

/-- A share that was broadcast opens under the transport key of its target. -/
theorem KeyShared.opens (hC : C.Lawful) (hme : me.Lawful)
    {transportKey : Buffer} (h : KeyShared C me os c epoch key m pub)
    (htransport : pairwiseKey C me.privateKey pub = some transportKey) :
    ∃ buf ∈ framesOf os, (Codec.openShare C buf transportKey).isSome := by
  obtain ⟨transportKey', i, buf, via, hkey, hbuf, hmem⟩ := h
  rw [htransport, Option.some.injEq] at hkey
  subst hkey
  refine ⟨buf, List.mem_filterMap.mpr ⟨_, hmem, rfl⟩, ?_⟩
  rw [Codec.openShare_of_encodeKeyShare hC (hme i 12) hbuf]
  rfl

theorem ChainShared.opens (hC : C.Lawful) (hme : me.Lawful) {transportKey : Buffer}
    (h : ChainShared C me os c epoch st m pub)
    (htransport : pairwiseKey C me.privateKey pub = some transportKey) :
    ∃ buf ∈ framesOf os, (Codec.openShare C buf transportKey).isSome := by
  obtain ⟨transportKey', i, buf, via, hkey, hbuf, hmem⟩ := h
  rw [htransport, Option.some.injEq] at hkey
  subst hkey
  refine ⟨buf, List.mem_filterMap.mpr ⟨_, hmem, rfl⟩, ?_⟩
  exact Codec.openShare_of_encodeChainShare hC (hme i 12) hbuf

/-- Member `2` leaves and comes back with a fresh key. -/
def freshKeyRun : List Event :=
  [.message (sumMemberInfo 7 1 true [1, 2]), .message (sumMemberInfo 7 1 true [1]),
    .message (sumServerInfo 9 7 1 true [⟨1, bytesBE 65 1⟩, ⟨2, sumFreshKey 102⟩])]

/-- **A member that returns with a fresh key is given nothing.**  It is listed with the fresh key and
marked twice, but no share of whatever epoch, key or chain state was encrypted to that key. -/
theorem returning_member_is_given_nothing :
    get₂ (stateAfter sumCrypto (sumIdentity 1) freshKeyRun).roster 7 2
        = some (sumFreshKey 102) ∧
      2 ∈ marked (stateAfter sumCrypto (sumIdentity 1) freshKeyRun).sharedWith 7 ∧
      2 ∈ marked (stateAfter sumCrypto (sumIdentity 1) freshKeyRun).chainSharedWith 7 ∧
      (∀ c epoch key m, ¬ KeyShared sumCrypto (sumIdentity 1)
        (outputsOf sumCrypto (sumIdentity 1) freshKeyRun) c epoch key m (sumFreshKey 102)) ∧
      ∀ c epoch st m, ¬ ChainShared sumCrypto (sumIdentity 1)
        (outputsOf sumCrypto (sumIdentity 1) freshKeyRun) c epoch st m (sumFreshKey 102) := by
  have hrun : pairwiseKey sumCrypto (sumIdentity 1).privateKey (sumFreshKey 102)
        = some (sumFreshPairwise 1 102) ∧
      ∀ buf ∈ framesOf (outputsOf sumCrypto (sumIdentity 1) freshKeyRun),
        (Codec.openShare sumCrypto buf (sumFreshPairwise 1 102)).isSome = false := by
    decide +kernel
  obtain ⟨htransport, hnone⟩ := hrun
  refine ⟨?_, ?_, ?_, ?_, ?_⟩
  · decide +kernel
  · decide +kernel
  · decide +kernel
  · intro c epoch key m hshared
    obtain ⟨buf, hbuf, hsome⟩ := hshared.opens sumCrypto_lawful (sumIdentity_lawful 1) htransport
    rw [hnone buf hbuf] at hsome
    cases hsome
  · intro c epoch st m hshared
    obtain ⟨buf, hbuf, hsome⟩ := hshared.opens sumCrypto_lawful (sumIdentity_lawful 1) htransport
    rw [hnone buf hbuf] at hsome
    cases hsome

end DartProtocol
