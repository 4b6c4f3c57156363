import DartProtocol.KeyAdoption
import DartProtocol.Network

/-!
# Keys after a departure

When a member leaves, the server strikes it from the roster and announces the new roster to the
others.  What protects the group from then on is a new epoch: a new group key, and with it a new own
chain of everybody who adopts it.  A client does not compare rosters, though.  A roster that names it
creator makes it rotate when it was not the creator before, or when there is no key yet; a creator
that stays creator keeps the key and the chain that the departed member was given.

* `memberInfo_spec`, `keyShare_spec` — what a roster, and a share of a newer epoch, do to the keys;
* `departure_rotates_iff` — exactly when a roster that names a client creator starts a new epoch, and
  what is new then, for the creator and for everybody who is given the new key;
* `Network.deliver_rotates_iff` — the same within the whole system of clients and server.
-/

namespace DartProtocol

open Prog InsertionMap Buffer

variable {C : Crypto} {me : Identity}

/-- The epoch a client has adopted; `0` before the first key. -/
def Client.adoptedEpoch (s : Client) (convId : ℕ) : ℕ := orDefault (s.adoptedEpochs.get convId) 0

/-- A roster that names the client creator starts a new epoch: there is no key yet, or the client was
not the creator before, and giving the old key to the newcomers does not fail. -/
def RotatesOn (C : Crypto) (me : Identity) (s : Client) (info : MemberInfo) (serverPub : Buffer) :
    Prop :=
  s.adoptedEpoch info.convId = 0 ∨
    ((s.isCreator.get info.convId).getD false = false ∧
      (shareWithNewMembers C me info.convId (installRoster info serverPub s)).result.isSome)

instance (s : Client) (info : MemberInfo) (serverPub : Buffer) :
    Decidable (RotatesOn C me s info serverPub) := by
  unfold RotatesOn
  infer_instance

/-- The own chain with which a client goes on sending was started within these outputs. -/
def StartedChain (me : Identity) (convId : ℕ) (os : List Output) (t : Client) : Prop :=
  ∃ seed, Output.chainStarted convId (t.sendingEpoch convId) seed ∈ os ∧
    t.getChain convId (t.sendingEpoch convId) me.senderId = some ⟨seed, 0⟩

/-! ### What keeps the present key -/

/-- The epochs and the present group key of a conversation stay. -/
def KeepsCurrent (convId : ℕ) : Client → List Output → Client → Prop := fun s _ t =>
  t.adoptedEpochs = s.adoptedEpochs ∧ t.currentEpochs = s.currentEpochs ∧
    t.getCurrentKey convId = s.getCurrentKey convId

variable {s : Client} {os : List Output} {convId epoch : ℕ} {key : Buffer}

theorem KeepsKeys.current {t : Client} (h : KeepsKeys s os t) (convId : ℕ) :
    KeepsCurrent convId s os t := by
  have hview : t.keyView = s.keyView := h
  simp only [Client.keyView, Prod.mk.injEq] at hview
  obtain ⟨-, hcur, had, hkeys, -⟩ := hview
  refine ⟨had, hcur, ?_⟩
  rw [Client.getCurrentKey, hkeys, hcur, Client.getCurrentKey]

/-- The keys, the creator flags and the chains stay. -/
def KeepsSecrets : Client → List Output → Client → Prop := fun s _ t =>
  t.keyView = s.keyView ∧ t.isCreator = s.isCreator ∧ t.senderChains = s.senderChains

theorem keepsSecrets_background : Background KeepsSecrets where
  comp := by
    refine ⟨fun _ => ⟨rfl, rfl, rfl⟩, ?_⟩
    rintro s t u os os' ⟨h₁, h₂, h₃⟩ ⟨g₁, g₂, g₃⟩
    exact ⟨g₁.trans h₁, g₂.trans h₂, g₃.trans h₃⟩
  bookkeeping := by
    intro s t (h : t.core = s.core)
    show t.core.keyView = s.core.keyView ∧ t.core.isCreator = s.core.isCreator ∧
      t.core.senderChains = s.core.senderChains
    rw [h]
    exact ⟨rfl, rfl, rfl⟩
  broadcast := fun _ _ _ => ⟨rfl, rfl, rfl⟩

theorem shareWithNewMembers_secrets (convId : ℕ) :
    Obeys KeepsSecrets (shareWithNewMembers C me convId) :=
  shareWithNewMembers_obeys keepsSecrets_background (fun _ _ => ⟨rfl, rfl, rfl⟩) convId
    fun _ _ _ _ _ => ⟨rfl, rfl, rfl⟩

theorem shareChainWithMembers_secrets (convId epoch : ℕ) :
    Obeys KeepsSecrets (shareChainWithMembers C me convId epoch) :=
  fun _ => shareChainWithMembers_obeysAt keepsSecrets_background (fun _ _ => ⟨rfl, rfl, rfl⟩)
    (fun _ _ _ _ => ⟨rfl, rfl, rfl⟩) fun _ _ _ _ _ _ => ⟨rfl, rfl, rfl⟩

theorem shareWithNewMembers_draws (convId : ℕ) :
    Obeys (fun s (_ : List Output) t => s.draws ≤ t.draws)
      (shareWithNewMembers C me convId) := by
  have hR : Composable fun (s : Client) (_ : List Output) (t : Client) => s.draws ≤ t.draws :=
    ⟨fun _ => le_refl _, fun h h' => le_trans h h'⟩
  have hbroadcast : ∀ buf, Obeys (fun s (_ : List Output) t => s.draws ≤ t.draws)
      (broadcast buf) := by
    intro buf
    unfold broadcast
    refine .get_bind fun s => ?_
    refine .ite (.pure hR _) (.ite ?_ (.emit fun _ => le_rfl))
    exact .ofOption_bind hR fun _ => .emit fun _ => le_rfl
  unfold shareWithNewMembers
  refine .get_bind fun s => ?_
  split
  · exact .pure hR _
  split
  · exact .pure hR _
  refine .bind hR (.modify fun _ => le_rfl) fun _ => ?_
  refine .ite (.pure hR _) ?_
  refine .bind hR (.forEach hR fun mId _ => ?_) fun _ =>
    Obeys.modify fun _ => le_rfl
  unfold sendKeyShare
  refine .ofOption_bind hR fun _ => ?_
  refine .ofOption_bind hR fun _ => ?_
  refine .bind hR ?_ fun _ => ?_
  · intro t
    exact Nat.le_succ t.draws
  · exact .ofOption_bind hR fun buf => hbroadcast buf

/-! ### Entering a key -/

/-- What a client holds of a conversation is this epoch with this key. -/
structure Holds (convId epoch : ℕ) (key : Buffer) (t : Client) : Prop where
  adopted : t.adoptedEpochs.get convId = some epoch
  current : t.currentEpochs.get convId = some epoch
  key : t.getCurrentKey convId = some key

theorem Holds.epochs {t : Client} (h : Holds convId epoch key t) (hpos : epoch ≠ 0) :
    t.adoptedEpoch convId = epoch ∧ t.sendingEpoch convId = epoch := by
  constructor
  · rw [Client.adoptedEpoch, h.adopted, orDefault_some_pos 0 hpos]
  · rw [Client.sendingEpoch, h.current, orDefault_some_pos 1 hpos]

theorem Holds.keep {t : Client} (h : Holds convId epoch key s) (hkeep : KeepsCurrent convId s os t) :
    Holds convId epoch key t := by
  obtain ⟨had, hcur, hkey⟩ := hkeep
  exact ⟨by rw [had, h.adopted], by rw [hcur, h.current], hkey.trans h.key⟩

theorem holds_installKey (s : Client) (convId : ℕ) (key : Buffer) (h : epoch ≠ 0) :
    Holds convId epoch key (installKey convId epoch key s) := by
  have hcurrent : (installKey convId epoch key s).currentEpochs.get convId = some epoch :=
    get_set_self ..
  refine ⟨get_set_self .., hcurrent, ?_⟩
  rw [Client.getCurrentKey, hcurrent, orDefault_some_pos 1 h]
  show get₂ (set₂ s.roomKeys convId epoch key) convId epoch = some key
  rw [get₂_set₂, if_pos ⟨rfl, rfl⟩]

/-- After a key was entered the client holds it, whatever becomes of sharing it. -/
theorem adoptKey_holds (convId : ℕ) (key : Buffer) (h : epoch ≠ 0) (s : Client) :
    Holds convId epoch key (adoptKey C me convId epoch key s).state := by
  have hkeep : KeepsKeys (installKey convId epoch key s)
      (announceKey C me convId epoch (installKey convId epoch key s)).output
      (announceKey C me convId epoch (installKey convId epoch key s)).state :=
    announceKey_obeys keepsKeys_shares convId epoch _
  exact (holds_installKey s convId key h).keep (hkeep.current convId)

theorem rekey_holds (hcreator : s.isCreator.get convId = some true) :
    Holds convId (s.sendingEpoch convId + 1) (me.random s.draws 32) (rekey C me convId s).state := by
  have hpos := Nat.succ_ne_zero (s.sendingEpoch convId)
  rw [rekey, get_bind, if_pos hcreator, randomBytes_bind]
  refine after_bind (adoptKey_holds convId _ hpos _) fun _ t ht => ?_
  -- the epochs that are forgotten are older ones
  have hkeep : KeepsCurrent convId t [] (pruneEpochs convId t) :=
    ⟨(pruneEpochs_keeps convId t).1, (pruneEpochs_keeps convId t).2.1,
      getCurrentKey_pruneEpochs convId convId t⟩
  exact ht.keep hkeep

/-! ### Starting a chain -/

/-- The own chain of an epoch was started within these outputs. -/
def ChainFrom (me : Identity) (convId epoch : ℕ) (os : List Output) (t : Client) : Prop :=
  ∃ seed, Output.chainStarted convId epoch seed ∈ os ∧
    t.getChain convId epoch me.senderId = some ⟨seed, 0⟩

theorem chainFrom_of_secrets {α : Type} {m : ClientProg α} (hm : Obeys KeepsSecrets m)
    (convId epoch : ℕ) :
    Ensures false (ChainFrom me convId epoch) m (ChainFrom me convId epoch) := by
  refine .of_obeys hm (by simp) fun os s os' t h hkeep => ?_
  obtain ⟨seed, hmem, hchain⟩ := h
  refine ⟨seed, List.mem_append_left _ hmem, ?_⟩
  rw [Client.getChain, hkeep.2.2]
  exact hchain

/-- Adopting a key without an exception ends with a new own chain. -/
theorem adoptKey_chain (convId epoch : ℕ) (key : Buffer) :
    Ensures false (fun _ _ => True) (adoptKey C me convId epoch key)
      (ChainFrom me convId epoch) := by
  unfold adoptKey announceKey initOwnChain
  refine .bind (Q := fun _ _ => True) (fun _ _ _ hdone => ⟨hdone rfl, trivial⟩) fun _ => ?_
  refine .bind (Q := fun _ _ => True) (fun _ _ _ hdone => ⟨hdone rfl, trivial⟩) fun _ => ?_
  refine .bind (Q := ChainFrom me convId epoch) ?_ fun _ =>
    chainFrom_of_secrets (keepsSecrets_background.modify fun _ => rfl) convId epoch
  refine .bind (Q := fun _ _ => True) (fun _ _ _ hdone => ⟨hdone rfl, trivial⟩) fun seed => ?_
  refine .modify_emit_bind (Q := ChainFrom me convId epoch) ?_
    (chainFrom_of_secrets (shareChainWithMembers_secrets convId epoch) convId epoch)
  intro os s _
  refine ⟨seed, by simp, ?_⟩
  exact Client.getChain_setChain_self s convId epoch me.senderId ⟨seed, 0⟩

theorem rekey_chain (convId epoch : ℕ) :
    Ensures false (fun _ s => s.sendingEpoch convId = epoch ∧ s.isCreator.get convId = some true)
      (rekey C me convId) (ChainFrom me convId (epoch + 1)) := by
  unfold rekey
  refine .get_bind fun s₀ => ?_
  rintro os s ⟨⟨hepoch, hcreator⟩, rfl⟩
  rw [if_pos hcreator, hepoch]
  refine Ensures.bind (P := fun _ _ => True) (Q := fun _ _ => True)
    (fun _ _ _ hdone => ⟨hdone rfl, trivial⟩) (fun key => ?_) os s trivial
  refine Ensures.bind (adoptKey_chain convId (epoch + 1) key) fun _ => ?_
  refine .modify fun os t h => ?_
  obtain ⟨seed, hmem, hchain⟩ := h
  refine ⟨seed, hmem, ?_⟩
  rw [Client.getChain, (pruneEpochs_keeps convId t).2.2]
  exact hchain

/-! ### Rosters -/

section Roster

variable {s : Client} {info : MemberInfo} {serverPub : Buffer}

theorem handleMemberInfo_run {buf : Buffer}
    (hinfo : openMemberInfo C me s buf = some (some (info, serverPub))) :
    handleMemberInfo C me buf s
      = afterRoster C me info ((s.isCreator.get info.convId).getD false)
          (installRoster info serverPub s) := by
  rw [handleMemberInfo, get_bind, hinfo, ofOption_some_bind]
  simp only
  rw [modify_bind]

/-- Sharing the own chain and waiting for the next rotation, at the end of a roster. -/
theorem shareChain_secrets (convId : ℕ) :
    Obeys KeepsSecrets (do
      let t ← Prog.get
      shareChainWithMembers C me convId (t.sendingEpoch convId)
      scheduleRekey convId : ClientProg Unit) := by
  have hB := keepsSecrets_background
  refine .get_bind fun t => ?_
  refine .bind hB.comp (shareChainWithMembers_secrets _ _) fun _ => ?_
  exact hB.modify fun _ => rfl

theorem KeepsSecrets.current {s t : Client} {os : List Output} (h : KeepsSecrets s os t)
    (convId : ℕ) : KeepsCurrent convId s os t := by
  have hkeys : KeepsKeys s os t := h.1
  exact hkeys.current convId

theorem afterRoster_founds (prev : Bool) (hcreator : info.creator = true)
    (hzero : s.adoptedEpoch info.convId = 0) :
    Holds info.convId 1 (me.random s.draws 32) (afterRoster C me info prev s).state ∧
      ((afterRoster C me info prev s).result.isSome →
        ChainFrom me info.convId 1 (afterRoster C me info prev s).output
          (afterRoster C me info prev s).state) := by
  have hmine : orDefault (s.adoptedEpochs.get info.convId) 0 = 0 := hzero
  have hrun : afterRoster C me info prev s
      = ((do
          let key ← randomBytes me 32
          adoptKey C me info.convId 1 key) >>= fun _ => do
          let t ← Prog.get
          shareChainWithMembers C me info.convId (t.sendingEpoch info.convId)
          scheduleRekey info.convId : ClientProg Unit) s := by
    have hfound : foundOrShare C me info 0 = (do
        let key ← randomBytes me 32
        adoptKey C me info.convId 1 key) := by
      rw [foundOrShare, hcreator]
      rfl
    have hrotate : rotateIfElected C me info prev 0 = pure () := by
      rw [rotateIfElected]
      simp
    rw [afterRoster, get_bind, hmine, hfound, hrotate]
    rfl
  rw [hrun]
  constructor
  · refine after_bind ?_ fun _ t ht => ht.keep ((shareChain_secrets info.convId t).current _)
    rw [randomBytes_bind]
    exact adoptKey_holds info.convId _ Nat.one_ne_zero _
  · intro hdone
    refine (Ensures.bind (P := fun _ _ => True) (Q := ChainFrom me info.convId 1) ?_
      (fun _ => chainFrom_of_secrets (shareChain_secrets info.convId) info.convId 1) [] s trivial
      fun _ => hdone).2
    refine Ensures.bind (Q := fun _ _ => True) (fun _ _ _ hdone => ⟨hdone rfl, trivial⟩) fun key => ?_
    exact adoptKey_chain info.convId 1 key

/-- A member that just became the creator rotates, when sharing the old key does not fail. -/
theorem afterRoster_rotates (hcreator : info.creator = true)
    (hflag : s.isCreator.get info.convId = some true)
    (hepoch : s.adoptedEpoch info.convId ≠ 0)
    (hcurrent : s.sendingEpoch info.convId = s.adoptedEpoch info.convId)
    (hshare : (shareWithNewMembers C me info.convId s).result.isSome) :
    (∃ n, s.draws ≤ n ∧ Holds info.convId (s.adoptedEpoch info.convId + 1) (me.random n 32)
        (afterRoster C me info false s).state) ∧
      ((afterRoster C me info false s).result.isSome →
        ChainFrom me info.convId (s.adoptedEpoch info.convId + 1)
          (afterRoster C me info false s).output (afterRoster C me info false s).state) := by
  have hfound : foundOrShare C me info (s.adoptedEpoch info.convId)
      = shareWithNewMembers C me info.convId := by
    rw [foundOrShare, if_neg (by simp [hepoch]), if_pos hepoch]
  have hrotate : rotateIfElected C me info false (s.adoptedEpoch info.convId)
      = rekey C me info.convId := by
    rw [rotateIfElected, if_pos (by simp [hcreator, hepoch])]
  have hrun : afterRoster C me info false s
      = (shareWithNewMembers C me info.convId >>= fun _ => rekey C me info.convId >>= fun _ => do
          let t ← Prog.get
          shareChainWithMembers C me info.convId (t.sendingEpoch info.convId)
          scheduleRekey info.convId : ClientProg Unit) s := by
    rw [afterRoster, get_bind, ← Client.adoptedEpoch, hfound, hrotate]
  rw [hrun]
  -- sharing the old key touches neither the epoch nor the flag
  have hkeep := @shareWithNewMembers_secrets C me info.convId s
  have hepoch' : (shareWithNewMembers C me info.convId s).state.sendingEpoch info.convId
      = s.adoptedEpoch info.convId := by
    rw [Client.sendingEpoch, (hkeep.current info.convId).2.1]
    exact hcurrent
  have hflag' : (shareWithNewMembers C me info.convId s).state.isCreator.get info.convId
      = some true := by
    rw [hkeep.2.1]
    exact hflag
  constructor
  · obtain ⟨u, hu⟩ := Option.isSome_iff_exists.mp hshare
    refine ⟨(shareWithNewMembers C me info.convId s).state.draws,
      shareWithNewMembers_draws info.convId s, ?_⟩
    rw [bind_of_some hu, Outcome.prepend_state]
    refine after_bind ?_ fun _ t ht => ht.keep ((shareChain_secrets info.convId t).current _)
    have hholds := @rekey_holds C me _ _ hflag'
    rw [hepoch'] at hholds
    exact hholds
  · intro hdone
    obtain ⟨u, hu, hrest, hsome⟩ := bind_of_isSome hdone
    rw [hrest]
    exact (Ensures.bind (rekey_chain (C := C) info.convId (s.adoptedEpoch info.convId))
      (fun _ => chainFrom_of_secrets (shareChain_secrets info.convId) info.convId _)
      _ _ ⟨hepoch', hflag'⟩ fun _ => hsome).2

theorem afterRoster_keeps {prev : Bool} (hepoch : s.adoptedEpoch info.convId ≠ 0)
    (hkeep : prev = true ∨ (shareWithNewMembers C me info.convId s).result.isSome = false) :
    ObeysAt KeepsSecrets (afterRoster C me info prev) s := by
  have hB := keepsSecrets_background
  have hfound : foundOrShare C me info (s.adoptedEpoch info.convId)
      = shareWithNewMembers C me info.convId := by
    rw [foundOrShare, if_neg (by simp [hepoch]), if_pos hepoch]
  unfold ObeysAt afterRoster
  rw [get_bind, ← Client.adoptedEpoch, hfound]
  refine ObeysAt.bind hB.comp (shareWithNewMembers_secrets _ s) fun u hu => ?_
  rcases hkeep with hprev | hfail
  · have hrotate : rotateIfElected C me info prev (s.adoptedEpoch info.convId) = pure () := by
      rw [rotateIfElected, if_neg (by simp [hprev])]
    rw [hrotate]
    exact shareChain_secrets info.convId _
  · rw [hu] at hfail
    cases hfail

end Roster

/-! ### Departures -/

/-- What a client of the run `es` is left with by a roster that names it creator. -/
theorem memberInfo_spec (es : List Event) {buf : Buffer} {info : MemberInfo} {serverPub : Buffer}
    (hinfo : openMemberInfo C me (stateAfter C me es) buf = some (some (info, serverPub)))
    (hcreator : info.creator = true) :
    let s := stateAfter C me es
    let r := handleMemberInfo C me buf s
    (RotatesOn C me s info serverPub →
      (∃ n, s.draws ≤ n ∧ Holds info.convId (s.adoptedEpoch info.convId + 1) (me.random n 32)
        r.state) ∧
      (r.result.isSome → ChainFrom me info.convId (s.adoptedEpoch info.convId + 1) r.output r.state)) ∧
    (¬ RotatesOn C me s info serverPub → KeepsSecrets (installRoster info serverPub s) r.output
      r.state) := by
  intro s r
  have hfit : KeysFit s := keysFit_stateAfter es
  have hr : r = afterRoster C me info ((s.isCreator.get info.convId).getD false)
      (installRoster info serverPub s) := handleMemberInfo_run hinfo
  -- taking over the roster leaves the epochs and the random source alone
  have hepoch : (installRoster info serverPub s).adoptedEpoch info.convId
      = s.adoptedEpoch info.convId := rfl
  rw [hr]
  constructor
  · intro hrot
    by_cases hzero : s.adoptedEpoch info.convId = 0
    · obtain ⟨hholds, hchain⟩ := afterRoster_founds
        (s := installRoster info serverPub s) ((s.isCreator.get info.convId).getD false) hcreator
        (hepoch.trans hzero)
      rw [hzero]
      exact ⟨⟨s.draws, le_rfl, hholds⟩, hchain⟩
    · obtain ⟨hprev, hshare⟩ : (s.isCreator.get info.convId).getD false = false ∧
          (shareWithNewMembers C me info.convId (installRoster info serverPub s)).result.isSome :=
        hrot.resolve_left hzero
      have hcurrent : (installRoster info serverPub s).sendingEpoch info.convId
          = s.adoptedEpoch info.convId := by
        show orDefault (s.currentEpochs.get info.convId) 1 = s.adoptedEpoch info.convId
        rw [(hfit info.convId).1]
        obtain ⟨epoch, hget⟩ : ∃ epoch, s.adoptedEpochs.get info.convId = some epoch := by
          cases hget : s.adoptedEpochs.get info.convId with
          | none => exact absurd (by rw [Client.adoptedEpoch, hget]; rfl) hzero
          | some epoch => exact ⟨epoch, rfl⟩
        have hpos : epoch ≠ 0 := by
          rintro rfl
          exact hzero (by rw [Client.adoptedEpoch, hget]; rfl)
        rw [Client.adoptedEpoch, hget, orDefault_some_pos 1 hpos, orDefault_some_pos 0 hpos]
      rw [hprev]
      have hflag : (installRoster info serverPub s).isCreator.get info.convId = some true := by
        show (s.isCreator.set info.convId info.creator).get info.convId = some true
        rw [get_set_self, hcreator]
      exact afterRoster_rotates hcreator hflag hzero hcurrent hshare
  · intro hno
    have hzero : s.adoptedEpoch info.convId ≠ 0 := fun h => hno (.inl h)
    refine afterRoster_keeps (s := installRoster info serverPub s) hzero ?_
    by_cases hprev : (s.isCreator.get info.convId).getD false = true
    · exact .inl hprev
    · right
      rw [Bool.eq_false_iff]
      exact fun hshare => hno (.inr ⟨by simpa using hprev, hshare⟩)

/-- What a client is left with by a share of an epoch that is newer than its own. -/
theorem keyShare_spec {buf : Buffer} {share : ℕ × Buffer}
    (hshare : CarriesShare C me s convId share buf) (hnewer : s.adoptedEpoch convId < share.1) :
    Holds convId share.1 share.2 (handleKeyShare C me buf s).state ∧
      ((handleKeyShare C me buf s).result.isSome →
        ChainFrom me convId share.1 (handleKeyShare C me buf s).output
          (handleKeyShare C me buf s).state) := by
  obtain ⟨-, key, htransport, hdec⟩ := hshare
  have hadopt : shouldAdopt s convId share.1 share.2 = true := by
    have hlt : orDefault (s.adoptedEpochs.get convId) 0 < share.1 := hnewer
    simp [shouldAdopt, hlt]
  have hrun : handleKeyShare C me buf s = adoptKey C me convId share.1 share.2 s := by
    rw [handleKeyShare, get_bind, htransport, ofOption_some_bind]
    simp only [hdec]
    rw [if_pos hadopt]
  rw [hrun]
  exact ⟨adoptKey_holds convId share.2 (Nat.ne_of_gt (Nat.zero_lt_of_lt hnewer)) s,
    fun hdone => (adoptKey_chain convId share.1 share.2 [] s trivial fun _ => hdone).2⟩

theorem StartedChain.of_holds {t : Client}
    (hholds : Holds convId epoch key t) (hpos : epoch ≠ 0) (h : ChainFrom me convId epoch os t) :
    StartedChain me convId os t := by
  rw [StartedChain, (hholds.epochs hpos).2]
  exact h

/-- One roster that names the client creator, in whatever state a run has left it. -/
theorem step_memberInfo_spec (es : List Event) {buf : Buffer} {info : MemberInfo} {serverPub : Buffer}
    (hopen : (stateAfter C me es).closed = false) (htype : buf.readUInt8 0 = some TYPE_MEMBER_INFO)
    (hinfo : openMemberInfo C me (stateAfter C me es) buf = some (some (info, serverPub)))
    (hcreator : info.creator = true) :
    let s := stateAfter C me es
    let r := step C me (.message buf) s
    (s.adoptedEpoch info.convId < r.state.adoptedEpoch info.convId ↔ RotatesOn C me s info serverPub) ∧
      (RotatesOn C me s info serverPub →
        r.state.adoptedEpoch info.convId = s.adoptedEpoch info.convId + 1 ∧
        (∃ n, s.draws ≤ n ∧ r.state.getCurrentKey info.convId = some (me.random n 32)) ∧
        ((dispatch C me buf s).result.isSome → StartedChain me info.convId r.output r.state)) ∧
      (¬ RotatesOn C me s info serverPub →
        r.state.getCurrentKey info.convId = s.getCurrentKey info.convId ∧
        ∀ epoch, r.state.getChain info.convId epoch me.senderId
          = s.getChain info.convId epoch me.senderId) := by
  have hdispatch : dispatch C me buf (stateAfter C me es)
      = handleMemberInfo C me buf (stateAfter C me es) := dispatch_of_type C me htype _
  obtain ⟨hrotate, hstay⟩ := memberInfo_spec es hinfo hcreator
  simp only
  rw [step_message_of_type C me hopen htype, hdispatch]
  show (_ < (handleMemberInfo C me buf (stateAfter C me es)).state.adoptedEpoch _ ↔ _) ∧ _
  have hpos := Nat.succ_ne_zero ((stateAfter C me es).adoptedEpoch info.convId)
  refine ⟨⟨fun hlt => ?_, fun hrot => ?_⟩, fun hrot => ?_, fun hno => ?_⟩
  · by_contra hno
    have hkeep := ((hstay hno).current info.convId).1
    rw [Client.adoptedEpoch, Client.adoptedEpoch, hkeep] at hlt
    exact Nat.lt_irrefl _ hlt
  · obtain ⟨⟨n, -, hholds⟩, -⟩ := hrotate hrot
    rw [(hholds.epochs hpos).1]
    exact Nat.lt_succ_self _
  · obtain ⟨⟨n, hn, hholds⟩, hchain⟩ := hrotate hrot
    exact ⟨(hholds.epochs hpos).1, ⟨n, hn, hholds.key⟩,
      fun hdone => StartedChain.of_holds hholds hpos (hchain hdone)⟩
  · refine ⟨((hstay hno).current info.convId).2.2, fun epoch => ?_⟩
    show (handleMemberInfo C me buf (stateAfter C me es)).state.getChain _ _ _ = _
    rw [Client.getChain, (hstay hno).2.2]
    rfl

/-- **Exactly when a departure renews the keys.**  After any run, a roster that names the client creator
starts a new epoch if and only if `RotatesOn` holds: there was no key, or the client had not been the
creator, and sharing the old key with newcomers did not fail.  Who is missing from the roster plays no
part in it.  A new epoch is the next one, its group key is drawn while the roster is handled, and, unless
an exception ends the handling, so is the own chain.  Otherwise the group key and the own chains stay
those that were shared before.  A member that handles a share of a newer epoch holds its key, and sends
on a chain that it starts then. -/
theorem departure_rotates_iff (es : List Event) (buf : Buffer)
    (hopen : (stateAfter C me es).closed = false) :
    (∀ info serverPub, buf.readUInt8 0 = some TYPE_MEMBER_INFO →
      openMemberInfo C me (stateAfter C me es) buf = some (some (info, serverPub)) →
      info.creator = true →
      ((stateAfter C me es).adoptedEpoch info.convId
          < (stateAfter C me (es ++ [.message buf])).adoptedEpoch info.convId ↔
        RotatesOn C me (stateAfter C me es) info serverPub) ∧
      (RotatesOn C me (stateAfter C me es) info serverPub →
        (stateAfter C me (es ++ [.message buf])).adoptedEpoch info.convId
          = (stateAfter C me es).adoptedEpoch info.convId + 1 ∧
        (∃ n, (stateAfter C me es).draws ≤ n ∧
          (stateAfter C me (es ++ [.message buf])).getCurrentKey info.convId
            = some (me.random n 32)) ∧
        ((dispatch C me buf (stateAfter C me es)).result.isSome →
          StartedChain me info.convId (step C me (.message buf) (stateAfter C me es)).output
            (stateAfter C me (es ++ [.message buf])))) ∧
      (¬ RotatesOn C me (stateAfter C me es) info serverPub →
        (stateAfter C me (es ++ [.message buf])).getCurrentKey info.convId
          = (stateAfter C me es).getCurrentKey info.convId ∧
        ∀ epoch, (stateAfter C me (es ++ [.message buf])).getChain info.convId epoch me.senderId
          = (stateAfter C me es).getChain info.convId epoch me.senderId)) ∧
    ∀ convId share, CarriesShare C me (stateAfter C me es) convId share buf →
      (stateAfter C me es).adoptedEpoch convId < share.1 →
      (stateAfter C me (es ++ [.message buf])).adoptedEpoch convId = share.1 ∧
      (stateAfter C me (es ++ [.message buf])).getCurrentKey convId = some share.2 ∧
      ((dispatch C me buf (stateAfter C me es)).result.isSome →
        StartedChain me convId (step C me (.message buf) (stateAfter C me es)).output
          (stateAfter C me (es ++ [.message buf]))) := by
  rw [stateAfter_concat]
  constructor
  · exact fun _ _ htype hinfo hcreator => step_memberInfo_spec es hopen htype hinfo hcreator
  · intro convId share hshare hnewer
    have hdispatch : dispatch C me buf (stateAfter C me es)
        = handleKeyShare C me buf (stateAfter C me es) := dispatch_of_type C me hshare.1 _
    obtain ⟨hholds, hchain⟩ := keyShare_spec hshare hnewer
    have hpos : share.1 ≠ 0 := Nat.ne_of_gt (Nat.zero_lt_of_lt hnewer)
    rw [step_message_of_type C me hopen hshare.1, hdispatch]
    exact ⟨(hholds.epochs hpos).1, hholds.key,
      fun hdone => StartedChain.of_holds hholds hpos (hchain hdone)⟩

/-- Member 2 has the group key of member 1, which was the creator. -/
def followerEvents : List Event := joinedEvents ++ [.message (founderShare 1 1)]

/-- The creator leaves: its successor rotates, and sends on a new chain. -/
theorem departure_rotates_successor :
    (stateAfter sumCrypto (sumIdentity 2) followerEvents).adoptedEpoch 5
        < (stateAfter sumCrypto (sumIdentity 2)
            (followerEvents ++ [.message (sumMemberInfo 5 2 true [2, 3])])).adoptedEpoch 5 ∧
      StartedChain (sumIdentity 2) 5
        (step sumCrypto (sumIdentity 2) (.message (sumMemberInfo 5 2 true [2, 3]))
          (stateAfter sumCrypto (sumIdentity 2) followerEvents)).output
        (stateAfter sumCrypto (sumIdentity 2)
          (followerEvents ++ [.message (sumMemberInfo 5 2 true [2, 3])])) := by
  have hrot : RotatesOn sumCrypto (sumIdentity 2)
      (stateAfter sumCrypto (sumIdentity 2) followerEvents)
      ⟨TYPE_MEMBER_INFO, 5, 2, bytesBE 65 9, true, sumRoster [2, 3]⟩
      (bytesBE 65 9) := by
    decide +kernel
  obtain ⟨hiff, hnew, -⟩ := (@departure_rotates_iff sumCrypto (sumIdentity 2) followerEvents
    (sumMemberInfo 5 2 true [2, 3]) (by decide +kernel)).1
    ⟨TYPE_MEMBER_INFO, 5, 2, bytesBE 65 9, true, sumRoster [2, 3]⟩ (bytesBE 65 9)
    (by decide +kernel) (by decide +kernel) rfl
  exact ⟨hiff.mpr hrot, (hnew hrot).2.2 (by decide +kernel)⟩

/-! ### Departures in the system -/

namespace Network

variable (S : Setup)

theorem client_stepClient (i j : ℕ) (e : Event) (N : Network) :
    (N.stepClient C S i e).client j
      = if j = i then (DartProtocol.step C (S.ids i) e (N.client i)).state else N.client j := by
  show Function.update N.client i (DartProtocol.step C (S.ids i) e (N.client i)).state j = _
  rw [Function.update_apply]

/-- Every client of the system is where a run of its own leads. -/
theorem exists_run (ms : List NetEvent) (j : ℕ) :
    ∃ es, (stateAfter C S ms).client j = DartProtocol.stateAfter C (S.ids j) es := by
  induction ms using List.reverseRecOn with
  | nil => exact ⟨[], rfl⟩
  | append_singleton ms m ih =>
    obtain ⟨es, hes⟩ := ih
    have hclient : ∀ (i : ℕ) (e : Event) (N : Network), N.client = (stateAfter C S ms).client →
        ∃ es', (N.stepClient C S i e).client j = DartProtocol.stateAfter C (S.ids j) es' := by
      intro i e N hN
      rw [client_stepClient, hN]
      split
      · rename_i hj
        subst hj
        exact ⟨es ++ [e], by rw [hes, stateAfter_concat]⟩
      · exact ⟨es, hes⟩
    rw [show stateAfter C S (ms ++ [m]) = step C S m (stateAfter C S ms) from List.foldl_concat ..]
    cases m with
    | client i e => exact hclient i e _ rfl
    | server e => exact ⟨es, hes⟩
    | serve i now =>
      rw [step]
      split <;> exact ⟨es, hes⟩
    | deliver i =>
      rw [step]
      split
      · exact ⟨es, hes⟩
      · exact hclient i _ _ rfl

/-- **Departures in the system.**  Whatever clients, server and links have done before, when a roster
that names client `i` creator comes off its link, the client starts a new epoch exactly when
`RotatesOn` holds; otherwise its group key and its own chains stay those that the departed member has.
No other client does anything. -/
theorem deliver_rotates_iff (ms : List NetEvent) {i : ℕ} {buf : Buffer} {rest : List Buffer}
    (hdown : (stateAfter C S ms).down i = buf :: rest)
    (hopen : ((stateAfter C S ms).client i).closed = false)
    (htype : buf.readUInt8 0 = some TYPE_MEMBER_INFO) {info : MemberInfo} {serverPub : Buffer}
    (hinfo : openMemberInfo C (S.ids i) ((stateAfter C S ms).client i) buf
      = some (some (info, serverPub))) (hcreator : info.creator = true) :
    let s := (stateAfter C S ms).client i
    let t := (stateAfter C S (ms ++ [.deliver i])).client i
    (s.adoptedEpoch info.convId < t.adoptedEpoch info.convId ↔
        RotatesOn C (S.ids i) s info serverPub) ∧
      (¬ RotatesOn C (S.ids i) s info serverPub →
        t.getCurrentKey info.convId = s.getCurrentKey info.convId ∧
        ∀ epoch, t.getChain info.convId epoch (S.ids i).senderId
          = s.getChain info.convId epoch (S.ids i).senderId) ∧
      ∀ j, j ≠ i → (stateAfter C S (ms ++ [.deliver i])).client j = (stateAfter C S ms).client j := by
  have hstep : stateAfter C S (ms ++ [.deliver i]) = stepClient C S i (.message buf)
      { stateAfter C S ms with down := Function.update (stateAfter C S ms).down i rest } := by
    rw [show stateAfter C S (ms ++ [.deliver i]) = step C S (.deliver i) (stateAfter C S ms) from
      List.foldl_concat .., step, hdown]
  obtain ⟨es, hes⟩ := exists_run (C := C) S ms i
  simp only [hstep, client_stepClient, if_true]
  refine ⟨?_, ?_, fun j hj => if_neg hj⟩
  · rw [hes] at hopen hinfo ⊢
    exact (step_memberInfo_spec es hopen htype hinfo hcreator).1
  · rw [hes] at hopen hinfo ⊢
    exact (step_memberInfo_spec es hopen htype hinfo hcreator).2.2

end Network

/-- Members 1, 2 and 3 join, and every frame is handled. -/
def threeMembers : List NetEvent :=
  Network.joins 1 5 ++ Network.rounds [1, 2, 3] 2 ++ Network.joins 2 5 ++
    Network.rounds [1, 2, 3] 4 ++ Network.joins 3 5 ++ Network.rounds [1, 2, 3] 6

/-- The connection of member 3 closes, and every frame that follows is handled. -/
def thirdLeaves : List NetEvent :=
  threeMembers ++ [.server (.removePeer "tcp:3")] ++ Network.rounds [1, 2, 3] 3

/-- **The creator stays, and nothing is renewed.**  Member 3 leaves, the server strikes it, and members
1 and 2 handle the new roster; nothing is on the way any more.  Both still have the group key that 3
has, and the own chains of which 3 has the state, so 3 reads what member 1 sends next. -/
theorem departed_member_keeps_access :
    let before := Network.stateAfter sumCrypto Network.sumSetup threeMembers
    let after := Network.stateAfter sumCrypto Network.sumSetup thirdLeaves
    let sent := Network.stateAfter sumCrypto Network.sumSetup
      (thirdLeaves ++ [.client 1 (.sendData 5 "after")])
    (before.client 1).isCreator.get 5 = some true ∧
      ((before.client 1).roster.get 5).map (·.keys) = some [1, 2, 3] ∧
      (after.server.members.get 5).map (·.keys) = some [1, 2] ∧
      ((after.client 1).roster.get 5).map (·.keys) = some [1, 2] ∧
      ((after.client 2).roster.get 5).map (·.keys) = some [1, 2] ∧
      (∀ i ∈ [1, 2, 3], after.up i = [] ∧ after.down i = []) ∧
      (after.client 1).adoptedEpoch 5 = 1 ∧
      (∀ i ∈ [1, 2], (after.client i).getCurrentKey 5 = (before.client 3).getCurrentKey 5 ∧
        (after.client i).getChain 5 1 i = (before.client 3).getChain 5 1 i ∧
        ((before.client 3).getChain 5 1 i).isSome) ∧
      ((before.client 3).getCurrentKey 5).isSome ∧
      (sent.up 1).any fun dart =>
        (openData sumCrypto (before.client 3) dart 1).any Option.isSome := by
  decide +kernel

end DartProtocol
