import DartProtocol.Departure
import DartProtocol.MessageKeys
import DartProtocol.ShareDelivery

/-!
# Adopting a key, event by event

A client enters a group key on three occasions: a share that it takes over, a roster that makes it
found or rotate the key of a group, and the rotation timer.  Each of them runs `adoptKey`, which
enters the key and then shares it, starts an own chain, and shares that; an exception on the way keeps
what was done so far.  No event enters more than one key, and `adoptionOf` says which one.

* `Adoption.final` — what is left of the keys and chains, exceptions included;
* `outcome_of_serves`, `outcome_of_not_serves` — a key that cannot be shared is entered without a
  chain;
* `step_adopts`, `step_advances`, `step_keepsEpochs` — an event with an adoption leaves exactly that;
  an event without one leaves the epochs, the keys and the seeds alone, and moves own chains forward
  only, unless it is a chain share.
-/

namespace DartProtocol

open Prog

variable {C : Crypto} {me : Identity}

/-! ### Epochs, keys and chains -/

/-- The epochs, the group keys and the seeds of own chains. -/
def Client.epochKeys (s : Client) := (s.currentEpochs, s.adoptedEpochs, s.roomKeys, s.chainSeeds)

/-- The same with all chains. -/
def Client.keyring (s : Client) := (s.epochKeys, s.senderChains)

def KeepsKeyring : Client → List Output → Client → Prop := fun s _ t => t.keyring = s.keyring

theorem keepsKeyring_background : Background KeepsKeyring where
  comp := ⟨fun _ => rfl, fun h h' => Eq.trans h' h⟩
  bookkeeping := by
    intro s t (h : t.core = s.core)
    show t.core.keyring = s.core.keyring
    rw [h]
  broadcast := fun _ _ _ => rfl

theorem shareWithNewMembers_keyring (convId : ℕ) :
    Obeys KeepsKeyring (shareWithNewMembers C me convId) :=
  shareWithNewMembers_obeys keepsKeyring_background (fun _ _ => rfl) convId fun _ _ _ _ _ => rfl

theorem shareChainWithMembers_keyring (convId epoch : ℕ) :
    Obeys KeepsKeyring (shareChainWithMembers C me convId epoch) :=
  fun _ => shareChainWithMembers_obeysAt keepsKeyring_background (fun _ _ => rfl)
    (fun _ _ _ _ => rfl) fun _ _ _ _ _ _ => rfl

/-- The end of a roster: the own chain is shared, and the next rotation scheduled. -/
theorem shareChain_keyring (convId : ℕ) :
    Obeys KeepsKeyring (do
      let t ← Prog.get
      shareChainWithMembers C me convId (t.sendingEpoch convId)
      scheduleRekey convId : ClientProg Unit) := by
  have hB := keepsKeyring_background
  refine .get_bind fun t => ?_
  refine .bind hB.comp (shareChainWithMembers_keyring _ _) fun _ => ?_
  exact hB.modify fun _ => rfl

/-! ### One adoption -/

/-- A key that is about to be entered. -/
structure Adoption where
  /-- The state at that moment. -/
  base : Client
  convId : ℕ
  epoch : ℕ
  key : Buffer
  /-- A rotation ends with forgetting old epochs. -/
  rotates : Bool

namespace Adoption

/-- The key is entered before anything else happens. -/
def entered (a : Adoption) : Client := installKey a.convId a.epoch a.key a.base

/-- What `adoptKey` does. -/
def outcome (C : Crypto) (me : Identity) (a : Adoption) : Outcome Client Output Unit :=
  announceKey C me a.convId a.epoch a.entered

/-- The group key that was entered can be shared with everybody in the roster. -/
def Serves (C : Crypto) (me : Identity) (a : Adoption) : Prop :=
  (shareWithNewMembers C me a.convId a.entered).result.isSome

instance (a : Adoption) : Decidable (a.Serves C me) := by
  unfold Serves
  infer_instance

/-- The state that an adoption leaves behind.  Old epochs are forgotten only when nothing failed. -/
def final (C : Crypto) (me : Identity) (a : Adoption) : Client :=
  if a.rotates ∧ (a.outcome C me).result.isSome then pruneEpochs a.convId (a.outcome C me).state
  else (a.outcome C me).state

theorem final_of_not_rotates {a : Adoption} (h : a.rotates = false) :
    a.final C me = (a.outcome C me).state := by
  rw [final, if_neg fun hr => by simp [h] at hr]

end Adoption

variable {s : Client} {a : Adoption} {o : Option Adoption}

/-- Entering a chain changes the keyring only, and by the keyring only. -/
theorem startChain_keyring {t : Client} (h : t.keyring = s.keyring) (convId epoch : ℕ)
    (seed : Buffer) :
    (startChain me convId epoch seed t).keyring = (startChain me convId epoch seed s).keyring := by
  simp only [Client.keyring, Client.epochKeys, Prod.mk.injEq] at h ⊢
  obtain ⟨⟨hcur, had, hkeys, hseeds⟩, hchains⟩ := h
  refine ⟨⟨hcur, had, hkeys, ?_⟩, ?_⟩
  · show set₂ t.chainSeeds convId epoch _ = set₂ s.chainSeeds convId epoch _
    rw [hseeds]
  · show (t.setChain convId epoch me.senderId ⟨seed, 0⟩).senderChains
      = (s.setChain convId epoch me.senderId ⟨seed, 0⟩).senderChains
    rw [Client.setChain, Client.setChain, hchains]

/-- **A key that cannot be shared** is entered all the same, and nothing else. -/
theorem outcome_of_not_serves (h : ¬ a.Serves C me) :
    (a.outcome C me).result = none ∧ (a.outcome C me).state.keyring = a.entered.keyring := by
  have hres : (shareWithNewMembers C me a.convId a.entered).result = none := by
    simpa [Adoption.Serves] using h
  rw [Adoption.outcome, announceKey, bind_of_none hres]
  exact ⟨rfl, shareWithNewMembers_keyring a.convId a.entered⟩

theorem outcome_of_serves (h : a.Serves C me) :
    ∃ seed, (a.outcome C me).state.keyring
      = (startChain me a.convId a.epoch seed a.entered).keyring := by
  obtain ⟨u, hu⟩ := Option.isSome_iff_exists.mp h
  have hB := keepsKeyring_background
  obtain ⟨t, ht⟩ : ∃ t, t = (shareWithNewMembers C me a.convId a.entered).state := ⟨_, rfl⟩
  have hkeep : t.keyring = a.entered.keyring := by
    rw [ht]
    exact shareWithNewMembers_keyring a.convId a.entered
  refine ⟨me.random t.draws 32, ?_⟩
  rw [← startChain_keyring hkeep, Adoption.outcome, announceKey, bind_of_some hu, ← ht,
    Outcome.prepend_state]
  -- from the new chain on, sharing and scheduling keep the keyring
  refine after_bind (P := fun v : Client => v.keyring = _) ?_ fun _ v hv => hv
  rw [initOwnChain, randomBytes_bind, modify_bind, emit_bind, Outcome.prepend_state]
  exact shareChainWithMembers_keyring a.convId a.epoch _

/-- What sharing finds when a key was entered: the key, its epoch, and nobody marked. -/
theorem Adoption.entered_fields (a : Adoption) (hpos : a.epoch ≠ 0) :
    a.entered.getCurrentKey a.convId = some a.key ∧ a.entered.sendingEpoch a.convId = a.epoch ∧
      (a.entered.sharedWith.get a.convId).getD ∅ = ∅ := by
  have hholds := holds_installKey a.base a.convId a.key hpos
  refine ⟨hholds.key, (hholds.epochs hpos).2, ?_⟩
  show ((a.base.sharedWith.set a.convId ∅).get a.convId).getD ∅ = ∅
  rw [InsertionMap.get_set_self, Option.getD_some]

/-- **Sharing a key that was entered** goes through exactly when every other member can be given it. -/
theorem serves_iff (hC : C.Lawful) (hbody : LengthPreserving C) (hme : me.Lawful) {a : Adoption}
    (hkey : a.key.length = 32) (hpos : a.epoch ≠ 0) :
    a.Serves C me ↔ ∀ m pub, get₂ a.base.roster a.convId m = some pub → m ≠ me.senderId →
      CanShare C me a.convId a.epoch m pub := by
  obtain ⟨hkeyOf, hepoch, hdone⟩ := a.entered_fields hpos
  rw [Adoption.Serves, shareWithNewMembers_returns_iff hC hbody hme hkeyOf hkey, hepoch, hdone]
  simp only [Finset.notMem_empty, not_false_eq_true, forall_const]
  exact Iff.rfl

/-- Nothing after the key is shared can fail: the own chain goes to the same members. -/
theorem outcome_returns_iff (hC : C.Lawful) (hbody : LengthPreserving C) (hme : me.Lawful)
    {a : Adoption} (hkey : a.key.length = 32) (hpos : a.epoch ≠ 0) :
    (a.outcome C me).result.isSome ↔ ∀ m pub, get₂ a.base.roster a.convId m = some pub →
      m ≠ me.senderId → CanShare C me a.convId a.epoch m pub := by
  rw [← serves_iff hC hbody hme hkey hpos]
  refine ⟨fun h => ?_, fun h => ?_⟩
  · by_contra hno
    rw [(outcome_of_not_serves hno).1] at h
    cases h
  · have hcan := (serves_iff hC hbody hme hkey hpos).mp h
    have hrooms : (shareWithNewMembers C me a.convId a.entered).state.rooms = a.entered.rooms :=
      shareWithNewMembers_obeys keepsRooms_background (fun _ _ => rfl) a.convId
        (fun _ _ _ _ _ => rfl) a.entered
    have hroster := congrArg (fun v => v.1) hrooms
    obtain ⟨u, hu⟩ := Option.isSome_iff_exists.mp h
    rw [Adoption.outcome, announceKey, bind_of_some hu, Outcome.prepend_result]
    generalize (shareWithNewMembers C me a.convId a.entered).state = t at hroster ⊢
    have hchain : (initOwnChain C me a.convId a.epoch t).result.isSome := by
      rw [initOwnChain, randomBytes_bind, modify_bind, emit_bind, Outcome.prepend_result]
      refine shareChainWithMembers_returns hC hbody hme ?_ ?_
      · intro st hst
        have hst : (t.setChain a.convId a.epoch me.senderId ⟨me.random t.draws 32, 0⟩).getChain
          a.convId a.epoch me.senderId = some st := hst
        rw [Client.getChain_setChain_self] at hst
        cases hst
        exact ⟨hme _ _, Nat.two_pow_pos 32⟩
      · intro m pub hpub
        exact hcan m pub (by rw [← hpub]; exact congrArg (fun r => get₂ r a.convId m) hroster.symm)
    obtain ⟨v, hv⟩ := Option.isSome_iff_exists.mp hchain
    rw [bind_of_some hv]
    rfl

/-- Rotating on a roster, in terms of the members who are new to the key. -/
theorem rotatesOn_iff (hC : C.Lawful) (hbody : LengthPreserving C) (hme : me.Lawful) {s : Client}
    {info : MemberInfo} {serverPub key : Buffer} (hkey : s.getCurrentKey info.convId = some key)
    (hlen : key.length = 32) :
    RotatesOn C me s info serverPub ↔ s.adoptedEpoch info.convId = 0 ∨
      ((s.isCreator.get info.convId).getD false = false ∧
        ∀ m pub, get₂ (installRoster info serverPub s).roster info.convId m = some pub →
          m ≠ me.senderId →
          m ∉ ((installRoster info serverPub s).sharedWith.get info.convId).getD ∅ →
          CanShare C me info.convId (s.sendingEpoch info.convId) m pub) := by
  have hsame : (installRoster info serverPub s).getCurrentKey info.convId = some key := hkey
  rw [RotatesOn, shareWithNewMembers_returns_iff hC hbody hme hsame hlen]
  exact Iff.rfl

/-! ### Which key an event enters -/

/-- A key drawn for an epoch. -/
def Adoption.drawn (me : Identity) (convId epoch : ℕ) (rotates : Bool) (s : Client) : Adoption where
  base := { s with draws := s.draws + 1 }
  convId := convId
  epoch := epoch
  key := me.random s.draws 32
  rotates := rotates

/-- The rotation of a creator. -/
def rotation (me : Identity) (convId : ℕ) (s : Client) : Option Adoption :=
  if s.isCreator.get convId = some true then
    some (Adoption.drawn me convId (s.sendingEpoch convId + 1) true s)
  else none

/-- A group-key share that is taken over. -/
def keyShareAdoption (C : Crypto) (me : Identity) (buf : Buffer) (s : Client) : Option Adoption := do
  let opened ← shareTransportKey C me s buf
  let (convId, transportKey) ← opened
  let (epoch, key) ← Codec.decodeKeyShare C buf transportKey
  if shouldAdopt s convId epoch key then some { base := s, convId, epoch, key, rotates := false }
  else none

/-- What follows a roster that was just taken over: a creator without a key founds the group, a member
that became the creator rotates once it has shared the old key. -/
def foundation (C : Crypto) (me : Identity) (info : MemberInfo) (prevCreator : Bool) (s : Client) :
    Option Adoption :=
  if s.adoptedEpoch info.convId = 0 then
    if info.creator then some (Adoption.drawn me info.convId 1 false s) else none
  else if info.creator && !prevCreator then
    let shared := shareWithNewMembers C me info.convId s
    shared.result.bind fun _ => rotation me info.convId shared.state
  else none

def rosterAdoption (C : Crypto) (me : Identity) (buf : Buffer) (s : Client) : Option Adoption := do
  let opened ← openMemberInfo C me s buf
  let (info, serverPubKey) ← opened
  foundation C me info ((s.isCreator.get info.convId).getD false) (installRoster info serverPubKey s)

/-- **The key that an event enters.** -/
def adoptionOf (C : Crypto) (me : Identity) (s : Client) : Event → Option Adoption
  | .message buf =>
    if s.closed then none
    else if buf.readUInt8 0 = some TYPE_KEY_SHARE then keyShareAdoption C me buf s
    else if buf.readUInt8 0 = some TYPE_MEMBER_INFO then rosterAdoption C me buf s
    else none
  | .rekeyTimer =>
    s.rekeyTimer.bind fun convId => rotation me convId { s with rekeyTimer := none }
  | _ => none

/-! ### What an event leaves behind -/

/-- The keys and chains after an adoption, if there is one. -/
def Settles (C : Crypto) (me : Identity) (o : Option Adoption) (s t : Client) : Prop :=
  match o with
  | none => t.keyring = s.keyring
  | some a => a.base.keyring = s.keyring ∧ t.keyring = (a.final C me).keyring

theorem Settles.mono {t s' t' : Client} (h : Settles C me o s t)
    (hs : s.keyring = s'.keyring) (ht : t'.keyring = t.keyring) : Settles C me o s' t' := by
  cases o with
  | none => exact ht.trans (Eq.trans h hs)
  | some a => exact ⟨h.1.trans hs, ht.trans h.2⟩

/-- A rotation runs `adoptKey` and forgets old epochs when that returns. -/
theorem rekey_settles (convId : ℕ) (s : Client) :
    Settles C me (rotation me convId s) s (rekey C me convId s).state := by
  rw [rekey, get_bind, rotation]
  by_cases hcreator : s.isCreator.get convId = some true
  · rw [if_pos hcreator, if_pos hcreator]
    refine ⟨rfl, ?_⟩
    rw [randomBytes_bind]
    obtain ⟨a, ha⟩ : ∃ a, a = Adoption.drawn me convId (s.sendingEpoch convId + 1) true s := ⟨_, rfl⟩
    have hrun : adoptKey C me convId (s.sendingEpoch convId + 1) (me.random s.draws 32)
        { s with draws := s.draws + 1 } = a.outcome C me := by
      rw [ha]
      rfl
    rw [← ha, Adoption.final]
    cases hres : (a.outcome C me).result with
    | none =>
      rw [bind_of_none (by rw [hrun, hres]), hrun, if_neg (by simp)]
    | some u =>
      rw [bind_of_some (by rw [hrun, hres]), hrun, if_pos ⟨by rw [ha]; rfl, rfl⟩, ha]
      rfl
  · rw [if_neg hcreator, if_neg hcreator]
    rfl

theorem handleKeyShare_settles (buf : Buffer) (s : Client) :
    Settles C me (keyShareAdoption C me buf s) s (handleKeyShare C me buf s).state := by
  rw [handleKeyShare, get_bind, keyShareAdoption]
  rcases hopen : shareTransportKey C me s buf with _ | _ | ⟨convId, transportKey⟩
  · rfl
  · rfl
  rw [ofOption_some_bind]
  simp only [Option.bind_eq_bind, Option.bind_some]
  rcases hdec : Codec.decodeKeyShare C buf transportKey with _ | ⟨epoch, key⟩
  · rfl
  · simp only [Option.bind_some]
    split
    · refine ⟨rfl, ?_⟩
      rw [Adoption.final_of_not_rotates rfl]
      rfl
    · rfl

theorem settles_shareChain {m : ClientProg Unit} (convId : ℕ) (h : Settles C me o s (m s).state) :
    Settles C me o s ((m >>= fun _ => do
      let t ← Prog.get
      shareChainWithMembers C me convId (t.sendingEpoch convId)
      scheduleRekey convId : ClientProg Unit) s).state :=
  after_bind h fun _ t ht => ht.mono rfl (shareChain_keyring convId t)

theorem afterRoster_settles (info : MemberInfo) (prev : Bool)
    (s : Client) :
    Settles C me (foundation C me info prev s) s (afterRoster C me info prev s).state := by
  rw [afterRoster, get_bind, ← Client.adoptedEpoch, foundation]
  by_cases hzero : s.adoptedEpoch info.convId = 0
  · have hrotate : rotateIfElected C me info prev (s.adoptedEpoch info.convId) = pure () := by
      rw [rotateIfElected, if_neg (by simp [hzero])]
    rw [hrotate, if_pos hzero, hzero]
    by_cases hcreator : info.creator = true
    · -- the key is drawn and adopted, and there is nothing to rotate
      rw [if_pos hcreator, foundOrShare, hcreator]
      refine settles_shareChain info.convId ⟨rfl, ?_⟩
      rw [Adoption.final_of_not_rotates rfl]
      rfl
    · rw [if_neg hcreator, foundOrShare, if_neg (by simp [hcreator]), if_neg (by simp)]
      exact settles_shareChain info.convId rfl
  · have hshare : foundOrShare C me info (s.adoptedEpoch info.convId)
        = shareWithNewMembers C me info.convId := by
      rw [foundOrShare, if_neg (by simp [hzero]), if_pos hzero]
    have hkeep := @shareWithNewMembers_keyring C me info.convId s
    rw [hshare, if_neg hzero, rotateIfElected]
    by_cases helected : (info.creator && !prev) = true
    · rw [if_pos helected, if_pos (by simp [helected, hzero])]
      simp only
      cases hres : (shareWithNewMembers C me info.convId s).result with
      | none =>
        rw [bind_of_none hres]
        exact hkeep
      | some u =>
        rw [bind_of_some hres, Option.bind_some]
        exact (settles_shareChain info.convId (rekey_settles info.convId _)).mono hkeep rfl
    · have hno : ¬ (info.creator && !prev && decide (s.adoptedEpoch info.convId ≠ 0)) = true :=
        fun h => helected (Bool.and_eq_true_iff.mp h).1
      rw [if_neg helected, if_neg hno]
      exact settles_shareChain info.convId hkeep

theorem handleMemberInfo_settles (buf : Buffer) (s : Client) :
    Settles C me (rosterAdoption C me buf s) s (handleMemberInfo C me buf s).state := by
  rcases hopen : openMemberInfo C me s buf with _ | _ | ⟨info, serverPubKey⟩
  · rw [handleMemberInfo, get_bind, rosterAdoption, hopen]
    rfl
  · rw [handleMemberInfo, get_bind, rosterAdoption, hopen]
    rfl
  · have hadopt : rosterAdoption C me buf s = foundation C me info
        ((s.isCreator.get info.convId).getD false) (installRoster info serverPubKey s) := by
      rw [rosterAdoption, hopen]
      rfl
    rw [hadopt, handleMemberInfo_run hopen]
    exact (afterRoster_settles info _ _).mono rfl rfl

/-- **An event that enters a key** leaves what its adoption leaves. -/
theorem step_adopts {e : Event} (h : adoptionOf C me s e = some a) :
    a.base.keyring = s.keyring ∧ (step C me e s).state.keyring = (a.final C me).keyring := by
  cases e with
  | message buf =>
    rw [adoptionOf] at h
    split_ifs at h with hclosed hkey hinfo
    · rw [step_message_of_type C me (by simpa using hclosed) hkey]
      have hsettles := @handleKeyShare_settles C me buf s
      rw [h] at hsettles
      exact hsettles
    · rw [step_message_of_type C me (by simpa using hclosed) hinfo]
      have hsettles := @handleMemberInfo_settles C me buf s
      rw [h] at hsettles
      exact hsettles
  | rekeyTimer =>
    obtain ⟨convId, htimer, hrotation⟩ := Option.bind_eq_some_iff.mp h
    have hsettles := @rekey_settles C me convId { s with rekeyTimer := none }
    rw [hrotation] at hsettles
    rw [step_rekeyTimer, htimer]
    exact hsettles
  | _ => cases h

/-! ### Which chain an event starts -/

/-- Every chain that was started belongs to the key that is entered. -/
def StartedBy (o : Option Adoption) : Client → List Output → Client → Prop := fun _ os _ =>
  ∀ start ∈ chainStarts os, ∃ a ∈ o, a.convId = start.1 ∧ a.epoch = start.2.1

theorem StartedBy.of_none {t : Client} {os : List Output} (h : chainStarts os = []) :
    StartedBy o s os t := by
  intro start hstart
  rw [h] at hstart
  cases hstart

theorem startedBy_flow : FlowRules C (StartedBy o) := by
  have hB : Background (StartedBy o) := by
    refine ⟨⟨fun _ => .of_none rfl, ?_⟩, fun _ _ _ => .of_none rfl, fun _ _ _ => .of_none rfl⟩
    intro s t u os os' h h' start hstart
    rw [chainStarts_append, List.mem_append] at hstart
    exact hstart.elim (h start) (h' start)
  refine ⟨hB, fun senderId => ?_, fun _ _ => .of_none rfl, fun _ _ => .of_none rfl,
    fun _ _ => .of_none rfl, fun _ _ => .of_none rfl⟩
  exact .of_rest hB (fun _ _ _ => .of_none rfl) (fun _ _ => .of_none rfl) (fun _ _ => .of_none rfl)
    fun _ _ _ _ _ => .of_none rfl

theorem shareWithNewMembers_startedBy (convId : ℕ) :
    Obeys (StartedBy o) (shareWithNewMembers C me convId) :=
  shareWithNewMembers_obeys (startedBy_flow (C := C)).toBackground (fun _ _ => .of_none rfl) convId
    fun _ _ _ _ _ => .of_none rfl

theorem shareChainWithMembers_startedBy (convId epoch : ℕ) :
    Obeys (StartedBy o) (shareChainWithMembers C me convId epoch) :=
  fun _ => shareChainWithMembers_obeysAt (startedBy_flow (C := C)).toBackground
    (fun _ _ => .of_none rfl) (fun _ _ _ _ => .of_none rfl) fun _ _ _ _ _ _ => .of_none rfl

theorem adoptKey_startedBy {convId epoch : ℕ} (h : ∃ a ∈ o, a.convId = convId ∧ a.epoch = epoch)
    (key : Buffer) : Obeys (StartedBy o) (adoptKey C me convId epoch key) := by
  have hB := (startedBy_flow (C := C) (o := o)).toBackground
  unfold adoptKey announceKey initOwnChain
  refine .bind hB.comp (.modify fun _ => .of_none rfl) fun _ => ?_
  refine .bind hB.comp (shareWithNewMembers_startedBy convId) fun _ => ?_
  refine .bind hB.comp ?_ fun _ => hB.modify fun _ => rfl
  refine .bind hB.comp (randomBytes_obeys hB 32) fun seed => ?_
  refine .bind hB.comp (.modify fun _ => .of_none rfl) fun _ => ?_
  refine .bind hB.comp (.emit fun _ start hstart => ?_) fun _ =>
    shareChainWithMembers_startedBy convId epoch
  rw [List.mem_singleton.mp hstart]
  exact h

theorem rekey_startedBy {convId : ℕ} (h : rotation me convId s = o) :
    ObeysAt (StartedBy o) (rekey C me convId) s := by
  have hB := (startedBy_flow (C := C) (o := o)).toBackground
  unfold ObeysAt rekey
  rw [get_bind]
  split
  · rename_i hcreator
    rw [rotation, if_pos hcreator] at h
    refine Obeys.bind hB.comp (randomBytes_obeys hB 32) (fun key => ?_) s
    refine Obeys.bind hB.comp (adoptKey_startedBy ⟨_, h.symm, rfl, rfl⟩ key) fun _ => ?_
    exact .modify fun _ => .of_none rfl
  · exact hB.comp.refl s

theorem handleKeyShare_startedBy {buf : Buffer} (h : keyShareAdoption C me buf s = o) :
    ObeysAt (StartedBy o) (handleKeyShare C me buf) s := by
  have hB := (startedBy_flow (C := C) (o := o)).toBackground
  unfold ObeysAt handleKeyShare
  rw [get_bind]
  rw [keyShareAdoption] at h
  rcases hopen : shareTransportKey C me s buf with _ | _ | ⟨convId, transportKey⟩
  · exact hB.comp.refl s
  · exact hB.comp.refl s
  rw [ofOption_some_bind]
  simp only [hopen, Option.bind_eq_bind, Option.bind_some] at h ⊢
  rcases hdec : Codec.decodeKeyShare C buf transportKey with _ | ⟨epoch, key⟩
  · exact hB.comp.refl s
  simp only [hdec, Option.bind_some] at h ⊢
  split at h
  · rename_i hadopt
    rw [if_pos hadopt]
    exact adoptKey_startedBy ⟨_, h.symm, rfl, rfl⟩ key s
  · rename_i hadopt
    rw [if_neg hadopt]
    exact hB.comp.refl s

theorem afterRoster_startedBy {info : MemberInfo} {prev : Bool}
    (h : foundation C me info prev s = o) :
    ObeysAt (StartedBy o) (afterRoster C me info prev) s := by
  have hB := (startedBy_flow (C := C) (o := o)).toBackground
  unfold ObeysAt afterRoster
  rw [get_bind, ← Client.adoptedEpoch]
  rw [foundation] at h
  have hend : Obeys (StartedBy o) (do
      let t ← Prog.get
      shareChainWithMembers C me info.convId (t.sendingEpoch info.convId)
      scheduleRekey info.convId : ClientProg Unit) := by
    refine .get_bind fun t => ?_
    refine .bind hB.comp (shareChainWithMembers_startedBy _ _) fun _ => ?_
    exact hB.modify fun _ => rfl
  have hrotate : s.adoptedEpoch info.convId = 0 →
      rotateIfElected C me info prev (s.adoptedEpoch info.convId) = pure () := fun hzero => by
    rw [rotateIfElected, if_neg (by simp [hzero])]
  split_ifs at h with hzero hcreator helected
  · rw [hrotate hzero, foundOrShare, if_pos (by simp [hcreator, hzero])]
    refine ObeysAt.bind hB.comp (Obeys.bind hB.comp (randomBytes_obeys hB 32) (fun key => ?_) s)
      fun _ _ => hend _
    exact adoptKey_startedBy ⟨_, h.symm, rfl, rfl⟩ key
  · rw [hrotate hzero, foundOrShare, if_neg (by simp [hcreator]), if_neg (by simp [hzero])]
    exact hend s
  · rw [foundOrShare, if_neg (by simp [hzero]), if_pos hzero, rotateIfElected,
      if_pos (by simp [helected, hzero])]
    refine ObeysAt.bind hB.comp (shareWithNewMembers_startedBy _ s) fun u hu => ?_
    refine ObeysAt.bind hB.comp (rekey_startedBy ?_) fun _ _ => hend _
    simp only [hu, Option.bind_some] at h
    exact h
  · rw [foundOrShare, if_neg (by simp [hzero]), if_pos hzero, rotateIfElected,
      if_neg fun h' => helected (Bool.and_eq_true_iff.mp h').1]
    exact ObeysAt.bind hB.comp (shareWithNewMembers_startedBy _ s) fun _ _ => hend _

/-- **An event starts a chain** only for the key that it enters. -/
theorem step_startedBy (e : Event) :
    StartedBy (adoptionOf C me s e) s (step C me e s).output (step C me e s).state := by
  have hF := startedBy_flow (C := C) (o := adoptionOf C me s e)
  have hB := hF.toBackground
  refine step_obeysAt_with hB (fun _ => .of_none rfl) (fun _ _ _ => ?_) ?_
    (fun i _ => hF.shareTimer i s) ?_
  · exact sendData_obeysAt hB (fun _ => .of_none rfl) (fun _ _ _ _ h => h)
      fun _ _ _ _ _ _ => .of_none rfl
  · rintro buf rfl hopen
    refine handleMessage_obeysAt hB fun type htype => ?_
    rw [adoptionOf, if_neg (by simp [hopen]), htype] at hF ⊢
    refine hF.handlerOf (fun _ => ?_) ?_ ?_ fun _ => hF.handleDictReset (fun _ => .of_none rfl) buf s
    · exact handleChainShare_obeysAt hF.toBackground fun _ _ _ _ _ => .of_none rfl
    · rintro rfl
      exact handleKeyShare_startedBy (by rw [if_pos rfl])
    · rintro rfl
      rw [if_neg (by decide), if_pos rfl]
      rcases hinfo : openMemberInfo C me s buf with _ | _ | ⟨info, serverPubKey⟩
      · unfold ObeysAt
        rw [handleMemberInfo, get_bind, hinfo]
        exact .of_none rfl
      · unfold ObeysAt
        rw [handleMemberInfo, get_bind, hinfo]
        exact .of_none rfl
      · unfold ObeysAt
        rw [handleMemberInfo_run hinfo]
        exact afterRoster_startedBy (by rw [rosterAdoption, hinfo]; rfl)
  · rintro rfl
    unfold ObeysAt
    rw [step_rekeyTimer, adoptionOf]
    cases s.rekeyTimer with
    | none => exact .of_none rfl
    | some convId => exact rekey_startedBy rfl

/-! ### Events that enter no key -/

/-- A chain state moved forward. -/
def Advanced (C : Crypto) (st st' : ChainState) : Prop :=
  st.index ≤ st'.index ∧ st'.key = chainSteps C (st'.index - st.index) st.key

theorem Advanced.refl (C : Crypto) (st : ChainState) : Advanced C st st := by
  refine ⟨le_rfl, ?_⟩
  rw [Nat.sub_self]
  rfl

theorem Advanced.trans {st₁ st₂ st₃ : ChainState} (h : Advanced C st₁ st₂)
    (h' : Advanced C st₂ st₃) : Advanced C st₁ st₃ := by
  obtain ⟨hle, hkey⟩ := h
  obtain ⟨hle', hkey'⟩ := h'
  refine ⟨hle.trans hle', ?_⟩
  rw [hkey', hkey, ← chainSteps_add]
  congr 1
  omega

theorem advanced_advanceChain {st : ChainState} {idx : ℕ} (h : st.index ≤ idx) :
    Advanced C st (advanceChain C st idx).2 := by
  rw [advanceChain_of_le C h]
  refine ⟨Nat.le_succ_of_le h, ?_⟩
  show chainSteps C (idx - st.index + 1) st.key = chainSteps C (idx + 1 - st.index) st.key
  congr 1
  omega

/-- The epochs, keys and seeds stay, and own chains move forward only. -/
def MovesOn (C : Crypto) (me : Identity) : Client → List Output → Client → Prop := fun s _ t =>
  t.epochKeys = s.epochKeys ∧ ∀ c e st, s.getChain c e me.senderId = some st →
    ∃ st', t.getChain c e me.senderId = some st' ∧ Advanced C st st'

theorem MovesOn.of_keyring {t : Client} {os : List Output} (h : t.keyring = s.keyring) :
    MovesOn C me s os t := by
  simp only [Client.keyring, Prod.mk.injEq] at h
  refine ⟨h.1, fun c e st hst => ⟨st, ?_, Advanced.refl C st⟩⟩
  rw [Client.getChain, h.2]
  exact hst

theorem movesOn_setChain {convId epoch senderId : ℕ} {st st' : ChainState}
    {os : List Output} (hget : s.getChain convId epoch senderId = some st)
    (h : Advanced C st st') : MovesOn C me s os (s.setChain convId epoch senderId st') := by
  refine ⟨rfl, fun c e st₀ hst₀ => ?_⟩
  rw [Client.getChain_setChain]
  split
  · rename_i hce
    obtain ⟨rfl, rfl, rfl⟩ := hce
    rw [hget] at hst₀
    cases hst₀
    exact ⟨st', rfl, h⟩
  · exact ⟨st₀, hst₀, Advanced.refl C st₀⟩

theorem movesOn_background : Background (MovesOn C me) where
  comp := by
    refine ⟨fun s => MovesOn.of_keyring rfl, ?_⟩
    rintro s t u os os' ⟨hkeys, hchains⟩ ⟨hkeys', hchains'⟩
    refine ⟨hkeys'.trans hkeys, fun c e st hst => ?_⟩
    obtain ⟨st₁, hst₁, hadv⟩ := hchains c e st hst
    obtain ⟨st₂, hst₂, hadv'⟩ := hchains' c e st₁ hst₁
    exact ⟨st₂, hst₂, hadv.trans hadv'⟩
  bookkeeping := fun s t h => MovesOn.of_keyring (keepsKeyring_background.bookkeeping s t h)
  broadcast := fun _ _ _ => MovesOn.of_keyring rfl

theorem MovesOn.of_rest {t : Client} (h : t.rest = s.rest) : MovesOn C me s [] t :=
  MovesOn.of_keyring (congrArg (·.keyring) h)

theorem movesOn_receive (senderId : ℕ) : ReceiveRules C (MovesOn C me) senderId := by
  refine .of_rest movesOn_background (fun _ _ => MovesOn.of_rest) (fun _ _ => MovesOn.of_keyring rfl)
    (fun _ _ => MovesOn.of_keyring rfl) ?_
  intro s buf dec s' hopen
  obtain ⟨convId, epoch, idx, chain, _, _, _, hget, hle, _, rfl⟩ := openData_eq hopen
  exact movesOn_setChain hget (advanced_advanceChain hle)

/-- What a handler of a roster or a share leaves when it enters no key. -/
theorem Settles.movesOn {t : Client} (h : Settles C me o s t)
    (ho : o = none) (os : List Output) : MovesOn C me s os t := by
  rw [ho] at h
  exact MovesOn.of_keyring h

theorem movesOn_flow : FlowRules C (MovesOn C me) where
  toBackground := movesOn_background
  receive := movesOn_receive
  ensureReceived := fun s senderId => MovesOn.of_rest (ensureReceived_rest senderId s)
  retries := fun _ _ => MovesOn.of_keyring rfl
  chainShared := fun _ _ => MovesOn.of_keyring rfl
  encoded := fun _ _ => MovesOn.of_keyring rfl

theorem handlerOf_movesOn (hopen : s.closed = false) {type : ℕ} {buf : Buffer}
    (htype : buf.readUInt8 0 = some type) (hshare : type ≠ TYPE_CHAIN_SHARE)
    (h : adoptionOf C me s (.message buf) = none) :
    ObeysAt (MovesOn C me) (handlerOf C me type buf) s := by
  rw [adoptionOf, if_neg (by simp [hopen]), htype] at h
  refine movesOn_flow.handlerOf (fun h => absurd h hshare) ?_ ?_
    fun _ => movesOn_flow.handleDictReset (fun _ => MovesOn.of_keyring rfl) buf s
  · rintro rfl
    rw [if_pos rfl] at h
    exact (handleKeyShare_settles buf s).movesOn h _
  · rintro rfl
    rw [if_neg (by decide), if_pos rfl] at h
    exact (handleMemberInfo_settles buf s).movesOn h _

/-- **An event that enters no key** and is no chain share keeps the epochs, keys and seeds, and moves
own chains forward only. -/
theorem step_advances {e : Event} (h : adoptionOf C me s e = none)
    (hshare : ∀ buf, e = .message buf → s.closed = false →
      buf.readUInt8 0 ≠ some TYPE_CHAIN_SHARE) :
    MovesOn C me s (step C me e s).output (step C me e s).state := by
  have hB : Background (MovesOn C me) := movesOn_background
  refine step_obeysAt_with hB (fun _ => MovesOn.of_keyring rfl) ?_ ?_
    (fun i _ => movesOn_flow.shareTimer i s) ?_
  · intro convId payload _
    refine sendData_obeysAt hB (fun _ => MovesOn.of_keyring rfl) ?_
      fun _ _ _ _ _ _ => MovesOn.of_keyring rfl
    intro chain hchain os t hrest
    have henter : MovesOn C me s [] (enterSent C me convId payload chain s) := by
      have hmoved : MovesOn C me s [] (s.setChain convId (s.sendingEpoch convId) me.senderId
          (advanceChain C chain chain.index).2) :=
        movesOn_setChain hchain (advanced_advanceChain le_rfl)
      exact hmoved
    exact hB.comp.trans henter hrest
  · rintro buf rfl hopen
    refine handleMessage_obeysAt hB fun type htype => ?_
    refine handlerOf_movesOn hopen htype ?_ h
    rintro rfl
    exact hshare buf rfl hopen htype
  · rintro rfl
    unfold ObeysAt
    rw [step_rekeyTimer]
    cases htimer : s.rekeyTimer with
    | none =>
      exact hB.comp.refl s
    | some convId =>
      rw [adoptionOf, htimer] at h
      exact (rekey_settles convId { s with rekeyTimer := none }).movesOn h []

/-- **An event that enters no key** keeps the epochs, the keys and the seeds. -/
theorem step_keepsEpochs {e : Event} (h : adoptionOf C me s e = none) :
    (step C me e s).state.epochKeys = s.epochKeys := by
  by_cases hshare : ∃ buf, e = .message buf ∧ buf.readUInt8 0 = some TYPE_CHAIN_SHARE
  · obtain ⟨buf, rfl, htype⟩ := hshare
    rw [step_message]
    split
    · rfl
    · rw [handleMessage_run, dispatch_of_type C me htype]
      obtain ⟨hstate, -⟩ := @handleChainShare_run C me buf s
      show (handleChainShare C me buf s).state.epochKeys = s.epochKeys
      rcases hstate with hsame | ⟨convId, key, decoded, -, -, hset⟩
      · rw [hsame]
      · rw [hset]
        rfl
  · exact (step_advances h fun buf he _ htype => hshare ⟨buf, he, htype⟩).1

end DartProtocol
