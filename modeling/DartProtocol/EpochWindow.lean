import DartProtocol.Adoption
import DartProtocol.GoAdoption
import DartProtocol.RetainedVersions
import DartProtocol.WireRoundTrip

/-!
# How long group keys are kept

Both clients keep the group keys of a conversation by epoch and forget those more than four epochs
back, but only at the end of a rotation: a member that takes over one key after another forgets
nothing.  The Go client computes `epoch + 4` in 16 bits, so that from epoch 65532 on a rotation
forgets the key it has just entered.

* `versionsOf` — what a client keeps of a conversation, as versions of a store;
* `ForgetsInTime`, `GoClient.ForgetsInTime` — what an event has to respect.

**Main result** (`old_epochs_forgotten_iff`): in every state of a run the current key is there and no
older key than four epochs back exactly when every event of the run respects this.
`old_epoch_kept_current_forgotten` are two runs in which it fails.
-/

namespace DartProtocol

open InsertionMap

/-! ### The keys of a conversation as versions -/

/-- The current epoch of a conversation and the keys kept for it. -/
def versionsOf (epochs : NumMap ℕ) (keys : NumMap (NumMap Buffer)) (convId : ℕ) : Versions Buffer :=
  ⟨epochs.get convId, (keys.get convId).getD ∅⟩

theorem has_versionsOf (epochs : NumMap ℕ) (keys : NumMap (NumMap Buffer)) (convId epoch : ℕ) :
    (versionsOf epochs keys convId).kept.has epoch = (get₂ keys convId epoch).isSome := by
  rw [versionsOf, get₂, InsertionMap.has]
  cases keys.get convId <;> rfl

theorem versionsOf_enter (epochs : NumMap ℕ) (keys : NumMap (NumMap Buffer)) (convId c epoch : ℕ)
    (key : Buffer) :
    versionsOf (epochs.set convId epoch) (set₂ keys convId epoch key) c
      = if convId = c then (versionsOf epochs keys c).enter epoch key
        else versionsOf epochs keys c := by
  rw [versionsOf, set₂, get_set, get_set]
  split
  · rename_i h
    rw [h]
    rfl
  · rfl

theorem versionsOf_forget (epochs : NumMap ℕ) {keys : NumMap (NumMap Buffer)} {convId : ℕ}
    {kept : NumMap Buffer} (h : keys.get convId = some kept) (old : ℕ → Bool) (c : ℕ) :
    versionsOf epochs (keys.set convId (kept.retain fun epoch _ => !old epoch)) c
      = if convId = c then (versionsOf epochs keys c).forget old else versionsOf epochs keys c := by
  rw [versionsOf, get_set]
  split
  · rename_i hc
    rw [versionsOf, ← hc, h]
    rfl
  · rfl

theorem versionsOf_forget_none (epochs : NumMap ℕ) {keys : NumMap (NumMap Buffer)} {convId : ℕ}
    (h : keys.get convId = none) (old : ℕ → Bool) :
    (versionsOf epochs keys convId).forget old = versionsOf epochs keys convId := by
  rw [versionsOf, h]
  rfl

/-! ### The TypeScript client -/

variable {C : Crypto} {me : Identity}

def Client.versions (s : Client) (convId : ℕ) : Versions Buffer :=
  versionsOf s.currentEpochs s.roomKeys convId

theorem Client.versions_of_epochKeys {s t : Client} (h : t.epochKeys = s.epochKeys) (c : ℕ) :
    t.versions c = s.versions c := by
  simp only [Client.epochKeys, Prod.mk.injEq] at h
  rw [Client.versions, h.1, h.2.2.1, Client.versions]

theorem versions_pruneEpochs (s : Client) (convId c : ℕ) :
    (pruneEpochs convId s).versions c
      = if convId = c then
          (s.versions c).forget fun m => decide (m + 4 < orDefault (s.currentEpochs.get convId) 0)
        else s.versions c := by
  rw [pruneEpochs]
  cases hkeys : s.roomKeys.get convId with
  | none =>
    by_cases hc : convId = c
    · subst hc
      rw [if_pos rfl]
      exact (versionsOf_forget_none _ hkeys _).symm
    · exact (if_neg hc).symm
  | some keys => exact versionsOf_forget _ hkeys _ c

theorem Adoption.versions_outcome (a : Adoption) (c : ℕ) :
    (a.outcome C me).state.versions c = a.entered.versions c := by
  have hfields : ∀ {s t : Client}, t.keyring = s.keyring → t.versions c = s.versions c := by
    intro s t h
    exact Client.versions_of_epochKeys (congrArg Prod.fst h) c
  by_cases hserves : a.Serves C me
  · obtain ⟨seed, hring⟩ := outcome_of_serves hserves
    rw [hfields hring]
    rfl
  · exact hfields (outcome_of_not_serves hserves).2

/-- **What an adoption leaves** of the keys. -/
theorem Adoption.versions_final {a : Adoption} {s : Client} (hbase : a.base.keyring = s.keyring)
    (c : ℕ) :
    (a.final C me).versions c
      = if a.convId = c then
          if a.rotates = true ∧ (a.outcome C me).result.isSome then
            ((s.versions c).enter a.epoch a.key).forget fun m => decide (m + 4 < a.epoch)
          else (s.versions c).enter a.epoch a.key
        else s.versions c := by
  have hentered : a.entered.versions c
      = if a.convId = c then (s.versions c).enter a.epoch a.key else s.versions c := by
    rw [← Client.versions_of_epochKeys (congrArg Prod.fst hbase)]
    exact versionsOf_enter _ _ a.convId c a.epoch a.key
  have hcurrent : (a.outcome C me).state.currentEpochs.get a.convId = some a.epoch := by
    have h := congrArg Versions.current (@Adoption.versions_outcome C me a a.convId)
    exact h.trans (get_set_self ..)
  rw [Adoption.final]
  split
  · rename_i hdone
    rw [versions_pruneEpochs, a.versions_outcome, hentered, hcurrent, orDefault_zero,
      Option.getD_some]
    split
    · rfl
    · rfl
  · rw [a.versions_outcome, hentered]

/-- **What an event has to respect**: a key that is entered without forgetting finds nothing that is
more than four epochs behind it. -/
def ForgetsInTime (C : Crypto) (me : Identity) (s : Client) (e : Event) : Prop :=
  ∀ a, adoptionOf C me s e = some a →
    (a.rotates = true ∧ (a.outcome C me).result.isSome) ∨
      ∀ f, (get₂ s.roomKeys a.convId f).isSome → a.epoch ≤ f + 4

/-- Forgetting in time, in terms of the members who are to be given a key. -/
theorem forgetsInTime_iff (hC : C.Lawful) (hbody : LengthPreserving C) (hme : me.Lawful) {s : Client}
    {e : Event} (hfits : ∀ a, adoptionOf C me s e = some a → a.key.length = 32 ∧ a.epoch ≠ 0) :
    ForgetsInTime C me s e ↔ ∀ a, adoptionOf C me s e = some a →
      (a.rotates = true ∧ ∀ m pub, get₂ a.base.roster a.convId m = some pub → m ≠ me.senderId →
        CanShare C me a.convId a.epoch m pub) ∨
      ∀ f, (get₂ s.roomKeys a.convId f).isSome → a.epoch ≤ f + 4 := by
  refine forall_congr' fun a => forall_congr' fun ha => ?_
  rw [outcome_returns_iff hC hbody hme (hfits a ha).1 (hfits a ha).2]

theorem step_recent_iff {s : Client} (hs : ∀ c, (s.versions c).Recent 4) (e : Event) :
    (∀ c, ((step C me e s).state.versions c).Recent 4) ↔ ForgetsInTime C me s e := by
  cases hadopt : adoptionOf C me s e with
  | none =>
    refine ⟨fun _ a ha => ?_, fun _ c => ?_⟩
    · rw [hadopt] at ha
      cases ha
    · rw [Client.versions_of_epochKeys (step_keepsEpochs hadopt)]
      exact hs c
  | some a =>
    obtain ⟨hbase, hfinal⟩ := step_adopts hadopt
    have hversions : ∀ c, (step C me e s).state.versions c = (a.final C me).versions c :=
      fun c => Client.versions_of_epochKeys (congrArg Prod.fst hfinal) c
    have hown : ((step C me e s).state.versions a.convId).Recent 4 ↔
        (a.rotates = true ∧ (a.outcome C me).result.isSome) ∨
          ∀ f, (get₂ s.roomKeys a.convId f).isSome → a.epoch ≤ f + 4 := by
      rw [hversions, a.versions_final hbase, if_pos rfl]
      split
      · rename_i hdone
        rw [Versions.recent_enter_forget_iff a.key fun m hm => by
          have := of_decide_eq_false hm
          omega]
        simp [hdone]
      · rename_i hdone
        rw [Versions.recent_enter_iff]
        simp only [hdone, false_or, Client.versions, has_versionsOf]
    constructor
    · intro h b hb
      rw [hadopt] at hb
      cases hb
      exact hown.mp (h a.convId)
    · intro h c
      by_cases hc : a.convId = c
      · rw [← hc]
        exact hown.mpr (h a hadopt)
      · rw [hversions, a.versions_final hbase, if_neg hc]
        exact hs c

/-! ### The Go client -/

namespace GoClient

variable {A : GoCodec.ShortAes} {F : Flate}

def NativeDartClient.versions (s : NativeDartClient) (convId : ℕ) : Versions Buffer :=
  versionsOf s.codec.currentEpochs s.roomKeys convId

/-- In 16 bits too, what is not called old is at most four behind. -/
theorem le_of_not_isOld {current epoch : ℕ} (h : isOld current epoch = false) :
    current ≤ epoch + 4 := by
  have := of_decide_eq_false h
  omega

theorem versionsOf_forgetKeys (k : EpochKeys) (convId c : ℕ) :
    versionsOf (forgetKeys convId k).1 (forgetKeys convId k).2 c
      = if convId = c then (versionsOf k.1 k.2 c).forget (isOld ((k.1.get convId).getD 0))
        else versionsOf k.1 k.2 c := by
  rw [forgetKeys]
  cases hkeys : k.2.get convId with
  | none =>
    by_cases hc : convId = c
    · subst hc
      rw [if_pos rfl]
      exact (versionsOf_forget_none _ hkeys _).symm
    · exact (if_neg hc).symm
  | some keys => exact versionsOf_forget _ hkeys _ c

/-- **What a change has to respect**: a key that is entered without forgetting finds nothing that is
more than four epochs behind it, and where keys are forgotten the current epoch is not taken for an
old one, which it is from 65532 on. -/
def KeyChange.InTime (k : EpochKeys) : KeyChange → Prop
  | .enter convId epoch _ => ∀ f, (get₂ k.2 convId f).isSome → epoch ≤ f + 4
  | .rotate _ epoch _ => isOld epoch epoch = false
  | .forget convId => ∀ epoch, k.1.get convId = some epoch → isOld epoch epoch = false

/-- The conversation whose keys change. -/
def KeyChange.convId : KeyChange → ℕ
  | .enter convId _ _ => convId
  | .rotate convId _ _ => convId
  | .forget convId => convId

theorem KeyChange.versions_other (change : KeyChange) (k : EpochKeys) {c : ℕ} (hc : change.convId ≠ c) :
    versionsOf (change.apply k).1 (change.apply k).2 c = versionsOf k.1 k.2 c := by
  cases change with
  | enter convId epoch key => exact (versionsOf_enter ..).trans (if_neg hc)
  | rotate convId epoch key =>
    refine (versionsOf_forgetKeys ..).trans ((if_neg hc).trans ?_)
    exact (versionsOf_enter ..).trans (if_neg hc)
  | forget convId => exact (versionsOf_forgetKeys ..).trans (if_neg hc)

theorem KeyChange.recent_own_iff (change : KeyChange) {k : EpochKeys}
    (hk : (versionsOf k.1 k.2 change.convId).Recent 4) :
    (versionsOf (change.apply k).1 (change.apply k).2 change.convId).Recent 4 ↔ change.InTime k := by
  cases change with
  | enter convId epoch key =>
    have hkept : versionsOf (enterKey convId epoch key k).1 (enterKey convId epoch key k).2 convId
        = (versionsOf k.1 k.2 convId).enter epoch key := (versionsOf_enter ..).trans (if_pos rfl)
    rw [KeyChange.apply, KeyChange.convId, hkept, Versions.recent_enter_iff]
    simp only [has_versionsOf, KeyChange.InTime]
  | rotate convId epoch key =>
    have hkept : versionsOf (enterKey convId epoch key k).1 (enterKey convId epoch key k).2 convId
        = (versionsOf k.1 k.2 convId).enter epoch key := (versionsOf_enter ..).trans (if_pos rfl)
    have hcurrent : (enterKey convId epoch key k).1.get convId = some epoch :=
      get_set_self ..
    rw [KeyChange.apply, KeyChange.convId, versionsOf_forgetKeys, if_pos rfl, hkept, hcurrent]
    exact Versions.recent_enter_forget_iff key fun m hm => le_of_not_isOld hm
  | forget convId =>
    rw [KeyChange.apply, KeyChange.convId, versionsOf_forgetKeys, if_pos rfl]
    cases hcurrent : k.1.get convId with
    | none =>
      -- Without a current epoch there is nothing to say about the keys.
      refine ⟨fun _ epoch h => ?_, fun _ => ⟨fun n h => ?_, fun n m h => ?_⟩⟩
      · cases hcurrent.symm.trans h
      · cases hcurrent.symm.trans h
      · cases hcurrent.symm.trans h
    | some epoch =>
      have hthere : (versionsOf k.1 k.2 convId).kept.has epoch = true := hk.holds epoch hcurrent
      rw [Option.getD_some,
        Versions.recent_forget_iff hcurrent hthere fun m hm => le_of_not_isOld hm]
      constructor
      · intro h n hn
        obtain rfl : epoch = n := Option.some.inj (hcurrent.symm.trans hn)
        exact h
      · intro h
        exact h epoch hcurrent

/-- What an event has to respect. -/
def ForgetsInTime (C : Crypto) (A : GoCodec.ShortAes) (me : Identity) (s : NativeDartClient)
    (e : Event) : Prop :=
  ∀ change, keyChange C A me s e = some change → change.InTime s.epochKeys

theorem step_recent_iff (hme : me.Lawful) {s : NativeDartClient} (hs : ∀ c, (s.versions c).Recent 4)
    (e : Event) :
    (∀ c, ((step C A F me e s).state.versions c).Recent 4) ↔ ForgetsInTime C A me s e := by
  have hkeys := step_keyChange (C := C) (A := A) (F := F) hme e s
  have hversions : ∀ c, (step C A F me e s).state.versions c
      = versionsOf (changed (keyChange C A me s e) s.epochKeys).1
          (changed (keyChange C A me s e) s.epochKeys).2 c := by
    intro c
    rw [← hkeys]
    rfl
  have hbefore : ∀ c, (versionsOf s.epochKeys.1 s.epochKeys.2 c).Recent 4 := hs
  simp only [hversions, ForgetsInTime]
  cases keyChange C A me s e with
  | none =>
    refine ⟨fun _ change h => ?_, fun _ => hbefore⟩
    cases h
  | some change =>
    constructor
    · rintro h other ⟨⟩
      exact (change.recent_own_iff (hbefore change.convId)).mp (h change.convId)
    · intro h c
      by_cases hc : change.convId = c
      · rw [← hc]
        exact (change.recent_own_iff (hbefore change.convId)).mpr (h change rfl)
      · rw [changed, change.versions_other s.epochKeys hc]
        exact hbefore c

end GoClient

/-! ### Whole runs -/

/-- **Keys are kept for four epochs**: in every state of a run of the TypeScript client, and of the Go
client, the current key of each conversation is there and no key more than four epochs behind it,
exactly when every event of the run enters and forgets keys in time. -/
theorem old_epochs_forgotten_iff (C : Crypto) (A : GoCodec.ShortAes) (F : GoClient.Flate)
    {me : Identity} (hme : me.Lawful) :
    (∀ es : List Event,
      (∀ before, before <+: es → ∀ c, ((stateAfter C me before).versions c).Recent 4) ↔
        ∀ before e, before ++ [e] <+: es → ForgetsInTime C me (stateAfter C me before) e) ∧
    ∀ (fp : String) (es : List GoClient.Event),
      (∀ before, before <+: es →
        ∀ c, ((GoClient.stateAfter C A F me fp before).versions c).Recent 4) ↔
        ∀ before e, before ++ [e] <+: es →
          GoClient.ForgetsInTime C A me (GoClient.stateAfter C A F me fp before) e := by
  constructor
  · intro es
    refine Prog.throughout_iff (P := fun s : Client => ∀ c, (s.versions c).Recent 4)
      (fun c => Versions.recent_empty) (fun before e hbefore => ?_) es
    rw [stateAfter_concat]
    exact step_recent_iff hbefore e
  · intro fp es
    refine Prog.throughout_iff (P := fun s : GoClient.NativeDartClient => ∀ c, (s.versions c).Recent 4)
      (fun c => Versions.recent_empty) (fun before e hbefore => ?_) es
    rw [GoClient.stateAfter_concat]
    exact GoClient.step_recent_iff hme hbefore e

/-! ### Runs -/

/-- The KEY_SHARE with which one client hands another a group key. -/
def sumKeyShare (convId sender target epoch : ℕ) : Buffer :=
  let share : KeyShareDart :=
    ⟨TYPE_KEY_SHARE, convId, sender, target, epoch, Buffer.alloc 12, Buffer.bytesBE 32 epoch⟩
  (Codec.encodeKeyShare sumCrypto share (sumPairwise sender target)).getD []

/-- Compression that does nothing. -/
def sumFlate : GoClient.Flate := ⟨fun payload _ => payload, fun packed _ => some packed⟩

/-- A creator that founds the first key. -/
theorem founder_keeps_key :
    (∀ c, ((stateAfter sumCrypto (sumIdentity 1)
      [.message (sumMemberInfo 5 1 true [1, 2])]).versions c).Recent 4) ∧
    ∀ c, ((GoClient.stateAfter sumCrypto Wire.sumAes sumFlate (sumIdentity 1) ""
      [.message (sumMemberInfo 5 1 true [1, 2])]).versions c).Recent 4 := by
  have hiff := old_epochs_forgotten_iff sumCrypto Wire.sumAes sumFlate (sumIdentity_lawful 1)
  have hfirst : ∀ {ε : Type} {before : List ε} {e x : ε}, before ++ [e] <+: [x] → before = [] := by
    intro ε before e x h
    have := h.length_le
    simpa using this
  constructor
  · refine (hiff.1 _).mpr ?_ _ (List.prefix_refl _)
    intro before e hes a ha
    obtain rfl := hfirst hes
    right
    intro f hf
    cases hf
  · refine (hiff.2 "" _).mpr ?_ _ (List.prefix_refl _)
    intro before e hes change hchange
    obtain rfl := hfirst hes
    have henters : GoClient.keyChange sumCrypto Wire.sumAes (sumIdentity 1) { serverFingerprint := "" }
        (.message (sumMemberInfo 5 1 true [1, 2])) = some (.enter 5 1 (Buffer.bytesBE 32 1000)) := by
      decide +kernel
    obtain ⟨rest, hrest⟩ := hes
    have he : e = .message (sumMemberInfo 5 1 true [1, 2]) := (List.cons.inj hrest).1
    rw [he] at hchange
    obtain rfl := Option.some.inj (henters.symm.trans hchange)
    intro f hf
    cases hf

/-- **An old key is kept, and a current one lost.**  A member takes over the keys of epochs `1` and
`6` from the creator, and still has the former.  A Go member at epoch `65531` becomes the creator,
moves on to epoch `65532` and forgets the key of it. -/
theorem old_epoch_kept_current_forgotten :
    let member := stateAfter sumCrypto (sumIdentity 1)
      [.message (sumMemberInfo 5 1 false [1, 2]), .message (sumKeyShare 5 2 1 1),
        .message (sumKeyShare 5 2 1 6)]
    let creator := GoClient.stateAfter sumCrypto Wire.sumAes sumFlate (sumIdentity 1) ""
      [.message (sumMemberInfo 5 1 false [1, 2]), .message (sumKeyShare 5 2 1 65531),
        .message (sumMemberInfo 5 1 true [1, 2])]
    (member.currentEpochs.get 5 = some 6 ∧ (get₂ member.roomKeys 5 1).isSome) ∧
      creator.codec.currentEpochs.get 5 = some 65532 ∧ (get₂ creator.roomKeys 5 65532).isNone := by
  decide +kernel

end DartProtocol
