import DartProtocol.Announcement
import DartProtocol.ControlFrames
import DartProtocol.EpochWindow
import DartProtocol.SendingChain
import DartProtocol.ShareMarks

/-!
# Rotating the key at every epoch

An epoch is a number of any size in the TypeScript client, 16 bits in the Go client, and 16 bits in a
share.  After epoch 65535 the first enters a key for epoch 65536, which no share can carry: the encoder
throws before the own chain is started.  The second wraps to epoch 0, which is older than every other
one, and no member takes the share over.

* `rotation_works_iff` — which rotations work, in both clients.
-/

namespace DartProtocol

open Prog InsertionMap Buffer Wire

/-! ### The TypeScript client -/

section Share

variable {C : Crypto} {me : Identity}

/-- **A rotation** leaves the creator ready for the new epoch exactly when the new key can be handed to
every other member, unless the epoch had a chain already. -/
theorem rekey_ready_iff (hC : C.Lawful) (hbody : LengthPreserving C) (hme : me.Lawful) {s : Client}
    {convId epoch : ℕ} (hcreator : s.isCreator.get convId = some true)
    (hcurrent : s.currentEpochs.get convId = some epoch) (hpos : epoch ≠ 0) :
    (rekey C me convId s).state.Ready C me convId ↔
      (∀ m pub, get₂ s.roster convId m = some pub → m ≠ me.senderId →
        CanShare C me convId (epoch + 1) m pub) ∨ s.OnSeed C me convId (epoch + 1) := by
  have hsending : s.sendingEpoch convId = epoch := by
    rw [Client.sendingEpoch, hcurrent, orDefault_some_pos 1 hpos]
  obtain ⟨a, ha⟩ : ∃ a, a = Adoption.drawn me convId (epoch + 1) true s := ⟨_, rfl⟩
  have hsettles := @rekey_settles C me convId s
  rw [rotation, if_pos hcreator, hsending, ← ha] at hsettles
  obtain ⟨hbase, hfinal⟩ := hsettles
  have hconv : a.convId = convId := by rw [ha]; rfl
  rw [Client.Ready.of_keyring hfinal, a.ready_final_iff hbase, if_pos hconv,
    serves_iff hC hbody hme (by rw [ha]; exact hme _ _) (by rw [ha]; exact Nat.succ_ne_zero _), ha]
  exact Iff.rfl

/-- Sharing a key that was entered, when it goes through, reaches every other member. -/
theorem Adoption.shares {a : Adoption} (hopen : a.base.closed = false) (hpos : a.epoch ≠ 0)
    (hserves : a.Serves C me) {m : ℕ} {pub : Buffer} (hpub : get₂ a.base.roster a.convId m = some pub)
    (hne : m ≠ me.senderId) :
    KeyShared C me (shareWithNewMembers C me a.convId a.entered).output a.convId a.epoch a.key m
      pub := by
  obtain ⟨hkeyOf, hepoch, hdone⟩ := a.entered_fields hpos
  obtain ⟨roster, hroster, hget⟩ := Option.bind_eq_some_iff.mp hpub
  have hsame : a.entered.roster.get a.convId = some roster := hroster
  rw [Adoption.Serves, shareWithNewMembers, get_bind] at hserves
  rw [shareWithNewMembers, get_bind]
  simp only [hkeyOf, hepoch, hdone, hsame] at hserves ⊢
  rw [modify_bind] at hserves ⊢
  have hloop := sendAll_isSome.mp hserves
  have htarget : m ∈ shareTargets me roster ∅ := by
    refine List.mem_filter.mpr ⟨mem_keys_iff.mpr ⟨pub, hget⟩, ?_⟩
    simpa using hne
  obtain ⟨pub', hpub', hshared⟩ := forEach_sendKeyShare (by exact hopen) hloop m htarget
  rw [hget] at hpub'
  cases hpub'
  rw [if_neg (List.ne_nil_of_mem htarget)]
  exact hshared.mono (output_prefix_bind _ _ _).subset

theorem rekey_shares (hC : C.Lawful) (hbody : LengthPreserving C) (hme : me.Lawful) {s : Client}
    {convId epoch : ℕ} (hopen : s.closed = false) (hcreator : s.isCreator.get convId = some true)
    (hcurrent : s.currentEpochs.get convId = some epoch) (hpos : epoch ≠ 0)
    (hcan : ∀ m pub, get₂ s.roster convId m = some pub → m ≠ me.senderId →
      CanShare C me convId (epoch + 1) m pub) {m : ℕ} {pub : Buffer}
    (hpub : get₂ s.roster convId m = some pub) (hne : m ≠ me.senderId) :
    KeyShared C me (rekey C me convId s).output convId (epoch + 1) (me.random s.draws 32) m pub := by
  have hsending : s.sendingEpoch convId = epoch := by
    rw [Client.sendingEpoch, hcurrent, orDefault_some_pos 1 hpos]
  obtain ⟨a, ha⟩ : ∃ a, a = Adoption.drawn me convId (epoch + 1) true s := ⟨_, rfl⟩
  have hserves : a.Serves C me := by
    refine (serves_iff hC hbody hme ?_ ?_).mpr ?_
    · rw [ha]
      exact hme _ _
    · rw [ha]
      exact Nat.succ_ne_zero _
    · rw [ha]
      exact hcan
  have hshared := Adoption.shares (a := a) (by rw [ha]; exact hopen)
    (by rw [ha]; exact Nat.succ_ne_zero _) hserves (by rw [ha]; exact hpub) hne
  rw [rekey, get_bind, if_pos hcreator, randomBytes_bind, hsending]
  rw [ha] at hshared
  exact (hshared.mono (output_prefix_bind _ _ _).subset).mono (output_prefix_bind _ _ _).subset

/-- The frame of a share, the same in both programs. -/
def keyShareFrame (C : Crypto) (transportKey : Buffer) (share : KeyShareDart) : Buffer :=
  sealedFrame C transportKey share.nonce (keyShareHeader share) share.encryptedKey

theorem keyShareFrame_reads (hf : KeyShareFits share) (transportKey : Buffer) :
    (keyShareFrame C transportKey share).readUInt8 0 = some TYPE_KEY_SHARE ∧
      (keyShareFrame C transportKey share).readUIntBE 1 2 = some share.convId ∧
      (keyShareFrame C transportKey share).readUIntBE 3 2 = some share.senderId ∧
      (keyShareFrame C transportKey share).readUIntBE 5 2 = some share.targetId := by
  have htype : share.type < 256 ^ 1 := by
    rw [hf.type]
    decide
  obtain ⟨rest, hrest⟩ : ∃ rest, keyShareFrame C transportKey share = keyShareHeader share ++ rest :=
    ⟨_, rfl⟩
  rw [hrest, keyShareHeader, shareHeader, List.append_assoc]
  obtain ⟨h₀, h₁, h₃, hlater⟩ := route_reads htype hf.convId hf.senderId
    ((bytesBE 2 share.targetId ++ (bytesBE 2 share.epoch ++ share.nonce)) ++ rest)
  refine ⟨by rw [Buffer.readUInt8, h₀, hf.type], h₁, h₃, ?_⟩
  rw [hlater _ _ (by decide), List.append_assoc, readUIntBE_head hf.targetId]

/-- A member at an epoch, whose roster has the key of the client that shares. -/
structure Client.Follows (C : Crypto) (me : Identity) (sharer convId epoch : ℕ) (transportKey : Buffer)
    (r : Client) : Prop where
  isOpen : r.closed = false
  adopted : r.adoptedEpochs.get convId = some epoch
  current : r.currentEpochs.get convId = some epoch
  transport : (get₂ r.roster convId sharer).bind (pairwiseKey C me.privateKey) = some transportKey

/-- **A member takes over** a share of another epoch exactly when that epoch is a later one. -/
theorem keyShare_holds_iff (hC : C.Lawful) (hbody : LengthPreserving C) {r : Client} {held : ℕ}
    {transportKey : Buffer} (hf : KeyShareFits share) (htarget : share.targetId = me.senderId)
    (hr : r.Follows C me share.senderId share.convId held transportKey) (hpos : held ≠ 0)
    (hne : share.epoch ≠ held) :
    Holds share.convId share.epoch share.encryptedKey
      (step C me (.message (keyShareFrame C transportKey share)) r).state ↔ held < share.epoch := by
  obtain ⟨pub, hpub, hpair⟩ := Option.bind_eq_some_iff.mp hr.transport
  have hdec := decodeKeyShare_wire hC hbody (pairwiseKey_length hC hpair) hf
  obtain ⟨h₀, h₁, h₃, h₅⟩ := keyShareFrame_reads (C := C) hf transportKey
  have hopened : shareTransportKey C me r (keyShareFrame C transportKey share)
      = some (some (share.convId, transportKey)) := by
    simp only [shareTransportKey, Buffer.readUInt16BE, h₁, h₃, h₅, Option.bind_eq_bind,
      Option.bind_some, htarget, ne_eq, not_true_eq_false, if_false, hpub, hpair]
  rw [step_message_of_type C me hr.isOpen h₀]
  show Holds _ _ _ (handleKeyShare C me _ r).state ↔ _
  have hheld : r.adoptedEpoch share.convId = held := by
    rw [Client.adoptedEpoch, hr.adopted, orDefault_some_pos 0 hpos]
  by_cases hlt : held < share.epoch
  · have hcarries : CarriesShare C me r share.convId (share.epoch, share.encryptedKey)
      (keyShareFrame C transportKey share) := ⟨h₀, transportKey, hopened, hdec⟩
    exact iff_of_true (keyShare_spec hcarries (by rw [hheld]; exact hlt)).1 hlt
  · refine iff_of_false (fun h => hne ?_) hlt
    have hkeep : shouldAdopt r share.convId share.epoch share.encryptedKey = false := by
      have hmine : orDefault (r.adoptedEpochs.get share.convId) 0 = held := hheld
      simp [shouldAdopt, hmine, hpos, hne, hlt]
    have hrun : handleKeyShare C me (keyShareFrame C transportKey share) r
        = (pure () : ClientProg Unit) r := by
      rw [handleKeyShare, get_bind, hopened, ofOption_some_bind]
      simp only [keyShareFrame, hdec]
      rw [hkeep]
      rfl
    have hcurrent := h.current
    rw [hrun] at hcurrent
    exact Option.some.inj (hcurrent.symm.trans hr.current)

end Share

/-! ### The Go client -/

namespace GoClient

open Slice GoCodec

variable {C : Crypto} {A : ShortAes} {me : Identity}

/-- The current keys, their epochs and the chains. -/
def NativeDartClient.keyring (s : NativeDartClient) := (s.codec, s.senderChains)

def KeepsKeyring : NativeDartClient → List Output → NativeDartClient → Prop :=
  fun s _ t => t.keyring = s.keyring

theorem keepsKeyring_sending : Sending KeepsKeyring :=
  ⟨⟨fun _ => rfl, fun h h' => Eq.trans h' h⟩, fun _ _ => rfl, fun _ _ => rfl⟩

theorem pruneEpochs_keyring (convId : ℕ) (s : NativeDartClient) :
    (pruneEpochs convId s).keyring = s.keyring := by
  rw [pruneEpochs]
  split <;> rfl

theorem finishAdopt_keyring (convId : ℕ) (caller : Caller) :
    Obeys KeepsKeyring (finishAdopt C A me convId caller) := by
  have hR := keepsKeyring_sending
  have hprune : Obeys KeepsKeyring (pruneOldEpochs convId) :=
    Obeys.modify (pruneEpochs_keyring convId)
  have hfinish : Obeys KeepsKeyring (finishMemberInfo C A me convId) :=
    Obeys.get_bind fun s => .bind hR.comp (hR.shareChainWithMembers (fun _ _ _ => rfl) _ _) fun _ =>
      Obeys.modify fun _ => rfl
  refine .bind hR.comp (hR.shareWithNewMembers (fun _ _ _ => rfl) convId) fun _ => ?_
  refine .bind hR.comp (.modify fun _ => rfl) fun _ => ?_
  cases caller with
  | keyShare => exact .pure hR.comp _
  | memberInfo => exact hfinish
  | rekey => exact hprune
  | election => exact .bind hR.comp hprune fun _ => hfinish

/-- **An adoption** ends with the new key, its epoch and a fresh chain. -/
theorem adoptKey_keyring (convId epoch : ℕ) (key : Buffer) (caller : Caller) (s : NativeDartClient) :
    (adoptKey C A me convId epoch key caller s).state.keyring
      = (startChain me convId epoch (me.random s.draws 32) (installKey convId epoch key s)).keyring := by
  have hR := keepsKeyring_sending
  rw [adoptKey, get_bind, modify_bind]
  refine after_bind (P := fun v : NativeDartClient => v.keyring = _) ?_ fun _ v hv => ?_
  · exact hR.shareChainWithMembers (fun _ _ _ => rfl) convId epoch _
  · have hrest : Obeys KeepsKeyring (do
        finishAdopt C A me convId caller
        pure none : Locked (Option Waiting)) :=
      Obeys.bind hR.comp (finishAdopt_keyring convId caller) fun _ => .pure hR.comp _
    rw [← hv]
    exact Obeys.ite hrest (Obeys.pure hR.comp _) v

/-- The current key, its epoch and the own chain. -/
structure Holds (me : Identity) (convId epoch : ℕ) (key : Buffer) (t : NativeDartClient) : Prop where
  current : t.codec.currentEpochs.get convId = some epoch
  key : t.codec.convKeys.get convId = some key
  chain : ∃ seed, t.getChain convId epoch me.senderId = some ⟨seed, 0⟩

theorem adoptKey_holds (convId epoch : ℕ) (key : Buffer) (caller : Caller) (s : NativeDartClient) :
    Holds me convId epoch key (adoptKey C A me convId epoch key caller s).state := by
  have hring : (adoptKey C A me convId epoch key caller s).state.keyring = _ :=
    adoptKey_keyring convId epoch key caller s
  simp only [NativeDartClient.keyring, Prod.mk.injEq] at hring
  obtain ⟨hcodec, hchains⟩ := hring
  refine ⟨?_, ?_, me.random s.draws 32, ?_⟩
  · rw [hcodec]
    exact get_set_self _ _ _
  · rw [hcodec]
    exact get_set_self _ _ _
  · rw [NativeDartClient.getChain, hchains]
    show (get₂ (set₂ s.senderChains convId epoch _) convId epoch).bind _ = _
    rw [get₂_set₂, if_pos ⟨rfl, rfl⟩, Option.bind_some, get_set_self]

variable {convId epoch : ℕ} {skipped : Locked Unit} {s : NativeDartClient} {key pub : Buffer}

/-- **A rotation** enters the next epoch, in 16 bits. -/
theorem doRekey_holds {caller : Caller} (hcreator : s.isCreator.get convId = some true)
    (hcurrent : s.codec.currentEpochs.get convId = some epoch) (hpos : epoch ≠ 0) :
    Holds me convId ((epoch + 1) % 2 ^ 16) (me.random s.draws 32)
      (doRekey C A me convId caller skipped s).state := by
  have hsending : s.sendingEpoch convId = epoch := by
    rw [NativeDartClient.sendingEpoch, NativeDartClient.currentEpoch, hcurrent, Option.getD_some,
      if_neg hpos]
  rw [doRekey, get_bind, if_pos hcreator, hsending]
  exact adoptKey_holds convId _ _ caller { s with draws := s.draws + 1 }

/-- A member at an epoch, whose roster has the key of the client that shares. -/
structure NativeDartClient.Follows (C : Crypto) (me : Identity) (sharer convId epoch : ℕ)
    (transportKey : Buffer) (r : NativeDartClient) : Prop where
  current : r.codec.currentEpochs.get convId = some epoch
  hasKey : (r.codec.convKeys.get convId).isSome
  transport : (get₂ r.roster convId sharer).bind (pairwiseKey C me.privateKey) = some transportKey

theorem Holds.of_keyring {t u : NativeDartClient}
    (h : Holds me convId epoch key t) (hring : u.keyring = t.keyring) : Holds me convId epoch key u := by
  simp only [NativeDartClient.keyring, Prod.mk.injEq] at hring
  obtain ⟨hcodec, hchains⟩ := hring
  obtain ⟨hcurrent, hkey, seed, hchain⟩ := h
  refine ⟨by rw [hcodec]; exact hcurrent, by rw [hcodec]; exact hkey, seed, ?_⟩
  rw [NativeDartClient.getChain, hchains]
  exact hchain

theorem step_keyShare_keyring {F : Flate} {frame : Buffer} (h : frame.readUInt8 0 = some TYPE_KEY_SHARE)
    (r : NativeDartClient) :
    (step C A F me (.message frame) r).state.keyring = (handleKeyShare C A me frame r).state.keyring := by
  have hlen : frame.length ≠ 0 := by
    have hindex : (index frame 0).isSome := Option.isSome_iff_exists.mpr ⟨_, h⟩
    exact Nat.ne_of_gt (index_isSome_iff.mp hindex)
  have hrun : dispatch C A F me frame = handleKeyShare C A me frame := by
    rw [dispatch, if_neg hlen, index_eq, h, ofOption_some_bind]
    rfl
  show (handleMessage C A F me frame r).state.keyring = _
  rw [handleMessage, hrun]
  rfl

/-- **A member takes over** a share of another epoch exactly when that epoch is a later one. -/
theorem keyShare_holds_iff (hC : C.Lawful) (hbody : LengthPreserving C) {F : Flate}
    {r : NativeDartClient} {share : KeyShareDart} {held : ℕ} {transportKey : Buffer}
    (hf : KeyShareFits share) (htarget : share.targetId = me.senderId)
    (hr : r.Follows C me share.senderId share.convId held transportKey) (hne : share.epoch ≠ held) :
    Holds me share.convId share.epoch share.encryptedKey
      (step C A F me (.message (keyShareFrame C transportKey share)) r).state ↔ held < share.epoch := by
  obtain ⟨pub, -, hpair⟩ := Option.bind_eq_some_iff.mp hr.transport
  have hlen := pairwiseKey_length hC hpair
  have hdec := decodeKeyShare_wire hC hbody hlen hf
  have hsize : (keyShareFrame C transportKey share).length = 69 := by
    rw [keyShareFrame, sealedFrame_length hC hbody, keyShareHeader, Wire.shareHeader, hf.encryptedKey]
    simp [route_length, hf.nonce]
  obtain ⟨h₀, h₁, h₃, h₅⟩ := keyShareFrame_reads (C := C) hf transportKey
  have hopened : shareTransportKey C me r (keyShareFrame C transportKey share)
      = some (some (share.convId, transportKey)) := by
    simp (disch := rfl) only [shareTransportKey, uint16_slice, Buffer.readUInt16BE, h₁, h₃, h₅,
      Option.bind_eq_bind, Option.bind_some, htarget, ne_eq, not_true_eq_false, if_false, hr.transport]
  have hdecoded : decodeKeyShare C A (keyShareFrame C transportKey share) transportKey
      = some (some (share.epoch, share.encryptedKey)) := by
    rw [(keyShareDecoders_eq hlen A (by omega)).1]
    exact congrArg some hdec
  obtain ⟨cur, hcur⟩ := Option.isSome_iff_exists.mp hr.hasKey
  have hadopt : shouldAdopt r share.convId share.epoch share.encryptedKey
      = decide (held < share.epoch) := by
    rw [shouldAdopt, hcur, NativeDartClient.currentEpoch, hr.current, Option.getD_some,
      decide_eq_false hne]
    simp
  have hrun : handleKeyShare C A me (keyShareFrame C transportKey share) r
      = (if held < share.epoch then
          adoptKey C A me share.convId share.epoch share.encryptedKey .keyShare
        else pure none) r := by
    rw [handleKeyShare, if_neg (by omega), get_bind, hopened, ofOption_some_bind]
    simp only [hdecoded, ofOption_some_bind, hadopt, decide_eq_true_eq]
  have hring : (step C A F me (.message (keyShareFrame C transportKey share)) r).state.keyring = _ :=
    step_keyShare_keyring h₀ r
  by_cases hlt : held < share.epoch
  · rw [hrun, if_pos hlt] at hring
    exact iff_of_true ((adoptKey_holds _ _ _ .keyShare r).of_keyring hring) hlt
  · rw [hrun, if_neg hlt] at hring
    refine iff_of_false (fun h => hne ?_) hlt
    have hcodec : (step C A F me (.message (keyShareFrame C transportKey share)) r).state.codec
        = r.codec := congrArg Prod.fst hring
    have hcurrent := h.current
    rw [hcodec, hr.current, Option.some.injEq] at hcurrent
    exact hcurrent.symm

/-! ### The shares of a rotation -/

/-- A KEY_SHARE of this epoch and group key for member `m`, encrypted to the public key, was handed to
`send`. -/
def KeyShared (C : Crypto) (A : ShortAes) (me : Identity) (os : List Output) (convId epoch : ℕ)
    (key : Buffer) (m : ℕ) (pub : Buffer) : Prop :=
  ∃ transportKey i frame t, pairwiseKey C me.privateKey pub = some transportKey ∧
    encodeKeyShare C A ⟨TYPE_KEY_SHARE, convId, me.senderId, m, epoch, me.random i 12, key⟩ transportKey
      = some (some frame) ∧ (send frame t).output ⊆ os

theorem KeyShared.mono {os os' : List Output} {m : ℕ}
    (h : KeyShared C A me os convId epoch key m pub) (hsub : os ⊆ os') :
    KeyShared C A me os' convId epoch key m pub := by
  obtain ⟨transportKey, i, frame, t, hpair, henc, hsent⟩ := h
  exact ⟨transportKey, i, frame, t, hpair, henc, List.Subset.trans hsent hsub⟩

theorem randomBytes_bind {α : Type} (n : ℕ) (f : Buffer → Locked α) (s : NativeDartClient) :
    (randomBytes me n >>= f) s = f (me.random s.draws n) { s with draws := s.draws + 1 } := rfl

theorem sendKeyShare_shared (hC : C.Lawful) (hme : me.Lawful) {m : ℕ}
    {roster : NumMap Buffer} (hcan : CanShare C me convId epoch m pub) (hkey : key.length = 32)
    (hpub : roster.get m = some pub) (s : NativeDartClient) :
    KeyShared C A me (sendKeyShare C A me convId epoch key roster m s).output convId epoch key m
      pub := by
  obtain ⟨transportKey, hpair⟩ := Option.isSome_iff_exists.mp hcan.point
  have hf : KeyShareFits ⟨TYPE_KEY_SHARE, convId, me.senderId, m, epoch, me.random s.draws 12, key⟩ :=
    ⟨rfl, hcan.convId, hcan.senderId, hcan.targetId, hcan.epoch, hme _ _, hkey⟩
  have henc := goEncodeKeyShare_wire (C := C) (pairwiseKey_length hC hpair) A hf
  obtain ⟨frame, hframe⟩ : ∃ frame, encodeKeyShare C A ⟨TYPE_KEY_SHARE, convId, me.senderId, m, epoch,
    me.random s.draws 12, key⟩ transportKey = some (some frame) := ⟨_, henc⟩
  refine ⟨transportKey, s.draws, frame, { s with draws := s.draws + 1 }, hpair, hframe, ?_⟩
  have hrun : sendKeyShare C A me convId epoch key roster m s
      = send frame { s with draws := s.draws + 1 } := by
    simp only [sendKeyShare, hpub, Option.bind_some, hpair]
    rw [randomBytes_bind]
    simp only [hframe, ofOption_some_bind, sendOk]
  rw [hrun]
  exact List.Subset.refl _

/-- The epoch in the shares of a rotation: `1` stands in for zero. -/
def sharedEpoch (epoch : ℕ) : ℕ := if (epoch + 1) % 2 ^ 16 = 0 then 1 else (epoch + 1) % 2 ^ 16

/-- What sharing the own chain leaves alone. -/
def KeepsMembers : NativeDartClient → List Output → NativeDartClient → Prop :=
  fun s _ t => (t.codec, t.roster, t.sharedWith) = (s.codec, s.roster, s.sharedWith)

theorem keepsMembers_sending : Sending KeepsMembers :=
  ⟨⟨fun _ => rfl, fun h h' => Eq.trans h' h⟩, fun _ _ => rfl, fun _ _ => rfl⟩

theorem initOwnChain_keepsMembers (convId epoch : ℕ) :
    Obeys KeepsMembers (initOwnChain C A me convId epoch) := by
  have hR := keepsMembers_sending
  refine .bind hR.comp (hR.randomBytes 32) fun seed => ?_
  refine .bind hR.comp (.modify fun _ => rfl) fun _ => ?_
  exact hR.shareChainWithMembers (fun _ _ _ => rfl) convId epoch

/-- Sharing the current key with nobody marked reaches every member that can be given it. -/
theorem shareWithNewMembers_shares (hC : C.Lawful) (hme : me.Lawful) {v : NativeDartClient}
    {m : ℕ} (hkey : v.codec.convKeys.get convId = some key)
    (hlen : key.length = 32) (hdone : (v.sharedWith.get convId).getD ∅ = ∅)
    (hpub : get₂ v.roster convId m = some pub) (hne : m ≠ me.senderId)
    (hcan : CanShare C me convId (v.sendingEpoch convId) m pub) :
    KeyShared C A me (shareWithNewMembers C A me convId v).output convId (v.sendingEpoch convId) key m
      pub := by
  obtain ⟨roster, hroster, hget⟩ := Option.bind_eq_some_iff.mp hpub
  have htarget : m ∈ shareTargets me roster ∅ := by
    refine List.mem_filter.mpr ⟨mem_keys_iff.mpr ⟨pub, hget⟩, ?_⟩
    simpa using hne
  rw [shareWithNewMembers, get_bind]
  simp only [hkey, hroster, hdone, Option.getD_some]
  rw [modify_bind, if_neg (List.ne_nil_of_mem htarget)]
  refine KeyShared.mono ?_ (output_prefix_bind _ _ _).subset
  refine mem_forEach_output (I := fun _ => True)
    (P := fun m' os => m' = m → KeyShared C A me os convId (v.sendingEpoch convId) key m pub)
    (fun _ _ _ _ => trivial) ?_ ?_ trivial ?_ m htarget rfl
  · rintro m' - t - - rfl
    exact sendKeyShare_shared hC hme hcan hlen hget t
  · intro m' os os' os'' h hm
    exact (h hm).mono fun o ho => by simp [ho]
  · exact Returns.forEach (fun mId _ => sendKeyShare_returns hme _ _ _ _ mId) _

/-- **The shares of a rotation** go to every member that can be given them. -/
theorem doRekey_shares (hC : C.Lawful) (hme : me.Lawful) {m : ℕ}
    (hcreator : s.isCreator.get convId = some true)
    (hcurrent : s.codec.currentEpochs.get convId = some epoch) (hpos : epoch ≠ 0)
    (hhas : (s.codec.convKeys.get convId).isSome)
    (hpub : get₂ s.roster convId m = some pub) (hne : m ≠ me.senderId)
    (hcan : CanShare C me convId (sharedEpoch epoch) m pub) :
    KeyShared C A me (doRekey C A me convId .rekey skipped s).output convId (sharedEpoch epoch)
      (me.random s.draws 32) m pub := by
  have hsending : s.sendingEpoch convId = epoch := by
    rw [NativeDartClient.sendingEpoch, NativeDartClient.currentEpoch, hcurrent, Option.getD_some,
      if_neg hpos]
  obtain ⟨t, ht⟩ : ∃ t, t = installKey convId ((epoch + 1) % 2 ^ 16) (me.random s.draws 32)
    { s with draws := s.draws + 1 } := ⟨_, rfl⟩
  obtain ⟨v, hv⟩ : ∃ v, v = (initOwnChain C A me convId ((epoch + 1) % 2 ^ 16) t).state := ⟨_, rfl⟩
  have hkeep : (v.codec, v.roster, v.sharedWith) = (t.codec, t.roster, t.sharedWith) := by
    rw [hv]
    exact initOwnChain_keepsMembers convId _ t
  simp only [Prod.mk.injEq] at hkeep
  obtain ⟨hcodec, hroster, hmarks⟩ := hkeep
  have hkey : v.codec.convKeys.get convId = some (me.random s.draws 32) := by
    rw [hcodec, ht]
    exact get_set_self _ _ _
  have hepoch : v.sendingEpoch convId = sharedEpoch epoch := by
    have hget : v.codec.currentEpochs.get convId = some ((epoch + 1) % 2 ^ 16) := by
      rw [hcodec, ht]
      exact get_set_self _ _ _
    rw [NativeDartClient.sendingEpoch, NativeDartClient.currentEpoch, hget, Option.getD_some,
      sharedEpoch]
  have hdone : (v.sharedWith.get convId).getD ∅ = ∅ := by
    rw [hmarks, ht]
    show ((s.sharedWith.set convId ∅).get convId).getD ∅ = ∅
    rw [get_set_self, Option.getD_some]
  have hlisted : get₂ v.roster convId m = some pub := by
    rw [hroster, ht]
    exact hpub
  have hshared := shareWithNewMembers_shares (A := A) hC hme hkey (hme _ _) hdone hlisted hne
    (by rw [hepoch]; exact hcan)
  rw [hepoch] at hshared
  obtain ⟨⟨⟩, hran⟩ := Option.isSome_iff_exists.mp
    (initOwnChain_returns (C := C) (A := A) hme convId ((epoch + 1) % 2 ^ 16) t)
  have hrun : (doRekey C A me convId .rekey skipped s).output
      = (initOwnChain C A me convId ((epoch + 1) % 2 ^ 16) t).output
        ++ ((finishAdopt C A me convId .rekey >>= fun _ => pure (none : Option Waiting)) v).output := by
    rw [doRekey, get_bind, if_pos hcreator, hsending]
    show (adoptKey C A me convId ((epoch + 1) % 2 ^ 16) (me.random s.draws 32) .rekey
      { s with draws := s.draws + 1 }).output = _
    rw [adoptKey, get_bind, modify_bind, ← ht, bind_of_some hran, ← hv,
      if_pos (show s.codec.convKeys.has convId = true from hhas)]
    rfl
  rw [hrun]
  refine hshared.mono fun o ho => List.mem_append_right _ ?_
  exact (output_prefix_bind _ _ _).subset ((output_prefix_bind _ _ _).subset ho)

end GoClient

/-! ### Rotations -/

section Rotation

variable (C : Crypto) (A : GoCodec.ShortAes) (F : GoClient.Flate) (me : Identity)

/-- The creator at an epoch. -/
structure Client.Leads (convId epoch : ℕ) (s : Client) : Prop where
  isOpen : s.closed = false
  creator : s.isCreator.get convId = some true
  current : s.currentEpochs.get convId = some epoch
  ids : ∀ m pub, get₂ s.roster convId m = some pub → m < 65536

structure GoClient.NativeDartClient.Leads (convId epoch : ℕ) (s : GoClient.NativeDartClient) : Prop where
  creator : s.isCreator.get convId = some true
  current : s.codec.currentEpochs.get convId = some epoch
  hasKey : (s.codec.convKeys.get convId).isSome
  ids : ∀ m pub, get₂ s.roster convId m = some pub → m < 65536

/-- The public keys of all other members are points. -/
def AllPoints (roster : NumMap (NumMap Buffer)) (convId : ℕ) : Prop :=
  ∀ m pub, get₂ roster convId m = some pub → m ≠ me.senderId →
    (pairwiseKey C me.privateKey pub).isSome

/-- **Taken over.**  The member `peer`, in either program, has the key as its current one after it
handles the share. -/
def TakenOver (peer : Identity) (convId held epoch : ℕ) (key transportKey frame : Buffer) : Prop :=
  (∀ r : Client, r.Follows C peer me.senderId convId held transportKey →
    Holds convId epoch key (step C peer (.message frame) r).state) ∧
  ∀ r : GoClient.NativeDartClient, r.Follows C peer me.senderId convId held transportKey →
    GoClient.Holds peer convId epoch key (GoClient.step C A F peer (.message frame) r).state

/-- **A rotation that works** (TypeScript): the creator has a new current key and an own chain for it,
every other member is sent the key, and each that handles its share takes it over. -/
structure Client.Rotates (convId epoch : ℕ) (s : Client) : Prop where
  holds : Holds convId (epoch + 1) (me.random s.draws 32) (rekey C me convId s).state
  ready : (rekey C me convId s).state.Ready C me convId
  told : ∀ m pub, get₂ s.roster convId m = some pub → m ≠ me.senderId →
    KeyShared C me (rekey C me convId s).output convId (epoch + 1) (me.random s.draws 32) m pub
  taken : ∀ (peer : Identity) (nonce transportKey frame : Buffer), nonce.length = 12 →
    Codec.encodeKeyShare C ⟨TYPE_KEY_SHARE, convId, me.senderId, peer.senderId, epoch + 1, nonce,
      me.random s.draws 32⟩ transportKey = some frame →
    TakenOver C A F me peer convId epoch (epoch + 1) (me.random s.draws 32) transportKey frame

/-- **A rotation that works** (Go).  The epoch is counted in 16 bits. -/
structure GoClient.NativeDartClient.Rotates (convId epoch : ℕ) (s : GoClient.NativeDartClient) :
    Prop where
  holds : GoClient.Holds me convId ((epoch + 1) % 2 ^ 16) (me.random s.draws 32)
    (GoClient.doRekey C A me convId .rekey (pure ()) s).state
  told : ∀ m pub, get₂ s.roster convId m = some pub → m ≠ me.senderId →
    GoClient.KeyShared C A me (GoClient.doRekey C A me convId .rekey (pure ()) s).output convId
      (GoClient.sharedEpoch epoch) (me.random s.draws 32) m pub
  taken : ∀ (peer : Identity) (nonce transportKey frame : Buffer), nonce.length = 12 →
    peer.senderId < 65536 →
    GoCodec.encodeKeyShare C A ⟨TYPE_KEY_SHARE, convId, me.senderId, peer.senderId,
      GoClient.sharedEpoch epoch, nonce, me.random s.draws 32⟩ transportKey = some (some frame) →
    TakenOver C A F me peer convId epoch (GoClient.sharedEpoch epoch) (me.random s.draws 32) transportKey
      frame

variable {C A F me}

theorem takenOver_of_lt (hC : C.Lawful) (hbody : LengthPreserving C) {peer : Identity}
    {convId held epoch : ℕ} {nonce key transportKey frame : Buffer} (hpos : held ≠ 0)
    (hf : KeyShareFits ⟨TYPE_KEY_SHARE, convId, me.senderId, peer.senderId, epoch, nonce, key⟩)
    (hframe : transportKey.length = 32 → frame = keyShareFrame C transportKey
      ⟨TYPE_KEY_SHARE, convId, me.senderId, peer.senderId, epoch, nonce, key⟩) (hlt : held < epoch) :
    TakenOver C A F me peer convId held epoch key transportKey frame := by
  constructor
  · intro r hr
    obtain ⟨_, -, hpair⟩ := Option.bind_eq_some_iff.mp hr.transport
    rw [hframe (pairwiseKey_length hC hpair)]
    exact (keyShare_holds_iff hC hbody hf rfl hr hpos (Nat.ne_of_gt hlt)).mpr hlt
  · intro r hr
    obtain ⟨_, -, hpair⟩ := Option.bind_eq_some_iff.mp hr.transport
    rw [hframe (pairwiseKey_length hC hpair)]
    exact (GoClient.keyShare_holds_iff hC hbody hf rfl hr (Nat.ne_of_gt hlt)).mpr hlt

theorem Client.rotates_iff (hC : C.Lawful) (hbody : LengthPreserving C) (hme : me.Lawful)
    {convId epoch : ℕ} (hconv : convId < 65536) (hid : me.senderId < 65536) (hpos : epoch ≠ 0)
    {s : Client} (hs : s.Leads convId epoch) {m : ℕ} {pub : Buffer}
    (hpub : get₂ s.roster convId m = some pub) (hne : m ≠ me.senderId) :
    s.Rotates C A F me convId epoch ↔ epoch ≤ 65534 ∧ AllPoints C me s.roster convId := by
  constructor
  · intro h
    refine ⟨?_, fun m' pub' hpub' hne' => ?_⟩
    · obtain ⟨_, _, _, _, -, henc, -⟩ := h.told m pub hpub hne
      have hfits : epoch + 1 < 65536 := (encodeKeyShare_fits henc).2.2.2
      omega
    · obtain ⟨transportKey, _, _, _, hpair, -⟩ := h.told m' pub' hpub' hne'
      exact Option.isSome_iff_exists.mpr ⟨transportKey, hpair⟩
  · rintro ⟨htop, hpoints⟩
    have hcan : ∀ m pub, get₂ s.roster convId m = some pub → m ≠ me.senderId →
        CanShare C me convId (epoch + 1) m pub := fun m pub hpub hne =>
      ⟨hconv, hid, hs.ids m pub hpub, by omega, hpoints m pub hpub hne⟩
    refine ⟨?_, ?_, ?_, ?_⟩
    · have hsending : s.sendingEpoch convId = epoch := by
        rw [Client.sendingEpoch, hs.current, orDefault_some_pos 1 hpos]
      rw [← hsending]
      exact rekey_holds hs.creator
    · exact (rekey_ready_iff hC hbody hme hs.creator hs.current hpos).mpr (.inl hcan)
    · intro m pub hpub hne
      exact rekey_shares hC hbody hme hs.isOpen hs.creator hs.current hpos hcan hpub hne
    · intro peer nonce transportKey frame hnonce henc
      obtain ⟨hconv', hsender, htarget, hepoch⟩ := encodeKeyShare_fits henc
      have hf : KeyShareFits ⟨TYPE_KEY_SHARE, convId, me.senderId, peer.senderId, epoch + 1, nonce,
        me.random s.draws 32⟩ := ⟨rfl, hconv', hsender, htarget, hepoch, hnonce, hme _ _⟩
      refine takenOver_of_lt hC hbody hpos hf (fun hlen => ?_) (Nat.lt_succ_self epoch)
      rw [encodeKeyShare_wire hlen hf, Option.some.injEq] at henc
      exact henc.symm

theorem GoClient.NativeDartClient.rotates_iff (hC : C.Lawful) (hbody : LengthPreserving C)
    (hme : me.Lawful) {convId epoch : ℕ} (hconv : convId < 65536) (hid : me.senderId < 65536)
    (hpos : epoch ≠ 0) (htop : epoch ≤ 65535) {s : GoClient.NativeDartClient}
    (hs : s.Leads convId epoch) {peer : Identity} (hpeer : peer.senderId < 65536)
    {transportKey : Buffer} {r : GoClient.NativeDartClient}
    (hr : r.Follows C peer me.senderId convId epoch transportKey) :
    s.Rotates C A F me convId epoch ↔ epoch ≤ 65534 ∧ AllPoints C me s.roster convId := by
  have hsmall : GoClient.sharedEpoch epoch < 65536 := by
    rw [GoClient.sharedEpoch]
    split <;> omega
  have hfits : ∀ {peer : Identity} {nonce : Buffer}, peer.senderId < 65536 → nonce.length = 12 →
      KeyShareFits ⟨TYPE_KEY_SHARE, convId, me.senderId, peer.senderId, GoClient.sharedEpoch epoch,
        nonce, me.random s.draws 32⟩ := fun hpeer hnonce =>
    ⟨rfl, hconv, hid, hpeer, hsmall, hnonce, hme _ _⟩
  constructor
  · intro h
    refine ⟨?_, fun m pub hpub hne => ?_⟩
    · by_contra hover
      obtain rfl : epoch = 65535 := by omega
      have hf := hfits hpeer (show (Buffer.alloc 12).length = 12 by decide)
      obtain ⟨_, -, hpair⟩ := Option.bind_eq_some_iff.mp hr.transport
      have henc := goEncodeKeyShare_wire (C := C) (pairwiseKey_length hC hpair) A hf
      have htaken := (h.taken peer _ _ _ (show (Buffer.alloc 12).length = 12 by decide) hpeer henc).2 r hr
      have hlt := (GoClient.keyShare_holds_iff hC hbody hf rfl hr
        (show GoClient.sharedEpoch 65535 ≠ 65535 by decide)).mp htaken
      exact absurd hlt (show ¬ 65535 < GoClient.sharedEpoch 65535 by decide)
    · obtain ⟨transportKey, _, _, _, hpair, -⟩ := h.told m pub hpub hne
      exact Option.isSome_iff_exists.mpr ⟨transportKey, hpair⟩
  · rintro ⟨hbelow, hpoints⟩
    have hnext : GoClient.sharedEpoch epoch = epoch + 1 := by
      rw [GoClient.sharedEpoch, Nat.mod_eq_of_lt (by omega), if_neg (Nat.succ_ne_zero epoch)]
    refine ⟨GoClient.doRekey_holds hs.creator hs.current hpos, ?_, ?_⟩
    · intro m pub hpub hne
      refine GoClient.doRekey_shares hC hme hs.creator hs.current hpos hs.hasKey hpub hne ?_
      exact ⟨hconv, hid, hs.ids m pub hpub, by omega, hpoints m pub hpub hne⟩
    · intro peer nonce transportKey frame hnonce hpeer henc
      have hf := hfits hpeer hnonce
      refine takenOver_of_lt hC hbody hpos hf (fun hlen => ?_) (by omega)
      rw [goEncodeKeyShare_wire hlen A hf, Option.some.injEq, Option.some.injEq] at henc
      exact henc.symm

/-- **Exactly which rotations work.**  Let a creator in either program be at an epoch from `1` to `65535`,
with another member in its roster.  It rotates, with everyone told and the key taken over by every member
at that epoch, if and only if the epoch is not the last one, and every other member's public key is a
point. -/
theorem rotation_works_iff (hC : C.Lawful) (hbody : LengthPreserving C) (hme : me.Lawful)
    {convId epoch : ℕ} (hconv : convId < 65536) (hid : me.senderId < 65536) (hpos : 1 ≤ epoch)
    (htop : epoch ≤ 65535) {peer : Identity} (hpeer : peer.senderId < 65536)
    (hne : peer.senderId ≠ me.senderId) :
    (∀ (s : Client) (pub : Buffer), s.Leads convId epoch →
      get₂ s.roster convId peer.senderId = some pub →
      (s.Rotates C A F me convId epoch ↔ epoch ≤ 65534 ∧ AllPoints C me s.roster convId)) ∧
    ∀ (s r : GoClient.NativeDartClient) (transportKey : Buffer), s.Leads convId epoch →
      r.Follows C peer me.senderId convId epoch transportKey →
      (s.Rotates C A F me convId epoch ↔ epoch ≤ 65534 ∧ AllPoints C me s.roster convId) := by
  have hzero : epoch ≠ 0 := Nat.ne_of_gt hpos
  exact ⟨fun s pub hs hpub => Client.rotates_iff hC hbody hme hconv hid hzero hs hpub hne,
    fun s r transportKey hs hr =>
      GoClient.NativeDartClient.rotates_iff hC hbody hme hconv hid hzero htop hs hpeer hr⟩

end Rotation

/-! ### Runs -/

/-- A creator that founded the first key, with one other member. -/
def sumFounder : Client := stateAfter sumCrypto (sumIdentity 1) [.message (sumMemberInfo 5 1 true [1, 2])]

def GoClient.sumFounder : GoClient.NativeDartClient :=
  GoClient.stateAfter sumCrypto Wire.sumAes sumFlate (sumIdentity 1) ""
    [.message (sumMemberInfo 5 1 true [1, 2])]

/-- The other member, with the key of an epoch. -/
def GoClient.sumMember (epoch : ℕ) : GoClient.NativeDartClient :=
  GoClient.stateAfter sumCrypto Wire.sumAes sumFlate (sumIdentity 2) ""
    [.message (sumMemberInfo 5 2 false [1, 2]), .message (sumKeyShare 5 1 2 epoch)]

theorem listed_of_entries {roster : NumMap (NumMap Buffer)} {convId : ℕ}
    (h : ∀ p ∈ ((roster.get convId).getD ∅).entries, p.1 < 65536 ∧
      (pairwiseKey sumCrypto (sumIdentity 1).privateKey p.2).isSome) {m : ℕ} {pub : Buffer}
    (hpub : get₂ roster convId m = some pub) :
    m < 65536 ∧ (pairwiseKey sumCrypto (sumIdentity 1).privateKey pub).isSome := by
  obtain ⟨members, hmembers, hget⟩ := Option.bind_eq_some_iff.mp hpub
  rw [hmembers, Option.getD_some] at h
  exact h (m, pub) (mem_entries_iff_get.mpr hget)

/-- The first rotation works. -/
theorem first_rotation_works :
    sumFounder.Rotates sumCrypto Wire.sumAes sumFlate (sumIdentity 1) 5 1 ∧
      GoClient.sumFounder.Rotates sumCrypto Wire.sumAes sumFlate (sumIdentity 1) 5 1 := by
  have hiff := rotation_works_iff (A := Wire.sumAes) (F := sumFlate) sumCrypto_lawful
    sumCrypto_lengthPreserving (sumIdentity_lawful 1) (show 5 < 65536 by decide)
    (show (sumIdentity 1).senderId < 65536 by decide) (show 1 ≤ 1 by decide) (show 1 ≤ 65535 by decide)
    (show (sumIdentity 2).senderId < 65536 by decide)
    (show (sumIdentity 2).senderId ≠ (sumIdentity 1).senderId by decide)
  constructor
  · have hlisted : ∀ {m : ℕ} {pub : Buffer}, get₂ sumFounder.roster 5 m = some pub → _ :=
      listed_of_entries (by decide +kernel)
    have hlead : sumFounder.Leads 5 1 :=
      ⟨by decide +kernel, by decide +kernel, by decide +kernel,
        fun m pub hpub => (hlisted hpub).1⟩
    exact (hiff.1 _ (bytesBE 65 2) hlead (by decide +kernel)).mpr
      ⟨by decide, fun m pub hpub _ => (hlisted hpub).2⟩
  · have hlisted : ∀ {m : ℕ} {pub : Buffer}, get₂ GoClient.sumFounder.roster 5 m = some pub → _ :=
      listed_of_entries (by decide +kernel)
    have hlead : GoClient.sumFounder.Leads 5 1 :=
      ⟨by decide +kernel, by decide +kernel, by decide +kernel,
        fun m pub hpub => (hlisted hpub).1⟩
    exact (hiff.2 _ (GoClient.sumMember 1) (sumPairwise 1 2) hlead
      ⟨by decide +kernel, by decide +kernel, by decide +kernel⟩).mpr
      ⟨by decide, fun m pub hpub _ => (hlisted hpub).2⟩

/-- The KEY_SHARE frames for the other member. -/
def sharesFor (os : List GoClient.Output) : List Buffer :=
  os.filterMap fun
    | .udp frame => if frame.readUInt8 0 = some TYPE_KEY_SHARE then some frame else none
    | _ => none

/-- **The last epoch.**  A client that took over epoch `65534` becomes the creator, moves on to `65535`
and rotates once more.  In TypeScript it then has the key of epoch `65536` and no chain for it.  In Go it
is at epoch zero, and a member at epoch `65535` that is sent the share stays where it is. -/
theorem last_epoch_not_rotated :
    let run := [sumMemberInfo 5 1 false [1, 2], sumKeyShare 5 2 1 65534, sumMemberInfo 5 1 true [1, 2]]
    let s := stateAfter sumCrypto (sumIdentity 1) (run.map .message)
    let g := GoClient.stateAfter sumCrypto Wire.sumAes sumFlate (sumIdentity 1) "" (run.map .message)
    let rotated := GoClient.doRekey sumCrypto Wire.sumAes (sumIdentity 1) 5 .rekey (pure ()) g
    (s.currentEpochs.get 5 = some 65535 ∧ s.isCreator.get 5 = some true ∧
      (rekey sumCrypto (sumIdentity 1) 5 s).state.currentEpochs.get 5 = some 65536 ∧
      (rekey sumCrypto (sumIdentity 1) 5 s).state.getChain 5 65536 1 = none) ∧
    g.codec.currentEpochs.get 5 = some 65535 ∧ g.isCreator.get 5 = some true ∧
      rotated.state.codec.currentEpochs.get 5 = some 0 ∧ sharesFor rotated.output ≠ [] ∧
      ∀ frame ∈ sharesFor rotated.output,
        (GoClient.step sumCrypto Wire.sumAes sumFlate (sumIdentity 2) (.message frame)
          (GoClient.sumMember 65535)).state.codec.currentEpochs.get 5 = some 65535 ∧
        (GoClient.step sumCrypto Wire.sumAes sumFlate (sumIdentity 2) (.message frame)
          (GoClient.sumMember 65535)).state.codec.convKeys.get 5
            ≠ rotated.state.codec.convKeys.get 5 := by
  decide +kernel

end DartProtocol
