import DartProtocol.ClientRules
import DartProtocol.ControlFrames
import DartProtocol.WireRoundTrip

/-!
# When a share can be sent

Sharing a key or a chain encodes one frame for every other member and hands it to the transport.  An
id or an epoch that does not fit its field, or a public key that is no point, ends the handler with an
exception; the members that come later in the roster are then marked without having got anything.

* `CanShare`, `CanServe` — a share of an epoch can be handed to a member, and to everybody in a roster;
* `shareWithNewMembers_returns_iff` — sharing the group key goes through exactly when every member that
  is not marked can be given it;
* `shareChainWithMembers_returns` — the same condition is enough for the own chain.
-/

namespace DartProtocol

open Prog InsertionMap Buffer Wire

variable {C : Crypto} {me : Identity} {convId epoch m : ℕ} {pub : Buffer} {s : Client}

/-- The fields of a share fit their widths, and the member's public key is a point. -/
@[mk_iff] structure CanShare (C : Crypto) (me : Identity) (convId epoch m : ℕ) (pub : Buffer) :
    Prop where
  convId : convId < 65536
  senderId : me.senderId < 65536
  targetId : m < 65536
  epoch : epoch < 65536
  point : (pairwiseKey C me.privateKey pub).isSome

instance : Decidable (CanShare C me convId epoch m pub) :=
  decidable_of_iff _ (canShare_iff C me convId epoch m pub).symm

/-- Everybody else in a roster can be given a share of the epoch. -/
def CanServe (C : Crypto) (me : Identity) (convId epoch : ℕ) (roster : NumMap Buffer) : Prop :=
  ∀ entry ∈ roster.entries, entry.1 ≠ me.senderId → CanShare C me convId epoch entry.1 entry.2

instance (roster : NumMap Buffer) : Decidable (CanServe C me convId epoch roster) := by
  unfold CanServe
  infer_instance

theorem CanServe.get {roster : NumMap Buffer} (h : CanServe C me convId epoch roster)
    (hpub : roster.get m = some pub) (hne : m ≠ me.senderId) : CanShare C me convId epoch m pub :=
  h (m, pub) (mem_entries_iff_get.mpr hpub) hne

theorem mem_shareTargets {roster : NumMap Buffer} {done : Finset ℕ}
    (h : m ∈ shareTargets me roster done) : ∃ pub, roster.get m = some pub ∧ m ≠ me.senderId := by
  obtain ⟨hmem, hne⟩ := List.mem_filter.mp h
  obtain ⟨pub, hpub⟩ := mem_keys_iff.mp hmem
  exact ⟨pub, hpub, (of_decide_eq_true hne).1⟩

theorem encodeKeyShare_fits {share : KeyShareDart} {key buf : Buffer}
    (h : Codec.encodeKeyShare C share key = some buf) :
    share.convId < 65536 ∧ share.senderId < 65536 ∧ share.targetId < 65536 ∧ share.epoch < 65536 := by
  simp only [Codec.encodeKeyShare, Option.bind_eq_bind, Option.bind_eq_some_iff] at h
  obtain ⟨_, -, _, hconv, _, hsender, _, htarget, _, hepoch, -⟩ := h
  exact ⟨lt_of_writeUIntBE hconv, lt_of_writeUIntBE hsender,
    lt_of_writeUIntBE htarget, lt_of_writeUIntBE hepoch⟩

theorem broadcast_returns {buf : Buffer} (h : buf.length < 65536) (s : Client) :
    (broadcast buf s).result.isSome := by
  cases hclosed : s.closed with
  | true =>
    rw [broadcast, get_bind, if_pos hclosed]
    rfl
  | false =>
    obtain ⟨via, hrun⟩ := broadcast_open hclosed h
    rw [hrun]
    rfl

/-- Sending to every target and setting the retries goes through when the sending does. -/
theorem sendAll_isSome {f : ℕ → ClientProg Unit} {targets : List ℕ} {g : Client → Client} :
    ((if targets = [] then pure () else do
      forEach f targets
      Prog.modify g : ClientProg Unit) s).result.isSome
      ↔ (forEach f targets s).result.isSome := by
  by_cases hnil : targets = []
  · rw [if_pos hnil, hnil]
    exact Iff.rfl
  · rw [if_neg hnil]
    cases hres : (forEach f targets s).result with
    | none => rw [bind_of_none hres]
    | some u =>
      rw [bind_of_some hres]
      exact Iff.rfl

section Deliver

variable (hC : C.Lawful) (hbody : LengthPreserving C) (hme : me.Lawful)
include hC hbody hme

/-- **One share of the group key** goes through exactly when it can be encoded. -/
theorem sendKeyShare_returns_iff {key : Buffer} {roster : NumMap Buffer} (hkey : key.length = 32)
    (hpub : roster.get m = some pub) (s : Client) :
    (sendKeyShare C me convId epoch key roster m s).result.isSome
      ↔ CanShare C me convId epoch m pub := by
  rw [sendKeyShare, hpub, ofOption_some_bind]
  cases htransport : pairwiseKey C me.privateKey pub with
  | none =>
    constructor
    · intro h
      cases h
    · intro h
      have hpoint := h.point
      rw [htransport] at hpoint
      cases hpoint
  | some transportKey =>
    rw [ofOption_some_bind, randomBytes_bind]
    constructor
    · intro h
      obtain ⟨buf, hbuf, -⟩ := ofOption_bind_of_isSome h
      obtain ⟨hconv, hsender, htarget, hepoch⟩ := encodeKeyShare_fits hbuf
      exact ⟨hconv, hsender, htarget, hepoch, by rw [htransport]; rfl⟩
    · intro h
      rw [encodeKeyShare_wire (pairwiseKey_length hC htransport)
        ⟨rfl, h.convId, h.senderId, h.targetId, h.epoch, hme _ _, hkey⟩, ofOption_some_bind]
      refine broadcast_returns ?_ _
      rw [sealedFrame_length hC hbody, hkey]
      simp [keyShareHeader, shareHeader, route_length, hme s.draws 12]

/-- **One share of a chain** goes through when it can be encoded. -/
theorem sendChainShare_returns {chain : ChainState} (hkey : chain.key.length = 32)
    (hindex : chain.index < 2 ^ 32) (hpub : get₂ s.roster convId m = some pub)
    (h : CanShare C me convId epoch m pub) :
    (sendChainShare C me convId epoch m chain s).result.isSome := by
  obtain ⟨transportKey, htransport⟩ := Option.isSome_iff_exists.mp h.point
  rw [sendChainShare, get_bind, hpub]
  simp only
  rw [htransport, ofOption_some_bind, randomBytes_bind,
    encodeChainShare_wire (pairwiseKey_length hC htransport)
      ⟨rfl, h.convId, h.senderId, h.targetId, h.epoch, hme _ _, hkey, hindex⟩, ofOption_some_bind,
    emit_bind]
  refine broadcast_returns ?_ _
  rw [sealedFrame_length hC hbody]
  simp [chainShareHeader, shareHeader, chainSharePayload, route_length, hme s.draws 12, hkey]

/-- **Sharing the group key** goes through exactly when everybody who is not marked can be given it. -/
theorem shareWithNewMembers_returns_iff {key : Buffer} (hkey : s.getCurrentKey convId = some key)
    (hlen : key.length = 32) :
    (shareWithNewMembers C me convId s).result.isSome ↔
      ∀ m pub, get₂ s.roster convId m = some pub → m ≠ me.senderId →
        m ∉ (s.sharedWith.get convId).getD ∅ → CanShare C me convId (s.sendingEpoch convId) m pub := by
  rw [shareWithNewMembers, get_bind]
  simp only [hkey]
  cases hroster : s.roster.get convId with
  | none =>
    refine iff_of_true rfl fun m pub hpub => ?_
    rw [get₂, hroster] at hpub
    cases hpub
  | some roster =>
    have hget : ∀ m, get₂ s.roster convId m = roster.get m := by
      intro m
      rw [get₂, hroster]
      rfl
    simp only [hget]
    rw [modify_bind, sendAll_isSome, forEach_isSome_iff (I := fun _ => True)
      (Q := fun m => ∀ pub, roster.get m = some pub →
        CanShare C me convId (s.sendingEpoch convId) m pub) (fun _ _ _ _ => trivial) ?_ trivial]
    · constructor
      · intro h m pub hpub hne hdone
        refine h m (List.mem_filter.mpr ⟨mem_keys_iff.mpr ⟨pub, hpub⟩, ?_⟩) pub hpub
        exact decide_eq_true ⟨hne, hdone⟩
      · intro h m hm pub hpub
        obtain ⟨hne, hdone⟩ := of_decide_eq_true (List.mem_filter.mp hm).2
        exact h m pub hpub hne hdone
    · intro m hm t _
      obtain ⟨pub, hpub, -⟩ := mem_shareTargets hm
      rw [sendKeyShare_returns_iff hC hbody hme hlen hpub t]
      refine ⟨fun h pub' hpub' => ?_, fun h => h pub hpub⟩
      rw [hpub] at hpub'
      cases hpub'
      exact h

/-- **Sharing the own chain** goes through when everybody else can be given it. -/
theorem shareChainWithMembers_returns
    (hchain : ∀ st, s.getChain convId epoch me.senderId = some st →
      st.key.length = 32 ∧ st.index < 2 ^ 32)
    (hreach : ∀ m pub, get₂ s.roster convId m = some pub → m ≠ me.senderId →
      CanShare C me convId epoch m pub) :
    (shareChainWithMembers C me convId epoch s).result.isSome := by
  rw [shareChainWithMembers, get_bind]
  cases hst : s.getChain convId epoch me.senderId with
  | none => rfl
  | some st =>
    cases hroster : s.roster.get convId with
    | none => rfl
    | some roster =>
      obtain ⟨hkey, hindex⟩ := hchain st hst
      simp only
      -- the loop leaves the roster alone
      rw [modify_bind, sendAll_isSome, forEach_isSome_iff (I := fun t => t.roster = s.roster)
        (Q := fun _ => True) ?_ ?_ rfl]
      · exact fun _ _ => trivial
      · intro m _ t ht
        have hcore : (sendChainShare C me convId epoch m st t).state.core = t.core :=
          sendChainShare_obeys background_core (fun _ _ _ _ _ _ _ => rfl) t
        exact (congrArg (fun c => c.roster) hcore).trans ht
      · intro m hm t ht
        obtain ⟨pub, hpub, hne⟩ := mem_shareTargets hm
        have hlisted : get₂ s.roster convId m = some pub := by
          rw [get₂, hroster]
          exact hpub
        exact iff_of_true (sendChainShare_returns hC hbody hme hkey hindex (by rw [ht]; exact hlisted)
          (hreach m pub hlisted hne)) trivial

end Deliver

end DartProtocol
