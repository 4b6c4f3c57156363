import DartProtocol.Adoption

/-!
# A current key and its sending chain

`sendData` needs an own chain for the current epoch; without one it uses up a number and sends nothing.
`adoptKey` enters the key and the epoch first and starts the chain last, and shares the key in between.
A roster entry that is no curve point makes that sharing throw, `handleMessage` hides the exception,
and the client is left with a current epoch that has no chain.

* `Client.Ready` — the current epoch of a conversation has a key, a seed, and an own chain on it;
* `KeepsUp` — what an event must not do: enter a key that it cannot share, for an epoch without a
  chain, or take over an own chain of the current epoch that does not lie on its seed.

**Main result** (`always_ready_iff`): a client is ready in every state of a run exactly when every
event of the run keeps up.  `invalid_point_stops_sending` is a run in which a member whose key is no
point stops the creator from sending.
-/

namespace DartProtocol

open InsertionMap Buffer

variable {C : Crypto} {me : Identity}

/-- The own chain of an epoch lies on the seed that is kept for it. -/
def Client.OnSeed (C : Crypto) (me : Identity) (s : Client) (convId epoch : ℕ) : Prop :=
  ∃ seed chain, get₂ s.chainSeeds convId epoch = some ⟨seed, 0⟩ ∧
    s.getChain convId epoch me.senderId = some chain ∧ chain.key = chainSteps C chain.index seed

/-- **Ready to send**: the current epoch, if there is one, has a group key, a seed and a chain. -/
def Client.Ready (C : Crypto) (me : Identity) (s : Client) (convId : ℕ) : Prop :=
  ∀ epoch, s.currentEpochs.get convId = some epoch →
    (get₂ s.roomKeys convId epoch).isSome ∧ s.OnSeed C me convId epoch

variable {s : Client} {convId : ℕ}

/-- A client that is ready uses a key of its chain when it sends.  Epoch `0` counts as none. -/
theorem Client.Ready.sends {epoch : ℕ} (h : s.Ready C me convId)
    (hepoch : s.currentEpochs.get convId = some epoch) (hpos : epoch ≠ 0) (os : List Output)
    (payload : String) : (useOf me os s (.sendData convId payload)).isSome := by
  obtain ⟨-, seed, chain, -, hchain, -⟩ := h epoch hepoch
  have hsending : s.sendingEpoch convId = epoch := by
    rw [Client.sendingEpoch, hepoch, orDefault_some_pos 1 hpos]
  rw [useOf, hsending, hchain]
  rfl

/-! ### What keeps a client ready -/

theorem Client.OnSeed.of_keyring {t : Client} (h : t.keyring = s.keyring) {epoch : ℕ} :
    t.OnSeed C me convId epoch ↔ s.OnSeed C me convId epoch := by
  simp only [Client.keyring, Client.epochKeys, Prod.mk.injEq] at h
  rw [Client.OnSeed, Client.OnSeed, Client.getChain, Client.getChain, h.1.2.2.2, h.2]

theorem Client.Ready.of_keyring {t : Client} (h : t.keyring = s.keyring) :
    t.Ready C me convId ↔ s.Ready C me convId := by
  have hfields := h
  simp only [Client.keyring, Client.epochKeys, Prod.mk.injEq] at hfields
  rw [Client.Ready, Client.Ready, hfields.1.1, hfields.1.2.2.1]
  exact forall₂_congr fun epoch _ => and_congr_right fun _ => Client.OnSeed.of_keyring h

theorem MovesOn.onSeed {t : Client} {os : List Output} (h : MovesOn C me s os t) {epoch : ℕ}
    (hs : s.OnSeed C me convId epoch) : t.OnSeed C me convId epoch := by
  obtain ⟨hkeys, hchains⟩ := h
  obtain ⟨seed, chain, hseed, hchain, hkey⟩ := hs
  obtain ⟨chain', hchain', hle, hkey'⟩ := hchains convId epoch chain hchain
  simp only [Client.epochKeys, Prod.mk.injEq] at hkeys
  refine ⟨seed, chain', by rw [hkeys.2.2.2, hseed], hchain', ?_⟩
  rw [hkey', hkey, ← chainSteps_add]
  congr 1
  omega

theorem MovesOn.ready {t : Client} {os : List Output} (h : MovesOn C me s os t)
    (hs : s.Ready C me convId) : t.Ready C me convId := by
  have hkeys := h.1
  simp only [Client.epochKeys, Prod.mk.injEq] at hkeys
  intro epoch hepoch
  rw [hkeys.1] at hepoch
  rw [hkeys.2.2.1]
  exact ⟨(hs epoch hepoch).1, h.onSeed (hs epoch hepoch).2⟩

/-! ### Adoptions -/

theorem onSeed_startChain (s : Client) (convId epoch : ℕ) (seed : Buffer) :
    (startChain me convId epoch seed s).OnSeed C me convId epoch := by
  refine ⟨seed, ⟨seed, 0⟩, ?_, Client.getChain_setChain_self .., rfl⟩
  show get₂ (set₂ s.chainSeeds convId epoch ⟨seed, 0⟩) convId epoch = _
  rw [get₂_set₂, if_pos ⟨rfl, rfl⟩]

/-- A key and a chain for one conversation leave the others alone. -/
theorem ready_startChain_other {c : ℕ} (hne : convId ≠ c) (epoch : ℕ)
    (seed : Buffer) : (startChain me convId epoch seed s).Ready C me c ↔ s.Ready C me c := by
  have hseeds : ∀ e,
      get₂ (startChain me convId epoch seed s).chainSeeds c e = get₂ s.chainSeeds c e := by
    intro e
    show get₂ (set₂ s.chainSeeds convId epoch ⟨seed, 0⟩) c e = _
    rw [get₂_set₂, if_neg fun h => hne h.1]
  have hchains : ∀ e, (startChain me convId epoch seed s).getChain c e me.senderId
      = s.getChain c e me.senderId := by
    intro e
    show (s.setChain convId epoch me.senderId ⟨seed, 0⟩).getChain c e me.senderId = _
    rw [Client.getChain_setChain, if_neg fun h => hne h.1]
  rw [Client.Ready, Client.Ready]
  refine forall₂_congr fun e _ => and_congr_right fun _ => ?_
  rw [Client.OnSeed, Client.OnSeed, hseeds, hchains]

theorem ready_installKey_other {c : ℕ} (hne : convId ≠ c) (epoch : ℕ)
    (key : Buffer) : (installKey convId epoch key s).Ready C me c ↔ s.Ready C me c := by
  have hcurrent : (installKey convId epoch key s).currentEpochs.get c = s.currentEpochs.get c := by
    show (s.currentEpochs.set convId epoch).get c = _
    rw [get_set, if_neg hne]
  have hkeys : ∀ e, get₂ (installKey convId epoch key s).roomKeys c e = get₂ s.roomKeys c e := by
    intro e
    show get₂ (set₂ s.roomKeys convId epoch key) c e = _
    rw [get₂_set₂, if_neg fun h => hne h.1]
  rw [Client.Ready, Client.Ready, hcurrent]
  refine forall₂_congr fun e _ => ?_
  rw [hkeys]
  exact Iff.rfl

/-- In its own conversation an adoption is complete once the new epoch has a chain. -/
theorem ready_entered_iff {epoch : ℕ} {key : Buffer}
    (hcurrent : s.currentEpochs.get convId = some epoch)
    (hkey : get₂ s.roomKeys convId epoch = some key) :
    s.Ready C me convId ↔ s.OnSeed C me convId epoch := by
  constructor
  · exact fun h => (h epoch hcurrent).2
  · intro h e he
    rw [hcurrent] at he
    cases he
    exact ⟨by rw [hkey]; rfl, h⟩

theorem ready_pruneEpochs (s : Client) (convId c : ℕ) :
    (pruneEpochs convId s).Ready C me c ↔ s.Ready C me c := by
  cases hkeys : s.roomKeys.get convId with
  | none =>
    have hsame : pruneEpochs convId s = s := by
      rw [pruneEpochs, hkeys]
    rw [hsame]
  | some keys =>
    rw [Client.Ready, Client.Ready, (pruneEpochs_keeps convId s).2.1]
    refine forall₂_congr fun e he => ?_
    have hold : c = convId → ¬ e + 4 < orDefault (s.currentEpochs.get convId) 0 := by
      rintro rfl
      rw [he, orDefault_zero, Option.getD_some]
      omega
    have hroom : get₂ (pruneEpochs convId s).roomKeys c e = get₂ s.roomKeys c e := by
      rw [pruneEpochs, hkeys]
      show get₂ (s.roomKeys.set convId _) c e = _
      rw [get₂, get_set]
      split
      · rename_i hc
        rw [get₂, ← hc, hkeys, Option.bind_some, Option.bind_some, get_retain]
        cases keys.get e with
        | none => rfl
        | some key => simp [Option.filter, hold hc.symm]
      · rfl
    have hseeds : get₂ (pruneEpochs convId s).chainSeeds c e = get₂ s.chainSeeds c e := by
      rw [pruneEpochs, hkeys]
      dsimp only
      cases hs : s.chainSeeds.get convId with
      | none => rfl
      | some seeds =>
        rw [get₂, get_set]
        split
        · rename_i hc
          rw [get₂, ← hc, hs, Option.bind_some, Option.bind_some, get_retain]
          cases seeds.get e with
          | none => rfl
          | some seed => simp [Option.filter, hold hc.symm]
        · rfl
    have hchain : (pruneEpochs convId s).getChain c e me.senderId = s.getChain c e me.senderId := by
      rw [Client.getChain, (pruneEpochs_keeps convId s).2.2, Client.getChain]
    rw [Client.OnSeed, Client.OnSeed, hroom, hseeds, hchain]

/-- **What an adoption leaves**: in its own conversation the client is ready exactly when the key could
be shared or the epoch had a chain already; the other conversations are as before. -/
theorem Adoption.ready_final_iff {a : Adoption} (hbase : a.base.keyring = s.keyring)
    (c : ℕ) : (a.final C me).Ready C me c ↔
      if a.convId = c then a.Serves C me ∨ s.OnSeed C me a.convId a.epoch else s.Ready C me c := by
  have hfinal : (a.final C me).Ready C me c ↔ (a.outcome C me).state.Ready C me c := by
    rw [Adoption.final]
    split
    · exact ready_pruneEpochs _ _ c
    · exact Iff.rfl
  have hcurrent : a.entered.currentEpochs.get a.convId = some a.epoch := get_set_self ..
  have hkey : get₂ a.entered.roomKeys a.convId a.epoch = some a.key := by
    show get₂ (set₂ a.base.roomKeys a.convId a.epoch a.key) a.convId a.epoch = _
    rw [get₂_set₂, if_pos ⟨rfl, rfl⟩]
  rw [hfinal]
  by_cases hserves : a.Serves C me
  · obtain ⟨seed, hring⟩ := outcome_of_serves hserves
    rw [Client.Ready.of_keyring hring]
    split
    · rename_i hc
      subst hc
      rw [ready_entered_iff (s := startChain me a.convId a.epoch seed a.entered) hcurrent hkey]
      simp only [onSeed_startChain, hserves, true_or]
    · rename_i hc
      rw [ready_startChain_other hc, Adoption.entered, ready_installKey_other hc,
        Client.Ready.of_keyring hbase]
  · rw [Client.Ready.of_keyring (outcome_of_not_serves hserves).2]
    split
    · rename_i hc
      subst hc
      have hsame : a.entered.OnSeed C me a.convId a.epoch ↔ a.base.OnSeed C me a.convId a.epoch :=
        Iff.rfl
      rw [ready_entered_iff hcurrent hkey, hsame, Client.OnSeed.of_keyring hbase]
      simp only [hserves, false_or]
    · rename_i hc
      rw [Adoption.entered, ready_installKey_other hc, Client.Ready.of_keyring hbase]

/-! ### Events and runs -/

/-- A chain share in the own name, for the current epoch, lies on the seed that is kept. -/
def OwnShareFits (C : Crypto) (me : Identity) (s : Client) (buf : Buffer) : Prop :=
  ∀ convId key decoded, shareTransportKey C me s buf = some (some (convId, key)) →
    Codec.decodeChainShare C buf key = some decoded → decoded.senderId = me.senderId →
    s.currentEpochs.get convId = some decoded.epoch →
    ∃ seed, get₂ s.chainSeeds convId decoded.epoch = some ⟨seed, 0⟩ ∧
      decoded.chainKey = chainSteps C decoded.chainIndex seed

/-- **What an event has to respect**: a key is entered only when it can be shared, unless its epoch has
a chain already, and chain shares in the own name fit. -/
structure KeepsUp (C : Crypto) (me : Identity) (s : Client) (e : Event) : Prop where
  adopts : ∀ a, adoptionOf C me s e = some a → a.Serves C me ∨ s.OnSeed C me a.convId a.epoch
  shares : ∀ buf, e = .message buf → s.closed = false → buf.readUInt8 0 = some TYPE_CHAIN_SHARE →
    OwnShareFits C me s buf

/-- Keeping up, in terms of the members who are to be given a key. -/
theorem keepsUp_iff (hC : C.Lawful) (hbody : LengthPreserving C) (hme : me.Lawful) {e : Event}
    (hfits : ∀ a, adoptionOf C me s e = some a → a.key.length = 32 ∧ a.epoch ≠ 0) :
    KeepsUp C me s e ↔
      (∀ a, adoptionOf C me s e = some a →
        (∀ m pub, get₂ a.base.roster a.convId m = some pub → m ≠ me.senderId →
          CanShare C me a.convId a.epoch m pub) ∨ s.OnSeed C me a.convId a.epoch) ∧
      ∀ buf, e = .message buf → s.closed = false → buf.readUInt8 0 = some TYPE_CHAIN_SHARE →
        OwnShareFits C me s buf := by
  refine ⟨fun h => ⟨fun a ha => ?_, h.shares⟩, fun h => ⟨fun a ha => ?_, h.2⟩⟩
  · exact (h.adopts a ha).imp_left (serves_iff hC hbody hme (hfits a ha).1 (hfits a ha).2).mp
  · exact (h.1 a ha).imp_left (serves_iff hC hbody hme (hfits a ha).1 (hfits a ha).2).mpr

theorem chainShare_ready_iff (hs : ∀ c, s.Ready C me c) (buf : Buffer) :
    (∀ c, (handleChainShare C me buf s).state.Ready C me c) ↔ OwnShareFits C me s buf := by
  constructor
  · intro h convId key decoded hopen hdec hself hcurrent
    have hrun : (handleChainShare C me buf s).state = s.setChain convId decoded.epoch decoded.senderId
        ⟨decoded.chainKey, decoded.chainIndex⟩ := by
      rw [handleChainShare, Prog.get_bind, hopen, Prog.ofOption_some_bind]
      simp only [hdec]
      rfl
    have hready := h convId
    rw [hrun] at hready
    obtain ⟨-, seed, chain, hseed, hchain, hkey⟩ := hready decoded.epoch hcurrent
    rw [hself, Client.getChain_setChain_self, Option.some.injEq] at hchain
    subst hchain
    exact ⟨seed, hseed, hkey⟩
  · intro h c
    rcases (handleChainShare_run buf s).1 with hsame | ⟨convId, key, decoded, hopen, hdec, hset⟩
    · rw [hsame]
      exact hs c
    · rw [hset]
      intro epoch hepoch
      obtain ⟨hroom, seed, chain, hseed, hchain, hkey⟩ := hs c epoch hepoch
      refine ⟨hroom, ?_⟩
      by_cases hown : convId = c ∧ decoded.epoch = epoch ∧ decoded.senderId = me.senderId
      · obtain ⟨rfl, rfl, hself⟩ := hown
        obtain ⟨seed', hseed', hkey'⟩ := h convId key decoded hopen hdec hself hepoch
        refine ⟨seed', ⟨decoded.chainKey, decoded.chainIndex⟩, hseed', ?_, hkey'⟩
        rw [hself, Client.getChain_setChain_self]
      · refine ⟨seed, chain, hseed, ?_, hkey⟩
        rw [Client.getChain_setChain, if_neg hown]
        exact hchain

/-- **One event** leaves a client ready exactly when it keeps up. -/
theorem step_ready_iff (hs : ∀ c, s.Ready C me c) (e : Event) :
    (∀ c, (step C me e s).state.Ready C me c) ↔ KeepsUp C me s e := by
  cases hadopt : adoptionOf C me s e with
  | some a =>
    obtain ⟨hbase, hfinal⟩ := step_adopts hadopt
    have hno : ∀ buf, e = .message buf → s.closed = false →
        buf.readUInt8 0 ≠ some TYPE_CHAIN_SHARE := by
      rintro buf rfl hopen htype
      rw [adoptionOf, if_neg (by simp [hopen]), htype, if_neg (by decide), if_neg (by decide)]
        at hadopt
      cases hadopt
    have hready : ∀ c, (step C me e s).state.Ready C me c ↔
        if a.convId = c then a.Serves C me ∨ s.OnSeed C me a.convId a.epoch else s.Ready C me c :=
      fun c => (Client.Ready.of_keyring hfinal).trans (a.ready_final_iff hbase c)
    constructor
    · intro h
      refine ⟨?_, fun buf he hopen htype => absurd htype (hno buf he hopen)⟩
      rintro b hb
      rw [hadopt] at hb
      cases hb
      have hown := (hready a.convId).mp (h a.convId)
      rwa [if_pos rfl] at hown
    · intro h c
      rw [hready]
      split
      · exact h.adopts a hadopt
      · exact hs c
  | none =>
    by_cases hshare : ∃ buf, e = .message buf ∧ s.closed = false ∧
        buf.readUInt8 0 = some TYPE_CHAIN_SHARE
    · obtain ⟨buf, rfl, hopen, htype⟩ := hshare
      have hrun : (step C me (.message buf) s).state = (handleChainShare C me buf s).state := by
        rw [step_message_of_type C me hopen htype]
        rfl
      rw [hrun, chainShare_ready_iff hs]
      constructor
      · refine fun h => ⟨fun a ha => ?_, fun b hb _ _ => ?_⟩
        · rw [hadopt] at ha
          cases ha
        · cases hb
          exact h
      · exact fun h => h.shares buf rfl hopen htype
    · have hmoves := step_advances hadopt fun buf he hopen htype => hshare ⟨buf, he, hopen, htype⟩
      refine ⟨fun _ => ⟨fun a ha => ?_, fun buf he hopen htype => ?_⟩, fun _ c => hmoves.ready (hs c)⟩
      · rw [hadopt] at ha
        cases ha
      · exact absurd ⟨buf, he, hopen, htype⟩ hshare

/-- **Ready in every state**: a run keeps its client ready to send exactly when every event of it keeps
up, in the state it meets. -/
theorem always_ready_iff (C : Crypto) (me : Identity) (es : List Event) :
    (∀ before, before <+: es → ∀ c, (stateAfter C me before).Ready C me c) ↔
      ∀ before e, before ++ [e] <+: es → KeepsUp C me (stateAfter C me before) e := by
  refine Prog.throughout_iff (P := fun s : Client => ∀ c, s.Ready C me c) ?_ ?_ es
  · intro c epoch hepoch
    cases hepoch
  · intro before e hbefore
    rw [stateAfter_concat]
    exact step_ready_iff hbefore e

/-! ### A member whose key is no point -/

/-- A library in which a public key is a point only when it starts with the format byte, here `0`. -/
def pointCrypto : Crypto :=
  { sumCrypto with
    computeSecret := fun privateKey peerPubKey =>
      if peerPubKey.head? = some 0 then sumCrypto.computeSecret privateKey peerPubKey else none }

/-- The roster of client 1, who is the creator, with client 2 under some key. -/
def foundingInfo (pub : Buffer) : Buffer :=
  sumServerInfo 9 5 1 true [⟨1, bytesBE 65 1⟩, ⟨2, pub⟩]

/-- With a key that is a point the creator is ready throughout. -/
theorem valid_point_ready : ∀ before,
    before <+: [.message (foundingInfo (bytesBE 65 2)), .sendData 5 "a"] →
      ∀ c, (stateAfter pointCrypto (sumIdentity 1) before).Ready pointCrypto (sumIdentity 1) c := by
  refine (always_ready_iff pointCrypto (sumIdentity 1) _).mpr ?_
  intro before e hp
  obtain ⟨rest, hrest⟩ := hp
  match before with
  | [] =>
    obtain rfl : e = .message (foundingInfo (bytesBE 65 2)) := (List.cons.inj hrest).1
    have hserves : ((adoptionOf pointCrypto (sumIdentity 1) {}
        (.message (foundingInfo (bytesBE 65 2)))).all fun a =>
          decide (a.Serves pointCrypto (sumIdentity 1))) = true := by
      decide +kernel
    refine ⟨fun a ha => Or.inl ?_, ?_⟩
    · rw [show stateAfter pointCrypto (sumIdentity 1) [] = {} from rfl] at ha
      rw [ha] at hserves
      exact of_decide_eq_true hserves
    · rintro buf hbuf - htype
      rw [← Event.message.inj hbuf] at htype
      exact absurd htype (by decide +kernel)
  | x :: before =>
    have he : e ∈ before ++ [e] ++ rest := by simp
    have htail : before ++ [e] ++ rest = [.sendData 5 "a"] := (List.cons.inj hrest).2
    rw [htail, List.mem_singleton] at he
    subst he
    refine ⟨fun a ha => ?_, fun buf hbuf => ?_⟩
    · cases ha
    · cases hbuf

/-- **A key that is no point stops the creator.**  The current epoch has a key but neither a seed nor
a chain, and what the application sends goes nowhere. -/
theorem invalid_point_stops_sending :
    let pub := 1 :: Buffer.alloc 64
    let s := stateAfter pointCrypto (sumIdentity 1) [.message (foundingInfo pub)]
    s.currentEpochs.get 5 = some 1 ∧ (get₂ s.roomKeys 5 1).isSome ∧
      get₂ s.chainSeeds 5 1 = none ∧ s.getChain 5 1 1 = none ∧
      (sendData pointCrypto (sumIdentity 1) 5 "a" s).output = [] := by
  decide +kernel

end DartProtocol
