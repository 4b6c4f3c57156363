import DartProtocol.VersionedRegister
import DartProtocol.ClientHistory
import DartProtocol.SumCrypto

/-!
# Adopting group keys

A client adopts the group key of a share when it has none, when the share has a newer epoch, or when
it has the same epoch and another key: a creator that was restarted begins again with epoch 1, and
members have to follow it.  So the group key of a conversation is a register with the epoch as its
version (`handleKeyShare_write`), and the order in which shares are handled matters exactly when
shares of the newest epoch carry different keys.

* `keysFit_stateAfter` — in every reachable client the two epoch tables agree, and the key of the
  current epoch is there;
* `heldKey_run` — after any shares, and any retries that fire in between, the client holds what the
  register holds;
* `adoption_order_iff` — exactly when the order does not matter, and the key that every member ends
  with then.
-/

namespace DartProtocol

open Prog InsertionMap

variable {C : Crypto} {me : Identity}

/-! ### The epoch tables of a reachable client -/

/-- The current epoch is the adopted one, and its key is there. -/
def KeysFit (s : Client) : Prop :=
  ∀ convId, s.currentEpochs.get convId = s.adoptedEpochs.get convId ∧
    ∀ epoch, s.adoptedEpochs.get convId = some epoch → (get₂ s.roomKeys convId epoch).isSome

variable {s : Client} {convId : ℕ} {buf : Buffer}

theorem KeysFit.of_fields {t : Client} (hs : KeysFit s) (h₁ : t.currentEpochs = s.currentEpochs)
    (h₂ : t.adoptedEpochs = s.adoptedEpochs) (h₃ : t.roomKeys = s.roomKeys) : KeysFit t := by
  intro convId
  rw [h₁, h₂, h₃]
  exact hs convId

theorem KeysFit.installKey (hs : KeysFit s) (convId epoch : ℕ) (key : Buffer) :
    KeysFit (DartProtocol.installKey convId epoch key s) := by
  intro c
  show (s.currentEpochs.set convId epoch).get c = (s.adoptedEpochs.set convId epoch).get c ∧
    ∀ e, (s.adoptedEpochs.set convId epoch).get c = some e →
      (get₂ (set₂ s.roomKeys convId epoch key) c e).isSome
  rw [get_set, get_set]
  by_cases hc : convId = c
  · rw [if_pos hc, if_pos hc]
    refine ⟨rfl, ?_⟩
    intro e he
    cases he
    rw [get₂_set₂, if_pos ⟨hc, rfl⟩]
    rfl
  · rw [if_neg hc, if_neg hc]
    refine ⟨(hs c).1, ?_⟩
    intro e he
    rw [get₂_set₂, if_neg fun h => hc h.1]
    exact (hs c).2 e he

theorem KeysFit.pruneEpochs (hs : KeysFit s) (convId : ℕ) :
    KeysFit (DartProtocol.pruneEpochs convId s) := by
  rw [DartProtocol.pruneEpochs]
  cases hkeys : s.roomKeys.get convId with
  | none => exact hs
  | some keys =>
    intro c
    refine ⟨(hs c).1, ?_⟩
    intro e he
    have hsome := (hs c).2 e he
    have hcurrent : s.currentEpochs.get c = some e := (hs c).1.trans he
    simp only
    rw [get₂, get_set]
    by_cases hc : convId = c
    · subst hc
      rw [get₂, hkeys, Option.bind_some] at hsome
      rw [if_pos rfl, Option.bind_some, get_retain, hcurrent, orDefault_zero,
        Option.getD_some]
      obtain ⟨key, hkey⟩ := Option.isSome_iff_exists.mp hsome
      rw [hkey]
      simp [Option.filter]
    · rw [if_neg hc]
      exact hsome

/-- The epoch tables survive every kind of change. -/
def KeepsFit : Client → List Output → Client → Prop := fun s _ t => KeysFit s → KeysFit t

theorem keepsFit_background : Background KeepsFit where
  comp := composable_preserves KeysFit
  bookkeeping := fun _ _ h hs => hs.of_fields (congrArg (·.currentEpochs) h)
    (congrArg (·.adoptedEpochs) h) (congrArg (·.roomKeys) h)
  broadcast := fun _ _ _ hs => hs

theorem KeepsFit.of_rest {s t : Client} (h : t.rest = s.rest) : KeepsFit s [] t := fun hs =>
  hs.of_fields (congrArg (·.currentEpochs) h) (congrArg (·.adoptedEpochs) h)
    (congrArg (·.roomKeys) h)

theorem keepsFit_frame : FrameRules C me KeepsFit where
  toBackground := keepsFit_background
  receive := fun _ => .of_rest_chains keepsFit_background (fun _ _ => KeepsFit.of_rest)
    (fun _ _ hs => hs.of_fields rfl rfl rfl) (fun _ _ hs => hs) fun _ _ hs => hs
  ensureReceived := fun s senderId => KeepsFit.of_rest (ensureReceived_rest senderId s)
  flags := fun _ _ _ hs => hs.of_fields rfl rfl rfl
  retries := fun _ _ hs => hs.of_fields rfl rfl rfl
  chainShared := fun _ _ hs => hs
  encoded := fun _ _ hs => hs
  installKey := fun _ convId epoch key hs => hs.installKey convId epoch key
  startChain := fun _ _ _ _ hs => hs.of_fields rfl rfl rfl
  pruneEpochs := fun _ convId hs => hs.pruneEpochs convId
  installRoster := fun _ _ _ hs => hs.of_fields rfl rfl rfl
  setChain := fun _ _ _ _ _ hs => hs.of_fields rfl rfl rfl
  close := fun _ hs => hs.of_fields rfl rfl rfl

theorem step_keysFit (e : Event) (hs : KeysFit s) :
    KeysFit (step C me e s).state := by
  refine keepsFit_frame.step_of (e := e) (s := s) ?_ ?_ hs
  · intro convId payload _
    refine sendData_obeysAt keepsFit_background ?_ ?_ (fun _ _ _ _ _ _ h => h)
    · exact fun _ h => h.of_fields rfl rfl rfl
    · exact fun _ _ _ _ hrest h => hrest (h.of_fields rfl rfl rfl)
  · intro buf _ _
    refine handleDictReset_obeys keepsFit_background (fun t targetId ht => ?_) buf s
    rw [applyDictReset]
    split
    · exact ht.of_fields rfl rfl rfl
    · exact KeepsFit.of_rest (clearReceived_rest targetId t) ht

/-- **In every reachable client the epoch tables agree.** -/
theorem keysFit_stateAfter (es : List Event) :
    KeysFit (stateAfter C me es) := by
  refine eventLoop_invariant (fun e _ _ ht => step_keysFit e ht) ?_
  intro convId
  refine ⟨rfl, ?_⟩
  intro epoch h
  cases h

/-! ### The group key as a register -/

/-- The current epoch and group key of a conversation; epoch zero when there is none. -/
def Client.keyPair (s : Client) (convId : ℕ) : ℕ × Option Buffer :=
  (orDefault (s.currentEpochs.get convId) 0, s.getCurrentKey convId)

/-- What the register of a conversation holds. -/
def heldKey (s : Client) (convId : ℕ) : Option (ℕ × Buffer) :=
  if orDefault (s.adoptedEpochs.get convId) 0 = 0 then none
  else (s.getCurrentKey convId).map fun key => (orDefault (s.adoptedEpochs.get convId) 0, key)

/-- A client either has no epoch yet, or holds the key of its current epoch. -/
theorem heldKey_cases (hs : KeysFit s) (convId : ℕ) :
    (orDefault (s.adoptedEpochs.get convId) 0 = 0 ∧ heldKey s convId = none) ∨
      ∃ epoch key, epoch ≠ 0 ∧ orDefault (s.adoptedEpochs.get convId) 0 = epoch ∧
        s.getCurrentKey convId = some key ∧ heldKey s convId = some (epoch, key) ∧
        s.keyPair convId = (epoch, some key) := by
  by_cases hzero : orDefault (s.adoptedEpochs.get convId) 0 = 0
  · left
    exact ⟨hzero, by rw [heldKey, if_pos hzero]⟩
  · right
    obtain ⟨epoch, hadopted⟩ : ∃ epoch, s.adoptedEpochs.get convId = some epoch := by
      cases hget : s.adoptedEpochs.get convId with
      | none =>
        rw [hget] at hzero
        exact absurd rfl hzero
      | some epoch => exact ⟨epoch, rfl⟩
    rw [hadopted, orDefault_zero, Option.getD_some] at hzero
    have hcurrent : s.currentEpochs.get convId = some epoch := (hs convId).1.trans hadopted
    have hdefault : orDefault (s.adoptedEpochs.get convId) 0 = epoch := by
      rw [hadopted, orDefault_some_pos 0 hzero]
    obtain ⟨key, hkey⟩ := Option.isSome_iff_exists.mp ((hs convId).2 epoch hadopted)
    have hcur : s.getCurrentKey convId = some key := by
      rw [Client.getCurrentKey, hcurrent, orDefault_some_pos 1 hzero]
      exact hkey
    refine ⟨epoch, key, hzero, hdefault, hcur, ?_, ?_⟩
    · rw [heldKey, hdefault, if_neg hzero, hcur]
      rfl
    · rw [Client.keyPair, hcurrent, orDefault_some_pos 0 hzero, hcur]

theorem heldKey_installKey (s : Client) (convId : ℕ) {epoch : ℕ} (key : Buffer) (h : epoch ≠ 0) :
    heldKey (installKey convId epoch key s) convId = some (epoch, key) := by
  have hadopted : (installKey convId epoch key s).adoptedEpochs.get convId = some epoch :=
    get_set_self ..
  have hcurrent : (installKey convId epoch key s).currentEpochs.get convId = some epoch :=
    get_set_self ..
  have hkey : (installKey convId epoch key s).getCurrentKey convId = some key := by
    rw [Client.getCurrentKey, hcurrent, orDefault_some_pos 1 h]
    show get₂ (set₂ s.roomKeys convId epoch key) convId epoch = some key
    rw [get₂_set₂, if_pos ⟨rfl, rfl⟩]
  rw [heldKey, hadopted, orDefault_some_pos 0 h, if_neg h, hkey]
  rfl

/-- **The adoption rule is a write to the register.** -/
theorem adoption_is_write (hs : KeysFit s) (convId : ℕ) {epoch : ℕ} (key : Buffer) (h : epoch ≠ 0) :
    heldKey (if shouldAdopt s convId epoch key then installKey convId epoch key s else s) convId
      = VersionedRegister.write (heldKey s convId) (epoch, key) := by
  have hinstall := heldKey_installKey s convId key h
  rcases heldKey_cases hs convId with ⟨hzero, hheld⟩ | ⟨e, k, hne, hmine, hcur, hheld, -⟩
  · have hadopt : shouldAdopt s convId epoch key = true := by
      simp [shouldAdopt, hzero]
    rw [if_pos hadopt, hinstall, hheld]
    rfl
  · have hadopt : shouldAdopt s convId epoch key = true ↔ e < epoch ∨ (epoch = e ∧ k ≠ key) := by
      simp [shouldAdopt, hmine, hcur, hne]
    rw [hheld]
    rcases Nat.lt_trichotomy e epoch with hlt | heq | hgt
    · rw [if_pos (hadopt.mpr (Or.inl hlt)), hinstall]
      simp [VersionedRegister.write, Nat.le_of_lt hlt]
    · subst heq
      -- the same epoch: another key is written, the same key is there already
      by_cases hkey : k = key
      · have hno : ¬ shouldAdopt s convId e key = true := by
          rw [hadopt]
          rintro (hlt | ⟨-, hk⟩)
          · exact Nat.lt_irrefl _ hlt
          · exact hk hkey
        rw [if_neg hno, hheld, hkey]
        simp [VersionedRegister.write]
      · rw [if_pos (hadopt.mpr (Or.inr ⟨rfl, hkey⟩)), hinstall]
        simp [VersionedRegister.write]
    · have hno : ¬ shouldAdopt s convId epoch key = true := by
        rw [hadopt]
        omega
      rw [if_neg hno, hheld, VersionedRegister.write_of_lt hgt]

/-! ### Handling shares -/

/-- The roster, the keys and the epochs of a client. -/
def Client.keyView (s : Client) :=
  (s.roster, s.currentEpochs, s.adoptedEpochs, s.roomKeys, s.closed)

def KeepsKeys : Client → List Output → Client → Prop := fun s _ t => t.keyView = s.keyView

theorem keepsKeys_background : Background KeepsKeys where
  comp := ⟨fun _ => rfl, fun h h' => Eq.trans h' h⟩
  bookkeeping := by
    intro s t (h : t.core = s.core)
    show t.core.keyView = s.core.keyView
    rw [h]
  broadcast := fun _ _ _ => rfl

theorem keepsKeys_shares : ShareRules C me KeepsKeys where
  toBackground := keepsKeys_background
  shareKey := fun convId =>
    shareWithNewMembers_obeys keepsKeys_background (fun _ _ => rfl) convId fun _ _ _ _ _ => rfl
  shareChain := fun _ _ _ => shareChainWithMembers_obeysAt keepsKeys_background (fun _ _ => rfl)
    (fun _ _ _ _ => rfl) fun _ _ _ _ _ _ => rfl
  startChain := fun _ _ _ _ => rfl

theorem KeepsKeys.pair {t : Client} {os : List Output} (h : KeepsKeys s os t) (convId : ℕ) :
    heldKey t convId = heldKey s convId ∧ t.keyPair convId = s.keyPair convId := by
  have hview : t.keyView = s.keyView := h
  simp only [Client.keyView, Prod.mk.injEq] at hview
  obtain ⟨-, hcur, had, hkeys, -⟩ := hview
  have hkey : t.getCurrentKey convId = s.getCurrentKey convId := by
    rw [Client.getCurrentKey, hkeys, hcur, Client.getCurrentKey]
  exact ⟨by rw [heldKey, had, hkey, heldKey], by rw [Client.keyPair, hcur, hkey, Client.keyPair]⟩

/-- The frame is a KEY_SHARE to this client that decrypts, with the key the roster has for its
sender, to an epoch and a group key of the conversation. -/
def CarriesShare (C : Crypto) (me : Identity) (s : Client) (convId : ℕ) (share : ℕ × Buffer)
    (buf : Buffer) : Prop :=
  buf.readUInt8 0 = some TYPE_KEY_SHARE ∧
    ∃ key, shareTransportKey C me s buf = some (some (convId, key)) ∧
      Codec.decodeKeyShare C buf key = some share

theorem CarriesShare.of_roster {t : Client} {share : ℕ × Buffer}
    (h : CarriesShare C me s convId share buf) (hroster : t.roster = s.roster) :
    CarriesShare C me t convId share buf := by
  obtain ⟨htype, key, hopen, hdec⟩ := h
  refine ⟨htype, key, ?_, hdec⟩
  rw [← hopen, shareTransportKey, shareTransportKey, hroster]

theorem step_carriesShare {share : ℕ × Buffer}
    (h : CarriesShare C me s convId share buf) (hopen : s.closed = false) :
    ∃ os, KeepsKeys (if shouldAdopt s convId share.1 share.2
        then installKey convId share.1 share.2 s else s) os (step C me (.message buf) s).state := by
  obtain ⟨htype, key, htransport, hdec⟩ := h
  have hdispatch : dispatch C me buf = handleKeyShare C me buf := by
    rw [dispatch, htype, ofOption_some_bind, handlerOf, if_neg (by decide),
      if_neg (by decide), if_neg (by decide), if_pos rfl]
  have hrun : handleKeyShare C me buf s
      = (if shouldAdopt s convId share.1 share.2 then adoptKey C me convId share.1 share.2
          else pure ()) s := by
    rw [handleKeyShare, get_bind, htransport, ofOption_some_bind]
    simp only [hdec]
  have hstate : (step C me (.message buf) s).state = (handleKeyShare C me buf s).state := by
    rw [step_message, hopen, if_neg Bool.false_ne_true, handleMessage, attempt_bind, hdispatch]
    rfl
  rw [hstate, hrun]
  by_cases hadopt : shouldAdopt s convId share.1 share.2 = true
  · rw [if_pos hadopt, if_pos hadopt]
    exact ⟨_, announceKey_obeys keepsKeys_shares convId share.1 _⟩
  · rw [if_neg hadopt, if_neg hadopt]
    exact ⟨[], rfl⟩

/-- **A share is written to the register.** -/
theorem handleKeyShare_write (hs : KeysFit s) (hopen : s.closed = false)
    {share : ℕ × Buffer} (h : CarriesShare C me s convId share buf)
    (hpos : share.1 ≠ 0) :
    heldKey (step C me (.message buf) s).state convId
        = VersionedRegister.write (heldKey s convId) share ∧
      (step C me (.message buf) s).state.roster = s.roster ∧
      (step C me (.message buf) s).state.closed = false := by
  obtain ⟨os, hview⟩ := step_carriesShare h hopen
  refine ⟨?_, ?_, ?_⟩
  · rw [(hview.pair convId).1]
    exact adoption_is_write hs convId share.2 hpos
  · have hroster := congrArg Prod.fst hview
    rw [show (step C me (.message buf) s).state.roster = _ from hroster]
    show Client.roster _ = _
    split <;> rfl
  · have hclosed := congrArg (fun v => v.2.2.2.2) hview
    rw [show (step C me (.message buf) s).state.closed = _ from hclosed]
    show Client.closed _ = _
    split <;> exact hopen

theorem shareTimer_keepsKeys (i : ℕ) (s : Client) :
    KeepsKeys s (step C me (.shareTimer i) s).output (step C me (.shareTimer i) s).state := by
  have h : Obeys KeepsKeys (step C me (.shareTimer i)) :=
    fire_obeys keepsKeys_background (fun _ => rfl) fun retry =>
      runShareRetry_obeys keepsKeys_background retry fun _ _ _ _ _ _ _ _ _ _ _ _ => rfl
  exact h s

/-- The client handles shares of a conversation, as the roster of `s` opens them, and share retries of
its own fire in between. -/
inductive ShareRun (C : Crypto) (me : Identity) (s : Client) (convId : ℕ) :
    List Event → List (ℕ × Buffer) → Prop
  | nil : ShareRun C me s convId [] []
  | share {w : ℕ × Buffer} {buf : Buffer} {es : List Event} {ws : List (ℕ × Buffer)}
      (h : CarriesShare C me s convId w buf) (rest : ShareRun C me s convId es ws) :
      ShareRun C me s convId (.message buf :: es) (w :: ws)
  | retry (i : ℕ) {es : List Event} {ws : List (ℕ × Buffer)} (rest : ShareRun C me s convId es ws) :
      ShareRun C me s convId (.shareTimer i :: es) ws

/-- **The client holds what the register holds.**  Induction over the run; the roster that opens the
shares does not change on the way. -/
theorem heldKey_run {es : List Event} {ws : List (ℕ × Buffer)}
    (h : ShareRun C me s convId es ws) (hpos : ∀ w ∈ ws, w.1 ≠ 0) :
    ∀ {t : Client}, KeysFit t → t.roster = s.roster → t.closed = false →
      heldKey (run C me es t).state convId = VersionedRegister.writeAll (heldKey t convId) ws ∧
        KeysFit (run C me es t).state ∧
        (ws = [] → (run C me es t).state.keyPair convId = t.keyPair convId) := by
  induction h with
  | nil =>
    intro t ht _ _
    exact ⟨rfl, ht, fun _ => rfl⟩
  | @share w buf es ws hw _ ih =>
    intro t ht hroster hopen
    obtain ⟨hwrite, hroster', hopen'⟩ :=
      handleKeyShare_write ht hopen (hw.of_roster hroster) (hpos w List.mem_cons_self)
    obtain ⟨hheld, hfit, -⟩ := ih (fun u hu => hpos u (List.mem_cons_of_mem w hu))
      (step_keysFit (.message buf) ht) (hroster'.trans hroster) hopen'
    rw [run_cons]
    refine ⟨?_, hfit, ?_⟩
    · show heldKey (run C me es _).state convId = _
      rw [hheld, hwrite]
      rfl
    · intro hnil
      cases hnil
  | @retry i es ws _ ih =>
    intro t ht hroster hopen
    have hkeep := @shareTimer_keepsKeys C me i t
    have hview : (step C me (.shareTimer i) t).state.keyView = t.keyView := hkeep
    have hroster' : (step C me (.shareTimer i) t).state.roster = t.roster := congrArg Prod.fst hview
    have hclosed : (step C me (.shareTimer i) t).state.closed = t.closed :=
      congrArg (fun v => v.2.2.2.2) hview
    obtain ⟨hheld, hfit, hsame⟩ := ih hpos (step_keysFit (.shareTimer i) ht)
      (hroster'.trans hroster) (hclosed.trans hopen)
    rw [run_cons]
    refine ⟨?_, hfit, ?_⟩
    · show heldKey (run C me es _).state convId = _
      rw [hheld, (hkeep.pair convId).1]
    · intro hnil
      exact (hsame hnil).trans (hkeep.pair convId).2

theorem ShareRun.frame {es : List Event} {ws : List (ℕ × Buffer)}
    (h : ShareRun C me s convId es ws) :
    ∀ w ∈ ws, ∃ buf, CarriesShare C me s convId w buf := by
  induction h with
  | nil =>
    intro w hw
    cases hw
  | @share w buf es ws hw _ ih =>
    intro u hu
    rcases List.mem_cons.mp hu with rfl | hu
    · exact ⟨buf, hw⟩
    · exact ih u hu
  | retry i _ ih => exact ih

theorem exists_shareRun {ws : List (ℕ × Buffer)}
    (h : ∀ w ∈ ws, ∃ buf, CarriesShare C me s convId w buf) :
    ∃ es, ShareRun C me s convId es ws := by
  induction ws with
  | nil => exact ⟨[], ShareRun.nil⟩
  | cons w ws ih =>
    obtain ⟨buf, hbuf⟩ := h w List.mem_cons_self
    obtain ⟨es, hes⟩ := ih fun u hu => h u (List.mem_cons_of_mem w hu)
    exact ⟨.message buf :: es, ShareRun.share hbuf hes⟩

theorem keyPair_inj {t : Client} (hs : KeysFit s) (ht : KeysFit t)
    (h : t.keyPair convId = s.keyPair convId) : heldKey t convId = heldKey s convId := by
  have hzero : ∀ {u : Client}, KeysFit u → orDefault (u.adoptedEpochs.get convId) 0 = 0 →
      (u.keyPair convId).1 = 0 := by
    intro u hu hmine
    rw [Client.keyPair, (hu convId).1]
    exact hmine
  rcases heldKey_cases hs convId with ⟨hs0, hsheld⟩ | ⟨e, k, hne, -, -, hsheld, hspair⟩
  · rcases heldKey_cases ht convId with ⟨-, htheld⟩ | ⟨e', k', hne', -, -, -, htpair⟩
    · rw [hsheld, htheld]
    · have := hzero hs hs0
      rw [← h, htpair] at this
      exact absurd this hne'
  · rcases heldKey_cases ht convId with ⟨ht0, -⟩ | ⟨e', k', -, -, -, htheld, htpair⟩
    · have := hzero ht ht0
      rw [h, hspair] at this
      exact absurd this hne
    · rw [htpair, hspair, Prod.mk.injEq, Option.some.injEq] at h
      rw [hsheld, htheld, h.1, h.2]

theorem keyPair_of_held (hs : KeysFit s) {w : ℕ × Buffer}
    (h : heldKey s convId = some w) : s.keyPair convId = (w.1, some w.2) := by
  rcases heldKey_cases hs convId with ⟨-, hheld⟩ | ⟨e, k, -, -, -, hheld, hpair⟩
  · rw [hheld] at h
    cases h
  · rw [hheld] at h
    cases h
    exact hpair

/-- **When the order of group-key shares does not matter.**  A reachable client handles some shares
of a conversation, with retries of its own in between.  Every order of handling the same shares
leaves it with the same epoch and group key if and only if the shares of the newest epoch, unless it
is older than the client's own, carry the same key.  Then this epoch and key are what the client
ends with, so all members that handle the shares and are not ahead of them agree.  Otherwise the
share of the newest epoch that is handled last wins. -/
theorem adoption_order_iff {C : Crypto} {me : Identity} (before : List Event) {convId : ℕ}
    {es : List Event} {ws : List (ℕ × Buffer)}
    (hopen : (stateAfter C me before).closed = false)
    (hrun : ShareRun C me (stateAfter C me before) convId es ws) (hpos : ∀ w ∈ ws, w.1 ≠ 0) :
    ((∀ es' ws', ShareRun C me (stateAfter C me before) convId es' ws' → ws.Perm ws' →
        (stateAfter C me (before ++ es')).keyPair convId
          = (stateAfter C me (before ++ es)).keyPair convId) ↔
      VersionedRegister.Agree (heldKey (stateAfter C me before) convId) ws) ∧
    (VersionedRegister.Agree (heldKey (stateAfter C me before) convId) ws →
      ∀ w, VersionedRegister.Newest (heldKey (stateAfter C me before) convId) ws w →
        (stateAfter C me (before ++ es)).keyPair convId = (w.1, some w.2)) ∧
    ∀ ws₁ w ws₂, ws = ws₁ ++ w :: ws₂ →
      VersionedRegister.Newest (heldKey (stateAfter C me before) convId) ws w →
      (∀ v ∈ ws₂, v.1 < w.1) →
      (stateAfter C me (before ++ es)).keyPair convId = (w.1, some w.2) := by
  have hfit := @keysFit_stateAfter C me before
  -- both runs end with the register written in their order
  have hends : ∀ {es' : List Event} {ws' : List (ℕ × Buffer)},
      ShareRun C me (stateAfter C me before) convId es' ws' → ws.Perm ws' →
      heldKey (stateAfter C me (before ++ es')) convId
          = VersionedRegister.writeAll (heldKey (stateAfter C me before) convId) ws' ∧
        (ws' = [] → (stateAfter C me (before ++ es')).keyPair convId
          = (stateAfter C me before).keyPair convId) := by
    intro es' ws' hrun' hperm
    have h := heldKey_run hrun' (fun w hw => hpos w (hperm.mem_iff.mpr hw)) hfit rfl hopen
    rw [stateAfter_append]
    exact ⟨h.1, h.2.2⟩
  obtain ⟨hheld, hnil⟩ := hends hrun (List.Perm.refl ws)
  refine ⟨⟨?_, ?_⟩, ?_, ?_⟩
  · intro hsame
    apply VersionedRegister.writeAll_perm_iff.mp
    intro ws' hperm
    obtain ⟨es', hrun'⟩ :=
      exists_shareRun fun w hw => hrun.frame w (hperm.mem_iff.mpr hw)
    rw [← (hends hrun' hperm).1, ← hheld]
    exact keyPair_inj (keysFit_stateAfter _) (keysFit_stateAfter _)
      (hsame es' ws' hrun' hperm)
  · intro hagree es' ws' hrun' hperm
    obtain ⟨hheld', hnil'⟩ := hends hrun' hperm
    have hsame := VersionedRegister.writeAll_perm_iff.mpr hagree ws' hperm
    rw [← hheld, ← hheld'] at hsame
    cases hafter : heldKey (stateAfter C me (before ++ es)) convId with
    | some w =>
      rw [hafter] at hsame
      rw [keyPair_of_held (keysFit_stateAfter _) hafter,
        keyPair_of_held (keysFit_stateAfter _) hsame]
    | none =>
      -- a write leaves a key behind, so there was none
      have hws : ws = [] := by
        cases ws using List.reverseRecOn with
        | nil => rfl
        | append_singleton ws w =>
          rw [hheld, VersionedRegister.writeAll_concat] at hafter
          exact absurd hafter (VersionedRegister.write_ne_none _ _)
      have hws' : ws' = [] := by
        rw [hws] at hperm
        exact hperm.nil_eq.symm
      rw [hnil hws, hnil' hws']
  · intro hagree w hw
    apply keyPair_of_held (keysFit_stateAfter _)
    rw [hheld]
    exact VersionedRegister.writeAll_eq hagree hw
  · rintro ws₁ w ws₂ rfl hw hlater
    apply keyPair_of_held (keysFit_stateAfter _)
    rw [hheld]
    exact VersionedRegister.writeAll_of_last hw hlater

/-! ### Two runs -/

/-- The group-key shares for member 2 that a founder of the group sends, with one rotation. -/
def founderShares (founder : ℕ) : List Buffer :=
  (framesOf (outputsOf sumCrypto (sumIdentity founder)
    [.message (sumMemberInfo 5 founder true [1, 2, 3]), .rekeyTimer])).filter fun b =>
      b.readUInt8 0 == some TYPE_KEY_SHARE && b.readUInt16BE 5 == some 2

/-- The share of an epoch. -/
def founderShare (founder epoch : ℕ) : Buffer := (founderShares founder)[epoch - 1]?.getD []

/-- The group key of a founder: the first of its draws, and the one after the first chain. -/
def founderKey (founder epoch : ℕ) : ℕ × Buffer :=
  ((Codec.decodeKeyShare sumCrypto (founderShare founder epoch) (sumPairwise 2 founder)).getD (0, []))

/-- Member 2 has the roster. -/
def joinedEvents : List Event := [.message (sumMemberInfo 5 2 false [1, 2, 3])]

theorem founderShare_carries : ∀ p ∈ [(1, 1), (1, 2), (3, 1)],
    CarriesShare sumCrypto (sumIdentity 2) (stateAfter sumCrypto (sumIdentity 2) joinedEvents) 5
      (founderKey p.1 p.2) (founderShare p.1 p.2) := by
  have h : ∀ p ∈ [(1, 1), (1, 2), (3, 1)],
      (founderShare p.1 p.2).readUInt8 0 = some TYPE_KEY_SHARE ∧
      shareTransportKey sumCrypto (sumIdentity 2) (stateAfter sumCrypto (sumIdentity 2) joinedEvents)
        (founderShare p.1 p.2) = some (some (5, sumPairwise 2 p.1)) ∧
      Codec.decodeKeyShare sumCrypto (founderShare p.1 p.2) (sumPairwise 2 p.1)
        = some (founderKey p.1 p.2) := by
    decide +kernel
  exact fun p hp => ⟨(h p hp).1, _, (h p hp).2⟩

/-- The shares of two epochs of one founder, the newer one first. -/
theorem adoption_order_newer_first :
    (stateAfter sumCrypto (sumIdentity 2)
      (joinedEvents ++ [.message (founderShare 1 2), .message (founderShare 1 1)])).keyPair 5
        = (2, some (founderKey 1 2).2) := by
  have hfirst := founderShare_carries (1, 1) (by simp)
  have hsecond := founderShare_carries (1, 2) (by simp)
  have hrun := ShareRun.share hsecond (ShareRun.share hfirst ShareRun.nil)
  have heval : (stateAfter sumCrypto (sumIdentity 2) joinedEvents).closed = false ∧
      heldKey (stateAfter sumCrypto (sumIdentity 2) joinedEvents) 5 = none ∧
      (founderKey 1 1).1 = 1 ∧ (founderKey 1 2).1 = 2 := by
    decide +kernel
  obtain ⟨hopen, hheld, h1, h2⟩ := heval
  generalize founderKey 1 1 = older at hrun h1
  generalize founderKey 1 2 = newer at hrun h2 ⊢
  have hnewest : ∀ w, VersionedRegister.Newest none [newer, older] w → w = newer := by
    intro w hw
    have hle := hw.le newer List.mem_cons_self
    rcases List.mem_cons.mp hw.mem with hmem | hmem
    · exact hmem
    · rw [List.mem_singleton.mp hmem, h1, h2] at hle
      omega
  have hnewer : VersionedRegister.Newest none [newer, older] newer := by
    refine ⟨List.mem_cons_self, ?_, fun x hx => by cases hx⟩
    simp [h1, h2]
  have h := (adoption_order_iff joinedEvents hopen hrun (by simp [h1, h2])).2.1
    (by rw [hheld]; intro w w' hw hw'; rw [hnewest w hw, hnewest w' hw']) newer
    (by rw [hheld]; exact hnewer)
  rw [h, h2]

/-- Two founders, each with its own key of epoch 1: the share that is handled last wins. -/
theorem adoption_order_two_founders :
    ∃ a b : ℕ × Buffer,
      ShareRun sumCrypto (sumIdentity 2) (stateAfter sumCrypto (sumIdentity 2) joinedEvents) 5
        [.message (founderShare 1 1), .message (founderShare 3 1)] [a, b] ∧
      ShareRun sumCrypto (sumIdentity 2) (stateAfter sumCrypto (sumIdentity 2) joinedEvents) 5
        [.message (founderShare 3 1), .message (founderShare 1 1)] [b, a] ∧
      a.1 = 1 ∧ b.1 = 1 ∧
      (stateAfter sumCrypto (sumIdentity 2)
        (joinedEvents ++ [.message (founderShare 1 1), .message (founderShare 3 1)])).keyPair 5
          = (1, some b.2) ∧
      (stateAfter sumCrypto (sumIdentity 2)
        (joinedEvents ++ [.message (founderShare 3 1), .message (founderShare 1 1)])).keyPair 5
          = (1, some a.2) ∧
      a.2 ≠ b.2 := by
  have hfirst := founderShare_carries (1, 1) (by simp)
  have hthird := founderShare_carries (3, 1) (by simp)
  refine ⟨founderKey 1 1, founderKey 3 1, ShareRun.share hfirst (ShareRun.share hthird ShareRun.nil),
    ShareRun.share hthird (ShareRun.share hfirst ShareRun.nil), ?_⟩
  decide +kernel

end DartProtocol
