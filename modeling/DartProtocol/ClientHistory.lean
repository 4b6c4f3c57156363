import DartProtocol.ClientRules

/-!
# Histories of a client

Sender and receiver keep a stream's history by the same operation: enter the new dart, then drop
what is more than `DICT_WINDOW + 16` numbers behind it (`pushHistory`).  Two histories that agree on
the dictionary window before a push agree on the next window after it (`Agree.push`), which is why
the two ends of a stream go on building the same dictionaries.

`Client.WellFormed` collects what every reachable client satisfies: darts sit under their own
24-bit number, and a received history lies within the window, with slack, of its highest number.
The rosters and server keys (`Client.rooms`) change with a MEMBER_INFO frame only.
-/

namespace DartProtocol

open InsertionMap

/-! ### Pushing a dart -/

/-- Enter a dart and drop what fell out of the window behind it. -/
def pushHistory (m : NumMap DataDart) (dart : DataDart) : NumMap DataDart :=
  (m.set dart.seq dart).retain fun k _ => recent dart.seq k

variable {m : NumMap DataDart} {dart : DataDart}

theorem pushHistory_keyed (hm : Keyed m) (h : dart.seq < SEQ_MOD) : Keyed (pushHistory m dart) :=
  (hm.set h).retain _

theorem recent_self (q : ℕ) : recent q q = true := by
  have h : seqDelta q q = 0 := SerialNumber.delta_self q
  rw [recent, h]
  rfl

theorem get_pushHistory (m : NumMap DataDart) (dart : DataDart) (k : ℕ) :
    (pushHistory m dart).get k
      = if dart.seq = k then some dart else (m.get k).filter fun _ => recent dart.seq k := by
  rw [pushHistory, get_retain, get_set]
  by_cases hk : dart.seq = k
  · rw [if_pos hk, if_pos hk, ← hk]
    simp [Option.filter, recent_self]
  · rw [if_neg hk, if_neg hk]

theorem bytesAt_pushHistory {k : ℕ} (h : recent dart.seq k = true) :
    bytesAt (pushHistory m dart) k
      = if dart.seq = k then utf8 dart.payload else bytesAt m k := by
  rw [bytesAt, get_pushHistory]
  by_cases hk : dart.seq = k
  · rw [if_pos hk, if_pos hk]
  · rw [if_neg hk, if_neg hk, bytesAt]
    cases m.get k with
    | none => rfl
    | some d => simp [Option.filter, h]

/-! ### Agreement on a window -/

/-- Two histories contribute the same bytes at every number of the window of `maxSeq`. -/
def Agree (m m' : NumMap DataDart) (maxSeq : ℕ) : Prop :=
  ∀ k ∈ windowSeqs maxSeq, bytesAt m k = bytesAt m' k

/-- A number of the next window is the newest one or lies in the present window. -/
theorem mem_windowSeqs_seqNext {k q : ℕ} (hq : q < SEQ_MOD) (hk : k ∈ windowSeqs (seqNext q)) :
    k = q ∨ (k ∈ windowSeqs q ∧ recent q k = true) := by
  obtain ⟨hlt, h1, h2⟩ := (mem_windowSeqs (seqNext_lt q)).mp hk
  by_cases hkq : k = q
  · exact Or.inl hkq
  · right
    have hdist : seqDelta k (seqNext q) = seqDelta k q + 1 := by
      rw [seqDelta_eq hlt (seqNext_lt q)] at h1 ⊢
      rw [seqDelta_eq hlt hq]
      unfold seqNext at h1 ⊢
      unfold SEQ_MOD at *
      split at h1 <;> split <;> split <;> omega
    have hpos : 1 ≤ seqDelta k q := by
      rw [seqDelta_eq hlt hq]
      unfold SEQ_MOD at *
      split <;> omega
    refine ⟨(mem_windowSeqs hq).mpr ⟨hlt, hpos, by omega⟩, ?_⟩
    rw [recent, decide_eq_true_eq]
    omega

/-- **Agreement is kept by pushing the same payload.** -/
theorem Agree.push {m' : NumMap DataDart} {dart' : DataDart} {q : ℕ} (h : Agree m m' q)
    (hq : q < SEQ_MOD) (hseq : dart.seq = q) (hseq' : dart'.seq = q)
    (hpay : dart.payload = dart'.payload) :
    Agree (pushHistory m dart) (pushHistory m' dart') (seqNext q) := by
  intro k hk
  rcases mem_windowSeqs_seqNext hq hk with rfl | ⟨hmem, hrecent⟩
  · rw [bytesAt_pushHistory (by rw [hseq]; exact recent_self _),
      bytesAt_pushHistory (by rw [hseq']; exact recent_self _), if_pos hseq, if_pos hseq', hpay]
  · rw [bytesAt_pushHistory (by rw [hseq]; exact hrecent),
      bytesAt_pushHistory (by rw [hseq']; exact hrecent), hseq, hseq']
    by_cases hqk : q = k
    · rw [if_pos hqk, if_pos hqk, hpay]
    · rw [if_neg hqk, if_neg hqk]
      exact h k hmem

/-! ### The histories of a client under its operations -/

/-- What the client holds of a sender, the empty history when there is none. -/
def receivedOf (s : Client) (senderId : ℕ) : NumMap DataDart :=
  (s.receivedMessages.get senderId).getD ∅

theorem get_receivedOf (s : Client) (senderId k : ℕ) :
    (receivedOf s senderId).get k = get₂ s.receivedMessages senderId k := by
  rw [receivedOf, get₂]
  cases s.receivedMessages.get senderId <;> rfl

theorem historyOf_self (me : Identity) (s : Client) :
    historyOf me s me.senderId = s.sentMessages.values := if_pos rfl

theorem historyOf_of_ne {me : Identity} {senderId : ℕ} (h : senderId ≠ me.senderId) (s : Client) :
    historyOf me s senderId = (receivedOf s senderId).values := by
  rw [historyOf, if_neg h, receivedOf]
  cases s.receivedMessages.get senderId <;> rfl

theorem enterSent_sentMessages (C : Crypto) (me : Identity) (convId : ℕ) (payload : String)
    (chain : ChainState) (s : Client) :
    (enterSent C me convId payload chain s).sentMessages
      = pushHistory s.sentMessages
          { type := TYPE_DATA, convId, senderId := me.senderId, seq := s.nextSeq, payload } := rfl

theorem get_set₂_received (s : Client) (dart : DataDart) :
    (set₂ s.receivedMessages dart.senderId dart.seq dart).get dart.senderId
      = some ((receivedOf s dart.senderId).set dart.seq dart) := by
  rw [set₂, get_set_self]
  rfl

/-- Storing the dart that directly follows, or any dart ahead, pushes it on the history and makes it
the highest one. -/
theorem storeReceived_highest (s : Client) (dart : DataDart)
    (h : s.highestReceivedSeq.has dart.senderId = false ∨
      (0 < seqDelta (orDefault (s.highestReceivedSeq.get dart.senderId) 0) dart.seq ∧
        seqDelta (orDefault (s.highestReceivedSeq.get dart.senderId) 0) dart.seq < SEQ_MOD / 2)) :
    (storeReceived dart s).highestReceivedSeq = s.highestReceivedSeq.set dart.senderId dart.seq ∧
      (storeReceived dart s).receivedMessages
        = (set₂ s.receivedMessages dart.senderId dart.seq dart).set dart.senderId
            (pushHistory (receivedOf s dart.senderId) dart) := by
  have hd : 0 < (if s.highestReceivedSeq.has dart.senderId then
        seqDelta (orDefault (s.highestReceivedSeq.get dart.senderId) 0) dart.seq else 1) ∧
      (if s.highestReceivedSeq.has dart.senderId then
        seqDelta (orDefault (s.highestReceivedSeq.get dart.senderId) 0) dart.seq else 1)
          < SEQ_MOD / 2 := by
    rcases h with h | h
    · rw [h, if_neg Bool.false_ne_true]
      decide
    · split
      · exact h
      · decide
  have hget := get_set₂_received s dart
  unfold storeReceived pruneReceived
  simp only [hget, if_pos hd]
  refine ⟨trivial, ?_⟩
  rw [get_set_self, orDefault_zero]
  rfl

/-- The history of the dart's sender after storing, pruned against the highest number as it then is. -/
theorem receivedOf_storeReceived (s : Client) (dart : DataDart) :
    receivedOf (storeReceived dart s) dart.senderId
      = ((receivedOf s dart.senderId).set dart.seq dart).retain fun k _ =>
          recent (orDefault ((storeReceived dart s).highestReceivedSeq.get dart.senderId) 0) k := by
  have hget := get_set₂_received s dart
  unfold storeReceived pruneReceived
  simp only [hget]
  rw [receivedOf, get_set_self]
  rfl

theorem storeReceived_other (s : Client) {id : ℕ} (hne : dart.senderId ≠ id) :
    receivedOf (storeReceived dart s) id = receivedOf s id ∧
      (storeReceived dart s).highestReceivedSeq.get id = s.highestReceivedSeq.get id := by
  have hget := get_set₂_received s dart
  unfold storeReceived pruneReceived
  simp only [hget]
  refine ⟨?_, ?_⟩
  · rw [receivedOf, get_set_of_ne _ _ hne, set₂, get_set_of_ne _ _ hne]
    rfl
  · -- the highest number of another sender is not written, in either case of the test
    have hite : ∀ (c : Prop) [Decidable c], (if c then
        s.highestReceivedSeq.set dart.senderId dart.seq else s.highestReceivedSeq).get id
          = s.highestReceivedSeq.get id := by
      intro c _
      split
      · exact get_set_of_ne _ _ hne
      · rfl
    exact hite _

/-- After storing a dart there is a baseline for its sender: the first dart is one ahead. -/
theorem storeReceived_baseline (s : Client) (dart : DataDart) :
    ∃ h, (storeReceived dart s).highestReceivedSeq.get dart.senderId = some h := by
  cases hhas : s.highestReceivedSeq.has dart.senderId with
  | false =>
    rw [(storeReceived_highest s dart (Or.inl hhas)).1]
    exact ⟨dart.seq, get_set_self _ _ _⟩
  | true =>
    have hget := get_set₂_received s dart
    unfold storeReceived pruneReceived
    simp only [hget]
    split_ifs
    · exact ⟨dart.seq, get_set_self _ _ _⟩
    · exact has_iff.mp hhas

/-! ### Well-formed clients -/

/-- What every reachable client satisfies. -/
structure Client.WellFormed (s : Client) : Prop where
  nextSeq : s.nextSeq < SEQ_MOD
  sent : Keyed s.sentMessages
  received : ∀ senderId, Keyed (receivedOf s senderId)
  recent : ∀ senderId k dart, (receivedOf s senderId).get k = some dart →
    recent (orDefault (s.highestReceivedSeq.get senderId) 0) k = true

namespace Client.WellFormed

theorem init : Client.WellFormed {} := by
  refine ⟨by decide, Keyed.empty, fun _ => Keyed.empty, ?_⟩
  intro senderId k dart h
  cases h

theorem of_fields {s t : Client} (hs : s.WellFormed) (h₁ : t.nextSeq = s.nextSeq)
    (h₂ : t.sentMessages = s.sentMessages) (h₃ : t.receivedMessages = s.receivedMessages)
    (h₄ : t.highestReceivedSeq = s.highestReceivedSeq) : t.WellFormed := by
  have hrec : ∀ senderId, receivedOf t senderId = receivedOf s senderId := by
    intro senderId
    rw [receivedOf, receivedOf, h₃]
  refine ⟨h₁ ▸ hs.nextSeq, h₂ ▸ hs.sent, ?_, ?_⟩
  · intro senderId
    rw [hrec]
    exact hs.received senderId
  · intro senderId k dart hk
    rw [hrec] at hk
    rw [h₄]
    exact hs.recent senderId k dart hk

theorem of_core {s t : Client} (hs : s.WellFormed) (h : t.core = s.core) : t.WellFormed :=
  hs.of_fields (congrArg (fun c => c.nextSeq) h) (congrArg (fun c => c.sentMessages) h)
    (congrArg (fun c => c.receivedMessages) h) (congrArg (fun c => c.highestReceivedSeq) h)

theorem emptied {s t : Client} (hs : s.WellFormed) {id : ℕ} (h₁ : t.nextSeq = s.nextSeq)
    (h₂ : t.sentMessages = s.sentMessages)
    (h₃ : t.receivedMessages = s.receivedMessages.set id ∅)
    (h₄ : t.highestReceivedSeq = s.highestReceivedSeq) : t.WellFormed := by
  have hrec : ∀ senderId,
      receivedOf t senderId = if id = senderId then ∅ else receivedOf s senderId := by
    intro senderId
    rw [receivedOf, h₃, get_set]
    split
    · rfl
    · rfl
  refine ⟨h₁ ▸ hs.nextSeq, h₂ ▸ hs.sent, ?_, ?_⟩
  · intro senderId
    rw [hrec]
    split
    · exact Keyed.empty
    · exact hs.received senderId
  · intro senderId k dart hk
    rw [hrec] at hk
    split at hk
    · cases hk
    · rw [h₄]
      exact hs.recent senderId k dart hk

/-- Storing a dart keeps the client well formed, whether or not it becomes the highest one: the
history is pruned against the highest number as it then is. -/
theorem store {s : Client} (hs : s.WellFormed) {dart : DataDart} (hseq : dart.seq < SEQ_MOD) :
    (storeReceived dart s).WellFormed := by
  have hown := receivedOf_storeReceived s dart
  have hfields : (storeReceived dart s).nextSeq = s.nextSeq ∧
      (storeReceived dart s).sentMessages = s.sentMessages := by
    have hget := get_set₂_received s dart
    unfold storeReceived pruneReceived
    simp only [hget, and_self]
  refine ⟨hfields.1 ▸ hs.nextSeq, hfields.2 ▸ hs.sent, ?_, ?_⟩
  · intro id
    by_cases hid : dart.senderId = id
    · rw [← hid, hown]
      exact ((hs.received dart.senderId).set hseq).retain _
    · rw [(storeReceived_other s hid).1]
      exact hs.received id
  · intro id k d hk
    by_cases hid : dart.senderId = id
    · rw [← hid, hown] at hk
      rw [← hid]
      exact (get_retain_eq_some.mp hk).2
    · rw [(storeReceived_other s hid).1] at hk
      rw [(storeReceived_other s hid).2]
      exact hs.recent id k d hk

end Client.WellFormed

theorem openData_eq {C : Crypto} {s s' : Client} {buf : Buffer} {senderId : ℕ}
    {dec : DecryptedData} (h : openData C s buf senderId = some (some (dec, s'))) :
    ∃ convId epoch idx chain, buf.readUInt16BE 21 = some epoch ∧ buf.readUInt32BE 27 = some idx ∧
      buf.readUInt16BE 1 = some convId ∧ s.getChain convId epoch senderId = some chain ∧
      chain.index ≤ idx ∧ Codec.decryptData C buf (advanceChain C chain idx).1 = some dec ∧
      s' = s.setChain convId epoch senderId (advanceChain C chain idx).2 := by
  simp only [openData, Option.bind_eq_bind, Option.bind_eq_some_iff] at h
  obtain ⟨epoch, hepoch, idx, hidx, convId, hconv, h⟩ := h
  cases hchain : s.getChain convId epoch senderId with
  | none =>
    rw [hchain] at h
    cases h
  | some chain =>
    rw [hchain] at h
    simp only at h
    by_cases hlt : idx < chain.index
    · rw [if_pos hlt] at h
      cases h
    · rw [if_neg hlt] at h
      cases hdec : Codec.decryptData C buf (advanceChain C chain idx).1 with
      | none =>
        rw [hdec] at h
        cases h
      | some dec' =>
        rw [hdec] at h
        cases h
        exact ⟨convId, epoch, idx, chain, hepoch, hidx, hconv, hchain, by omega, hdec, rfl⟩

/-- Statements about the rest in which chains play no part either. -/
theorem ReceiveRules.of_rest_chains {C : Crypto} {R : Client → List Output → Client → Prop} {senderId : ℕ}
    (hB : Background R) (h : ∀ s t : Client, t.rest = s.rest → R s [] t)
    (hchains : ∀ (s : Client) chains, R s [] { s with senderChains := chains })
    (hchecked : ∀ s dict, R s [.checked dict] s) (hstored : ∀ s dart, R s [.stored dart] s) :
    ReceiveRules C R senderId := by
  refine ReceiveRules.of_rest hB h hchecked hstored fun s buf dec s' hopen => ?_
  obtain ⟨_, _, _, _, _, _, _, _, _, _, rfl⟩ := openData_eq hopen
  exact hchains s _

section Reachable

variable (C : Crypto) (me : Identity)

/-- Well-formedness survives every kind of change. -/
def KeepsForm : Client → List Output → Client → Prop :=
  fun s _ t => s.WellFormed → t.WellFormed

theorem keepsForm_background : Background KeepsForm where
  comp := Prog.composable_preserves Client.WellFormed
  bookkeeping := fun _ _ h hs => hs.of_core h
  broadcast := fun _ _ _ hs => hs

theorem keepsForm_receive (senderId : ℕ) : ReceiveRules C KeepsForm senderId where
  toBackground := keepsForm_background
  clearReceived := by
    intro s hs
    unfold clearReceived
    split
    · exact hs.emptied rfl rfl rfl rfl
    · exact hs
  buffer := fun _ _ _ _ hs => hs.of_fields rfl rfl rfl rfl
  unbuffer := by
    intro s seq hs
    unfold unbuffer
    split
    · exact hs
    · exact hs.of_fields rfl rfl rfl rfl
  openData := by
    intro s buf dec s' h hs
    obtain ⟨_, _, _, _, _, _, _, _, _, _, rfl⟩ := openData_eq h
    exact hs.of_fields rfl rfl rfl rfl
  checked := fun _ _ hs => hs
  store := fun _ _ _ hseq _ hs => hs.store hseq

theorem keepsForm_frame : FrameRules C me KeepsForm := by
  refine FrameRules.of_streams keepsForm_background (keepsForm_receive C) ?_ ?_
    (fun _ _ hs => hs.of_fields rfl rfl rfl rfl) (fun _ hs => hs.of_fields rfl rfl rfl rfl)
    (fun _ _ hs => hs) (fun _ _ hs => hs) fun _ _ _ _ hs => hs
  · intro s senderId hs
    unfold ensureReceived
    split
    · exact hs
    · exact hs.emptied rfl rfl rfl rfl
  · intro s t h hs
    exact hs.of_fields (congrArg (·.nextSeq) h) (congrArg (·.sentMessages) h)
      (congrArg (·.receivedMessages) h) (congrArg (·.highestReceivedSeq) h)

theorem step_wellFormed (e : Event) {s : Client} (hs : s.WellFormed) :
    (step C me e s).state.WellFormed := by
  refine (keepsForm_frame C me).step_of (e := e) (s := s) ?_ ?_ hs
  · intro convId payload _
    refine sendData_obeysAt keepsForm_background ?_ ?_ (fun _ _ _ _ _ _ h => h)
    · exact fun _ h => ⟨seqNext_lt _, h.sent, h.received, h.recent⟩
    · exact fun _ _ _ _ hrest h =>
        hrest ⟨seqNext_lt _, pushHistory_keyed h.sent h.nextSeq, h.received, h.recent⟩
  · intro buf _ _
    refine handleDictReset_obeys keepsForm_background (fun t targetId ht => ?_) buf s
    unfold applyDictReset
    split
    · exact ⟨ht.nextSeq, Keyed.empty, ht.received, ht.recent⟩
    · exact (keepsForm_receive C targetId).clearReceived t ht

/-- **Every reachable client is well formed.** -/
theorem wellFormed_stateAfter (es : List Event) : (stateAfter C me es).WellFormed :=
  Prog.eventLoop_invariant (fun e _ _ ht => step_wellFormed C me e ht) Client.WellFormed.init

end Reachable

/-! ### Rosters and server keys -/

section Rooms

variable {C : Crypto} {me : Identity}

/-- The rosters, creator flags and server keys. -/
def Client.rooms (s : Client) := (s.roster, s.isCreator, s.serverPubKeys)

def KeepsRooms : Client → List Output → Client → Prop := fun s _ t => t.rooms = s.rooms

theorem keepsRooms_background : Background KeepsRooms where
  comp := ⟨fun _ => rfl, fun h h' => Eq.trans h' h⟩
  bookkeeping := by
    intro s t (h : t.core = s.core)
    show t.core.rooms = s.core.rooms
    rw [h]
  broadcast := fun _ _ _ => rfl

theorem KeepsRooms.of_rest {s t : Client} (h : t.rest = s.rest) : KeepsRooms s [] t := by
  show t.rest.rooms = s.rest.rooms
  rw [h]

theorem keepsRooms_part : PartRules C me KeepsRooms where
  toBackground := keepsRooms_background
  receive := fun _ => .of_rest_chains keepsRooms_background (fun _ _ => KeepsRooms.of_rest)
    (fun _ _ => rfl) (fun _ _ => rfl) fun _ _ => rfl
  ensureReceived := fun s senderId => KeepsRooms.of_rest (ensureReceived_rest senderId s)
  flags := fun _ _ _ => rfl
  retries := fun _ _ => rfl
  chainShared := fun _ _ => rfl
  encoded := fun _ _ => rfl
  installKey := fun _ _ _ _ => rfl
  startChain := fun _ _ _ _ => rfl
  pruneEpochs := by
    intro s convId
    obtain ⟨keys, seeds, h⟩ := pruneEpochs_eq convId s
    rw [h]
    rfl
  setChain := fun _ _ _ _ _ => rfl
  close := fun _ => rfl

theorem step_keepsRooms {e : Event} {s : Client}
    (h : ∀ buf, e = .message buf → buf.readUInt8 0 ≠ some TYPE_MEMBER_INFO) :
    Prog.ObeysAt KeepsRooms (step C me e) s := by
  refine keepsRooms_part.step_of ?_ (fun buf he htype => absurd htype (h buf he)) ?_
  · intro convId payload _
    refine sendData_obeysAt keepsRooms_background (fun _ => rfl) (fun _ _ _ _ hrest => hrest)
      fun _ _ _ _ _ _ => rfl
  · intro buf _ _
    refine handleDictReset_obeys keepsRooms_background (fun t targetId => ?_) buf s
    unfold applyDictReset
    split
    · rfl
    · exact KeepsRooms.of_rest (clearReceived_rest targetId t)

end Rooms

end DartProtocol
