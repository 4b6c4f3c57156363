import DartProtocol.DictRecovery
import DartProtocol.MessageKeys
import DartProtocol.SlidingCache

/-!
# What a client keeps of its streams

A client prunes its histories to the dictionary window and some slack.  `pruneSent` walks over
`sentMessages` and drops a message key together with its dart; a Dict-Reset that names the client
empties `sentMessages` but not `messageKeys`, and a key without a dart is never dropped again.

* `Client.Bounded` — everything kept lies at most `DICT_WINDOW + 16` behind the newest dart;
* `SentWithin`, `Based` — what holds in every reachable state: the darts are within the window, the
  keys are numbers of the circle, and a received history has a baseline;
* `keysWithin_step_iff` — a send leaves the keys within the window exactly when no key without a
  dart lies too far behind the new number;
* `memory_bounded_iff` — the runs in which every state is bounded.
-/

namespace DartProtocol

open Prog InsertionMap SerialNumber

variable {C : Crypto} {me : Identity}

/-- Everything a client keeps of a stream lies at most `DICT_WINDOW + 16` behind its newest dart. -/
structure Client.Bounded (s : Client) : Prop where
  sent : ∀ seq ∈ s.sentMessages.keys, seqDelta seq s.highestSentSeq ≤ DICT_WINDOW + 16
  keys : ∀ seq ∈ s.messageKeys.keys, seqDelta seq s.highestSentSeq ≤ DICT_WINDOW + 16
  sizes : s.sentMessages.size ≤ DICT_WINDOW + 17 ∧ s.messageKeys.size ≤ DICT_WINDOW + 17
  received : ∀ senderId, ∀ seq ∈ (receivedOf s senderId).keys,
    ∃ highest ∈ s.highestReceivedSeq.get senderId, seqDelta seq highest ≤ DICT_WINDOW + 16

/-! ### The own stream under one event -/

variable {s : Client} {e : Event} {m : NumMap DataDart} {o : OwnStream}

/-- A Dict-Reset that does not name the client leaves the own stream. -/
theorem handleDictReset_ownStream {buf : Buffer} (hopen : s.closed = false)
    (htype : buf.readUInt8 0 = some TYPE_DICT_RESET) (hreset : ¬ TakesReset C me s buf) :
    (handleDictReset C me buf s).state.ownStream = s.ownStream := by
  rw [handleDictReset, get_bind]
  rcases hrelayed : openRelayed s buf with _ | _ | opened
  · rfl
  · rfl
  · rw [ofOption_some_bind]
    simp only
    cases hdec : Codec.decodeDictReset C opened.1 opened.2 with
    | none => rfl
    | some reset =>
      have hother : reset.targetId ≠ me.senderId := fun htarget =>
        hreset ⟨hopen, htype, opened, by rw [hrelayed]; rfl, reset, hdec, htarget⟩
      rw [ofOption_some_bind]
      show (applyDictReset me reset.targetId s).ownStream = _
      rw [applyDictReset, if_neg hother]
      exact (keepsOwn_receive (C := C) (fun o => o) reset.targetId).clearReceived s

/-- **Only a send and a Dict-Reset that names the client touch the own stream.** -/
theorem step_ownStream (hsend : ∀ c p, e ≠ .sendData c p)
    (hreset : ∀ buf, e = .message buf → ¬ TakesReset C me s buf) :
    (step C me e s).state.ownStream = s.ownStream := by
  by_cases hshut : s.closed = true ∧ ∃ buf, e = .message buf
  · obtain ⟨hclosed, buf, rfl⟩ := hshut
    rw [step_message, if_pos hclosed]
  · refine (keepsOwn_frame (C := C) (fun o => o)).step_of (fun c p he => absurd he (hsend c p)) ?_
    intro buf he htype
    have hopen : s.closed = false := by
      cases h : s.closed with
      | false => rfl
      | true => exact absurd ⟨h, buf, he⟩ hshut
    exact handleDictReset_ownStream hopen htype (hreset buf he)

/-- Enter a message key and drop those that `pruneSent` drops along with their darts. -/
def pushKey (keys : NumMap MessageKey) (m : NumMap DataDart) (dart : DataDart) (mk : MessageKey) :
    NumMap MessageKey :=
  (keys.set dart.seq mk).retain fun k _ => !(m.set dart.seq dart).has k || recent dart.seq k

theorem sendData_ownStream {convId : ℕ} (payload : String) {chain : ChainState}
    (hchain : s.getChain convId (s.sendingEpoch convId) me.senderId = some chain) :
    (sendData C me convId payload s).state.ownStream
      = { nextSeq := seqNext s.nextSeq, highestSentSeq := s.nextSeq
          sentMessages := pushHistory s.sentMessages (sentDart me convId payload s)
          messageKeys := pushKey s.messageKeys s.sentMessages (sentDart me convId payload s)
            ⟨(advanceChain C chain chain.index).1, chain.index, s.sendingEpoch convId⟩ } := by
  have hown : ∀ t : Client, t.ownStream = t.core.ownStream := fun _ => rfl
  rw [hown, (sendData_run C payload hchain).1]
  rfl

theorem mem_keys_pushHistory {dart : DataDart} {seq : ℕ} :
    seq ∈ (pushHistory m dart).keys ↔ dart.seq = seq ∨ seq ∈ m.keys ∧ recent dart.seq seq = true := by
  simp only [mem_keys_iff, get_pushHistory]
  by_cases h : dart.seq = seq
  · simp [h]
  · simp [h, Option.filter_eq_some_iff]

/-- The keys after a send: the new one, and each older one whose dart is gone or recent. -/
theorem mem_keys_pushKey {keys : NumMap MessageKey} {dart : DataDart} {mk : MessageKey} {seq : ℕ} :
    seq ∈ (pushKey keys m dart mk).keys ↔
      dart.seq = seq ∨ seq ∈ keys.keys ∧ (seq ∉ m.keys ∨ recent dart.seq seq = true) := by
  have hhas : dart.seq ≠ seq → ((m.set dart.seq dart).has seq = false ↔ seq ∉ m.keys) := by
    intro hne
    rw [has_eq_false_iff, get_set_of_ne _ _ hne, mem_keys_iff]
    cases m.get seq <;> simp
  rw [mem_keys_iff, mem_keys_iff, pushKey]
  simp only [get_retain_eq_some, get_set]
  by_cases h : dart.seq = seq
  · simp [h, recent_self]
  · simp [h, hhas h]

/-- What one event does to the own stream. -/
inductive OwnStep (C : Crypto) (me : Identity) (s : Client) : Event → OwnStream → Prop
  | sent (convId : ℕ) (payload : String) (chain : ChainState)
      (hchain : s.getChain convId (s.sendingEpoch convId) me.senderId = some chain) :
      OwnStep C me s (.sendData convId payload)
        { nextSeq := seqNext s.nextSeq, highestSentSeq := s.nextSeq
          sentMessages := pushHistory s.sentMessages (sentDart me convId payload s)
          messageKeys := pushKey s.messageKeys s.sentMessages (sentDart me convId payload s)
            ⟨(advanceChain C chain chain.index).1, chain.index, s.sendingEpoch convId⟩ }
  | unsent (convId : ℕ) (payload : String)
      (hchain : s.getChain convId (s.sendingEpoch convId) me.senderId = none) :
      OwnStep C me s (.sendData convId payload) { s.ownStream with nextSeq := seqNext s.nextSeq }
  | flushed (buf : Buffer) (hreset : TakesReset C me s buf) :
      OwnStep C me s (.message buf) { s.ownStream with sentMessages := ∅ }
  | other (e : Event) (hsend : ∀ c p, e ≠ .sendData c p)
      (hreset : ∀ buf, e = .message buf → ¬ TakesReset C me s buf) : OwnStep C me s e s.ownStream

theorem step_own (e : Event) (s : Client) :
    OwnStep C me s e (step C me e s).state.ownStream := by
  by_cases hsend : ∃ convId payload, e = .sendData convId payload
  · obtain ⟨convId, payload, rfl⟩ := hsend
    show OwnStep C me s _ (sendData C me convId payload s).state.ownStream
    cases hchain : s.getChain convId (s.sendingEpoch convId) me.senderId with
    | none =>
      rw [sendData_of_no_chain C payload hchain]
      exact .unsent convId payload hchain
    | some chain =>
      rw [sendData_ownStream payload hchain]
      exact .sent convId payload chain hchain
  · by_cases hreset : ∃ buf, e = .message buf ∧ TakesReset C me s buf
    · obtain ⟨buf, rfl, htakes⟩ := hreset
      rw [step_takesReset htakes]
      exact .flushed buf htakes
    · have hsend' : ∀ c p, e ≠ .sendData c p := fun c p he => hsend ⟨c, p, he⟩
      have hreset' : ∀ buf, e = .message buf → ¬ TakesReset C me s buf :=
        fun buf he htakes => hreset ⟨buf, he, htakes⟩
      rw [step_ownStream hsend' hreset']
      exact .other e hsend' hreset'

/-! ### The invariants -/

/-- The numbers of the own stream: darts within the window of the newest one, keys on the circle. -/
structure SentWithin (o : OwnStream) : Prop where
  next : o.nextSeq < SEQ_MOD
  highest : o.highestSentSeq < SEQ_MOD
  sent : ∀ seq ∈ o.sentMessages.keys, seq < SEQ_MOD ∧ recent o.highestSentSeq seq = true
  keys : ∀ seq ∈ o.messageKeys.keys, seq < SEQ_MOD

theorem SentWithin.step (h : SentWithin s.ownStream) (ho : OwnStep C me s e o) : SentWithin o := by
  cases ho with
  | sent convId payload chain hchain =>
    refine ⟨seqNext_lt _, h.next, ?_, ?_⟩
    · intro seq hseq
      rcases mem_keys_pushHistory.mp hseq with rfl | ⟨hmem, hrecent⟩
      · exact ⟨h.next, recent_self _⟩
      · exact ⟨(h.sent seq hmem).1, hrecent⟩
    · intro seq hseq
      rcases mem_keys_pushKey.mp hseq with rfl | ⟨hmem, -⟩
      · exact h.next
      · exact h.keys seq hmem
  | unsent convId payload hchain => exact ⟨seqNext_lt _, h.highest, h.sent, h.keys⟩
  | flushed buf hreset =>
    refine ⟨h.next, h.highest, ?_, h.keys⟩
    intro seq hseq
    cases hseq
  | other e hsend hreset => exact h

theorem sentWithin_stateAfter (es : List Event) :
    SentWithin (stateAfter C me es).ownStream := by
  induction es using List.reverseRecOn with
  | nil =>
    refine ⟨(by decide : 1 < SEQ_MOD), (by decide : 0 < SEQ_MOD), ?_, ?_⟩
    · intro seq hseq
      cases hseq
    · intro seq hseq
      cases hseq
  | append_singleton es e ih =>
    rw [stateAfter_concat]
    exact ih.step (step_own e _)

/-- A received history has a baseline. -/
def Based (s : Client) : Prop :=
  ∀ senderId seq dart, (receivedOf s senderId).get seq = some dart →
    ∃ highest, s.highestReceivedSeq.get senderId = some highest

/-- Only two fields matter, and emptying one history does no harm. -/
theorem Based.of_fields {t : Client} (hs : Based s) (h₁ : t.receivedMessages = s.receivedMessages ∨
      ∃ id, t.receivedMessages = s.receivedMessages.set id ∅)
    (h₂ : t.highestReceivedSeq = s.highestReceivedSeq) : Based t := by
  intro senderId seq dart hget
  rw [h₂]
  rcases h₁ with h₁ | ⟨id, h₁⟩
  · rw [receivedOf, h₁] at hget
    exact hs senderId seq dart hget
  · rw [receivedOf, h₁, get_set] at hget
    split at hget
    · cases hget
    · exact hs senderId seq dart hget

theorem Based.store (hs : Based s) (dart : DataDart) : Based (storeReceived dart s) := by
  intro id seq d hget
  by_cases hid : dart.senderId = id
  · rw [← hid]
    exact storeReceived_baseline s dart
  · rw [(storeReceived_other s hid).1] at hget
    rw [(storeReceived_other s hid).2]
    exact hs id seq d hget

def KeepsBased : Client → List Output → Client → Prop := fun s _ t => Based s → Based t

theorem keepsBased_background : Background KeepsBased where
  comp := composable_preserves Based
  bookkeeping := by
    intro s t (h : t.core = s.core) hs
    exact hs.of_fields (Or.inl (congrArg (fun c => c.receivedMessages) h))
      (congrArg (fun c => c.highestReceivedSeq) h)
  broadcast := fun _ _ _ hs => hs

theorem keepsBased_receive (senderId : ℕ) : ReceiveRules C KeepsBased senderId where
  toBackground := keepsBased_background
  clearReceived := by
    intro s hs
    unfold clearReceived
    split
    · exact hs.of_fields (Or.inr ⟨_, rfl⟩) rfl
    · exact hs
  buffer := fun _ _ _ _ hs => hs.of_fields (Or.inl rfl) rfl
  unbuffer := by
    intro s seq hs
    unfold unbuffer
    split
    · exact hs
    · exact hs.of_fields (Or.inl rfl) rfl
  openData := by
    intro s buf dec s' h hs
    obtain ⟨_, _, _, _, _, _, _, _, _, _, rfl⟩ := openData_eq h
    exact hs.of_fields (Or.inl rfl) rfl
  checked := fun _ _ hs => hs
  store := fun _ dart _ _ _ hs => hs.store dart

theorem keepsBased_frame : FrameRules C me KeepsBased := by
  refine FrameRules.of_streams keepsBased_background keepsBased_receive ?_ ?_
    (fun _ _ hs => hs.of_fields (Or.inl rfl) rfl) (fun _ hs => hs.of_fields (Or.inl rfl) rfl)
    (fun _ _ hs => hs) (fun _ _ hs => hs) fun _ _ _ _ hs => hs
  · intro s senderId hs
    unfold ensureReceived
    split
    · exact hs
    · exact hs.of_fields (Or.inr ⟨_, rfl⟩) rfl
  · exact fun s t h hs => hs.of_fields (Or.inl (congrArg (·.receivedMessages) h))
      (congrArg (·.highestReceivedSeq) h)

theorem based_stateAfter (es : List Event) :
    Based (stateAfter C me es) := by
  induction es using List.reverseRecOn with
  | nil =>
    intro senderId seq dart hget
    cases hget
  | append_singleton es e ih =>
    rw [stateAfter_concat]
    refine (@keepsBased_frame C me).step_of (e := e) ?_ ?_ ih
    · intro convId payload _
      exact sendData_obeysAt keepsBased_background (fun _ h => h.of_fields (Or.inl rfl) rfl)
        (fun _ _ _ _ hrest h => hrest (h.of_fields (Or.inl rfl) rfl)) fun _ _ _ _ _ _ h => h
    · intro buf _ _
      refine handleDictReset_obeys keepsBased_background (fun t targetId ht => ?_) buf _
      unfold applyDictReset
      split
      · exact ht.of_fields (Or.inl rfl) rfl
      · exact (keepsBased_receive (C := C) targetId).clearReceived t ht

/-- The message keys lie within the window of the newest dart. -/
def KeysWithin (o : OwnStream) : Prop :=
  ∀ seq ∈ o.messageKeys.keys, seqDelta seq o.highestSentSeq ≤ DICT_WINDOW + 16

/-- The numbers of a map that lie at most `DICT_WINDOW + 16` behind one number are few. -/
theorem size_le_of_within {ν : Type} {m : NumMap ν} {highest : ℕ} (hh : highest < SEQ_MOD)
    (h : ∀ seq ∈ m.keys, seq < SEQ_MOD ∧ seqDelta seq highest ≤ DICT_WINDOW + 16) :
    m.size ≤ DICT_WINDOW + 17 := by
  have htight : Window.Tight SEQ_MOD (DICT_WINDOW + 16) ⟨m, some highest⟩ := by
    constructor
    · rintro h' ⟨⟩
      exact hh
    · intro seq v hseq
      obtain ⟨hlt, hle⟩ := h seq (mem_keys_iff.mpr ⟨v, hseq⟩)
      exact ⟨hlt, highest, rfl, hle⟩
  exact htight.size_le

/-- A reachable state is bounded as soon as the message keys are. -/
theorem bounded_iff (es : List Event) :
    (stateAfter C me es).Bounded ↔ KeysWithin (stateAfter C me es).ownStream := by
  obtain ⟨s, hs⟩ : ∃ s, s = stateAfter C me es := ⟨_, rfl⟩
  have hown := @sentWithin_stateAfter C me es
  have hbased := @based_stateAfter C me es
  have hform := wellFormed_stateAfter C me es
  rw [← hs] at hown hbased hform ⊢
  have hsent : ∀ seq ∈ s.sentMessages.keys, seqDelta seq s.highestSentSeq ≤ DICT_WINDOW + 16 :=
    fun seq hseq => of_decide_eq_true (hown.sent seq hseq).2
  refine ⟨fun h => h.keys, fun hkeys => ⟨hsent, hkeys, ⟨?_, ?_⟩, ?_⟩⟩
  · exact size_le_of_within hown.highest fun seq hseq => ⟨(hown.sent seq hseq).1, hsent seq hseq⟩
  · exact size_le_of_within hown.highest fun seq hseq => ⟨hown.keys seq hseq, hkeys seq hseq⟩
  · intro senderId seq hseq
    obtain ⟨dart, hget⟩ := mem_keys_iff.mp hseq
    obtain ⟨highest, hhigh⟩ := hbased senderId seq dart hget
    have hrecent := hform.recent senderId seq dart hget
    rw [hhigh, orDefault_zero, Option.getD_some] at hrecent
    exact ⟨highest, hhigh, of_decide_eq_true hrecent⟩

/-- **The sent history is always bounded**, and all numbers are in range. -/
theorem sent_history_bounded (C : Crypto) (me : Identity) (es : List Event) :
    SentWithin (stateAfter C me es).ownStream ∧
      (stateAfter C me es).sentMessages.size ≤ DICT_WINDOW + 17 := by
  have hown := @sentWithin_stateAfter C me es
  refine ⟨hown, size_le_of_within hown.highest fun seq hseq => ?_⟩
  obtain ⟨hlt, hrecent⟩ := hown.sent seq hseq
  exact ⟨hlt, of_decide_eq_true hrecent⟩

/-! ### Which runs stay bounded -/

/-- A send goes through although a key whose dart was flushed lies too far behind the new number. -/
def LeavesStaleKey (me : Identity) (s : Client) (e : Event) : Prop :=
  ∃ convId payload, e = .sendData convId payload ∧
    (s.getChain convId (s.sendingEpoch convId) me.senderId).isSome ∧
    ∃ seq ∈ s.messageKeys.keys, seq ∉ s.sentMessages.keys ∧
      DICT_WINDOW + 16 < seqDelta seq s.nextSeq

/-- **One event keeps the keys within the window exactly when it leaves no stale key.** -/
theorem keysWithin_step_iff (ho : OwnStep C me s e o)
    (h : KeysWithin s.ownStream) : KeysWithin o ↔ ¬ LeavesStaleKey me s e := by
  cases ho with
  | sent convId payload chain hchain =>
    constructor
    · rintro hkeys ⟨_, _, -, -, seq, hmem, hgone, hfar⟩
      have hle : seqDelta seq s.nextSeq ≤ DICT_WINDOW + 16 :=
        hkeys seq (mem_keys_pushKey.mpr (Or.inr ⟨hmem, Or.inl hgone⟩))
      omega
    · intro hstale seq hseq
      show seqDelta seq s.nextSeq ≤ DICT_WINDOW + 16
      rcases mem_keys_pushKey.mp hseq with hself | ⟨hmem, hgone | hrecent⟩
      · rw [← hself]
        exact of_decide_eq_true (recent_self s.nextSeq)
      · by_contra hfar
        exact hstale ⟨convId, payload, rfl, by rw [hchain]; rfl, seq, hmem, hgone, by omega⟩
      · exact of_decide_eq_true hrecent
  | unsent convId payload hchain =>
    refine iff_of_true h ?_
    rintro ⟨c, p, he, hsome, -⟩
    obtain ⟨rfl, rfl⟩ : convId = c ∧ payload = p := by simpa using he
    rw [hchain] at hsome
    cases hsome
  | flushed buf hreset =>
    refine iff_of_true h ?_
    rintro ⟨c, p, he, -⟩
    cases he
  | other e hsend hreset =>
    refine iff_of_true h ?_
    rintro ⟨c, p, he, -⟩
    exact hsend c p he

/-- Every message key belongs to a dart of the history. -/
def KeysCovered (o : OwnStream) : Prop := ∀ seq ∈ o.messageKeys.keys, seq ∈ o.sentMessages.keys

/-- Only a Dict-Reset of a history with darts separates keys from darts. -/
theorem KeysCovered.step (h : KeysCovered s.ownStream)
    (hspare : ∀ buf, e = .message buf → TakesReset C me s buf → s.sentMessages = ∅)
    (ho : OwnStep C me s e o) : KeysCovered o := by
  cases ho with
  | sent convId payload chain hchain =>
    intro seq hseq
    rcases mem_keys_pushKey.mp hseq with hself | ⟨hmem, hgone | hrecent⟩
    · exact mem_keys_pushHistory.mpr (Or.inl hself)
    · exact absurd (h seq hmem) hgone
    · exact mem_keys_pushHistory.mpr (Or.inr ⟨h seq hmem, hrecent⟩)
  | unsent convId payload hchain => exact h
  | flushed buf hreset =>
    intro seq hseq
    have hmem : seq ∈ s.sentMessages.keys := h seq hseq
    rw [hspare buf rfl hreset] at hmem
    exact hmem
  | other e hsend hreset => exact h

/-- In a run that spares every history with darts, keys and darts stay together. -/
theorem keysCovered_stateAfter {es : List Event}
    (hspare : ∀ before buf, before ++ [.message buf] <+: es →
      TakesReset C me (stateAfter C me before) buf → (stateAfter C me before).sentMessages = ∅) :
    KeysCovered (stateAfter C me es).ownStream := by
  induction es using List.reverseRecOn with
  | nil =>
    intro seq hseq
    cases hseq
  | append_singleton es e ih =>
    rw [stateAfter_concat]
    refine (ih fun before buf hp => hspare before buf (hp.trans (List.prefix_append _ _))).step
      (fun buf he htakes => ?_) (step_own e _)
    subst he
    exact hspare es buf (List.prefix_refl _) htakes

/-- **Bounded memory.**  In every state of a run everything kept lies within the window exactly when
no send of the run leaves a stale key behind.  In particular this is so when no Dict-Reset that names
the client finds darts in its history. -/
theorem memory_bounded_iff (C : Crypto) (me : Identity) (es : List Event) :
    ((∀ before, before <+: es → (stateAfter C me before).Bounded) ↔
        ∀ before e, before ++ [e] <+: es → ¬ LeavesStaleKey me (stateAfter C me before) e) ∧
      ((∀ before buf, before ++ [.message buf] <+: es →
          TakesReset C me (stateAfter C me before) buf →
            (stateAfter C me before).sentMessages = ∅) →
        ∀ before, before <+: es → (stateAfter C me before).Bounded) := by
  have hiff : (∀ before, before <+: es → (stateAfter C me before).Bounded) ↔
      ∀ before e, before ++ [e] <+: es → ¬ LeavesStaleKey me (stateAfter C me before) e := by
    simp only [bounded_iff]
    refine throughout_iff (P := fun s : Client => KeysWithin s.ownStream)
      (Q := fun s e => ¬ LeavesStaleKey me s e) ?_ ?_ es
    · intro seq hseq
      cases hseq
    · intro before e hbefore
      rw [stateAfter_concat]
      exact keysWithin_step_iff (step_own e _) hbefore
  refine ⟨hiff, fun hspare => hiff.mpr ?_⟩
  rintro before e hp ⟨convId, payload, -, -, seq, hmem, hgone, -⟩
  have hbefore : before <+: es := (List.prefix_append _ _).trans hp
  exact hgone (keysCovered_stateAfter (fun b buf hb => hspare b buf (hb.trans hbefore)) seq hmem)

/-- A run without a Dict-Reset is bounded throughout. -/
theorem founding_bounded :
    ∀ before, before <+: foundingEvents ++ [.sendData 5 "a"] →
      (stateAfter sumCrypto (sumIdentity 1) before).Bounded := by
  refine (memory_bounded_iff sumCrypto (sumIdentity 1) _).2 ?_
  intro before buf hp htakes
  have hmem : Event.message buf ∈ foundingEvents ++ [.sendData 5 "a"] := hp.subset (by simp)
  have hbuf : buf = sumMemberInfo 5 1 true [1, 2, 3] := by simpa [foundingEvents] using hmem
  have htype : buf.readUInt8 0 ≠ some TYPE_DICT_RESET := by
    rw [hbuf]
    decide +kernel
  exact absurd htakes.2.1 htype

/-- A founder sends one dart and handles the Dict-Reset of another member that names it.  Then the
application writes to a conversation it has no chain for yet, which uses up 216 numbers, and sends
another dart. -/
def flushedRun : List Event :=
  foundingEvents ++ [.sendData 5 "a", .message thirdReset] ++ List.replicate 216 (.sendData 6 "") ++
    [.sendData 5 "b"]

/-- **A flushed key stays.**  The key of the first dart is still kept when the newest dart is 217
numbers ahead. -/
theorem flushed_key_stays :
    (stateAfter sumCrypto (sumIdentity 1) flushedRun).messageKeys.has 1 = true ∧
      (stateAfter sumCrypto (sumIdentity 1) flushedRun).sentMessages.has 1 = false ∧
      seqDelta 1 (stateAfter sumCrypto (sumIdentity 1) flushedRun).highestSentSeq = 217 := by
  decide +kernel

end DartProtocol
