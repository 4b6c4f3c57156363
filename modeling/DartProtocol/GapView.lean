import DartProtocol.ControlFrames
import DartProtocol.StreamIntegrity

/-!
# What a receiver knows of the gaps in a stream

Four fields of the client decide when a missing dart of a sender is asked for: the highest number
delivered, the highest number heard of, the pending NACK retry and the out-of-order buffer.  They form
the sender's *gap view*.  Everything else a client does leaves it alone, and what Data darts, SYNCs
and the retry do to it is said here once.

* `GapView`, `Client.gapView` — the view and where it is read from;
* `sameGaps_keys`, `sameGaps_receive` — what does not touch the view of a sender;
* `nackMissing_result` — asking for missing darts sets the retry;
* `processDataPacket_gapView`, `drainBuffer_walk` — what delivering darts does to the view.
-/

namespace DartProtocol

open Prog InsertionMap

/-! ### The view -/

/-- What the client keeps of the gaps in one sender's stream. -/
structure GapView where
  /-- The highest number delivered, if any. -/
  highest : Option ℕ
  /-- The highest number heard of, in a Data dart or a SYNC. -/
  seen : Option ℕ
  /-- The conversation of the pending NACK retry. -/
  retry : Option ℕ
  /-- Packets held back behind a gap. -/
  held : NumMap Buffer

def Client.gapView (s : Client) (id : ℕ) : GapView :=
  ⟨s.highestReceivedSeq.get id, s.seenSeq.get id, s.nackRetryTimers.get id,
    (s.outOfOrderBuffer.get id).getD ∅⟩

namespace GapView

/-- The highest number delivered, zero without a baseline. -/
def delivered (v : GapView) : ℕ := orDefault v.highest 0

/-- The highest number heard of, zero when there is none. -/
def last (v : GapView) : ℕ := orDefault v.seen 0

/-- How far the numbers heard of go beyond what was delivered. -/
def outstanding (v : GapView) : ℕ := seqDelta v.delivered v.last

/-- A number was heard of. -/
def note (v : GapView) (seq : ℕ) : GapView :=
  if 0 < seqDelta v.last seq ∧ seqDelta v.last seq < SEQ_MOD / 2 then { v with seen := some seq }
  else if v.seen = none then { v with seen := some seq }
  else v

/-- The view after a number was heard of: that number is the last one, or it is not ahead. -/
theorem note_cases (v : GapView) (seq : ℕ) :
    (v.note seq = { v with seen := some seq } ∧
        (v.seen = none ∨ (0 < seqDelta v.last seq ∧ seqDelta v.last seq < SEQ_MOD / 2))) ∨
      (v.note seq = v ∧ v.seen ≠ none ∧
        (seqDelta v.last seq = 0 ∨ SEQ_MOD / 2 ≤ seqDelta v.last seq)) := by
  unfold note
  split
  · rename_i hahead
    exact .inl ⟨rfl, .inr hahead⟩
  · split
    · rename_i hseen
      exact .inl ⟨rfl, .inl hseen⟩
    · rename_i hahead hseen
      exact .inr ⟨rfl, hseen, by omega⟩

theorem note_frame (v : GapView) (seq : ℕ) :
    (v.note seq).highest = v.highest ∧ (v.note seq).retry = v.retry ∧ (v.note seq).held = v.held := by
  rcases v.note_cases seq with h | h
  · rw [h.1]
    exact ⟨rfl, rfl, rfl⟩
  · rw [h.1]
    exact ⟨rfl, rfl, rfl⟩

@[simp] theorem note_delivered (v : GapView) (seq : ℕ) : (v.note seq).delivered = v.delivered := by
  rw [delivered, (v.note_frame seq).1, delivered]

end GapView

theorem get_held (s : Client) (id q : ℕ) :
    (s.gapView id).held.get q = get₂ s.outOfOrderBuffer id q := by
  show ((s.outOfOrderBuffer.get id).getD ∅).get q = (s.outOfOrderBuffer.get id).bind (·.get q)
  cases s.outOfOrderBuffer.get id <;> rfl

theorem gapView_noteSeen (s : Client) (id seq : ℕ) :
    (s.noteSeen id seq).gapView id = (s.gapView id).note seq := by
  have hlast : orDefault (s.seenSeq.get id) 0 = (s.gapView id).last := rfl
  simp only [Client.noteSeen, GapView.note, hlast]
  by_cases hahead : 0 < seqDelta (s.gapView id).last seq ∧
      seqDelta (s.gapView id).last seq < SEQ_MOD / 2
  · rw [if_pos hahead, if_pos hahead]
    simp [Client.gapView]
  · rw [if_neg hahead, if_neg hahead]
    by_cases hseen : s.seenSeq.get id = none
    · have hview : (s.gapView id).seen = none := hseen
      rw [if_pos (has_eq_false_iff.mpr hseen), if_pos hview]
      simp [Client.gapView]
    · have hview : ¬ (s.gapView id).seen = none := hseen
      rw [if_neg (fun h => hseen (has_eq_false_iff.mp h)), if_neg hview]

theorem gapView_noteSeen_of_ne (s : Client) {id other : ℕ} (h : other ≠ id) (seq : ℕ) :
    (s.noteSeen other seq).gapView id = s.gapView id := by
  have hget : ∀ q, (s.seenSeq.set other q).get id = s.seenSeq.get id :=
    fun q => get_set_of_ne _ _ h
  unfold Client.noteSeen
  simp only
  split
  · simp [Client.gapView, hget]
  · split
    · simp [Client.gapView, hget]
    · rfl

/-! ### What leaves the view alone -/

/-- The view of a sender is untouched. -/
def SameGaps (id : ℕ) : Client → List Output → Client → Prop :=
  fun s _ t => t.gapView id = s.gapView id

section Frame

variable (C : Crypto) (me : Identity) (id : ℕ)

theorem sameGaps_background : Background (SameGaps id) true where
  comp := ⟨fun _ => rfl, fun h h' => Eq.trans h' h⟩
  bookkeeping := by
    intro s t h
    show (t.coreWith true).gapView id = (s.coreWith true).gapView id
    rw [h]
  broadcast := fun _ _ _ => rfl

theorem sameGaps_keys : KeyRules C me (SameGaps id) true := by
  refine .of_streams (sameGaps_background id) (fun s t h => ?_) (fun _ _ => rfl) fun _ _ _ _ => rfl
  show t.streams.gapView id = s.streams.gapView id
  rw [h]

theorem gapView_clearReceived (s : Client) (other : ℕ) :
    (clearReceived other s).gapView id = s.gapView id := by
  unfold clearReceived
  split <;> rfl

theorem gapView_ensureReceived (s : Client) (other : ℕ) :
    (ensureReceived other s).gapView id = s.gapView id := by
  unfold ensureReceived
  split <;> rfl

variable {C me id}

variable {other : ℕ}

theorem gapView_openData {s s' : Client} {buf : Buffer} {dec : DecryptedData}
    (h : openData C s buf other = some (some (dec, s'))) : s'.gapView id = s.gapView id := by
  obtain ⟨_, _, _, _, _, _, _, _, _, _, rfl⟩ := openData_eq h
  rfl

theorem storeReceived_retry (dart : DataDart) (s : Client) :
    (storeReceived dart s).seenSeq = s.seenSeq ∧
      (storeReceived dart s).nackRetryTimers = s.nackRetryTimers := by
  unfold storeReceived pruneReceived
  simp only
  split <;> exact ⟨rfl, rfl⟩

/-- Storing a dart moves at most the highest number of its sender, to the dart. -/
theorem gapView_storeReceived (dart : DataDart) (s : Client) (id : ℕ) :
    (storeReceived dart s).gapView id = s.gapView id ∨
      (dart.senderId = id ∧
        (storeReceived dart s).gapView id = { s.gapView id with highest := some dart.seq }) := by
  have hrest : (storeReceived dart s).gapView id
      = { s.gapView id with highest := (storeReceived dart s).highestReceivedSeq.get id } := by
    rw [Client.gapView, (storeReceived_retry dart s).1, (storeReceived_retry dart s).2,
      (storeReceived_frame dart s).1]
    rfl
  rw [hrest]
  rcases storeReceived_get dart s id with h | h
  · left
    rw [h]
    rfl
  · right
    rw [h.2]
    exact ⟨h.1, rfl⟩

theorem sameGaps_receive (hne : other ≠ id) :
    ReceiveRules C (SameGaps id) other true where
  toBackground := sameGaps_background id
  clearReceived := fun s => gapView_clearReceived id s other
  buffer := by
    intro s seq buf _
    show Client.gapView _ id = Client.gapView _ id
    simp only [Client.gapView, set₂, get_set_of_ne _ _ hne]
  unbuffer := by
    intro s seq
    unfold unbuffer
    split
    · rfl
    · show Client.gapView _ id = Client.gapView _ id
      simp only [Client.gapView, get_set_of_ne _ _ hne]
  openData := fun _ _ _ _ h => gapView_openData h
  checked := fun _ _ => rfl
  store := by
    intro s dart hid _ _
    rcases gapView_storeReceived dart s id with h | h
    · exact h
    · exact absurd (hid.symm.trans h.1) hne

theorem sameGaps_schedule (hne : other ≠ id) (convId : ℕ) :
    Obeys (SameGaps id) (scheduleNackRetry convId other) := by
  intro s
  show Client.gapView (if _ then _ else _) id = _
  split
  · rfl
  · simp only [Client.gapView, get_set_of_ne _ _ hne]

theorem sameGaps_followSync {sync : SyncDart} (hne : sync.senderId ≠ id) :
    Obeys (SameGaps id) (followSync C me sync) := by
  have hB := sameGaps_background id
  unfold followSync
  refine .get_bind fun s => ?_
  refine .ite ?_ (.pure hB.comp _)
  refine .bind hB.comp (.modify fun t => gapView_ensureReceived id t _) fun _ => ?_
  refine .get_bind fun t => ?_
  exact nackMissing_obeys_of hB (sameGaps_schedule hne _) _

theorem sameGaps_nackRetry (hne : other ≠ id) :
    Obeys (SameGaps id) (step C me (.nackRetryTimer other)) := by
  have hB := sameGaps_background id
  refine fire_obeys hB (fun s => ?_) fun convId => ?_
  · show Client.gapView _ id = Client.gapView _ id
    simp only [Client.gapView, get_delete_of_ne _ hne]
  · unfold runNackRetry
    refine .get_bind fun s => ?_
    split
    · exact nackMissing_obeys_of hB (sameGaps_schedule hne _) _
    · exact .pure hB.comp _

end Frame

/-! ### Asking -/

variable {C : Crypto} {me : Identity} {id : ℕ}

theorem gapView_schedule (s : Client) (convId id : ℕ) :
    (scheduleNackRetry convId id s).state.gapView id
      = { s.gapView id with retry := some ((s.gapView id).retry.getD convId) } := by
  show Client.gapView (if s.nackRetryTimers.has id then s else _) id = _
  cases hget : s.nackRetryTimers.get id with
  | none =>
    rw [if_neg (by rw [has_eq_false_iff.mpr hget]; decide)]
    simp [Client.gapView, hget]
  | some c =>
    rw [if_pos (has_iff.mpr ⟨c, hget⟩)]
    simp [Client.gapView, hget]

/-- **Asking for missing darts sets the retry**, unless the NACK cannot be written. -/
theorem nackMissing_result (s : Client) (convId id : ℕ) {missing : List ℕ} (hne : missing ≠ []) :
    ((nackMissing C me convId id missing s).result = none ∧
        (nackMissing C me convId id missing s).state.gapView id = s.gapView id) ∨
      ((nackMissing C me convId id missing s).result = some () ∧
        (nackMissing C me convId id missing s).state.gapView id
          = { s.gapView id with retry := some ((s.gapView id).retry.getD convId) }) := by
  have hsend : (sendNack C me convId id missing s).state.gapView id = s.gapView id :=
    sendControl_obeys (sameGaps_background id) _ _ _ s
  rw [nackMissing, if_neg hne]
  cases hres : (sendNack C me convId id missing s).result with
  | none =>
    rw [bind_of_none hres]
    exact .inl ⟨rfl, hsend⟩
  | some u =>
    rw [bind_of_some hres]
    refine .inr ⟨rfl, ?_⟩
    rw [Outcome.prepend_state, gapView_schedule, hsend]

theorem gapView_hold (s : Client) (id seq : ℕ) (buf : Buffer) :
    Client.gapView { s with outOfOrderBuffer := set₂ s.outOfOrderBuffer id seq buf } id
      = { s.gapView id with held := (s.gapView id).held.set seq buf } := by
  simp [Client.gapView, set₂]

/-! ### Delivering -/

/-- A packet that is processed is delivered, or leaves the view alone. -/
theorem processDataPacket_gapView (s : Client) (dec : DecryptedData) (id seq : ℕ) :
    (processDataPacket C me dec id seq s).state.gapView id = s.gapView id ∨
      ((processDataPacket C me dec id seq s).result = some () ∧
        (processDataPacket C me dec id seq s).state.gapView id
          = { s.gapView id with highest := some seq }) := by
  rw [processDataPacket, get_bind, emit_bind]
  by_cases hfp : dec.dictFp ≠ dictFingerprint C (getDictionary me s id seq)
  · rw [if_pos hfp, modify_bind]
    left
    have hsend : (sendDictReset C me dec.convId id (clearReceived id s)).state.gapView id
        = (clearReceived id s).gapView id :=
      sendControl_obeys (sameGaps_background id) _ _ _ _
    exact hsend.trans (gapView_clearReceived id s id)
  · rw [if_neg hfp]
    cases Codec.inflateData C dec.compressed (getDictionary me s id seq) with
    | none => exact .inl rfl
    | some payload =>
      simp only
      split
      · exact .inl rfl
      · rcases gapView_storeReceived ⟨TYPE_DATA, dec.convId, id, seq, payload⟩ s id with h | h
        · exact .inl h
        · exact .inr ⟨rfl, h.2⟩

theorem processBuffered_gapView (s : Client) (raw : Buffer) (id seq : ℕ) :
    (processBuffered C me raw id seq s).state.gapView id = s.gapView id ∨
      (processBuffered C me raw id seq s).state.gapView id
        = { s.gapView id with highest := some seq } := by
  rw [processBuffered, decryptDataInOrder_bind]
  rcases hopen : openData C s raw id with _ | _ | ⟨dec, s'⟩
  · exact .inl rfl
  · exact .inl rfl
  · have hview : s'.gapView id = s.gapView id := gapView_openData hopen
    simp only
    split
    · rw [← hview]
      exact (processDataPacket_gapView s' dec id seq).imp_right And.right
    · exact .inl hview

theorem gapView_unbuffer (s : Client) (id seq : ℕ) :
    (unbuffer id seq s).gapView id = { s.gapView id with held := (s.gapView id).held.delete seq } := by
  unfold unbuffer
  cases hget : s.outOfOrderBuffer.get id with
  | none =>
    simp only [Client.gapView, hget, Option.getD_none]
    rfl
  | some m => simp [Client.gapView, hget]

/-- The draining loop on its way: counted from `b`, delivered up to `i`, looked at up to `j`, and the
packets that are left lie further on, up to the last number heard of. -/
structure Walk (b n : ℕ) (v : GapView) (i j : ℕ) : Prop where
  highest : v.highest = some (seqAt b i)
  delivered_le : i ≤ j
  looked_le : j ≤ n
  held : ∀ q raw, v.held.get q = some raw → ∃ k, j < k ∧ k ≤ n ∧ q = seqAt b k

/-- **Draining** delivers numbers on the way, and holds nothing back that comes next. -/
theorem drainBuffer_walk {b n : ℕ} (hn : n < SEQ_MOD / 2) (turns : ℕ) :
    ∀ {s : Client} {i j : ℕ}, Walk b n (s.gapView id) i j → (s.gapView id).held.size ≤ turns →
      ∃ i', i ≤ i' ∧ i' ≤ n ∧
        (∃ m, (drainBuffer C me id turns (seqAt b (j + 1)) s).state.gapView id
          = { s.gapView id with highest := some (seqAt b i'), held := m } ∧
          ∀ q raw, m.get q = some raw → ∃ k, i' + 1 < k ∧ k ≤ n ∧ q = seqAt b k) := by
  induction turns with
  | zero =>
    intro s i j h hsize
    have hnone := size_eq_zero_iff.mp (Nat.le_zero.mp hsize)
    refine ⟨i, le_refl i, h.delivered_le.trans h.looked_le, (s.gapView id).held, ?_, fun q raw hq => ?_⟩
    · rw [← h.highest]
      rfl
    · rw [hnone q] at hq
      cases hq
  | succ turns ih =>
    intro s i j h hsize
    cases hget : (s.gapView id).held.get (seqAt b (j + 1)) with
    | none =>
      rw [drainBuffer_of_none C me ((get_held s id _).symm.trans hget)]
      refine ⟨i, le_refl i, h.delivered_le.trans h.looked_le, (s.gapView id).held, ?_,
        fun q raw hq => ?_⟩
      · rw [← h.highest]
      · obtain ⟨k, hjk, hkn, rfl⟩ := h.held q raw hq
        refine ⟨k, ?_, hkn, rfl⟩
        -- a packet right behind the delivered ones would be the one looked at
        have hle := h.delivered_le
        rcases Nat.lt_or_ge (i + 1) k with hlt | hge
        · exact hlt
        · have hk : k = j + 1 := by omega
          rw [hk, hget] at hq
          cases hq
    | some raw =>
      obtain ⟨k, hjk, hkn, hk⟩ := h.held _ raw hget
      have hkj : k = j + 1 := (seqAt_inj (by omega) (by omega) hk).symm
      rw [drainBuffer_of_some C me ((get_held s id _).symm.trans hget), seqNext_seqAt,
        Outcome.prepend_state]
      have hun := gapView_unbuffer s id (seqAt b (j + 1))
      have hdel : ∀ q raw', ((s.gapView id).held.delete (seqAt b (j + 1))).get q = some raw' →
          ∃ k, j + 1 < k ∧ k ≤ n ∧ q = seqAt b k := by
        intro q raw' hq
        rw [get_delete] at hq
        split at hq
        · cases hq
        · rename_i hqne
          obtain ⟨k', hjk', hkn', rfl⟩ := h.held q raw' hq
          refine ⟨k', ?_, hkn', rfl⟩
          rcases Nat.lt_or_ge (j + 1) k' with hlt | hge
          · exact hlt
          · exact absurd (by rw [show k' = j + 1 by omega]) hqne
      have hless : ((s.gapView id).held.delete (seqAt b (j + 1))).size ≤ turns := by
        have := size_delete_lt (has_iff.mpr ⟨raw, hget⟩)
        omega
      have hle := h.delivered_le
      rcases @processBuffered_gapView C me (unbuffer id (seqAt b (j + 1)) s) raw id (seqAt b (j + 1))
        with hview | hview
      · rw [hun] at hview
        obtain ⟨i', hi, hin, m, hm, hheld⟩ := ih (i := i) (j := j + 1)
          ⟨by rw [hview]; exact h.highest, by omega, by omega, by rw [hview]; exact hdel⟩
          (by rw [hview]; exact hless)
        refine ⟨i', hi, hin, m, ?_, hheld⟩
        rw [hm, hview]
      · rw [hun] at hview
        obtain ⟨i', hi, hin, m, hm, hheld⟩ := ih (i := j + 1) (j := j + 1)
          ⟨by rw [hview], le_refl _, by omega, by rw [hview]; exact hdel⟩
          (by rw [hview]; exact hless)
        refine ⟨i', by omega, hin, m, ?_, hheld⟩
        rw [hm, hview]

/-- With nothing held back that comes next, draining does nothing. -/
theorem processBufferedPackets_idle {s : Client}
    (h : (s.gapView id).held.get (seqNext (s.gapView id).delivered) = none) :
    processBufferedPackets C me id s = ⟨some (), s, []⟩ := by
  rw [processBufferedPackets, get_bind]
  cases hget : s.outOfOrderBuffer.get id with
  | none => rfl
  | some m =>
    simp only
    cases m.size with
    | zero => rfl
    | succ n => exact drainBuffer_of_none C me ((get_held s id _).symm.trans h) n

theorem processBufferedPackets_state (s : Client) (id : ℕ) :
    (processBufferedPackets C me id s).state
      = (drainBuffer C me id (s.gapView id).held.size (seqNext (s.gapView id).delivered) s).state := by
  rw [processBufferedPackets, get_bind]
  cases hget : s.outOfOrderBuffer.get id with
  | none =>
    simp only [Client.gapView, hget, Option.getD_none]
    rfl
  | some m => simp [Client.gapView, hget, GapView.delivered]

end DartProtocol
