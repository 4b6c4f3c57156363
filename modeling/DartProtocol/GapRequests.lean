import DartProtocol.GapView
import DartProtocol.WireRoundTrip

/-!
# Is a known gap always asked for again?

Three places find gaps: a Data dart beyond one, a SYNC, and the retry of an earlier NACK.  They differ
in where they look.  The SYNC asks up to the announced number, the other two stop in front of the last
number heard of; the first two count from zero when nothing was delivered yet, the retry gives up
there.  So a gap is asked for again as long as there is a baseline and two or more numbers are
outstanding.

* `GapView.Tracked` — what is held back lies between the gap and the last number heard of, and a gap of
  two or more waits for its retry;
* `GapView.Followed` — the invariant: a view is tracked once something was delivered or is held back;
* `routeData_tracked`, `followSync_tracked`, `step_nackRetry_tracked` — the three places keep it;
* `OrderlyRun`, `run_followed` — the runs that keep it;
* `gap_rerequested_iff` — when a known gap is asked for again;
* `gap_given_up` — a gap of one number after a SYNC, and a gap in front of the first dart.
-/

namespace DartProtocol

open Prog InsertionMap Wire

namespace GapView

/-! ### The invariant -/

/-- The numbers of a view fit, everything held back lies behind a gap and not beyond the last number
heard of, and that number is less than half the circle ahead. -/
structure Sound (v : GapView) : Prop where
  delivered_lt : v.delivered < SEQ_MOD
  last_lt : v.last < SEQ_MOD
  heard : v.highest ≠ none → v.seen ≠ none
  near : v.outstanding < SEQ_MOD / 2
  held : ∀ q raw, v.held.get q = some raw →
    q < SEQ_MOD ∧ 2 ≤ seqDelta v.delivered q ∧ seqDelta v.delivered q ≤ v.outstanding
  conv : ∀ c, v.retry = some c → c < 65536

/-- A gap is waiting for its retry: two or more numbers are outstanding. -/
structure Tracked (v : GapView) : Prop extends Sound v where
  pending : 2 ≤ v.outstanding → v.retry ≠ none

/-- Nothing was delivered, and nothing is held back. -/
def Idle (v : GapView) : Prop := v.highest = none ∧ v.held.size = 0

instance (v : GapView) : Decidable v.Idle := inferInstanceAs (Decidable (_ ∧ _))

/-- A view whose gaps are tracked, unless it is idle. -/
structure Followed (v : GapView) : Prop where
  last_lt : v.last < SEQ_MOD
  conv : ∀ c, v.retry = some c → c < 65536
  tracked : ¬ v.Idle → v.Tracked

/-- A first dart outside the repair window comes while nothing is held back, and is the last number
heard of, unless a retry is pending and that number is less than half the circle ahead. -/
def FirstDart (v : GapView) (q : ℕ) : Prop :=
  v.held.size = 0 ∧
    ((v.note q).last = q ∨ (v.retry ≠ none ∧ seqDelta q (v.note q).last < SEQ_MOD / 2))

instance (v : GapView) (q : ℕ) : Decidable (v.FirstDart q) := inferInstanceAs (Decidable (_ ∧ _))

variable {v : GapView} {q : ℕ}

theorem Tracked.followed (h : v.Tracked) : v.Followed := ⟨h.last_lt, h.conv, fun _ => h⟩

theorem Sound.next_free (h : v.Sound) : v.held.get (seqNext v.delivered) = none := by
  cases hget : v.held.get (seqNext v.delivered) with
  | none => rfl
  | some raw =>
    have hlt := h.delivered_lt
    have htwo := (h.held _ raw hget).2.1
    rw [seqDelta_eq hlt (seqNext_lt _)] at htwo
    unfold seqNext SEQ_MOD at *
    split at htwo <;> omega

theorem note_last (v : GapView) (q : ℕ) :
    (v.note q).last = q ∨ (v.note q = v ∧ v.seen ≠ none ∧
      (seqDelta v.last q = 0 ∨ SEQ_MOD / 2 ≤ seqDelta v.last q)) := by
  rcases v.note_cases q with h | h
  · left
    rw [h.1]
    exact orDefault_zero _
  · exact .inr h

theorem note_seen (v : GapView) (q : ℕ) : (v.note q).seen ≠ none := by
  rcases v.note_cases q with h | h
  · rw [h.1]
    exact Option.some_ne_none _
  · rw [h.1]
    exact h.2.1

theorem Sound.outstanding_of_unheard (h : v.Sound) (hseen : v.seen = none) : v.outstanding = 0 := by
  have hhigh : v.highest = none := by
    by_contra hne
    exact h.heard hne hseen
  rw [outstanding, delivered, last, hhigh, hseen]
  exact SerialNumber.delta_self _

theorem Sound.le_note (h : v.Sound) (hq : q < SEQ_MOD)
    (hnear : (v.note q).outstanding < SEQ_MOD / 2) : v.outstanding ≤ (v.note q).outstanding := by
  rcases v.note_cases q with ⟨hnote, hseen | ⟨-, hhalf⟩⟩ | ⟨hnote, -, -⟩
  · rw [h.outstanding_of_unheard hseen]
    exact Nat.zero_le _
  · have hlast : (v.note q).last = q := by
      rw [hnote]
      exact orDefault_zero _
    have hd := h.delivered_lt
    have hl := h.last_lt
    have hold := h.near
    have hout : (v.note q).outstanding = seqDelta v.delivered q := by
      rw [outstanding, note_delivered, hlast]
    rw [hout] at hnear ⊢
    rw [outstanding] at hold ⊢
    rw [seqDelta_eq hl hq] at hhalf
    rw [seqDelta_eq hd hq] at hnear ⊢
    rw [seqDelta_eq hd hl] at hold ⊢
    unfold SEQ_MOD at *
    split at hhalf <;> split at hnear <;> split at hold <;> simp only [*, if_true, if_false] <;> omega
  · rw [hnote]

theorem Sound.delta_le_note (h : v.Sound) (hq : q < SEQ_MOD)
    (hnear : (v.note q).outstanding < SEQ_MOD / 2) (hhalf : seqDelta v.delivered q < SEQ_MOD / 2) :
    seqDelta v.delivered q ≤ (v.note q).outstanding := by
  rcases v.note_last q with hlast | ⟨hnote, -, hback⟩
  · rw [outstanding, note_delivered, hlast]
  · have hd := h.delivered_lt
    have hl := h.last_lt
    rw [hnote, outstanding] at hnear ⊢
    rw [seqDelta_eq hl hq] at hback
    rw [seqDelta_eq hd hl] at hnear ⊢
    rw [seqDelta_eq hd hq] at hhalf ⊢
    unfold SEQ_MOD at *
    split at hback <;> split at hnear <;> split at hhalf <;> simp only [*, if_true, if_false] <;> omega

/-- **Hearing of a number.** -/
theorem Sound.note (h : v.Sound) (hq : q < SEQ_MOD)
    (hnear : (v.note q).outstanding < SEQ_MOD / 2) : (v.note q).Sound where
  delivered_lt := by
    rw [note_delivered]
    exact h.delivered_lt
  last_lt := by
    rcases v.note_last q with hlast | ⟨hnote, -, -⟩
    · rw [hlast]
      exact hq
    · rw [hnote]
      exact h.last_lt
  heard := fun _ => v.note_seen q
  near := hnear
  held := by
    intro k raw hk
    rw [(v.note_frame q).2.2] at hk
    rw [note_delivered]
    obtain ⟨hlt, htwo, hle⟩ := h.held k raw hk
    exact ⟨hlt, htwo, hle.trans (h.le_note hq hnear)⟩
  conv := by
    intro c hc
    exact h.conv c ((v.note_frame q).2.1 ▸ hc)

theorem Sound.with_retry (h : v.Sound) {r : Option ℕ} (hr : ∀ c, r = some c → c < 65536) :
    Sound { v with retry := r } :=
  ⟨h.delivered_lt, h.last_lt, h.heard, h.near, h.held, hr⟩

/-- **A gap that is asked for waits for its retry.** -/
theorem Sound.ask (h : v.Sound) {c : ℕ} (hc : c < 65536) :
    Tracked { v with retry := some (v.retry.getD c) } where
  toSound := by
    refine h.with_retry fun c' hc' => ?_
    cases hretry : v.retry with
    | none =>
      rw [hretry] at hc'
      cases hc'
      exact hc
    | some c'' =>
      rw [hretry] at hc'
      cases hc'
      exact h.conv _ hretry
  pending := fun _ => Option.some_ne_none _

/-- **Holding a packet back** that is ahead of a gap. -/
theorem Sound.hold (h : v.Sound) (hq : q < SEQ_MOD) (htwo : 2 ≤ seqDelta v.delivered q)
    (hle : seqDelta v.delivered q ≤ v.outstanding) (raw : Buffer) :
    Sound { v with held := v.held.set q raw } where
  delivered_lt := h.delivered_lt
  last_lt := h.last_lt
  heard := h.heard
  near := h.near
  held := by
    intro k raw' hk
    rw [get_set] at hk
    split at hk
    · rename_i hqk
      rw [← hqk]
      exact ⟨hq, htwo, hle⟩
    · exact h.held k raw' hk
  conv := h.conv

theorem seqAt_seqDelta {b k : ℕ} (hb : b < SEQ_MOD) (hk : k < SEQ_MOD) :
    seqAt b (seqDelta b k) = k := by
  rw [seqDelta_eq hb hk]
  unfold seqAt SerialNumber.position SEQ_MOD at *
  split <;> omega

theorem seqDelta_seqAt {b i k : ℕ} (hik : i ≤ k) (hk : k < SEQ_MOD) :
    seqDelta (seqAt b i) (seqAt b k) = k - i :=
  SerialNumber.delta_position_of_le hik (by omega)

theorem seqDelta_seqNext {a k : ℕ} (ha : a < SEQ_MOD) (hk : k < SEQ_MOD) (hpos : 1 ≤ seqDelta a k) :
    seqDelta (seqNext a) k = seqDelta a k - 1 := by
  rw [seqDelta_eq ha hk] at hpos ⊢
  rw [seqDelta_eq (seqNext_lt a) hk]
  unfold seqNext SEQ_MOD at *
  split at hpos <;> split <;> omega

/-- The next number was delivered: the view with which draining starts. -/
theorem Sound.walk (h : v.Sound) (hpos : 1 ≤ v.outstanding) :
    Walk (seqNext v.delivered) (v.outstanding - 1) { v with highest := some (seqNext v.delivered) } 0 0
      where
  highest := by
    show some (seqNext v.delivered) = some (seqAt (seqNext v.delivered) 0)
    rw [seqAt_zero (seqNext_lt _)]
  delivered_le := le_refl 0
  looked_le := Nat.zero_le _
  held := by
    intro k raw hk
    obtain ⟨hlt, htwo, hle⟩ := h.held k raw hk
    have hstep := seqDelta_seqNext h.delivered_lt hlt (by omega)
    refine ⟨seqDelta (seqNext v.delivered) k, by omega, by omega, ?_⟩
    rw [seqAt_seqDelta (seqNext_lt _) hlt]

/-- **After draining** nothing comes next that is held back, and a gap that is left was one before. -/
theorem Tracked.drained (h : v.Tracked) (hpos : 1 ≤ v.outstanding) {i : ℕ} (hi : i ≤ v.outstanding - 1)
    {m : NumMap Buffer}
    (hm : ∀ q raw, m.get q = some raw →
      ∃ k, i + 1 < k ∧ k ≤ v.outstanding - 1 ∧ q = seqAt (seqNext v.delivered) k) :
    Tracked { v with highest := some (seqAt (seqNext v.delivered) i), held := m } := by
  have hnear := h.near
  have hdel : delivered { v with highest := some (seqAt (seqNext v.delivered) i), held := m }
      = seqAt (seqNext v.delivered) i := orDefault_zero _
  have hlast : seqAt (seqNext v.delivered) (v.outstanding - 1) = v.last := by
    have hstep : seqDelta (seqNext v.delivered) v.last = v.outstanding - 1 :=
      seqDelta_seqNext h.delivered_lt h.last_lt hpos
    rw [← hstep, seqAt_seqDelta (seqNext_lt _) h.last_lt]
  have hout : outstanding { v with highest := some (seqAt (seqNext v.delivered) i), held := m }
      = v.outstanding - 1 - i := by
    rw [outstanding, hdel]
    show seqDelta _ v.last = _
    rw [← hlast, seqDelta_seqAt hi (by unfold SEQ_MOD at *; omega)]
  refine ⟨⟨?_, h.last_lt, fun _ => ?_, ?_, ?_, h.conv⟩, ?_⟩
  · rw [hdel]
    exact seqAt_lt _ _
  · show v.seen ≠ none
    intro hseen
    rw [h.outstanding_of_unheard hseen] at hpos
    omega
  · rw [hout]
    omega
  · intro q raw hq
    obtain ⟨k, hik, hkn, rfl⟩ := hm q raw hq
    rw [hout, hdel, seqDelta_seqAt (by omega) (by unfold SEQ_MOD at *; omega)]
    exact ⟨seqAt_lt _ _, by omega, by omega⟩
  · rw [hout]
    exact fun htwo => h.pending (by omega)

end GapView

variable {C : Crypto} {me : Identity} {id : ℕ} {s : Client}

/-! ### One Data dart -/

theorem isMissing_next (hs : s.WellFormed) (h : (s.gapView id).Sound) :
    get₂ s.receivedMessages id (seqNext (s.gapView id).delivered) = none ∧
      isMissing s id (seqNext (s.gapView id).delivered) = true := by
  have hrec : get₂ s.receivedMessages id (seqNext (s.gapView id).delivered) = none := by
    rw [← get_receivedOf]
    cases hget : (receivedOf s id).get (seqNext (s.gapView id).delivered) with
    | none => rfl
    | some dart =>
      -- a stored dart is at most the window behind the highest number
      have hlt := h.delivered_lt
      have hrecent : recent (s.gapView id).delivered (seqNext (s.gapView id).delivered) = true :=
        hs.recent id _ dart hget
      rw [recent, decide_eq_true_eq, seqDelta_eq (seqNext_lt _) hlt] at hrecent
      unfold DICT_WINDOW at hrecent
      unfold seqNext SEQ_MOD at *
      split at hrecent <;> omega
  refine ⟨hrec, ?_⟩
  rw [isMissing, ← get_held, h.next_free, hrec]
  rfl

theorem seqNext_mem_seqsAfter (h : ℕ) {n : ℕ} (hn : 1 ≤ n) : seqNext h ∈ seqsAfter h n :=
  List.mem_map.mpr ⟨0, List.mem_range.mpr hn, rfl⟩

theorem GapView.Tracked.note_next {v : GapView} (h : v.Tracked) :
    (v.note (seqNext v.delivered)).Tracked ∧ 1 ≤ (v.note (seqNext v.delivered)).outstanding := by
  have hd := h.delivered_lt
  have hone : seqDelta v.delivered (seqNext v.delivered) = 1 := by
    rw [seqDelta_eq hd (seqNext_lt _)]
    unfold seqNext SEQ_MOD at *
    split <;> omega
  have hout : (v.note (seqNext v.delivered)).outstanding = 1 ∨ v.note (seqNext v.delivered) = v := by
    rcases v.note_last (seqNext v.delivered) with hlast | ⟨hnote, -, -⟩
    · left
      rw [GapView.outstanding, GapView.note_delivered, hlast, hone]
    · exact .inr hnote
  have hnear : (v.note (seqNext v.delivered)).outstanding < SEQ_MOD / 2 := by
    rcases hout with hout | hnote
    · rw [hout]
      decide
    · rw [hnote]
      exact h.near
  have hle := h.delta_le_note (seqNext_lt _) hnear (by rw [hone]; decide)
  refine ⟨⟨h.toSound.note (seqNext_lt _) hnear, fun htwo => ?_⟩, by omega⟩
  rw [(v.note_frame _).2.1]
  rcases hout with hout | hnote
  · omega
  · exact h.pending (hnote ▸ htwo)

theorem GapView.Tracked.note_stale {v : GapView} (h : v.Tracked) {q : ℕ} (hq : q < SEQ_MOD)
    (hstale : seqDelta v.delivered q = 0 ∨ SEQ_MOD / 2 ≤ seqDelta v.delivered q)
    (hnear : (v.note q).outstanding < SEQ_MOD / 2) : (v.note q).Tracked := by
  refine ⟨h.toSound.note hq hnear, fun htwo => ?_⟩
  rw [(v.note_frame _).2.1]
  rcases v.note_last q with hlast | ⟨hnote, -, -⟩
  · rw [GapView.outstanding, GapView.note_delivered, hlast] at hnear htwo
    omega
  · exact h.pending (hnote ▸ htwo)

theorem dataAhead_of_highest (q : ℕ) {h : ℕ} (hh : (s.gapView id).highest = some h) :
    dataAhead s id q = seqDelta (s.gapView id).delivered q :=
  if_pos (has_iff.mpr ⟨h, hh⟩)

theorem dataAhead_of_none (q : ℕ) (hh : (s.gapView id).highest = none) :
    dataAhead s id q = if 1 ≤ q ∧ q ≤ DICT_WINDOW then q else 1 := by
  have hhas : s.highestReceivedSeq.has id = false := has_eq_false_iff.mpr hh
  rw [dataAhead, if_neg (by rw [hhas]; decide)]

/-- **The next dart.**  It is delivered with what is held back behind it, or nothing changes. -/
theorem acceptNext_gapView (h : (s.gapView id).Sound) (hpos : 1 ≤ (s.gapView id).outstanding)
    (buf : Buffer) :
    (acceptNext C me buf id (seqNext (s.gapView id).delivered) s).state.gapView id = s.gapView id ∨
      ∃ i m, i ≤ (s.gapView id).outstanding - 1 ∧
        (acceptNext C me buf id (seqNext (s.gapView id).delivered) s).state.gapView id
          = { s.gapView id with
              highest := some (seqAt (seqNext (s.gapView id).delivered) i), held := m } ∧
        ∀ q raw, m.get q = some raw → ∃ k, i + 1 < k ∧ k ≤ (s.gapView id).outstanding - 1 ∧
          q = seqAt (seqNext (s.gapView id).delivered) k := by
  rw [acceptNext, decryptDataInOrder_bind]
  rcases hopen : openData C s buf id with _ | _ | ⟨dec, s'⟩
  · exact .inl rfl
  · exact .inl rfl
  have hview : s'.gapView id = s.gapView id := gapView_openData hopen
  rw [← hview]
  rw [← hview] at h hpos
  simp only
  rcases @processDataPacket_gapView C me s' dec id (seqNext (s'.gapView id).delivered)
    with hp | ⟨hres, hp⟩
  · -- not delivered: what comes next is still that number, and it is not held back
    left
    refine after_bind (P := fun t : Client => t.gapView id = s'.gapView id) hp fun _ t ht => ?_
    rw [processBufferedPackets_idle (by rw [ht]; exact h.next_free)]
    exact ht
  · right
    rw [bind_of_some hres, Outcome.prepend_state, processBufferedPackets_state]
    generalize (processDataPacket C me dec id (seqNext (s'.gapView id).delivered) s').state = t at hp ⊢
    have hstart : seqNext (t.gapView id).delivered
        = seqAt (seqNext (s'.gapView id).delivered) (0 + 1) := by
      rw [hp, ← seqNext_seqAt, seqAt_zero (seqNext_lt _)]
      exact congrArg seqNext (orDefault_zero _)
    have hnear := h.near
    obtain ⟨i, -, hi, m, hm, hheld⟩ := @drainBuffer_walk C me id _ _ (by omega) _ t 0 0
      (hp ▸ h.walk hpos) (le_refl _)
    refine ⟨i, m, hi, ?_, hheld⟩
    rw [hstart, hm, hp]

theorem wellFormed_noteSeen (hs : s.WellFormed) (id q : ℕ) : (s.noteSeen id q).WellFormed :=
  hs.of_core (noteSeen_core s id q)

/-- **A dart beyond a gap** is held back and the gap asked for. -/
theorem bufferAhead_tracked (hs : s.WellFormed) (h : (s.gapView id).Sound) {q c ahead : ℕ}
    (hq : q < SEQ_MOD) (hc : c < 65536) (hahead : 2 ≤ ahead)
    (hdelta : seqDelta (s.gapView id).delivered q = ahead) (hle : ahead ≤ (s.gapView id).outstanding)
    {buf : Buffer}
    (hasked : (bufferAhead C me buf c id q ahead s).result = none → (s.gapView id).retry ≠ none) :
    ((bufferAhead C me buf c id q ahead s).state.gapView id).Tracked := by
  have hheld : Client.gapView { s with outOfOrderBuffer := set₂ s.outOfOrderBuffer id q buf } id
      = { s.gapView id with held := (s.gapView id).held.set q buf } := gapView_hold s id q buf
  have hsound := h.hold hq (by omega) (by omega) buf
  rw [← hheld] at hsound
  rw [bufferAhead, modify_bind, get_bind] at hasked ⊢
  generalize hs' : ({ s with outOfOrderBuffer := set₂ s.outOfOrderBuffer id q buf } : Client) = s'
    at hasked hheld hsound ⊢
  have hwf : s'.WellFormed := hs' ▸ hs.of_fields rfl rfl rfl rfl
  have hne : (seqsAfter (orDefault (s'.highestReceivedSeq.get id) 0) (ahead - 1)).filter
      (isMissing s' id) ≠ [] :=
    List.ne_nil_of_mem (List.mem_filter.mpr
      ⟨seqNext_mem_seqsAfter _ (by omega), (isMissing_next hwf hsound).2⟩)
  rcases @nackMissing_result C me s' c id _ hne with ⟨hres, hview⟩ | ⟨-, hview⟩
  · rw [hview]
    refine ⟨hsound, fun _ => ?_⟩
    rw [hheld]
    exact hasked hres
  · rw [hview]
    exact hsound.ask hc

/-- **The next dart** of a sender that was heard of in order. -/
theorem acceptNext_tracked (h : (s.gapView id).Tracked) (hpos : 1 ≤ (s.gapView id).outstanding)
    (buf : Buffer) :
    ((acceptNext C me buf id (seqNext (s.gapView id).delivered) s).state.gapView id).Tracked := by
  rcases @acceptNext_gapView C me id s h.toSound hpos buf with hview | ⟨i, m, hi, hview, hm⟩
  · rw [hview]
    exact h
  · rw [hview]
    exact h.drained hpos hi hm

/-- A first dart outside the window becomes the baseline, or nothing changes. -/
theorem acceptNext_first (hheld : (s.gapView id).held.size = 0) (buf : Buffer) (q : ℕ) :
    (acceptNext C me buf id q s).state.gapView id = s.gapView id ∨
      (acceptNext C me buf id q s).state.gapView id = { s.gapView id with highest := some q } := by
  have hnone := size_eq_zero_iff.mp hheld
  rw [acceptNext, decryptDataInOrder_bind]
  rcases hopen : openData C s buf id with _ | _ | ⟨dec, s'⟩
  · exact .inl rfl
  · exact .inl rfl
  have hview : s'.gapView id = s.gapView id := gapView_openData hopen
  rw [← hview] at hnone ⊢
  simp only
  rcases @processDataPacket_gapView C me s' dec id q with hp | ⟨-, hp⟩
  · left
    refine after_bind (P := fun t : Client => t.gapView id = s'.gapView id) hp fun _ t ht => ?_
    rw [processBufferedPackets_idle (by rw [ht]; exact hnone _)]
    exact ht
  · right
    refine after_bind
      (P := fun t : Client => t.gapView id = { s'.gapView id with highest := some q }) hp fun _ t ht => ?_
    rw [processBufferedPackets_idle (by rw [ht]; exact hnone _)]
    exact ht

theorem GapView.Followed.note_last_lt {v : GapView} (h : v.Followed) {q : ℕ} (hq : q < SEQ_MOD) :
    (v.note q).last < SEQ_MOD := by
  rcases v.note_last q with hlast | ⟨hnote, -, -⟩
  · rw [hlast]
    exact hq
  · rw [hnote]
    exact h.last_lt

theorem GapView.Followed.note_conv {v : GapView} (h : v.Followed) (q : ℕ) :
    ∀ c, (v.note q).retry = some c → c < 65536 :=
  fun c hc => h.conv c ((v.note_frame q).2.1 ▸ hc)

/-- **A first dart outside the window** becomes the baseline. -/
theorem GapView.Followed.baseline {v : GapView} (h : v.Followed) {q : ℕ} (hq : q < SEQ_MOD)
    (hfirst : v.FirstDart q) :
    GapView.Tracked { v.note q with highest := some q } := by
  obtain ⟨hheld, hback⟩ := hfirst
  have hdel : GapView.delivered { v.note q with highest := some q } = q := orDefault_zero _
  have hself : seqDelta q q = 0 := SerialNumber.delta_self q
  have hout : GapView.outstanding { v.note q with highest := some q } = seqDelta q (v.note q).last := by
    rw [GapView.outstanding, hdel]
    rfl
  refine ⟨⟨?_, h.note_last_lt hq, fun _ => v.note_seen q, ?_, ?_, h.note_conv q⟩, fun htwo => ?_⟩
  · rw [hdel]
    exact hq
  · rw [hout]
    rcases hback with hlast | ⟨-, hnear⟩
    · rw [hlast, hself]
      decide
    · exact hnear
  · intro k raw hk
    have hk' : v.held.get k = some raw := (v.note_frame q).2.2 ▸ hk
    rw [size_eq_zero_iff.mp hheld k] at hk'
    cases hk'
  · show (v.note q).retry ≠ none
    rw [(v.note_frame q).2.1]
    rcases hback with hlast | ⟨hretry, -⟩
    · rw [hout, hlast, hself] at htwo
      omega
    · exact hretry

/-! ### Asking -/

section Asking

variable (C : Crypto) (me : Identity)

/-- The group key of a conversation and the roster key of a member are keys, when they are known. -/
def KeysUsable (s : Client) (convId id : ℕ) : Prop :=
  ∀ convKey ∈ s.getCurrentKey convId, ∀ peerPub ∈ get₂ s.roster convId id,
    convKey.length = 32 ∧ (pairwiseKey C me.privateKey peerPub).isSome

instance (s : Client) (convId id : ℕ) : Decidable (KeysUsable C me s convId id) := by
  unfold KeysUsable
  infer_instance

/-- The group key of a conversation and the roster key of a member are known, and are keys. -/
def KeysKnown (s : Client) (convId id : ℕ) : Prop :=
  ∃ convKey peerPub macKey, s.getCurrentKey convId = some convKey ∧ convKey.length = 32 ∧
    get₂ s.roster convId id = some peerPub ∧ pairwiseKey C me.privateKey peerPub = some macKey

/-- A NACK for fewer numbers fits the length field of the TCP framing. -/
def NACK_ROOM : ℕ := 21800

variable {C me}

variable (hC : C.Lawful) (hbody : LengthPreserving C) (hme : me.Lawful) (hsender : me.senderId < 65536)
  {id : ℕ} (hid : id < 65536)
include hC hbody hme hsender hid

/-- **A NACK goes out**, and reads back. -/
theorem sendNack_frame {c : ℕ} (hc : c < 65536) {missing : List ℕ}
    (hlt : ∀ q ∈ missing, q < SEQ_MOD) (hfew : missing.length < NACK_ROOM) (hopen : s.closed = false)
    (hkeys : KeysKnown C me s c id) :
    ∃ frame via, sendNack C me c id missing s
        = ⟨some (), { s with draws := s.draws + 1 }, [.broadcast frame via]⟩ ∧
      (stripControlFrame frame).bind Codec.parseNack
        = some ⟨TYPE_NACK, c, me.senderId, id, missing⟩ := by
  obtain ⟨convKey, peerPub, macKey, hkey, hlen, hpeer, hmac⟩ := hkeys
  unfold NACK_ROOM at hfew
  have hfits : NackFits ⟨TYPE_NACK, c, me.senderId, id, missing⟩ :=
    ⟨rfl, hc, hsender, hid, lt_trans hfew (by decide), hlt⟩
  have henc := encodeNack_wire (C := C) hlen (hme s.draws 12) hbody hfits
  obtain ⟨hparse, -⟩ := decodeNack_wire hC hbody hlen (hme s.draws 12) hfits
  have hshort : (sealedFrame C convKey (me.random s.draws 12)
      (nackHeader ⟨TYPE_NACK, c, me.senderId, id, missing⟩ (me.random s.draws 12)) []).length + 32
      < 65536 := by
    rw [sealedFrame_length hC hbody]
    simp [nackHeader, route_length, hme s.draws 12, seqBytes_length]
    omega
  obtain ⟨via, hsend⟩ := @sendControl_open C me c (fun s => get₂ s.roster c id) _ s hC _ _ _ _ hkey hpeer
    henc hmac hopen hshort
  refine ⟨_, via, hsend, ?_⟩
  rw [strip_sign hC.hmac_length, Option.bind_some, hparse]

/-- Asking goes through when the keys, as far as they are known, can be used. -/
theorem nackMissing_returns {c : ℕ} (hc : c < 65536) {missing : List ℕ}
    (hlt : ∀ q ∈ missing, q < SEQ_MOD) (hfew : missing.length < NACK_ROOM) (hopen : s.closed = false)
    (hkeys : KeysUsable C me s c id) : (nackMissing C me c id missing s).result ≠ none := by
  rw [nackMissing]
  split
  · exact Option.some_ne_none _
  have hsend : (sendNack C me c id missing s).result = some () := by
    cases hkey : s.getCurrentKey c with
    | none =>
      rw [sendNack, sendControl_run, hkey]
    | some convKey =>
      cases hpeer : get₂ s.roster c id with
      | none =>
        rw [sendNack, sendControl_run, hkey, hpeer]
      | some peerPub =>
        obtain ⟨hlen, hmac⟩ := hkeys convKey hkey peerPub hpeer
        obtain ⟨macKey, hmac⟩ := Option.isSome_iff_exists.mp hmac
        obtain ⟨_, _, hrun, -⟩ := sendNack_frame hC hbody hme hsender hid hc hlt hfew hopen
          ⟨convKey, peerPub, macKey, hkey, hlen, hpeer, hmac⟩
        rw [hrun]
  rw [bind_of_some hsend]
  exact Option.some_ne_none _

end Asking

theorem KeysUsable.of_rest {t : Client} {c : ℕ} (h : KeysUsable C me s c id)
    (hrest : t.rest = s.rest) (hopen : s.closed = false) :
    t.closed = false ∧ KeysUsable C me t c id := by
  have hsame : s.rest.closed = false ∧ KeysUsable C me s.rest c id := ⟨hopen, h⟩
  rw [← hrest] at hsame
  exact hsame

theorem noteSeen_rest (s : Client) (senderId seq : ℕ) : (s.noteSeen senderId seq).rest = s.rest := by
  rw [Client.rest, noteSeen_core]
  rfl

theorem seqsAfter_bounds (h n : ℕ) (f : ℕ → Bool) :
    (∀ q ∈ (seqsAfter h n).filter f, q < SEQ_MOD) ∧ ((seqsAfter h n).filter f).length ≤ n := by
  constructor
  · intro q hq
    obtain ⟨k, -, rfl⟩ := List.mem_map.mp (List.mem_filter.mp hq).1
    exact Nat.mod_lt _ (by decide)
  · refine (List.length_filter_le _ _).trans ?_
    rw [seqsAfter, List.length_map, List.length_range]

/-- A number heard of the sender in a conversation: it is less than half the circle ahead, a view that
is idle knows of no gap that nobody waits for, and a gap that is not asked for yet can be. -/
@[mk_iff] structure Followable (C : Crypto) (me : Identity) (id : ℕ) (s : Client) (c q : ℕ) : Prop where
  near : ((s.gapView id).note q).outstanding < SEQ_MOD / 2
  idle : (s.gapView id).Idle → (s.gapView id).outstanding ≤ 1 ∨
    ((s.gapView id).outstanding < SEQ_MOD / 2 ∧ (s.gapView id).retry ≠ none)
  asked : (s.gapView id).retry = none → 2 ≤ ((s.gapView id).note q).outstanding →
    KeysUsable C me s c id ∧ ((s.gapView id).note q).outstanding < NACK_ROOM

instance (C : Crypto) (me : Identity) (id : ℕ) (s : Client) (c q : ℕ) :
    Decidable (Followable C me id s c q) :=
  decidable_of_iff _ (followable_iff C me id s c q).symm

theorem Followable.tracked {c q : ℕ} (h : Followable C me id s c q)
    (hv : (s.gapView id).Followed) : (s.gapView id).Tracked := by
  by_cases hidle : (s.gapView id).Idle
  · have hnone := size_eq_zero_iff.mp hidle.2
    refine ⟨⟨?_, hv.last_lt, fun hne => absurd hidle.1 hne, ?_, fun k raw hk => ?_, hv.conv⟩,
      fun htwo => ?_⟩
    · rw [GapView.delivered, hidle.1]
      decide
    · rcases h.idle hidle with hle | hnear
      · exact lt_of_le_of_lt hle (by decide)
      · exact hnear.1
    · rw [hnone k] at hk
      cases hk
    · rcases h.idle hidle with hle | hnear
      · omega
      · exact hnear.2
  · exact hv.tracked hidle

/-- **A Data dart outside the window while there is no baseline.** -/
theorem routeData_first (hv : (s.gapView id).Followed) {q : ℕ} (hq : q < SEQ_MOD)
    (hnone : (s.gapView id).highest = none) (hout : ¬ (1 ≤ q ∧ q ≤ DICT_WINDOW))
    (hfirst : (s.gapView id).FirstDart q) (buf : Buffer) (c : ℕ) :
    ((routeData C me buf c id q (s.noteSeen id q)).state.gapView id).Followed := by
  have hnote := gapView_noteSeen s id q
  generalize s.noteSeen id q = s₁ at hnote
  have hhigh : (s₁.gapView id).highest = none :=
    (hnote ▸ ((s.gapView id).note_frame q).1).trans hnone
  have hheld : (s₁.gapView id).held.size = 0 := by
    rw [hnote, ((s.gapView id).note_frame q).2.2]
    exact hfirst.1
  rw [routeData, get_bind, dataAhead_of_none q hhigh, if_neg hout, if_neg (by decide),
    if_neg (by decide)]
  rcases @acceptNext_first C me id s₁ hheld buf q with hview | hview
  · rw [hview]
    refine ⟨?_, ?_, fun hidle => absurd ⟨hhigh, hheld⟩ hidle⟩
    · rw [hnote]
      exact hv.note_last_lt hq
    · rw [hnote]
      exact hv.note_conv q
  · rw [hview, hnote]
    exact (hv.baseline hq hfirst).followed

section Sites

variable (hC : C.Lawful) (hbody : LengthPreserving C) (hme : me.Lawful) (hsender : me.senderId < 65536)
  (hid : id < 65536)
include hC hbody hme hsender hid

variable {c : ℕ}

/-- **One Data dart of the sender.** -/
theorem routeData_tracked (hs : s.WellFormed) (hopen : s.closed = false)
    (hv : (s.gapView id).Tracked) {q : ℕ} (hq : q < SEQ_MOD) (hc : c < 65536)
    (hout : ¬ ((s.gapView id).highest = none ∧ ¬ (1 ≤ q ∧ q ≤ DICT_WINDOW)))
    (hfollow : Followable C me id s c q) (buf : Buffer) :
    ((routeData C me buf c id q (s.noteSeen id q)).state.gapView id).Tracked := by
  have hnote := gapView_noteSeen s id q
  have hwf := wellFormed_noteSeen hs id q
  have hrest := noteSeen_rest s id q
  obtain ⟨hnear, -, hasked⟩ := hfollow
  generalize s.noteSeen id q = s₁ at hnote hwf hrest
  have hhigh : (s₁.gapView id).highest = (s.gapView id).highest :=
    hnote ▸ ((s.gapView id).note_frame q).1
  have hretry : (s₁.gapView id).retry = (s.gapView id).retry :=
    hnote ▸ ((s.gapView id).note_frame q).2.1
  have hdel : (s₁.gapView id).delivered = (s.gapView id).delivered := by
    rw [hnote, GapView.note_delivered]
  -- from here on the distance is measured from what was delivered
  have hahead : dataAhead s₁ id q = seqDelta (s.gapView id).delivered q := by
    rw [← hdel]
    cases hget : (s₁.gapView id).highest with
    | some h => exact dataAhead_of_highest q hget
    | none =>
      have hwin : 1 ≤ q ∧ q ≤ DICT_WINDOW := by
        by_contra hno
        exact hout ⟨hhigh ▸ hget, hno⟩
      rw [dataAhead_of_none q hget, if_pos hwin, GapView.delivered, hget]
      show q = seqDelta 0 q
      rw [seqDelta_eq (by decide) hq, if_pos (Nat.zero_le q)]
      rfl
  rw [routeData, get_bind, hahead]
  by_cases hstale : seqDelta (s.gapView id).delivered q = 0 ∨
      SEQ_MOD / 2 ≤ seqDelta (s.gapView id).delivered q
  · -- already processed, or stale
    rw [if_pos hstale, pure_run, hnote]
    exact hv.note_stale hq hstale hnear
  rw [if_neg hstale]
  by_cases hgap : 1 < seqDelta (s.gapView id).delivered q
  · rw [if_pos hgap]
    have hle := hv.delta_le_note hq hnear (by omega)
    refine bufferAhead_tracked hwf (hnote ▸ hv.toSound.note hq hnear) hq hc hgap (by rw [hdel])
      (by rw [hnote]; exact hle) fun hres hnone => ?_
    -- with no retry pending the gap is new, and its NACK can be written
    obtain ⟨hkeys, hroom⟩ := hasked (hretry ▸ hnone) (by omega)
    rw [bufferAhead, modify_bind, get_bind] at hres
    generalize hs' : ({ s₁ with outOfOrderBuffer := set₂ s₁.outOfOrderBuffer id q buf } : Client) = s'
      at hres
    have hrest' : s'.rest = s.rest := hs' ▸ hrest
    obtain ⟨hlt, hlen⟩ := seqsAfter_bounds (orDefault (s'.highestReceivedSeq.get id) 0)
      (seqDelta (s.gapView id).delivered q - 1) (isMissing s' id)
    obtain ⟨hopen', hkeys'⟩ := hkeys.of_rest hrest' hopen
    exact nackMissing_returns hC hbody hme hsender hid hc hlt (by omega) hopen' hkeys' hres
  · rw [if_neg hgap]
    have hq' : q = seqNext (s.gapView id).delivered := by
      have hd := hv.delivered_lt
      rw [seqDelta_eq hd hq] at hstale hgap
      unfold seqNext SEQ_MOD at *
      split at hgap <;> simp only [*, if_true, if_false] at hstale <;> omega
    obtain ⟨htracked, hpos⟩ := hv.note_next
    rw [← hq', ← hnote] at htracked hpos
    rw [hq', ← hdel]
    exact acceptNext_tracked htracked hpos buf

/-! ### One SYNC -/

omit hC hbody hme hsender hid in
theorem syncAhead_eq {n : ℕ} (hn : n < SEQ_MOD) :
    syncAhead s id n = seqDelta (s.gapView id).delivered n := by
  cases hget : s.highestReceivedSeq.get id with
  | some h => exact if_pos (has_iff.mpr ⟨h, hget⟩)
  | none =>
    have hhas : s.highestReceivedSeq.has id = false := has_eq_false_iff.mpr hget
    have hzero : (s.gapView id).delivered = 0 := by
      rw [GapView.delivered, Client.gapView, hget]
      rfl
    rw [syncAhead, if_neg (by rw [hhas]; decide), hzero, seqDelta_eq (by decide) hn,
      if_pos (Nat.zero_le n)]
    rfl

omit hC hbody hme hsender hid in
/-- A SYNC while nothing was delivered and nothing is held back. -/
theorem followSync_idle {sync : SyncDart} (hv : (s.gapView sync.senderId).Followed)
    (hidle : (s.gapView sync.senderId).Idle) (hn : sync.highestSeq < SEQ_MOD)
    (hc : sync.convId < 65536) :
    ((followSync C me sync (s.noteSeen sync.senderId sync.highestSeq)).state.gapView
      sync.senderId).Followed := by
  have hnote := gapView_noteSeen s sync.senderId sync.highestSeq
  generalize s.noteSeen sync.senderId sync.highestSeq = s₁ at hnote
  have hframe := (s.gapView sync.senderId).note_frame sync.highestSeq
  have hstill : ((s.gapView sync.senderId).note sync.highestSeq).Idle :=
    ⟨hframe.1.trans hidle.1, hframe.2.2 ▸ hidle.2⟩
  have hfollowed : ((s.gapView sync.senderId).note sync.highestSeq).Followed :=
    ⟨hv.note_last_lt hn, hv.note_conv _, fun h => absurd hstill h⟩
  rw [followSync, get_bind]
  split
  · rw [modify_bind, get_bind]
    have hview := gapView_ensureReceived sync.senderId s₁ sync.senderId
    generalize ensureReceived sync.senderId s₁ = s₂ at hview
    by_cases hnil : (seqsAfter (orDefault (s₁.highestReceivedSeq.get sync.senderId) 0)
        (syncAhead s₁ sync.senderId sync.highestSeq)).filter
        (fun i => (get₂ s₂.receivedMessages sync.senderId i).isNone) = []
    · rw [nackMissing, if_pos hnil, pure_run, hview, hnote]
      exact hfollowed
    · rcases @nackMissing_result C me s₂ sync.convId sync.senderId _ hnil with ⟨-, h⟩ | ⟨-, h⟩
      · rw [h, hview, hnote]
        exact hfollowed
      · rw [h, hview, hnote]
        refine ⟨hfollowed.last_lt, fun c hcv => ?_, fun h => absurd hstill h⟩
        cases hretry : ((s.gapView sync.senderId).note sync.highestSeq).retry with
        | none =>
          rw [hretry] at hcv
          cases hcv
          exact hc
        | some c' =>
          rw [hretry] at hcv
          cases hcv
          exact hfollowed.conv _ hretry
  · rw [pure_run, hnote]
    exact hfollowed

omit hid in
/-- **One SYNC of the sender.** -/
theorem followSync_tracked {sync : SyncDart} (hid : sync.senderId < 65536) (hs : s.WellFormed)
    (hopen : s.closed = false) (hv : (s.gapView sync.senderId).Tracked)
    (hn : sync.highestSeq < SEQ_MOD) (hc : sync.convId < 65536)
    (hfollow : Followable C me sync.senderId s sync.convId sync.highestSeq) :
    ((followSync C me sync (s.noteSeen sync.senderId sync.highestSeq)).state.gapView
      sync.senderId).Tracked := by
  have hnote := gapView_noteSeen s sync.senderId sync.highestSeq
  have hwf := wellFormed_noteSeen hs sync.senderId sync.highestSeq
  have hrest := noteSeen_rest s sync.senderId sync.highestSeq
  obtain ⟨hnear, -, hasked⟩ := hfollow
  generalize s.noteSeen sync.senderId sync.highestSeq = s₁ at hnote hwf hrest
  have hdel : (s₁.gapView sync.senderId).delivered = (s.gapView sync.senderId).delivered := by
    rw [hnote, GapView.note_delivered]
  have hahead := @syncAhead_eq sync.senderId s₁ _ hn
  rw [hdel] at hahead
  rw [followSync, get_bind]
  by_cases hgap : 0 < syncAhead s₁ sync.senderId sync.highestSeq ∧
      syncAhead s₁ sync.senderId sync.highestSeq < SEQ_MOD / 2
  · rw [if_pos hgap, modify_bind, get_bind]
    have hview := gapView_ensureReceived sync.senderId s₁ sync.senderId
    have hsound : ((ensureReceived sync.senderId s₁).gapView sync.senderId).Sound := by
      rw [hview, hnote]
      exact hv.toSound.note hn hnear
    have hwf' : (ensureReceived sync.senderId s₁).WellFormed :=
      (keepsForm_frame C me).ensureReceived s₁ sync.senderId hwf
    have hrest' := (ensureReceived_rest sync.senderId s₁).trans hrest
    generalize ensureReceived sync.senderId s₁ = s₂ at hview hsound hwf' hrest'
    have hnext : orDefault (s₁.highestReceivedSeq.get sync.senderId) 0
        = (s₂.gapView sync.senderId).delivered := by
      rw [hview]
      rfl
    have hne : (seqsAfter (orDefault (s₁.highestReceivedSeq.get sync.senderId) 0)
        (syncAhead s₁ sync.senderId sync.highestSeq)).filter
        (fun i => (get₂ s₂.receivedMessages sync.senderId i).isNone) ≠ [] := by
      refine List.ne_nil_of_mem (List.mem_filter.mpr ⟨seqNext_mem_seqsAfter _ hgap.1, ?_⟩)
      rw [hnext, (isMissing_next hwf' hsound).1]
      rfl
    rcases @nackMissing_result C me s₂ sync.convId sync.senderId _ hne with ⟨hres, hasks⟩ | ⟨-, hasks⟩
    · rw [hasks]
      refine ⟨hsound, fun htwo hnone => ?_⟩
      rw [hview, hnote] at htwo hnone
      rw [((s.gapView sync.senderId).note_frame _).2.1] at hnone
      obtain ⟨hkeys, hroom⟩ := hasked hnone htwo
      have hle := hv.delta_le_note hn hnear (by omega)
      obtain ⟨hlt, hlen⟩ := seqsAfter_bounds (orDefault (s₁.highestReceivedSeq.get sync.senderId) 0)
        (syncAhead s₁ sync.senderId sync.highestSeq)
        (fun i => (get₂ s₂.receivedMessages sync.senderId i).isNone)
      obtain ⟨hopen', hkeys'⟩ := hkeys.of_rest hrest' hopen
      exact nackMissing_returns hC hbody hme hsender hid hc hlt (by omega) hopen' hkeys' hres
    · rw [hasks]
      exact hsound.ask hc
  · rw [if_neg hgap, pure_run, hnote]
    exact hv.note_stale hn (by omega) hnear

end Sites

/-! ### The retry -/

/-- What a retry asks for. -/
def retryList (s : Client) (id : ℕ) : List ℕ :=
  (seqsAfter (s.gapView id).delivered (min ((s.gapView id).outstanding - 1) DICT_WINDOW)).filter
    (isMissing s id)

theorem step_nackRetry {c : ℕ} (hpend : (s.gapView id).retry = some c)
    (hbase : (s.gapView id).highest ≠ none) (hseen : (s.gapView id).seen ≠ none) :
    step C me (.nackRetryTimer id) s
      = nackMissing C me c id (retryList s id)
          { s with nackRetryTimers := s.nackRetryTimers.delete id } := by
  obtain ⟨h, hh⟩ := Option.ne_none_iff_exists'.mp hbase
  obtain ⟨n, hn⟩ := Option.ne_none_iff_exists'.mp hseen
  have hh' : s.highestReceivedSeq.get id = some h := hh
  have hn' : s.seenSeq.get id = some n := hn
  have hp' : s.nackRetryTimers.get id = some c := hpend
  show fire _ _ (fun convId => runNackRetry C me convId id) s = _
  rw [fire_run]
  simp only [hp']
  rw [runNackRetry, get_bind]
  simp only [hh', hn']
  have hlast : (s.gapView id).last = n := by rw [GapView.last, hn]; exact orDefault_zero _
  rw [retryList, GapView.outstanding, hlast, GapView.delivered, hh]
  rfl

theorem gapView_cleared (s : Client) (id : ℕ) :
    Client.gapView { s with nackRetryTimers := s.nackRetryTimers.delete id } id
      = { s.gapView id with retry := none } := by
  simp [Client.gapView]

theorem step_nackRetry_none (hbase : (s.gapView id).highest = none) :
    (step C me (.nackRetryTimer id) s).output = [] ∧
      (step C me (.nackRetryTimer id) s).state.gapView id = { s.gapView id with retry := none } := by
  have hh' : s.highestReceivedSeq.get id = none := hbase
  show (fire _ _ (fun convId => runNackRetry C me convId id) s).output = [] ∧
    (fire _ _ (fun convId => runNackRetry C me convId id) s).state.gapView id = _
  rw [fire_run]
  cases hp : s.nackRetryTimers.get id with
  | none => exact ⟨rfl, congrArg (GapView.mk _ _ · _) hp⟩
  | some c =>
    simp only
    rw [runNackRetry, get_bind]
    simp only [hh']
    exact ⟨rfl, gapView_cleared s id⟩

theorem mem_retryList (hs : s.WellFormed) (h : (s.gapView id).Sound) :
    seqNext (s.gapView id).delivered ∈ retryList s id ↔ 2 ≤ (s.gapView id).outstanding := by
  constructor
  · intro hmem
    obtain ⟨k, hk, -⟩ := List.mem_map.mp (List.mem_filter.mp hmem).1
    have := List.mem_range.mp hk
    omega
  · intro htwo
    refine List.mem_filter.mpr ⟨seqNext_mem_seqsAfter _ ?_, (isMissing_next hs h).2⟩
    unfold DICT_WINDOW
    omega

theorem retryList_bounds (s : Client) (id : ℕ) :
    (∀ q ∈ retryList s id, q < SEQ_MOD) ∧ (retryList s id).length < NACK_ROOM := by
  obtain ⟨hlt, hlen⟩ := seqsAfter_bounds (s.gapView id).delivered
    (min ((s.gapView id).outstanding - 1) DICT_WINDOW) (isMissing s id)
  exact ⟨hlt, lt_of_le_of_lt (hlen.trans (Nat.min_le_right _ _)) (by decide)⟩

/-- **The retry of the sender.** -/
theorem step_nackRetry_tracked (hC : C.Lawful) (hbody : LengthPreserving C) (hme : me.Lawful)
    (hsender : me.senderId < 65536) (hid : id < 65536) (hs : s.WellFormed)
    (hv : (s.gapView id).Tracked) (hbase : (s.gapView id).highest ≠ none)
    (hready : ∀ c ∈ (s.gapView id).retry, s.closed = false ∧ KeysUsable C me s c id) :
    ((step C me (.nackRetryTimer id) s).state.gapView id).Tracked := by
  cases hpend : (s.gapView id).retry with
  | none =>
    have hidle : step C me (.nackRetryTimer id) s = ⟨some (), s, []⟩ := by
      have hp' : s.nackRetryTimers.get id = none := hpend
      show fire _ _ (fun convId => runNackRetry C me convId id) s = _
      rw [fire_run]
      simp only [hp']
    rw [hidle]
    exact hv
  | some c =>
    obtain ⟨hopen, hkeys⟩ := hready c hpend
    have hsound : GapView.Sound { s.gapView id with retry := none } :=
      hv.toSound.with_retry fun _ h => absurd h (by simp)
    rw [step_nackRetry hpend hbase (hv.heard hbase)]
    by_cases hnil : retryList s id = []
    · -- nothing is missing in front of the last number
      rw [nackMissing, if_pos hnil, pure_run, gapView_cleared]
      refine ⟨hsound, fun htwo => ?_⟩
      have hmem := (mem_retryList hs hv.toSound).mpr htwo
      rw [hnil] at hmem
      exact absurd hmem List.not_mem_nil
    · obtain ⟨hlt, hfew⟩ := retryList_bounds s id
      rcases @nackMissing_result C me { s with nackRetryTimers := s.nackRetryTimers.delete id } c id _
        hnil with ⟨hnone, -⟩ | ⟨-, hasks⟩
      · exact absurd hnone
          (nackMissing_returns hC hbody hme hsender hid (hv.conv c hpend) hlt hfew hopen hkeys)
      · rw [hasks, gapView_cleared]
        exact hsound.ask (hv.conv c hpend)

/-! ### Runs -/

/-- The conversation and the number of a Data dart of the sender. -/
def dataOf (id : ℕ) (buf : Buffer) : Option (ℕ × ℕ) :=
  match dataHeader buf with
  | some (some (convId, senderId, seq)) =>
    if buf.readUInt8 0 = some TYPE_DATA ∧ senderId = id then some (convId, seq) else none
  | _ => none

/-- The conversation and the number in a SYNC of the sender. -/
def syncOf (C : Crypto) (id : ℕ) (s : Client) (buf : Buffer) : Option (ℕ × ℕ) :=
  match openSync C s buf with
  | some (some sync) =>
    if buf.readUInt8 0 = some TYPE_SYNC ∧ sync.senderId = id then some (sync.convId, sync.highestSeq)
    else none
  | _ => none

/-- The sender whose retry fires. -/
def Event.retryOf : Event → Option ℕ
  | .nackRetryTimer senderId => some senderId
  | _ => none

section Runs

variable (C : Crypto) (me : Identity) (id : ℕ)

/-- An event that is in order for the stream of a sender, by the event and the state it meets.

* The number of a Data dart can be followed; without a baseline one outside the window is a first dart.
* The number in a SYNC can be followed, unless the view is idle.
* The retry fires when there is a baseline or nothing is held back, and its NACK can be written. -/
@[mk_iff] structure Orderly (s : Client) (e : Event) : Prop where
  data : ∀ buf ∈ e.datagram, s.closed = false → ∀ p ∈ dataOf id buf,
    if (s.gapView id).highest = none ∧ ¬ (1 ≤ p.2 ∧ p.2 ≤ DICT_WINDOW) then
      (s.gapView id).FirstDart p.2
    else Followable C me id s p.1 p.2
  sync : ∀ buf ∈ e.datagram, s.closed = false → ∀ p ∈ syncOf C id s buf, ¬ (s.gapView id).Idle →
    Followable C me id s p.1 p.2
  retry : ∀ other ∈ e.retryOf, other = id → ∀ c ∈ (s.gapView id).retry,
    if (s.gapView id).highest = none then (s.gapView id).held.size = 0
    else s.closed = false ∧ KeysUsable C me s c id

instance (s : Client) (e : Event) : Decidable (Orderly C me id s e) :=
  decidable_of_iff _ (orderly_iff C me id s e).symm

/-- Every event of a run is in order. -/
def OrderlyRun : Client → List Event → Prop
  | _, [] => True
  | s, e :: es => Orderly C me id s e ∧ OrderlyRun (step C me e s).state es

instance decidableOrderlyRun : ∀ (s : Client) (es : List Event), Decidable (OrderlyRun C me id s es)
  | _, [] => isTrue trivial
  | s, e :: es =>
    have := decidableOrderlyRun (step C me e s).state es
    inferInstanceAs (Decidable (_ ∧ _))

variable {C me id}

variable (hC : C.Lawful) (hbody : LengthPreserving C) (hme : me.Lawful) (hsender : me.senderId < 65536)
  (hid : id < 65536)
include hC hbody hme hsender hid

variable {buf : Buffer}

theorem handleData_followed (hs : s.WellFormed) (hopen : s.closed = false)
    (hv : (s.gapView id).Followed) (htype : buf.readUInt8 0 = some TYPE_DATA)
    (hdata : ∀ p ∈ dataOf id buf,
      if (s.gapView id).highest = none ∧ ¬ (1 ≤ p.2 ∧ p.2 ≤ DICT_WINDOW) then
        (s.gapView id).FirstDart p.2
      else Followable C me id s p.1 p.2) :
    ((handleData C me buf s).state.gapView id).Followed := by
  have hrun := handleData_run C me buf s
  rcases hheader : dataHeader buf with _ | _ | ⟨c, other, q⟩
  · rw [hrun, hheader]
    exact hv
  · rw [hrun, hheader]
    exact hv
  rw [hheader] at hrun
  rw [hrun]
  obtain ⟨hc, -, hq⟩ := dataHeader_bounds hheader
  by_cases hother : other = id
  · subst hother
    have hcase := hdata (c, q) (by rw [dataOf, hheader]; exact if_pos ⟨htype, rfl⟩)
    split at hcase
    · rename_i hout
      exact routeData_first hv hq hout.1 hout.2 hcase buf c
    · rename_i hout
      exact (routeData_tracked hC hbody hme hsender hid hs hopen (hcase.tracked hv) hq hc hout hcase
        buf).followed
  · have hroute : SameGaps id (s.noteSeen other q)
        (routeData C me buf c other q (s.noteSeen other q)).output
        (routeData C me buf c other q (s.noteSeen other q)).state :=
      routeData_obeys_of (sameGaps_receive hother) buf (sameGaps_schedule hother c) hq _
    have hsame := hroute.trans (gapView_noteSeen_of_ne s hother q)
    simp only [hsame]
    exact hv

theorem handleSync_followed (hs : s.WellFormed) (hopen : s.closed = false)
    (hv : (s.gapView id).Followed) (htype : buf.readUInt8 0 = some TYPE_SYNC)
    (hsync : ∀ p ∈ syncOf C id s buf, ¬ (s.gapView id).Idle → Followable C me id s p.1 p.2) :
    ((handleSync C me buf s).state.gapView id).Followed := by
  have hrun := @handleSync_run C me buf s
  rcases hsynced : openSync C s buf with _ | _ | sync
  · rw [hrun, hsynced]
    exact hv
  · rw [hrun, hsynced]
    exact hv
  rw [hsynced] at hrun
  rw [hrun]
  obtain ⟨hc, hn⟩ := openSync_bounds hsynced
  by_cases hother : sync.senderId = id
  · subst hother
    by_cases hidle : (s.gapView sync.senderId).Idle
    · exact followSync_idle hv hidle hn hc
    · have hfollow := hsync (sync.convId, sync.highestSeq)
        (by rw [syncOf, hsynced]; exact if_pos ⟨htype, rfl⟩) hidle
      exact (followSync_tracked hC hbody hme hsender hid hs hopen (hv.tracked hidle) hn hc
        hfollow).followed
  · have hfollow : SameGaps id (s.noteSeen sync.senderId sync.highestSeq)
        (followSync C me sync (s.noteSeen sync.senderId sync.highestSeq)).output
        (followSync C me sync (s.noteSeen sync.senderId sync.highestSeq)).state :=
      sameGaps_followSync hother _
    have hsame := hfollow.trans (gapView_noteSeen_of_ne s hother _)
    simp only [hsame]
    exact hv

theorem dispatch_followed (hs : s.WellFormed) (hopen : s.closed = false)
    (hv : (s.gapView id).Followed)
    (hdata : ∀ p ∈ dataOf id buf,
      if (s.gapView id).highest = none ∧ ¬ (1 ≤ p.2 ∧ p.2 ≤ DICT_WINDOW) then
        (s.gapView id).FirstDart p.2
      else Followable C me id s p.1 p.2)
    (hsync : ∀ p ∈ syncOf C id s buf, ¬ (s.gapView id).Idle → Followable C me id s p.1 p.2) :
    ((dispatch C me buf s).state.gapView id).Followed := by
  have hB := sameGaps_background id
  have hK := sameGaps_keys C me id
  have hsame : ∀ {m : ClientProg Unit}, ObeysAt (SameGaps id) m s →
      ((m s).state.gapView id).Followed := by
    intro m hm
    have hview : (m s).state.gapView id = s.gapView id := hm
    rw [hview]
    exact hv
  cases htype : buf.readUInt8 0 with
  | none =>
    rw [dispatch, htype]
    exact hv
  | some type =>
    rw [dispatch_of_type C me htype]
    refine handlerOf_cases (P := fun m => ((m s).state.gapView id).Followed)
      ?_ ?_ ?_ ?_ ?_ ?_ ?_ ?_ ?_
    · rintro rfl
      exact handleData_followed hC hbody hme hsender hid hs hopen hv htype hdata
    · exact fun _ => hsame (handleChainShare_obeysAt hB fun _ _ _ _ _ => rfl)
    · refine fun _ => hsame (handleNack_obeys hB (fun seq t => ?_) (fun _ _ t => ?_) buf s)
      · exact retransmit_obeysAt hB fun _ _ _ _ _ _ _ _ => rfl
      · exact reshareSeed_obeysAt hB fun _ _ _ _ _ _ => rfl
    · exact fun _ => hsame (handleKeyShare_obeys hK.toAdoptRules buf s)
    · exact fun _ => hsame (handleMemberInfo_obeys hK buf s)
    · rintro rfl
      exact handleSync_followed hC hbody hme hsender hid hs hopen hv htype hsync
    · refine fun _ => hsame (handleDictReset_obeys hB (fun t target => ?_) buf s)
      unfold applyDictReset
      split
      · rfl
      · exact gapView_clearReceived id t target
    · exact fun _ => hsame (handleAck_obeys hB buf s)
    · exact hv

/-- **One event in order.** -/
theorem step_followed (hs : s.WellFormed) (hv : (s.gapView id).Followed) {e : Event}
    (he : Orderly C me id s e) : ((step C me e s).state.gapView id).Followed := by
  by_cases hmessage : ∃ buf, e = .message buf
  · obtain ⟨buf, rfl⟩ := hmessage
    rw [step_message]
    cases hclosed : s.closed with
    | true =>
      rw [if_pos rfl]
      exact hv
    | false =>
      rw [if_neg (by decide), handleMessage_run]
      exact dispatch_followed hC hbody hme hsender hid hs hclosed hv (he.data buf rfl hclosed)
        (he.sync buf rfl hclosed)
  by_cases hretry : e = .nackRetryTimer id
  · subst hretry
    have hfires := he.retry id rfl rfl
    by_cases hbase : (s.gapView id).highest = none
    · rw [(step_nackRetry_none hbase).2]
      refine ⟨hv.last_lt, fun c hc => (by cases hc), fun hidle => ?_⟩
      -- with nothing held back the view stays idle, and without a retry nothing fires
      have hheld : (s.gapView id).held.size ≠ 0 := fun h => hidle ⟨hbase, h⟩
      cases hpend : (s.gapView id).retry with
      | none =>
        rw [← hpend]
        exact hv.tracked fun h => hheld h.2
      | some c =>
        have hsize := hfires c hpend
        rw [if_pos hbase] at hsize
        exact absurd hsize hheld
    · simp only [if_neg hbase] at hfires
      exact (step_nackRetry_tracked hC hbody hme hsender hid hs
        (hv.tracked fun h => hbase h.1) hbase hfires).followed
  have hB := sameGaps_background id
  have hsame : ObeysAt (SameGaps id) (step C me e) s := by
    refine step_obeysAt_gaps hB (fun _ => rfl) ?_ (fun buf h => absurd ⟨buf, h⟩ hmessage) ?_ ?_ ?_
    · intro convId payload _
      exact sendData_obeysAt hB (fun _ => rfl) (fun _ _ _ _ h => h) (fun _ _ _ _ _ _ => rfl)
    · intro i _
      have h : Obeys (SameGaps id) (step C me (.shareTimer i)) :=
        fire_obeys hB (fun _ => rfl) fun retry =>
          runShareRetry_obeys hB retry fun _ _ _ _ _ _ _ _ _ _ _ _ => rfl
      exact h s
    · intro _
      have h : Obeys (SameGaps id) (step C me .rekeyTimer) :=
        fire_obeys hB (fun _ => rfl) (rekey_obeys (sameGaps_keys C me id).toAdoptRules)
      exact h s
    · intro other hother
      exact sameGaps_nackRetry (fun h => hretry (by rw [hother, h])) s
  have hview : (step C me e s).state.gapView id = s.gapView id := hsame
  rw [hview]
  exact hv

omit hC hbody hme hsender hid in
theorem followed_init : (Client.gapView {} id).Followed :=
  ⟨show 0 < SEQ_MOD by decide, fun _ h => (by cases h), fun h => absurd ⟨rfl, rfl⟩ h⟩

/-- **A run in order.** -/
theorem run_followed {es : List Event} :
    ∀ {s : Client}, s.WellFormed → (s.gapView id).Followed → OrderlyRun C me id s es →
      ((run C me es s).state.gapView id).Followed := by
  induction es with
  | nil => exact fun _ hv _ => hv
  | cons e es ih =>
    intro s hs hv hes
    rw [run_cons]
    exact ih (step_wellFormed C me e hs) (step_followed hC hbody hme hsender hid hs hv hes.1) hes.2

end Runs

/-! ### When a known gap is asked for again -/

section Rerequests

variable (C : Crypto) (me : Identity)

/-- The retry for a sender is pending, and when it fires, the NACK it sends has the first undelivered
number, and the retry is pending again. -/
structure Rerequested (id : ℕ) (s : Client) : Prop where
  pending : (s.gapView id).retry ≠ none
  asks : ∃ frame ∈ framesOf (step C me (.nackRetryTimer id) s).output, ∃ nack,
    (stripControlFrame frame).bind Codec.parseNack = some nack ∧ nack.targetId = id ∧
      seqNext (s.gapView id).delivered ∈ nack.missingSeq
  rearmed : ((step C me (.nackRetryTimer id) s).state.gapView id).retry ≠ none

variable {C me}

/-- **When a known gap is asked for again.**  In a run in order, a receiver that has heard of a number
it has not delivered asks for it again exactly when it has a baseline and the last number it heard of is
not the very next one. -/
theorem gap_rerequested_iff (hC : C.Lawful) (hbody : LengthPreserving C) (hme : me.Lawful)
    (hsender : me.senderId < 65536) {id : ℕ} (hid : id < 65536) {es : List Event}
    (hes : OrderlyRun C me id {} es) (hgap : 0 < ((stateAfter C me es).gapView id).outstanding)
    (hopen : (stateAfter C me es).closed = false)
    (hkeys : ∀ c, ((stateAfter C me es).gapView id).retry = some c →
      KeysKnown C me (stateAfter C me es) c id) :
    Rerequested C me id (stateAfter C me es) ↔
      ((stateAfter C me es).gapView id).highest ≠ none ∧
        ((stateAfter C me es).gapView id).outstanding ≠ 1 := by
  have hs := wellFormed_stateAfter C me es
  have hv : ((stateAfter C me es).gapView id).Followed :=
    run_followed hC hbody hme hsender hid Client.WellFormed.init followed_init hes
  generalize stateAfter C me es = s at hgap hopen hkeys hs hv
  constructor
  · rintro ⟨hpend, ⟨frame, hframe, -⟩, -⟩
    obtain ⟨c, hc⟩ := Option.ne_none_iff_exists'.mp hpend
    have hbase : (s.gapView id).highest ≠ none := by
      intro hnone
      rw [(step_nackRetry_none hnone).1] at hframe
      exact absurd hframe List.not_mem_nil
    refine ⟨hbase, fun hone => ?_⟩
    have hheard := (hv.tracked fun h => hbase h.1).heard hbase
    have hnil : retryList s id = [] := by rw [retryList, hone]; rfl
    rw [step_nackRetry hc hbase hheard, nackMissing, if_pos hnil] at hframe
    exact absurd hframe List.not_mem_nil
  · rintro ⟨hbase, hone⟩
    have hv := hv.tracked fun h => hbase h.1
    have htwo : 2 ≤ (s.gapView id).outstanding := by omega
    have hpend := hv.pending htwo
    obtain ⟨c, hc⟩ := Option.ne_none_iff_exists'.mp hpend
    have hmem := (mem_retryList hs hv.toSound).mpr htwo
    obtain ⟨hlt, hfew⟩ := retryList_bounds s id
    obtain ⟨frame, via, hsend, hparse⟩ := @sendNack_frame
      { s with nackRetryTimers := s.nackRetryTimers.delete id } C me hC hbody hme hsender id hid c
      (hv.conv c hc) _ hlt hfew hopen (hkeys c hc)
    have hstep := @step_nackRetry C me id s c hc hbase (hv.heard hbase)
    rw [nackMissing, if_neg (List.ne_nil_of_mem hmem), bind_run, hsend] at hstep
    refine ⟨hpend, ⟨frame, ?_, _, hparse, rfl, hmem⟩, ?_⟩
    · rw [hstep]
      exact List.mem_cons_self
    · rw [hstep]
      show ((scheduleNackRetry c id _).state.gapView id).retry ≠ none
      rw [gapView_schedule]
      exact Option.some_ne_none _

end Rerequests

/-! ### Runs -/

/-- What a founder with one member sends: its keys, some darts, and then a probe. -/
def foundersFrames (payloads : List String) : List Buffer :=
  framesOf (outputsOf sumCrypto (sumIdentity 1)
    (.message (sumMemberInfo 1 1 true [1, 2]) :: (payloads.map (Event.sendData 1) ++ [.probeTimer])))

/-- The member gets some of these frames. -/
def membersRun (payloads : List String) (arrived : List ℕ) : List Event :=
  .message (sumMemberInfo 1 2 false [1, 2]) ::
    (arrived.filterMap fun i => (foundersFrames payloads)[i]?).map Event.message

/-- The member after that. -/
abbrev memberAfter (payloads : List String) (arrived : List ℕ) : Client :=
  stateAfter sumCrypto (sumIdentity 2) (membersRun payloads arrived)

/-- The second of three darts is lost. -/
theorem lost_second_rerequested :
    ((memberAfter ["a", "b", "c"] [0, 1, 2, 4]).gapView 1).outstanding = 2 ∧
      Rerequested sumCrypto (sumIdentity 2) 1 (memberAfter ["a", "b", "c"] [0, 1, 2, 4]) := by
  have horderly : OrderlyRun sumCrypto (sumIdentity 2) 1 {}
      (membersRun ["a", "b", "c"] [0, 1, 2, 4]) := by
    decide +kernel
  obtain ⟨⟨convKey, hkey, hlen⟩, ⟨peerPub, hpeer, hmac⟩⟩ :
      (∃ key ∈ (memberAfter ["a", "b", "c"] [0, 1, 2, 4]).getCurrentKey 1, key.length = 32) ∧
        ∃ pub ∈ get₂ (memberAfter ["a", "b", "c"] [0, 1, 2, 4]).roster 1 1,
          (pairwiseKey sumCrypto (sumIdentity 2).privateKey pub).isSome := by
    decide +kernel
  have hretry : ((memberAfter ["a", "b", "c"] [0, 1, 2, 4]).gapView 1).retry = some 1 := by
    decide +kernel
  refine ⟨by decide +kernel, (gap_rerequested_iff sumCrypto_lawful sumCrypto_lengthPreserving
    (sumIdentity_lawful 2) (by decide) (by decide) horderly (by decide +kernel) (by decide +kernel)
    fun c hc => ?_).mpr (by decide +kernel)⟩
  obtain rfl : c = 1 := Option.some.inj (hc.symm.trans hretry)
  obtain ⟨macKey, hmacKey⟩ := Option.isSome_iff_exists.mp hmac
  exact ⟨convKey, peerPub, macKey, hkey, hlen, hpeer, hmacKey⟩

/-- After these arrivals both keys are known and the retry is pending; it fires, sends nothing and is not
set again, and the gap is still known. -/
abbrev GivenUp (arrived : List ℕ) : Prop :=
  let s := memberAfter ["a", "b"] arrived
  let later :=
    stateAfter sumCrypto (sumIdentity 2) (membersRun ["a", "b"] arrived ++ [.nackRetryTimer 1])
  (s.getCurrentKey 1).isSome ∧ (get₂ s.roster 1 1).isSome ∧ s.closed = false ∧
    (s.gapView 1).retry = some 1 ∧
    (step sumCrypto (sumIdentity 2) (.nackRetryTimer 1) s).output = [] ∧
    (s.gapView 1).held.get (seqNext (s.gapView 1).delivered) = none ∧
    (later.gapView 1).retry = none ∧ 0 < (later.gapView 1).outstanding

/-- **A known gap is given up.**  First, dart 1 was delivered, dart 2 is lost and known from the SYNC
only.  Second, dart 2 is the first to arrive. -/
theorem gap_given_up : GivenUp [0, 1, 2, 4] ∧ GivenUp [0, 1, 3] := by
  decide +kernel

end DartProtocol
