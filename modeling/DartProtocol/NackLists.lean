import DartProtocol.GapRequests

/-!
# What the three sites ask for

A Data dart beyond a gap, a SYNC and the retry timer each build a list of numbers for a NACK, with a
loop of their own over the numbers after the highest one received.

* `mem_seqsAfter`, `pairwise_seqsAfter` — the loop runs over the numbers after a baseline in order;
* `dataGapList`, `syncGapList`, `retryList` — the three lists, and `step_data_gap`, `step_sync_gap`,
  `step_nackRetry` that they are what is asked for;
* `AsksExactly` — a list is exact;
* `nack_lists_iff` — the list of a Data dart always is, that of a SYNC unless something it asks for is
  held back in the out-of-order buffer, and that of the retry up to the number before the last one.
-/

namespace DartProtocol

open Prog InsertionMap

/-! ### The numbers after a baseline -/

theorem seqDelta_add (h : ℕ) {k : ℕ} (hk : k < SEQ_MOD) : seqDelta h ((h + k) % SEQ_MOD) = k := by
  unfold seqDelta SerialNumber.delta SEQ_MOD at *
  omega

theorem add_seqDelta (h : ℕ) {q : ℕ} (hq : q < SEQ_MOD) : (h + seqDelta h q) % SEQ_MOD = q := by
  unfold seqDelta SerialNumber.delta SEQ_MOD at *
  omega

theorem mem_seqsAfter {h n q : ℕ} (hn : n < SEQ_MOD) :
    q ∈ seqsAfter h n ↔ q < SEQ_MOD ∧ 1 ≤ seqDelta h q ∧ seqDelta h q ≤ n := by
  rw [seqsAfter, List.mem_map]
  constructor
  · rintro ⟨k, hk, rfl⟩
    rw [List.mem_range] at hk
    rw [seqDelta_add h (by omega : k + 1 < SEQ_MOD)]
    exact ⟨Nat.mod_lt _ (by decide), by omega, by omega⟩
  · rintro ⟨hq, hpos, hle⟩
    refine ⟨seqDelta h q - 1, List.mem_range.mpr (by omega), ?_⟩
    rw [Nat.sub_add_cancel hpos, add_seqDelta h hq]

theorem pairwise_seqsAfter {h n : ℕ} (hn : n < SEQ_MOD) :
    (seqsAfter h n).Pairwise fun q q' => seqDelta h q < seqDelta h q' := by
  rw [seqsAfter, List.pairwise_map]
  refine (List.pairwise_lt_range (n := n)).imp_of_mem fun {k k'} hk hk' hlt => ?_
  rw [List.mem_range] at hk hk'
  rw [seqDelta_add h (by omega : k + 1 < SEQ_MOD), seqDelta_add h (by omega : k' + 1 < SEQ_MOD)]
  omega

/-- A list asks, nearest first and without repetition, for exactly the numbers among the first `n`
after a baseline that are neither stored nor held back. -/
def AsksExactly (s : Client) (id h n : ℕ) (missing : List ℕ) : Prop :=
  missing.Pairwise (fun q q' => seqDelta h q < seqDelta h q') ∧
    ∀ q, q ∈ missing ↔
      q < SEQ_MOD ∧ 1 ≤ seqDelta h q ∧ seqDelta h q ≤ n ∧ isMissing s id q = true

/-- A filtered loop is exact when its filter is right on its range. -/
theorem asksExactly_iff {s : Client} {id h n m : ℕ} (hnm : n ≤ m) (hm : m < SEQ_MOD) {p : ℕ → Bool} :
    AsksExactly s id h m ((seqsAfter h n).filter p) ↔
      ∀ q < SEQ_MOD, 1 ≤ seqDelta h q → seqDelta h q ≤ m →
        ((seqDelta h q ≤ n ∧ p q = true) ↔ isMissing s id q = true) := by
  have hn : n < SEQ_MOD := by omega
  have hmem : ∀ q, q ∈ (seqsAfter h n).filter p
      ↔ q < SEQ_MOD ∧ 1 ≤ seqDelta h q ∧ seqDelta h q ≤ n ∧ p q = true := by
    intro q
    rw [List.mem_filter, mem_seqsAfter hn, and_assoc, and_assoc]
  constructor
  · rintro ⟨-, hiff⟩ q hq hpos hle
    have := (hmem q).symm.trans (hiff q)
    tauto
  · intro hright
    refine ⟨(pairwise_seqsAfter hn).filter p, fun q => ?_⟩
    rw [hmem]
    constructor
    · rintro ⟨hq, hpos, hle, hp⟩
      exact ⟨hq, hpos, by omega, (hright q hq hpos (by omega)).mp ⟨hle, hp⟩⟩
    · rintro ⟨hq, hpos, hle, hmiss⟩
      obtain ⟨hle', hp⟩ := (hright q hq hpos hle).mpr hmiss
      exact ⟨hq, hpos, hle', hp⟩

/-! ### The three sites -/

/-- A packet is put into the out-of-order buffer. -/
def Client.hold (s : Client) (id seq : ℕ) (buf : Buffer) : Client :=
  { s with outOfOrderBuffer := set₂ s.outOfOrderBuffer id seq buf }

/-- What a Data dart beyond a gap asks for. -/
def dataGapList (s : Client) (buf : Buffer) (id seq : ℕ) : List ℕ :=
  (seqsAfter (orDefault (s.highestReceivedSeq.get id) 0) (dataAhead s id seq - 1)).filter
    (isMissing (s.hold id seq buf) id)

/-- What a SYNC asks for. -/
def syncGapList (s : Client) (id highestSeq : ℕ) : List ℕ :=
  (seqsAfter (orDefault (s.highestReceivedSeq.get id) 0) (syncAhead s id highestSeq)).filter
    fun i => (get₂ s.receivedMessages id i).isNone

section Sites

variable {C : Crypto} {me : Identity} {s : Client}

/-- A Data dart beyond a gap is held back, and the gap is asked for. -/
theorem step_data_gap (hopen : s.closed = false) {buf : Buffer}
    (htype : buf.readUInt8 0 = some TYPE_DATA) {c id seq : ℕ}
    (hheader : dataHeader buf = some (some (c, id, seq)))
    (hgap : 1 < dataAhead s id seq) (hnear : dataAhead s id seq < SEQ_MOD / 2) :
    step C me (.message buf) s
      = ⟨some (), (nackMissing C me c id (dataGapList s buf id seq)
            ((s.noteSeen id seq).hold id seq buf)).state,
          (nackMissing C me c id (dataGapList s buf id seq)
            ((s.noteSeen id seq).hold id seq buf)).output⟩ := by
  have hroute : handleData C me buf s = nackMissing C me c id (dataGapList s buf id seq)
      ((s.noteSeen id seq).hold id seq buf) := by
    rw [handleData_run, hheader]
    show routeData C me buf c id seq (s.noteSeen id seq) = _
    obtain ⟨seen, hseen⟩ := noteSeen_eq s id seq
    rw [hseen, routeData, get_bind]
    have hahead : dataAhead { s with seenSeq := seen } id seq = dataAhead s id seq := rfl
    simp only [hahead]
    rw [if_neg (by omega), if_pos hgap, bufferAhead, modify_bind, get_bind]
    rfl
  rw [step_message_of_type C me hopen htype, ← hroute]
  rfl

theorem get₂_ensureReceived (s : Client) (id i : ℕ) :
    get₂ (ensureReceived id s).receivedMessages id i = get₂ s.receivedMessages id i := by
  unfold ensureReceived
  split
  · rfl
  · rename_i hhas
    have hnone : s.receivedMessages.get id = none := by
      rw [← has_eq_false_iff]
      simpa using hhas
    rw [get₂, get₂, get_set_self, hnone]
    rfl

theorem step_sync_gap (hopen : s.closed = false) {buf : Buffer}
    (htype : buf.readUInt8 0 = some TYPE_SYNC) {sync : SyncDart}
    (hsync : openSync C s buf = some (some sync))
    (hgap : 0 < syncAhead s sync.senderId sync.highestSeq)
    (hnear : syncAhead s sync.senderId sync.highestSeq < SEQ_MOD / 2) :
    step C me (.message buf) s
      = ⟨some (), (nackMissing C me sync.convId sync.senderId
            (syncGapList s sync.senderId sync.highestSeq)
            (ensureReceived sync.senderId (s.noteSeen sync.senderId sync.highestSeq))).state,
          (nackMissing C me sync.convId sync.senderId (syncGapList s sync.senderId sync.highestSeq)
            (ensureReceived sync.senderId (s.noteSeen sync.senderId sync.highestSeq))).output⟩ := by
  have hroute : handleSync C me buf s = nackMissing C me sync.convId sync.senderId
      (syncGapList s sync.senderId sync.highestSeq)
      (ensureReceived sync.senderId (s.noteSeen sync.senderId sync.highestSeq)) := by
    rw [handleSync_run, hsync]
    show followSync C me sync (s.noteSeen sync.senderId sync.highestSeq) = _
    obtain ⟨seen, hseen⟩ := noteSeen_eq s sync.senderId sync.highestSeq
    rw [hseen, followSync, get_bind]
    have hahead : syncAhead { s with seenSeq := seen } sync.senderId sync.highestSeq
      = syncAhead s sync.senderId sync.highestSeq := rfl
    have hreceived : ∀ i, get₂
        (ensureReceived sync.senderId { s with seenSeq := seen }).receivedMessages sync.senderId i
          = get₂ s.receivedMessages sync.senderId i :=
      fun i => get₂_ensureReceived { s with seenSeq := seen } sync.senderId i
    simp only [hahead]
    rw [if_pos ⟨hgap, hnear⟩, modify_bind, get_bind]
    simp only [hreceived]
    rfl
  rw [step_message_of_type C me hopen htype, ← hroute]
  rfl

end Sites

/-! ### Exactness -/

section Exact

variable {s : Client} {id h : ℕ}

theorem dataAhead_of_baseline (hbase : s.highestReceivedSeq.get id = some h) (seq : ℕ) :
    dataAhead s id seq = seqDelta h seq := by
  rw [dataAhead, if_pos (has_iff.mpr ⟨h, hbase⟩), hbase, orDefault_zero]
  rfl

theorem syncAhead_of_baseline (hbase : s.highestReceivedSeq.get id = some h) (seq : ℕ) :
    syncAhead s id seq = seqDelta h seq := by
  rw [syncAhead, if_pos (has_iff.mpr ⟨h, hbase⟩), hbase, orDefault_zero]
  rfl

theorem dataGapList_exact (hbase : s.highestReceivedSeq.get id = some h) (buf : Buffer) (seq : ℕ)
    (hgap : 1 < seqDelta h seq) :
    AsksExactly s id h (seqDelta h seq - 1) (dataGapList s buf id seq) := by
  have hlt := seqDelta_lt h seq
  rw [dataGapList, dataAhead_of_baseline hbase, hbase, orDefault_zero]
  refine (asksExactly_iff le_rfl (by omega)).mpr fun q hq hpos hle => ?_
  have hne : seq ≠ q := by
    rintro rfl
    omega
  have hsame : isMissing (s.hold id seq buf) id q = isMissing s id q := by
    rw [isMissing, isMissing, Client.hold, get₂_set₂, if_neg fun hboth => hne hboth.2]
  rw [hsame]
  exact and_iff_right hle

/-- **The list of a SYNC** is exact unless it asks for a dart that is held back. -/
theorem syncGapList_exact_iff (hbase : s.highestReceivedSeq.get id = some h) (seq : ℕ) :
    AsksExactly s id h (seqDelta h seq) (syncGapList s id seq) ↔
      ∀ q < SEQ_MOD, 1 ≤ seqDelta h q → seqDelta h q ≤ seqDelta h seq →
        (get₂ s.outOfOrderBuffer id q).isSome → (get₂ s.receivedMessages id q).isSome := by
  rw [syncGapList, syncAhead_of_baseline hbase, hbase, orDefault_zero]
  refine (asksExactly_iff le_rfl (seqDelta_lt h seq)).trans ?_
  refine forall_congr' fun q => forall_congr' fun hq => forall_congr' fun hpos =>
    forall_congr' fun hle => ?_
  rw [isMissing]
  cases get₂ s.outOfOrderBuffer id q <;> cases get₂ s.receivedMessages id q <;> simp [hle]

/-- **The list of the retry** is exact up to the number before the last one heard of, within the
window. -/
theorem retryList_exact (hbase : s.highestReceivedSeq.get id = some h) {seen : ℕ}
    (hseen : s.seenSeq.get id = some seen) :
    AsksExactly s id h (min (seqDelta h seen - 1) DICT_WINDOW) (retryList s id) ∧
      (AsksExactly s id h (min (seqDelta h seen) DICT_WINDOW) (retryList s id) ↔
        (1 ≤ seqDelta h seen → seqDelta h seen ≤ DICT_WINDOW →
          isMissing s id (seen % SEQ_MOD) = false)) := by
  have hlt := seqDelta_lt h seen
  have hlist : retryList s id
      = (seqsAfter h (min (seqDelta h seen - 1) DICT_WINDOW)).filter (isMissing s id) := by
    rw [retryList, GapView.outstanding, GapView.delivered, GapView.last, Client.gapView]
    simp only [hbase, hseen, orDefault_zero, Option.getD_some]
  have hlast : seqDelta h (seen % SEQ_MOD) = seqDelta h seen := by
    unfold seqDelta SerialNumber.delta SEQ_MOD
    omega
  rw [hlist]
  constructor
  · exact (asksExactly_iff le_rfl (by omega)).mpr fun q _ _ hle => and_iff_right hle
  · refine (asksExactly_iff (by omega) (by omega)).trans
      ⟨fun hall hpos hle => ?_, fun hheld q hq hpos hle => ?_⟩
    · -- the last number is in the wider range only
      have hseenq := hall (seen % SEQ_MOD) (Nat.mod_lt _ (by decide)) (by omega) (by omega)
      rw [hlast] at hseenq
      cases hmiss : isMissing s id (seen % SEQ_MOD) with
      | false => rfl
      | true =>
        have := (hseenq.mpr hmiss).1
        omega
    · by_cases hin : seqDelta h q ≤ min (seqDelta h seen - 1) DICT_WINDOW
      · exact and_iff_right hin
      · have hsame : q = seen % SEQ_MOD := by
          rw [← add_seqDelta h hq, ← add_seqDelta h (Nat.mod_lt seen (by decide : 0 < SEQ_MOD)), hlast]
          congr 2
          omega
        have hnot := hheld (by omega) (by omega)
        rw [hsame, hnot]
        simp

end Exact

/-- **When the lists of the three sites are exact.**  For every state with a baseline, whatever is
stored and held back.  A Data dart beyond a gap asks for exactly the missing numbers before it.  A SYNC
asks for exactly the missing numbers up to the announced one if and only if none of these that is held
back in the out-of-order buffer is not stored as well.  The retry asks for exactly the missing numbers
before the last one heard of, among the first 200; with that last number included the list is exact if
and only if the number is beyond the first 200 or is not missing. -/
theorem nack_lists_iff (C : Crypto) (me : Identity) (s : Client) {id h : ℕ} (hopen : s.closed = false)
    (hbase : s.highestReceivedSeq.get id = some h) :
    (∀ buf c seq, buf.readUInt8 0 = some TYPE_DATA → dataHeader buf = some (some (c, id, seq)) →
      1 < seqDelta h seq → seqDelta h seq < SEQ_MOD / 2 →
      step C me (.message buf) s
          = ⟨some (), (nackMissing C me c id (dataGapList s buf id seq)
                ((s.noteSeen id seq).hold id seq buf)).state,
              (nackMissing C me c id (dataGapList s buf id seq)
                ((s.noteSeen id seq).hold id seq buf)).output⟩ ∧
        AsksExactly s id h (seqDelta h seq - 1) (dataGapList s buf id seq)) ∧
    (∀ buf sync, buf.readUInt8 0 = some TYPE_SYNC → openSync C s buf = some (some sync) →
      sync.senderId = id → 0 < seqDelta h sync.highestSeq → seqDelta h sync.highestSeq < SEQ_MOD / 2 →
      step C me (.message buf) s
          = ⟨some (), (nackMissing C me sync.convId id (syncGapList s id sync.highestSeq)
                (ensureReceived id (s.noteSeen id sync.highestSeq))).state,
              (nackMissing C me sync.convId id (syncGapList s id sync.highestSeq)
                (ensureReceived id (s.noteSeen id sync.highestSeq))).output⟩ ∧
        (AsksExactly s id h (seqDelta h sync.highestSeq) (syncGapList s id sync.highestSeq) ↔
          ∀ q < SEQ_MOD, 1 ≤ seqDelta h q → seqDelta h q ≤ seqDelta h sync.highestSeq →
            (get₂ s.outOfOrderBuffer id q).isSome → (get₂ s.receivedMessages id q).isSome)) ∧
    (∀ c seen, s.nackRetryTimers.get id = some c → s.seenSeq.get id = some seen →
      step C me (.nackRetryTimer id) s
          = nackMissing C me c id (retryList s id)
              { s with nackRetryTimers := s.nackRetryTimers.delete id } ∧
        AsksExactly s id h (min (seqDelta h seen - 1) DICT_WINDOW) (retryList s id) ∧
        (AsksExactly s id h (min (seqDelta h seen) DICT_WINDOW) (retryList s id) ↔
          (1 ≤ seqDelta h seen → seqDelta h seen ≤ DICT_WINDOW →
            isMissing s id (seen % SEQ_MOD) = false))) := by
  refine ⟨?_, ?_, ?_⟩
  · intro buf c seq htype hheader hgap hnear
    refine ⟨step_data_gap hopen htype hheader ?_ ?_, dataGapList_exact hbase buf seq hgap⟩
    · rw [dataAhead_of_baseline hbase]
      exact hgap
    · rw [dataAhead_of_baseline hbase]
      exact hnear
  · rintro buf sync htype hsync rfl hgap hnear
    refine ⟨step_sync_gap hopen htype hsync ?_ ?_, syncGapList_exact_iff hbase _⟩
    · rw [syncAhead_of_baseline hbase]
      exact hgap
    · rw [syncAhead_of_baseline hbase]
      exact hnear
  · intro c seen hpend hseen
    refine ⟨step_nackRetry hpend ?_ ?_, retryList_exact hbase hseen⟩
    · show s.highestReceivedSeq.get id ≠ none
      rw [hbase]
      exact Option.some_ne_none h
    · show s.seenSeq.get id ≠ none
      rw [hseen]
      exact Option.some_ne_none seen

/-- The third of three darts, of which the second is lost. -/
def thirdDart : Buffer := ((foundersFrames ["a", "b", "c"])[4]?).getD []

/-- It asks for the second. -/
theorem third_asks_for_second :
    AsksExactly (memberAfter ["a", "b", "c"] [0, 1, 2]) 1 1 1
      (dataGapList (memberAfter ["a", "b", "c"] [0, 1, 2]) thirdDart 1 3) := by
  have hbase : (memberAfter ["a", "b", "c"] [0, 1, 2]).highestReceivedSeq.get 1 = some 1 := by
    decide +kernel
  have hlists := nack_lists_iff sumCrypto (sumIdentity 2) _ (by decide +kernel) hbase
  exact (hlists.1 thirdDart 1 3 (by decide +kernel) (by decide +kernel) (by decide) (by decide)).2

/-- **A SYNC asks for a dart that is held.**  The third dart waits in the buffer for the second; the
SYNC that announces it leads to a NACK for both. -/
theorem sync_asks_for_held :
    (get₂ (memberAfter ["a", "b", "c"] [0, 1, 2, 4]).outOfOrderBuffer 1 3).isSome ∧
      ((framesOf (step sumCrypto (sumIdentity 2)
          (.message (((foundersFrames ["a", "b", "c"])[5]?).getD []))
          (memberAfter ["a", "b", "c"] [0, 1, 2, 4])).output).map fun frame =>
        ((stripControlFrame frame).bind Codec.parseNack).map NackDart.missingSeq) = [some [2, 3]] ∧
      syncGapList (memberAfter ["a", "b", "c"] [0, 1, 2, 4]) 1 3 = [2, 3] ∧
      ¬ AsksExactly (memberAfter ["a", "b", "c"] [0, 1, 2, 4]) 1 1 2
        (syncGapList (memberAfter ["a", "b", "c"] [0, 1, 2, 4]) 1 3) := by
  have hlist : syncGapList (memberAfter ["a", "b", "c"] [0, 1, 2, 4]) 1 3 = [2, 3] := by
    decide +kernel
  refine ⟨by decide +kernel, by decide +kernel, hlist, fun hexact => ?_⟩
  have hthree := ((hexact.2 3).mp (by rw [hlist]; decide)).2.2.2
  exact absurd hthree (by decide +kernel)

end DartProtocol
