import DartProtocol.GoClient
import DartProtocol.RustClient
import DartProtocol.SumCrypto

/-!
# The ratchet and the dictionary in three languages

Two computations have to come out alike in `client.ts`, `go/main.go` and `rust/src/bin/client.rs`, or
their streams part: the message key of an index, and the dictionary of a number.

* `ratchet_composes` — skipping messages on the way does not change a key, and the 32-bit indices of Go
  and Rust compute what the numbers of TypeScript compute;
* `windowPayloads` — the dictionary as a fixed enumeration of the window;
* `dictionary_is_window` — each client computes it, whatever the order of its maps and its sort.
-/

namespace DartProtocol

open InsertionMap

variable {C : Crypto}

/-! ### The ratchet -/

theorem chainSteps_eq_iterate (n : ℕ) (key : Buffer) :
    chainSteps C n key = (chainNextKey C)^[n] key := by
  induction n generalizing key with
  | zero => rfl
  | succ n ih =>
    rw [chainSteps, ih]
    rfl

/-- A state that is advanced lies on the same chain. -/
theorem advanceChain_advance {st : ChainState} {t u : ℕ} (ht : st.index ≤ t) (hu : t < u) :
    advanceChain C (advanceChain C st t).2 u = advanceChain C st u := by
  have hle : t + 1 ≤ u := hu
  have hkey : ∀ n, chainSteps C n (chainSteps C (t - st.index + 1) st.key)
      = chainSteps C (t - st.index + 1 + n) st.key := fun n => (chainSteps_add C _ n st.key).symm
  rw [advanceChain_of_le C ht, advanceChain_of_le C hle, advanceChain_of_le C (by omega), hkey, hkey,
    show t - st.index + 1 + (u - (t + 1)) = u - st.index by omega,
    show t - st.index + 1 + (u - (t + 1) + 1) = u - st.index + 1 by omega]

/-- Any messages may be taken on the way, the others are skipped. -/
theorem advanceChain_foldl (ts : List ℕ) :
    ∀ {st : ChainState} {t : ℕ}, ts.Pairwise (· < ·) → (∀ u ∈ ts, st.index ≤ u ∧ u < t) →
      advanceChain C (ts.foldl (fun st u => (advanceChain C st u).2) st) t = advanceChain C st t := by
  induction ts with
  | nil => exact fun _ _ => rfl
  | cons u ts ih =>
    intro st t hlt hbounds
    obtain ⟨hfirst, hrest⟩ := List.pairwise_cons.mp hlt
    obtain ⟨hu, hut⟩ := hbounds u List.mem_cons_self
    rw [List.foldl_cons, ih hrest, advanceChain_advance hu hut]
    intro v hv
    rw [advanceChain_of_le C hu]
    exact ⟨hfirst v hv, (hbounds v (List.mem_cons_of_mem _ hv)).2⟩

/-- **Ratchet composition.**  On all indices below the last one, advancing a chain in two steps is
advancing it in one; key and state are those of the position on the chain; whatever is taken on the way,
a later key is the same; and the Go and the Rust function, with checked or wrapping arithmetic, return
what the TypeScript one returns. -/
theorem ratchet_composes (C : Crypto) (L : RustClient.Setup) (st : ChainState) :
    (∀ t₁ t₂, st.index ≤ t₁ → t₁ < t₂ → t₂ < 2 ^ 32 - 1 →
      advanceChain C (advanceChain C st t₁).2 t₂ = advanceChain C st t₂) ∧
    ∀ t, st.index ≤ t → t < 2 ^ 32 - 1 →
      advanceChain C st t = (chainMessageKey C ((chainNextKey C)^[t - st.index] st.key) t,
        ⟨(chainNextKey C)^[t - st.index + 1] st.key, t + 1⟩) ∧
      (∀ ts : List ℕ, ts.Pairwise (· < ·) → (∀ u ∈ ts, st.index ≤ u ∧ u < t) →
        advanceChain C (ts.foldl (fun st u => (advanceChain C st u).2) st) t = advanceChain C st t) ∧
      GoClient.advanceChain C st t = advanceChain C st t ∧
      RustClient.advanceChain C L st t = some (advanceChain C st t) := by
  refine ⟨fun t₁ t₂ h₁ h₂ _ => advanceChain_advance h₁ h₂, fun t ht hlt => ⟨?_, ?_, ?_, ?_⟩⟩
  · rw [advanceChain_of_le C ht, chainSteps_eq_iterate, chainSteps_eq_iterate]
  · exact fun ts hts hbounds => advanceChain_foldl ts hts hbounds
  · have hsmall : (st.index + (t - st.index) + 1) % 2 ^ 32 = st.index + (t - st.index) + 1 :=
      Nat.mod_eq_of_lt (by omega)
    simp only [GoClient.advanceChain, hsmall, advanceChain]
  · have hnext : RustClient.addIn L 32 (st.index + (t - st.index)) 1
        = some (st.index + (t - st.index) + 1) := if_pos (by omega)
    simp only [RustClient.advanceChain, hnext, Option.bind_eq_bind, Option.bind_some, advanceChain]

/-- The last two indices of the range, from the first one. -/
theorem ratchet_last_indices :
    advanceChain sumCrypto (advanceChain sumCrypto ⟨[1], 0⟩ 4294967293).2 4294967294
      = advanceChain sumCrypto ⟨[1], 0⟩ 4294967294 := by
  have h := (ratchet_composes sumCrypto sumSetup ⟨[1], 0⟩).1 4294967293 4294967294
  exact h (by decide) (by decide) (by decide)

/-! ### The dictionary -/

/-- A history: under each key the number its dart carries, and its payload. -/
abbrev Stored := ℕ → Option (ℕ × Buffer)

/-- Every dart is stored under the 24-bit number it carries. -/
def OwnNumbers (stored : Stored) : Prop := ∀ k v, stored k = some v → v.1 = k ∧ k < SEQ_MOD

/-- The payloads stored at `maxSeq - 200`, …, `maxSeq - 1` on the circle, where there is one. -/
def windowPayloads (stored : Stored) (maxSeq : ℕ) : Buffer :=
  ((List.range 200).map fun i => 200 - i).flatMap fun d =>
    ((stored ((maxSeq + (SEQ_MOD - d)) % SEQ_MOD)).map Prod.snd).getD []

theorem windowPayloads_eq (stored : Stored) (maxSeq : ℕ) :
    windowPayloads stored maxSeq
      = (windowSeqs maxSeq).flatMap fun k => ((stored k).map Prod.snd).getD [] := by
  rw [windowPayloads, windowSeqs, List.flatMap_map, List.flatMap_map]
  rfl

/-- The history of a sender in each client: the darts sent, or those received. -/
def Client.storedOf (me : Identity) (s : Client) (senderId : ℕ) : Stored := fun k =>
  (if senderId = me.senderId then s.sentMessages.get k else get₂ s.receivedMessages senderId k).map
    fun d => (d.seq, utf8 d.payload)

def GoClient.NativeDartClient.storedOf (me : Identity) (s : GoClient.NativeDartClient)
    (senderId : ℕ) : Stored := fun k =>
  if senderId = me.senderId then (s.sentMessages.get k).map fun d => (d.seq, utf8 d.payload)
  else (get₂ s.receivedMessages senderId k).map fun d => (d.seq, d.payload)

def RustClient.ClientState.storedOf (me : Identity) (s : RustClient.ClientState) (senderId : ℕ) :
    Stored := fun k =>
  (if senderId = me.senderId then s.sentMessages.get k else get₂ s.receivedMessages senderId k).map
    fun d => (d.seq, utf8 d.payload)

section Dictionary

variable {maxSeq : ℕ} (hs : maxSeq < SEQ_MOD) {δ : Type}

include hs

/-- Darts chosen and ordered by the number they carry. -/
theorem joined_eq_windowPayloads (m : NumMap δ) (number : δ → ℕ) (bytes : δ → Buffer)
    (hm : OwnNumbers fun k => (m.get k).map fun d => (number d, bytes d)) :
    Buffer.concat (((m.values.filter fun d => decide (1 ≤ seqDelta (number d) maxSeq ∧
        seqDelta (number d) maxSeq ≤ DICT_WINDOW)).insertionSort
      fun a b => seqDelta (number b) maxSeq ≤ seqDelta (number a) maxSeq).map bytes)
      = windowPayloads (fun k => (m.get k).map fun d => (number d, bytes d)) maxSeq := by
  have hnumbers : ∀ k d, m.get k = some d → number d = k ∧ k < SEQ_MOD := fun k d hd =>
    hm k (number d, bytes d) (congrArg (Option.map _) hd)
  rw [sorted_eq_window number m.get hnumbers (fun _ => mem_values_iff)
    (values_nodup hnumbers) hs (List.perm_insertionSort _ _)
    (pairwise_sortByDistance _ _), concat_filterMap, windowPayloads_eq]
  exact List.flatMap_congr fun k _ => by rw [Option.map_map]; rfl

/-- Darts listed in any order, chosen by the key they are stored under and ordered by the number they
carry, with any sort. -/
theorem sorted_eq_windowPayloads {stored : Stored} (hm : OwnNumbers stored)
    {darts sorted : List (ℕ × ℕ × Buffer)} (hnodup : darts.Nodup)
    (hdarts : ∀ e, e ∈ darts ↔ stored e.1 = some e.2)
    (hperm : sorted.Perm (darts.filter fun e =>
      decide (1 ≤ seqDelta e.1 maxSeq ∧ seqDelta e.1 maxSeq ≤ DICT_WINDOW)))
    (hsorted : sorted.Pairwise fun a b => seqDelta b.2.1 maxSeq ≤ seqDelta a.2.1 maxSeq) :
    Buffer.concat (sorted.map fun e => e.2.2) = windowPayloads stored maxSeq := by
  have hown : ∀ e ∈ darts, e.2.1 = e.1 := fun e he => (hm e.1 e.2 ((hdarts e).mp he)).1
  have hin : ∀ e ∈ sorted, e ∈ darts := fun e he => List.mem_of_mem_filter (hperm.mem_iff.mp he)
  have hsorted' : sorted.Pairwise fun a b => seqDelta b.1 maxSeq ≤ seqDelta a.1 maxSeq := by
    refine List.Pairwise.imp_of_mem (fun {a b} ha hb hab => ?_) hsorted
    rwa [hown a (hin a ha), hown b (hin b hb)] at hab
  rw [sorted_eq_window Prod.fst (fun k => (stored k).map fun v => (k, v)) ?_ ?_ hnodup hs
    hperm hsorted', concat_filterMap, windowPayloads_eq]
  · exact List.flatMap_congr fun k _ => by rw [Option.map_map]; rfl
  · intro k e he
    obtain ⟨v, hv, rfl⟩ := Option.map_eq_some_iff.mp he
    exact ⟨rfl, (hm k v hv).2⟩
  · rintro ⟨k, v⟩
    rw [hdarts]
    constructor
    · exact fun h => ⟨k, by rw [h]; rfl⟩
    · rintro ⟨k', hk'⟩
      obtain ⟨v', hv', heq⟩ := Option.map_eq_some_iff.mp hk'
      cases heq
      exact hv'

/-- The join of the Go client, over the entries of a map. -/
theorem goJoinWindow_eq (m : NumMap δ) (value : δ → ℕ × Buffer)
    (hm : OwnNumbers fun k => (m.get k).map value) :
    GoClient.joinWindow maxSeq (m.entries.map fun e => (e.1, value e.2))
      = windowPayloads (fun k => (m.get k).map value) maxSeq := by
  refine sorted_eq_windowPayloads hs hm ?_ ?_ (List.perm_insertionSort _ _)
    (pairwise_sortByDistance (fun e : ℕ × ℕ × Buffer => e.2.1) _)
  · refine List.Nodup.of_map Prod.fst ?_
    rw [List.map_map]
    exact m.nodup
  · rintro ⟨k, v⟩
    rw [List.mem_map, Option.map_eq_some_iff]
    constructor
    · rintro ⟨e, he, heq⟩
      cases heq
      exact ⟨e.2, mem_entries_iff_get.mp he, rfl⟩
    · rintro ⟨d, hd, rfl⟩
      exact ⟨(k, d), mem_entries_iff_get.mpr hd, rfl⟩

end Dictionary

/-- **The dictionary is the window.**  Over histories whose darts are stored under the 24-bit numbers
they carry, all three clients join the payloads of the 200 numbers before `maxSeq`, oldest first and
across the wrap; so does every list of the stored darts of the window that is ordered by distance, however
it was gone through and sorted.  Histories that agree on the window therefore give one dictionary. -/
theorem dictionary_is_window (me : Identity) (senderId : ℕ) {maxSeq : ℕ} (hs : maxSeq < SEQ_MOD)
    (s : Client) (g : GoClient.NativeDartClient) (r : RustClient.ClientState)
    (hts : OwnNumbers (s.storedOf me senderId)) (hgo : OwnNumbers (g.storedOf me senderId))
    (hrust : OwnNumbers (r.storedOf me senderId)) :
    getDictionary me s senderId maxSeq = windowPayloads (s.storedOf me senderId) maxSeq ∧
      GoClient.getDictionary me g senderId maxSeq = windowPayloads (g.storedOf me senderId) maxSeq ∧
      RustClient.getDictionary me r senderId maxSeq = windowPayloads (r.storedOf me senderId) maxSeq ∧
      (∀ stored : Stored, OwnNumbers stored → ∀ darts sorted : List (ℕ × ℕ × Buffer), darts.Nodup →
        (∀ e, e ∈ darts ↔ stored e.1 = some e.2) →
        sorted.Perm (darts.filter fun e =>
          decide (1 ≤ seqDelta e.1 maxSeq ∧ seqDelta e.1 maxSeq ≤ DICT_WINDOW)) →
        sorted.Pairwise (fun a b => seqDelta b.2.1 maxSeq ≤ seqDelta a.2.1 maxSeq) →
        Buffer.concat (sorted.map fun e => e.2.2) = windowPayloads stored maxSeq) ∧
      ∀ stored stored' : Stored, (∀ k ∈ windowSeqs maxSeq, stored k = stored' k) →
        windowPayloads stored maxSeq = windowPayloads stored' maxSeq := by
  have hempty : windowPayloads (fun _ => none) maxSeq = [] := by
    rw [windowPayloads_eq]
    exact List.flatMap_eq_nil_iff.mpr fun _ _ => rfl
  refine ⟨?_, ?_, ?_, ?_, ?_⟩
  · unfold getDictionary historyOf Client.storedOf at *
    by_cases hme : senderId = me.senderId
    · simp only [if_pos hme] at hts ⊢
      exact joined_eq_windowPayloads hs s.sentMessages DataDart.seq (fun d => utf8 d.payload) hts
    · simp only [if_neg hme, get₂] at hts ⊢
      cases hget : s.receivedMessages.get senderId with
      | none => exact hempty.symm
      | some m =>
        simp only [hget, Option.bind_some] at hts ⊢
        exact joined_eq_windowPayloads hs m DataDart.seq (fun d => utf8 d.payload) hts
  · unfold GoClient.getDictionary GoClient.NativeDartClient.storedOf at *
    by_cases hme : senderId = me.senderId
    · simp only [if_pos hme] at hgo ⊢
      exact goJoinWindow_eq hs g.sentMessages (fun d => (d.seq, utf8 d.payload)) hgo
    · simp only [if_neg hme, get₂] at hgo ⊢
      cases hget : g.receivedMessages.get senderId with
      | none => exact hempty.symm
      | some m =>
        simp only [hget, Option.bind_some] at hgo ⊢
        exact goJoinWindow_eq hs m (fun d => (d.seq, d.payload)) hgo
  · unfold RustClient.getDictionary RustClient.ClientState.storedOf at *
    by_cases hme : senderId = me.senderId
    · simp only [if_pos hme] at hrust ⊢
      exact joined_eq_windowPayloads hs r.sentMessages RustCodec.DataDart.seq
        (fun d => utf8 d.payload) hrust
    · simp only [if_neg hme, get₂] at hrust ⊢
      cases hget : r.receivedMessages.get senderId with
      | none => exact hempty.symm
      | some m =>
        simp only [hget, Option.bind_some] at hrust ⊢
        exact joined_eq_windowPayloads hs m RustCodec.DataDart.seq (fun d => utf8 d.payload) hrust
  · exact fun stored hm darts sorted hnodup hdarts hperm hsorted =>
      sorted_eq_windowPayloads hs hm hnodup hdarts hperm hsorted
  · intro stored stored' h
    rw [windowPayloads_eq, windowPayloads_eq]
    exact List.flatMap_congr fun k hk => by rw [h k hk]

/-- Two darts around the wrap, stored in the wrong order. -/
def wrapHistory : NumMap DataDart :=
  (InsertionMap.set ∅ 0 ⟨TYPE_DATA, 1, 2, 0, "b"⟩).set 16777215 ⟨TYPE_DATA, 1, 2, 16777215, "a"⟩

theorem wrap_dictionary :
    getDictionary (sumIdentity 2) { sentMessages := wrapHistory } 2 1 = utf8 "ab" := by
  have hb : DataDart.seq ⟨TYPE_DATA, 1, 2, 0, "b"⟩ < SEQ_MOD := by decide
  have ha : DataDart.seq ⟨TYPE_DATA, 1, 2, 16777215, "a"⟩ < SEQ_MOD := by decide
  have hkeyed : Keyed wrapHistory := (Keyed.empty.set hb).set ha
  have hts : OwnNumbers (({ sentMessages := wrapHistory } : Client).storedOf (sumIdentity 2) 2) := by
    intro k v hv
    obtain ⟨d, hd, rfl⟩ := Option.map_eq_some_iff.mp hv
    exact hkeyed k d hd
  rw [(dictionary_is_window (sumIdentity 2) 2 (by decide) { sentMessages := wrapHistory } {} {} hts
    (by rintro k v ⟨⟩) (by rintro k v ⟨⟩)).1]
  decide +kernel

end DartProtocol
