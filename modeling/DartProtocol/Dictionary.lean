import Mathlib.Data.List.Sort
import DartProtocol.InsertionMap
import DartProtocol.Core

/-!
# The compression dictionary

`getDictionary` of `src/client.ts` filters a history to the darts at distance 1 to `DICT_WINDOW`
behind the dart to be coded, sorts them oldest first, and joins their payloads.  The history is a
map, so the iteration order is an accident of arrival; what the two ends of a stream have to agree on
is the *contents* of the window.

* `dictionaryOf` — the computation of the source on the list of stored darts;
* `windowSeqs` — the sequence numbers of the window, oldest first, across a wrap;
* `dictionaryOf_eq_windowBytes` — on a history whose darts sit under their own sequence number the
  dictionary is the concatenation over the window, whatever the iteration order;
* `dictionaryOf_congr` — two histories that agree on the window give the same dictionary.
-/

namespace DartProtocol

open InsertionMap

/-- Is a dart in the window of `maxSeq`? -/
def inWindow (maxSeq : ℕ) (dart : DataDart) : Bool :=
  decide (1 ≤ seqDelta dart.seq maxSeq ∧ seqDelta dart.seq maxSeq ≤ DICT_WINDOW)

/-- The darts of the window of `maxSeq`, oldest first (largest modular distance first). -/
def windowDarts (maxSeq : ℕ) (darts : List DataDart) : List DataDart :=
  (darts.filter (inWindow maxSeq)).insertionSort
    fun a b => seqDelta b.seq maxSeq ≤ seqDelta a.seq maxSeq

/-- The dictionary for `maxSeq` over the stored darts. -/
def dictionaryOf (maxSeq : ℕ) (darts : List DataDart) : Buffer :=
  Buffer.concat ((windowDarts maxSeq darts).map fun dart => utf8 dart.payload)

/-! ### The window as a list of sequence numbers -/

/-- The sequence number `d` steps before `maxSeq`. -/
def seqBack (maxSeq d : ℕ) : ℕ := (maxSeq + (SEQ_MOD - d)) % SEQ_MOD

/-- The `DICT_WINDOW` sequence numbers before `maxSeq`, oldest first. -/
def windowSeqs (maxSeq : ℕ) : List ℕ :=
  (List.range DICT_WINDOW).map fun i => seqBack maxSeq (DICT_WINDOW - i)

theorem seqBack_lt (maxSeq d : ℕ) : seqBack maxSeq d < SEQ_MOD := Nat.mod_lt _ (by decide)

variable {maxSeq : ℕ} {m : InsertionMap ℕ DataDart}

theorem seqDelta_seqBack {d : ℕ} (hm : maxSeq < SEQ_MOD) (hd : d < SEQ_MOD) :
    seqDelta (seqBack maxSeq d) maxSeq = d := by
  rw [seqDelta_eq (seqBack_lt maxSeq d) hm]
  unfold seqBack
  unfold SEQ_MOD at *
  split <;> omega

theorem seqBack_seqDelta {k : ℕ} (hk : k < SEQ_MOD) (hm : maxSeq < SEQ_MOD) :
    seqBack maxSeq (seqDelta k maxSeq) = k := by
  rw [seqDelta_eq hk hm]
  unfold seqBack
  unfold SEQ_MOD at *
  split <;> omega

theorem mem_windowSeqs {k : ℕ} (hm : maxSeq < SEQ_MOD) :
    k ∈ windowSeqs maxSeq ↔
      k < SEQ_MOD ∧ 1 ≤ seqDelta k maxSeq ∧ seqDelta k maxSeq ≤ DICT_WINDOW := by
  have hW : DICT_WINDOW < SEQ_MOD := by decide
  rw [windowSeqs, List.mem_map]
  constructor
  · rintro ⟨i, hi, rfl⟩
    have hi' : i < DICT_WINDOW := List.mem_range.mp hi
    rw [seqDelta_seqBack hm (by omega)]
    exact ⟨seqBack_lt _ _, by omega, by omega⟩
  · rintro ⟨hk, h1, h2⟩
    refine ⟨DICT_WINDOW - seqDelta k maxSeq, List.mem_range.mpr (by omega), ?_⟩
    rw [Nat.sub_sub_self h2]
    exact seqBack_seqDelta hk hm

theorem windowSeqs_pairwise (hm : maxSeq < SEQ_MOD) :
    (windowSeqs maxSeq).Pairwise fun k l => seqDelta l maxSeq < seqDelta k maxSeq := by
  have hW : DICT_WINDOW < SEQ_MOD := by decide
  rw [windowSeqs, List.pairwise_map]
  refine List.Pairwise.imp_of_mem ?_ (List.pairwise_lt_range (n := DICT_WINDOW))
  intro i j hi hj hij
  have hi' : i < DICT_WINDOW := List.mem_range.mp hi
  have hj' : j < DICT_WINDOW := List.mem_range.mp hj
  rw [seqDelta_seqBack hm (by omega), seqDelta_seqBack hm (by omega)]
  omega

/-! ### The dictionary depends on the contents of the window only -/

/-- A history whose darts sit under their own 24-bit sequence number. -/
def Keyed (m : InsertionMap ℕ DataDart) : Prop :=
  ∀ k dart, m.get k = some dart → dart.seq = k ∧ k < SEQ_MOD

theorem Keyed.empty : Keyed ∅ := by
  intro k dart h
  rw [get_empty] at h
  cases h

theorem Keyed.set (hm : Keyed m) {dart : DataDart}
    (h : dart.seq < SEQ_MOD) : Keyed (m.set dart.seq dart) := by
  intro k d hk
  rw [get_set] at hk
  split at hk
  · cases hk
    subst k
    exact ⟨rfl, h⟩
  · exact hm k d hk

theorem Keyed.retain (hm : Keyed m) (p : ℕ → DataDart → Bool) :
    Keyed (m.retain p) := by
  intro k d hk
  exact hm k d (get_retain_eq_some.mp hk).1

/-- The bytes a history contributes at one sequence number. -/
def bytesAt (m : InsertionMap ℕ DataDart) (k : ℕ) : Buffer :=
  match m.get k with
  | none => []
  | some dart => utf8 dart.payload

/-- The payloads of the window, oldest first, absent darts contributing nothing. -/
def windowBytes (m : InsertionMap ℕ DataDart) (maxSeq : ℕ) : Buffer :=
  (windowSeqs maxSeq).flatMap (bytesAt m)

/-- Darts that carry the number they are stored under are stored once. -/
theorem values_nodup {δ : Type} {m : InsertionMap ℕ δ} {number : δ → ℕ}
    (hm : ∀ k dart, m.get k = some dart → number dart = k ∧ k < SEQ_MOD) : m.values.Nodup := by
  have hnumbers : m.values.map number = m.entries.map Prod.fst := by
    rw [InsertionMap.values, List.map_map]
    exact List.map_congr_left fun e he => (hm e.1 e.2 (mem_entries_iff_get.mp he)).1
  exact List.Nodup.of_map number (hnumbers ▸ m.nodup)

/-- **The sorted window.**  Take darts that are stored under their own numbers, in any order, those of
the window among them, and any list of these by decreasing distance: it goes through the window, oldest
first.  Neither the order of the darts nor the sort matters. -/
theorem sorted_eq_window {δ : Type} (number : δ → ℕ) (stored : ℕ → Option δ) {darts sorted : List δ}
    (hstored : ∀ k dart, stored k = some dart → number dart = k ∧ k < SEQ_MOD)
    (hdarts : ∀ dart, dart ∈ darts ↔ ∃ k, stored k = some dart) (hnodup : darts.Nodup)
    (hs : maxSeq < SEQ_MOD)
    (hperm : sorted.Perm (darts.filter fun dart =>
      decide (1 ≤ seqDelta (number dart) maxSeq ∧ seqDelta (number dart) maxSeq ≤ DICT_WINDOW)))
    (hsorted : sorted.Pairwise fun a b => seqDelta (number b) maxSeq ≤ seqDelta (number a) maxSeq) :
    sorted = (windowSeqs maxSeq).filterMap stored := by
  have hmem : ∀ dart, dart ∈ sorted ↔ dart ∈ (windowSeqs maxSeq).filterMap stored := by
    intro dart
    rw [hperm.mem_iff, List.mem_filter, hdarts, List.mem_filterMap, decide_eq_true_eq]
    constructor
    · rintro ⟨⟨k, hk⟩, hw⟩
      obtain ⟨hseq, hlt⟩ := hstored k dart hk
      rw [hseq] at hw
      exact ⟨k, (mem_windowSeqs hs).mpr ⟨hlt, hw.1, hw.2⟩, hk⟩
    · rintro ⟨k, hk, hget⟩
      rw [(hstored k dart hget).1]
      exact ⟨⟨k, hget⟩, ((mem_windowSeqs hs).mp hk).2⟩
  -- both lists are ordered by decreasing distance
  have hstrict : ((windowSeqs maxSeq).filterMap stored).Pairwise
      fun a b => seqDelta (number b) maxSeq < seqDelta (number a) maxSeq := by
    rw [List.pairwise_filterMap]
    refine List.Pairwise.imp ?_ (windowSeqs_pairwise hs)
    intro k l hkl a ha b hb
    rw [(hstored k a ha).1, (hstored l b hb).1]
    exact hkl
  have hnd : sorted.Nodup := hperm.nodup_iff.mpr (hnodup.filter _)
  have hnd' : ((windowSeqs maxSeq).filterMap stored).Nodup := by
    refine List.Pairwise.imp ?_ hstrict
    rintro a b hab rfl
    exact Nat.lt_irrefl _ hab
  -- two stored darts at the same distance have the same number, hence are the same dart
  refine List.Perm.eq_of_pairwise ?_ hsorted (hstrict.imp fun h => Nat.le_of_lt h)
    ((List.perm_ext_iff_of_nodup hnd hnd').mpr hmem)
  intro a b ha hb hab hba
  obtain ⟨k, -, hk⟩ := List.mem_filterMap.mp ((hmem a).mp ha)
  obtain ⟨l, -, hl⟩ := List.mem_filterMap.mp hb
  obtain ⟨hak, hklt⟩ := hstored k a hk
  obtain ⟨hbl, hllt⟩ := hstored l b hl
  have hdist : seqDelta k maxSeq = seqDelta l maxSeq := by
    rw [← hak, ← hbl]
    exact Nat.le_antisymm hba hab
  have hkl : k = l := by
    rw [← seqBack_seqDelta hklt hs, hdist, seqBack_seqDelta hllt hs]
  rw [hkl, hl] at hk
  exact (Option.some.inj hk).symm

theorem pairwise_sortByDistance {δ : Type} (number : δ → ℕ) (darts : List δ) :
    (darts.insertionSort fun a b => seqDelta (number b) maxSeq ≤ seqDelta (number a) maxSeq).Pairwise
      fun a b => seqDelta (number b) maxSeq ≤ seqDelta (number a) maxSeq := by
  have : Std.Total fun a b : δ => seqDelta (number b) maxSeq ≤ seqDelta (number a) maxSeq :=
    ⟨fun a b => Nat.le_total _ _⟩
  have : IsTrans δ fun a b => seqDelta (number b) maxSeq ≤ seqDelta (number a) maxSeq :=
    ⟨fun a b c hab hbc => Nat.le_trans hbc hab⟩
  exact List.pairwise_insertionSort _ _

theorem windowDarts_eq (hm : Keyed m) (hs : maxSeq < SEQ_MOD) :
    windowDarts maxSeq m.values = (windowSeqs maxSeq).filterMap m.get :=
  sorted_eq_window DataDart.seq m.get hm (fun _ => mem_values_iff)
    (values_nodup hm) hs (List.perm_insertionSort _ _) (pairwise_sortByDistance _ _)

/-- Joining the payloads of what is stored. -/
theorem concat_filterMap {δ : Type} (stored : ℕ → Option δ) (bytes : δ → Buffer) (ks : List ℕ) :
    Buffer.concat ((ks.filterMap stored).map bytes)
      = ks.flatMap fun k => ((stored k).map bytes).getD [] := by
  rw [Buffer.concat]
  induction ks with
  | nil => rfl
  | cons k ks ih =>
    rw [List.flatMap_cons, ← ih]
    cases hk : stored k with
    | none => rw [List.filterMap_cons_none hk]; rfl
    | some dart => rw [List.filterMap_cons_some hk]; rfl

/-- **Dictionary specification.** -/
theorem dictionaryOf_eq_windowBytes (hm : Keyed m)
    (hs : maxSeq < SEQ_MOD) : dictionaryOf maxSeq m.values = windowBytes m maxSeq := by
  rw [dictionaryOf, windowDarts_eq hm hs, windowBytes, concat_filterMap]
  refine List.flatMap_congr fun k _ => ?_
  rw [bytesAt]
  cases m.get k <;> rfl

theorem windowBytes_congr {m' : InsertionMap ℕ DataDart}
    (h : ∀ k ∈ windowSeqs maxSeq, bytesAt m k = bytesAt m' k) :
    windowBytes m maxSeq = windowBytes m' maxSeq := by
  rw [windowBytes, windowBytes, List.flatMap_congr h]

theorem dictionaryOf_congr {m' : InsertionMap ℕ DataDart} (hm : Keyed m) (hm' : Keyed m')
    (hs : maxSeq < SEQ_MOD) (h : ∀ k ∈ windowSeqs maxSeq, bytesAt m k = bytesAt m' k) :
    dictionaryOf maxSeq m.values = dictionaryOf maxSeq m'.values := by
  rw [dictionaryOf_eq_windowBytes hm hs, dictionaryOf_eq_windowBytes hm' hs, windowBytes_congr h]

end DartProtocol
