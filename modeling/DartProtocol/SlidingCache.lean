import DartProtocol.InsertionMap
import DartProtocol.SerialNumber
import Mathlib.Data.Finset.Card
import Mathlib.Logic.Function.Basic

/-!
# A cache of the last entries on a circle of serial numbers

A `Window` keeps values under serial numbers modulo `M`, together with the highest number so far.
`store` enters a value, decides on the half circle whether its number is ahead of the highest one,
and forgets every number that lies more than `W` behind the newer of the two.

* `Window.highest_store`, `Window.get_store` — one operation;
* `Window.Tight` — what all operations keep: nothing lies more than `W` behind the highest number, so
  at most `W + 1` values are held (`Tight.size_le`);
* `Traced` — a table of windows that changes by `store` only, over a sequence of moments;
  `Traced.tight`, `Traced.origin` and `Traced.kept` say what it holds at every one of them.
-/

open SerialNumber

structure Window (α : Type) where
  entries : InsertionMap ℕ α := ∅
  highest : Option ℕ := none

namespace Window

variable {α : Type} (M W : ℕ)

/-- How far a number is ahead of the highest one.  The first number is one ahead of nothing. -/
def ahead (w : Window α) (seq : ℕ) : ℕ :=
  match w.highest with
  | none => 1
  | some h => delta M h seq

/-- The newer of a number and the highest one. -/
def reference (w : Window α) (seq : ℕ) : ℕ :=
  if M / 2 ≤ w.ahead M seq then w.highest.getD 0 else seq

def store (seq : ℕ) (a : α) (w : Window α) : Window α where
  entries := (w.entries.set seq a).retain fun k _ => decide (delta M k (w.reference M seq) ≤ W)
  highest := if 0 < w.ahead M seq ∧ w.ahead M seq < M / 2 then some seq else w.highest

/-- Every number is on the circle, and nothing lies more than `W` behind the highest one. -/
structure Tight (w : Window α) : Prop where
  highest_lt : ∀ h, w.highest = some h → h < M
  within : ∀ k a, w.entries.get k = some a → k < M ∧ ∃ h, w.highest = some h ∧ delta M k h ≤ W

variable {M W}

theorem tight_empty : Tight M W ({} : Window α) := by
  constructor
  · intro h hh
    cases hh
  · intro k a hk
    cases hk

/-- After an operation the highest number is the newer of the two. -/
theorem highest_store (hM : 1 < M / 2) {w : Window α} (hw : Tight M W w) {seq : ℕ} (hseq : seq < M)
    (a : α) : (w.store M W seq a).highest = some (w.reference M seq) := by
  rw [store, reference, ahead]
  cases hh : w.highest with
  | none =>
    simp only [Nat.zero_lt_one, true_and]
    rw [if_pos hM, if_neg (by omega)]
  | some h =>
    simp only [Option.getD_some]
    by_cases hold : M / 2 ≤ delta M h seq
    · rw [if_neg (by omega), if_pos hold]
    · rw [if_neg hold]
      by_cases hsame : delta M h seq = 0
      · rw [if_neg (by omega), delta_eq_zero (hw.highest_lt h hh) hseq hsame]
      · rw [if_pos ⟨by omega, by omega⟩]

theorem get_store (w : Window α) (seq : ℕ) (a : α) (k : ℕ) :
    (w.store M W seq a).entries.get k
      = if delta M k (w.reference M seq) ≤ W then if seq = k then some a else w.entries.get k
        else none := by
  rw [store, InsertionMap.get_retain, InsertionMap.get_set]
  by_cases hin : delta M k (w.reference M seq) ≤ W
  · rw [if_pos hin]
    cases (if seq = k then some a else w.entries.get k) with
    | none => rfl
    | some b => simp [hin]
  · rw [if_neg hin]
    cases (if seq = k then some a else w.entries.get k) with
    | none => rfl
    | some b => simp [hin]

theorem reference_lt {w : Window α} (hw : Tight M W w) {seq : ℕ} (hseq : seq < M) :
    w.reference M seq < M := by
  rw [reference]
  split
  · cases hh : w.highest with
    | none => exact Nat.zero_lt_of_lt hseq
    | some h => exact hw.highest_lt h hh
  · exact hseq

theorem Tight.store (hM : 1 < M / 2) {w : Window α} (hw : Tight M W w) {seq : ℕ} (hseq : seq < M)
    (a : α) : Tight M W (w.store M W seq a) := by
  have hhighest := highest_store hM hw hseq a
  constructor
  · intro h hh
    rw [hhighest] at hh
    cases hh
    exact reference_lt hw hseq
  · intro k b hk
    rw [get_store] at hk
    split at hk
    · rename_i hin
      refine ⟨?_, _, hhighest, hin⟩
      split at hk
      · rename_i hkey
        rw [← hkey]
        exact hseq
      · exact (hw.within k b hk).1
    · cases hk

/-- A tight window holds at most `W + 1` values: their distances to the highest number differ. -/
theorem Tight.size_le {w : Window α} (hw : Tight M W w) : w.entries.size ≤ W + 1 := by
  cases hh : w.highest with
  | none =>
    have hempty : w.entries.size = 0 := by
      rw [InsertionMap.size_eq_zero_iff]
      intro k
      cases hk : w.entries.get k with
      | none => rfl
      | some a =>
        obtain ⟨-, h, hsome, -⟩ := hw.within k a hk
        rw [hh] at hsome
        cases hsome
    omega
  | some h =>
    have hkeys : ∀ k ∈ w.entries.keys, k < M ∧ delta M k h ≤ W := by
      intro k hk
      obtain ⟨a, ha⟩ := InsertionMap.mem_keys_iff.mp hk
      obtain ⟨hlt, h', hsome, hle⟩ := hw.within k a ha
      rw [hh] at hsome
      cases hsome
      exact ⟨hlt, hle⟩
    have hcard : (w.entries.keys.toFinset.image fun k => delta M k h).card
        = w.entries.keys.toFinset.card := by
      refine Finset.card_image_of_injOn fun x hx y hy hxy => ?_
      rw [Finset.mem_coe, List.mem_toFinset] at hx hy
      exact delta_left_inj (hkeys x hx).1 (hkeys y hy).1 hxy
    have hsub : (w.entries.keys.toFinset.image fun k => delta M k h) ⊆ Finset.range (W + 1) := by
      intro d hd
      obtain ⟨k, hk, rfl⟩ := Finset.mem_image.mp hd
      rw [List.mem_toFinset] at hk
      exact Finset.mem_range.mpr (Nat.lt_succ_of_le (hkeys k hk).2)
    have hsize : w.entries.size = w.entries.keys.toFinset.card := by
      rw [List.toFinset_card_of_nodup (show w.entries.keys.Nodup from w.entries.nodup),
        InsertionMap.keys, List.length_map]
      rfl
    rw [hsize, ← hcard]
    exact (Finset.card_le_card hsub).trans (by rw [Finset.card_range])

end Window

/-! ### Tables of windows over time -/

/-- A table that changes from one moment to the next by entering the value that was accepted there, if
any was. -/
structure Traced {κ α : Type} [DecidableEq κ] (M W n : ℕ) (view : ℕ → κ → Window α)
    (accepted : ℕ → Option (κ × ℕ × α)) : Prop where
  start : view 0 = fun _ => {}
  next : ∀ i < n, view (i + 1) = match accepted i with
    | none => view i
    | some (key, seq, a) => Function.update (view i) key ((view i key).store M W seq a)
  bounded : ∀ i < n, ∀ key seq a, accepted i = some (key, seq, a) → seq < M

namespace Traced

variable {κ α : Type} [DecidableEq κ] {M W n : ℕ} {view : ℕ → κ → Window α}
  {accepted : ℕ → Option (κ × ℕ × α)} (h : Traced M W n view accepted) (hM : 1 < M / 2)

include h

/-- One moment, for one window. -/
theorem next_at {i : ℕ} (hi : i < n) (key : κ) :
    (∃ seq a, accepted i = some (key, seq, a) ∧
      view (i + 1) key = (view i key).store M W seq a) ∨
    (∀ seq a, accepted i ≠ some (key, seq, a)) ∧ view (i + 1) key = view i key := by
  rw [h.next i hi]
  cases hacc : accepted i with
  | none => exact .inr ⟨fun seq a hc => (by cases hc), rfl⟩
  | some p =>
    obtain ⟨key', seq, a⟩ := p
    by_cases hkey : key = key'
    · rw [hkey]
      exact .inl ⟨seq, a, rfl, Function.update_self ..⟩
    · refine .inr ⟨fun seq' a' hc => ?_, Function.update_of_ne hkey ..⟩
      have hpair := Option.some.inj hc
      exact hkey (congrArg Prod.fst hpair).symm

include hM

theorem tight {i : ℕ} (hi : i ≤ n) (key : κ) : Window.Tight M W (view i key) := by
  induction i with
  | zero =>
    rw [h.start]
    exact Window.tight_empty
  | succ i ih =>
    rcases h.next_at (by omega : i < n) key with ⟨seq, a, hacc, hnext⟩ | ⟨-, hnext⟩
    · rw [hnext]
      exact (ih (by omega)).store hM (h.bounded i (by omega) key seq a hacc) a
    · rw [hnext]
      exact ih (by omega)

omit hM in
/-- What a window holds was accepted for it. -/
theorem origin {i : ℕ} (hi : i ≤ n) {key : κ} {k : ℕ} {a : α}
    (hget : (view i key).entries.get k = some a) : ∃ j < i, accepted j = some (key, k, a) := by
  induction i with
  | zero =>
    rw [h.start] at hget
    cases hget
  | succ i ih =>
    rcases h.next_at (by omega : i < n) key with ⟨seq, b, hacc, hnext⟩ | ⟨-, hnext⟩
    · rw [hnext, Window.get_store] at hget
      split at hget
      · split at hget
        · rename_i hkey
          cases hget
          rw [hkey] at hacc
          exact ⟨i, Nat.lt_succ_self i, hacc⟩
        · obtain ⟨j, hj, hacc'⟩ := ih (by omega) hget
          exact ⟨j, Nat.lt_succ_of_lt hj, hacc'⟩
      · cases hget
    · rw [hnext] at hget
      obtain ⟨j, hj, hacc'⟩ := ih (by omega) hget
      exact ⟨j, Nat.lt_succ_of_lt hj, hacc'⟩

/-- What was accepted stays, as long as its number is not accepted again and is not left more than `W`
behind. -/
theorem kept {i : ℕ} {key : κ} {k : ℕ} {a : α} (hacc : accepted i = some (key, k, a)) :
    ∀ {j : ℕ}, i < j → j ≤ n →
      (∀ m, i < m → m < j → ∀ b, accepted m ≠ some (key, k, b)) →
      (∀ m, i < m → m ≤ j → ∀ top, (view m key).highest = some top → delta M k top ≤ W) →
      (view j key).entries.get k = some a := by
  intro j hij
  induction j, hij using Nat.le_induction with
  | base =>
    intro hj _ hclose
    have hbound := h.bounded i (by omega) key k a hacc
    rcases h.next_at (by omega : i < n) key with ⟨seq, b, hacc', hnext⟩ | ⟨hnone, -⟩
    · rw [hacc] at hacc'
      cases hacc'
      have htop := Window.highest_store hM (h.tight hM (by omega : i ≤ n) key) hbound a
      rw [← hnext] at htop
      have hin := hclose (i + 1) (Nat.lt_succ_self i) (le_refl _) _ htop
      rw [hnext, Window.get_store, if_pos hin, if_pos rfl]
    · exact absurd hacc (hnone k a)
  | succ j hij ih =>
    intro hj hother hclose
    have hprev := ih (by omega) (fun m him hmj => hother m him (by omega))
      (fun m him hmj => hclose m him (by omega))
    rcases h.next_at (by omega : j < n) key with ⟨seq, b, hacc', hnext⟩ | ⟨-, hnext⟩
    · have hseq : seq ≠ k := by
        rintro rfl
        exact hother j (by omega) (Nat.lt_succ_self j) b hacc'
      have htop := Window.highest_store hM (h.tight hM (by omega : j ≤ n) key)
        (h.bounded j (by omega) key seq b hacc') b
      rw [← hnext] at htop
      have hin := hclose (j + 1) (by omega) (le_refl _) _ htop
      rw [hnext, Window.get_store, if_pos hin, if_neg hseq]
      exact hprev
    · rw [hnext]
      exact hprev

end Traced
