import Mathlib.Data.Finset.Card
import Mathlib.Data.Finset.Image
import Mathlib.Tactic.Common

/-!
# In-order reassembly

A receiver of numbered items that may arrive in any order and any number of times.  It hands items
on strictly in order: an item below `next` was handed on before and is dropped, an item beyond
`next` is held, and the item `next` itself is handed on together with every held item that directly
follows.

* `release` — hand on held items while the next one is there, with a bound on the number of turns;
* `release_of_card_le` — a bound of at least the number of held items is no bound;
* `has_receive` — receiving adds exactly the received item to what the receiver has;
* `run_complete` — after any list of arrivals that covers `0, …, n - 1` and nothing else, `n` items
  were handed on and nothing is held.
-/

/-- Items below `next` were handed on; the items in `held` wait for a gap to close. -/
structure Reassembly where
  next : ℕ
  held : Finset ℕ

namespace Reassembly

/-- Nothing is held that could be handed on, or was. -/
def Settled (s : Reassembly) : Prop := ∀ j ∈ s.held, s.next < j

/-- The item arrived at some time. -/
def Has (s : Reassembly) (j : ℕ) : Prop := j < s.next ∨ j ∈ s.held

/-- Hand on held items while the next one is there. -/
def release : ℕ → Reassembly → Reassembly
  | 0, s => s
  | turns + 1, s =>
    if s.next ∈ s.held then release turns ⟨s.next + 1, s.held.erase s.next⟩ else s

/-- One arrival. -/
def receive (i : ℕ) (s : Reassembly) : Reassembly :=
  if i < s.next then s
  else if s.next < i then ⟨s.next, insert i s.held⟩
  else release s.held.card ⟨s.next + 1, s.held⟩

/-- A list of arrivals. -/
def run (is : List ℕ) (s : Reassembly) : Reassembly := is.foldl (fun s i => receive i s) s

/-! ### Releasing -/

variable {s : Reassembly}

theorem release_of_notMem (h : s.next ∉ s.held) (turns : ℕ) :
    release turns s = s := by
  cases turns with
  | zero => rfl
  | succ turns => rw [release, if_neg h]

theorem release_succ_of_mem (h : s.next ∈ s.held) (turns : ℕ) :
    release (turns + 1) s = release turns ⟨s.next + 1, s.held.erase s.next⟩ := by
  rw [release, if_pos h]

theorem card_erase_next (h : s.next ∈ s.held) :
    (s.held.erase s.next).card + 1 = s.held.card := Finset.card_erase_add_one h

/-- **Enough turns.**  More turns than held items change nothing. -/
theorem release_of_card_le {turns : ℕ} : ∀ {s : Reassembly}, s.held.card ≤ turns →
    release turns s = release s.held.card s := by
  induction turns with
  | zero =>
    intro s h
    have h0 : s.held.card = 0 := Nat.le_zero.mp h
    rw [h0]
  | succ turns ih =>
    intro s h
    by_cases hmem : s.next ∈ s.held
    · have hcard := card_erase_next hmem
      rw [release_succ_of_mem hmem, ← hcard, release_succ_of_mem hmem]
      have hle : (s.held.erase s.next).card ≤ turns := by omega
      exact ih (s := ⟨s.next + 1, s.held.erase s.next⟩) hle
    · rw [release_of_notMem hmem, release_of_notMem hmem]

/-- Releasing moves items from held to handed on; it neither adds nor loses one. -/
theorem has_release (turns : ℕ) :
    ∀ (s : Reassembly) (j : ℕ), (release turns s).Has j ↔ s.Has j := by
  induction turns with
  | zero =>
    intro s j
    exact Iff.rfl
  | succ turns ih =>
    intro s j
    by_cases hmem : s.next ∈ s.held
    · rw [release_succ_of_mem hmem, ih]
      show j < s.next + 1 ∨ j ∈ s.held.erase s.next ↔ j < s.next ∨ j ∈ s.held
      rw [Finset.mem_erase]
      constructor
      · rintro (h | ⟨_, h⟩)
        · rcases Nat.lt_succ_iff_lt_or_eq.mp h with h | rfl
          · exact Or.inl h
          · exact Or.inr hmem
        · exact Or.inr h
      · rintro (h | h)
        · exact Or.inl (Nat.lt_succ_of_lt h)
        · by_cases hj : j = s.next
          · exact Or.inl (by omega)
          · exact Or.inr ⟨hj, h⟩
    · rw [release_of_notMem hmem]

/-- With enough turns nothing that could be handed on stays held. -/
theorem settled_release {turns : ℕ} : ∀ {s : Reassembly}, s.held.card ≤ turns →
    (∀ j ∈ s.held, s.next ≤ j) → (release turns s).Settled := by
  induction turns with
  | zero =>
    intro s hcard _ j hj
    have hempty : s.held = ∅ := Finset.card_eq_zero.mp (Nat.le_zero.mp hcard)
    rw [release, hempty] at hj
    exact absurd hj (Finset.notMem_empty j)
  | succ turns ih =>
    intro s hcard hle
    by_cases hmem : s.next ∈ s.held
    · have hcard' := card_erase_next hmem
      have hle' : (s.held.erase s.next).card ≤ turns := by omega
      rw [release_succ_of_mem hmem]
      refine ih (s := ⟨s.next + 1, s.held.erase s.next⟩) hle' ?_
      intro j hj
      obtain ⟨hne, hj⟩ := Finset.mem_erase.mp hj
      have hj' := hle j hj
      show s.next + 1 ≤ j
      omega
    · rw [release_of_notMem hmem]
      intro j hj
      have hj' := hle j hj
      have hne : j ≠ s.next := fun h => hmem (h ▸ hj)
      omega

/-! ### Receiving -/

/-- **One arrival adds one item.** -/
theorem has_receive (i j : ℕ) :
    (receive i s).Has j ↔ j = i ∨ s.Has j := by
  unfold receive
  by_cases hlt : i < s.next
  · rw [if_pos hlt]
    constructor
    · exact Or.inr
    · rintro (rfl | h)
      · exact Or.inl hlt
      · exact h
  · rw [if_neg hlt]
    by_cases hgt : s.next < i
    · rw [if_pos hgt]
      show j < s.next ∨ j ∈ insert i s.held ↔ j = i ∨ (j < s.next ∨ j ∈ s.held)
      rw [Finset.mem_insert]
      tauto
    · have hi : i = s.next := by omega
      rw [if_neg hgt, has_release]
      show j < s.next + 1 ∨ j ∈ s.held ↔ j = i ∨ (j < s.next ∨ j ∈ s.held)
      rw [Nat.lt_succ_iff_lt_or_eq, hi]
      tauto

theorem settled_receive (hs : s.Settled) (i : ℕ) : (receive i s).Settled := by
  unfold receive
  by_cases hlt : i < s.next
  · rw [if_pos hlt]
    exact hs
  · rw [if_neg hlt]
    by_cases hgt : s.next < i
    · rw [if_pos hgt]
      intro j hj
      rcases Finset.mem_insert.mp hj with rfl | hj
      · exact hgt
      · exact hs j hj
    · rw [if_neg hgt]
      refine settled_release (s := ⟨s.next + 1, s.held⟩) (Nat.le_refl _) ?_
      intro j hj
      exact hs j hj

/-! ### Runs -/

theorem has_run (is : List ℕ) :
    ∀ (s : Reassembly) (j : ℕ), (run is s).Has j ↔ j ∈ is ∨ s.Has j := by
  induction is with
  | nil =>
    intro s j
    show s.Has j ↔ j ∈ [] ∨ s.Has j
    simp
  | cons i is ih =>
    intro s j
    show (run is (receive i s)).Has j ↔ j ∈ i :: is ∨ s.Has j
    rw [ih, has_receive, List.mem_cons]
    tauto

theorem settled_run (is : List ℕ) : ∀ {s : Reassembly}, s.Settled → (run is s).Settled := by
  induction is with
  | nil =>
    intro s hs
    exact hs
  | cons i is ih =>
    intro s hs
    exact ih (settled_receive hs i)

/-- A settled receiver that has exactly the items below `n` handed all of them on. -/
theorem complete_of_has (hs : s.Settled) {n : ℕ} (h : ∀ j, s.Has j ↔ j < n) :
    s.next = n ∧ s.held = ∅ := by
  have hge : n ≤ s.next := by
    by_contra hlt
    rcases (h s.next).mpr (by omega) with hself | hheld
    · exact absurd hself (Nat.lt_irrefl _)
    · exact absurd (hs s.next hheld) (Nat.lt_irrefl _)
  have hle : s.next ≤ n := by
    by_contra hlt
    have hn : n < n := (h n).mp (Or.inl (by omega))
    exact absurd hn (Nat.lt_irrefl _)
  refine ⟨by omega, Finset.eq_empty_of_forall_notMem ?_⟩
  intro j hj
  have hlow : s.next < j := hs j hj
  have hhigh : j < n := (h j).mp (Or.inr hj)
  omega

/-- **Exactly once, in order.**  Any arrivals that cover the items below `n`, in whatever order and
with whatever repetitions, leave nothing outstanding. -/
theorem run_complete {is : List ℕ} {k n : ℕ} (hk : k ≤ n) (h : ∀ j, j ∈ is ↔ j < n) :
    run is ⟨k, ∅⟩ = ⟨n, ∅⟩ := by
  have hsettled : (⟨k, ∅⟩ : Reassembly).Settled := fun j hj => absurd hj (Finset.notMem_empty j)
  obtain ⟨hnext, hheld⟩ := complete_of_has (n := n) (settled_run is hsettled) (by
    intro j
    rw [has_run, h j]
    show j < n ∨ (j < k ∨ j ∈ (∅ : Finset ℕ)) ↔ j < n
    simp only [Finset.notMem_empty, or_false]
    omega)
  cases hrun : run is ⟨k, ∅⟩ with
  | mk next held =>
    rw [hrun] at hnext hheld
    rw [show next = n from hnext, show held = ∅ from hheld]

end Reassembly
