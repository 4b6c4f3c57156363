import DartProtocol.InsertionMap

/-!
# Versions that are kept for a while

A store keeps values under version numbers, one of which is current.  Entering a version makes it the
current one; forgetting drops the versions that a test calls old.  `Recent lag` is what such a store
is meant to be: the current version is there, and nothing that is more than `lag` behind it.

* `recent_enter_iff` — entering alone keeps the store recent exactly when nothing kept is too far
  behind;
* `recent_forget_iff`, `recent_enter_forget_iff` — forgetting makes the store recent exactly when the
  test spares the current version, provided it calls everything old that is too far behind.
-/

/-- A current version and the values kept, by version. -/
structure Versions (ν : Type) where
  current : Option ℕ := none
  kept : InsertionMap ℕ ν := ∅

namespace Versions

variable {ν : Type} {lag n : ℕ} {old : ℕ → Bool} {v : Versions ν}

/-- Enter a version and make it the current one. -/
def enter (n : ℕ) (x : ν) (v : Versions ν) : Versions ν := ⟨some n, v.kept.set n x⟩

/-- Drop the old versions. -/
def forget (old : ℕ → Bool) (v : Versions ν) : Versions ν :=
  { v with kept := v.kept.retain fun m _ => !old m }

/-- The current version is kept, and nothing more than `lag` behind it. -/
structure Recent (lag : ℕ) (v : Versions ν) : Prop where
  holds : ∀ n, v.current = some n → v.kept.has n = true
  young : ∀ n m, v.current = some n → v.kept.has m = true → n ≤ m + lag

theorem recent_empty : Recent lag ({} : Versions ν) := by
  constructor
  · intro n h
    cases h
  · intro n m h
    cases h

theorem has_enter (n m : ℕ) (x : ν) (v : Versions ν) :
    (v.enter n x).kept.has m = true ↔ n = m ∨ v.kept.has m = true := by
  rw [enter, InsertionMap.has, InsertionMap.get_set]
  split
  · rename_i h
    simp [h]
  · rename_i h
    simp [h, InsertionMap.has]

theorem has_forget (m : ℕ) (v : Versions ν) :
    (v.forget old).kept.has m = true ↔ v.kept.has m = true ∧ old m = false := by
  rw [forget, InsertionMap.has_iff, InsertionMap.has_iff]
  constructor
  · rintro ⟨x, hx⟩
    obtain ⟨hget, hold⟩ := InsertionMap.get_retain_eq_some.mp hx
    exact ⟨⟨x, hget⟩, by simpa using hold⟩
  · rintro ⟨⟨x, hx⟩, hold⟩
    exact ⟨x, InsertionMap.get_retain_eq_some.mpr ⟨hx, by simp [hold]⟩⟩

/-- **Entering alone.** -/
theorem recent_enter_iff (x : ν) :
    (v.enter n x).Recent lag ↔ ∀ m, v.kept.has m = true → n ≤ m + lag := by
  constructor
  · intro h m hm
    exact h.young n m rfl ((has_enter n m x v).mpr (Or.inr hm))
  · intro h
    constructor
    · rintro k ⟨⟩
      exact (has_enter n n x v).mpr (Or.inl rfl)
    · rintro k m ⟨⟩ hm
      rcases (has_enter n m x v).mp hm with rfl | hm
      · exact Nat.le_add_right _ _
      · exact h m hm

/-- **Forgetting**, when the current version is there. -/
theorem recent_forget_iff (hcurrent : v.current = some n) (hholds : v.kept.has n = true)
    (hold : ∀ m, old m = false → n ≤ m + lag) : (v.forget old).Recent lag ↔ old n = false := by
  constructor
  · intro h
    exact ((has_forget n v).mp (h.holds n hcurrent)).2
  · intro h
    constructor
    · intro k hk
      obtain rfl : n = k := Option.some.inj (hcurrent.symm.trans hk)
      exact (has_forget n v).mpr ⟨hholds, h⟩
    · intro k m hk hm
      obtain rfl : n = k := Option.some.inj (hcurrent.symm.trans hk)
      exact hold m ((has_forget m v).mp hm).2

/-- **Entering and forgetting.** -/
theorem recent_enter_forget_iff (x : ν) (hold : ∀ m, old m = false → n ≤ m + lag) :
    ((v.enter n x).forget old).Recent lag ↔ old n = false :=
  recent_forget_iff rfl ((has_enter n n x v).mpr (Or.inl rfl)) hold

end Versions
