import Mathlib.Order.Lattice
import Mathlib.Data.List.Induction
import Mathlib.Tactic.Common

/-!
# A register with versions

A register holds a value with a version.  A write replaces what it holds unless the held version is
strictly newer; of two writes of the same version the later one wins.

* `Newest r ws w` — among the writes `ws` on a register that holds `r`, `w` has the highest version,
  and it is not older than what is held;
* `writeAll_newest` — after all the writes the register holds a newest one;
* `writeAll_of_stale` — or, when there is none, what it held before;
* `writeAll_perm_iff` — the result is the same for every order of the writes exactly when the newest
  writes agree on the value.
-/

namespace VersionedRegister

variable {V α : Type*} [LinearOrder V]

/-- One write. -/
def write (r : Option (V × α)) (w : V × α) : Option (V × α) :=
  match r with
  | none => some w
  | some x => if x.1 ≤ w.1 then some w else some x

/-- Writes one after the other. -/
def writeAll (r : Option (V × α)) (ws : List (V × α)) : Option (V × α) := ws.foldl write r

/-- A write of the highest version, not older than what the register holds. -/
structure Newest (r : Option (V × α)) (ws : List (V × α)) (w : V × α) : Prop where
  mem : w ∈ ws
  le : ∀ u ∈ ws, u.1 ≤ w.1
  held_le : ∀ x ∈ r, x.1 ≤ w.1

/-- The newest writes agree on the value. -/
def Agree (r : Option (V × α)) (ws : List (V × α)) : Prop :=
  ∀ w w', Newest r ws w → Newest r ws w' → w.2 = w'.2

variable {r : Option (V × α)} {ws ws' : List (V × α)} {w w' : V × α}

theorem write_of_le (h : ∀ x ∈ r, x.1 ≤ w.1) : write r w = some w := by
  cases r with
  | none => rfl
  | some x => simp [write, h x rfl]

theorem write_of_lt {x : V × α} (h : w.1 < x.1) : write (some x) w = some x := by
  simp [write, not_le.mpr h]

theorem write_ne_none (r : Option (V × α)) (w : V × α) : write r w ≠ none := by
  cases r with
  | none => simp [write]
  | some x =>
    rw [write]
    split <;> simp

theorem writeAll_concat (r : Option (V × α)) (ws : List (V × α)) (w : V × α) :
    writeAll r (ws ++ [w]) = write (writeAll r ws) w := by
  rw [writeAll, List.foldl_append]
  rfl

/-- What the register holds was there before or was written. -/
theorem mem_writeAll {x : V × α} (hx : x ∈ writeAll r ws) : x ∈ r ∨ x ∈ ws := by
  induction ws using List.reverseRecOn generalizing x with
  | nil => exact Or.inl hx
  | append_singleton ws w ih =>
    rw [writeAll_concat] at hx
    cases hheld : writeAll r ws with
    | none =>
      rw [hheld] at hx
      cases hx
      simp
    | some y =>
      rw [hheld, write] at hx
      split at hx
      · cases hx
        simp
      · cases hx
        rcases ih hheld with h | h
        · exact Or.inl h
        · exact Or.inr (List.mem_append_left _ h)

theorem Newest.perm (h : Newest r ws w) (hperm : ws.Perm ws') : Newest r ws' w where
  mem := hperm.mem_iff.mp h.mem
  le := fun u hu => h.le u (hperm.mem_iff.mpr hu)
  held_le := h.held_le

/-- A newest write at the end is what the register holds. -/
theorem writeAll_last (h : Newest r (ws ++ [w]) w) : writeAll r (ws ++ [w]) = some w := by
  rw [writeAll_concat]
  apply write_of_le
  intro x hx
  rcases mem_writeAll hx with hx | hx
  · exact h.held_le x hx
  · exact h.le x (List.mem_append_left _ hx)

/-- **The register ends with a newest write.** -/
theorem writeAll_newest (h : Newest r ws w) : ∃ w', Newest r ws w' ∧ writeAll r ws = some w' := by
  induction ws using List.reverseRecOn generalizing w with
  | nil => cases h.mem
  | append_singleton ws u ih =>
    by_cases hu : w.1 ≤ u.1
    · have hnew : Newest r (ws ++ [u]) u :=
        ⟨by simp, fun v hv => le_trans (h.le v hv) hu, fun x hx => le_trans (h.held_le x hx) hu⟩
      exact ⟨u, hnew, writeAll_last hnew⟩
    · -- the last write is older, so the newest one came before it and stays
      have hmem : w ∈ ws := by
        rcases List.mem_append.mp h.mem with hmem | hmem
        · exact hmem
        · rw [List.mem_singleton.mp hmem] at hu
          exact absurd le_rfl hu
      obtain ⟨w', hw', hheld⟩ :=
        ih ⟨hmem, fun v hv => h.le v (List.mem_append_left _ hv), h.held_le⟩
      have hle : w.1 ≤ w'.1 := hw'.le w hmem
      refine ⟨w', ⟨List.mem_append_left _ hw'.mem, ?_, hw'.held_le⟩, ?_⟩
      · exact fun v hv => le_trans (h.le v hv) hle
      · rw [writeAll_concat, hheld]
        exact write_of_lt (lt_of_lt_of_le (not_le.mp hu) hle)

/-- Writes that are all older than what is held change nothing. -/
theorem writeAll_of_stale (h : ∀ w ∈ ws, ∃ x ∈ r, w.1 < x.1) : writeAll r ws = r := by
  induction ws using List.reverseRecOn with
  | nil => rfl
  | append_singleton ws w ih =>
    rw [writeAll_concat, ih fun v hv => h v (List.mem_append_left _ hv)]
    obtain ⟨x, hx, hlt⟩ := h w (by simp)
    cases hx
    exact write_of_lt hlt

/-- **Of the newest writes the last one stays**: the writes after it are older. -/
theorem writeAll_of_last (h : Newest r (ws ++ w :: ws') w) (hlater : ∀ v ∈ ws', v.1 < w.1) :
    writeAll r (ws ++ w :: ws') = some w := by
  have hsplit : ws ++ w :: ws' = (ws ++ [w]) ++ ws' := by simp
  have hnew : Newest r (ws ++ [w]) w :=
    ⟨by simp, fun u hu => h.le u (hsplit ▸ List.mem_append_left ws' hu), h.held_le⟩
  rw [hsplit, writeAll, List.foldl_append, ← writeAll, ← writeAll, writeAll_last hnew]
  exact writeAll_of_stale fun v hv => ⟨w, rfl, hlater v hv⟩

/-- There is a newest write, or all of them are stale. -/
theorem exists_newest_or_stale (r : Option (V × α)) (ws : List (V × α)) :
    (∃ w, Newest r ws w) ∨ ∀ w ∈ ws, ∃ x ∈ r, w.1 < x.1 := by
  induction ws with
  | nil =>
    right
    intro w hw
    cases hw
  | cons w ws ih =>
    by_cases hheld : ∀ x ∈ r, x.1 ≤ w.1
    · left
      rcases ih with ⟨w', hw'⟩ | hstale
      · rcases le_total w.1 w'.1 with hle | hle
        · exact ⟨w', List.mem_cons_of_mem w hw'.mem, by simpa [hle] using hw'.le, hw'.held_le⟩
        · refine ⟨w, List.mem_cons_self, ?_, hheld⟩
          intro u hu
          rcases List.mem_cons.mp hu with rfl | hu
          · exact le_rfl
          · exact le_trans (hw'.le u hu) hle
      · refine ⟨w, List.mem_cons_self, ?_, hheld⟩
        intro u hu
        rcases List.mem_cons.mp hu with rfl | hu
        · exact le_rfl
        · obtain ⟨x, hx, hlt⟩ := hstale u hu
          exact le_trans (le_of_lt hlt) (hheld x hx)
    · -- `w` is stale, so it is not among the newest
      push Not at hheld
      rcases ih with ⟨w', hw'⟩ | hstale
      · left
        obtain ⟨x, hx, hlt⟩ := hheld
        have hle : w.1 ≤ w'.1 := le_trans (le_of_lt hlt) (hw'.held_le x hx)
        exact ⟨w', List.mem_cons_of_mem w hw'.mem, by simpa [hle] using hw'.le, hw'.held_le⟩
      · right
        intro u hu
        rcases List.mem_cons.mp hu with rfl | hu
        · exact hheld
        · exact hstale u hu

/-- When the newest writes agree, each of them is what the register holds in the end. -/
theorem writeAll_eq (hagree : Agree r ws) (h : Newest r ws w) : writeAll r ws = some w := by
  obtain ⟨w', hw', hheld⟩ := writeAll_newest h
  have hversion : w'.1 = w.1 := le_antisymm (h.le w' hw'.mem) (hw'.le w h.mem)
  have hvalue : w'.2 = w.2 := hagree w' w hw' h
  rw [hheld, Prod.ext hversion hvalue]

/-- **Order independence.** -/
theorem writeAll_perm_iff :
    (∀ ws', ws.Perm ws' → writeAll r ws' = writeAll r ws) ↔ Agree r ws := by
  constructor
  · -- each newest write can be made the last one
    intro h w w' hw hw'
    have hlast : ∀ u, Newest r ws u → writeAll r ws = some u := by
      intro u hu
      obtain ⟨as, bs, rfl⟩ := List.append_of_mem hu.mem
      have hperm : (as ++ u :: bs).Perm (as ++ bs ++ [u]) := by
        rw [List.append_assoc]
        exact List.Perm.append_left as (List.perm_append_singleton u bs).symm
      rw [← h _ hperm]
      exact writeAll_last (hu.perm hperm)
    have heq := (hlast w hw).symm.trans (hlast w' hw')
    rw [Option.some.inj heq]
  · intro hagree ws' hperm
    rcases exists_newest_or_stale r ws with ⟨w, hw⟩ | hstale
    · have hagree' : Agree r ws' :=
        fun u u' hu hu' => hagree u u' (hu.perm hperm.symm) (hu'.perm hperm.symm)
      rw [writeAll_eq hagree hw, writeAll_eq hagree' (hw.perm hperm)]
    · rw [writeAll_of_stale hstale,
        writeAll_of_stale fun w hw => hstale w (hperm.mem_iff.mpr hw)]

end VersionedRegister
