import Mathlib.Data.List.Basic

/-!
# Windows of a timed sequence

A sequence of timed items is cut into windows: the first item opens one, and an item that comes more
than a fixed span after the opening of the current window opens the next.  Time need not be monotone.

* `windows` — the cut;
* `windows_of_close` — items close to the first one share its window.
-/

namespace FixedWindow

universe u

variable {α : Type u}

/-- Put an item into the first window. -/
def consHead (a : α) : List (List α) → List (List α)
  | [] => [[a]]
  | w :: ws => (a :: w) :: ws

/-- The windows from an item on, given when the current one was opened. -/
def windowsFrom (span : ℕ) (time : α → ℕ) : ℕ → List α → List (List α)
  | _, [] => [[]]
  | start, a :: as =>
    if start + span < time a then [] :: consHead a (windowsFrom span time (time a) as)
    else consHead a (windowsFrom span time start as)

/-- The windows of a sequence. -/
def windows (span : ℕ) (time : α → ℕ) : List α → List (List α)
  | [] => []
  | a :: as => consHead a (windowsFrom span time (time a) as)

theorem windowsFrom_of_close {span : ℕ} {time : α → ℕ} {start : ℕ} {as : List α}
    (h : ∀ a ∈ as, time a ≤ start + span) : windowsFrom span time start as = [as] := by
  induction as with
  | nil => rfl
  | cons a as ih =>
    have ha := h a List.mem_cons_self
    rw [windowsFrom, if_neg (by omega), ih fun b hb => h b (List.mem_cons_of_mem _ hb)]
    rfl

/-- **One window**: no item comes more than the span after the first. -/
theorem windows_of_close {span : ℕ} {time : α → ℕ} {a : α} {as : List α}
    (h : ∀ b ∈ as, time b ≤ time a + span) : windows span time (a :: as) = [a :: as] := by
  rw [windows, windowsFrom_of_close h]
  rfl

end FixedWindow
