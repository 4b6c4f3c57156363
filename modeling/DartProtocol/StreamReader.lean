import Mathlib.Data.List.Basic
import Mathlib.Data.List.Infix
import Mathlib.Algebra.GroupWithZero.Nat
import Mathlib.Tactic.Common

/-!
# Readers of a chunked stream

A reader keeps what has arrived and not been used.  Each time a chunk comes in it takes items off the
front until the next one is incomplete.  What a reader is given by `next`: the first item of a buffer
and the rest behind it.  Two things are asked of it: an item uses something up, and what arrives
later does not change an item that is complete.

* `read` — take items until the next one is incomplete, with as many turns as the buffer is long;
* `feed_of_idle`, `feed_eq_read` — the chunks do not matter, only the stream does;
* `read_written` — a stream of written items, cut off anywhere, is read back as its complete items,
  and the incomplete last one stays in the buffer;
* `stopAt` — a reader that refuses some items reads what stands before the first of them.
-/

structure StreamReader (α β : Type) where
  /-- The first item of a buffer, with the rest, or nothing when it is incomplete. -/
  next : List α → Option (β × List α)
  shrinks : ∀ {b x r}, next b = some (x, r) → r.length < b.length
  stable : ∀ {b x r} (c : List α), next b = some (x, r) → next (b ++ c) = some (x, r ++ c)

namespace StreamReader

variable {α β : Type} (R : StreamReader α β)

/-- Take items off the front, for a number of turns. -/
def drain : ℕ → List α → List β × List α
  | 0, b => ([], b)
  | turns + 1, b =>
    match R.next b with
    | none => ([], b)
    | some (x, r) => (x :: (drain turns r).1, (drain turns r).2)

/-- Take items until the next one is incomplete. -/
def read (b : List α) : List β × List α := R.drain b.length b

/-- Each chunk is put behind what is left and read as far as possible. -/
def feed : List α → List (List α) → List β × List α
  | b, [] => ([], b)
  | b, c :: cs =>
    let now := R.read (b ++ c)
    let later := feed now.2 cs
    (now.1 ++ later.1, later.2)

/-! ### One buffer -/

variable {R}

theorem drain_none {b : List α} (h : R.next b = none) (turns : ℕ) : R.drain turns b = ([], b) := by
  cases turns with
  | zero => rfl
  | succ turns => simp only [drain, h]

theorem drain_some {b r : List α} {x : β} (h : R.next b = some (x, r)) (turns : ℕ) :
    R.drain (turns + 1) b = (x :: (R.drain turns r).1, (R.drain turns r).2) := by
  simp only [drain, h]

/-- As many turns as the buffer is long are enough. -/
theorem drain_of_length_le {turns : ℕ} {b : List α} (h : b.length ≤ turns) :
    R.drain turns b = R.read b := by
  induction turns using Nat.strong_induction_on generalizing b with
  | _ turns ih =>
    cases hn : R.next b with
    | none => rw [read, drain_none hn, drain_none hn]
    | some xr =>
      obtain ⟨x, r⟩ := xr
      have hr := R.shrinks hn
      obtain ⟨n, hlen⟩ : ∃ n, b.length = n + 1 := ⟨b.length - 1, by omega⟩
      obtain ⟨m, rfl⟩ : ∃ m, turns = m + 1 := ⟨turns - 1, by omega⟩
      have hleft : R.drain m r = R.read r := ih m (by omega) (by omega)
      have hright : R.drain n r = R.read r := by
        rcases Nat.lt_or_ge n (m + 1) with hn' | hn'
        · exact ih n hn' (by omega)
        · omega
      rw [read, hlen, drain_some hn, drain_some hn, hleft, hright]

theorem read_none {b : List α} (h : R.next b = none) : R.read b = ([], b) :=
  drain_none h _

theorem read_some {b r : List α} {x : β} (h : R.next b = some (x, r)) :
    R.read b = (x :: (R.read r).1, (R.read r).2) := by
  have hr := R.shrinks h
  obtain ⟨n, hlen⟩ : ∃ n, b.length = n + 1 := ⟨b.length - 1, by omega⟩
  rw [read, hlen, drain_some h, drain_of_length_le (show r.length ≤ n by omega)]

/-- Induction along the items of a buffer. -/
theorem read_induction {P : List α → Prop} (idle : ∀ b, R.next b = none → P b)
    (item : ∀ b x r, R.next b = some (x, r) → P r → P b) (b : List α) : P b := by
  induction hn : b.length using Nat.strong_induction_on generalizing b with
  | _ n ih =>
    cases h : R.next b with
    | none => exact idle b h
    | some xr => exact item b xr.1 xr.2 h (ih _ (hn ▸ R.shrinks h) xr.2 rfl)

/-- What is left has no complete item. -/
theorem next_rest (b : List α) : R.next (R.read b).2 = none := by
  induction b using read_induction (R := R) with
  | idle b h => rw [read_none h]; exact h
  | item b x r h ih => rw [read_some h]; exact ih

/-- Reading on with more behind the buffer. -/
theorem read_append (b c : List α) :
    R.read (b ++ c) =
      ((R.read b).1 ++ (R.read ((R.read b).2 ++ c)).1, (R.read ((R.read b).2 ++ c)).2) := by
  induction b using read_induction (R := R) with
  | idle b h => rw [read_none h]; simp
  | item b x r h ih =>
    rw [read_some h, read_some (R.stable c h), ih]
    simp

/-! ### Chunks -/

/-- **Only the stream matters.**  A reader with nothing complete in its buffer ends up where one is
that gets everything at once. -/
theorem feed_of_idle {b : List α} (h : R.next b = none) (chunks : List (List α)) :
    R.feed b chunks = R.read (b ++ chunks.flatten) := by
  induction chunks generalizing b with
  | nil => simp [feed, read_none h]
  | cons c cs ih =>
    rw [feed, ih (next_rest _), List.flatten_cons, ← List.append_assoc, read_append (b ++ c)]

theorem next_nil : R.next [] = none := by
  cases h : R.next [] with
  | none => rfl
  | some xr => exact absurd (R.shrinks (x := xr.1) (r := xr.2) h) (by simp)

theorem feed_eq_read (chunks : List (List α)) : R.feed [] chunks = R.read chunks.flatten := by
  simpa using feed_of_idle (next_nil (R := R)) chunks

/-! ### Written streams -/

/-- How many of the written items are complete in the first `n` places of the stream; `size` is the
space an item takes. -/
def complete (size : β → ℕ) : List β → ℕ → ℕ
  | [], _ => 0
  | x :: xs, n => if size x ≤ n then complete size xs (n - size x) + 1 else 0

/-- The space of the items of a list. -/
def space (size : β → ℕ) (xs : List β) : ℕ := (xs.map size).sum

/-- A way to write items that the reader understands: a written item is read back with what follows
it, and a part of it is incomplete. -/
structure Understands (R : StreamReader α β) (write : β → List α) (x : β) : Prop where
  whole : ∀ r, R.next (write x ++ r) = some (x, r)
  part : ∀ p, p <+: write x → p.length < (write x).length → R.next p = none

/-- **A written stream, cut off anywhere, is read back.**  The complete items come out in order, and
the places of the incomplete last one are left. -/
theorem read_written {write : β → List α} {xs : List β} (hw : ∀ x ∈ xs, R.Understands write x)
    {p : List α} (hp : p <+: (xs.map write).flatten) :
    R.read p =
      (xs.take (complete (fun x => (write x).length) xs p.length),
        p.drop (space (fun x => (write x).length)
          (xs.take (complete (fun x => (write x).length) xs p.length)))) := by
  induction xs generalizing p with
  | nil =>
    have hnil : p = [] := by simpa using hp
    subst hnil
    rw [read_none next_nil]
    simp [complete]
  | cons x xs ih =>
    have hx := hw x (by simp)
    rw [List.map_cons, List.flatten_cons] at hp
    rw [complete]
    split
    case isTrue hle =>
      -- the first item is complete: it is read, and the rest is a shorter written stream
      obtain ⟨q, rfl⟩ : ∃ q, p = write x ++ q :=
        ⟨p.drop (write x).length, by
          rw [← List.prefix_iff_eq_append.mp (List.prefix_of_prefix_length_le
            (List.prefix_append (write x) _) hp hle)]
          simp⟩
      have hq : q <+: (xs.map write).flatten := (List.prefix_append_right_inj _).mp hp
      rw [read_some (hx.whole q), ih (fun y hy => hw y (by simp [hy])) hq]
      simp [space]
    case isFalse hlt =>
      have hcut : p <+: write x :=
        List.prefix_of_prefix_length_le hp (List.prefix_append _ _) (by omega)
      rw [read_none (hx.part p hcut (by omega))]
      simp [space]

/-! ### Refused items -/

/-- The reader that stops in front of every refused item. -/
def stopAt (R : StreamReader α β) (refused : β → Bool) : StreamReader α β where
  next b := (R.next b).filter fun xr => !refused xr.1
  shrinks h := R.shrinks (Option.filter_eq_some_iff.mp h).1
  stable c h := by
    obtain ⟨h₁, h₂⟩ := Option.filter_eq_some_iff.mp h
    exact Option.filter_eq_some_iff.mpr ⟨R.stable c h₁, h₂⟩

/-- Refusing nothing changes nothing. -/
theorem stopAt_never : R.stopAt (fun _ => false) = R := by
  obtain ⟨next, shrinks, stable⟩ := R
  have hnext : ∀ b, (next b).filter (fun _ => true) = next b := by
    intro b
    cases next b <;> rfl
  simp only [stopAt, Bool.not_false, hnext]

theorem read_stopAt (refused : β → Bool) (b : List α) :
    ((R.stopAt refused).read b).1 = (R.read b).1.takeWhile fun x => !refused x := by
  induction b using read_induction (R := R) with
  | idle b h =>
    have hn : (R.stopAt refused).next b = none := by simp [stopAt, h]
    rw [read_none h, read_none hn]
    rfl
  | item b x r h ih =>
    rw [read_some h]
    cases hx : refused x with
    | true =>
      have hn : (R.stopAt refused).next b = none := by simp [stopAt, h, hx]
      rw [read_none hn]
      simp [hx]
    | false =>
      have hn : (R.stopAt refused).next b = some (x, r) := by simp [stopAt, h, hx]
      rw [read_some hn, ih]
      simp [hx]

/-- Stopping at the first bad element keeps all good ones exactly when no good one follows a bad
one. -/
theorem takeWhile_eq_filter_iff (good : β → Bool) (xs : List β) :
    xs.takeWhile good = xs.filter good ↔ xs.Pairwise fun x y => good x = false → good y = false := by
  induction xs with
  | nil => simp
  | cons x xs ih =>
    rw [List.pairwise_cons]
    cases hx : good x with
    | true => simp [hx, ih]
    | false =>
      have htail : (∀ y ∈ xs, good y = false) → xs.Pairwise fun x y => good x = false → good y = false :=
        fun h => List.pairwise_of_forall_mem_list fun _ _ y hy _ => h y hy
      simp only [hx, List.takeWhile_cons, List.filter_cons, Bool.false_eq_true, if_false,
        List.nil_eq, List.filter_eq_nil_iff, Bool.not_eq_true, true_imp_iff]
      exact ⟨fun h => ⟨h, htail h⟩, fun h => h.1⟩

end StreamReader
