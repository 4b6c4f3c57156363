import Mathlib.Data.List.Basic
import Mathlib.Data.List.Induction
import Mathlib.Tactic.Ring
import Mathlib.Tactic.Linarith

/-!
# Byte buffers with checked big-endian access

Buffers as a script runtime offers them: reading or writing a field outside the buffer, or writing
a number that does not fit its field, is refused (`none`, the runtime throws a range error), while
`subarray` clamps its bounds and counts negative ones from the end.

* `natBE` / `bytesBE` and their round trips — the big-endian field codec;
* `writeUIntBE_next` / `copy_next` — filling a fresh buffer field by field from left to right
  appends the fields, which turns an encoder into a concatenation;
* `readUIntBE_append_right` / `readUIntBE_head` — a field of a concatenation reads back its value.
-/

/-- A buffer of bytes. -/
abbrev Buffer := List UInt8

namespace Buffer

/-! ### Big-endian numbers -/

/-- The number a byte string denotes, most significant byte first. -/
def natBE (bs : Buffer) : ℕ := bs.foldl (fun n b => n * 256 + b.toNat) 0

/-- The `n`-byte big-endian form of a number (its lowest `n` bytes). -/
def bytesBE : ℕ → ℕ → Buffer
  | 0, _ => []
  | n + 1, v => bytesBE n (v / 256) ++ [UInt8.ofNat (v % 256)]

@[simp] theorem length_bytesBE (n v : ℕ) : (bytesBE n v).length = n := by
  induction n generalizing v with
  | zero => rfl
  | succ n ih => simp [bytesBE, ih]

theorem natBE_snoc (bs : Buffer) (b : UInt8) : natBE (bs ++ [b]) = natBE bs * 256 + b.toNat := by
  simp [natBE]

theorem natBE_bytesBE (n v : ℕ) : natBE (bytesBE n v) = v % 256 ^ n := by
  induction n generalizing v with
  | zero => simp [bytesBE, natBE, Nat.mod_one]
  | succ n ih =>
    rw [bytesBE, natBE_snoc, ih]
    have hb : (UInt8.ofNat (v % 256)).toNat = v % 256 := by
      rw [UInt8.toNat_ofNat']
      omega
    rw [hb, pow_succ, Nat.mul_comm (256 ^ n) 256, Nat.mod_mul]
    ring

variable {n v off : ℕ} {p b b' : Buffer}

theorem natBE_bytesBE_of_lt (h : v < 256 ^ n) : natBE (bytesBE n v) = v := by
  rw [natBE_bytesBE, Nat.mod_eq_of_lt h]

theorem natBE_lt (bs : Buffer) : natBE bs < 256 ^ bs.length := by
  induction bs using List.reverseRecOn with
  | nil => simp [natBE]
  | append_singleton bs b ih =>
    rw [natBE_snoc, List.length_append, List.length_singleton, pow_succ]
    have hb := b.toNat_lt
    omega

theorem bytesBE_natBE (bs : Buffer) : bytesBE bs.length (natBE bs) = bs := by
  induction bs using List.reverseRecOn with
  | nil => rfl
  | append_singleton bs b ih =>
    have hb := b.toNat_lt
    have hdiv : (natBE bs * 256 + b.toNat) / 256 = natBE bs := by omega
    have hmod : (natBE bs * 256 + b.toNat) % 256 = b.toNat := by omega
    rw [natBE_snoc, List.length_append, List.length_singleton, bytesBE, hdiv, hmod, ih]
    simp

/-! ### Access -/

/-- A buffer of `n` zero bytes. -/
def alloc (n : ℕ) : Buffer := List.replicate n 0

/-- Read the `n`-byte big-endian field at `off`. -/
def readUIntBE (b : Buffer) (off n : ℕ) : Option ℕ :=
  if off + n ≤ b.length then some (natBE ((b.drop off).take n)) else none

def readUInt8 (b : Buffer) (off : ℕ) : Option ℕ := b.readUIntBE off 1

def readUInt16BE (b : Buffer) (off : ℕ) : Option ℕ := b.readUIntBE off 2

def readUInt32BE (b : Buffer) (off : ℕ) : Option ℕ := b.readUIntBE off 4

/-- Write `v` as the `n`-byte big-endian field at `off`. -/
def writeUIntBE (b : Buffer) (v off n : ℕ) : Option Buffer :=
  if v < 256 ^ n ∧ off + n ≤ b.length then
    some (b.take off ++ bytesBE n v ++ b.drop (off + n))
  else none

def writeUInt8 (b : Buffer) (v off : ℕ) : Option Buffer := b.writeUIntBE v off 1

def writeUInt16BE (b : Buffer) (v off : ℕ) : Option Buffer := b.writeUIntBE v off 2

def writeUInt32BE (b : Buffer) (v off : ℕ) : Option Buffer := b.writeUIntBE v off 4

/-- Copy `src` into `target` from position `start` on, as far as `target` reaches. -/
def copy (src target : Buffer) (start : ℕ) : Buffer :=
  target.take start ++ src.take (target.length - start) ++ target.drop (start + src.length)

/-- A slice bound: negative ones count from the end, all are clamped to the buffer. -/
def clampIndex (len : ℕ) (i : ℤ) : ℕ :=
  if i < 0 then (len + i).toNat else min i.toNat len

/-- The bytes from `s` up to, not including, `e`. -/
def subarray (b : Buffer) (s e : ℤ) : Buffer :=
  (b.drop (clampIndex b.length s)).take (clampIndex b.length e - clampIndex b.length s)

/-- The bytes from `s` on. -/
def subarrayFrom (b : Buffer) (s : ℤ) : Buffer := b.subarray s b.length

/-! ### Reading a concatenation -/

theorem readUIntBE_append_right {q : Buffer} (h : p.length ≤ off) :
    readUIntBE (p ++ q) off n = readUIntBE q (off - p.length) n := by
  have hlen : off + n ≤ (p ++ q).length ↔ off - p.length + n ≤ q.length := by
    rw [List.length_append]
    omega
  have hdrop : (p ++ q).drop off = q.drop (off - p.length) := by
    rw [List.drop_append, List.drop_eq_nil_of_le h, List.nil_append]
  by_cases hc : off - p.length + n ≤ q.length
  · rw [readUIntBE, readUIntBE, if_pos (hlen.mpr hc), if_pos hc, hdrop]
  · rw [readUIntBE, readUIntBE, if_neg (fun h' => hc (hlen.mp h')), if_neg hc]

theorem readUIntBE_head {q : Buffer} (hv : v < 256 ^ n) :
    readUIntBE (bytesBE n v ++ q) 0 n = some v := by
  rw [readUIntBE, if_pos (by simp)]
  have htake : ((bytesBE n v ++ q).drop 0).take n = bytesBE n v := by
    rw [List.drop_zero, List.take_append_of_le_length (by simp), List.take_of_length_le (by simp)]
  rw [htake, natBE_bytesBE_of_lt hv]

theorem readUIntBE_head_nil (hv : v < 256 ^ n) :
    readUIntBE (bytesBE n v) 0 n = some v := by
  simpa using readUIntBE_head (q := []) hv

theorem readUIntBE_isSome_iff :
    (b.readUIntBE off n).isSome ↔ off + n ≤ b.length := by
  rw [readUIntBE]
  split <;> simp_all

theorem readUIntBE_lt (h : b.readUIntBE off n = some v) :
    v < 256 ^ n := by
  rw [readUIntBE] at h
  split at h
  · rename_i hlen
    cases h
    have hl : ((b.drop off).take n).length = n := by
      rw [List.length_take, List.length_drop]
      omega
    calc natBE ((b.drop off).take n) < 256 ^ ((b.drop off).take n).length := natBE_lt _
      _ = 256 ^ n := by rw [hl]
  · cases h

theorem subarray_of_le {s e : ℕ} (hs : s ≤ e) (he : e ≤ b.length) :
    b.subarray s e = (b.drop s).take (e - s) := by
  have h1 : clampIndex b.length (s : ℤ) = s := by
    rw [clampIndex, if_neg (by omega)]
    simp only [Int.toNat_natCast]
    omega
  have h2 : clampIndex b.length (e : ℤ) = e := by
    rw [clampIndex, if_neg (by omega)]
    simp only [Int.toNat_natCast]
    omega
  rw [subarray, h1, h2]

theorem subarrayFrom_of_le {s : ℕ} (hs : s ≤ b.length) :
    b.subarrayFrom s = b.drop s := by
  rw [subarrayFrom, subarray_of_le hs (le_refl _), List.take_of_length_le]
  rw [List.length_drop]

theorem subarray_append {m q : Buffer} {s e : ℕ} (hs : p.length = s)
    (he : s + m.length = e) : subarray (p ++ (m ++ q)) s e = m := by
  subst hs he
  rw [subarray_of_le (by omega) (by simp)]
  simp

theorem subarrayFrom_append {q : Buffer} {s : ℕ} (hs : p.length = s) :
    subarrayFrom (p ++ q) s = q := by
  subst hs
  rw [subarrayFrom_of_le (by simp)]
  simp

/-! ### Filling a fresh buffer from left to right -/

theorem writeUIntBE_next {k : ℕ} (hv : v < 256 ^ n) (ho : p.length = off) (hk : n ≤ k) :
    writeUIntBE (p ++ alloc k) v off n = some ((p ++ bytesBE n v) ++ alloc (k - n)) := by
  subst ho
  rw [writeUIntBE, if_pos ⟨hv, by simp [alloc]; omega⟩]
  simp [alloc, List.drop_append]

theorem writeUIntBE_first {k : ℕ} (hv : v < 256 ^ n) (hk : n ≤ k) :
    writeUIntBE (alloc k) v 0 n = some (bytesBE n v ++ alloc (k - n)) :=
  writeUIntBE_next (p := []) hv rfl hk

theorem copy_next {src : Buffer} {k : ℕ} (ho : p.length = off) (hk : src.length ≤ k) :
    copy src (p ++ alloc k) off = (p ++ src) ++ alloc (k - src.length) := by
  subst ho
  have hsrc : src.take k = src := List.take_of_length_le hk
  have hp : p.drop (p.length + src.length) = [] := List.drop_eq_nil_of_le (by omega)
  simp [copy, alloc, List.drop_append, hsrc, hp]

theorem lt_of_writeUIntBE (h : b.writeUIntBE v off n = some b') :
    v < 256 ^ n := by
  rw [writeUIntBE] at h
  split at h
  · rename_i hc
    exact hc.1
  · cases h

theorem length_of_writeUIntBE (h : b.writeUIntBE v off n = some b') :
    b'.length = b.length := by
  rw [writeUIntBE] at h
  split at h
  · rename_i hc
    cases h
    simp
    omega
  · cases h

/-- A write of a number that fits, inside the buffer, goes through and keeps the length. -/
theorem exists_writeUIntBE (hv : v < 256 ^ n) (h : off + n ≤ b.length) :
    ∃ b', b.writeUIntBE v off n = some b' ∧ b'.length = b.length := by
  rw [writeUIntBE, if_pos ⟨hv, h⟩]
  simp
  omega

theorem length_copy {src target : Buffer} {start : ℕ} (h : start ≤ target.length) :
    (copy src target start).length = target.length := by
  simp [copy]
  omega

/-! ### Fields under later writes -/

theorem readUIntBE_of_take_eq (h : b'.take (off + n) = b.take (off + n)) :
    b'.readUIntBE off n = b.readUIntBE off n := by
  have hlen : off + n ≤ b'.length ↔ off + n ≤ b.length := by
    have hl := congrArg List.length h
    rw [List.length_take, List.length_take] at hl
    omega
  have hslice : (b'.drop off).take n = (b.drop off).take n := by
    have hd := congrArg (List.drop off) h
    rwa [List.drop_take, List.drop_take, Nat.add_sub_cancel_left] at hd
  by_cases hc : off + n ≤ b.length
  · rw [readUIntBE, readUIntBE, if_pos (hlen.mpr hc), if_pos hc, hslice]
  · rw [readUIntBE, readUIntBE, if_neg (fun h' => hc (hlen.mp h')), if_neg hc]

theorem readUIntBE_append_left {q : Buffer} (h : off + n ≤ p.length) :
    (p ++ q).readUIntBE off n = p.readUIntBE off n :=
  readUIntBE_of_take_eq (List.take_append_of_le_length h)

theorem readUIntBE_of_writeUIntBE
    (h : b.writeUIntBE v off n = some b') : b'.readUIntBE off n = some v := by
  rw [writeUIntBE] at h
  split at h
  · rename_i hc
    have hleft : (b.take off).length = off := by
      rw [List.length_take]
      omega
    cases h
    rw [List.append_assoc, readUIntBE_append_right (by omega), hleft, Nat.sub_self,
      readUIntBE_head hc.1]
  · cases h

theorem readUIntBE_of_write_right {off' n' : ℕ}
    (h : b.writeUIntBE v off n = some b') (hle : off' + n' ≤ off) :
    b'.readUIntBE off' n' = b.readUIntBE off' n' := by
  rw [writeUIntBE] at h
  split at h
  · rename_i hc
    cases h
    apply readUIntBE_of_take_eq
    rw [List.append_assoc, List.take_append_of_le_length (by rw [List.length_take]; omega),
      List.take_take, Nat.min_eq_left hle]
  · cases h

theorem readUIntBE_copy_right {src : Buffer} {start : ℕ} (hle : off + n ≤ start)
    (hs : start ≤ b.length) : (copy src b start).readUIntBE off n = b.readUIntBE off n := by
  apply readUIntBE_of_take_eq
  rw [copy, List.append_assoc, List.take_append_of_le_length (by rw [List.length_take]; omega),
    List.take_take, Nat.min_eq_left hle]
/-- Concatenate a list of buffers. -/
def concat (bs : List Buffer) : Buffer := bs.flatten

end Buffer
