import DartProtocol.ByteBuffer

/-!
# Slices with checked bounds

Byte slices as a compiled runtime offers them: indexing or slicing out of range stops the process
(`none`), and nothing is clamped.  A slice is taken to have no capacity beyond its length, so the
bounds of a sub-slice are checked against the length.  Numbers are cut to the width of their field
when written, never refused.

* `index`, `slice`, `uint16`, `uint24`, `uint32` — reading;
* `putUintBE` and its widths, `copyInto`, `copyFromSlice` — writing into a sub-slice;
* one lemma per operation says when it goes through, and that a write keeps the length;
* reading through a sub-slice is reading the field (`uint16_slice` and its siblings), and filling a
  fresh slice from left to right appends the fields (`putUintBE_next`, `copyInto_next`), so that code
  over slices can be compared with code over buffers;
* `tryOk` — calls that return a value or an error, or stop the process.
-/

namespace Slice

/-! ### Reading -/

/-- `b[i]` -/
def index (b : Buffer) (i : ℕ) : Option ℕ := b.readUIntBE i 1

/-- `b[i:j]` -/
def slice (b : Buffer) (i j : ℕ) : Option Buffer :=
  if i ≤ j ∧ j ≤ b.length then some ((b.drop i).take (j - i)) else none

/-- The two-byte big-endian number at the front of a slice. -/
def uint16 (b : Buffer) : Option ℕ := b.readUIntBE 0 2

/-- The three-byte big-endian number at the front of a slice. -/
def uint24 (b : Buffer) : Option ℕ := b.readUIntBE 0 3

/-- The four-byte big-endian number at the front of a slice. -/
def uint32 (b : Buffer) : Option ℕ := b.readUIntBE 0 4

variable {b p : Buffer} {i j : ℕ}

theorem index_isSome_iff : (index b i).isSome ↔ i < b.length := by
  rw [index, Buffer.readUIntBE_isSome_iff]
  omega

theorem slice_of_le (hij : i ≤ j) (hj : j ≤ b.length) :
    ∃ c, slice b i j = some c ∧ c.length = j - i := by
  rw [slice, if_pos ⟨hij, hj⟩]
  refine ⟨_, rfl, ?_⟩
  rw [List.length_take, List.length_drop]
  omega

/-- Reading a number through a sub-slice goes through exactly when the sub-slice is in range. -/
theorem uint16_slice_isSome_iff :
    ((slice b i (i + 2)).bind uint16).isSome ↔ i + 2 ≤ b.length := by
  by_cases h : i + 2 ≤ b.length
  · obtain ⟨c, hc, hlen⟩ := slice_of_le (by omega : i ≤ i + 2) h
    rw [hc, Option.bind_some, uint16, Buffer.readUIntBE_isSome_iff]
    omega
  · rw [slice, if_neg (fun hc => h hc.2)]
    simp [h]

theorem uint24_slice_isSome (h : i + 3 ≤ b.length) :
    ((slice b i (i + 3)).bind uint24).isSome := by
  obtain ⟨c, hc, hlen⟩ := slice_of_le (by omega : i ≤ i + 3) h
  rw [hc, Option.bind_some, uint24, Buffer.readUIntBE_isSome_iff]
  omega

/-! ### Writing -/

/-- Put a two-byte big-endian number at the front of `b[i:j]`. -/
def putUint16 (b : Buffer) (i j v : ℕ) : Option Buffer :=
  if i + 2 ≤ j ∧ j ≤ b.length then some (b.take i ++ Buffer.bytesBE 2 v ++ b.drop (i + 2)) else none

/-- Copy as much of `src` into `b[i:j]` as fits. -/
def copyInto (b : Buffer) (i j : ℕ) (src : Buffer) : Option Buffer :=
  if i ≤ j ∧ j ≤ b.length then
    some (b.take i ++ src.take (j - i) ++ b.drop (i + min src.length (j - i)))
  else none

/-- Put an `n`-byte big-endian number at the front of `b[i:j]`. -/
def putUintBE (n : ℕ) (b : Buffer) (i j v : ℕ) : Option Buffer :=
  if i + n ≤ j ∧ j ≤ b.length then some (b.take i ++ Buffer.bytesBE n v ++ b.drop (i + n)) else none

def putUint24 : Buffer → ℕ → ℕ → ℕ → Option Buffer := putUintBE 3

def putUint32 : Buffer → ℕ → ℕ → ℕ → Option Buffer := putUintBE 4

/-- Copy `src` over `b[i:j]`; the two have to be equally long. -/
def copyFromSlice (b : Buffer) (i j : ℕ) (src : Buffer) : Option Buffer :=
  if i ≤ j ∧ j ≤ b.length ∧ src.length = j - i then some (b.take i ++ src ++ b.drop j) else none

theorem exists_putUint16 (v : ℕ) (hij : i + 2 ≤ j) (hj : j ≤ b.length) :
    ∃ b', putUint16 b i j v = some b' ∧ b'.length = b.length := by
  rw [putUint16, if_pos ⟨hij, hj⟩]
  refine ⟨_, rfl, ?_⟩
  simp
  omega

theorem exists_copyInto (src : Buffer) (hij : i ≤ j) (hj : j ≤ b.length) :
    ∃ b', copyInto b i j src = some b' ∧ b'.length = b.length := by
  rw [copyInto, if_pos ⟨hij, hj⟩]
  refine ⟨_, rfl, ?_⟩
  simp
  omega

/-! ### Sub-slices and fields -/

theorem readUIntBE_slice {n : ℕ} (hj : j = i + n) :
    ((slice b i j).bind fun c => c.readUIntBE 0 n) = b.readUIntBE i n := by
  subst hj
  by_cases h : i + n ≤ b.length
  · have hlen : n ≤ ((b.drop i).take n).length := by
      rw [List.length_take, List.length_drop]
      omega
    rw [slice, if_pos ⟨by omega, h⟩, Option.bind_some, Nat.add_sub_cancel_left, Buffer.readUIntBE,
      if_pos (by omega), Buffer.readUIntBE, if_pos h, List.drop_zero, List.take_take, Nat.min_self]
  · rw [slice, if_neg (fun hc => h hc.2), Buffer.readUIntBE, if_neg h]
    rfl

theorem uint16_slice (hj : j = i + 2) :
    (slice b i j).bind uint16 = b.readUInt16BE i := readUIntBE_slice hj

theorem uint24_slice (hj : j = i + 3) :
    (slice b i j).bind uint24 = b.readUIntBE i 3 := readUIntBE_slice hj

theorem uint32_slice (hj : j = i + 4) :
    (slice b i j).bind uint32 = b.readUInt32BE i := readUIntBE_slice hj

theorem index_eq (b : Buffer) (i : ℕ) : index b i = b.readUInt8 i := rfl

theorem readUIntBE_succ (b : Buffer) (off n : ℕ) :
    b.readUIntBE off (n + 1)
      = (b.readUIntBE off n).bind fun hi => (index b (off + n)).map fun lo => hi * 256 + lo := by
  rw [index, Buffer.readUIntBE, Buffer.readUIntBE, Buffer.readUIntBE]
  by_cases h : off + (n + 1) ≤ b.length
  · obtain ⟨x, hx⟩ : ∃ x, b.drop (off + n) = x :: b.drop (off + n + 1) :=
      ⟨b[off + n], List.drop_eq_getElem_cons (by omega)⟩
    have hlast : (b.drop (off + n)).take 1 = [x] := by rw [hx]; rfl
    have hsplit : (b.drop off).take (n + 1) = (b.drop off).take n ++ [x] := by
      rw [List.take_add, List.drop_drop, hlast]
    rw [if_pos h, if_pos (by omega), if_pos (by omega), hsplit, Buffer.natBE_snoc, hlast]
    simp [Buffer.natBE]
  · rw [if_neg h]
    by_cases hn : off + n ≤ b.length
    · rw [if_pos hn, if_neg (by omega)]
      rfl
    · rw [if_neg hn]
      rfl

theorem uint16_of_index (b : Buffer) (i : ℕ) :
    (do let hi ← index b i
        let lo ← index b (i + 1)
        some (hi * 256 + lo)) = b.readUInt16BE i := by
  rw [Buffer.readUInt16BE, readUIntBE_succ]
  show (b.readUIntBE i 1).bind _ = _
  congr 1
  funext hi
  cases index b (i + 1) <;> rfl

theorem uint24_of_index (b : Buffer) (i : ℕ) :
    (do let hi ← index b i
        let mid ← index b (i + 1)
        let lo ← index b (i + 2)
        some (hi * 65536 + mid * 256 + lo)) = b.readUIntBE i 3 := by
  rw [readUIntBE_succ, readUIntBE_succ, Option.bind_assoc]
  show (b.readUIntBE i 1).bind _ = _
  congr 1
  funext hi
  cases index b (i + 1) with
  | none => rfl
  | some mid =>
    cases index b (i + 2) with
    | none => rfl
    | some lo =>
      have hsum : hi * 65536 + mid * 256 + lo = (hi * 256 + mid) * 256 + lo := by ring
      simp only [Option.bind_eq_bind, Option.bind_some, Option.map_some, hsum]

theorem slice_eq_subarray (hij : i ≤ j) (hj : j ≤ b.length) :
    slice b i j = some (b.subarray i j) := by
  rw [slice, if_pos ⟨hij, hj⟩, Buffer.subarray_of_le hij hj]

theorem slice_eq_subarrayFrom (hi : i ≤ b.length) :
    slice b i b.length = some (b.subarrayFrom i) :=
  slice_eq_subarray hi (le_refl _)

/-! ### Filling a fresh slice from left to right -/

theorem putUintBE_next {n k v : ℕ} (hi : p.length = i) (hj : i + n ≤ j) (hk : j ≤ i + k) :
    putUintBE n (p ++ Buffer.alloc k) i j v
      = some ((p ++ Buffer.bytesBE n v) ++ Buffer.alloc (k - n)) := by
  subst hi
  rw [putUintBE, if_pos ⟨hj, by simpa [Buffer.alloc] using hk⟩]
  simp [Buffer.alloc, List.drop_append]

theorem putUint16_next {k v : ℕ} (hi : p.length = i) (hj : i + 2 ≤ j) (hk : j ≤ i + k) :
    putUint16 (p ++ Buffer.alloc k) i j v
      = some ((p ++ Buffer.bytesBE 2 v) ++ Buffer.alloc (k - 2)) := putUintBE_next hi hj hk

theorem putUint24_next {k v : ℕ} (hi : p.length = i) (hj : i + 3 ≤ j) (hk : j ≤ i + k) :
    putUint24 (p ++ Buffer.alloc k) i j v
      = some ((p ++ Buffer.bytesBE 3 v) ++ Buffer.alloc (k - 3)) := putUintBE_next hi hj hk

theorem putUint32_next {k v : ℕ} (hi : p.length = i) (hj : i + 4 ≤ j) (hk : j ≤ i + k) :
    putUint32 (p ++ Buffer.alloc k) i j v
      = some ((p ++ Buffer.bytesBE 4 v) ++ Buffer.alloc (k - 4)) := putUintBE_next hi hj hk

theorem copyInto_next {src : Buffer} {k : ℕ} (hi : p.length = i) (hj : i + src.length ≤ j)
    (hk : j ≤ i + k) :
    copyInto (p ++ Buffer.alloc k) i j src = some ((p ++ src) ++ Buffer.alloc (k - src.length)) := by
  subst hi
  have hfit : src.take (j - p.length) = src := List.take_of_length_le (by omega)
  have hmin : min src.length (j - p.length) = src.length := by omega
  rw [copyInto, if_pos ⟨by omega, by simpa [Buffer.alloc] using hk⟩, hfit, hmin]
  simp [Buffer.alloc, List.drop_append]

theorem copyFromSlice_next {src : Buffer} {k : ℕ} (hi : p.length = i)
    (hj : i + src.length = j) (hk : j ≤ i + k) :
    copyFromSlice (p ++ Buffer.alloc k) i j src
      = some ((p ++ src) ++ Buffer.alloc (k - src.length)) := by
  subst hi hj
  rw [copyFromSlice, if_pos ⟨by omega, by simpa [Buffer.alloc] using hk, by omega⟩]
  simp [Buffer.alloc, List.drop_append]

theorem bytesBE_one (v : ℕ) : Buffer.bytesBE 1 v = [UInt8.ofNat v] := by
  rw [Buffer.bytesBE, Buffer.bytesBE, List.nil_append]
  congr 1
  apply UInt8.toNat_inj.mp
  simp

theorem set_next {k : ℕ} (v : ℕ) (hi : p.length = i) (hk : 0 < k) :
    (p ++ Buffer.alloc k).set i (UInt8.ofNat v)
      = (p ++ Buffer.bytesBE 1 v) ++ Buffer.alloc (k - 1) := by
  subst hi
  obtain ⟨k, rfl⟩ : ∃ l, k = l + 1 := ⟨k - 1, by omega⟩
  rw [bytesBE_one]
  simp [Buffer.alloc, List.replicate_succ]

theorem set_first {k : ℕ} (v : ℕ) (hk : 0 < k) :
    (Buffer.alloc k).set 0 (UInt8.ofNat v) = Buffer.bytesBE 1 v ++ Buffer.alloc (k - 1) :=
  set_next (p := []) v rfl hk

/-! ### Calls that return an error -/

/-- Go on with the value of a call.  An error is passed on, and a stopped process stays stopped: the
outer `none` is the latter, the inner one an error. -/
def tryOk {α β : Type} (r : Option (Option α)) (f : α → Option (Option β)) : Option (Option β) :=
  match r with
  | none => none
  | some none => some none
  | some (some a) => f a

@[simp] theorem tryOk_ok {α β : Type} (a : α) (f : α → Option (Option β)) :
    tryOk (some (some a)) f = f a := rfl

theorem tryOk_some {α β : Type} (o : Option α) (g : α → Option β) :
    tryOk (some o) (fun a => some (g a)) = some (o.bind g) := by
  cases o <;> rfl

theorem tryOk_eq_ok {α β : Type} {r : Option (Option α)} {f : α → Option (Option β)} {b : β} :
    tryOk r f = some (some b) ↔ ∃ a, r = some (some a) ∧ f a = some (some b) := by
  rcases r with _ | _ | a <;> simp [tryOk]

end Slice
