import DartProtocol.ControlFrames
import DartProtocol.SenderLog
import Mathlib.Data.List.ReduceOption

/-!
# The numbers of the darts that go out

`sendData` takes a number before it looks for a chain to send on.  A call that finds none returns without
a frame, and so does one whose frame cannot be encoded or written, or that finds the client closed; the
number is gone in every case.  Receivers see a gap that no dart fills.

* `sendFrame` — the frame of one call, from the state before it; `frames_sendData` — it is what the call
  puts out;
* `sendFrames_seq` — the k-th call has the k-th number, with or without a frame;
* `sent_seqs_iff` — the darts that go out have consecutive numbers exactly when the calls without a frame
  before each of them make up full circles.
-/

namespace DartProtocol

open Prog

variable {C : Crypto} {me : Identity}

/-! ### One call -/

/-- The frame a call of `sendData` puts out, if any: it needs a chain, a payload that can be encoded, an
open client, and for the TCP framing a length of 16 bits. -/
def sendFrame (C : Crypto) (me : Identity) (convId : ℕ) (payload : String) (s : Client) :
    Option Buffer := do
  let chain ← s.getChain convId (s.sendingEpoch convId) me.senderId
  let buf ← Codec.encodeDataHelper C (sentDart me convId payload s)
    (getDictionary me s me.senderId s.nextSeq) (advanceChain C chain chain.index).1 chain.index
    (s.sendingEpoch convId) (me.random s.draws 12)
  if s.closed ∨ (s.useFallback && s.tcpSocket) ∧ 65536 ≤ buf.length then none else some buf

theorem framesOf_append (os os' : List Output) : framesOf (os ++ os') = framesOf os ++ framesOf os' :=
  List.filterMap_append

theorem frames_broadcast (buf : Buffer) (s : Client) :
    framesOf (broadcast buf s).output
      = if s.closed ∨ (s.useFallback && s.tcpSocket) ∧ 65536 ≤ buf.length then [] else [buf] := by
  cases hclosed : s.closed with
  | true =>
    rw [broadcast, get_bind, if_pos hclosed, if_pos (Or.inl rfl)]
    rfl
  | false =>
    by_cases hlen : buf.length < 65536
    · obtain ⟨via, hrun⟩ := broadcast_open hclosed hlen
      rw [hrun, if_neg (by simp; omega)]
      rfl
    · rw [broadcast, get_bind, if_neg (by rw [hclosed]; decide)]
      by_cases htcp : (s.useFallback && s.tcpSocket) = true
      · rw [if_pos htcp, if_pos (Or.inr ⟨htcp, Nat.le_of_not_lt hlen⟩)]
        have hwrite : (Buffer.alloc (2 + buf.length)).writeUInt16BE buf.length 0 = none :=
          Option.eq_none_iff_forall_ne_some.mpr fun out hout => hlen (Buffer.lt_of_writeUIntBE hout)
        rw [hwrite]
        rfl
      · rw [if_neg htcp, if_neg (by simp [htcp])]
        rfl

theorem frames_bind_quiet {α β : Type} {m : ClientProg α} {f : α → ClientProg β}
    (h : ∀ a t, framesOf (f a t).output = []) (s : Client) :
    framesOf ((m >>= f) s).output = framesOf (m s).output := by
  cases hres : (m s).result with
  | none => rw [bind_of_none hres]
  | some a => rw [bind_of_some hres, Outcome.prepend_output, framesOf_append, h, List.append_nil]

theorem frames_transmitData (dart : DataDart) (dict messageKey : Buffer) (idx epoch : ℕ) (s : Client) :
    framesOf (transmitData C me dart dict messageKey idx epoch s).output
      = match Codec.encodeDataHelper C dart dict messageKey idx epoch (me.random s.draws 12) with
        | none => []
        | some buf => framesOf (broadcast buf { s with draws := s.draws + 1 }).output := by
  show framesOf ((do
      let buf ← ofOption
        (Codec.encodeDataHelper C dart dict messageKey idx epoch (me.random s.draws 12))
      emit (.encoded
        { dart, dict, messageKey, idx, epoch, nonce := me.random s.draws 12, buf })
      broadcast buf : ClientProg Unit) { s with draws := s.draws + 1 }).output = _
  cases Codec.encodeDataHelper C dart dict messageKey idx epoch (me.random s.draws 12) <;> rfl

/-- **What a call puts out** is determined by the state before it. -/
theorem frames_sendData (convId : ℕ) (payload : String) (s : Client) :
    framesOf (step C me (.sendData convId payload) s).output
      = (sendFrame C me convId payload s).toList := by
  show framesOf (sendData C me convId payload s).output = _
  cases hchain : s.getChain convId (s.sendingEpoch convId) me.senderId with
  | none =>
    rw [sendData_of_no_chain C payload hchain, sendFrame, hchain]
    rfl
  | some chain =>
    have hrun : framesOf (sendData C me convId payload s).output
        = framesOf (transmitData C me (sentDart me convId payload s)
            (getDictionary me s me.senderId s.nextSeq) (advanceChain C chain chain.index).1 chain.index
            (s.sendingEpoch convId) (enterSent C me convId payload chain s)).output := by
      rw [sendData, get_bind]
      simp only [hchain]
      rw [modify_bind, emit_bind, Outcome.prepend_output, framesOf_append]
      exact frames_bind_quiet (f := fun _ => do
        scheduleProbe convId
        Prog.modify fun u => { u with optimisticTimers := insert s.nextSeq u.optimisticTimers })
        (fun _ _ => rfl) _
    rw [hrun, frames_transmitData, sendFrame, hchain]
    show (match Codec.encodeDataHelper C (sentDart me convId payload s)
        (getDictionary me s me.senderId s.nextSeq) (advanceChain C chain chain.index).1 chain.index
        (s.sendingEpoch convId) (me.random s.draws 12) with
      | none => []
      | some buf => _) = _
    cases henc : Codec.encodeDataHelper C (sentDart me convId payload s)
        (getDictionary me s me.senderId s.nextSeq) (advanceChain C chain chain.index).1 chain.index
        (s.sendingEpoch convId) (me.random s.draws 12) with
    | none =>
      simp only [Option.bind_eq_bind, Option.bind_some, henc, Option.bind_none]
      rfl
    | some buf =>
      simp only [Option.bind_eq_bind, Option.bind_some, henc, frames_broadcast]
      show (if s.closed = true ∨ (s.useFallback && s.tcpSocket) = true ∧ 65536 ≤ buf.length then []
        else [buf]) = _
      split <;> rfl

theorem sendFrame_seq (hC : C.Lawful) (hme : me.Lawful) {convId : ℕ} {payload : String} {s : Client}
    {buf : Buffer} (h : sendFrame C me convId payload s = some buf) :
    buf.readUIntBE 3 3 = some (s.nextSeq % SEQ_MOD) := by
  obtain ⟨chain, -, h⟩ := Option.bind_eq_some_iff.mp h
  obtain ⟨buf', henc, h⟩ := Option.bind_eq_some_iff.mp h
  split at h
  · cases h
  · cases h
    exact (Codec.headerFields_of_encode hC (hme _ _) henc).seq

/-! ### A run -/

/-- The frames of the calls of `sendData` over a run, in order; `none` for a call without a frame. -/
def sendFrames (C : Crypto) (me : Identity) : List Event → Client → List (Option Buffer)
  | [], _ => []
  | .sendData convId payload :: es, s =>
    sendFrame C me convId payload s ::
      sendFrames C me es (step C me (.sendData convId payload) s).state
  | e :: es, s => sendFrames C me es (step C me e s).state

theorem sendFrames_cons_other {e : Event} (h : ∀ c p, e ≠ .sendData c p) (es : List Event) (s : Client) :
    sendFrames C me (e :: es) s = sendFrames C me es (step C me e s).state := by
  cases e with
  | sendData c p => exact absurd rfl (h c p)
  | _ => rfl

/-- **The k-th call has the k-th number.** -/
theorem sendFrames_seq (hC : C.Lawful) (hme : me.Lawful) {es : List Event} {s : Client}
    (hs : s.nextSeq < SEQ_MOD) {before after : List (Option Buffer)} {buf : Buffer}
    (h : sendFrames C me es s = before ++ some buf :: after) :
    buf.readUIntBE 3 3 = some ((s.nextSeq + before.length) % SEQ_MOD) := by
  induction es generalizing s before with
  | nil => exact absurd h (by simp [sendFrames])
  | cons e es ih =>
    have hnext := @step_nextSeq C me e s hs
    have hlt : (step C me e s).state.nextSeq < SEQ_MOD := by
      rw [hnext]
      exact Nat.mod_lt _ (by decide)
    by_cases hsend : ∃ c p, e = .sendData c p
    · obtain ⟨c, p, rfl⟩ := hsend
      rw [sendFrames] at h
      cases before with
      | nil =>
        obtain ⟨hframe, -⟩ := List.cons.inj h
        exact sendFrame_seq hC hme hframe
      | cons first before =>
        obtain ⟨-, hrest⟩ := List.cons.inj h
        rw [ih hlt hrest, hnext, List.length_cons, Nat.mod_add_mod, Nat.add_assoc]
        show some ((s.nextSeq + (1 + before.length)) % SEQ_MOD) = _
        rw [Nat.add_comm 1]
    · have hother : ∀ c p, e ≠ .sendData c p := fun c p he => hsend ⟨c, p, he⟩
      rw [sendFrames_cons_other hother] at h
      have hcount : sendCount [e] = 0 := by
        cases e <;> first | rfl | exact absurd rfl (hother _ _)
      rw [ih hlt h, hnext, hcount, Nat.add_zero, Nat.mod_add_mod]

/-- A statement about the entries of a list with their places among those that are there. -/
theorem reduceOption_forall_iff {α : Type} {P : ℕ → α → Prop} {l : List (Option α)} :
    (∀ j a, l.reduceOption[j]? = some a → P j a) ↔
      ∀ before a after, l = before ++ some a :: after → P before.reduceOption.length a := by
  constructor
  · rintro h before a after rfl
    refine h _ a ?_
    rw [List.reduceOption_append, List.reduceOption_cons_of_some, List.getElem?_append_right le_rfl,
      Nat.sub_self]
    rfl
  · intro h j a hj
    induction l generalizing j P with
    | nil => cases hj
    | cons x l ih =>
      cases x with
      | none =>
        rw [List.reduceOption_cons_of_none] at hj
        refine ih (fun before b after hl => ?_) j hj
        have hb := h (none :: before) b after (by rw [hl]; rfl)
        rwa [List.reduceOption_cons_of_none] at hb
      | some x =>
        rw [List.reduceOption_cons_of_some] at hj
        cases j with
        | zero =>
          cases hj
          exact h [] _ l rfl
        | succ j =>
          refine ih (P := fun j b => P (j + 1) b) (fun before b after hl => ?_) j hj
          have hb := h (some x :: before) b after (by rw [hl]; rfl)
          rwa [List.reduceOption_cons_of_some, List.length_cons] at hb

/-! ### Every run -/

/-- **When the numbers of the darts are consecutive.**  Over every run of a fresh client, the darts that
calls of `sendData` put out have the numbers 1, 2, … on the circle if and only if the calls without a
frame before each of them are a multiple of the circle, in practice none.  For no call is the number
given back: `nextSeq` changes with every one. -/
theorem sent_seqs_iff (hC : C.Lawful) (hme : me.Lawful) (es : List Event) :
    ((∀ j frame, (sendFrames C me es {}).reduceOption[j]? = some frame →
        frame.readUIntBE 3 3 = some ((1 + j) % SEQ_MOD)) ↔
      ∀ before frame after, sendFrames C me es {} = before ++ some frame :: after →
        SEQ_MOD ∣ (before.filter Option.isNone).length) ∧
    (∀ convId payload s, s.nextSeq < SEQ_MOD →
      framesOf (step C me (.sendData convId payload) s).output
          = (sendFrame C me convId payload s).toList ∧
        (step C me (.sendData convId payload) s).state.nextSeq ≠ s.nextSeq) := by
  refine ⟨?_, fun convId payload s hs => ⟨frames_sendData convId payload s, ?_⟩⟩
  · refine (reduceOption_forall_iff (P := fun j (frame : Buffer) =>
      frame.readUIntBE 3 3 = some ((1 + j) % SEQ_MOD))).trans ?_
    refine forall_congr' fun before => forall_congr' fun frame => forall_congr' fun after =>
      forall_congr' fun hsplit => ?_
    have hlen := List.length_eq_reduceOption_length_add_filter_none (l := before)
    rw [sendFrames_seq hC hme (by decide : ({} : Client).nextSeq < SEQ_MOD) hsplit, hlen]
    show some ((1 + _) % SEQ_MOD) = _ ↔ _
    rw [Option.some.injEq]
    unfold SEQ_MOD
    omega
  · rw [step_nextSeq _ s hs]
    show (s.nextSeq + 1) % SEQ_MOD ≠ s.nextSeq
    unfold SEQ_MOD at *
    omega

/-- A founder that sends when it has its key. -/
def promptRun : List Event :=
  [.message (sumMemberInfo 1 1 true [1, 2]), .sendData 1 "a", .sendData 1 "b"]

theorem prompt_seqs :
    (sendFrames sumCrypto (sumIdentity 1) promptRun {}).reduceOption.length = 2 ∧
    ∀ j frame, (sendFrames sumCrypto (sumIdentity 1) promptRun {}).reduceOption[j]? = some frame →
      frame.readUIntBE 3 3 = some ((1 + j) % SEQ_MOD) := by
  refine ⟨by decide +kernel,
    (sent_seqs_iff sumCrypto_lawful (sumIdentity_lawful 1) promptRun).1.mpr ?_⟩
  intro before frame after hsplit
  have hall : ∀ entry ∈ sendFrames sumCrypto (sumIdentity 1) promptRun {}, entry.isSome := by
    decide +kernel
  have hnone : before.filter Option.isNone = [] := by
    refine List.filter_eq_nil_iff.mpr fun entry hentry => ?_
    have hsome := hall entry (by rw [hsplit]; exact List.mem_append_left _ hentry)
    rw [← Option.not_isSome, hsome]
    decide
  rw [hnone]
  exact Nat.dvd_zero _

/-- **A hole in the numbers.**  A call before the key is there uses up number 1; the first dart that goes
out has number 2. -/
theorem early_call_leaves_hole :
    (sendFrames sumCrypto (sumIdentity 1)
        [.sendData 1 "early", .message (sumMemberInfo 1 1 true [1, 2]), .sendData 1 "a"] {}).map
      (fun entry => entry.map fun frame => frame.readUIntBE 3 3) = [none, some (some 2)] ∧
    (stateAfter sumCrypto (sumIdentity 1) [.sendData 1 "early"]).nextSeq ≠ ({} : Client).nextSeq := by
  decide +kernel

end DartProtocol
