import DartProtocol.BoundedMemory

/-!
# First contact

A receiver without a baseline for a sender takes a first dart from `2` to `200` for one beyond a gap,
and a later one for the next.  As long as the darts that arrive are among the first `200` it behaves
like a receiver that has number `0`, so that the order of their arrival does not matter.  A later dart
that arrives before dart `1` is decrypted at once: either it becomes the baseline, and the first darts
are stale, or its dictionary does not match, and its chain key is used up.

* `Fresh` — a receiver without a baseline is in step, up to the missing baseline;
* `Fresh.hold`, `Fresh.accept` — what an arrival among the first `200` does;
* `Spent` — the key of a dart is used up; no arrival brings it back, and the dart is not stored.

**Main result** (`first_contact_iff`): all darts are stored in order, and no Dict-Reset goes out,
exactly when dart `1` arrives before every dart beyond the first `200`.
-/

namespace DartProtocol

open Prog InsertionMap Outcome

variable {C : Crypto} {me : Identity} {senderId convId : ℕ} {ls : List Link} {m₀ : NumMap DataDart}

/-! ### A receiver without a baseline -/

/-- The client with number zero as the highest received of a sender. -/
def Client.withBaseline (senderId : ℕ) (r : Client) : Client :=
  { r with highestReceivedSeq := r.highestReceivedSeq.set senderId 0 }

variable {r : Client} {held : Finset ℕ}

theorem Client.WellFormed.withBaseline (h : r.WellFormed)
    (hnone : r.highestReceivedSeq.get senderId = none) : (r.withBaseline senderId).WellFormed := by
  refine ⟨h.nextSeq, h.sent, h.received, ?_⟩
  intro id k dart hk
  have hsame : orDefault ((r.withBaseline senderId).highestReceivedSeq.get id) 0
      = orDefault (r.highestReceivedSeq.get id) 0 := by
    show orDefault ((r.highestReceivedSeq.set senderId 0).get id) 0 = _
    rw [get_set]
    split
    · rename_i hid
      rw [← hid, hnone]
      rfl
    · rfl
  rw [hsame]
  exact h.recent id k dart hk

/-- The first dart makes its number the baseline, whether there was number zero or none. -/
theorem storeReceived_withBaseline {dart : DataDart}
    (hnone : r.highestReceivedSeq.get dart.senderId = none) (hseq : 0 < dart.seq)
    (hlt : dart.seq < SEQ_MOD / 2) :
    storeReceived dart (r.withBaseline dart.senderId) = storeReceived dart r := by
  have hhas : r.highestReceivedSeq.has dart.senderId = false := has_eq_false_iff.mpr hnone
  have hhas₀ : (r.withBaseline dart.senderId).highestReceivedSeq.has dart.senderId = true :=
    has_iff.mpr ⟨0, get_set_self ..⟩
  have hget₀ : (r.withBaseline dart.senderId).highestReceivedSeq.get dart.senderId = some 0 :=
    get_set_self ..
  have hdelta : seqDelta 0 dart.seq = dart.seq := by
    rw [seqDelta_eq (by decide) (by unfold SEQ_MOD at *; omega), if_pos (Nat.zero_le _)]
    rfl
  have hset : (r.withBaseline dart.senderId).highestReceivedSeq.set dart.senderId dart.seq
      = r.highestReceivedSeq.set dart.senderId dart.seq := set_set ..
  rw [storeReceived, storeReceived]
  simp only [hhas, hhas₀, hget₀, hnone, orDefault_zero, Option.getD_some, hdelta, hset, if_true,
    Bool.false_eq_true, if_false]
  rw [if_pos ⟨hseq, hlt⟩, if_pos (by decide)]
  rfl

/-- **A fresh receiver**: no baseline, and in step but for that. -/
structure Fresh (C : Crypto) (senderId convId : ℕ) (m₀ : NumMap DataDart) (ls : List Link) (r : Client)
    (held : Finset ℕ) : Prop where
  noBaseline : r.highestReceivedSeq.get senderId = none
  sync : InSync C senderId convId m₀ 1 ls (r.withBaseline senderId) ⟨0, held⟩

theorem Fresh.of_core {t : Client} (h : Fresh C senderId convId m₀ ls r held)
    (hcore : t.core = r.core) : Fresh C senderId convId m₀ ls t held := by
  have hhigh : t.highestReceivedSeq = r.highestReceivedSeq :=
    congrArg (fun c => c.highestReceivedSeq) hcore
  refine ⟨hhigh ▸ h.noBaseline, h.sync.of_core ?_⟩
  show ({ t.core with highestReceivedSeq := t.core.highestReceivedSeq.set senderId 0 } : Client)
    = { r.core with highestReceivedSeq := r.core.highestReceivedSeq.set senderId 0 }
  rw [hcore]

theorem seqAt_one {i : ℕ} (h : i + 1 < SEQ_MOD) : seqAt 1 i = i + 1 := by
  rw [seqAt, SerialNumber.position, Nat.add_comm, Nat.mod_eq_of_lt h]

theorem Fresh.dataAhead_eq (h : Fresh C senderId convId m₀ ls r held)
    (q : ℕ) : dataAhead r senderId q = if 1 ≤ q ∧ q ≤ DICT_WINDOW then q else 1 := by
  have hhas : r.highestReceivedSeq.has senderId = false :=
    has_eq_false_iff.mpr h.noBaseline
  rw [dataAhead, if_neg (by rw [hhas]; decide)]

/-- **A dart of the first `200`** other than the first is held. -/
theorem Fresh.hold (me : Identity) (hC : C.Lawful) (hn : ls.length < SEQ_MOD / 2)
    (hstream : Stream C senderId convId m₀ 1 ls)
    (h : Fresh C senderId convId m₀ ls r held) {i : ℕ} {l : Link} (hl : ls[i]? = some l)
    (hpos : 0 < i) (hi : i < DICT_WINDOW) :
    Fresh C senderId convId m₀ ls (handleMessage C me l.enc.buf r).state (insert i held) ∧
      storedDarts (handleMessage C me l.enc.buf r).output = [] ∧
      ∀ frame ∈ framesOf (handleMessage C me l.enc.buf r).output,
        frame.readUInt8 0 = some TYPE_NACK := by
  have hilt : i < ls.length := (List.getElem?_eq_some_iff.mp hl).1
  have hseq : seqAt 1 i = i + 1 := seqAt_one (by unfold SEQ_MOD at *; omega)
  obtain ⟨m, henc⟩ := hstream.encodes (by decide) hl
  have h' := h.of_core (noteSeen_core r senderId (seqAt 1 i))
  obtain ⟨hstate, houtput⟩ := handleMessage_link me hC henc r
  have hahead : dataAhead (r.noteSeen senderId (seqAt 1 i)) senderId (seqAt 1 i) = i + 1 := by
    unfold DICT_WINDOW at hi
    rw [h'.dataAhead_eq, hseq, if_pos (by unfold DICT_WINDOW; omega)]
  rw [hstate, houtput, routeData, get_bind]
  simp only [hahead]
  rw [if_neg (by unfold DICT_WINDOW at hi; unfold SEQ_MOD; omega), if_pos (by omega)]
  obtain ⟨hcore, hstored, hframes⟩ := @bufferAhead_run C me l.enc.buf convId senderId (seqAt 1 i)
    (i + 1) (r.noteSeen senderId (seqAt 1 i))
  generalize r.noteSeen senderId (seqAt 1 i) = r' at h' hcore hstored hframes
  have hheld : Fresh C senderId convId m₀ ls
      { r' with outOfOrderBuffer := set₂ r'.outOfOrderBuffer senderId (seqAt 1 i) l.enc.buf }
      (insert i held) := ⟨h'.noBaseline, h'.sync.hold hn hl (Nat.zero_le i)⟩
  exact ⟨hheld.of_core hcore, hstored, hframes⟩

/-- **The first dart** is delivered with everything that directly follows it. -/
theorem Fresh.accept (hC : C.Lawful) (hne : senderId ≠ me.senderId) (hn : ls.length < SEQ_MOD / 2)
    (hidx : ∀ l ∈ ls, l.enc.idx < 2 ^ 32) (hstream : Stream C senderId convId m₀ 1 ls)
    (h : Fresh C senderId convId m₀ ls r held) (hheld : 0 ∉ held) {l : Link}
    (hl : ls[0]? = some l) :
    InSync C senderId convId m₀ 1 ls (handleMessage C me l.enc.buf r).state
        (Reassembly.receive 0 ⟨0, held⟩) ∧
      HandedOn ls ⟨0, held⟩ (Reassembly.receive 0 ⟨0, held⟩)
        (handleMessage C me l.enc.buf r).output ∧
      framesOf (handleMessage C me l.enc.buf r).output = [] := by
  obtain ⟨m, henc⟩ := hstream.encodes (by decide) hl
  have hlidx : l.enc.idx < 2 ^ 32 := hidx l (List.mem_of_getElem? hl)
  obtain ⟨hstate, houtput⟩ := handleMessage_link me hC henc r
  have h' := h.of_core (noteSeen_core r senderId (seqAt 1 0))
  have hahead : dataAhead (r.noteSeen senderId (seqAt 1 0)) senderId (seqAt 1 0) = 1 := by
    rw [h'.dataAhead_eq]
    decide
  rw [hstate, houtput, routeData, get_bind]
  simp only [hahead]
  rw [if_neg (by decide), if_neg (by decide)]
  generalize r.noteSeen senderId (seqAt 1 0) = r' at h'
  obtain ⟨hdec, hproc⟩ := deliver_next_of (t := r') hC hne hlidx h'.sync hl rfl rfl
  have hafter : afterLink C senderId convId l (r'.withBaseline senderId)
      = afterLink C senderId convId l r' := by
    have hsender := henc.senderId
    have hnone : (r'.setChain convId l.enc.epoch senderId (chainAfter C l)).highestReceivedSeq.get
        l.enc.dart.senderId = none := by
      rw [hsender]
      exact h'.noBaseline
    have hstore := storeReceived_withBaseline hnone (by rw [henc.seq]; decide)
      (by rw [henc.seq]; decide)
    rw [hsender] at hstore
    exact hstore
  have hdeliver := h'.sync.deliver hl hheld
  rw [hafter] at hdeliver
  exact acceptNext_sync hC hne hn hidx hl hdec hproc hdeliver

/-- A receiver that has heard nothing of a sender's stream is fresh. -/
theorem fresh_start (hform : r.WellFormed) (hbased : Based r)
    (hstream : Stream C senderId convId ∅ 1 ls) (hnone : r.highestReceivedSeq.get senderId = none)
    (hbuf : ∀ q, get₂ r.outOfOrderBuffer senderId q = none)
    (hfirst : ∀ i l, FirstOfEpoch ls i l → Reaches C senderId convId r l) :
    Fresh C senderId convId ∅ ls r ∅ := by
  refine ⟨hnone, inSync_start (by decide) hstream (hform.withBaseline hnone) ?_ hbuf ?_ hfirst⟩
  · exact get_set_self ..
  · -- without a baseline nothing was stored
    intro k _
    have hget : (receivedOf r senderId).get k = none := by
      cases hget : (receivedOf r senderId).get k with
      | none => rfl
      | some d =>
        obtain ⟨highest, hhigh⟩ := hbased senderId k d hget
        rw [hnone] at hhigh
        cases hhigh
    show bytesAt (receivedOf r senderId) k = bytesAt ∅ k
    rw [bytesAt, hget]
    rfl

/-! ### Dart `1` comes first -/

/-- The first dart arrives before every dart beyond the window. -/
def FirstInTime (is : List ℕ) : Prop :=
  ∀ before i after, is = before ++ i :: after → DICT_WINDOW ≤ i → 0 ∈ before

theorem FirstInTime.tail {i : ℕ} {is : List ℕ} (h : FirstInTime (i :: is)) (hi : i ≠ 0) :
    FirstInTime is := by
  intro before j after his hj
  have hmem : 0 ∈ i :: before := h (i :: before) j after (by rw [his]; rfl) hj
  rcases List.mem_cons.mp hmem with hzero | hmem
  · exact absurd hzero.symm hi
  · exact hmem

/-- **Arrivals in time.**  Darts of the first `200` are held until the first one comes; from then on the
receiver is in step. -/
theorem Fresh.eventLoop (hC : C.Lawful) (hne : senderId ≠ me.senderId) (hn : ls.length < SEQ_MOD / 2)
    (hidx : ∀ l ∈ ls, l.enc.idx < 2 ^ 32) (hstream : Stream C senderId convId m₀ 1 ls) (is : List ℕ) :
    ∀ {r : Client} {held : Finset ℕ}, Fresh C senderId convId m₀ ls r held → 0 ∉ held →
      (∀ i ∈ is, i < ls.length) → FirstInTime is → 0 ∈ is →
      HandedOn ls ⟨0, held⟩ (Reassembly.run is ⟨0, held⟩)
          (Prog.eventLoop (handleMessage C me) (is.map (datagram ls)) r).output ∧
        ∀ frame ∈ framesOf (Prog.eventLoop (handleMessage C me) (is.map (datagram ls)) r).output,
          frame.readUInt8 0 = some TYPE_NACK := by
  induction is with
  | nil =>
    intro r held _ _ _ _ hmem
    exact absurd hmem List.not_mem_nil
  | cons i is ih =>
    intro r held h hheld hlt hfirst hmem
    obtain ⟨l, hl⟩ : ∃ l, ls[i]? = some l :=
      ⟨_, List.getElem?_eq_getElem (hlt i List.mem_cons_self)⟩
    have hrest : ∀ j ∈ is, j < ls.length := fun j hj => hlt j (List.mem_cons_of_mem _ hj)
    have hbuf : datagram ls i = l.enc.buf := by rw [datagram, hl]
    rw [List.map_cons, hbuf, eventLoop_cons, prepend_output, framesOf,
      List.filterMap_append]
    by_cases hzero : i = 0
    · subst hzero
      obtain ⟨hsync, hlog, hframes⟩ := h.accept hC hne hn hidx hstream hheld hl
      have hsettled : (⟨0, held⟩ : Reassembly).Settled := by
        intro j hj
        exact Nat.pos_of_ne_zero fun hj0 => hheld (hj0 ▸ hj)
      obtain ⟨-, hlog', hframes'⟩ := eventLoop_sync hC hne hn hidx (by decide) hstream is hrest
        (Reassembly.settled_receive hsettled 0) hsync
      refine ⟨hlog.trans hlog', ?_⟩
      intro frame hframe
      rw [← framesOf, hframes, List.nil_append] at hframe
      exact hframes' frame hframe
    · have hpos : 0 < i := Nat.pos_of_ne_zero hzero
      have hwindow : i < DICT_WINDOW := by
        by_contra hge
        exact absurd (hfirst [] i is rfl (Nat.not_lt.mp hge)) List.not_mem_nil
      obtain ⟨hfresh, hstored, hframes⟩ := h.hold me hC hn hstream hl hpos hwindow
      have hheld' : 0 ∉ insert i held := by
        rw [Finset.mem_insert, not_or]
        exact ⟨fun h0 => hzero h0.symm, hheld⟩
      have hmem' : 0 ∈ is := (List.mem_cons.mp hmem).resolve_left fun h0 => hzero h0.symm
      obtain ⟨ihlog, ihframes⟩ := ih hfresh hheld' hrest (hfirst.tail hzero) hmem'
      have hreceive : Reassembly.receive i ⟨0, held⟩ = ⟨0, insert i held⟩ := by
        rw [Reassembly.receive, if_neg (Nat.not_lt_zero i), if_pos hpos]
      refine ⟨?_, ?_⟩
      · show HandedOn ls ⟨0, held⟩ (Reassembly.run is (Reassembly.receive i ⟨0, held⟩)) _
        rw [hreceive, HandedOn, storedDarts_append, hstored]
        exact ihlog
      · intro frame hframe
        rcases List.mem_append.mp hframe with hframe | hframe
        · exact hframes frame hframe
        · exact ihframes frame hframe

/-! ### A later dart comes first -/

/-- **A key that is used up**: the chain of the dart is beyond its index, and the buffer has nothing but
darts of the stream. -/
structure Spent (senderId convId : ℕ) (ls : List Link) (x : Link) (r : Client) : Prop where
  chain : ∃ chain, r.getChain convId x.enc.epoch senderId = some chain ∧ x.enc.idx < chain.index
  buffer : ∀ q raw, get₂ r.outOfOrderBuffer senderId q = some raw →
    ∃ j l, ls[j]? = some l ∧ q = seqAt 1 j ∧ raw = l.enc.buf

/-- No dart of the sender with this number is among the stored ones. -/
def Avoids (senderId q : ℕ) (os : List Output) : Prop := ∀ p ∈ storedLog senderId os, p.1 ≠ q

theorem Avoids.append {q : ℕ} {os os' : List Output} (h : Avoids senderId q os)
    (h' : Avoids senderId q os') : Avoids senderId q (os ++ os') := by
  intro p hp
  rw [storedLog_append, List.mem_append] at hp
  rcases hp with hp | hp
  · exact h p hp
  · exact h' p hp

theorem Avoids.of_nothing {q : ℕ} {os : List Output} (h : storedLog senderId os = []) :
    Avoids senderId q os := by
  intro p hp
  rw [h] at hp
  exact absurd hp List.not_mem_nil

/-- The key stays used up, and the dart is not stored. -/
def KeepsSpent (senderId convId : ℕ) (ls : List Link) (i : ℕ) (x : Link) :
    Client → List Output → Client → Prop :=
  fun s os t => Spent senderId convId ls x s →
    Spent senderId convId ls x t ∧ Avoids senderId (seqAt 1 i) os

section Arrivals

variable {i : ℕ} {x : Link}

theorem keepsSpent_comp : Composable (KeepsSpent senderId convId ls i x) := by
  constructor
  · intro s hs
    exact ⟨hs, Avoids.of_nothing rfl⟩
  · intro s t u os os' h h' hs
    obtain ⟨ht, havoids⟩ := h hs
    obtain ⟨hu, havoids'⟩ := h' ht
    exact ⟨hu, havoids.append havoids'⟩

theorem keepsSpent_of_leaves {s t : Client} {os : List Output} (h : LeavesStream senderId s os t) :
    KeepsSpent senderId convId ls i x s os t := by
  intro hs
  refine ⟨⟨?_, ?_⟩, Avoids.of_nothing h.stored⟩
  · rw [h.chains]
    exact hs.chain
  · intro q raw hraw
    rw [h.buffer] at hraw
    exact hs.buffer q raw hraw

theorem processDataPacket_keepsSpent (dec : DecryptedData) {q : ℕ}
    (hq : q ≠ seqAt 1 i) :
    Obeys (KeepsSpent senderId convId ls i x) (processDataPacket C me dec senderId q) := by
  intro s
  rcases processDataPacket_cases dec senderId q s with
    hleaves | ⟨dict, payload, -, -, houtput, hstate⟩
  · exact keepsSpent_of_leaves hleaves
  · unfold ObeysAt
    rw [houtput, hstate]
    intro hs
    obtain ⟨hbuffer, hchains⟩ :=
      storeReceived_frame ⟨TYPE_DATA, dec.convId, senderId, q, payload⟩ s
    refine ⟨⟨?_, ?_⟩, ?_⟩
    · rw [Client.getChain, hchains]
      exact hs.chain
    · rw [hbuffer]
      exact hs.buffer
    · intro p hp
      have hp : p = (q, payload) := by simpa [storedLog, storedDarts] using hp
      rw [hp]
      exact hq

variable (hC : C.Lawful) (hn : ls.length < SEQ_MOD / 2) (hidx : ∀ l ∈ ls, l.enc.idx < 2 ^ 32)
  (hstream : Stream C senderId convId m₀ 1 ls) (hx : ls[i]? = some x)

include hC hn hidx hstream hx

theorem Spent.openData {s s' : Client} (hs : Spent senderId convId ls x s) {j : ℕ} {l : Link}
    (hl : ls[j]? = some l) {dec : DecryptedData}
    (hopen : openData C s l.enc.buf senderId = some (some (dec, s'))) :
    seqAt 1 j ≠ seqAt 1 i ∧ Spent senderId convId ls x s' := by
  obtain ⟨m, henc⟩ := hstream.encodes (by decide) hl
  have hlidx := hidx l (List.mem_of_getElem? hl)
  have hdr := henc.header hC
  obtain ⟨c, epoch, idx, chain, hepoch, hread, hconv, hget, hle, -, rfl⟩ := openData_eq hopen
  obtain rfl : l.enc.epoch = epoch := Option.some.inj (hdr.epoch.symm.trans hepoch)
  obtain rfl : l.enc.idx = idx := by
    rw [hdr.idx, Nat.mod_eq_of_lt hlidx] at hread
    exact Option.some.inj hread
  obtain rfl : convId = c := by
    rw [hdr.convId, henc.convId] at hconv
    exact Option.some.inj hconv
  obtain ⟨spent, hspent, hlt⟩ := hs.chain
  constructor
  · intro hsame
    -- the dart itself lies before its chain
    have hjlt : j < ls.length := (List.getElem?_eq_some_iff.mp hl).1
    have hilt : i < ls.length := (List.getElem?_eq_some_iff.mp hx).1
    obtain rfl : j = i := seqAt_inj (by omega) (by omega) hsame
    obtain rfl : l = x := Option.some.inj (hl.symm.trans hx)
    rw [hget] at hspent
    cases hspent
    omega
  · refine ⟨?_, hs.buffer⟩
    rw [Client.getChain_setChain]
    split
    · rename_i hsame
      rw [← hsame.2.1, hget] at hspent
      cases hspent
      refine ⟨_, rfl, ?_⟩
      rw [advanceChain_of_le C hle]
      show x.enc.idx < l.enc.idx + 1
      omega
    · exact ⟨spent, hspent, hlt⟩

/-- **One dart is decrypted and processed.** -/
theorem processBuffered_keepsSpent (me : Identity) {j : ℕ} {l : Link} (hl : ls[j]? = some l) :
    Obeys (KeepsSpent senderId convId ls i x)
      (processBuffered C me l.enc.buf senderId (seqAt 1 j)) := by
  intro s hs
  rw [processBuffered, decryptDataInOrder_bind]
  rcases hopen : DartProtocol.openData C s l.enc.buf senderId with _ | _ | ⟨dec, s'⟩
  · exact ⟨hs, Avoids.of_nothing rfl⟩
  · exact ⟨hs, Avoids.of_nothing rfl⟩
  · obtain ⟨hother, hs'⟩ := hs.openData hC hn hidx hstream hx hl hopen
    simp only
    split
    · exact processDataPacket_keepsSpent dec hother s' hs'
    · exact ⟨hs', Avoids.of_nothing rfl⟩

/-- **Draining.**  Induction on the turns; what is buffered are darts of the stream. -/
theorem drainBuffer_keepsSpent (me : Identity) (turns : ℕ) :
    ∀ q, Obeys (KeepsSpent senderId convId ls i x) (drainBuffer C me senderId turns q) := by
  induction turns with
  | zero => exact fun q => Obeys.pure keepsSpent_comp _
  | succ turns ih =>
    intro q s hs
    cases hget : get₂ s.outOfOrderBuffer senderId q with
    | none =>
      rw [drainBuffer_of_none C me hget]
      exact ⟨hs, Avoids.of_nothing rfl⟩
    | some raw =>
      obtain ⟨j, l, hl, rfl, rfl⟩ := hs.buffer q raw hget
      rw [drainBuffer_of_some C me hget]
      have hunbuffered : Spent senderId convId ls x (unbuffer senderId (seqAt 1 j) s) := by
        obtain ⟨b, hb⟩ := unbuffer_frame s senderId (seqAt 1 j)
        refine ⟨?_, ?_⟩
        · rw [hb]
          exact hs.chain
        · intro q' raw' hraw
          rw [get₂_unbuffer] at hraw
          split at hraw
          · cases hraw
          · exact hs.buffer q' raw' hraw
      obtain ⟨hspent, havoids⟩ :=
        processBuffered_keepsSpent hC hn hidx hstream hx me hl _ hunbuffered
      obtain ⟨hspent', havoids'⟩ := ih (seqNext (seqAt 1 j)) _ hspent
      exact ⟨hspent', havoids.append havoids'⟩

theorem processBufferedPackets_keepsSpent (me : Identity) :
    Obeys (KeepsSpent senderId convId ls i x) (processBufferedPackets C me senderId) := by
  unfold processBufferedPackets
  refine Obeys.get_bind fun s => ?_
  split
  · exact Obeys.pure keepsSpent_comp _
  · exact drainBuffer_keepsSpent hC hn hidx hstream hx me _ _

/-- **One arrival.** -/
theorem handleMessage_keepsSpent (me : Identity) {j : ℕ} {l : Link} (hl : ls[j]? = some l) {s : Client}
    (hs : Spent senderId convId ls x s) :
    Spent senderId convId ls x (handleMessage C me l.enc.buf s).state ∧
      Avoids senderId (seqAt 1 i) (handleMessage C me l.enc.buf s).output := by
  obtain ⟨m, henc⟩ := hstream.encodes (by decide) hl
  obtain ⟨hstate, houtput⟩ := handleMessage_link me hC henc s
  have hof_core : ∀ {t u : Client}, u.core = t.core → Spent senderId convId ls x t →
      Spent senderId convId ls x u := by
    intro t u hcore ht
    exact (keepsSpent_of_leaves (i := i)
      ((leavesStream_background senderId).bookkeeping t u hcore) ht).1
  have hs' := hof_core (noteSeen_core s senderId (seqAt 1 j)) hs
  generalize s.noteSeen senderId (seqAt 1 j) = s' at hs' hstate houtput
  rw [hstate, houtput, routeData, get_bind]
  split
  · exact ⟨hs', Avoids.of_nothing rfl⟩
  · split
    · obtain ⟨hcore, hstored, -⟩ := @bufferAhead_run C me l.enc.buf convId senderId (seqAt 1 j)
        (dataAhead s' senderId (seqAt 1 j)) s'
      refine ⟨hof_core hcore ⟨hs'.chain, ?_⟩, Avoids.of_nothing ?_⟩
      · intro q raw hraw
        rw [get₂_set₂] at hraw
        split at hraw
        · rename_i hq
          exact ⟨j, l, hl, hq.2.symm, (Option.some.inj hraw).symm⟩
        · exact hs'.buffer q raw hraw
      · rw [storedLog, hstored]
        rfl
    · rw [acceptNext, decryptDataInOrder_bind]
      rcases hopen : DartProtocol.openData C s' l.enc.buf senderId with _ | _ | ⟨dec, t⟩
      · exact ⟨hs', Avoids.of_nothing rfl⟩
      · exact ⟨hs', Avoids.of_nothing rfl⟩
      · obtain ⟨hother, ht⟩ := hs'.openData hC hn hidx hstream hx hl hopen
        exact Obeys.bind keepsSpent_comp (processDataPacket_keepsSpent dec hother)
          (fun _ => processBufferedPackets_keepsSpent hC hn hidx hstream hx me) t ht

theorem eventLoop_keepsSpent (me : Identity) (is : List ℕ) :
    ∀ {s : Client}, (∀ j ∈ is, j < ls.length) → Spent senderId convId ls x s →
      Avoids senderId (seqAt 1 i)
        (Prog.eventLoop (handleMessage C me) (is.map (datagram ls)) s).output := by
  induction is with
  | nil =>
    intro s _ _
    exact Avoids.of_nothing rfl
  | cons j is ih =>
    intro s hlt hs
    obtain ⟨l, hl⟩ : ∃ l, ls[j]? = some l :=
      ⟨_, List.getElem?_eq_getElem (hlt j List.mem_cons_self)⟩
    have hbuf : datagram ls j = l.enc.buf := by rw [datagram, hl]
    obtain ⟨hspent, havoids⟩ := handleMessage_keepsSpent hC hn hidx hstream hx me hl hs
    rw [List.map_cons, hbuf, eventLoop_cons, prepend_output]
    exact havoids.append (ih (fun k hk => hlt k (List.mem_cons_of_mem _ hk)) hspent)

/-- **A later dart first.**  When a dart beyond the window meets a fresh receiver, the darts are not
stored in order, whatever else arrives. -/
theorem Fresh.late_first (hi : DICT_WINDOW ≤ i) {r : Client}
    {held : Finset ℕ} (h : Fresh C senderId convId m₀ ls r held) {is : List ℕ}
    (hlt : ∀ j ∈ is, j < ls.length) :
    storedDarts (Prog.eventLoop (handleMessage C me) ((i :: is).map (datagram ls)) r).output
      ≠ ls.map fun l => l.enc.dart := by
  obtain ⟨m, henc⟩ := hstream.encodes (by decide) hx
  have hilt : i < ls.length := (List.getElem?_eq_some_iff.mp hx).1
  have hbuf : datagram ls i = x.enc.buf := by rw [datagram, hx]
  have h' := h.of_core (noteSeen_core r senderId (seqAt 1 i))
  have hahead : dataAhead (r.noteSeen senderId (seqAt 1 i)) senderId (seqAt 1 i) = 1 := by
    rw [h'.dataAhead_eq, seqAt_one (by unfold SEQ_MOD at *; omega), if_neg (by omega)]
  obtain ⟨hstate, houtput⟩ := handleMessage_link me hC henc r
  rw [List.map_cons, hbuf, eventLoop_cons, prepend_output, storedDarts_append, hstate,
    houtput, routeData, get_bind]
  simp only [hahead]
  rw [if_neg (by decide), if_neg (by decide)]
  generalize r.noteSeen senderId (seqAt 1 i) = r' at h'
  -- the dart decrypts, and its key is used up
  have hreach : Reaches C senderId convId r' x := h'.sync.chains x (List.mem_of_getElem? hx)
  have hspent : Spent senderId convId ls x
      (r'.setChain convId x.enc.epoch senderId (chainAfter C x)) := by
    refine ⟨⟨_, Client.getChain_setChain_self .., Nat.lt_succ_self _⟩, ?_⟩
    intro q raw hraw
    obtain ⟨j, l, -, hl, hq, hr⟩ := (h'.sync.buffer q raw).mp hraw
    exact ⟨j, l, hl, hq, hr⟩
  rw [acceptNext, decryptDataInOrder_bind,
    openData_link hC henc (hidx x (List.mem_of_getElem? hx)) hreach]
  simp only
  generalize r'.setChain convId x.enc.epoch senderId (chainAfter C x) = t at hspent
  intro hall
  rcases processDataPacket_cases (decryptedLink C senderId convId (seqAt 1 i) x) senderId
    (seqAt 1 i) t with hleaves | ⟨dict, payload, -, -, hstored, -⟩
  · -- it is not stored now, and never will be
    have hprocess : ObeysAt (KeepsSpent senderId convId ls i x)
        (processDataPacket C me (decryptedLink C senderId convId (seqAt 1 i) x) senderId
          (seqAt 1 i)) t := keepsSpent_of_leaves hleaves
    obtain ⟨hspent', havoids⟩ := ObeysAt.bind keepsSpent_comp hprocess
      (fun _ _ => processBufferedPackets_keepsSpent hC hn hidx hstream hx me _) hspent
    have hrest := eventLoop_keepsSpent hC hn hidx hstream hx me is hlt hspent'
    have hmem : x.enc.dart ∈ ls.map fun l => l.enc.dart :=
      List.mem_map_of_mem (List.mem_of_getElem? hx)
    rw [← hall, ← storedDarts_append] at hmem
    refine havoids.append hrest (x.enc.dart.seq, x.enc.dart.payload) ?_ henc.seq
    rw [storedLog]
    refine List.mem_map.mpr ⟨x.enc.dart, List.mem_filter.mpr ⟨hmem, ?_⟩, rfl⟩
    rw [henc.senderId]
    exact decide_eq_true rfl
  · -- it is stored at once, before the first one
    obtain ⟨rest, hout⟩ : ∃ rest, ((do
        processDataPacket C me (decryptedLink C senderId convId (seqAt 1 i) x) senderId (seqAt 1 i)
        processBufferedPackets C me senderId : ClientProg Unit) t).output
          = [.checked dict, .stored ⟨TYPE_DATA, convId, senderId, seqAt 1 i, payload⟩] ++ rest := by
      rw [show (decryptedLink C senderId convId (seqAt 1 i) x).convId = convId from rfl] at hstored
      rw [← hstored]
      cases hres : (processDataPacket C me (decryptedLink C senderId convId (seqAt 1 i) x) senderId
          (seqAt 1 i) t).result with
      | none => exact ⟨[], by rw [bind_of_none hres, List.append_nil]⟩
      | some u => exact ⟨_, by rw [bind_of_some hres]; rfl⟩
    rw [hout] at hall
    obtain ⟨l, hl⟩ : ∃ l, ls[0]? = some l := ⟨_, List.getElem?_eq_getElem (by omega)⟩
    obtain ⟨m', henc'⟩ := hstream.encodes (by decide) hl
    have hfirst := congrArg (fun ds => ds[0]?) hall
    simp only [List.getElem?_map, hl] at hfirst
    have hdart : (⟨TYPE_DATA, convId, senderId, seqAt 1 i, payload⟩ : DataDart) = l.enc.dart :=
      Option.some.inj hfirst
    have hseq : seqAt 1 i = seqAt 1 0 := by rw [← henc'.seq, ← hdart]
    have hzero : i = 0 := seqAt_inj (by omega) (by unfold SEQ_MOD; omega) hseq
    unfold DICT_WINDOW at hi
    omega

end Arrivals

/-- **Arrivals out of time.**  Darts of the first `200` are held until a later one comes. -/
theorem Fresh.eventLoop_late (hC : C.Lawful)
    (hn : ls.length < SEQ_MOD / 2) (hidx : ∀ l ∈ ls, l.enc.idx < 2 ^ 32)
    (hstream : Stream C senderId convId m₀ 1 ls) (is : List ℕ) :
    ∀ {r : Client} {held : Finset ℕ}, Fresh C senderId convId m₀ ls r held →
      (∀ i ∈ is, i < ls.length) → ¬ FirstInTime is →
      storedDarts (Prog.eventLoop (handleMessage C me) (is.map (datagram ls)) r).output
        ≠ ls.map fun l => l.enc.dart := by
  induction is with
  | nil =>
    intro r held _ _ hlate
    refine absurd ?_ hlate
    intro before i after hnil
    cases before <;> cases hnil
  | cons i is ih =>
    intro r held h hlt hlate
    obtain ⟨l, hl⟩ : ∃ l, ls[i]? = some l :=
      ⟨_, List.getElem?_eq_getElem (hlt i List.mem_cons_self)⟩
    have hrest : ∀ j ∈ is, j < ls.length := fun j hj => hlt j (List.mem_cons_of_mem _ hj)
    by_cases hi : DICT_WINDOW ≤ i
    · exact h.late_first hC hn hidx hstream hl hi hrest
    · have hzero : i ≠ 0 := by
        rintro rfl
        refine hlate ?_
        intro before j after his hj
        cases before with
        | nil =>
          rw [List.nil_append] at his
          rw [← (List.cons.inj his).1] at hj
          exact absurd hj hi
        | cons k before => exact (List.cons.inj his).1 ▸ List.mem_cons_self
      have hbuf : datagram ls i = l.enc.buf := by rw [datagram, hl]
      obtain ⟨hfresh, hstored, -⟩ := h.hold me hC hn hstream hl (Nat.pos_of_ne_zero hzero)
        (Nat.not_le.mp hi)
      rw [List.map_cons, hbuf, eventLoop_cons, prepend_output, storedDarts_append,
        hstored, List.nil_append]
      refine ih hfresh hrest ?_
      intro htime
      refine hlate ?_
      intro before j after his hj
      cases before with
      | nil =>
        rw [List.nil_append] at his
        rw [← (List.cons.inj his).1] at hj
        exact absurd hj hi
      | cons k before =>
        exact List.mem_cons_of_mem _ (htime before j after (List.cons.inj his).2 hj)

/-! ### The theorem -/

/-- **First contact.**  A sender that has not sent before makes a run of successful sends in one
conversation, through any epochs.  A receiver in any reachable state that has heard nothing of the
sender's stream, and for each epoch has a chain state not beyond its first dart, handles the datagrams
in any order `is` with any repetitions, dart `1` being at position `0`.  It stores all darts in order,
and sends no Dict-Reset, exactly when dart `1` arrives before every dart beyond the first `200`. -/
theorem first_contact_iff {C : Crypto} (hC : C.Lawful) {S R : Identity} (hS : S.Lawful)
    (hne : S.senderId ≠ R.senderId) {convId : ℕ} {before sends earlier : List Event}
    (hsends : SendsIn C S convId (stateAfter C S before) sends)
    (hfirst : (stateAfter C S before).nextSeq = 1)
    (hunsent : (stateAfter C S before).sentMessages = ∅)
    (hn : (payloadsOf sends).length < 2 ^ 23)
    (hidx : ∀ l ∈ linksOf C S (stateAfter C S before) sends, l.enc.idx < 2 ^ 32)
    (hfresh : (stateAfter C R earlier).highestReceivedSeq.get S.senderId = none)
    (hbuf : ∀ q, get₂ (stateAfter C R earlier).outOfOrderBuffer S.senderId q = none)
    (hchain : ∀ i l, FirstOfEpoch (linksOf C S (stateAfter C S before) sends) i l →
      Reaches C S.senderId convId (stateAfter C R earlier) l)
    {is : List ℕ} (hall : ∀ i, i ∈ is ↔ i < (payloadsOf sends).length) :
    (storedDarts (Prog.eventLoop (handleMessage C R)
          (is.map (datagram (linksOf C S (stateAfter C S before) sends)))
          (stateAfter C R earlier)).output
        = dartsFrom S.senderId convId 1 (payloadsOf sends) ∧
      ∀ frame ∈ framesOf (Prog.eventLoop (handleMessage C R)
          (is.map (datagram (linksOf C S (stateAfter C S before) sends)))
          (stateAfter C R earlier)).output,
        frame.readUInt8 0 ≠ some TYPE_DICT_RESET) ↔
      FirstInTime is := by
  have hstream := stream_of_sends hS sends (wellFormed_stateAfter C S before) hsends
  have hpay := payloads_linksOf sends hsends
  rw [hfirst, hunsent] at hstream
  generalize linksOf C S (stateAfter C S before) sends = ls at *
  have hlen : ls.length = (payloadsOf sends).length := by rw [← hpay, List.length_map]
  have hn' : ls.length < SEQ_MOD / 2 := by
    rw [hlen]
    exact hn
  have hlt : ∀ i ∈ is, i < ls.length := fun i hi => hlen ▸ (hall i).mp hi
  have hstart := fresh_start (wellFormed_stateAfter C R earlier) (based_stateAfter earlier) hstream
    hfresh hbuf hchain
  have hdarts : dartsFrom S.senderId convId 1 (payloadsOf sends) = ls.map fun l => l.enc.dart := by
    rw [hstream.darts_eq (by decide), hpay]
  rw [hdarts]
  constructor
  · rintro ⟨hstored, -⟩
    by_contra hlate
    exact hstart.eventLoop_late hC hn' hidx hstream is hlt hlate hstored
  · intro htime
    cases is with
    | nil =>
      have hzero : ls = [] := by
        rw [← List.length_eq_zero_iff, hlen]
        by_contra hpos
        exact absurd ((hall 0).mpr (Nat.pos_of_ne_zero hpos)) List.not_mem_nil
      rw [hzero]
      exact ⟨rfl, fun frame hframe => absurd hframe List.not_mem_nil⟩
    | cons i is =>
      have hmem : 0 ∈ i :: is := by
        have hi := (hall i).mp List.mem_cons_self
        exact (hall 0).mpr (by omega)
      obtain ⟨hlog, hframes⟩ := hstart.eventLoop hC hne hn' hidx hstream (i :: is)
        (Finset.notMem_empty 0) hlt htime hmem
      have hcover : ∀ j, j ∈ i :: is ↔ j < ls.length := fun j => by rw [hall j, hlen]
      rw [HandedOn, Reassembly.run_complete (Nat.zero_le _) hcover, List.take_length] at hlog
      refine ⟨hlog, fun frame hframe htype => ?_⟩
      rw [hframes frame hframe] at htype
      cases htype

/-! ### Runs -/

/-- A send goes through when there is a chain and the fields of the dart fit. -/
theorem linksAt_of_chain (hC : C.Lawful) (hme : me.Lawful) {s : Client} {chain : ChainState}
    (hchain : s.getChain convId (s.sendingEpoch convId) me.senderId = some chain)
    (hconv : convId < 65536) (hsender : me.senderId < 65536)
    (hepoch : s.sendingEpoch convId < 65536) (payload : String) :
    linksAt C me (.sendData convId payload) s ≠ [] := by
  have hfits : Codec.DataFits (sentDart me convId payload s) (advanceChain C chain chain.index).1
      (s.sendingEpoch convId) :=
    ⟨show TYPE_DATA < 256 by decide, hconv, hsender, hepoch, hC.hmac_length _ _⟩
  rw [linksAt]
  simp only [hchain]
  rw [(sendData_run C payload hchain).2, Codec.encodeDataHelper_eq hC (hme s.draws 12) hfits]
  exact List.cons_ne_nil _ _

/-- **Any number of sends** on one chain. -/
theorem sendsIn_texts (hC : C.Lawful) (hme : me.Lawful) (hconv : convId < 65536)
    (hsender : me.senderId < 65536) {epoch : ℕ} (hepoch : epoch < 65536) (texts : List String) :
    ∀ {s : Client} {chain : ChainState}, s.sendingEpoch convId = epoch →
      s.getChain convId epoch me.senderId = some chain →
      SendsIn C me convId s (texts.map (Event.sendData convId)) ∧
        ∀ l ∈ linksOf C me s (texts.map (Event.sendData convId)),
          l.enc.epoch = epoch ∧ chain.index ≤ l.enc.idx ∧ l.enc.idx < chain.index + texts.length ∧
            l.chainKey = chainSteps C (l.enc.idx - chain.index) chain.key := by
  induction texts with
  | nil =>
    intro s chain _ _
    exact ⟨trivial, fun l hl => absurd hl List.not_mem_nil⟩
  | cons text texts ih =>
    intro s chain hsending hchain
    rw [← hsending] at hchain
    have hlinks := linksAt_of_chain hC hme hchain hconv hsender (hsending ▸ hepoch) text
    obtain ⟨hsending', hchain'⟩ := getChain_after_send C text hchain
    obtain ⟨ihsends, ihlinks⟩ := ih (hsending'.trans hsending) (hsending ▸ hchain')
    refine ⟨⟨Or.inl ⟨text, rfl, hlinks⟩, ihsends⟩, ?_⟩
    intro l hl
    rw [List.map_cons, linksOf, List.mem_append] at hl
    rcases hl with hl | hl
    · obtain ⟨chain₁, buf, hget, -, heq⟩ := linksAt_send hlinks
      rw [heq, List.mem_singleton] at hl
      obtain rfl : chain = chain₁ := Option.some.inj (hchain.symm.trans hget)
      rw [hl]
      refine ⟨hsending, Nat.le_refl _, ?_, ?_⟩
      · show chain.index < chain.index + (texts.length + 1)
        omega
      · show chain.key = chainSteps C (chain.index - chain.index) chain.key
        rw [Nat.sub_self]
        rfl
    · obtain ⟨he, hge, hlt, hkey⟩ := ihlinks l hl
      have hge : chain.index + 1 ≤ l.enc.idx := hge
      have hlt : l.enc.idx < chain.index + 1 + texts.length := hlt
      refine ⟨he, by omega, ?_, ?_⟩
      · show l.enc.idx < chain.index + (texts.length + 1)
        omega
      · rw [hkey, show l.enc.idx - chain.index = l.enc.idx - (chain.index + 1) + 1 by omega]
        rfl

/-- The founder, client 1, of a conversation of two. -/
def founded : List Event := [.message (sumMemberInfo 5 1 true [1, 2])]

/-- Client 2 has joined, and got the key and the chain of the founder. -/
def joined : List Event :=
  .message (sumMemberInfo 5 2 false [1, 2]) ::
    (framesOf (outputsOf sumCrypto (sumIdentity 1) founded)).map .message

/-- The darts that the founder makes of some texts. -/
def foundersLinks (texts : List String) : List Link :=
  linksOf sumCrypto (sumIdentity 1) (stateAfter sumCrypto (sumIdentity 1) founded)
    (texts.map (Event.sendData 5))

/-- What client 2 puts out when it handles them in some order. -/
def contactOutput (texts : List String) (is : List ℕ) : List Output :=
  (Prog.eventLoop (handleMessage sumCrypto (sumIdentity 2)) (is.map (datagram (foundersLinks texts)))
    (stateAfter sumCrypto (sumIdentity 2) joined)).output

theorem payloadsOf_texts (c : ℕ) (texts : List String) :
    payloadsOf (texts.map (Event.sendData c)) = texts := by
  induction texts with
  | nil => rfl
  | cons text texts ih =>
    rw [payloadsOf] at ih
    rw [List.map_cons, payloadsOf, List.filterMap_cons, ih]

theorem contact_start :
    let s := stateAfter sumCrypto (sumIdentity 1) founded
    let r := stateAfter sumCrypto (sumIdentity 2) joined
    (s.nextSeq = 1 ∧ s.sentMessages = ∅ ∧ s.sendingEpoch 5 = 1 ∧
        (s.getChain 5 1 1).map (fun chain => chain.index) = some 0) ∧
      r.getChain 5 1 1 = s.getChain 5 1 1 ∧ r.highestReceivedSeq.get 1 = none ∧
        r.outOfOrderBuffer = ∅ := by
  decide +kernel

theorem founders_sends (texts : List String) :
    SendsIn sumCrypto (sumIdentity 1) 5 (stateAfter sumCrypto (sumIdentity 1) founded)
        (texts.map (Event.sendData 5)) ∧
      ∀ l ∈ foundersLinks texts, l.enc.idx < texts.length ∧
        Reaches sumCrypto 1 5 (stateAfter sumCrypto (sumIdentity 2) joined) l := by
  obtain ⟨⟨-, -, hepoch, hindex⟩, hsame, -⟩ := contact_start
  obtain ⟨chain, hchain, hzero⟩ := Option.map_eq_some_iff.mp hindex
  obtain ⟨hsends, hlinks⟩ := sendsIn_texts sumCrypto_lawful (sumIdentity_lawful 1)
    (show 5 < 65536 by decide) (show (sumIdentity 1).senderId < 65536 by decide)
    (show 1 < 65536 by decide) texts hepoch hchain
  refine ⟨hsends, ?_⟩
  intro l hl
  obtain ⟨hl, hge, hlt, hkey⟩ := hlinks l hl
  refine ⟨by omega, chain, ?_, hge, hkey⟩
  rw [hl, hsame]
  exact hchain

/-- Two darts, the second one first and once more at the end. -/
theorem first_contact_reordered :
    storedDarts (contactOutput ["a", "b"] [1, 0, 1])
        = [⟨TYPE_DATA, 5, 1, 1, "a"⟩, ⟨TYPE_DATA, 5, 1, 2, "b"⟩] ∧
      ∀ frame ∈ framesOf (contactOutput ["a", "b"] [1, 0, 1]),
        frame.readUInt8 0 ≠ some TYPE_DICT_RESET := by
  obtain ⟨hsends, hlinks⟩ := founders_sends ["a", "b"]
  obtain ⟨⟨hfirst, hunsent, -, -⟩, -, hfresh, hbuf⟩ := contact_start
  refine (first_contact_iff (R := sumIdentity 2) sumCrypto_lawful (sumIdentity_lawful 1) (by decide)
    hsends hfirst hunsent (by decide)
    (fun l hl => Nat.lt_trans (hlinks l hl).1 (by decide)) hfresh
    (fun q => by rw [hbuf]; rfl) (fun i l hl => (hlinks l (List.mem_of_getElem? hl.1)).2) ?_).mpr ?_
  · intro i
    rw [payloadsOf_texts]
    show i ∈ [1, 0, 1] ↔ i < 2
    simp
    omega
  · intro before i after his hi
    have hmem : i ∈ [1, 0, 1] := his ▸ List.mem_append_right before List.mem_cons_self
    have hle : ∀ j ∈ [1, 0, 1], j < DICT_WINDOW := by decide
    exact absurd (hle i hmem) (Nat.not_lt.mpr hi)

theorem contact_late {texts : List String} {is : List ℕ} (hn : texts.length < 2 ^ 23)
    (hlt : ∀ i ∈ is, i < texts.length) (hlate : ¬ FirstInTime is) :
    storedDarts (contactOutput texts is) ≠ dartsFrom 1 5 1 texts := by
  obtain ⟨hsends, hlinks⟩ := founders_sends texts
  obtain ⟨⟨hfirst, hunsent, -, -⟩, -, hfresh, hbuf⟩ := contact_start
  have hstream := stream_of_sends (sumIdentity_lawful 1) _
    (wellFormed_stateAfter sumCrypto (sumIdentity 1) founded) hsends
  rw [hfirst, hunsent] at hstream
  have hpay := payloads_linksOf _ hsends
  rw [payloadsOf_texts] at hpay
  have hlen : (foundersLinks texts).length = texts.length := by
    have h := congrArg List.length hpay
    rw [List.length_map] at h
    exact h
  have hstart := fresh_start (wellFormed_stateAfter sumCrypto (sumIdentity 2) joined)
    (based_stateAfter joined) hstream hfresh
    (fun q => by rw [hbuf]; rfl) fun i l hl => (hlinks l (List.mem_of_getElem? hl.1)).2
  have hdarts := hstream.darts_eq (by decide)
  rw [hpay] at hdarts
  show _ ≠ dartsFrom (sumIdentity 1).senderId 5 1 texts
  rw [← hdarts]
  refine hstart.eventLoop_late sumCrypto_lawful (by rw [← hlen] at hn; exact hn)
    (fun l hl => Nat.lt_trans (hlinks l hl).1 (by omega)) hstream is ?_ hlate
  intro i hi
  exact hlen ▸ hlt i hi

/-- **Dart 201 comes first.**  Whatever comes after it, here all `201` darts in order, they are not
stored in order. -/
theorem late_dart_breaks_contact :
    storedDarts (contactOutput (List.replicate 201 "a") (200 :: List.range 201))
      ≠ dartsFrom 1 5 1 (List.replicate 201 "a") := by
  refine contact_late (by rw [List.length_replicate]; decide) ?_ ?_
  · intro i hi
    rw [List.length_replicate]
    rcases List.mem_cons.mp hi with rfl | hi
    · decide
    · exact List.mem_range.mp hi
  · intro htime
    exact absurd (htime [] 200 (List.range 201) rfl (by decide)) List.not_mem_nil

end DartProtocol
