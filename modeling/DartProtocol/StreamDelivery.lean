import DartProtocol.ControlFrames
import DartProtocol.StreamReceive

/-!
# Delivery under reordering and duplication

The two ends of a stream put together.  A sender makes a run of sends in one conversation; the
receiver is in step with it and then handles the original datagrams in any order and any number of
times.  `handleMessage_sync` shows that one datagram does to the client what one arrival does to the
abstract receiver, so that the order and exactly-once facts of `Reassembly` carry over.

* `handleMessage_sync` — one arrival follows `Reassembly.receive`;
* `eventLoop_sync` — any list of arrivals follows `Reassembly.run`;
* `inSync_start` — a receiver that agrees with the sender on the window is in step;
* `delivery_in_order_exactly_once` — every dart is stored once, in order, with its payload.
-/

namespace DartProtocol

open Prog Outcome

variable {C : Crypto} {me : Identity} {senderId convId a : ℕ} {ls : List Link}
  {m₀ : NumMap DataDart}

/-! ### One arrival -/

variable {r : Client} {st : Reassembly} {l : Link} {m : NumMap DataDart} {bufs : List Buffer}

theorem InSync.hold (hn : ls.length < SEQ_MOD / 2)
    (h : InSync C senderId convId m₀ a ls r st) {i : ℕ} (hl : ls[i]? = some l)
    (hi : st.next ≤ i) :
    InSync C senderId convId m₀ a ls
      { r with outOfOrderBuffer := set₂ r.outOfOrderBuffer senderId (seqAt a i) l.enc.buf }
      ⟨st.next, insert i st.held⟩ := by
  have hilt : i < ls.length := (List.getElem?_eq_some_iff.mp hl).1
  refine h.with_buffer ?_ ?_ ?_
  · intro j hj
    rcases Finset.mem_insert.mp hj with rfl | hj
    · exact hilt
    · exact h.held_lt j hj
  · intro j hj
    rcases Finset.mem_insert.mp hj with rfl | hj
    · exact hi
    · exact h.held_ge j hj
  · intro q raw
    rw [get₂_set₂]
    by_cases hq : seqAt a i = q
    · rw [if_pos ⟨rfl, hq⟩]
      constructor
      · intro hraw
        exact ⟨i, l, Finset.mem_insert_self _ _, hl, hq.symm, (Option.some.inj hraw).symm⟩
      · rintro ⟨j, l', hj, hl', hqj, hraw⟩
        have hjlt : j < ls.length := (List.getElem?_eq_some_iff.mp hl').1
        have hij : i = j := seqAt_inj (by omega) (by omega) (hq.trans hqj)
        rw [← hij, hl] at hl'
        rw [hraw, Option.some.inj hl']
    · rw [if_neg fun hc => hq hc.2, h.buffer]
      constructor
      · rintro ⟨j, l', hj, hrest⟩
        exact ⟨j, l', Finset.mem_insert_of_mem hj, hrest⟩
      · rintro ⟨j, l', hj, hl', hqj, hraw⟩
        rcases Finset.mem_insert.mp hj with rfl | hj
        · exact absurd hqj.symm hq
        · exact ⟨j, l', hj, hl', hqj, hraw⟩

theorem InSync.dataAhead_eq (h : InSync C senderId convId m₀ a ls r st)
    (q : ℕ) : dataAhead r senderId q = seqDelta (seqBack (seqAt a st.next) 1) q := by
  have hhas : r.highestReceivedSeq.has senderId = true :=
    InsertionMap.has_iff.mpr ⟨_, h.highest⟩
  rw [dataAhead, if_pos hhas, h.highest, orDefault_zero, Option.getD_some]

/-- `handleMessage` reads the header of a dart of the stream and goes on to the gap test. -/
theorem handleMessage_link (me : Identity) (hC : C.Lawful) {q : ℕ}
    (henc : l.Encodes C senderId convId m q) (r : Client) :
    (handleMessage C me l.enc.buf r).state
        = (routeData C me l.enc.buf convId senderId q (r.noteSeen senderId q)).state ∧
      (handleMessage C me l.enc.buf r).output
        = (routeData C me l.enc.buf convId senderId q (r.noteSeen senderId q)).output := by
  have hdr := henc.header hC
  have htype : l.enc.buf.readUInt8 0 = some TYPE_DATA := by rw [hdr.type, henc.type]
  have hconv : l.enc.buf.readUInt16BE 1 = some convId := by rw [hdr.convId, henc.convId]
  have hsender : l.enc.buf.readUInt16BE 7 = some senderId := by rw [hdr.senderId, henc.senderId]
  have hdata : dispatch C me l.enc.buf = handleData C me l.enc.buf := by
    unfold dispatch
    rw [htype, ofOption_some_bind, handlerOf, if_pos rfl]
  have hhandle : handleData C me l.enc.buf r
      = routeData C me l.enc.buf convId senderId q (r.noteSeen senderId q) := by
    unfold handleData
    rw [hconv, henc.read_seq hC, hdr.extLen, hsender]
    simp only [ofOption_some_bind]
    rw [if_neg (by decide), modify_bind]
  unfold handleMessage
  rw [attempt_bind, hdata, hhandle]
  refine ⟨rfl, ?_⟩
  rw [prepend_output]
  exact List.append_nil _

theorem nackMissing_silent (convId senderId : ℕ) (missing : List ℕ)
    (r : Client) :
    Silent r (nackMissing C me convId senderId missing r).output
      (nackMissing C me convId senderId missing r).state :=
  nackMissing_obeys silent_background convId senderId missing r

theorem nackMissing_frames {convId senderId : ℕ} {missing : List ℕ} {frame : Buffer}
    (h : frame ∈ framesOf (nackMissing C me convId senderId missing r).output) :
    frame.readUInt8 0 = some TYPE_NACK := by
  unfold nackMissing at h
  split at h
  · exact absurd h List.not_mem_nil
  · have hsent : frame ∈ framesOf (sendNack C me convId senderId missing r).output := by
      cases hres : (sendNack C me convId senderId missing r).result with
      | none =>
        rw [bind_of_none hres] at h
        exact h
      | some u =>
        rw [bind_of_some hres, prepend_output] at h
        have hquiet : framesOf (scheduleNackRetry convId senderId
            (sendNack C me convId senderId missing r).state).output = [] := rfl
        rw [framesOf, List.filterMap_append, ← framesOf, ← framesOf, hquiet, List.append_nil] at h
        exact h
    obtain ⟨_, _, buf, macKey, _, _, hbuf, _, rfl⟩ := mem_frames_sendControl hsent
    exact read_type_nack hbuf macKey

/-- **A dart beyond a gap is buffered**: nothing else that matters changes, nothing is stored, and only
NACKs go out. -/
theorem bufferAhead_run (buf : Buffer) (convId senderId q ahead : ℕ)
    (r : Client) :
    (bufferAhead C me buf convId senderId q ahead r).state.core
        = { r with outOfOrderBuffer := set₂ r.outOfOrderBuffer senderId q buf }.core ∧
      storedDarts (bufferAhead C me buf convId senderId q ahead r).output = [] ∧
      ∀ frame ∈ framesOf (bufferAhead C me buf convId senderId q ahead r).output,
        frame.readUInt8 0 = some TYPE_NACK := by
  unfold bufferAhead
  rw [modify_bind, get_bind]
  obtain ⟨hcore, houtput⟩ := @nackMissing_silent C me convId senderId
    ((seqsAfter (orDefault (r.highestReceivedSeq.get senderId) 0) (ahead - 1)).filter (isMissing
      { r with outOfOrderBuffer := set₂ r.outOfOrderBuffer senderId q buf } senderId))
    { r with outOfOrderBuffer := set₂ r.outOfOrderBuffer senderId q buf }
  exact ⟨hcore, storedDarts_of_broadcasts houtput, fun frame hframe => nackMissing_frames hframe⟩

/-- **The next dart is delivered**, with every held dart that directly follows. -/
theorem acceptNext_sync (hC : C.Lawful) (hne : senderId ≠ me.senderId) (hn : ls.length < SEQ_MOD / 2)
    (hidx : ∀ l ∈ ls, l.enc.idx < 2 ^ 32) {k : ℕ} {held : Finset ℕ}
    (hl : ls[k]? = some l)
    (hdec : decryptDataInOrder C l.enc.buf senderId r
      = ⟨some (some (decryptedLink C senderId convId (seqAt a k) l)),
          r.setChain convId l.enc.epoch senderId (chainAfter C l), []⟩)
    (hproc : processDataPacket C me (decryptedLink C senderId convId (seqAt a k) l) senderId
        (seqAt a k) (r.setChain convId l.enc.epoch senderId (chainAfter C l))
      = ⟨some (), afterLink C senderId convId l r, [.checked l.enc.dict, .stored l.enc.dart]⟩)
    (hdeliver : InSync C senderId convId m₀ a ls (afterLink C senderId convId l r) ⟨k + 1, held⟩) :
    InSync C senderId convId m₀ a ls (acceptNext C me l.enc.buf senderId (seqAt a k) r).state
        (Reassembly.release held.card ⟨k + 1, held⟩) ∧
      HandedOn ls ⟨k, held⟩ (Reassembly.release held.card ⟨k + 1, held⟩)
        (acceptNext C me l.enc.buf senderId (seqAt a k) r).output ∧
      framesOf (acceptNext C me l.enc.buf senderId (seqAt a k) r).output = [] := by
  obtain ⟨hsync, hlog, hframes⟩ := processBufferedPackets_sync hC hne hn hidx hdeliver
  have hrun : acceptNext C me l.enc.buf senderId (seqAt a k) r
      = (processBufferedPackets C me senderId (afterLink C senderId convId l r)).prepend
          [.checked l.enc.dict, .stored l.enc.dart] := by
    unfold acceptNext
    rw [bind_of_some (a := some (decryptedLink C senderId convId (seqAt a k) l))
      (by rw [hdec]), hdec]
    simp only [prepend_nil]
    rw [bind_of_some (a := ()) (by rw [hproc]), hproc]
  rw [hrun]
  exact ⟨hsync, (HandedOn.next hl l.enc.dict).trans hlog, hframes⟩

/-- **One arrival.**  An older dart is dropped, a later one is held, the next one is delivered with
everything that directly follows it. -/
theorem handleMessage_sync (hC : C.Lawful) (hne : senderId ≠ me.senderId)
    (hn : ls.length < SEQ_MOD / 2) (hidx : ∀ l ∈ ls, l.enc.idx < 2 ^ 32)
    (ha : a < SEQ_MOD) (hstream : Stream C senderId convId m₀ a ls)
    (hsettled : st.Settled) (h : InSync C senderId convId m₀ a ls r st) {i : ℕ}
    (hl : ls[i]? = some l) :
    InSync C senderId convId m₀ a ls (handleMessage C me l.enc.buf r).state (Reassembly.receive i st) ∧
      HandedOn ls st (Reassembly.receive i st) (handleMessage C me l.enc.buf r).output ∧
      ∀ frame ∈ framesOf (handleMessage C me l.enc.buf r).output,
        frame.readUInt8 0 = some TYPE_NACK := by
  obtain ⟨m, henc⟩ := hstream.encodes ha hl
  have hilt : i < ls.length := (List.getElem?_eq_some_iff.mp hl).1
  have hnext : st.next ≤ ls.length := h.next_le
  have h' : InSync C senderId convId m₀ a ls (r.noteSeen senderId (seqAt a i)) st :=
    h.of_core (noteSeen_core r _ _)
  obtain ⟨hstate, houtput⟩ := handleMessage_link me hC henc r
  rw [hstate, houtput]
  unfold routeData
  rw [get_bind]
  simp only [h'.dataAhead_eq]
  rcases Nat.lt_or_ge i st.next with hlt | hge
  · -- handed on before
    have hstale := stale_of_lt (a := a) hlt (show st.next < SEQ_MOD / 2 by omega)
    rw [if_pos hstale, Reassembly.receive, if_pos hlt]
    exact ⟨h', HandedOn.refl st, fun frame hframe => absurd hframe List.not_mem_nil⟩
  · have hahead : seqDelta (seqBack (seqAt a st.next) 1) (seqAt a i) = i + 1 - st.next :=
      ahead_of_le hge (by unfold SEQ_MOD at *; omega)
    rw [hahead, if_neg (by unfold SEQ_MOD at *; omega), Reassembly.receive,
      if_neg (Nat.not_lt.mpr hge)]
    rcases Nat.lt_or_ge st.next i with hgt | hle
    · -- beyond a gap
      rw [if_pos (show 1 < i + 1 - st.next by omega), if_pos hgt]
      obtain ⟨hcore, hstored, hframes⟩ := @bufferAhead_run C me l.enc.buf convId senderId (seqAt a i)
        (i + 1 - st.next) (r.noteSeen senderId (seqAt a i))
      refine ⟨(h'.hold hn hl hge).of_core hcore, ?_, hframes⟩
      unfold HandedOn
      rw [hstored, List.append_nil]
    · -- the next one
      have hik : i = st.next := Nat.le_antisymm hle hge
      subst hik
      rw [if_neg (show ¬ 1 < st.next + 1 - st.next by omega), if_neg (Nat.lt_irrefl _)]
      have hk : st.next ∉ st.held := fun hmem => Nat.lt_irrefl _ (hsettled _ hmem)
      have hlidx : l.enc.idx < 2 ^ 32 := hidx l (List.mem_of_getElem? hl)
      obtain ⟨hdec, hproc⟩ := deliver_next hC hne hlidx h' hl
      obtain ⟨hsync, hlog, hframes⟩ := acceptNext_sync hC hne hn hidx hl hdec hproc (h'.deliver hl hk)
      refine ⟨hsync, hlog, ?_⟩
      intro frame hframe
      exact absurd (hframes ▸ hframe) List.not_mem_nil

/-! ### Any list of arrivals -/

/-- The datagram of the `i`-th dart. -/
def datagram (ls : List Link) (i : ℕ) : Buffer :=
  match ls[i]? with
  | none => []
  | some l => l.enc.buf

/-- **Any arrivals.**  Induction over the list; every datagram is one abstract arrival. -/
theorem eventLoop_sync (hC : C.Lawful) (hne : senderId ≠ me.senderId)
    (hn : ls.length < SEQ_MOD / 2) (hidx : ∀ l ∈ ls, l.enc.idx < 2 ^ 32)
    (ha : a < SEQ_MOD) (hstream : Stream C senderId convId m₀ a ls) (is : List ℕ) :
    ∀ {r : Client} {st : Reassembly}, (∀ i ∈ is, i < ls.length) → st.Settled →
      InSync C senderId convId m₀ a ls r st →
      InSync C senderId convId m₀ a ls
          (eventLoop (handleMessage C me) (is.map (datagram ls)) r).state
          (Reassembly.run is st) ∧
        HandedOn ls st (Reassembly.run is st)
          (eventLoop (handleMessage C me) (is.map (datagram ls)) r).output ∧
        ∀ frame ∈ framesOf (eventLoop (handleMessage C me) (is.map (datagram ls)) r).output,
          frame.readUInt8 0 = some TYPE_NACK := by
  induction is with
  | nil =>
    intro r st _ _ h
    exact ⟨h, HandedOn.refl st, fun frame hframe => absurd hframe List.not_mem_nil⟩
  | cons i is ih =>
    intro r st hlt hsettled h
    obtain ⟨l, hl⟩ : ∃ l, ls[i]? = some l :=
      ⟨_, List.getElem?_eq_getElem (hlt i List.mem_cons_self)⟩
    have hbuf : datagram ls i = l.enc.buf := by rw [datagram, hl]
    obtain ⟨hsync, hlog, hframes⟩ := handleMessage_sync hC hne hn hidx ha hstream hsettled h hl
    obtain ⟨ihsync, ihlog, ihframes⟩ := ih (fun j hj => hlt j (List.mem_cons_of_mem _ hj))
      (Reassembly.settled_receive hsettled i) hsync
    rw [List.map_cons, hbuf, eventLoop_cons]
    refine ⟨ihsync, hlog.trans ihlog, ?_⟩
    intro frame hframe
    rw [prepend_output, framesOf, List.filterMap_append, List.mem_append] at hframe
    rcases hframe with hframe | hframe
    · exact hframes frame hframe
    · exact ihframes frame hframe

/-! ### Starting in step -/

theorem Stream.linked {q : ℕ} (h : Stream C senderId convId m q ls) :
    ls.Pairwise (Link.ChainsTo C) := by
  induction h with
  | nil => exact List.Pairwise.nil
  | cons _ hchain _ ih => exact List.pairwise_cons.mpr ⟨hchain, ih⟩

/-- The first dart of its epoch. -/
def FirstOfEpoch (ls : List Link) (i : ℕ) (l : Link) : Prop :=
  ls[i]? = some l ∧ ∀ j l', j < i → ls[j]? = some l' → l'.enc.epoch ≠ l.enc.epoch

/-- A chain state not beyond the first dart of an epoch reaches every dart of the epoch. -/
theorem reaches_of_first (hlinked : ls.Pairwise (Link.ChainsTo C))
    (hfirst : ∀ i l, FirstOfEpoch ls i l → Reaches C senderId convId r l) {i : ℕ}
    (hl : ls[i]? = some l) : Reaches C senderId convId r l := by
  classical
  -- the first dart of the epoch of `l`
  have hex : ∃ j, ∃ l' : Link, ls[j]? = some l' ∧ l'.enc.epoch = l.enc.epoch := ⟨i, l, hl, rfl⟩
  obtain ⟨l₁, hl₁, he⟩ := Nat.find_spec hex
  have hmin : FirstOfEpoch ls (Nat.find hex) l₁ := by
    refine ⟨hl₁, ?_⟩
    intro j l' hj hl' he'
    exact Nat.find_min hex hj ⟨l', hl', he'.trans he⟩
  have hle : Nat.find hex ≤ i := Nat.find_min' hex ⟨l, hl, rfl⟩
  obtain ⟨chain, hget, hidx, hkey⟩ := hfirst _ _ hmin
  rcases Nat.lt_or_ge (Nat.find hex) i with hlt | hge
  · obtain ⟨hlt₁, hget₁⟩ := List.getElem?_eq_some_iff.mp hl₁
    obtain ⟨hlti, hgeti⟩ := List.getElem?_eq_some_iff.mp hl
    have hto := List.pairwise_iff_getElem.mp hlinked _ _ hlt₁ hlti hlt
    rw [hget₁, hgeti] at hto
    obtain ⟨hidx', hkey'⟩ := hto he.symm
    refine ⟨chain, he ▸ hget, by omega, ?_⟩
    rw [hkey', hkey, ← chainSteps_add]
    congr 1
    omega
  · have hsame : Nat.find hex = i := Nat.le_antisymm hle hge
    rw [hsame, hl] at hl₁
    cases hl₁
    exact ⟨chain, hget, hidx, hkey⟩

/-- **Starting in step.** -/
theorem inSync_start (ha : a < SEQ_MOD)
    (hstream : Stream C senderId convId m₀ a ls) (hform : r.WellFormed)
    (hhigh : r.highestReceivedSeq.get senderId = some (seqBack a 1))
    (hbuf : ∀ q, get₂ r.outOfOrderBuffer senderId q = none)
    (hagree : Agree (receivedOf r senderId) m₀ a)
    (hfirst : ∀ i l, FirstOfEpoch ls i l → Reaches C senderId convId r l) :
    InSync C senderId convId m₀ a ls r ⟨0, ∅⟩ := by
  have hzero : seqAt a 0 = a := seqAt_zero ha
  refine ⟨Nat.zero_le _, ?_, ?_, hform, ?_, ?_, ?_, ?_, ?_⟩
  · intro j hj
    exact absurd hj (Finset.notMem_empty j)
  · intro j hj
    exact absurd hj (Finset.notMem_empty j)
  · show _ = some (seqBack (seqAt a 0) 1)
    rw [hzero]
    exact hhigh
  · show Stream C senderId convId m₀ (seqAt a 0) (ls.drop 0)
    rw [hzero]
    exact hstream
  · show Agree _ m₀ (seqAt a 0)
    rw [hzero]
    exact hagree
  · intro q raw
    rw [hbuf q]
    constructor
    · intro h
      cases h
    · rintro ⟨j, l, hj, _⟩
      exact absurd hj (Finset.notMem_empty j)
  · intro l hl
    obtain ⟨i, hi⟩ := List.mem_iff_getElem?.mp (List.mem_of_mem_drop hl)
    exact reaches_of_first hstream.linked hfirst hi

/-! ### The theorem -/

/-- The payloads of the sends among events. -/
def payloadsOf (es : List Event) : List String :=
  es.filterMap fun e => match e with
    | .sendData _ payload => some payload
    | _ => none

/-- The darts that a list of payloads makes from number `a` on. -/
def dartsFrom (senderId convId a : ℕ) (payloads : List String) : List DataDart :=
  payloads.mapIdx fun i payload => ⟨TYPE_DATA, convId, senderId, seqAt a i, payload⟩

theorem payloads_linksOf (es : List Event) :
    ∀ {s : Client}, SendsIn C me convId s es →
      (linksOf C me s es).map (fun l => l.enc.dart.payload) = payloadsOf es := by
  induction es with
  | nil =>
    intro s _
    rfl
  | cons e es ih =>
    intro s hrun
    obtain ⟨hstep, hrest⟩ := hrun
    have hih := ih hrest
    rcases hstep with ⟨payload, rfl, hlink⟩ | ⟨hleaves, _⟩
    · obtain ⟨chain, buf, _, _, hlinks⟩ := linksAt_send hlink
      rw [linksOf, hlinks, List.map_append, hih]
      rfl
    · have hnone : linksAt C me e s = [] := linksAt_of_not_send hleaves.not_send s
      have hpay : payloadsOf (e :: es) = payloadsOf es := by
        cases e <;> first | rfl | exact hleaves.elim
      rw [linksOf, hnone, List.nil_append, hih, hpay]

/-- The darts of a stream are its payloads under consecutive numbers. -/
theorem Stream.darts_eq (ha : a < SEQ_MOD) (hstream : Stream C senderId convId m₀ a ls) :
    ls.map (fun l => l.enc.dart)
      = dartsFrom senderId convId a (ls.map fun l => l.enc.dart.payload) := by
  refine List.ext_getElem? ?_
  intro i
  rw [dartsFrom, List.getElem?_mapIdx, List.getElem?_map, List.getElem?_map]
  cases hl : ls[i]? with
  | none => rfl
  | some l =>
    obtain ⟨m, henc⟩ := hstream.encodes ha hl
    show some l.enc.dart = some ⟨TYPE_DATA, convId, senderId, seqAt a i, l.enc.dart.payload⟩
    rw [henc.dart_eq]

/-- Datagrams that are all of the stream are the datagrams of some positions. -/
theorem exists_positions (h : ∀ b ∈ bufs, ∃ l ∈ ls, b = l.enc.buf) :
    ∃ is : List ℕ, (∀ i ∈ is, i < ls.length) ∧ bufs = is.map (datagram ls) := by
  induction bufs with
  | nil => exact ⟨[], fun i hi => absurd hi List.not_mem_nil, rfl⟩
  | cons b bufs ih =>
    obtain ⟨is, hlt, hbufs⟩ := ih fun c hc => h c (List.mem_cons_of_mem _ hc)
    obtain ⟨l, hmem, hb⟩ := h b List.mem_cons_self
    obtain ⟨i, hi⟩ := List.mem_iff_getElem?.mp hmem
    refine ⟨i :: is, ?_, ?_⟩
    · intro j hj
      rcases List.mem_cons.mp hj with rfl | hj
      · exact (List.getElem?_eq_some_iff.mp hi).1
      · exact hlt j hj
    · have hgram : datagram ls i = b := by rw [datagram, hi, hb]
      rw [List.map_cons, hgram, hbufs]

theorem datagram_inj (hC : C.Lawful) (ha : a < SEQ_MOD)
    (hstream : Stream C senderId convId m₀ a ls) (hn : ls.length < SEQ_MOD / 2) {i j : ℕ}
    (hi : i < ls.length) (hj : j < ls.length) (h : datagram ls i = datagram ls j) : i = j := by
  obtain ⟨l, hl⟩ : ∃ l, ls[i]? = some l := ⟨_, List.getElem?_eq_getElem hi⟩
  obtain ⟨l', hl'⟩ : ∃ l', ls[j]? = some l' := ⟨_, List.getElem?_eq_getElem hj⟩
  obtain ⟨m, henc⟩ := hstream.encodes ha hl
  obtain ⟨m', henc'⟩ := hstream.encodes ha hl'
  have hbuf : l.enc.buf = l'.enc.buf := by
    rw [datagram, datagram, hl, hl'] at h
    exact h
  -- the number stands in the header
  have hseq : some (seqAt a i) = some (seqAt a j) := by
    rw [← henc.read_seq hC, hbuf, henc'.read_seq hC]
  exact seqAt_inj (by omega) (by omega) (Option.some.inj hseq)

/-- **Every arrival of a stream**: when each dart arrives at least once and nothing else does, all
that were not yet are stored in order, the last number is the highest, and nothing is held back. -/
theorem arrivals_complete (hC : C.Lawful) (hne : senderId ≠ me.senderId)
    (hn : ls.length < SEQ_MOD / 2) (hidx : ∀ l ∈ ls, l.enc.idx < 2 ^ 32)
    (ha : a < SEQ_MOD) (hstream : Stream C senderId convId m₀ a ls) {k : ℕ}
    (hstart : InSync C senderId convId m₀ a ls r ⟨k, ∅⟩)
    (hall : ∀ l ∈ ls, l.enc.buf ∈ bufs) (honly : ∀ b ∈ bufs, ∃ l ∈ ls, b = l.enc.buf) :
    HandedOn ls ⟨k, ∅⟩ ⟨ls.length, ∅⟩ (eventLoop (handleMessage C me) bufs r).output ∧
      InSync C senderId convId m₀ a ls (eventLoop (handleMessage C me) bufs r).state
        ⟨ls.length, ∅⟩ := by
  obtain ⟨is, hlt, rfl⟩ := exists_positions honly
  have hsettled : (⟨k, ∅⟩ : Reassembly).Settled := fun j hj => absurd hj (Finset.notMem_empty j)
  obtain ⟨hsync, hlog, _⟩ := eventLoop_sync hC hne hn hidx ha hstream is hlt hsettled hstart
  -- every dart arrived, and only these
  have hcover : ∀ j, j ∈ is ↔ j < ls.length := by
    intro j
    constructor
    · exact hlt j
    · intro hj
      obtain ⟨l, hl⟩ : ∃ l, ls[j]? = some l := ⟨_, List.getElem?_eq_getElem hj⟩
      obtain ⟨i, hi, hij⟩ := List.mem_map.mp (hall l (List.mem_of_getElem? hl))
      have hgram : datagram ls i = datagram ls j := by rw [hij, datagram, hl]
      rw [← datagram_inj hC ha hstream hn (hlt i hi) hj hgram]
      exact hi
  rw [Reassembly.run_complete hstart.next_le hcover] at hsync hlog
  exact ⟨hlog, hsync⟩

theorem InSync.buffer_empty {k : ℕ} (h : InSync C senderId convId m₀ a ls r ⟨k, ∅⟩) (q : ℕ) :
    get₂ r.outOfOrderBuffer senderId q = none := by
  cases hget : get₂ r.outOfOrderBuffer senderId q with
  | none => rfl
  | some raw =>
    obtain ⟨j, _, hj, _⟩ := (h.buffer q raw).mp hget
    exact absurd hj (Finset.notMem_empty j)

/-- **In-order, exactly-once delivery.**  A sender makes a run of successful sends in one
conversation, from any number on and through any epochs.  A receiver in any reachable state that has
the number before, nothing buffered, the same window of history, and for each epoch a chain state not
beyond its first dart, handles the datagrams in any order with any repetitions.  It stores every dart
once, in order, with the payload that was sent, ends at the last number and holds nothing back. -/
theorem delivery_in_order_exactly_once {C : Crypto} (hC : C.Lawful) {S R : Identity}
    (hS : S.Lawful) (hne : S.senderId ≠ R.senderId) {convId : ℕ} {before sends earlier : List Event}
    (hsends : SendsIn C S convId (stateAfter C S before) sends)
    (hn : (payloadsOf sends).length < 2 ^ 23)
    (hidx : ∀ l ∈ linksOf C S (stateAfter C S before) sends, l.enc.idx < 2 ^ 32)
    (hhigh : (stateAfter C R earlier).highestReceivedSeq.get S.senderId
      = some (seqBack (stateAfter C S before).nextSeq 1))
    (hbuf : ∀ q, get₂ (stateAfter C R earlier).outOfOrderBuffer S.senderId q = none)
    (hagree : Agree (receivedOf (stateAfter C R earlier) S.senderId)
      (stateAfter C S before).sentMessages (stateAfter C S before).nextSeq)
    (hchain : ∀ i l, FirstOfEpoch (linksOf C S (stateAfter C S before) sends) i l →
      Reaches C S.senderId convId (stateAfter C R earlier) l)
    {bufs : List Buffer}
    (hall : ∀ l ∈ linksOf C S (stateAfter C S before) sends, l.enc.buf ∈ bufs)
    (honly : ∀ b ∈ bufs, ∃ l ∈ linksOf C S (stateAfter C S before) sends, b = l.enc.buf) :
    storedDarts (eventLoop (handleMessage C R) bufs (stateAfter C R earlier)).output
        = dartsFrom S.senderId convId (stateAfter C S before).nextSeq (payloadsOf sends) ∧
      (eventLoop (handleMessage C R) bufs
          (stateAfter C R earlier)).state.highestReceivedSeq.get S.senderId
        = some (seqBack (seqAt (stateAfter C S before).nextSeq (payloadsOf sends).length) 1) ∧
      ∀ q, get₂ (eventLoop (handleMessage C R) bufs
        (stateAfter C R earlier)).state.outOfOrderBuffer S.senderId q = none := by
  have hformS := wellFormed_stateAfter C S before
  have hformR := wellFormed_stateAfter C R earlier
  have hstream := stream_of_sends hS sends hformS hsends
  have hpay := payloads_linksOf sends hsends
  generalize linksOf C S (stateAfter C S before) sends = ls at *
  generalize stateAfter C R earlier = r at *
  have ha : (stateAfter C S before).nextSeq < SEQ_MOD := hformS.nextSeq
  generalize (stateAfter C S before).nextSeq = a at *
  have hlen : ls.length = (payloadsOf sends).length := by rw [← hpay, List.length_map]
  have hn' : ls.length < SEQ_MOD / 2 := by
    rw [hlen]
    exact hn
  have hstart := inSync_start ha hstream hformR hhigh hbuf hagree hchain
  obtain ⟨hstored, hsync⟩ := arrivals_complete hC hne hn' hidx ha hstream hstart hall honly
  refine ⟨?_, ?_, hsync.buffer_empty⟩
  · rw [HandedOn, List.take_length] at hstored
    exact hstored.trans (by rw [hstream.darts_eq ha, hpay])
  · have h := hsync.highest
    rw [hlen] at h
    exact h

/-! ### A run -/

/-- The sender founds the group and sends once. -/
def runBefore : List Event := [.message (sumMemberInfo 5 1 true [1, 2]), .sendData 5 "x"]

/-- It sends, rotates the group key, and sends under the new epoch. -/
def runSends : List Event := [.sendData 5 "a", .rekeyTimer, .sendData 5 "b"]

/-- The receiver joins, gets the sender's first frames, and the chain of the second epoch. -/
def runEarlier : List Event :=
  .message (sumMemberInfo 5 2 false [1, 2]) ::
    (framesOf (outputsOf sumCrypto (sumIdentity 1) runBefore) ++
      (framesOf (outputsOf sumCrypto (sumIdentity 1) (runBefore ++ runSends))).filter fun b =>
        b.readUInt8 0 == some TYPE_CHAIN_SHARE).map .message

/-- The darts of the run. -/
def runLinks : List Link :=
  linksOf sumCrypto (sumIdentity 1) (stateAfter sumCrypto (sumIdentity 1) runBefore) runSends

theorem runSends_sendsIn :
    SendsIn sumCrypto (sumIdentity 1) 5 (stateAfter sumCrypto (sumIdentity 1) runBefore)
      runSends := by
  refine ⟨Or.inl ⟨"a", rfl, by decide +kernel⟩, ?_⟩
  refine ⟨Or.inr ⟨trivial, Or.inr (by decide +kernel)⟩, ?_⟩
  exact ⟨Or.inl ⟨"b", rfl, by decide +kernel⟩, trivial⟩

/-- Both darts of the run, last one first and then once more in order. -/
theorem delivery_in_order_exactly_once_run :
    storedDarts (eventLoop (handleMessage sumCrypto (sumIdentity 2))
        ((runLinks.map fun l => l.enc.buf).reverse ++ runLinks.map fun l => l.enc.buf)
        (stateAfter sumCrypto (sumIdentity 2) runEarlier)).output
      = [⟨TYPE_DATA, 5, 1, 2, "a"⟩, ⟨TYPE_DATA, 5, 1, 3, "b"⟩] := by
  have hnext : (stateAfter sumCrypto (sumIdentity 1) runBefore).nextSeq = 2 := by decide +kernel
  have hbuf : (stateAfter sumCrypto (sumIdentity 2) runEarlier).outOfOrderBuffer = ∅ := by
    decide +kernel
  have hreach : ∀ l ∈ runLinks,
      Reaches sumCrypto 1 5 (stateAfter sumCrypto (sumIdentity 2) runEarlier) l := by
    decide +kernel
  have hall : ∀ l ∈ runLinks, l.enc.buf
      ∈ (runLinks.map fun l => l.enc.buf).reverse ++ runLinks.map fun l => l.enc.buf :=
    fun l hl => List.mem_append_right _ (List.mem_map_of_mem hl)
  have honly : ∀ b ∈ (runLinks.map fun l => l.enc.buf).reverse ++ runLinks.map fun l => l.enc.buf,
      ∃ l ∈ runLinks, b = l.enc.buf := by
    intro b hb
    rw [List.mem_append, List.mem_reverse, or_self, List.mem_map] at hb
    obtain ⟨l, hl, rfl⟩ := hb
    exact ⟨l, hl, rfl⟩
  have h := delivery_in_order_exactly_once sumCrypto_lawful (R := sumIdentity 2)
    (sumIdentity_lawful 1) (by decide) runSends_sendsIn (by decide) (by decide +kernel)
    (by decide +kernel) (fun q => by rw [hbuf]; rfl) (by unfold Agree; decide +kernel)
    (fun i l hl => hreach l (List.mem_of_getElem? hl.1)) hall honly
  rw [h.1, hnext]
  rfl

end DartProtocol
