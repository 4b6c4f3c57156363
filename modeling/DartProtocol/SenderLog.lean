import DartProtocol.ChainLog

/-!
# What a sender leaves behind

The outputs of a client record which darts it sent, which encodings it made and which chain states it
handed out.  `SenderLog` ties this record to the client's state over whole runs:

* the sent darts have strictly increasing numbers below the next one;
* every encoding, for a first or a repeated transmission, is of a sent dart;
* every state of the own chains, in use, kept as a seed, waiting in a retry or handed out, lies on a
  chain the client started.

`senderLog_run` establishes it for every run with fewer sends than the circle has numbers.  The part
about chains is `ChainLog`; the part about darts is `DartLog`.
-/

namespace DartProtocol

open Prog

/-! ### The record -/

/-- The darts among outputs that entered the sent history. -/
def sentDarts (os : List Output) : List DataDart :=
  os.filterMap fun o => match o with
    | .sent dart => some dart
    | _ => none

theorem sentDarts_append (os os' : List Output) :
    sentDarts (os ++ os') = sentDarts os ++ sentDarts os' := List.filterMap_append

variable {os : List Output}

theorem mem_sentDarts {dart : DataDart} :
    dart ∈ sentDarts os ↔ Output.sent dart ∈ os := by
  rw [sentDarts, List.mem_filterMap]
  constructor
  · rintro ⟨o, ho, heq⟩
    cases o <;> simp at heq
    subst heq
    exact ho
  · intro h
    exact ⟨_, h, rfl⟩

/-- An encoding is what the encoder made of a sent dart. -/
structure GoodEncoding (C : Crypto) (os : List Output) (e : Encoding) : Prop where
  sent : e.dart ∈ sentDarts os
  nonce : e.nonce.length = 12
  buf : Codec.encodeDataHelper C e.dart e.dict e.messageKey e.idx e.epoch e.nonce = some e.buf

/-- The state of a client and the record of its outputs fit together. -/
structure SenderLog (C : Crypto) (me : Identity) (os : List Output) (s : Client) : Prop where
  sorted : (sentDarts os).Pairwise fun d d' => d.seq < d'.seq
  below : ∀ d ∈ sentDarts os, d.seq < s.nextSeq
  history : ∀ k d, s.sentMessages.get k = some d → d ∈ sentDarts os
  encoded : ∀ e, Output.encoded e ∈ os → GoodEncoding C os e
  chains : ∀ convId epoch st, s.getChain convId epoch me.senderId = some st →
    OnChain C os convId epoch st
  seeds : ∀ convId epoch st, get₂ s.chainSeeds convId epoch = some st →
    OnChain C os convId epoch st
  retries : ∀ r ∈ s.shareTimers, GoodRetry C os r
  shared : ∀ share, Output.chainShared share ∈ os → GoodShare C os share

variable {C : Crypto} {me : Identity}

theorem GoodEncoding.mono {e : Encoding} (h : GoodEncoding C os e)
    (os' : List Output) : GoodEncoding C (os ++ os') e := by
  refine ⟨?_, h.nonce, h.buf⟩
  rw [sentDarts_append]
  exact List.mem_append_left _ h.sent

/-- The part of the record about darts. -/
structure DartLog (C : Crypto) (os : List Output) (s : Client) : Prop where
  sorted : (sentDarts os).Pairwise fun d d' => d.seq < d'.seq
  below : ∀ d ∈ sentDarts os, d.seq < s.nextSeq
  history : ∀ k d, s.sentMessages.get k = some d → d ∈ sentDarts os
  encoded : ∀ e, Output.encoded e ∈ os → GoodEncoding C os e

theorem SenderLog.of_parts {s : Client} (hdarts : DartLog C os s)
    (hchains : ChainLog C me os s) : SenderLog C me os s :=
  ⟨hdarts.sorted, hdarts.below, hdarts.history, hdarts.encoded, hchains.chains, hchains.seeds,
    hchains.retries, hchains.shared⟩

namespace DartLog

theorem init : DartLog C [] {} := by
  constructor
  · exact List.Pairwise.nil
  · intro d hd
    cases hd
  · intro k d hd
    cases hd
  · intro e he
    cases he

variable {os : List Output}

/-- More outputs that send nothing, with good encodings, and perhaps a shorter history. -/
theorem append {os' : List Output} {s t : Client} (h : DartLog C os s)
    (hsent : sentDarts os' = []) (henc : ∀ e, Output.encoded e ∈ os' → GoodEncoding C os e)
    (hnext : t.nextSeq = s.nextSeq)
    (hhistory : ∀ k d, t.sentMessages.get k = some d → s.sentMessages.get k = some d) :
    DartLog C (os ++ os') t := by
  have hdarts : sentDarts (os ++ os') = sentDarts os := by
    rw [sentDarts_append, hsent, List.append_nil]
  constructor
  · rw [hdarts]
    exact h.sorted
  · rw [hdarts, hnext]
    exact h.below
  · rw [hdarts]
    exact fun k d hd => h.history k d (hhistory k d hd)
  · intro e he
    rcases List.mem_append.mp he with he | he
    · exact (h.encoded e he).mono os'
    · exact (henc e he).mono os'

theorem skip {s : Client} (h : DartLog C os s) (hroom : s.nextSeq + 1 < SEQ_MOD) :
    DartLog C os { s with nextSeq := seqNext s.nextSeq } := by
  refine ⟨h.sorted, ?_, h.history, h.encoded⟩
  intro d hd
  have hlt := h.below d hd
  show d.seq < (s.nextSeq + 1) % SEQ_MOD
  rw [Nat.mod_eq_of_lt hroom]
  omega

/-- **A send** appends the next number to the sent darts. -/
theorem enterSent {s : Client} (h : DartLog C os s)
    (hroom : s.nextSeq + 1 < SEQ_MOD) (convId : ℕ) (payload : String) (chain : ChainState) :
    DartLog C (os ++ [.sent (sentDart me convId payload s)])
      (DartProtocol.enterSent C me convId payload chain s) := by
  obtain ⟨dart, hdart⟩ : ∃ dart, dart = sentDart me convId payload s := ⟨_, rfl⟩
  have hseq : dart.seq = s.nextSeq := by rw [hdart]; rfl
  have hdarts : sentDarts (os ++ [.sent dart]) = sentDarts os ++ [dart] := sentDarts_append _ _
  rw [← hdart]
  constructor
  · rw [hdarts, List.pairwise_append]
    refine ⟨h.sorted, List.pairwise_singleton _ _, ?_⟩
    intro d hd d' hd'
    rw [List.mem_singleton.mp hd', hseq]
    exact h.below d hd
  · intro d hd
    show d.seq < (s.nextSeq + 1) % SEQ_MOD
    rw [Nat.mod_eq_of_lt hroom]
    rw [hdarts, List.mem_append, List.mem_singleton] at hd
    rcases hd with hd | rfl
    · have := h.below d hd
      omega
    · omega
  · intro k d hd
    rw [enterSent_sentMessages, get_pushHistory] at hd
    rw [hdarts, List.mem_append, List.mem_singleton]
    split at hd
    · right
      cases hd
      exact hdart.symm
    · left
      exact h.history k d (Option.filter_eq_some_iff.mp hd).1
  · intro e he
    rw [List.mem_append, List.mem_singleton] at he
    rcases he with he | he
    · exact (h.encoded e he).mono _
    · cases he

end DartLog

/-! ### Every kind of change keeps the record -/

/-- The record of darts survives, given a fact `G` about the outputs so far. -/
def KeepsDarts (C : Crypto) (G : List Output → Prop) : Client → List Output → Client → Prop :=
  fun s os t => ∀ hist, G hist → DartLog C hist s → DartLog C (hist ++ os) t

section Guarded

variable {G : List Output → Prop}

/-- Nothing about the own stream changes, and nothing is sent or encoded. -/
theorem KeepsDarts.of_own {s t : Client} {os : List Output} (hown : t.ownStream = s.ownStream)
    (hsent : sentDarts os = []) (henc : ∀ e, Output.encoded e ∉ os) : KeepsDarts C G s os t := by
  intro hist _ hs
  refine hs.append hsent (fun e he => absurd he (henc e)) (congrArg OwnStream.nextSeq hown) ?_
  rw [show t.sentMessages = s.sentMessages from congrArg OwnStream.sentMessages hown]
  exact fun _ _ hd => hd

theorem keepsDarts_background (hG : Stable G) : Background (KeepsDarts C G) where
  comp := by
    constructor
    · exact fun s => KeepsDarts.of_own rfl rfl fun _ => List.not_mem_nil
    · intro s t u os os' h h' hist hg hs
      rw [← List.append_assoc]
      exact h' _ (hG hist os hg) (h hist hg hs)
  bookkeeping := fun s t hcore => KeepsDarts.of_own
    ((keepsOwn_background fun o => o).bookkeeping s t hcore) rfl fun _ => List.not_mem_nil
  broadcast := fun s buf via => KeepsDarts.of_own rfl rfl (by simp)

theorem keepsDarts_encoded {e : Encoding} (h : ∀ hist, G hist → GoodEncoding C hist e)
    (s : Client) : KeepsDarts C G s [.encoded e] s := by
  intro hist hg hs
  refine hs.append rfl ?_ rfl fun _ _ hd => hd
  intro e' he'
  cases List.mem_singleton.mp he'
  exact h hist hg

theorem KeepsDarts.of_rest {s t : Client} (h : t.rest = s.rest) : KeepsDarts C G s [] t :=
  KeepsDarts.of_own (congrArg (·.ownStream) h) rfl (by simp)

theorem keepsDarts_receive (hG : Stable G) (senderId : ℕ) :
    ReceiveRules C (KeepsDarts C G) senderId :=
  .of_rest_chains (keepsDarts_background hG) (fun _ _ => KeepsDarts.of_rest)
    (fun _ _ => KeepsDarts.of_own rfl rfl (by simp)) (fun _ _ => KeepsDarts.of_own rfl rfl (by simp))
    fun _ _ => KeepsDarts.of_own rfl rfl (by simp)

theorem keepsDarts_keys (hG : Stable G) : KeyRules C me (KeepsDarts C G) :=
  .of_streams (keepsDarts_background hG)
    (fun _ _ h => KeepsDarts.of_own (congrArg (·.ownStream) h) rfl (by simp))
    (fun _ _ => KeepsDarts.of_own rfl rfl (by simp))
    fun _ _ _ _ => KeepsDarts.of_own rfl rfl (by simp)

/-! ### Repeated transmissions and sends -/

theorem keepsDarts_retransmit (hme : me.Lawful) (seq : ℕ) :
    Obeys (KeepsDarts C G) (retransmit C me seq) := by
  intro s
  -- what is encoded is in the history from the start, so among the sent darts
  have hstable : Stable fun hist => ∀ k d, s.sentMessages.get k = some d → d ∈ sentDarts hist := by
    intro os os' h k d hd
    rw [sentDarts_append]
    exact List.mem_append_left _ (h k d hd)
  have h : ObeysAt (KeepsDarts C fun hist => ∀ k d, s.sentMessages.get k = some d →
      d ∈ sentDarts hist) (retransmit C me seq) s := by
    apply retransmit_obeysAt (keepsDarts_background hstable)
    intro dart mk hdart _ t i buf hbuf
    exact keepsDarts_encoded (fun hist hg => ⟨hg seq dart hdart, hme _ _, hbuf⟩) t
  exact fun hist _ hs => h hist hs.history hs

theorem keepsDarts_sendData (hme : me.Lawful) {s : Client} (hroom : s.nextSeq + 1 < SEQ_MOD)
    (convId : ℕ) (payload : String) :
    ObeysAt (KeepsDarts C G) (sendData C me convId payload) s := by
  have hstable : Stable fun hist => sentDart me convId payload s ∈ sentDarts hist := by
    intro os os' h
    rw [sentDarts_append]
    exact List.mem_append_left _ h
  have hB : Background (KeepsDarts C fun hist => sentDart me convId payload s ∈ sentDarts hist) :=
    keepsDarts_background hstable
  refine sendData_obeysAt hB ?_ ?_ ?_
  · intro _ hist _ hs
    rw [List.append_nil]
    exact hs.skip hroom
  · intro chain hchain os t hrest hist _ hs
    have hmem : sentDart me convId payload s
        ∈ sentDarts (hist ++ [.sent (sentDart me convId payload s)]) := by
      rw [mem_sentDarts]
      exact List.mem_append_right _ (List.mem_singleton.mpr rfl)
    have h := hrest _ hmem (hs.enterSent hroom convId payload chain)
    rw [List.append_assoc] at h
    exact h
  · intro chain _ t i buf hbuf
    refine keepsDarts_encoded (fun hist hg => ?_) t
    exact ⟨hg, hme _ _, hbuf⟩

end Guarded

/-! ### Whole runs -/

/-- How often the application sends. -/
def sendCount (es : List Event) : ℕ :=
  es.countP fun e => match e with
    | .sendData _ _ => true
    | _ => false

theorem sendCount_concat (es : List Event) (e : Event) :
    sendCount (es ++ [e]) = sendCount es + sendCount [e] := List.countP_append

theorem step_nextSeq (e : Event) (s : Client)
    (hs : s.nextSeq < SEQ_MOD) :
    (step C me e s).state.nextSeq = (s.nextSeq + sendCount [e]) % SEQ_MOD := by
  by_cases hsend : ∃ convId payload, e = .sendData convId payload
  · obtain ⟨convId, payload, rfl⟩ := hsend
    exact sendData_obeysAt (R := fun s _ t => t.nextSeq = seqNext s.nextSeq)
      (keepsOwn_background fun o => o.nextSeq) (fun _ => rfl) (fun _ _ _ _ h => h) fun _ _ _ _ _ _ => rfl
  · have hcount : sendCount [e] = 0 := by
      cases e <;> first | rfl | exact absurd ⟨_, _, rfl⟩ hsend
    rw [hcount, Nat.add_zero, Nat.mod_eq_of_lt hs]
    refine (keepsOwn_frame (C := C) fun o => o.nextSeq).step_of ?_ ?_
    · intro convId payload he
      exact absurd ⟨convId, payload, he⟩ hsend
    · intro buf _ _
      refine handleDictReset_obeys (keepsOwn_background _) (fun t targetId => ?_) buf s
      unfold applyDictReset
      split
      · rfl
      · exact (keepsOwn_receive (C := C) (fun o => o.nextSeq) targetId).clearReceived t

/-- **The next number counts the sends.** -/
theorem nextSeq_stateAfter (es : List Event) :
    (stateAfter C me es).nextSeq = (sendCount es + 1) % SEQ_MOD := by
  induction es using List.reverseRecOn with
  | nil => rfl
  | append_singleton es e ih =>
    have hlt := (wellFormed_stateAfter C me es).nextSeq
    rw [stateAfter_concat, step_nextSeq e _ hlt, ih, Nat.mod_add_mod, sendCount_concat,
      Nat.add_right_comm]

theorem step_dartLog (hme : me.Lawful) {es : List Event} {e : Event}
    (hroom : sendCount es + 2 < SEQ_MOD) (hlog : DartLog C (outputsOf C me es) (stateAfter C me es)) :
    DartLog C (outputsOf C me (es ++ [e])) (stateAfter C me (es ++ [e])) := by
  rw [outputsOf_concat, stateAfter_concat]
  have hG : Stable fun _ => True := fun _ _ _ => trivial
  have hB : Background (KeepsDarts C fun _ => True) := keepsDarts_background hG
  suffices hkeep : ObeysAt (KeepsDarts C fun _ => True) (step C me e) (stateAfter C me es) from
    hkeep _ trivial hlog
  refine step_obeysAt (keepsDarts_keys hG).toAdoptRules ?_ ?_ ?_ ?_
  · exact fun s => KeepsDarts.of_own rfl rfl (by simp)
  · intro convId payload _
    refine keepsDarts_sendData hme ?_ convId payload
    rw [nextSeq_stateAfter, Nat.mod_eq_of_lt (by omega)]
    omega
  · intro buf _
    refine handleMessage_obeysAt hB fun type _ => ?_
    refine handlerOf_obeysAt (keepsDarts_keys hG) (handleSync_obeys hB ?_)
      (fun _ => handleData_obeys hB (keepsDarts_receive hG) buf _)
      (fun _ => handleChainShare_obeysAt hB fun _ _ _ _ _ => KeepsDarts.of_own rfl rfl (by simp))
      (fun _ => handleNack_obeys hB (keepsDarts_retransmit hme) ?_ buf _)
      (fun _ => handleDictReset_obeys hB ?_ buf _)
    · exact fun s senderId => KeepsDarts.of_rest (ensureReceived_rest senderId s)
    · exact fun _ _ s => reshareSeed_obeysAt hB fun _ _ _ _ _ _ =>
        KeepsDarts.of_own rfl rfl (by simp)
    · intro s targetId
      rw [applyDictReset]
      split
      · exact fun hist _ hs => hs.append rfl (by simp) rfl fun k d hd => by cases hd
      · exact KeepsDarts.of_rest (clearReceived_rest targetId s)
  · intro i _
    have h : Obeys (KeepsDarts C fun _ => True) (step C me (.shareTimer i)) :=
      fire_obeys hB (fun _ => KeepsDarts.of_own rfl rfl (by simp)) fun retry =>
        runShareRetry_obeys hB retry fun _ _ _ _ _ _ _ _ _ _ _ _ =>
          KeepsDarts.of_own rfl rfl (by simp)
    exact h _

theorem dartLog_run (hme : me.Lawful) (es : List Event) (hroom : sendCount es + 2 < SEQ_MOD) :
    DartLog C (outputsOf C me es) (stateAfter C me es) := by
  induction es using List.reverseRecOn with
  | nil => exact DartLog.init
  | append_singleton es e ih =>
    have hless : sendCount es + 2 < SEQ_MOD := by
      have := sendCount_concat es e
      omega
    exact step_dartLog hme hless (ih hless)

/-- **The record of a sender**, over every run with fewer sends than there are numbers in which
chain shares in the sender's own name, if it accepts any, are its own. -/
theorem senderLog_run (hme : me.Lawful) (es : List Event) (hroom : sendCount es + 2 < SEQ_MOD)
    (hshares : SharesFrom C me me.senderId (outputsOf C me) es) :
    SenderLog C me (outputsOf C me es) (stateAfter C me es) :=
  SenderLog.of_parts (dartLog_run hme es hroom) (chainLog_run es hshares)

end DartProtocol
