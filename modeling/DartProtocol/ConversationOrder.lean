import DartProtocol.DictRecovery

/-!
# One conversation among several

A client numbers its darts across all conversations, while a member of one conversation gets only the
darts of that conversation.  Here a sender makes any sequence of calls over any conversations, and a
receiver that has heard nothing of it yet gets every dart of conversation `c`, in order.

* `Follows`, `Accepts` — the two tests a dart has to pass at the receiver: its number directly follows,
  and the receiver's dictionary decodes it;
* `handleMessage_next_iff` — the receiver stores the next dart exactly when both hold;
* `Unmixed` — both hold for every dart of the conversation, a condition on the sender's run alone;
* `conversation_delivered_iff` — every dart of `c` is stored as it arrives if and only if the darts of
  `c` are unmixed with other conversations;
* `other_conversation_blocks` — one dart in another conversation blocks all later ones of `c`.
-/

namespace DartProtocol

open Prog InsertionMap Outcome

variable {C : Crypto} {me : Identity} {senderId convId q : ℕ}

/-! ### What the receiver asks of a dart -/

/-- The number comes next after the highest received one.  Without one, any number does that does not
announce a gap inside the window. -/
def Follows : Option ℕ → ℕ → Prop
  | none, q => ¬ (2 ≤ q ∧ q ≤ DICT_WINDOW)
  | some p, q => q = seqNext p

instance : ∀ prev q, Decidable (Follows prev q)
  | none, q => inferInstanceAs (Decidable (¬ (2 ≤ q ∧ q ≤ DICT_WINDOW)))
  | some p, q => inferInstanceAs (Decidable (q = seqNext p))

/-- The dictionary has the fingerprint in the header and inflates the payload. -/
def Accepts (C : Crypto) (dict : Buffer) (l : Link) : Prop :=
  dictFingerprint C l.enc.dict = dictFingerprint C dict ∧
    Codec.inflateData C (C.deflateRaw (utf8 l.enc.dart.payload) l.enc.dict) dict
      = some l.enc.dart.payload

instance (C : Crypto) (dict : Buffer) (l : Link) : Decidable (Accepts C dict l) :=
  inferInstanceAs (Decidable (_ ∧ _))

/-- **Unmixed darts**: each one directly follows the previous one, and is decoded by the dictionary of
the darts before it in the list. -/
def Unmixed (C : Crypto) : Option ℕ → NumMap DataDart → List Link → Prop
  | _, _, [] => True
  | prev, m, l :: ls =>
    (Follows prev l.enc.dart.seq ∧ Accepts C (dictionaryOf l.enc.dart.seq m.values) l) ∧
      Unmixed C (some l.enc.dart.seq) (pushHistory m l.enc.dart) ls

instance decidableUnmixed (C : Crypto) : ∀ prev m ls, Decidable (Unmixed C prev m ls)
  | _, _, [] => isTrue trivial
  | _, m, l :: ls =>
    have := decidableUnmixed C (some l.enc.dart.seq) (pushHistory m l.enc.dart) ls
    inferInstanceAs (Decidable (_ ∧ _))

/-! ### A receiver that holds nothing back -/

/-- The highest number received of a sender, with no packet held back and, without a number, no
history. -/
structure Listening (senderId : ℕ) (prev : Option ℕ) (r : Client) : Prop where
  form : r.WellFormed
  highest : r.highestReceivedSeq.get senderId = prev
  buffer : ∀ k, get₂ r.outOfOrderBuffer senderId k = none
  fresh : prev = none → receivedOf r senderId = ∅
  bound : ∀ p, prev = some p → p < SEQ_MOD

variable {prev : Option ℕ} {r : Client}

theorem Listening.of_core (h : Listening senderId prev r) {t : Client} (hcore : t.core = r.core) :
    Listening senderId prev t := by
  have hhigh : t.highestReceivedSeq = r.highestReceivedSeq :=
    congrArg (fun c => c.highestReceivedSeq) hcore
  have hbuf : t.outOfOrderBuffer = r.outOfOrderBuffer :=
    congrArg (fun c => c.outOfOrderBuffer) hcore
  refine ⟨h.form.of_core hcore, hhigh ▸ h.highest, fun k => hbuf ▸ h.buffer k, fun hp => ?_, h.bound⟩
  rw [receivedOf_of_core hcore]
  exact h.fresh hp

/-- **The gap test** lets exactly the numbers through that follow. -/
theorem Listening.dataAhead_eq_one_iff (h : Listening senderId prev r) (hq : q < SEQ_MOD) :
    dataAhead r senderId q = 1 ↔ Follows prev q := by
  cases hp : prev with
  | none =>
    have hhas : r.highestReceivedSeq.has senderId = false :=
      has_eq_false_iff.mpr (h.highest.trans hp)
    rw [dataAhead, if_neg (by rw [hhas]; decide), Follows]
    unfold DICT_WINDOW
    split <;> omega
  | some p =>
    have hhas : r.highestReceivedSeq.has senderId = true :=
      has_iff.mpr ⟨p, h.highest.trans hp⟩
    have hlt := h.bound p hp
    rw [dataAhead, if_pos hhas, h.highest, hp, orDefault_zero, Option.getD_some, Follows,
      seqDelta_eq hlt hq]
    unfold seqNext SEQ_MOD at *
    split <;> omega

theorem routeData_not_next (buf : Buffer) (convId : ℕ)
    (hahead : dataAhead r senderId q ≠ 1) :
    storedDarts (routeData C me buf convId senderId q r).output = [] := by
  rw [routeData, get_bind]
  by_cases hstale : dataAhead r senderId q = 0 ∨ SEQ_MOD / 2 ≤ dataAhead r senderId q
  · rw [if_pos hstale]
    rfl
  · rw [if_neg hstale, if_pos (by omega), bufferAhead, modify_bind, get_bind]
    exact storedDarts_of_broadcasts (nackMissing_silent convId senderId _ _).2

theorem Listening.not_stored (h : Listening senderId prev r) (hq : q < SEQ_MOD)
    (hfollows : Follows prev q) : get₂ r.receivedMessages senderId q = none := by
  rw [← get_receivedOf]
  cases hp : prev with
  | none =>
    rw [h.fresh hp]
    rfl
  | some p =>
    rw [hp, Follows] at hfollows
    cases hget : (receivedOf r senderId).get q with
    | none => rfl
    | some d =>
      -- a stored dart is at most the window behind the highest number
      have hrecent := h.form.recent senderId q d hget
      have hlt := h.bound p hp
      rw [h.highest, hp, orDefault_zero, Option.getD_some, recent, decide_eq_true_eq,
        seqDelta_eq hq hlt] at hrecent
      unfold DICT_WINDOW at hrecent
      unfold seqNext SEQ_MOD at *
      split at hrecent <;> omega

theorem processDataPacket_of_ne (C : Crypto) (hne : senderId ≠ me.senderId) (dec : DecryptedData) :
    processDataPacket C me dec senderId q r
      = ((if dec.dictFp ≠ dictFingerprint C (dictionaryOf q (receivedOf r senderId).values) then do
            Prog.modify (clearReceived senderId)
            sendDictReset C me dec.convId senderId
          else
            match Codec.inflateData C dec.compressed (dictionaryOf q (receivedOf r senderId).values) with
            | none => pure ()
            | some payload =>
              if (get₂ r.receivedMessages senderId q).isSome then pure ()
              else do
                Prog.modify (storeReceived ⟨TYPE_DATA, dec.convId, senderId, q, payload⟩)
                emit (.stored ⟨TYPE_DATA, dec.convId, senderId, q, payload⟩) : ClientProg Unit)
          r).prepend [.checked (dictionaryOf q (receivedOf r senderId).values)] := by
  have hdict : getDictionary me r senderId q = dictionaryOf q (receivedOf r senderId).values := by
    rw [getDictionary, historyOf_of_ne hne]
  rw [processDataPacket, get_bind, hdict]
  exact emit_bind ..

section Next

variable (hC : C.Lawful) (hne : senderId ≠ me.senderId) {m : NumMap DataDart} {l : Link}
  (henc : l.Encodes C senderId convId m q)
include hne henc

/-- **A dart that follows and is accepted** is stored. -/
theorem processDataPacket_accepted (h : Listening senderId prev r) (hfollows : Follows prev q)
    (hacc : Accepts C (dictionaryOf q (receivedOf r senderId).values) l) :
    processDataPacket C me (decryptedLink C senderId convId q l) senderId q r
      = ⟨some (), storeReceived l.enc.dart r,
          [.checked (dictionaryOf q (receivedOf r senderId).values), .stored l.enc.dart]⟩ := by
  have hfp : ¬ (decryptedLink C senderId convId q l).dictFp
      ≠ dictFingerprint C (dictionaryOf q (receivedOf r senderId).values) := fun hno => hno hacc.1
  have hpayload : Codec.inflateData C (decryptedLink C senderId convId q l).compressed
      (dictionaryOf q (receivedOf r senderId).values) = some l.enc.dart.payload := hacc.2
  rw [processDataPacket_of_ne C hne, if_neg hfp, hpayload]
  simp only [h.not_stored henc.seq_lt hfollows, Option.isSome_none, Bool.false_eq_true, if_false]
  rw [modify_bind]
  show Outcome.prepend [Output.checked (dictionaryOf q (receivedOf r senderId).values)]
    ⟨some (), storeReceived ⟨TYPE_DATA, convId, senderId, q, l.enc.dart.payload⟩ r,
      [Output.stored ⟨TYPE_DATA, convId, senderId, q, l.enc.dart.payload⟩]⟩ = _
  rw [henc.dart_eq]
  rfl

omit henc in
/-- **A dart that is not accepted** is not stored, and nothing gets into the buffer. -/
theorem processDataPacket_refused (convId : ℕ) (hbuf : ∀ k, get₂ r.outOfOrderBuffer senderId k = none)
    (hno : ¬ Accepts C (dictionaryOf q (receivedOf r senderId).values) l) :
    l.enc.dart ∉ storedDarts
        (processDataPacket C me (decryptedLink C senderId convId q l) senderId q r).output ∧
      ∀ k, get₂ (processDataPacket C me (decryptedLink C senderId convId q l) senderId q
        r).state.outOfOrderBuffer senderId k = none := by
  rw [processDataPacket_of_ne C hne]
  by_cases hfp : (decryptedLink C senderId convId q l).dictFp
      ≠ dictFingerprint C (dictionaryOf q (receivedOf r senderId).values)
  · rw [if_pos hfp, modify_bind]
    have hsilent : Silent (clearReceived senderId r)
        (sendDictReset C me convId senderId (clearReceived senderId r)).output
        (sendDictReset C me convId senderId (clearReceived senderId r)).state :=
      sendDictReset_obeys silent_background convId senderId _
    refine ⟨?_, fun k => ?_⟩
    · rw [prepend_output, storedDarts_append]
      show l.enc.dart ∉ [] ++ storedDarts (sendDictReset C me convId senderId _).output
      rw [storedDarts_of_broadcasts hsilent.2]
      exact List.not_mem_nil
    · have hkeep : (sendDictReset C me convId senderId (clearReceived senderId r)).state.outOfOrderBuffer
          = (clearReceived senderId r).outOfOrderBuffer :=
        congrArg (fun c => c.outOfOrderBuffer) hsilent.1
      have hclear : (clearReceived senderId r).outOfOrderBuffer = r.outOfOrderBuffer := by
        rw [clearReceived]
        split <;> rfl
      show get₂ (sendDictReset C me convId senderId _).state.outOfOrderBuffer senderId k = none
      rw [hkeep, hclear]
      exact hbuf k
  · rw [if_neg hfp]
    cases hinf : Codec.inflateData C (decryptedLink C senderId convId q l).compressed
        (dictionaryOf q (receivedOf r senderId).values) with
    | none => exact ⟨List.not_mem_nil, hbuf⟩
    | some payload =>
      simp only
      split
      · exact ⟨List.not_mem_nil, hbuf⟩
      · refine ⟨fun hmem => ?_, fun k => ?_⟩
        · -- under a colliding fingerprint another payload may come out, and is stored
          have hdart : l.enc.dart = ⟨TYPE_DATA, convId, senderId, q, payload⟩ :=
            List.mem_singleton.mp hmem
          have hpayload : l.enc.dart.payload = payload := by rw [hdart]
          exact hno ⟨not_not.mp hfp, hinf.trans (congrArg some hpayload.symm)⟩
        · rw [prepend_state, modify_bind]
          show get₂ (storeReceived _ r).outOfOrderBuffer senderId k = none
          rw [(storeReceived_frame _ r).1]
          exact hbuf k

omit hne in
theorem Listening.afterLink (h : Listening senderId prev r) (hfollows : Follows prev q) :
    Listening senderId (some q) (DartProtocol.afterLink C senderId convId l r) ∧
      receivedOf (DartProtocol.afterLink C senderId convId l r) senderId
        = pushHistory (receivedOf r senderId) l.enc.dart := by
  have hahead := (h.dataAhead_eq_one_iff henc.seq_lt).mpr hfollows
  obtain ⟨r', hr'⟩ : ∃ r', r' = r.setChain convId l.enc.epoch senderId (chainAfter C l) := ⟨_, rfl⟩
  have hhighest : r'.highestReceivedSeq = r.highestReceivedSeq := by rw [hr']; rfl
  have hstore := storeReceived_highest r' l.enc.dart (by
    rw [henc.senderId, henc.seq, hhighest]
    cases hhas : r.highestReceivedSeq.has senderId with
    | false => exact Or.inl rfl
    | true =>
      right
      rw [dataAhead, if_pos hhas] at hahead
      rw [hahead]
      decide)
  rw [henc.senderId, henc.seq] at hstore
  have hafter : DartProtocol.afterLink C senderId convId l r = storeReceived l.enc.dart r' := by
    rw [hr']
    rfl
  rw [hafter]
  refine ⟨⟨?_, ?_, fun k => ?_, fun hp => ?_, fun p hp => ?_⟩, ?_⟩
  · refine Client.WellFormed.store ?_ (henc.seq ▸ henc.seq_lt)
    rw [hr']
    exact h.form.of_fields rfl rfl rfl rfl
  · rw [hstore.1, get_set_self]
  · rw [(storeReceived_frame _ _).1, hr']
    exact h.buffer k
  · cases hp
  · cases hp
    exact henc.seq_lt
  · rw [receivedOf, hstore.2, get_set_self, hr']
    rfl

include hC

/-- **The next dart of a conversation** is stored exactly when its number follows and the dictionary
accepts it. -/
theorem handleMessage_next_iff (h : Listening senderId prev r) (hidx : l.enc.idx < 2 ^ 32)
    (hreach : Reaches C senderId convId r l) :
    (storedDarts (handleMessage C me l.enc.buf r).output = [l.enc.dart] ↔
      Follows prev q ∧ Accepts C (dictionaryOf q (receivedOf r senderId).values) l) ∧
    (Follows prev q → Accepts C (dictionaryOf q (receivedOf r senderId).values) l →
      Listening senderId (some q) (handleMessage C me l.enc.buf r).state ∧
      receivedOf (handleMessage C me l.enc.buf r).state senderId
        = pushHistory (receivedOf r senderId) l.enc.dart ∧
      ∀ later, l.ChainsTo C later → Reaches C senderId convId r later →
        Reaches C senderId convId (handleMessage C me l.enc.buf r).state later) := by
  have hcore := noteSeen_core r senderId q
  have h' : Listening senderId prev (r.noteSeen senderId q) := h.of_core hcore
  have hrec : receivedOf (r.noteSeen senderId q) senderId = receivedOf r senderId :=
    receivedOf_of_core hcore senderId
  have hreaches : ∀ k, Reaches C senderId convId r k →
      Reaches C senderId convId (r.noteSeen senderId q) k := by
    rintro k ⟨chain, hget, hrest⟩
    refine ⟨chain, ?_, hrest⟩
    exact (Client.getChain_of_core hcore ..).trans hget
  obtain ⟨hstate, houtput⟩ := handleMessage_link me hC henc r
  rw [hstate, houtput, ← hrec]
  generalize r.noteSeen senderId q = r' at h' hreaches
  by_cases hfollows : Follows prev q
  · have hahead := (h'.dataAhead_eq_one_iff henc.seq_lt).mpr hfollows
    have hopen := openData_link hC henc hidx (hreaches l hreach)
    obtain ⟨r'', hr''⟩ : ∃ r'', r'' = r'.setChain convId l.enc.epoch senderId (chainAfter C l) := ⟨_, rfl⟩
    have h'' : Listening senderId prev r'' := by
      rw [hr'']
      exact ⟨h'.form.of_fields rfl rfl rfl rfl, h'.highest, h'.buffer, h'.fresh, h'.bound⟩
    have hrec'' : receivedOf r'' senderId = receivedOf r' senderId := by
      rw [hr'']
      rfl
    have hrun : routeData C me l.enc.buf convId senderId q r'
        = (processDataPacket C me (decryptedLink C senderId convId q l) senderId q >>= fun _ =>
            processBufferedPackets C me senderId) r'' := by
      rw [routeData, get_bind]
      simp only [hahead]
      rw [if_neg (by decide), if_neg (by decide), acceptNext, decryptDataInOrder_bind, hopen, hr'']
    rw [hrun, ← hrec'']
    by_cases hacc : Accepts C (dictionaryOf q (receivedOf r'' senderId).values) l
    · have hproc := processDataPacket_accepted hne henc h'' hfollows hacc
      have hafter : storeReceived l.enc.dart r'' = DartProtocol.afterLink C senderId convId l r' := by
        rw [hr'']
        rfl
      obtain ⟨hlisten, hpush⟩ := h'.afterLink henc hfollows
      have hres : (processDataPacket C me (decryptedLink C senderId convId q l) senderId q r'').result
          = some () := by rw [hproc]
      rw [bind_of_some hres, hproc, hafter, processBufferedPackets_none (hlisten.buffer _), hrec'']
      refine ⟨⟨fun _ => ⟨hfollows, hrec'' ▸ hacc⟩, fun _ => rfl⟩, fun _ _ => ⟨hlisten, hpush, ?_⟩⟩
      exact fun later hchain hlater => reaches_afterLink hchain (hreaches later hlater)
    · obtain ⟨hnot, hbuf⟩ := processDataPacket_refused hne convId h''.buffer hacc
      refine ⟨⟨fun hstored => ?_, fun hboth => absurd hboth.2 hacc⟩, fun _ hyes => absurd hyes hacc⟩
      refine absurd (?_ : l.enc.dart ∈ storedDarts (processDataPacket C me
        (decryptedLink C senderId convId q l) senderId q r'').output) hnot
      -- with or without an exception on the way to the reset, there is nothing to drain
      cases hres : (processDataPacket C me (decryptedLink C senderId convId q l) senderId q
        r'').result with
      | none =>
        rw [bind_of_none hres] at hstored
        rw [hstored]
        exact List.mem_singleton_self _
      | some u =>
        rw [bind_of_some hres, processBufferedPackets_none (hbuf _), prepend_output,
          List.append_nil] at hstored
        rw [hstored]
        exact List.mem_singleton_self _
  · have hahead : dataAhead r' senderId q ≠ 1 :=
      fun hone => hfollows ((h'.dataAhead_eq_one_iff henc.seq_lt).mp hone)
    rw [routeData_not_next l.enc.buf convId hahead]
    refine ⟨⟨fun hnil => ?_, fun hboth => absurd hboth.1 hfollows⟩, fun hf => absurd hf hfollows⟩
    cases hnil

end Next

/-! ### The darts of a conversation -/

/-- **Arrivals in order.**  After every arrival the receiver has stored all darts so far, if and only if
they are unmixed.  Induction over the darts. -/
theorem arrivals_stored_iff (hC : C.Lawful) (hne : senderId ≠ me.senderId) (ls : List Link)
    (henc : ∀ l ∈ ls, ∃ m, l.Encodes C senderId convId m l.enc.dart.seq)
    (hidx : ∀ l ∈ ls, l.enc.idx < 2 ^ 32) (hlinked : ls.Pairwise (Link.ChainsTo C)) :
    ∀ {prev : Option ℕ} {r : Client}, Listening senderId prev r →
      (∀ l ∈ ls, Reaches C senderId convId r l) →
      ((∀ k, storedDarts (eventLoop (handleMessage C me) ((ls.map fun l => l.enc.buf).take k) r).output
          = (ls.map fun l => l.enc.dart).take k) ↔
        Unmixed C prev (receivedOf r senderId) ls) := by
  induction ls with
  | nil =>
    intro prev r _ _
    refine ⟨fun _ => trivial, fun _ k => ?_⟩
    rw [List.map_nil, List.map_nil, List.take_nil, List.take_nil]
    rfl
  | cons l ls ih =>
    intro prev r h hreach
    obtain ⟨hto, hlinked'⟩ := List.pairwise_cons.mp hlinked
    obtain ⟨m, hm⟩ := henc l List.mem_cons_self
    obtain ⟨hiff, hnext⟩ := handleMessage_next_iff hC hne hm h (hidx l List.mem_cons_self)
      (hreach l List.mem_cons_self)
    have ih' := @ih (fun k hk => henc k (List.mem_cons_of_mem _ hk))
      (fun k hk => hidx k (List.mem_cons_of_mem _ hk)) hlinked'
    -- what is stored after one arrival more
    have hsucc : ∀ k, storedDarts (eventLoop (handleMessage C me)
          (((l :: ls).map fun l => l.enc.buf).take (k + 1)) r).output
        = storedDarts (handleMessage C me l.enc.buf r).output ++
          storedDarts (eventLoop (handleMessage C me) ((ls.map fun l => l.enc.buf).take k)
            (handleMessage C me l.enc.buf r).state).output := by
      intro k
      rw [List.map_cons, List.take_succ_cons, eventLoop_cons, prepend_output,
        storedDarts_append]
    constructor
    · intro hall
      have hone : storedDarts (handleMessage C me l.enc.buf r).output = [l.enc.dart] := by
        have h1 := hall 1
        rw [hsucc 0, List.take_zero] at h1
        exact (List.append_nil _).symm.trans h1
      obtain ⟨hfollows, hacc⟩ := hiff.mp hone
      obtain ⟨hlisten, hpush, hkeep⟩ := hnext hfollows hacc
      refine ⟨⟨hfollows, hacc⟩, ?_⟩
      rw [← hpush]
      refine (ih' hlisten fun k hk => hkeep k (hto k hk) (hreach k (List.mem_cons_of_mem _ hk))).mp ?_
      intro k
      have hk := hall (k + 1)
      rw [hsucc k, hone] at hk
      exact List.cons.inj hk |>.2
    · rintro ⟨⟨hfollows, hacc⟩, hrest⟩
      obtain ⟨hlisten, hpush, hkeep⟩ := hnext hfollows hacc
      rw [← hpush] at hrest
      have hlater := (ih' hlisten fun k hk =>
        hkeep k (hto k hk) (hreach k (List.mem_cons_of_mem _ hk))).mpr hrest
      intro k
      cases k with
      | zero => rfl
      | succ k =>
        rw [hsucc k, hiff.mpr ⟨hfollows, hacc⟩, hlater k]
        rfl

/-- The darts of a conversation were encoded by the sender for that conversation. -/
theorem linksIn_encodes (hme : me.Lawful) (es : List Event) :
    ∀ {s : Client}, s.WellFormed → ∀ l ∈ linksIn C me convId s es,
      ∃ m, l.Encodes C me.senderId convId m l.enc.dart.seq := by
  induction es with
  | nil => exact fun _ l hl => absurd hl List.not_mem_nil
  | cons e es ih =>
    intro s hs l hl
    rw [linksIn_cons] at hl
    rcases List.mem_append.mp hl with hl | hl
    · obtain ⟨hmem, hconv⟩ := List.mem_filter.mp hl
      have henc := linksAt_encodes hme hs hmem
      rw [of_decide_eq_true hconv] at henc
      rw [henc.seq]
      exact ⟨_, henc⟩
    · exact ih (step_wellFormed C me e hs) l hl

/-- **Delivery of one conversation among several.**  A sender in any reachable state makes any calls over
any conversations.  A receiver that has nothing of it yet, and for each epoch a chain state of
conversation `c` not beyond its first dart, gets the darts of `c` in order.  It has stored every dart so
far after every arrival, if and only if the darts of `c` are unmixed. -/
theorem conversation_delivered_iff {C : Crypto} (hC : C.Lawful) {S R : Identity} (hS : S.Lawful)
    (hne : S.senderId ≠ R.senderId) (c : ℕ) (before calls earlier : List Event)
    (hkeep : KeepsChain C S c (stateAfter C S before) calls)
    (hidx : ∀ l ∈ linksIn C S c (stateAfter C S before) calls, l.enc.idx < 2 ^ 32)
    (hnone : (stateAfter C R earlier).highestReceivedSeq.get S.senderId = none)
    (hbuf : ∀ q, get₂ (stateAfter C R earlier).outOfOrderBuffer S.senderId q = none)
    (hrec : receivedOf (stateAfter C R earlier) S.senderId = ∅)
    (hchain : ∀ i l, FirstOfEpoch (linksIn C S c (stateAfter C S before) calls) i l →
      Reaches C S.senderId c (stateAfter C R earlier) l) :
    (∀ k, storedDarts (eventLoop (handleMessage C R)
          (((linksIn C S c (stateAfter C S before) calls).map fun l => l.enc.buf).take k)
          (stateAfter C R earlier)).output
        = ((linksIn C S c (stateAfter C S before) calls).map fun l => l.enc.dart).take k) ↔
      Unmixed C none ∅ (linksIn C S c (stateAfter C S before) calls) := by
  have hlinked := (linked_of_calls calls hkeep).2
  have hlisten : Listening S.senderId none (stateAfter C R earlier) :=
    ⟨wellFormed_stateAfter C R earlier, hnone, hbuf, fun _ => hrec, fun p hp => by cases hp⟩
  have hiff := arrivals_stored_iff hC hne _
    (linksIn_encodes hS calls (wellFormed_stateAfter C S before)) hidx hlinked hlisten ?_
  · rw [hrec] at hiff
    exact hiff
  · intro l hl
    obtain ⟨i, hi⟩ := List.mem_iff_getElem?.mp hl
    exact reaches_of_first hlinked hchain hi

/-! ### Runs -/

/-- The sender founds conversations 1 and 2. -/
def founderOfTwo : List Event :=
  [.message (sumMemberInfo 1 1 true [1, 2]), .message (sumMemberInfo 2 1 true [1, 3])]

/-- A member of conversation 1 only, with what the founder sent it when it was founded. -/
def memberOfOne : List Event :=
  .message (sumMemberInfo 1 2 false [1, 2]) ::
    (framesOf (outputsOf sumCrypto (sumIdentity 1) founderOfTwo)).map Event.message

/-- The darts of conversation 1 among the calls. -/
abbrev linksInOne (calls : List Event) : List Link :=
  linksIn sumCrypto (sumIdentity 1) 1 (stateAfter sumCrypto (sumIdentity 1) founderOfTwo) calls

/-- What the member has stored after the first `k` of them. -/
abbrev storedOfOne (calls : List Event) (k : ℕ) : List DataDart :=
  storedDarts (eventLoop (handleMessage sumCrypto (sumIdentity 2))
    (((linksInOne calls).map fun l => l.enc.buf).take k)
    (stateAfter sumCrypto (sumIdentity 2) memberOfOne)).output

theorem memberOfOne_fresh :
    (stateAfter sumCrypto (sumIdentity 2) memberOfOne).highestReceivedSeq.get 1 = none ∧
      (stateAfter sumCrypto (sumIdentity 2) memberOfOne).outOfOrderBuffer = ∅ ∧
      receivedOf (stateAfter sumCrypto (sumIdentity 2) memberOfOne) 1 = ∅ := by
  decide +kernel

theorem keepsChain_of_calls {c : ℕ} (calls : List Event)
    (h : ∀ e ∈ calls, ∃ convId payload, e = .sendData convId payload) :
    ∀ s, KeepsChain C me c s calls := by
  induction calls with
  | nil => exact fun _ => trivial
  | cons e es ih =>
    intro s
    obtain ⟨convId, payload, he⟩ := h e List.mem_cons_self
    exact ⟨fun hno => absurd he (hno convId payload), ih (fun e he => h e (List.mem_cons_of_mem _ he)) _⟩

/-- Two darts of conversation 1, then one of conversation 2. -/
def unmixedCalls : List Event := [.sendData 1 "a", .sendData 1 "b", .sendData 2 "c"]

/-- A dart of conversation 2 between two of conversation 1. -/
def mixedCalls : List Event := [.sendData 1 "a", .sendData 2 "b", .sendData 1 "c"]

theorem unmixedCalls_eval :
    (linksInOne unmixedCalls).length = 2 ∧
      ∀ l ∈ linksInOne unmixedCalls, l.enc.idx < 2 ^ 32 ∧
        Reaches sumCrypto 1 1 (stateAfter sumCrypto (sumIdentity 2) memberOfOne) l := by
  decide +kernel

theorem unmixed_calls_delivered :
    (linksInOne unmixedCalls).length = 2 ∧
      ∀ k, storedOfOne unmixedCalls k = ((linksInOne unmixedCalls).map fun l => l.enc.dart).take k := by
  obtain ⟨hhigh, hbuf, hrec⟩ := memberOfOne_fresh
  obtain ⟨hlen, hall⟩ := unmixedCalls_eval
  have hkeep : KeepsChain sumCrypto (sumIdentity 1) 1 (stateAfter sumCrypto (sumIdentity 1) founderOfTwo)
      unmixedCalls := keepsChain_of_calls _ (by simp [unmixedCalls]) _
  have hiff := conversation_delivered_iff sumCrypto_lawful (sumIdentity_lawful 1)
    (R := sumIdentity 2) (by decide) 1 founderOfTwo unmixedCalls memberOfOne hkeep
    (fun l hl => (hall l hl).1) hhigh (fun q => by rw [hbuf]; rfl) hrec
    (fun i l h => (hall l (List.mem_of_getElem? h.1)).2)
  exact ⟨hlen, hiff.mpr (by decide +kernel)⟩

/-- **Another conversation blocks.**  The member has the founder's chain from its first dart on and gets
both darts of conversation 1 in order, but stores the first one only: the second one is held back behind
the number that conversation 2 used. -/
theorem other_conversation_blocks :
    (∀ s, KeepsChain sumCrypto (sumIdentity 1) 1 s mixedCalls) ∧
      (∀ l ∈ linksInOne mixedCalls,
        Reaches sumCrypto 1 1 (stateAfter sumCrypto (sumIdentity 2) memberOfOne) l) ∧
      (linksInOne mixedCalls).map (fun l => (l.enc.dart.seq, l.enc.dart.payload)) = [(1, "a"), (3, "c")] ∧
      (storedOfOne mixedCalls 2).map (fun d => (d.seq, d.payload)) = [(1, "a")] :=
  ⟨keepsChain_of_calls _ (by simp [mixedCalls]), by decide +kernel, by decide +kernel⟩

end DartProtocol
