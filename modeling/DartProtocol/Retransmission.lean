import DartProtocol.DictRecovery
import DartProtocol.SenderLog

/-!
# Repeated transmissions

A NACK is answered by encoding the dart again, under its cached message key, against the dictionary
that the sent history gives *now*.  The history is pruned to `DICT_WINDOW + 16` numbers behind the
newest dart, the dictionary reaches `DICT_WINDOW` numbers behind the repeated one.

* `run_logsSends` — without a Dict-Reset the sent history is what the sent darts, pushed one after the
  other, leave;
* `bytesAt_resend` — what the window of an older dart still holds;
* `resent_of_nack` — what a client encodes in answer to a NACK;
* `retransmission_iff` — exactly when a repeated transmission has the dictionary of the first one, and
  when a receiver that has everything before the dart accepts it.
-/

namespace DartProtocol

open Prog InsertionMap

variable {C : Crypto} {me : Identity}

/-! ### The sent history as a log -/

/-- The history after some darts were pushed on it. -/
def pushDarts (m : NumMap DataDart) (ds : List DataDart) : NumMap DataDart :=
  ds.foldl pushHistory m

theorem pushDarts_append (m : NumMap DataDart) (ds ds' : List DataDart) :
    pushDarts m (ds ++ ds') = pushDarts (pushDarts m ds) ds' := List.foldl_append

variable {ds : List DataDart} {m : NumMap DataDart}

theorem get_pushDarts {k : ℕ} (hk : ∀ d ∈ ds, d.seq ≠ k) :
    ∀ m : NumMap DataDart, (pushDarts m ds).get k
      = if ∀ d ∈ ds, recent d.seq k = true then m.get k else none := by
  induction ds with
  | nil =>
    intro m
    simp [pushDarts]
  | cons d ds ih =>
    intro m
    have hd : d.seq ≠ k := hk d List.mem_cons_self
    have hrest : ∀ d' ∈ ds, d'.seq ≠ k := fun d' hd' => hk d' (List.mem_cons_of_mem d hd')
    show (pushDarts (pushHistory m d) ds).get k = _
    rw [ih hrest, get_pushHistory, if_neg hd]
    by_cases hrec : recent d.seq k = true
    · cases m.get k <;> simp [Option.filter, hrec]
    · cases m.get k <;> simp [Option.filter, hrec]

/-- An event that carries no Dict-Reset. -/
def Event.NoReset : Event → Prop
  | .message buf => buf.readUInt8 0 ≠ some TYPE_DICT_RESET
  | _ => True

/-- The darts sent on the way account for the sent history, and a dart that is still there has kept
its message key. -/
structure LogsSends (s : Client) (os : List Output) (t : Client) : Prop where
  history : t.sentMessages = pushDarts s.sentMessages (sentDarts os)
  keys : ∀ k, t.sentMessages.has k = true → (∀ d ∈ sentDarts os, d.seq ≠ k) →
    t.messageKeys.get k = s.messageKeys.get k

theorem LogsSends.of_own {s t : Client} {os : List Output} (hown : t.ownStream = s.ownStream)
    (hsent : sentDarts os = []) : LogsSends s os t := by
  constructor
  · rw [hsent]
    exact congrArg OwnStream.sentMessages hown
  · intro k _ _
    rw [show t.messageKeys = s.messageKeys from congrArg OwnStream.messageKeys hown]

theorem LogsSends.trans {s t u : Client} {os os' : List Output} (h : LogsSends s os t)
    (h' : LogsSends t os' u) : LogsSends s (os ++ os') u := by
  constructor
  · rw [sentDarts_append, pushDarts_append, ← h.history]
    exact h'.history
  · intro k hk hnot
    rw [sentDarts_append] at hnot
    have hlater : ∀ d ∈ sentDarts os', d.seq ≠ k := fun d hd => hnot d (List.mem_append_right _ hd)
    -- what is there in the end was there in between
    have hmid : t.sentMessages.has k = true := by
      obtain ⟨d, hd⟩ := has_iff.mp hk
      rw [h'.history, get_pushDarts hlater] at hd
      split at hd
      · exact has_iff.mpr ⟨d, hd⟩
      · cases hd
    rw [h'.keys k hk hlater]
    exact h.keys k hmid fun d hd => hnot d (List.mem_append_left _ hd)

theorem logsSends_composable : Composable LogsSends :=
  ⟨fun _ => LogsSends.of_own rfl rfl, LogsSends.trans⟩

/-- Nothing is entered in the sent history. -/
def SendsNothing : Client → List Output → Client → Prop :=
  fun s os t => t.ownStream = s.ownStream ∧ sentDarts os = []

theorem sendsNothing_background : Background SendsNothing where
  comp := by
    constructor
    · exact fun _ => ⟨rfl, rfl⟩
    · intro s t u os os' h h'
      refine ⟨h'.1.trans h.1, ?_⟩
      rw [sentDarts_append, h.2, h'.2]
      rfl
  bookkeeping := fun _ _ h => ⟨(keepsOwn_background (fun o => o)).bookkeeping _ _ h, rfl⟩
  broadcast := fun _ _ _ => ⟨rfl, rfl⟩

theorem SendsNothing.of_rest {s t : Client} (h : t.rest = s.rest) : SendsNothing s [] t :=
  ⟨congrArg (·.ownStream) h, rfl⟩

theorem sendsNothing_frame : FrameRules C me SendsNothing := by
  refine FrameRules.of_streams sendsNothing_background (fun _ => ?_) ?_
    (fun _ _ h => ⟨congrArg (·.ownStream) h, rfl⟩) (fun _ _ => ⟨rfl, rfl⟩) (fun _ => ⟨rfl, rfl⟩)
    (fun _ _ => ⟨rfl, rfl⟩) (fun _ _ => ⟨rfl, rfl⟩) fun _ _ _ _ => ⟨rfl, rfl⟩
  · exact .of_rest_chains sendsNothing_background (fun _ _ => SendsNothing.of_rest)
      (fun _ _ => ⟨rfl, rfl⟩) (fun _ _ => ⟨rfl, rfl⟩) fun _ _ => ⟨rfl, rfl⟩
  · exact fun s senderId => SendsNothing.of_rest (ensureReceived_rest senderId s)

theorem sendData_logsSends (convId : ℕ) (payload : String) (s : Client) :
    ObeysAt LogsSends (sendData C me convId payload) s := by
  apply sendData_obeysAt sendsNothing_background
  · exact fun _ => ⟨rfl, fun _ _ _ => rfl⟩
  · intro chain _ os t hrest
    obtain ⟨hown, hsent⟩ := hrest
    obtain ⟨dart, hdart⟩ : ∃ dart : DataDart,
        dart = ⟨TYPE_DATA, convId, me.senderId, s.nextSeq, payload⟩ := ⟨_, rfl⟩
    have hdarts : sentDarts (.sent dart :: os) = [dart] := by
      show dart :: sentDarts os = [dart]
      rw [hsent]
    have hhist : t.sentMessages = pushHistory s.sentMessages dart := by
      rw [hdart]
      exact congrArg OwnStream.sentMessages hown
    rw [← hdart]
    constructor
    · rw [hdarts, hhist]
      rfl
    · intro k hk hnot
      have hne : dart.seq ≠ k := hnot dart (by rw [hdarts]; exact List.mem_singleton.mpr rfl)
      -- the dart is still there, so it is recent and pruning has kept its key
      have hrec : recent dart.seq k = true := by
        obtain ⟨d, hd⟩ := has_iff.mp hk
        rw [hhist, get_pushHistory, if_neg hne] at hd
        exact (Option.filter_eq_some_iff.mp hd).2
      have hkeys : t.messageKeys = (s.messageKeys.set dart.seq
          { key := (advanceChain C chain chain.index).1, idx := chain.index,
            epoch := s.sendingEpoch convId }).retain fun k _ =>
              !(s.sentMessages.set dart.seq dart).has k || recent dart.seq k := by
        rw [hdart]
        exact congrArg OwnStream.messageKeys hown
      rw [hkeys, get_retain, get_set_of_ne _ _ hne]
      cases s.messageKeys.get k with
      | none => rfl
      | some mk => simp [Option.filter, hrec]
  · exact fun _ _ _ _ _ _ => ⟨rfl, rfl⟩

theorem step_logsSends {e : Event} (he : e.NoReset) :
    Obeys LogsSends (step C me e) := by
  intro s
  by_cases hsend : ∃ c p, e = .sendData c p
  · obtain ⟨c, p, rfl⟩ := hsend
    exact sendData_logsSends c p s
  · have h : SendsNothing s (step C me e s).output (step C me e s).state := by
      apply sendsNothing_frame.step_of
      · intro c p heq
        exact absurd ⟨c, p, heq⟩ hsend
      · intro buf heq hreset
        rw [heq] at he
        exact absurd hreset he
    exact LogsSends.of_own h.1 h.2

/-- **A run without a Dict-Reset** logs its sends. -/
theorem run_logsSends {es : List Event} (hes : ∀ e ∈ es, e.NoReset)
    (s : Client) : LogsSends s (run C me es s).output (run C me es s).state :=
  Obeys.eventLoop logsSends_composable (fun e he => step_logsSends (hes e he)) s

/-! ### The window of an older dart -/

theorem recent_of_mem_window {k q : ℕ} (hq : q < SEQ_MOD) (hk : k ∈ windowSeqs q) :
    recent q k = true ∧ recent k q = false := by
  obtain ⟨hlt, h1, h2⟩ := (mem_windowSeqs hq).mp hk
  rw [recent, recent, decide_eq_true_eq, decide_eq_false_iff_not]
  refine ⟨by omega, ?_⟩
  rw [seqDelta_eq hq hlt]
  rw [seqDelta_eq hlt hq] at h1 h2
  unfold DICT_WINDOW at *
  unfold SEQ_MOD at *
  split <;> split at h1 <;> split at h2 <;> omega

/-- **What is left of the window.**  The darts `ds` were sent after the dart `dart`, which is still in
the history: an entry of its window is there exactly when none of them pruned it. -/
theorem bytesAt_resend {dart : DataDart}
    (hq : dart.seq < SEQ_MOD) (honce : ∀ d ∈ ds, d.seq ≠ dart.seq)
    (hkept : (pushDarts (pushHistory m dart) ds).has dart.seq = true) {k : ℕ}
    (hk : k ∈ windowSeqs dart.seq) :
    bytesAt (pushDarts (pushHistory m dart) ds) k
      = if ∀ d ∈ ds, recent d.seq k = true then bytesAt m k else [] := by
  obtain ⟨hrec, hfar⟩ := recent_of_mem_window hq hk
  -- no dart of the window was sent again, for that would have pruned `dart`
  have hclose : ∀ d ∈ ds, recent d.seq dart.seq = true := by
    obtain ⟨d, hd⟩ := has_iff.mp hkept
    rw [get_pushDarts honce] at hd
    split at hd
    · assumption
    · cases hd
  have hnot : ∀ d ∈ ds, d.seq ≠ k := by
    intro d hd heq
    have := hclose d hd
    rw [heq, hfar] at this
    cases this
  have hne : dart.seq ≠ k := by
    intro heq
    rw [heq, recent_self] at hfar
    cases hfar
  rw [bytesAt, get_pushDarts hnot, get_pushHistory, if_neg hne]
  by_cases hall : ∀ d ∈ ds, recent d.seq k = true
  · rw [if_pos hall, if_pos hall, bytesAt]
    cases m.get k <;> simp [Option.filter, hrec]
  · rw [if_neg hall, if_neg hall]

/-- Leaving out some pieces of a concatenation changes it unless they are empty. -/
theorem flatMap_ite_eq_iff {α β : Type} (f : α → List β) (p : α → Prop) [DecidablePred p]
    (l : List α) :
    l.flatMap (fun a => if p a then f a else []) = l.flatMap f ↔ ∀ a ∈ l, p a ∨ f a = [] := by
  have hle : ∀ l : List α,
      (l.flatMap fun a => if p a then f a else []).length ≤ (l.flatMap f).length := by
    intro l
    induction l with
    | nil => simp
    | cons a l ih =>
      rw [List.flatMap_cons, List.flatMap_cons, List.length_append, List.length_append]
      split
      · omega
      · rw [List.length_nil]
        omega
  induction l with
  | nil => simp
  | cons a l ih =>
    rw [List.flatMap_cons, List.flatMap_cons, List.forall_mem_cons]
    by_cases hp : p a
    · rw [if_pos hp, List.append_cancel_left_eq]
      exact ih.trans ⟨fun h => ⟨Or.inl hp, h⟩, fun h => h.2⟩
    · rw [if_neg hp, List.nil_append]
      constructor
      · intro h
        have hlen := congrArg List.length h
        rw [List.length_append] at hlen
        have hnil : f a = [] := by
          apply List.eq_nil_of_length_eq_zero
          have := hle l
          omega
        rw [hnil, List.nil_append] at h
        exact ⟨Or.inr hnil, ih.mp h⟩
      · rintro ⟨hpa | hnil, hrest⟩
        · exact absurd hpa hp
        · rw [hnil, List.nil_append]
          exact ih.mpr hrest

/-- Every dart of the window of `q` that has a payload is close enough to all the darts `ds`. -/
def WindowKept (m : NumMap DataDart) (q : ℕ) (ds : List DataDart) : Prop :=
  ∀ k ∈ windowSeqs q, ∀ dart, m.get k = some dart → dart.payload ≠ "" →
    ∀ d ∈ ds, recent d.seq k = true

theorem windowKept_iff {q : ℕ} :
    WindowKept m q ds ↔
      ∀ k ∈ windowSeqs q, (∀ d ∈ ds, recent d.seq k = true) ∨ bytesAt m k = [] := by
  constructor
  · intro h k hk
    rw [bytesAt]
    cases hget : m.get k with
    | none => exact Or.inr rfl
    | some dart =>
      by_cases hpay : dart.payload = ""
      · right
        exact utf8_eq_nil.mpr hpay
      · left
        exact h k hk dart hget hpay
  · intro h k hk dart hget hpay
    rcases h k hk with hrec | hnil
    · exact hrec
    · rw [bytesAt, hget] at hnil
      exact absurd (utf8_eq_nil.mp hnil) hpay

/-- **The dictionary of an older dart.** -/
theorem dictionary_resend_iff (hm : Keyed m) {dart : DataDart} (hq : dart.seq < SEQ_MOD)
    (honce : ∀ d ∈ ds, d.seq ≠ dart.seq)
    (hkept : (pushDarts (pushHistory m dart) ds).has dart.seq = true)
    (hkeyed : Keyed (pushDarts (pushHistory m dart) ds)) :
    dictionaryOf dart.seq (pushDarts (pushHistory m dart) ds).values
        = dictionaryOf dart.seq m.values ↔ WindowKept m dart.seq ds := by
  rw [dictionaryOf_eq_windowBytes hkeyed hq, dictionaryOf_eq_windowBytes hm hq, windowKept_iff]
  have hbytes : windowBytes (pushDarts (pushHistory m dart) ds) dart.seq
      = (windowSeqs dart.seq).flatMap fun k =>
          if ∀ d ∈ ds, recent d.seq k = true then bytesAt m k else [] := by
    apply List.flatMap_congr
    intro k hk
    exact bytesAt_resend hq honce hkept hk
  rw [hbytes]
  exact flatMap_ite_eq_iff (bytesAt m) (fun k => ∀ d ∈ ds, recent d.seq k = true) _

/-! ### The answer to a NACK -/

/-- An encoding of a dart of the history under its cached key, against its present dictionary. -/
structure Resent (C : Crypto) (me : Identity) (s : Client) (e : Encoding) : Prop where
  dart : s.sentMessages.get e.dart.seq = some e.dart
  key : s.messageKeys.get e.dart.seq = some ⟨e.messageKey, e.idx, e.epoch⟩
  dict : e.dict = getDictionary me s me.senderId e.dart.seq
  nonce : e.nonce.length = 12
  buf : Codec.encodeDataHelper C e.dart e.dict e.messageKey e.idx e.epoch e.nonce = some e.buf

/-- What is encoded comes from the history of `s₀`, which stays. -/
def Resends (C : Crypto) (me : Identity) (s₀ : Client) : Client → List Output → Client → Prop :=
  fun s os t => s.ownStream = s₀.ownStream →
    t.ownStream = s₀.ownStream ∧ ∀ e, Output.encoded e ∈ os → Resent C me s₀ e

theorem resends_background (s₀ : Client) : Background (Resends C me s₀) where
  comp := by
    constructor
    · exact fun s hs => ⟨hs, fun e he => absurd he List.not_mem_nil⟩
    · intro s t u os os' h h' hs
      obtain ⟨ht, henc⟩ := h hs
      obtain ⟨hu, henc'⟩ := h' ht
      refine ⟨hu, ?_⟩
      intro e he
      rcases List.mem_append.mp he with he | he
      · exact henc e he
      · exact henc' e he
  bookkeeping := by
    intro s t hcore hs
    have hown : t.ownStream = s.ownStream :=
      (keepsOwn_background (fun o => o)).bookkeeping s t hcore
    exact ⟨hown.trans hs, fun e he => absurd he List.not_mem_nil⟩
  broadcast := by
    intro s buf via hs
    refine ⟨hs, ?_⟩
    intro e he
    cases List.mem_singleton.mp he

theorem retransmit_resends (hme : me.Lawful) {s₀ : Client} (h₀ : s₀.WellFormed) (seq : ℕ) :
    Obeys (Resends C me s₀) (retransmit C me seq) := by
  intro s hs
  have hsent : s.sentMessages = s₀.sentMessages := congrArg OwnStream.sentMessages hs
  have hkeys : s.messageKeys = s₀.messageKeys := congrArg OwnStream.messageKeys hs
  have hdict : getDictionary me s me.senderId seq = getDictionary me s₀ me.senderId seq := by
    rw [getDictionary, getDictionary, historyOf_self, historyOf_self, hsent]
  refine retransmit_obeysAt (resends_background s₀) ?_ hs
  intro dart mk hdart hmk t i buf hbuf ht
  rw [hsent] at hdart
  rw [hkeys] at hmk
  have hseq : dart.seq = seq := (h₀.sent seq dart hdart).1
  refine ⟨ht, ?_⟩
  intro e he
  cases List.mem_singleton.mp he
  refine ⟨?_, ?_, ?_, hme _ _, hbuf⟩
  · rw [← hseq] at hdart
    exact hdart
  · rw [← hseq] at hmk
    exact hmk
  · rw [← hseq] at hdict
    rw [← hseq]
    exact hdict

theorem reshareSeed_resends (s₀ : Client) (convId targetId : ℕ) :
    Obeys (Resends C me s₀) (reshareSeed C me convId targetId) := by
  intro s
  apply reshareSeed_obeysAt (resends_background s₀)
  intro t share _ _ _ _ ht
  refine ⟨ht, ?_⟩
  intro e he
  cases List.mem_singleton.mp he

/-- **The answer to a NACK** consists of encodings of the sent history. -/
theorem resent_of_nack (hme : me.Lawful) {s : Client} (hs : s.WellFormed) {nack : Buffer}
    (htype : nack.readUInt8 0 = some TYPE_NACK) {e : Encoding}
    (he : Output.encoded e ∈ (step C me (.message nack) s).output) : Resent C me s e := by
  have hB : Background (Resends C me s) := resends_background s
  have h : ObeysAt (Resends C me s) (handleMessage C me nack) s := by
    apply handleMessage_obeysAt hB
    intro type hread
    rw [htype] at hread
    cases hread
    have hhandler : handlerOf C me TYPE_NACK nack = handleNack C me nack := by
      rw [handlerOf, if_neg (by decide), if_neg (by decide), if_pos rfl]
    rw [hhandler]
    exact handleNack_obeys hB (retransmit_resends hme hs) (reshareSeed_resends s) nack s
  rw [step_message] at he
  split at he
  · cases he
  · exact (h rfl).2 e he

/-! ### First and repeated transmission -/

/-- A dart is sent; later its sender answers a NACK. -/
structure ResendRun where
  /-- The sender's events before the first transmission. -/
  before : List Event
  convId : ℕ
  payload : String
  /-- The first transmission. -/
  first : Link
  /-- The sender's events between the first transmission and the NACK. -/
  after : List Event

namespace ResendRun

section Parts

variable (C : Crypto) (S : Identity) (x : ResendRun)

/-- The sender before the first transmission. -/
def atSend : Client := stateAfter C S x.before

/-- The number of the dart. -/
def number : ℕ := (x.atSend C S).nextSeq

/-- The sender after the first transmission. -/
def sent : Client := stateAfter C S (x.before ++ [.sendData x.convId x.payload])

/-- The darts sent since. -/
def later : List DataDart := sentDarts (run C S x.after (x.sent C S)).output

/-- The sender when the NACK arrives. -/
def atNack : Client := (run C S x.after (x.sent C S)).state

/-- The first transmission succeeds, no Dict-Reset follows, and the dart is still in the history when
the NACK arrives, not replaced by another one with its number. -/
structure Valid : Prop where
  first : linksAt C S (.sendData x.convId x.payload) (x.atSend C S) = [x.first]
  noReset : ∀ e ∈ x.after, e.NoReset
  once : ∀ d ∈ x.later C S, d.seq ≠ x.number C S
  kept : (x.atNack C S).sentMessages.has (x.number C S) = true

/-- A receiver that has everything before the dart, and can reach its key. -/
structure Delivered (r : Client) : Prop where
  waits : Waits S.senderId (x.number C S) r
  history : Agree (receivedOf r S.senderId) (x.atSend C S).sentMessages (x.number C S)
  chain : Reaches C S.senderId x.convId r x.first
  idx : x.first.enc.idx < 2 ^ 32

end Parts

variable {C : Crypto} {S : Identity} {x : ResendRun}

/-- The first transmission as a link of the stream, and what it leaves behind at the sender. -/
theorem Valid.encodes (hS : S.Lawful) (hx : x.Valid C S) :
    x.first.Encodes C S.senderId x.convId (x.atSend C S).sentMessages (x.number C S) ∧
      (x.sent C S).sentMessages = pushHistory (x.atSend C S).sentMessages x.first.enc.dart ∧
      (x.sent C S).messageKeys.get (x.number C S)
        = some ⟨x.first.enc.messageKey, x.first.enc.idx, x.first.enc.epoch⟩ := by
  have hform : (x.atSend C S).WellFormed := wellFormed_stateAfter C S x.before
  have hne : linksAt C S (.sendData x.convId x.payload) (x.atSend C S) ≠ [] := by
    rw [hx.first]
    exact List.cons_ne_nil _ _
  obtain ⟨chain, buf, hchain, henc, hlinks⟩ := linksAt_send hne
  rw [hx.first, List.cons.injEq] at hlinks
  have hsent : x.sent C S = (sendData C S x.convId x.payload (x.atSend C S)).state :=
    stateAfter_concat C S x.before _
  have hcore := (sendData_run C x.payload hchain).1
  have hadv : (advanceChain C chain chain.index).1 = chainMessageKey C chain.key chain.index := by
    rw [advanceChain_of_le C (Nat.le_refl _), Nat.sub_self]
    rfl
  rw [hsent, hlinks.1]
  refine ⟨?_, congrArg (fun c => c.sentMessages) hcore, ?_⟩
  · exact
      { type := rfl, convId := rfl, senderId := rfl, seq := rfl, seq_lt := hform.nextSeq
        keyed := hform.sent, dict := by rw [getDictionary, historyOf_self]; rfl, messageKey := rfl
        nonce := hS _ _, buf := henc }
  · have hkeys : (sendData C S x.convId x.payload (x.atSend C S)).state.messageKeys
        = (enterSent C S x.convId x.payload chain (x.atSend C S)).messageKeys :=
      congrArg (fun c => c.messageKeys) hcore
    rw [hkeys, ← hadv]
    show InsertionMap.get (InsertionMap.retain (InsertionMap.set _ (x.atSend C S).nextSeq _) _)
      (x.atSend C S).nextSeq = _
    rw [get_retain, get_set_self]
    simp [Option.filter, recent_self]

theorem Valid.atNack_eq (hS : S.Lawful) (hx : x.Valid C S) :
    (x.atNack C S).sentMessages
        = pushDarts (pushHistory (x.atSend C S).sentMessages x.first.enc.dart) (x.later C S) ∧
      (x.atNack C S).messageKeys.get (x.number C S)
        = some ⟨x.first.enc.messageKey, x.first.enc.idx, x.first.enc.epoch⟩ ∧
      (x.atNack C S).sentMessages.get (x.number C S) = some x.first.enc.dart := by
  obtain ⟨henc, hhist, hkey⟩ := hx.encodes hS
  have hlog := @run_logsSends C S _ hx.noReset (x.sent C S)
  have hatNack : (x.atNack C S).sentMessages
      = pushDarts (pushHistory (x.atSend C S).sentMessages x.first.enc.dart) (x.later C S) := by
    rw [← hhist]
    exact hlog.history
  refine ⟨hatNack, (hlog.keys _ hx.kept hx.once).trans hkey, ?_⟩
  obtain ⟨d, hd⟩ := has_iff.mp hx.kept
  rw [hd]
  rw [hatNack, get_pushDarts hx.once, get_pushHistory, if_pos henc.seq] at hd
  split at hd
  · exact hd.symm
  · cases hd

/-- **Exactly when the dictionary of the first transmission is found again.** -/
theorem Valid.dictionary_iff (hS : S.Lawful) (hx : x.Valid C S) :
    getDictionary S (x.atNack C S) S.senderId (x.number C S) = x.first.enc.dict ↔
      WindowKept (x.atSend C S).sentMessages (x.number C S) (x.later C S) := by
  obtain ⟨henc, -, -⟩ := hx.encodes hS
  obtain ⟨hhist, -, -⟩ := hx.atNack_eq hS
  have hform : (x.atNack C S).WellFormed := by
    rw [atNack, sent, ← stateAfter_append]
    exact wellFormed_stateAfter C S _
  have hkept := hx.kept
  have hkeyed := hform.sent
  have honce := hx.once
  rw [getDictionary, historyOf_self, henc.dict]
  rw [hhist] at hkept hkeyed ⊢
  have hseq : x.first.enc.dart.seq = x.number C S := henc.seq
  rw [← hseq] at hkept honce ⊢
  exact dictionary_resend_iff henc.keyed (hseq ▸ henc.seq_lt) honce hkept hkeyed

/-- The repeated transmission as a link: the first one with another dictionary, nonce and frame. -/
theorem Valid.resent_encodes (hS : S.Lawful) (hx : x.Valid C S) {e : Encoding}
    (he : Resent C S (x.atNack C S) e) (hseq : e.dart.seq = x.number C S) :
    e.dart = x.first.enc.dart ∧ e.idx = x.first.enc.idx ∧ e.epoch = x.first.enc.epoch ∧
      (Link.mk e x.first.chainKey).Encodes C S.senderId x.convId (x.atNack C S).sentMessages
        (x.number C S) := by
  obtain ⟨henc, -, -⟩ := hx.encodes hS
  obtain ⟨-, hkey, hget⟩ := hx.atNack_eq hS
  have hform : (x.atNack C S).WellFormed := by
    rw [atNack, sent, ← stateAfter_append]
    exact wellFormed_stateAfter C S _
  have hdart := he.dart
  have hmk := he.key
  have hdict := he.dict
  rw [hseq] at hdart hmk hdict
  rw [hget, Option.some.injEq] at hdart
  rw [hkey, Option.some.injEq, MessageKey.mk.injEq] at hmk
  obtain ⟨hmk, hidx, hepoch⟩ := hmk
  refine ⟨hdart.symm, hidx.symm, hepoch.symm, ?_⟩
  exact
    { type := hdart ▸ henc.type, convId := hdart ▸ henc.convId, senderId := hdart ▸ henc.senderId
      seq := hseq, seq_lt := henc.seq_lt, keyed := hform.sent
      dict := by rw [hdict, getDictionary, historyOf_self]
      messageKey := by
        show e.messageKey = chainMessageKey C x.first.chainKey e.idx
        rw [← hmk, ← hidx]
        exact henc.messageKey
      nonce := he.nonce, buf := he.buf }

end ResendRun

/-- A receiver that waits for a dart stores it when the dictionaries agree. -/
theorem handleMessage_matched {me : Identity} {senderId convId q : ℕ} (hC : C.Lawful)
    (hne : senderId ≠ me.senderId) {r : Client} (hform : r.WellFormed) (h : Waits senderId q r)
    {l : Link} (henc : l.Encodes C senderId convId m q)
    (hagree : Agree (receivedOf r senderId) m q) (hidx : l.enc.idx < 2 ^ 32)
    (hreach : Reaches C senderId convId r l) :
    l.enc.dart ∈ storedDarts (handleMessage C me l.enc.buf r).output := by
  have hcore := noteSeen_core r senderId q
  have h' : Waits senderId q (r.noteSeen senderId q) := h.of_core hcore
  have hahead : dataAhead (r.noteSeen senderId q) senderId q = 1 := by
    rw [h'.dataAhead, seqDelta_seqBack henc.seq_lt (by decide)]
  have hreach' : Reaches C senderId convId (r.noteSeen senderId q) l := by
    obtain ⟨chain, hget, hrest⟩ := hreach
    exact ⟨chain, (Client.getChain_of_core hcore ..).trans hget, hrest⟩
  have hform' := hform.of_core hcore
  have hagree' : Agree (receivedOf (r.noteSeen senderId q) senderId) m q := by
    rw [receivedOf_of_core hcore]
    exact hagree
  obtain ⟨-, houtput⟩ := handleMessage_link me hC henc r
  rw [houtput, routeData, get_bind]
  simp only [hahead]
  rw [if_neg (by decide), if_neg (by decide)]
  generalize r.noteSeen senderId q = r' at h' hreach' hform' hagree' ⊢
  rw [acceptNext, decryptDataInOrder_bind, openData_link hC henc hidx hreach']
  simp only
  have hprocess := processDataPacket_link
    (r := r'.setChain convId l.enc.epoch senderId (chainAfter C l)) hC hne henc
    (hform'.received senderId) hagree' (hform'.free_next henc.seq_lt h'.highest)
  have hresult : (processDataPacket C me (decryptedLink C senderId convId q l) senderId q
      (r'.setChain convId l.enc.epoch senderId (chainAfter C l))).result = some () := by
    rw [hprocess]
  rw [bind_of_some hresult, Outcome.prepend_output, storedDarts_append, hprocess]
  exact List.mem_append_left _ List.mem_cons_self

/-- **Repeated transmissions.**  The dictionary against which the answer to a NACK encodes a dart is
the one of its first transmission if and only if every dart with a payload in its window is at most
`DICT_WINDOW + 16` numbers behind each dart sent since; and under the same condition, and no other, a
receiver that has everything before the dart stores the repeated one. -/
theorem retransmission_iff {C : Crypto} (hC : C.Lawful) {S : Identity} (hS : S.Lawful)
    {x : ResendRun} (hx : x.Valid C S) :
    (getDictionary S (x.atNack C S) S.senderId (x.number C S) = x.first.enc.dict ↔
      WindowKept (x.atSend C S).sentMessages (x.number C S) (x.later C S)) ∧
    ∀ (nack : Buffer) (e : Encoding), nack.readUInt8 0 = some TYPE_NACK →
      Output.encoded e ∈ (step C S (.message nack) (x.atNack C S)).output →
      e.dart.seq = x.number C S →
      ∀ (R : Identity) (earlier : List Event), S.senderId ≠ R.senderId →
        x.Delivered C S (stateAfter C R earlier) →
        (dictFingerprint C e.dict = dictFingerprint C x.first.enc.dict →
          e.dict = x.first.enc.dict) →
        (x.first.enc.dart ∈ storedDarts (handleMessage C R e.buf (stateAfter C R earlier)).output ↔
          WindowKept (x.atSend C S).sentMessages (x.number C S) (x.later C S)) := by
  refine ⟨hx.dictionary_iff hS, ?_⟩
  intro nack e htype hmem hseq R earlier hne hr hfp
  have hform : (x.atNack C S).WellFormed := by
    rw [ResendRun.atNack, ResendRun.sent, ← stateAfter_append]
    exact wellFormed_stateAfter C S _
  have he : Resent C S (x.atNack C S) e := resent_of_nack hS hform htype hmem
  obtain ⟨hdart, hidx, hepoch, henc⟩ := hx.resent_encodes hS he hseq
  obtain ⟨hfirst, -, -⟩ := hx.encodes hS
  have hdict := he.dict
  rw [hseq] at hdict
  have hreach : Reaches C S.senderId x.convId (stateAfter C R earlier) ⟨e, x.first.chainKey⟩ := by
    obtain ⟨chain, hget, hle, hkey⟩ := hr.chain
    refine ⟨chain, ?_, ?_, ?_⟩
    · show _ = _
      rw [hepoch]
      exact hget
    · show chain.index ≤ e.idx
      rw [hidx]
      exact hle
    · show x.first.chainKey = chainSteps C (e.idx - chain.index) chain.key
      rw [hidx]
      exact hkey
  rw [← hx.dictionary_iff hS, ← hdict, ← hdart]
  constructor
  · -- without the dictionary of the first transmission the fingerprints differ
    intro hstored
    by_contra hother
    have hmine : getDictionary R (stateAfter C R earlier) S.senderId (x.number C S)
        = x.first.enc.dict := by
      rw [getDictionary, historyOf_of_ne hne, hfirst.dict]
      exact dictionaryOf_congr ((wellFormed_stateAfter C R earlier).received S.senderId)
        hfirst.keyed hfirst.seq_lt hr.history
    obtain ⟨-, -, hnone⟩ := handleMessage_unmatched R hC hfirst.seq_lt hr.waits henc
      (by rw [hmine]; exact fun heq => hother (hfp heq))
    rw [hnone] at hstored
    cases hstored
  · intro hsame
    have hlink : (Link.mk e x.first.chainKey).Encodes C S.senderId x.convId
        (x.atSend C S).sentMessages (x.number C S) :=
      { henc with keyed := hfirst.keyed, dict := hsame.trans hfirst.dict }
    have hlt : (Link.mk e x.first.chainKey).enc.idx < 2 ^ 32 := by
      show e.idx < 2 ^ 32
      rw [hidx]
      exact hr.idx
    have hstored := handleMessage_matched hC hne (wellFormed_stateAfter C R earlier) hr.waits hlink
      hr.history hlt hreach
    exact hstored

/-! ### Two runs -/

/-- The sender's first frames: it founds a group of two and sends `"a"`. -/
def lostBefore : List Event := [.message (sumMemberInfo 5 1 true [1, 2]), .sendData 5 "a"]

/-- It sends `"b"`, which is lost, and `"c"`, uses up some numbers in a conversation it has not
joined, and sends `"d"`. -/
def lostDart (skipped : ℕ) : ResendRun where
  before := lostBefore
  convId := 5
  payload := "b"
  first := (linksAt sumCrypto (sumIdentity 1) (.sendData 5 "b")
    (stateAfter sumCrypto (sumIdentity 1) lostBefore)).head?.getD
      ⟨⟨⟨0, 0, 0, 0, ""⟩, [], [], 0, 0, [], []⟩, []⟩
  after := .sendData 5 "c" :: (List.replicate skipped (.sendData 6 "") ++ [.sendData 5 "d"])

/-- The receiver joins and gets what the sender has sent up to `"c"`, except the lost dart. -/
def lostEarlier : List Event :=
  .message (sumMemberInfo 5 2 false [1, 2]) ::
    (framesOf (outputsOf sumCrypto (sumIdentity 1) lostBefore) ++
      framesOf (step sumCrypto (sumIdentity 1) (.sendData 5 "c")
        (stateAfter sumCrypto (sumIdentity 1) (lostBefore ++ [.sendData 5 "b"]))).output).map .message

/-- Its NACK, which the sender gets after `"d"`. -/
def lostNack : Buffer :=
  ((framesOf (outputsOf sumCrypto (sumIdentity 2) lostEarlier)).find? fun b =>
    b.readUInt8 0 == some TYPE_NACK).getD []

/-- What the sender encodes in answer to it. -/
def lostAnswer (skipped : ℕ) : List Encoding :=
  encodings (step sumCrypto (sumIdentity 1) (.message lostNack)
    ((lostDart skipped).atNack sumCrypto (sumIdentity 1))).output

theorem lostDart_noReset (skipped : ℕ) : ∀ e ∈ (lostDart skipped).after, e.NoReset := by
  intro e he
  rcases List.mem_cons.mp he with rfl | he
  · trivial
  · rcases List.mem_append.mp he with he | he
    · rw [List.eq_of_mem_replicate he]
      trivial
    · rw [List.mem_singleton.mp he]
      trivial

theorem lostDart_delivered (skipped : ℕ) :
    (lostDart skipped).Delivered sumCrypto (sumIdentity 1)
      (stateAfter sumCrypto (sumIdentity 2) lostEarlier) := by
  have h : (stateAfter sumCrypto (sumIdentity 2) lostEarlier).highestReceivedSeq.get 1
        = some (seqBack ((lostDart 0).number sumCrypto (sumIdentity 1)) 1) ∧
      get₂ (stateAfter sumCrypto (sumIdentity 2) lostEarlier).outOfOrderBuffer 1
        ((lostDart 0).number sumCrypto (sumIdentity 1)) = none ∧
      (∀ k ∈ windowSeqs ((lostDart 0).number sumCrypto (sumIdentity 1)),
        bytesAt (receivedOf (stateAfter sumCrypto (sumIdentity 2) lostEarlier) 1) k
          = bytesAt ((lostDart 0).atSend sumCrypto (sumIdentity 1)).sentMessages k) ∧
      Reaches sumCrypto 1 5 (stateAfter sumCrypto (sumIdentity 2) lostEarlier) (lostDart 0).first ∧
      (lostDart 0).first.enc.idx < 2 ^ 32 := by
    decide +kernel
  have hfirst : (lostDart skipped).first = (lostDart 0).first := rfl
  refine ⟨⟨h.1, h.2.1⟩, h.2.2.1, h.2.2.2.1, ?_⟩
  rw [hfirst]
  exact h.2.2.2.2

/-- As long as the numbers since the lost dart are few, its repeated transmission is stored. -/
theorem retransmission_short_gap :
    (lostDart 2).Valid sumCrypto (sumIdentity 1) ∧
      ∃ e ∈ lostAnswer 2, (lostDart 2).first.enc.dart
        ∈ storedDarts (handleMessage sumCrypto (sumIdentity 2) e.buf
          (stateAfter sumCrypto (sumIdentity 2) lostEarlier)).output := by
  have hvalid : (lostDart 2).Valid sumCrypto (sumIdentity 1) :=
    ⟨by decide +kernel, lostDart_noReset 2, by decide +kernel, by decide +kernel⟩
  have hsome : lostAnswer 2 ≠ [] := by
    decide +kernel
  have hanswer : ∀ e ∈ lostAnswer 2, e.dart.seq = (lostDart 2).number sumCrypto (sumIdentity 1) ∧
      e.dict = (lostDart 2).first.enc.dict := by
    decide +kernel
  obtain ⟨e, he⟩ := List.exists_mem_of_ne_nil _ hsome
  refine ⟨hvalid, e, he, ?_⟩
  exact ((retransmission_iff sumCrypto_lawful (sumIdentity_lawful 1) hvalid).2 lostNack e
    (by decide +kernel) (mem_encodings.mp he) (hanswer e he).1 (sumIdentity 2) lostEarlier (by decide)
    (lostDart_delivered 2) (fun _ => (hanswer e he).2)).mpr (windowKept_iff.mpr (by decide +kernel))

/-- With `"d"` the dart before the lost one is pruned, and the lost one is not: the answer has the
empty dictionary, and the receiver, which has everything before the lost dart, refuses it. -/
theorem retransmission_long_gap :
    (lostDart 214).Valid sumCrypto (sumIdentity 1) ∧
      (lostDart 214).Delivered sumCrypto (sumIdentity 1)
        (stateAfter sumCrypto (sumIdentity 2) lostEarlier) ∧
      (lostDart 214).first.enc.dict = utf8 "a" ∧
      (lostAnswer 214).map (fun e => (e.dart, e.dict)) = [((lostDart 214).first.enc.dart, [])] ∧
      ∀ e ∈ lostAnswer 214, storedDarts (handleMessage sumCrypto (sumIdentity 2) e.buf
        (stateAfter sumCrypto (sumIdentity 2) lostEarlier)).output = [] := by
  have hrun : (linksAt sumCrypto (sumIdentity 1) (.sendData 5 "b")
        ((lostDart 214).atSend sumCrypto (sumIdentity 1)) = [(lostDart 214).first] ∧
      (∀ d ∈ (lostDart 214).later sumCrypto (sumIdentity 1),
        d.seq ≠ (lostDart 214).number sumCrypto (sumIdentity 1)) ∧
      ((lostDart 214).atNack sumCrypto (sumIdentity 1)).sentMessages.has
        ((lostDart 214).number sumCrypto (sumIdentity 1)) = true) ∧
      (lostDart 214).first.enc.dict = utf8 "a" ∧
      (lostAnswer 214).map (fun e => (e.dart, e.dict)) = [((lostDart 214).first.enc.dart, [])] ∧
      ∀ e ∈ lostAnswer 214, storedDarts (handleMessage sumCrypto (sumIdentity 2) e.buf
        (stateAfter sumCrypto (sumIdentity 2) lostEarlier)).output = [] := by
    decide +kernel
  obtain ⟨⟨hfirst, honce, hkept⟩, hrest⟩ := hrun
  exact ⟨⟨hfirst, lostDart_noReset 214, honce, hkept⟩, lostDart_delivered 214, hrest⟩

end DartProtocol
