import DartProtocol.ClientHistory

/-!
# The sending end of a stream

A `Stream` is a list of encoded darts as one sender produces them: consecutive numbers on the
circle, each dart deflated against the dictionary of the history in front of it, each one under the
next key of the sender's chain for its epoch.

* `sendData_run` — what one call does to the state, and the one dart it encodes;
* `step_keepsSent` — every event except a send and a Dict-Reset leaves the sent history alone;
* `linked_of_calls` — the darts of one conversation lie on the sender's chains, also when it moves to new
  epochs on the way and sends in other conversations;
* `stream_of_sends` — they form a `Stream`, as long as no Dict-Reset empties the history.
-/

namespace DartProtocol

open Prog Outcome

/-! ### Links and streams -/

/-- An encoded dart with the chain key the sender held when it encoded the dart. -/
structure Link where
  enc : Encoding
  chainKey : Buffer
  deriving DecidableEq

/-- The encoded darts among outputs. -/
def encodings (os : List Output) : List Encoding :=
  os.filterMap fun o => match o with
    | .encoded e => some e
    | _ => none

/-- `later` lies further on the chain of `l`. -/
def Link.ChainsTo (C : Crypto) (l later : Link) : Prop :=
  later.enc.epoch = l.enc.epoch → l.enc.idx < later.enc.idx ∧
    later.chainKey = chainSteps C (later.enc.idx - l.enc.idx) l.chainKey

/-- The dart of a link is what the encoder made for number `q` over the history `m`. -/
structure Link.Encodes (C : Crypto) (senderId convId : ℕ) (m : NumMap DataDart) (q : ℕ)
    (l : Link) : Prop where
  type : l.enc.dart.type = TYPE_DATA
  convId : l.enc.dart.convId = convId
  senderId : l.enc.dart.senderId = senderId
  seq : l.enc.dart.seq = q
  seq_lt : q < SEQ_MOD
  keyed : Keyed m
  dict : l.enc.dict = dictionaryOf q m.values
  messageKey : l.enc.messageKey = chainMessageKey C l.chainKey l.enc.idx
  nonce : l.enc.nonce.length = 12
  buf : Codec.encodeDataHelper C l.enc.dart l.enc.dict l.enc.messageKey l.enc.idx l.enc.epoch
    l.enc.nonce = some l.enc.buf

/-- The darts a sender emits from number `q` on, over the history `m`. -/
inductive Stream (C : Crypto) (senderId convId : ℕ) : NumMap DataDart → ℕ → List Link → Prop
  | nil (m : NumMap DataDart) (q : ℕ) : Stream C senderId convId m q []
  | cons {m : NumMap DataDart} {q : ℕ} {l : Link} {ls : List Link}
      (henc : l.Encodes C senderId convId m q) (hchain : ∀ later ∈ ls, l.ChainsTo C later)
      (hrest : Stream C senderId convId (pushHistory m l.enc.dart) (seqNext q) ls) :
      Stream C senderId convId m q (l :: ls)

/-! ### Outputs that are only frames on the wire -/

/-- Nothing but timers, statuses and counters changes, and only frames go out. -/
def Silent : Client → List Output → Client → Prop :=
  fun s os t => t.core = s.core ∧ ∀ o ∈ os, ∃ buf via, o = Output.broadcast buf via

theorem silent_background : Background Silent where
  comp := by
    refine ⟨fun s => ⟨rfl, fun o ho => absurd ho List.not_mem_nil⟩, ?_⟩
    intro s t u os os' h h'
    refine ⟨h'.1.trans h.1, ?_⟩
    intro o ho
    rcases List.mem_append.mp ho with ho | ho
    · exact h.2 o ho
    · exact h'.2 o ho
  bookkeeping := fun s t h => ⟨h, fun o ho => absurd ho List.not_mem_nil⟩
  broadcast := fun s buf via => ⟨rfl, fun o ho => ⟨buf, via, List.mem_singleton.mp ho⟩⟩

theorem mem_encodings {os : List Output} {e : Encoding} :
    e ∈ encodings os ↔ Output.encoded e ∈ os := by
  rw [encodings, List.mem_filterMap]
  constructor
  · rintro ⟨o, ho, heq⟩
    cases o <;> simp at heq
    subst heq
    exact ho
  · intro h
    exact ⟨_, h, rfl⟩

theorem encodings_append (os os' : List Output) :
    encodings (os ++ os') = encodings os ++ encodings os' := List.filterMap_append

theorem encodings_of_broadcasts {os : List Output}
    (h : ∀ o ∈ os, ∃ buf via, o = Output.broadcast buf via) : encodings os = [] := by
  rw [encodings, List.filterMap_eq_nil_iff]
  intro o ho
  obtain ⟨buf, via, rfl⟩ := h o ho
  rfl

/-! ### One send -/

variable {C : Crypto} {me : Identity}

/-- Encoding and sending one dart: the encoder's result is the one encoding among the outputs. -/
theorem transmitData_run (dart : DataDart) (dict messageKey : Buffer)
    (idx epoch : ℕ) (s : Client) :
    (transmitData C me dart dict messageKey idx epoch s).state.core = s.core ∧
      encodings (transmitData C me dart dict messageKey idx epoch s).output
        = ((Codec.encodeDataHelper C dart dict messageKey idx epoch (me.random s.draws 12)).map
            fun buf => Encoding.mk dart dict messageKey idx epoch (me.random s.draws 12) buf).toList := by
  obtain ⟨t, ht⟩ : ∃ t : Client, t = { s with draws := s.draws + 1 } := ⟨_, rfl⟩
  have hcore : t.core = s.core := by rw [ht]; rfl
  have hrun : transmitData C me dart dict messageKey idx epoch s
      = (do
          let buf ← ofOption
            (Codec.encodeDataHelper C dart dict messageKey idx epoch (me.random s.draws 12))
          emit (.encoded
            { dart, dict, messageKey, idx, epoch, nonce := me.random s.draws 12, buf })
          broadcast buf : ClientProg Unit) t := by
    rw [ht]
    rfl
  rw [hrun]
  cases Codec.encodeDataHelper C dart dict messageKey idx epoch (me.random s.draws 12) with
  | none => exact ⟨hcore, rfl⟩
  | some buf =>
    have hsilent : Silent t (broadcast buf t).output (broadcast buf t).state :=
      broadcast_obeys silent_background buf t
    rw [ofOption_some_bind, emit_bind]
    refine ⟨hsilent.1.trans hcore, ?_⟩
    rw [prepend_output, encodings_append, encodings_of_broadcasts hsilent.2]
    rfl

/-- The dart `sendData` makes. -/
def sentDart (me : Identity) (convId : ℕ) (payload : String) (s : Client) : DataDart :=
  { type := TYPE_DATA, convId, senderId := me.senderId, seq := s.nextSeq, payload }

variable {e : Event} {convId : ℕ} {s : Client} {chain : ChainState}

/-- **One call of `sendData`** on a client that has a chain to send on. -/
theorem sendData_run (C : Crypto) {me : Identity} (payload : String)
    (hchain : s.getChain convId (s.sendingEpoch convId) me.senderId = some chain) :
    (sendData C me convId payload s).state.core = (enterSent C me convId payload chain s).core ∧
      encodings (sendData C me convId payload s).output
        = ((Codec.encodeDataHelper C (sentDart me convId payload s)
              (getDictionary me s me.senderId s.nextSeq) (advanceChain C chain chain.index).1
              chain.index (s.sendingEpoch convId) (me.random s.draws 12)).map
            fun buf => Encoding.mk (sentDart me convId payload s)
              (getDictionary me s me.senderId s.nextSeq) (advanceChain C chain chain.index).1
              chain.index (s.sendingEpoch convId) (me.random s.draws 12) buf).toList := by
  obtain ⟨t, ht⟩ : ∃ t, t = enterSent C me convId payload chain s := ⟨_, rfl⟩
  have hdraws : t.draws = s.draws := by rw [ht]; rfl
  obtain ⟨tr, htr⟩ : ∃ tr, tr = transmitData C me (sentDart me convId payload s)
    (getDictionary me s me.senderId s.nextSeq) (advanceChain C chain chain.index).1 chain.index
    (s.sendingEpoch convId) := ⟨_, rfl⟩
  have htrun := @transmitData_run C me (sentDart me convId payload s)
    (getDictionary me s me.senderId s.nextSeq) (advanceChain C chain chain.index).1 chain.index
    (s.sendingEpoch convId) t
  rw [← htr, hdraws] at htrun
  have hrun : sendData C me convId payload s
      = ((tr >>= fun _ => (do
          scheduleProbe convId
          Prog.modify fun u => { u with optimisticTimers := insert s.nextSeq u.optimisticTimers }
            : ClientProg Unit)) t).prepend [.sent (sentDart me convId payload s)] := by
    rw [ht, htr]
    unfold sendData
    rw [get_bind]
    simp only [hchain]
    rfl
  rw [hrun, ← ht]
  cases hres : (tr t).result with
  | none =>
    rw [bind_of_none hres]
    refine ⟨htrun.1, ?_⟩
    rw [prepend_output, encodings_append]
    exact htrun.2
  | some u =>
    rw [bind_of_some hres]
    refine ⟨Eq.trans rfl htrun.1, ?_⟩
    rw [prepend_output, encodings_append, prepend_output, encodings_append]
    show [] ++ (encodings (tr t).output ++ []) = _
    rw [List.nil_append, List.append_nil]
    exact htrun.2

/-! ### Events that are not sends -/

/-- The fields of the own stream. -/
structure OwnStream where
  nextSeq : ℕ
  highestSentSeq : ℕ
  sentMessages : NumMap DataDart
  messageKeys : NumMap MessageKey

def Client.ownStream (s : Client) : OwnStream :=
  ⟨s.nextSeq, s.highestSentSeq, s.sentMessages, s.messageKeys⟩

/-- Something about the own stream is untouched. -/
def KeepsOwn {α : Type} (f : OwnStream → α) : Client → List Output → Client → Prop :=
  fun s _ t => f t.ownStream = f s.ownStream

theorem keepsOwn_background {α : Type} (f : OwnStream → α) : Background (KeepsOwn f) where
  comp := ⟨fun _ => rfl, fun h h' => Eq.trans h' h⟩
  bookkeeping := by
    intro s t (h : t.core = s.core)
    show f t.core.ownStream = f s.core.ownStream
    rw [h]
  broadcast := fun _ _ _ => rfl

theorem KeepsOwn.of_rest {α : Type} {f : OwnStream → α} {s t : Client} (h : t.rest = s.rest) :
    KeepsOwn f s [] t := by
  show f t.rest.ownStream = f s.rest.ownStream
  rw [h]

theorem keepsOwn_receive {α : Type} (f : OwnStream → α) (senderId : ℕ) :
    ReceiveRules C (KeepsOwn f) senderId :=
  .of_rest_chains (keepsOwn_background f) (fun _ _ => KeepsOwn.of_rest) (fun _ _ => rfl)
    (fun _ _ => rfl) fun _ _ => rfl

theorem keepsOwn_frame {α : Type} (f : OwnStream → α) : FrameRules C me (KeepsOwn f) := by
  refine FrameRules.of_streams (keepsOwn_background f) (keepsOwn_receive f) ?_ ?_ (fun _ _ => rfl)
    (fun _ => rfl) (fun _ _ => rfl) (fun _ _ => rfl) fun _ _ _ _ => rfl
  · exact fun s senderId => KeepsOwn.of_rest (ensureReceived_rest senderId s)
  · intro s t h
    show f t.streams.ownStream = f s.streams.ownStream
    rw [h]

/-- An event that neither sends nor carries a Dict-Reset. -/
def Event.LeavesSent : Event → Prop
  | .sendData _ _ => False
  | .message buf => buf.readUInt8 0 ≠ some TYPE_DICT_RESET
  | _ => True

/-- **Only a send and a Dict-Reset touch the own stream.** -/
theorem step_keepsSent (he : e.LeavesSent) (s : Client) :
    (step C me e s).state.ownStream = s.ownStream := by
  refine (keepsOwn_frame (C := C) (fun o => o)).step_of ?_ ?_
  · intro convId payload h
    subst h
    exact he.elim
  · intro buf h hreset
    subst h
    exact absurd hreset he

/-! ### Runs of sends -/

variable (C me)

/-- The darts one event encodes for their first transmission. -/
def linksAt (e : Event) (s : Client) : List Link :=
  match e with
  | .sendData convId payload =>
    match s.getChain convId (s.sendingEpoch convId) me.senderId with
    | none => []
    | some chain => (encodings (sendData C me convId payload s).output).map fun enc => ⟨enc, chain.key⟩
  | _ => []

/-- The darts a run encodes for their first transmission. -/
def linksOf : Client → List Event → List Link
  | _, [] => []
  | s, e :: es => linksAt C me e s ++ linksOf (step C me e s).state es

/-- The sender stays on its chain of the conversation, or moves on to a later epoch. -/
def Continues (convId : ℕ) (s t : Client) : Prop :=
  (t.sendingEpoch convId = s.sendingEpoch convId ∧
    t.getChain convId (s.sendingEpoch convId) me.senderId
      = s.getChain convId (s.sendingEpoch convId) me.senderId) ∨
  s.sendingEpoch convId < t.sendingEpoch convId

/-- The darts of one conversation among them. -/
def linksIn (convId : ℕ) (s : Client) (es : List Event) : List Link :=
  (linksOf C me s es).filter fun l => decide (l.enc.dart.convId = convId)

/-- A run in which every event that is not a send leaves the sender on its chain of the conversation, or
moves it to a later epoch.  Sends may be in any conversation. -/
def KeepsChain (convId : ℕ) : Client → List Event → Prop
  | _, [] => True
  | s, e :: es =>
    ((∀ c p, e ≠ .sendData c p) → Continues me convId s (step C me e s).state) ∧
    KeepsChain convId (step C me e s).state es

/-- A run whose sends are all in one conversation and all succeed, and whose other events move the
sender at most to later epochs. -/
def SendsOn (convId : ℕ) : Client → List Event → Prop
  | _, [] => True
  | s, e :: es =>
    ((∃ payload, e = .sendData convId payload ∧ linksAt C me e s ≠ []) ∨
      ((∀ c p, e ≠ .sendData c p) ∧ Continues me convId s (step C me e s).state)) ∧
    SendsOn convId (step C me e s).state es

/-- Such a run in which no Dict-Reset empties the sent history. -/
def SendsIn (convId : ℕ) : Client → List Event → Prop
  | _, [] => True
  | s, e :: es =>
    ((∃ payload, e = .sendData convId payload ∧ linksAt C me e s ≠ []) ∨
      (e.LeavesSent ∧ Continues me convId s (step C me e s).state)) ∧
    SendsIn convId (step C me e s).state es

variable {C me}

/-- A link further on the chain the sender holds now, or of a later epoch. -/
def Ahead (C : Crypto) (me : Identity) (convId : ℕ) (s : Client) (l : Link) : Prop :=
  s.sendingEpoch convId ≤ l.enc.epoch ∧
    (l.enc.epoch = s.sendingEpoch convId →
      ∃ chain, s.getChain convId (s.sendingEpoch convId) me.senderId = some chain ∧
        chain.index ≤ l.enc.idx ∧ l.chainKey = chainSteps C (l.enc.idx - chain.index) chain.key)

theorem ahead_of_continues {t : Client} {l : Link} (h : Continues me convId s t)
    (hl : Ahead C me convId t l) : Ahead C me convId s l := by
  rcases h with ⟨hepoch, hchain⟩ | hlt
  · refine ⟨hepoch ▸ hl.1, ?_⟩
    intro he
    obtain ⟨chain, hget, hidx, hkey⟩ := hl.2 (he.trans hepoch.symm)
    rw [hepoch, hchain] at hget
    exact ⟨chain, hget, hidx, hkey⟩
  · refine ⟨Nat.le_trans (Nat.le_of_lt hlt) hl.1, ?_⟩
    intro he
    have := hl.1
    omega

theorem linksAt_send {payload : String} (h : linksAt C me (.sendData convId payload) s ≠ []) :
    ∃ chain buf, s.getChain convId (s.sendingEpoch convId) me.senderId = some chain ∧
      Codec.encodeDataHelper C (sentDart me convId payload s)
        (getDictionary me s me.senderId s.nextSeq) (chainMessageKey C chain.key chain.index)
        chain.index (s.sendingEpoch convId) (me.random s.draws 12) = some buf ∧
      linksAt C me (.sendData convId payload) s
        = [⟨⟨sentDart me convId payload s, getDictionary me s me.senderId s.nextSeq,
            chainMessageKey C chain.key chain.index, chain.index, s.sendingEpoch convId,
            me.random s.draws 12, buf⟩, chain.key⟩] := by
  unfold linksAt at h ⊢
  simp only at h ⊢
  cases hchain : s.getChain convId (s.sendingEpoch convId) me.senderId with
  | none =>
    rw [hchain] at h
    exact absurd rfl h
  | some chain =>
    rw [hchain] at h
    simp only at h ⊢
    have hadv : (advanceChain C chain chain.index).1 = chainMessageKey C chain.key chain.index := by
      rw [advanceChain_of_le C (Nat.le_refl _), Nat.sub_self]
      rfl
    rw [(sendData_run C payload hchain).2, hadv] at h ⊢
    cases henc : Codec.encodeDataHelper C (sentDart me convId payload s)
        (getDictionary me s me.senderId s.nextSeq) (chainMessageKey C chain.key chain.index)
        chain.index (s.sendingEpoch convId) (me.random s.draws 12) with
    | none =>
      rw [henc] at h
      exact absurd rfl h
    | some buf => exact ⟨chain, buf, rfl, henc, rfl⟩

theorem getChain_after_send (C : Crypto) {me : Identity} (payload : String)
    (hchain : s.getChain convId (s.sendingEpoch convId) me.senderId = some chain) :
    (sendData C me convId payload s).state.sendingEpoch convId = s.sendingEpoch convId ∧
      (sendData C me convId payload s).state.getChain convId (s.sendingEpoch convId) me.senderId
        = some ⟨chainNextKey C chain.key, chain.index + 1⟩ := by
  have hcore := (sendData_run C payload hchain).1
  have hepochs : (sendData C me convId payload s).state.currentEpochs = s.currentEpochs :=
    congrArg (fun c => c.currentEpochs) hcore
  have hchains : (sendData C me convId payload s).state.senderChains
      = (s.setChain convId (s.sendingEpoch convId) me.senderId
          (advanceChain C chain chain.index).2).senderChains :=
    congrArg (fun c => c.senderChains) hcore
  have hadv : (advanceChain C chain chain.index).2
      = ⟨chainNextKey C chain.key, chain.index + 1⟩ := by
    rw [advanceChain_of_le C (Nat.le_refl _), Nat.sub_self]
    rfl
  refine ⟨by rw [Client.sendingEpoch, Client.sendingEpoch, hepochs], ?_⟩
  rw [Client.getChain, hchains, ← Client.getChain, Client.getChain_setChain_self, hadv]

theorem Event.LeavesSent.not_send (h : e.LeavesSent) (c : ℕ) (p : String) :
    e ≠ .sendData c p := by
  intro he
  rw [he] at h
  exact h

theorem SendsIn.on (es : List Event) :
    ∀ {s : Client}, SendsIn C me convId s es → SendsOn C me convId s es := by
  induction es with
  | nil =>
    intro s _
    trivial
  | cons e es ih =>
    intro s h
    refine ⟨?_, ih h.2⟩
    rcases h.1 with hsend | ⟨hleaves, hcont⟩
    · exact Or.inl hsend
    · exact Or.inr ⟨hleaves.not_send, hcont⟩

theorem linksAt_of_not_send (h : ∀ c p, e ≠ .sendData c p) (s : Client) :
    linksAt C me e s = [] := by
  cases e <;> first | rfl | exact absurd rfl (h _ _)

/-- Without a chain a call uses up a number and does nothing else. -/
theorem sendData_of_no_chain (C : Crypto) (payload : String)
    (hchain : s.getChain convId (s.sendingEpoch convId) me.senderId = none) :
    sendData C me convId payload s = ⟨some (), { s with nextSeq := seqNext s.nextSeq }, []⟩ := by
  rw [sendData, get_bind]
  simp only [hchain]
  rfl

theorem continues_of_other (C : Crypto) {c : ℕ} (hne : c ≠ convId) (payload : String)
    (s : Client) : Continues me convId s (sendData C me c payload s).state := by
  cases hchain : s.getChain c (s.sendingEpoch c) me.senderId with
  | none =>
    rw [sendData_of_no_chain C payload hchain]
    exact Or.inl ⟨rfl, rfl⟩
  | some chain =>
    have hcore := (sendData_run C payload hchain).1
    have hepochs : (sendData C me c payload s).state.currentEpochs = s.currentEpochs :=
      congrArg (fun c => c.currentEpochs) hcore
    have hchains : (sendData C me c payload s).state.senderChains
        = (s.setChain c (s.sendingEpoch c) me.senderId
            (advanceChain C chain chain.index).2).senderChains :=
      congrArg (fun c => c.senderChains) hcore
    refine Or.inl ⟨by rw [Client.sendingEpoch, Client.sendingEpoch, hepochs], ?_⟩
    rw [Client.getChain, hchains, ← Client.getChain,
      Client.getChain_setChain_of_ne _ _ fun h => hne h.1]

/-- What is ahead of the chain that a send leaves is strictly ahead of the chain it started from. -/
theorem ahead_of_send {payload : String}
    (hchain : s.getChain convId (s.sendingEpoch convId) me.senderId = some chain) {l : Link}
    (hl : Ahead C me convId (sendData C me convId payload s).state l) :
    s.sendingEpoch convId ≤ l.enc.epoch ∧
      (l.enc.epoch = s.sendingEpoch convId → chain.index < l.enc.idx ∧
        l.chainKey = chainSteps C (l.enc.idx - chain.index) chain.key) := by
  obtain ⟨hepoch, hafter⟩ := getChain_after_send C payload hchain
  obtain ⟨hle, hkey⟩ := hl
  refine ⟨hepoch ▸ hle, ?_⟩
  intro he
  obtain ⟨chain', hget, hidx, hk⟩ := hkey (he.trans hepoch.symm)
  have hget' : (sendData C me convId payload s).state.getChain convId
      (s.sendingEpoch convId) me.senderId = some chain' := hepoch ▸ hget
  rw [hafter] at hget'
  cases hget'
  have hidx' : chain.index + 1 ≤ l.enc.idx := hidx
  refine ⟨by omega, ?_⟩
  rw [hk, show l.enc.idx - chain.index = l.enc.idx - (chain.index + 1) + 1 by omega]
  rfl

theorem linksIn_cons (convId : ℕ) (s : Client) (e : Event) (es : List Event) :
    linksIn C me convId s (e :: es)
      = (linksAt C me e s).filter (fun l => decide (l.enc.dart.convId = convId))
        ++ linksIn C me convId (step C me e s).state es := by
  rw [linksIn, linksOf, List.filter_append, linksIn]

/-- **The darts of a conversation lie on the chains of the sender**, whatever is sent elsewhere.
Induction over the events; every dart still to come is ahead of the chain the sender holds, which links
each dart to the later ones. -/
theorem linked_of_calls (es : List Event) :
    ∀ {s : Client}, KeepsChain C me convId s es →
      (∀ l ∈ linksIn C me convId s es, Ahead C me convId s l) ∧
        (linksIn C me convId s es).Pairwise (Link.ChainsTo C) := by
  induction es with
  | nil =>
    intro s _
    exact ⟨fun l hl => absurd hl List.not_mem_nil, List.Pairwise.nil⟩
  | cons e es ih =>
    intro s hrun
    obtain ⟨hstep, hrest⟩ := hrun
    obtain ⟨ihahead, ihchain⟩ := ih hrest
    rw [linksIn_cons]
    -- an event that encodes nothing for the conversation and stays on the chain
    have hquiet : (linksAt C me e s).filter (fun l => decide (l.enc.dart.convId = convId)) = [] →
        Continues me convId s (step C me e s).state →
        (∀ l ∈ (linksAt C me e s).filter (fun l => decide (l.enc.dart.convId = convId))
            ++ linksIn C me convId (step C me e s).state es, Ahead C me convId s l) ∧
          ((linksAt C me e s).filter (fun l => decide (l.enc.dart.convId = convId))
            ++ linksIn C me convId (step C me e s).state es).Pairwise (Link.ChainsTo C) := by
      intro hnone hcont
      rw [hnone, List.nil_append]
      exact ⟨fun l hl => ahead_of_continues hcont (ihahead l hl), ihchain⟩
    by_cases hsend : ∃ c p, e = .sendData c p
    · obtain ⟨c, payload, rfl⟩ := hsend
      by_cases hc : c = convId
      · subst hc
        cases hchain : s.getChain c (s.sendingEpoch c) me.senderId with
        | none =>
          have hnone : linksAt C me (.sendData c payload) s = [] := by
            rw [linksAt]
            simp only [hchain]
          refine hquiet (by rw [hnone]; rfl) ?_
          show Continues me c s (sendData C me c payload s).state
          rw [sendData_of_no_chain C payload hchain]
          exact Or.inl ⟨rfl, rfl⟩
        | some chain =>
          -- the darts still to come lie on the chain that is left after this one
          have hlater : ∀ later ∈ linksIn C me c (step C me (.sendData c payload) s).state es,
              s.sendingEpoch c ≤ later.enc.epoch ∧
                (later.enc.epoch = s.sendingEpoch c → chain.index < later.enc.idx ∧
                  later.chainKey = chainSteps C (later.enc.idx - chain.index) chain.key) :=
            fun later hmem => ahead_of_send hchain (ihahead later hmem)
          have hrest : ∀ l ∈ linksIn C me c (step C me (.sendData c payload) s).state es,
              Ahead C me c s l := fun l hl =>
            ⟨(hlater l hl).1, fun he => ⟨chain, hchain, Nat.le_of_lt ((hlater l hl).2 he).1,
              ((hlater l hl).2 he).2⟩⟩
          by_cases hlink : linksAt C me (.sendData c payload) s = []
          · rw [hlink, List.filter_nil, List.nil_append]
            exact ⟨hrest, ihchain⟩
          · obtain ⟨chain', buf, hchain', henc, hlinks⟩ := linksAt_send hlink
            rw [hchain] at hchain'
            cases hchain'
            rw [hlinks, List.filter_cons_of_pos (by simp [sentDart]), List.filter_nil,
              List.singleton_append]
            constructor
            · intro l hl
              rcases List.mem_cons.mp hl with rfl | hl
              · refine ⟨Nat.le_refl _, fun _ => ⟨chain, hchain, Nat.le_refl _, ?_⟩⟩
                show chain.key = chainSteps C (chain.index - chain.index) chain.key
                rw [Nat.sub_self]
                rfl
              · exact hrest l hl
            · refine List.pairwise_cons.mpr ⟨?_, ihchain⟩
              intro later hmem he
              exact (hlater later hmem).2 he
      · refine hquiet ?_ (continues_of_other C hc payload s)
        by_cases hlink : linksAt C me (.sendData c payload) s = []
        · rw [hlink, List.filter_nil]
        · obtain ⟨chain, buf, -, -, hlinks⟩ := linksAt_send hlink
          rw [hlinks, List.filter_cons_of_neg (by simp [sentDart, hc]), List.filter_nil]
    · have hnot : ∀ c p, e ≠ .sendData c p := fun c p he => hsend ⟨c, p, he⟩
      refine hquiet ?_ (hstep hnot)
      rw [linksAt_of_not_send hnot, List.filter_nil]

/-- A run of sends in one conversation stays on its chain, and all its darts are of the conversation. -/
theorem SendsOn.keepsChain (es : List Event) :
    ∀ {s : Client}, SendsOn C me convId s es →
      KeepsChain C me convId s es ∧ linksIn C me convId s es = linksOf C me s es := by
  induction es with
  | nil =>
    intro s _
    exact ⟨trivial, rfl⟩
  | cons e es ih =>
    intro s h
    obtain ⟨hkeep, hlinks⟩ := ih h.2
    rw [linksIn_cons, linksOf, hlinks]
    rcases h.1 with ⟨payload, rfl, hlink⟩ | ⟨hnot, hcont⟩
    · obtain ⟨chain, buf, -, -, heq⟩ := linksAt_send hlink
      refine ⟨⟨fun h => absurd rfl (h convId payload), hkeep⟩, ?_⟩
      rw [heq, List.filter_cons_of_pos (by simp [sentDart]), List.filter_nil]
    · refine ⟨⟨fun _ => hcont, hkeep⟩, ?_⟩
      rw [linksAt_of_not_send hnot, List.filter_nil]

theorem linked_of_sends {es : List Event} (h : SendsOn C me convId s es) :
    (linksOf C me s es).Pairwise (Link.ChainsTo C) := by
  obtain ⟨hkeep, hlinks⟩ := h.keepsChain
  rw [← hlinks]
  exact (linked_of_calls es hkeep).2

/-- What a successful send emits is what the encoder made over the sent history. -/
theorem linksAt_encodes (hme : me.Lawful) (hs : s.WellFormed) {l : Link}
    (hl : l ∈ linksAt C me e s) :
    l.Encodes C me.senderId l.enc.dart.convId s.sentMessages s.nextSeq := by
  cases e with
  | sendData convId payload =>
    obtain ⟨chain, buf, hchain, henc, hlinks⟩ := linksAt_send (List.ne_nil_of_mem hl)
    rw [hlinks, List.mem_singleton] at hl
    subst hl
    exact
      { type := rfl, convId := rfl, senderId := rfl, seq := rfl, seq_lt := hs.nextSeq
        keyed := hs.sent, dict := by rw [getDictionary, historyOf_self], messageKey := rfl
        nonce := hme _ _, buf := henc }
  | _ => cases hl

/-- **A run of sends emits a stream.**  Induction over the events: a send pushes its dart on the
history that the next dictionaries are taken from. -/
theorem stream_of_sends (hme : me.Lawful) (es : List Event) :
    ∀ {s : Client}, s.WellFormed → SendsIn C me convId s es →
      Stream C me.senderId convId s.sentMessages s.nextSeq (linksOf C me s es) := by
  induction es with
  | nil =>
    intro s _ _
    exact Stream.nil _ _
  | cons e es ih =>
    intro s hs hrun
    have hlinked := linked_of_sends (SendsIn.on _ hrun)
    obtain ⟨hstep, hrest⟩ := hrun
    have ihstream := ih (step_wellFormed C me e hs) hrest
    rcases hstep with ⟨payload, rfl, hlink⟩ | ⟨hleaves, hcont⟩
    · obtain ⟨chain, buf, hchain, henc, hlinks⟩ := linksAt_send hlink
      have hcore := (sendData_run C payload hchain).1
      have hsent : (sendData C me convId payload s).state.sentMessages
          = pushHistory s.sentMessages (sentDart me convId payload s) :=
        congrArg (fun c => c.sentMessages) hcore
      have hnext : (sendData C me convId payload s).state.nextSeq = seqNext s.nextSeq :=
        congrArg (fun c => c.nextSeq) hcore
      have hstream : Stream C me.senderId convId
          (sendData C me convId payload s).state.sentMessages
          (sendData C me convId payload s).state.nextSeq
          (linksOf C me (sendData C me convId payload s).state es) := ihstream
      rw [hsent, hnext] at hstream
      rw [linksOf, hlinks, List.singleton_append] at hlinked ⊢
      refine Stream.cons ?_ (List.pairwise_cons.mp hlinked).1 hstream
      exact linksAt_encodes hme hs (by rw [hlinks]; exact List.mem_singleton_self _)
    · have hkeep := @step_keepsSent C me e hleaves s
      have hsent : (step C me e s).state.sentMessages = s.sentMessages :=
        congrArg OwnStream.sentMessages hkeep
      have hnext : (step C me e s).state.nextSeq = s.nextSeq := congrArg OwnStream.nextSeq hkeep
      rw [linksOf, linksAt_of_not_send hleaves.not_send, List.nil_append, ← hsent, ← hnext]
      exact ihstream

end DartProtocol
