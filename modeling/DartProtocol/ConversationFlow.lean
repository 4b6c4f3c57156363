import DartProtocol.ControlFrames
import DartProtocol.SentBlind
import DartProtocol.StreamSend

/-!
# What one conversation shows of another

The Data darts of a conversation `c` are compressed against the history of their *sender*, which holds
the payloads of all conversations.  This module compares two runs of a client that make the same
calls, with the same randomness, and differ only in the payloads sent outside `c`.

* `SameCall`, `SameBut` — the two runs' events and the two runs' states;
* `codedDarts`, `Isolated` — when an event makes the client code a dart of `c`, no dart of another
  conversation lies in its window (and no payload is too long for the transport, and no dart names the
  client itself);
* `data_frames_agree` — when all steps of both runs are isolated, the Data frames broadcast for `c` are
  the same bytes in both;
* `fingerprint_shows_other_conversation` — one earlier dart in another conversation changes the bytes
  of the next dart of `c`.
-/

namespace DartProtocol

open Prog InsertionMap Outcome

/-! ### The two runs -/

/-- The same call, up to the payload of a send outside `c`, which keeps its length. -/
inductive SameCall (c : ℕ) : Event → Event → Prop
  | same (e : Event) : SameCall c e e
  | other {convId : ℕ} {payload payload' : String} (hne : convId ≠ c)
      (hlen : (utf8 payload).length = (utf8 payload').length) :
      SameCall c (.sendData convId payload) (.sendData convId payload')

/-- A Data frame of conversation `c`, by its cleartext header. -/
def isDataOf (c : ℕ) (buf : Buffer) : Bool :=
  decide (buf.readUInt8 0 = some TYPE_DATA ∧ buf.readUInt16BE 1 = some c)

/-- The Data frames broadcast for `c`. -/
def dataFrames (c : ℕ) (os : List Output) : List Buffer := (framesOf os).filter (isDataOf c)

/-- Nothing of another conversation lies in the window of a dart of `c`, and the payload is short
enough for the length field of the TCP framing. -/
@[mk_iff] structure ClearOf (c n : ℕ) (s : Client) (dart : DataDart) : Prop where
  window : dart.convId = c → ∀ d ∈ s.sentMessages.values, inWindow dart.seq d = true → d.convId = c
  fits : s.useFallback = true → (utf8 dart.payload).length ≤ n

instance (c n : ℕ) (s : Client) (dart : DataDart) : Decidable (ClearOf c n s dart) :=
  decidable_of_iff _ (clearOf_iff c n s dart).symm

/-- Payloads of up to `n` bytes compress to what fits a frame, with the 47 bytes around it. -/
def ShortFrames (C : Crypto) (n : ℕ) : Prop :=
  ∀ payload dict, payload.length ≤ n → (C.deflateRaw payload dict).length + 47 < 65536

/-- A Data dart that names its receiver as its sender. -/
def Event.namesSelf (me : Identity) : Event → Bool
  | .message buf => decide (buf.readUInt8 0 = some TYPE_DATA ∧ buf.readUInt16BE 7 = some me.senderId)
  | _ => false

/-- The numbers that a NACK asks the client for. -/
def requestedSeqs (C : Crypto) (me : Identity) (s : Client) (buf : Buffer) : List ℕ :=
  (do
    let (convId, _, stripped) ← (openPairwise C me s buf).join
    let convKey ← s.getCurrentKey convId
    let nack ← Codec.decodeNack C stripped convKey
    some nack.missingSeq : Option (List ℕ)).getD []

/-- The darts that an event makes the client code: the one that is sent, when there is a chain, and
those that a NACK asks for. -/
def codedDarts (C : Crypto) (me : Identity) (s : Client) : Event → List DataDart
  | .sendData convId payload =>
    if (s.getChain convId (s.sendingEpoch convId) me.senderId).isSome then
      [⟨TYPE_DATA, convId, me.senderId, s.nextSeq, payload⟩]
    else []
  | .message buf =>
    if buf.readUInt8 0 = some TYPE_NACK then
      (requestedSeqs C me s buf).filterMap fun seq => s.sentMessages.get seq
    else []
  | _ => []

/-- The darts that one event makes the client code are clear of other conversations. -/
def Isolated (C : Crypto) (me : Identity) (c n : ℕ) (s : Client) (ev : Event) : Prop :=
  ev.namesSelf me = false ∧ ∀ dart ∈ codedDarts C me s ev, ClearOf c n s dart

instance (C : Crypto) (me : Identity) (c n : ℕ) (s : Client) (ev : Event) :
    Decidable (Isolated C me c n s ev) := inferInstanceAs (Decidable (_ ∧ _))

/-- Every step of a run is isolated. -/
def IsolatedRun (C : Crypto) (me : Identity) (c n : ℕ) : Client → List Event → Prop
  | _, [] => True
  | s, ev :: evs => Isolated C me c n s ev ∧ IsolatedRun C me c n (step C me ev s).state evs

instance decidableIsolatedRun (C : Crypto) (me : Identity) (c n : ℕ) :
    ∀ s evs, Decidable (IsolatedRun C me c n s evs)
  | _, [] => isTrue trivial
  | s, ev :: evs =>
    have := decidableIsolatedRun C me c n (step C me ev s).state evs
    inferInstanceAs (Decidable (Isolated C me c n s ev ∧ _))

/-! ### States that differ in other conversations -/

/-- The same dart, except for the payload when it belongs to another conversation. -/
structure Alike (c : ℕ) (d d' : DataDart) : Prop where
  header : d' = { d with payload := d'.payload }
  same : d.convId = c → d' = d

theorem Alike.refl (c : ℕ) (d : DataDart) : Alike c d d := ⟨rfl, fun _ => rfl⟩

/-- The same client, except for the payloads of other conversations in `sentMessages`. -/
structure SameBut (c : ℕ) (s s' : Client) : Prop where
  rest : s' = s.withSent s'.sentMessages
  sent : ∀ k, Option.Rel (Alike c) (s.sentMessages.get k) (s'.sentMessages.get k)

namespace SameBut

variable {c : ℕ} {s s' : Client}

theorem refl (c : ℕ) (s : Client) : SameBut c s s := by
  refine ⟨rfl, fun k => ?_⟩
  cases s.sentMessages.get k with
  | none => exact .none
  | some d => exact .some (Alike.refl c d)

theorem has (h : SameBut c s s') (k : ℕ) : s'.sentMessages.has k = s.sentMessages.has k := by
  have hk := h.sent k
  rw [InsertionMap.has, InsertionMap.has]
  generalize s.sentMessages.get k = o at hk
  generalize s'.sentMessages.get k = o' at hk
  cases hk <;> rfl

theorem withSent (h : SameBut c s s') {m m' : NumMap DataDart}
    (hm : ∀ k, Option.Rel (Alike c) (m.get k) (m'.get k)) :
    SameBut c (s.withSent m) (s'.withSent m') := by
  refine ⟨?_, hm⟩
  rw [h.rest]
  rfl

/-- **The dictionaries agree** where nothing of another conversation lies in the window. -/
theorem getDictionary_eq (h : SameBut c s s') (hwf : s.WellFormed) (hwf' : s'.WellFormed)
    {me : Identity} {q : ℕ} (hq : q < SEQ_MOD)
    (hclear : ∀ d ∈ s.sentMessages.values, inWindow q d = true → d.convId = c) :
    getDictionary me s' me.senderId q = getDictionary me s me.senderId q := by
  rw [getDictionary, getDictionary, historyOf_self, historyOf_self]
  refine dictionaryOf_congr hwf'.sent hwf.sent hq fun k hk => ?_
  have hrel := h.sent k
  rw [bytesAt, bytesAt]
  cases hd : s.sentMessages.get k with
  | none =>
    rw [hd] at hrel
    generalize s'.sentMessages.get k = o' at hrel
    cases hrel
    rfl
  | some d =>
    obtain ⟨hseq, -⟩ := hwf.sent k d hd
    have hwin : inWindow q d = true := by
      rw [inWindow, decide_eq_true_eq, hseq]
      exact ((mem_windowSeqs hq).mp hk).2
    have hc := hclear d (mem_values_iff.mpr ⟨k, hd⟩) hwin
    rw [hd] at hrel
    generalize s'.sentMessages.get k = o' at hrel
    cases hrel with
    | some hdd => rw [hdd.same hc]

end SameBut

/-! ### Outputs -/

/-- The same Data frames of `c`. -/
def SameDarts (c : ℕ) (os os' : List Output) : Prop := dataFrames c os = dataFrames c os'

theorem dataFrames_append (c : ℕ) (os os' : List Output) :
    dataFrames c (os ++ os') = dataFrames c os ++ dataFrames c os' := by
  rw [dataFrames, framesOf, List.filterMap_append, List.filter_append]
  rfl

theorem sameDarts_pieces (c : ℕ) : Pieces (SameDarts c) where
  refl := fun _ => rfl
  append := by
    intro a a' b b' h h'
    rw [SameDarts, dataFrames_append, dataFrames_append, h, h']

/-- Two runs of programs of the client, from states that differ outside `c`. -/
abbrev TwoRuns {α : Type} (c : ℕ) (m m' : ClientProg α) (s s' : Client) : Prop :=
  PairedAt (SameBut c) (SameDarts c) m m' s s'

variable {s : Client} {m : ClientProg Unit}

theorem paired_of_blind {α : Type} {c : ℕ} {m : ClientProg α} (hm : ∀ h, SentBlind h m) {s' : Client}
    (hs : SameBut c s s') : TwoRuns c m m s s' := by
  have hkeep : (m s).state.sentMessages = s.sentMessages :=
    congrArg (fun r => r.state.sentMessages) (hm s.sentMessages s)
  rw [hs.rest]
  refine .of_commutes (sameDarts_pieces c) (hm _) ⟨rfl, ?_⟩
  rw [hkeep]
  exact hs.sent

/-! ### Transmitting a dart -/

variable {C : Crypto} {me : Identity} {c : ℕ}

/-- A frame that fits the framing is handed over without an exception. -/
theorem broadcast_of_fits {buf : Buffer} (h : s.useFallback = true → buf.length < 65536) :
    (broadcast buf s).result = some () ∧
      ((broadcast buf s).output = [] ∨ ∃ via, (broadcast buf s).output = [.broadcast buf via]) := by
  unfold broadcast
  rw [get_bind]
  by_cases hclosed : s.closed = true
  · rw [if_pos hclosed]
    exact ⟨rfl, .inl rfl⟩
  · rw [if_neg hclosed]
    by_cases htcp : (s.useFallback && s.tcpSocket) = true
    · rw [if_pos htcp]
      rw [Bool.and_eq_true] at htcp
      obtain ⟨out, hout⟩ := Buffer.exists_writeUIntBE (b := Buffer.alloc (2 + buf.length))
        (v := buf.length) (n := 2) (show buf.length < 256 ^ 2 from h htcp.1)
        (show 0 + 2 ≤ (Buffer.alloc (2 + buf.length)).length by simp [Buffer.alloc])
      have hwrite : (Buffer.alloc (2 + buf.length)).writeUInt16BE buf.length 0 = some out := hout.1
      rw [hwrite, ofOption_some_bind]
      exact ⟨rfl, .inr ⟨_, rfl⟩⟩
    · rw [if_neg htcp]
      exact ⟨rfl, .inr ⟨_, rfl⟩⟩

/-- Handing over a frame that is no Data frame of `c` shows nothing of `c`. -/
theorem dataFrames_broadcast {buf : Buffer} (hbuf : isDataOf c buf = false)
    (h : s.useFallback = true → buf.length < 65536) : dataFrames c (broadcast buf s).output = [] := by
  rcases (broadcast_of_fits h).2 with hout | ⟨via, hout⟩
  · rw [hout]
    rfl
  · rw [hout]
    show List.filter (isDataOf c) [buf] = []
    rw [List.filter_cons_of_neg (by rw [hbuf]; decide), List.filter_nil]

/-- Transmitting a dart uses up one draw and changes nothing else. -/
theorem transmitData_state (dart : DataDart) (dict key : Buffer) (idx epoch : ℕ) (s : Client) :
    (transmitData C me dart dict key idx epoch s).state = { s with draws := s.draws + 1 } := by
  rw [transmitData, randomBytes_bind]
  cases Codec.encodeDataHelper C dart dict key idx epoch (me.random s.draws 12) with
  | none => rfl
  | some buf => exact broadcast_state buf _

section Transmit

variable (hC : C.Lawful) (hme : me.Lawful)
include hC hme

variable {dart : DataDart} {buf : Buffer} {epoch convId n : ℕ} {s s' : Client} {payload' : String}

theorem isDataOf_encoded {dict key : Buffer} {idx i : ℕ}
    (h : Codec.encodeDataHelper C dart dict key idx epoch (me.random i 12) = some buf)
    (hne : dart.convId ≠ c) : isDataOf c buf = false := by
  have hconv := (Codec.headerFields_of_encode hC (hme i 12) h).convId
  rw [isDataOf, decide_eq_false_iff_not, hconv]
  rintro ⟨-, heq⟩
  exact hne (Option.some.inj heq)

theorem encoded_length (hbody : LengthPreserving C) {dict key : Buffer} {idx i : ℕ}
    (h : Codec.encodeDataHelper C dart dict key idx epoch (me.random i 12) = some buf) :
    buf.length = (C.deflateRaw (utf8 dart.payload) dict).length + 47 := by
  rw [Codec.encodeDataHelper_eq hC (hme i 12) (Codec.encodeDataHelper_fits h)] at h
  cases h
  rw [List.length_append, List.length_append, hbody, hC.tag_length,
    Codec.dataPrefix_length hC _ _ _ _ (hme i 12)]
  omega

omit hC hme in
theorem transmitData_unfit {key : Buffer}
    (hno : ¬ Codec.DataFits dart key epoch) (dict : Buffer) (idx : ℕ) (s : Client) :
    transmitData C me dart dict key idx epoch s = ⟨none, { s with draws := s.draws + 1 }, []⟩ := by
  rw [transmitData, randomBytes_bind]
  cases hbuf : Codec.encodeDataHelper C dart dict key idx epoch (me.random s.draws 12) with
  | none => rfl
  | some buf => exact absurd (Codec.encodeDataHelper_fits hbuf) hno

/-- **Transmitting a dart outside `c`** shows nothing of `c`, whatever its payload and its
dictionary. -/
theorem transmitData_other (hbody : LengthPreserving C) (hshort : ShortFrames C n)
    (hne : dart.convId ≠ c) {dict key : Buffer} {idx : ℕ} (hfits : Codec.DataFits dart key epoch)
    (hlen : s.useFallback = true → (utf8 dart.payload).length ≤ n) :
    (transmitData C me dart dict key idx epoch s).result = some () ∧
      dataFrames c (transmitData C me dart dict key idx epoch s).output = [] := by
  obtain ⟨buf, hbuf⟩ : ∃ buf,
      Codec.encodeDataHelper C dart dict key idx epoch (me.random s.draws 12) = some buf :=
    ⟨_, Codec.encodeDataHelper_eq hC (hme s.draws 12) hfits⟩
  obtain ⟨t, ht⟩ : ∃ t : Client, t = { s with draws := s.draws + 1 } := ⟨_, rfl⟩
  have hlen' : t.useFallback = true → buf.length < 65536 := by
    rw [ht, encoded_length hC hme hbody hbuf]
    exact fun htcp => hshort _ dict (hlen htcp)
  have hrun : transmitData C me dart dict key idx epoch s
      = (broadcast buf t).prepend
          [.encoded ⟨dart, dict, key, idx, epoch, me.random s.draws 12, buf⟩] := by
    rw [ht, transmitData, randomBytes_bind, hbuf]
    rfl
  have hres := (broadcast_of_fits hlen').1
  have hframes := dataFrames_broadcast (isDataOf_encoded hC hme hbuf hne) hlen'
  rw [hrun, prepend_result, prepend_output, hres, dataFrames_append, hframes]
  exact ⟨rfl, rfl⟩

/-- **Transmitting the dart of each run.** -/
theorem transmitData_paired (hbody : LengthPreserving C) (hshort : ShortFrames C n)
    {dart' : DataDart} (hd : Alike c dart dart') {dict dict' key : Buffer} {idx : ℕ}
    (hdict : dart.convId = c → dict' = dict) (hs : SameBut c s s')
    (hlen : s.useFallback = true → (utf8 dart.payload).length ≤ n)
    (hlen' : s'.useFallback = true → (utf8 dart'.payload).length ≤ n) :
    TwoRuns c (transmitData C me dart dict key idx epoch) (transmitData C me dart' dict' key idx epoch)
      s s' := by
  have hiff : Codec.DataFits dart' key epoch ↔ Codec.DataFits dart key epoch := by
    rw [hd.header]
    exact ⟨fun h => ⟨h.type, h.convId, h.senderId, h.epoch, h.key⟩,
      fun h => ⟨h.type, h.convId, h.senderId, h.epoch, h.key⟩⟩
  have hdrawn : SameBut c { s with draws := s.draws + 1 } { s' with draws := s'.draws + 1 } := by
    refine ⟨?_, hs.sent⟩
    rw [hs.rest]
    rfl
  by_cases hfits : Codec.DataFits dart key epoch
  · by_cases hc : dart.convId = c
    · rw [hd.same hc, hdict hc]
      refine paired_of_blind (fun h => ?_) hs
      refine .bind (randomBytes_blind me h 12) fun nonce => ?_
      refine .ofOption_bind fun buf => ?_
      exact .bind (.emit _) fun _ => broadcast_blind h buf
    · have hc' : dart'.convId ≠ c := by
        rw [hd.header]
        exact hc
      obtain ⟨hres, hout⟩ := transmitData_other hC hme hbody hshort hc hfits hlen
      obtain ⟨hres', hout'⟩ := transmitData_other hC hme hbody hshort hc' (hiff.mpr hfits) hlen'
      refine ⟨hres.trans hres'.symm, ?_, hout.trans hout'.symm⟩
      rw [transmitData_state, transmitData_state]
      exact hdrawn
  · have hfits' := fun h => hfits (hiff.mp h)
    refine ⟨?_, ?_, ?_⟩ <;> rw [transmitData_unfit hfits, transmitData_unfit hfits']
    · exact hdrawn
    · rfl

/-! ### Sends and repeated transmissions -/

omit hC hme in
theorem pushHistory_alike {m m' : NumMap DataDart}
    (h : ∀ k, Option.Rel (Alike c) (m.get k) (m'.get k)) {d d' : DataDart} (hd : Alike c d d') (k : ℕ) :
    Option.Rel (Alike c) ((pushHistory m d).get k) ((pushHistory m' d').get k) := by
  have hseq : d'.seq = d.seq := by rw [hd.header]
  have hk := h k
  rw [get_pushHistory, get_pushHistory, hseq]
  split
  · exact .some hd
  · generalize m.get k = o at hk
    generalize m'.get k = o' at hk
    cases hk with
    | none => exact .none
    | some hdd =>
      rw [Option.filter_some, Option.filter_some]
      split
      · exact .some hdd
      · exact .none

omit hC hme in
theorem sentDart_alike (hs : SameBut c s s') {payload : String}
    (hp : convId = c → payload' = payload) :
    Alike c (sentDart me convId payload s) (sentDart me convId payload' s') := by
  have hnext : sentDart me convId payload' s' = sentDart me convId payload' s := by
    rw [hs.rest]
    rfl
  rw [hnext]
  exact ⟨rfl, fun hc => by rw [hp hc]⟩

omit hC hme in
theorem enterSent_sameBut (hs : SameBut c s s') {payload : String}
    (hp : convId = c → payload' = payload) (chain : ChainState) :
    SameBut c (enterSent C me convId payload chain s) (enterSent C me convId payload' chain s') := by
  have hsent : ∀ k, Option.Rel (Alike c) ((enterSent C me convId payload chain s).sentMessages.get k)
      ((enterSent C me convId payload' chain s').sentMessages.get k) := by
    intro k
    rw [enterSent_sentMessages, enterSent_sentMessages]
    exact pushHistory_alike hs.sent (sentDart_alike hs hp) k
  refine ⟨?_, hsent⟩
  -- the cached keys are pruned with the darts, which are stored under the same numbers
  have hkeys : (enterSent C me convId payload' chain s').messageKeys
      = (enterSent C me convId payload chain s).messageKeys := by
    have hhas : ∀ k, (s'.sentMessages.set s'.nextSeq (sentDart me convId payload' s')).has k
        = (s.sentMessages.set s.nextSeq (sentDart me convId payload s)).has k := by
      intro k
      have hnext : s'.nextSeq = s.nextSeq := by rw [hs.rest]; rfl
      rw [InsertionMap.has, InsertionMap.has, get_set, get_set, hnext]
      split
      · rfl
      · exact hs.has k
    show InsertionMap.retain _ (fun k _ => !(s'.sentMessages.set s'.nextSeq
        (sentDart me convId payload' s')).has k || recent s'.nextSeq k)
      = InsertionMap.retain _ (fun k _ => !(s.sentMessages.set s.nextSeq
        (sentDart me convId payload s)).has k || recent s.nextSeq k)
    simp only [hhas]
    rw [hs.rest]
    rfl
  obtain ⟨m, rfl⟩ : ∃ m, s' = s.withSent m := ⟨_, hs.rest⟩
  generalize ht : enterSent C me convId payload chain s = t at *
  generalize ht' : enterSent C me convId payload' chain (s.withSent m) = t' at *
  calc t' = { t with sentMessages := t'.sentMessages, messageKeys := t'.messageKeys } := by
        rw [← ht, ← ht']
        rfl
    _ = t.withSent t'.sentMessages := by
        rw [hkeys]
        rfl

/-- **A send in both runs.** -/
theorem sendData_paired (hbody : LengthPreserving C) (hshort : ShortFrames C n)
    (hs : SameBut c s s') (hwf : s.WellFormed) (hwf' : s'.WellFormed) {payload : String}
    (hp : convId = c → payload' = payload)
    (hclear : ∀ dart ∈ codedDarts C me s (.sendData convId payload), ClearOf c n s dart)
    (hclear' : ∀ dart ∈ codedDarts C me s' (.sendData convId payload'), ClearOf c n s' dart) :
    TwoRuns c (sendData C me convId payload) (sendData C me convId payload') s s' := by
  have hO := sameDarts_pieces c
  have hchain : s'.getChain convId (s'.sendingEpoch convId) me.senderId
      = s.getChain convId (s.sendingEpoch convId) me.senderId := by
    rw [hs.rest]
    rfl
  have hepoch : s'.sendingEpoch convId = s.sendingEpoch convId := by rw [hs.rest]; rfl
  have hseq : s'.nextSeq = s.nextSeq := by rw [hs.rest]; rfl
  refine .get_bind ?_
  cases hch : s.getChain convId (s.sendingEpoch convId) me.senderId with
  | none =>
    rw [hch] at hchain
    simp only [hch, hchain]
    refine .modify hO ⟨?_, hs.sent⟩
    rw [hs.rest]
    rfl
  | some chain =>
    rw [hch] at hchain
    rw [codedDarts, hch, Option.isSome_some, if_pos rfl] at hclear
    rw [codedDarts, hchain, Option.isSome_some, if_pos rfl] at hclear'
    have hone := hclear _ (List.mem_singleton_self _)
    have hone' := hclear' _ (List.mem_singleton_self _)
    simp only [hch, hchain]
    simp only [hepoch]
    have hent : SameBut c (enterSent C me convId payload chain s)
        (enterSent C me convId payload' chain s') := enterSent_sameBut hs hp chain
    refine .bind hO (.modify hO hent) fun _ _ _ => ?_
    refine .bind hO (.emit hent rfl) fun _ _ _ => ?_
    refine .bind hO ?_ fun _ _ hsame => ?_
    · refine transmitData_paired hC hme hbody hshort (sentDart_alike hs hp) (fun hc => ?_) hent
        hone.fits hone'.fits
      rw [hseq]
      exact hs.getDictionary_eq hwf hwf' hwf.nextSeq (hone.window hc)
    · rw [hseq] at hsame ⊢
      refine paired_of_blind (fun h => ?_) hsame
      exact .bind (.modify fun _ => rfl) fun _ =>
        Commutes.modify fun _ => rfl

/-- **A repeated transmission in both runs.** -/
theorem retransmit_paired (hbody : LengthPreserving C) (hshort : ShortFrames C n)
    (hs : SameBut c s s') (hwf : s.WellFormed) (hwf' : s'.WellFormed) {seq : ℕ}
    (hclear : ∀ dart, s.sentMessages.get seq = some dart → ClearOf c n s dart)
    (hclear' : ∀ dart, s'.sentMessages.get seq = some dart → ClearOf c n s' dart) :
    TwoRuns c (retransmit C me seq) (retransmit C me seq) s s' := by
  have hO := sameDarts_pieces c
  have hkeys : s'.messageKeys = s.messageKeys := by rw [hs.rest]; rfl
  have hsent := hs.sent seq
  refine .get_bind ?_
  rw [hkeys]
  cases hd : s.sentMessages.get seq with
  | none =>
    rw [hd] at hsent
    generalize s'.sentMessages.get seq = o' at hsent
    cases hsent
    exact .pure hO _ hs
  | some dart =>
    rw [hd] at hsent
    obtain ⟨dart', hd', halike⟩ : ∃ dart', s'.sentMessages.get seq = some dart' ∧ Alike c dart dart' := by
      generalize s'.sentMessages.get seq = o' at hsent
      cases hsent with
      | some h => exact ⟨_, rfl, h⟩
    rw [hd']
    cases hmk : s.messageKeys.get seq with
    | none => exact .pure hO _ hs
    | some mk =>
      refine .bind hO ?_ fun _ _ hsame => ?_
      · refine transmitData_paired hC hme hbody hshort halike (fun hc => ?_) hs (hclear dart hd).fits
          (hclear' dart' hd').fits
        obtain ⟨hseq, hlt⟩ := hwf.sent seq dart hd
        have hwin := (hclear dart hd).window hc
        rw [hseq] at hwin
        exact hs.getDictionary_eq hwf hwf' hlt hwin
      · exact paired_of_blind (fun h => .modify fun _ => rfl) hsame

omit hC hme in
/-- A repeated transmission keeps the stored darts and the transport. -/
theorem retransmit_keeps (seq : ℕ) (s : Client) :
    (retransmit C me seq s).state.sentMessages = s.sentMessages ∧
      (retransmit C me seq s).state.useFallback = s.useFallback := by
  rw [retransmit, get_bind]
  cases s.sentMessages.get seq with
  | none => exact ⟨rfl, rfl⟩
  | some dart =>
    cases s.messageKeys.get seq with
    | none => exact ⟨rfl, rfl⟩
    | some mk =>
      refine after_bind (P := fun t : Client => t.sentMessages = s.sentMessages ∧
        t.useFallback = s.useFallback) ?_ fun _ t ht => ht
      rw [transmitData_state]
      exact ⟨rfl, rfl⟩

/-- **All repeated transmissions of an answer.** -/
theorem retransmits_paired (hbody : LengthPreserving C) (hshort : ShortFrames C n) (seqs : List ℕ) :
    ∀ {s s' : Client}, SameBut c s s' → s.WellFormed → s'.WellFormed →
    (∀ seq ∈ seqs, ∀ dart, s.sentMessages.get seq = some dart → ClearOf c n s dart) →
    (∀ seq ∈ seqs, ∀ dart, s'.sentMessages.get seq = some dart → ClearOf c n s' dart) →
    TwoRuns c (forEach (retransmit C me) seqs) (forEach (retransmit C me) seqs) s s' := by
  have hO := sameDarts_pieces c
  -- a repeated transmission keeps what decides about the later ones
  have hkeep : ∀ {seq : ℕ} {seqs : List ℕ} {t : Client},
      (∀ q ∈ seq :: seqs, ∀ dart, t.sentMessages.get q = some dart → ClearOf c n t dart) →
      ∀ q ∈ seqs, ∀ dart, (retransmit C me seq t).state.sentMessages.get q = some dart →
        ClearOf c n (retransmit C me seq t).state dart := by
    intro seq seqs t h q hq dart hdart
    obtain ⟨hsent, htcp⟩ := @retransmit_keeps C me seq t
    rw [hsent] at hdart
    have hclear := h q (List.mem_cons_of_mem _ hq) dart hdart
    exact ⟨hsent ▸ hclear.window, htcp ▸ hclear.fits⟩
  induction seqs with
  | nil => exact fun hs _ _ _ _ => .pure hO _ hs
  | cons seq seqs ih =>
    intro s s' hs hwf hwf' hclear hclear'
    rw [forEach_cons]
    have hone := retransmit_paired hC hme hbody hshort hs hwf hwf' (hclear seq List.mem_cons_self)
      (hclear' seq List.mem_cons_self)
    refine .bind hO hone fun u hres hsame => ?_
    exact ih hsame (hwf.of_core (retransmit_core seq s)) (hwf'.of_core (retransmit_core seq s'))
      (hkeep hclear) (hkeep hclear')

/-! ### Frames and events -/

/-- **The answer to a NACK in both runs.** -/
theorem handleNack_paired (hbody : LengthPreserving C) (hshort : ShortFrames C n)
    (hs : SameBut c s s') (hwf : s.WellFormed) (hwf' : s'.WellFormed)
    (hclear : ∀ seq ∈ requestedSeqs C me s buf, ∀ dart, s.sentMessages.get seq = some dart →
      ClearOf c n s dart)
    (hclear' : ∀ seq ∈ requestedSeqs C me s' buf, ∀ dart, s'.sentMessages.get seq = some dart →
      ClearOf c n s' dart) :
    TwoRuns c (handleNack C me buf) (handleNack C me buf) s s' := by
  have hO := sameDarts_pieces c
  have hopened : openPairwise C me s' buf = openPairwise C me s buf := by
    rw [hs.rest]
    rfl
  have hkey : ∀ convId, s'.getCurrentKey convId = s.getCurrentKey convId := by
    intro convId
    rw [hs.rest]
    rfl
  rw [requestedSeqs] at hclear hclear'
  rw [handleNack]
  refine .get_bind ?_
  simp only [hopened, hkey] at hclear' ⊢
  rcases hopen : openPairwise C me s buf with _ | _ | ⟨convId, senderId, stripped⟩
  · exact .throw hO hs
  · exact .pure hO _ hs
  rw [ofOption_some_bind]
  simp only [hopen, Option.join_some, Option.bind_eq_bind, Option.bind_some] at hclear hclear' ⊢
  cases hcur : s.getCurrentKey convId with
  | none => exact .pure hO _ hs
  | some convKey =>
    simp only [hcur, Option.bind_some] at hclear hclear' ⊢
    cases hnack : Codec.decodeNack C stripped convKey with
    | none => exact .throw hO hs
    | some nack =>
      rw [ofOption_some_bind]
      simp only [hnack, Option.bind_some, Option.getD_some] at hclear hclear'
      refine .bind hO ?_ fun _ _ hsame => ?_
      · exact retransmits_paired hC hme hbody hshort _ hs hwf hwf' hclear hclear'
      · exact paired_of_blind (fun h => reshareSeed_blind C me h _ _) hsame

omit hC hme in
/-- A reset that targets the client empties the history in both runs. -/
theorem handleDictReset_paired (hs : SameBut c s s') (buf : Buffer) :
    TwoRuns c (handleDictReset C me buf) (handleDictReset C me buf) s s' := by
  have hO := sameDarts_pieces c
  have hopened : openRelayed s' buf = openRelayed s buf := by
    rw [hs.rest]
    rfl
  rw [handleDictReset]
  refine .get_bind ?_
  rw [hopened]
  rcases openRelayed s buf with _ | _ | ⟨stripped, resetKey⟩
  · exact .throw hO hs
  · exact .pure hO _ hs
  simp only [ofOption_some_bind]
  cases Codec.decodeDictReset C stripped resetKey with
  | none => exact .throw hO hs
  | some reset =>
    rw [ofOption_some_bind]
    by_cases hself : reset.targetId = me.senderId
    · refine .modify hO ?_
      rw [applyDictReset, applyDictReset, if_pos hself, if_pos hself]
      exact hs.withSent fun _ => .none
    · refine paired_of_blind (fun h => .modify fun t => ?_) hs
      rw [applyDictReset, applyDictReset, if_neg hself, if_neg hself, clearReceived_withSent]

/-- **The handler of a frame in both runs.** -/
theorem handlerOf_paired (hbody : LengthPreserving C) (hshort : ShortFrames C n)
    (hs : SameBut c s s') (hwf : s.WellFormed) (hwf' : s'.WellFormed) {type : ℕ}
    (hself : type = TYPE_DATA → buf.readUInt16BE 7 ≠ some me.senderId)
    (hclear : type = TYPE_NACK → ∀ seq ∈ requestedSeqs C me s buf, ∀ dart,
      s.sentMessages.get seq = some dart → ClearOf c n s dart)
    (hclear' : type = TYPE_NACK → ∀ seq ∈ requestedSeqs C me s' buf, ∀ dart,
      s'.sentMessages.get seq = some dart → ClearOf c n s' dart) :
    TwoRuns c (handlerOf C me type buf) (handlerOf C me type buf) s s' := by
  have hO := sameDarts_pieces c
  refine handlerOf_cases (P := fun m => TwoRuns c m m s s') ?_ ?_ ?_ ?_ ?_ ?_ ?_ ?_ ?_
  · exact fun h => paired_of_blind (fun m => handleData_blind C me m (hself h)) hs
  · exact fun _ => paired_of_blind (fun m => handleChainShare_blind C me m buf) hs
  · exact fun h => handleNack_paired hC hme hbody hshort hs hwf hwf' (hclear h) (hclear' h)
  · exact fun _ => paired_of_blind (fun m => handleKeyShare_blind C me m buf) hs
  · exact fun _ => paired_of_blind (fun m => handleMemberInfo_blind C me m buf) hs
  · exact fun _ => paired_of_blind (fun m => handleSync_blind C me m buf) hs
  · exact fun _ => handleDictReset_paired hs buf
  · exact fun _ => paired_of_blind (fun m => handleAck_blind C me m buf) hs
  · exact .pure hO _ hs

/-- **A frame in both runs.** -/
theorem step_message_paired (hbody : LengthPreserving C) (hshort : ShortFrames C n)
    (hs : SameBut c s s') (hwf : s.WellFormed) (hwf' : s'.WellFormed)
    (hiso : Isolated C me c n s (.message buf)) (hiso' : Isolated C me c n s' (.message buf)) :
    TwoRuns c (step C me (.message buf)) (step C me (.message buf)) s s' := by
  have hO := sameDarts_pieces c
  have hclosed : s'.closed = s.closed := by rw [hs.rest]; rfl
  have hself := hiso.1
  have hclear : ∀ {t : Client}, Isolated C me c n t (.message buf) →
      buf.readUInt8 0 = some TYPE_NACK → ∀ seq ∈ requestedSeqs C me t buf, ∀ dart,
        t.sentMessages.get seq = some dart → ClearOf c n t dart := by
    intro t ht htype seq hseq dart hdart
    refine ht.2 dart ?_
    rw [codedDarts, if_pos htype]
    exact List.mem_filterMap.mpr ⟨seq, hseq, hdart⟩
  refine .get_bind ?_
  rw [hclosed]
  cases hc : s.closed with
  | true => exact .pure hO _ hs
  | false =>
    refine .bind hO (.attempt ?_) fun _ _ h => .pure hO _ h
    cases htype : buf.readUInt8 0 with
    | none =>
      rw [dispatch, htype]
      exact .throw hO hs
    | some type =>
      rw [dispatch, htype, ofOption_some_bind]
      refine handlerOf_paired hC hme hbody hshort hs hwf hwf' (fun hdata hown => ?_)
        (fun hnack => hclear hiso (hnack ▸ htype)) fun hnack => hclear hiso' (hnack ▸ htype)
      rw [Event.namesSelf, decide_eq_false_iff_not] at hself
      exact hself ⟨hdata ▸ htype, hown⟩

/-- **One event in both runs.** -/
theorem step_paired (hbody : LengthPreserving C) (hshort : ShortFrames C n)
    (hs : SameBut c s s') (hwf : s.WellFormed) (hwf' : s'.WellFormed) {ev ev' : Event}
    (hcall : SameCall c ev ev') (hiso : Isolated C me c n s ev) (hiso' : Isolated C me c n s' ev') :
    TwoRuns c (step C me ev) (step C me ev') s s' := by
  cases hcall with
  | other hne hlen =>
    exact sendData_paired hC hme hbody hshort hs hwf hwf' (fun hc => absurd hc hne) hiso.2 hiso'.2
  | same =>
    cases ev with
    | sendData convId payload =>
      exact sendData_paired hC hme hbody hshort hs hwf hwf' (fun _ => rfl) hiso.2 hiso'.2
    | message buf => exact step_message_paired hC hme hbody hshort hs hwf hwf' hiso hiso'
    | _ =>
      refine paired_of_blind (fun h => step_blind C me h ?_ ?_) hs
      · exact fun _ _ => Event.noConfusion
      · exact fun _ => Event.noConfusion

/-- **Two runs from related states.** -/
theorem run_paired (hbody : LengthPreserving C) (hshort : ShortFrames C n)
    {evs evs' : List Event} (hcalls : List.Forall₂ (SameCall c) evs evs') :
    ∀ {s s' : Client}, SameBut c s s' → s.WellFormed → s'.WellFormed → IsolatedRun C me c n s evs →
      IsolatedRun C me c n s' evs' →
      SameDarts c (run C me evs s).output (run C me evs' s').output := by
  induction hcalls with
  | nil => exact fun _ _ _ _ _ => rfl
  | cons hcall _ ih =>
    intro s s' hs hwf hwf' hiso hiso'
    have hstep := step_paired hC hme hbody hshort hs hwf hwf' hcall hiso.1 hiso'.1
    rw [run_cons, run_cons]
    exact (sameDarts_pieces c).append hstep.output (ih hstep.state (step_wellFormed C me _ hwf)
      (step_wellFormed C me _ hwf') hiso.2 hiso'.2)

end Transmit

/-- **No flow between conversations.**  Two runs that make the same calls and differ only in payloads
sent outside `c` broadcast the same Data frames for `c`, byte for byte, provided that no dart of `c` is
sent or asked for while a dart of another conversation lies in its window. -/
theorem data_frames_agree {n : ℕ} (hC : C.Lawful) (hme : me.Lawful) (hbody : LengthPreserving C)
    (hshort : ShortFrames C n) {evs evs' : List Event} (hcalls : List.Forall₂ (SameCall c) evs evs')
    (hiso : IsolatedRun C me c n {} evs) (hiso' : IsolatedRun C me c n {} evs') :
    dataFrames c (outputsOf C me evs) = dataFrames c (outputsOf C me evs') :=
  run_paired hC hme hbody hshort hcalls (SameBut.refl c {}) Client.WellFormed.init
    Client.WellFormed.init hiso hiso'

/-! ### Runs -/

/-- A client that founds conversations 1 and 2 and then makes the calls. -/
def twoRooms (calls : List Event) : List Event :=
  .addPeer ⟨"127.0.0.1", 9999⟩ :: .message (sumMemberInfo 1 1 true [1, 2]) ::
    .message (sumMemberInfo 2 1 true [1, 2]) :: calls

theorem twoRooms_sameCalls {calls calls' : List Event} (h : List.Forall₂ (SameCall c) calls calls') :
    List.Forall₂ (SameCall c) (twoRooms calls) (twoRooms calls') :=
  .cons (.same _) (.cons (.same _) (.cons (.same _) h))

/-- Two darts of conversation 1, then one of conversation 2. -/
def lateCalls (secret : String) : List Event :=
  twoRooms [.sendData 1 "x", .sendData 1 "y", .sendData 2 secret]

/-- What is sent in conversation 2 after the darts of conversation 1 does not show in them. -/
theorem late_calls_agree :
    (dataFrames 1 (outputsOf sumCrypto (sumIdentity 1) (lateCalls "a"))).length = 2 ∧
      dataFrames 1 (outputsOf sumCrypto (sumIdentity 1) (lateCalls "a"))
        = dataFrames 1 (outputsOf sumCrypto (sumIdentity 1) (lateCalls "b")) :=
  ⟨by decide +kernel,
    data_frames_agree (n := 65000) sumCrypto_lawful (sumIdentity_lawful 1) sumCrypto_lengthPreserving
      (fun payload _ h => by show payload.length + 47 < 65536; omega)
      (twoRooms_sameCalls (.cons (.same _) (.cons (.same _)
        (.cons (.other (by decide) (by decide +kernel)) .nil))))
      (by decide +kernel) (by decide +kernel)⟩

/-- One dart of conversation 2, then one of conversation 1. -/
def earlyCalls (secret : String) : List Event := twoRooms [.sendData 2 secret, .sendData 1 "x"]

/-- **The fingerprint shows another conversation.**  One earlier dart in conversation 2 changes the
dictionary fingerprint in the header of the next dart of conversation 1. -/
theorem fingerprint_shows_other_conversation :
    List.Forall₂ (SameCall 1) (earlyCalls "a") (earlyCalls "b") ∧
      (dataFrames 1 (outputsOf sumCrypto (sumIdentity 1) (earlyCalls "a"))).map
          (fun buf => buf.subarray 23 27)
        ≠ (dataFrames 1 (outputsOf sumCrypto (sumIdentity 1) (earlyCalls "b"))).map
          (fun buf => buf.subarray 23 27) :=
  ⟨twoRooms_sameCalls (.cons (.other (by decide) (by decide +kernel)) (.cons (.same _) .nil)),
    by decide +kernel⟩

end DartProtocol
