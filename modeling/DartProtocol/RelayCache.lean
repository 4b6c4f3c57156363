import DartProtocol.GoServer
import DartProtocol.RustRules
import DartProtocol.ServerRules
import DartProtocol.SlidingCache

/-!
# The relay cache of the three servers

Each server caches Data darts per conversation and sender, to repair gaps without the sender.  The
three implementations enter a dart in the same way, and nothing else touches their caches: over any
run, the caches are a table of windows that changes by entering accepted darts (`Traced`).

* `relayWindow_of_get₂` — the update all three make is `Window.store`;
* `step_windows` of each server — one event enters the dart it accepts, if it accepts one;
* `CacheKept` — what is claimed of the caches over a run;
* `relay_cache_window` — it holds for every run of each server.  For the Rust server, runs are all
  interleavings of the sections of its tasks.
-/

namespace DartProtocol

open Prog

/-! ### The caches as a table of windows -/

/-- The window of a conversation and a sender. -/
def relayWindow (messageCache : NumMap (NumMap (NumMap Buffer))) (highestSeq : NumMap (NumMap ℕ))
    (key : ℕ × ℕ) : Window Buffer where
  entries := (get₂ messageCache key.1 key.2).getD ∅
  highest := get₂ highestSeq key.1 key.2

/-- A dart as it was accepted: for which conversation and sender, with which number and bytes. -/
abbrev Accepted := (ℕ × ℕ) × ℕ × Buffer

/-- Enter what was accepted. -/
def enter (view : ℕ × ℕ → Window Buffer) : Option Accepted → ℕ × ℕ → Window Buffer
  | none => view
  | some (key, seq, buf) => Function.update view key ((view key).store SEQ_MOD 200 seq buf)

/-- A cache that changes for one sender, by the rule of the servers. -/
theorem relayWindow_of_get₂ {cache cache' : NumMap (NumMap (NumMap Buffer))}
    {high high' : NumMap (NumMap ℕ)} {convId senderId seq : ℕ} {buf : Buffer}
    (hcache : ∀ c s, get₂ cache' c s = if convId = c ∧ senderId = s then
      some (((relayWindow cache high (convId, senderId)).entries.set seq buf).retain fun k _ =>
        decide (seqDelta k ((relayWindow cache high (convId, senderId)).reference SEQ_MOD seq) ≤ 200))
      else get₂ cache c s)
    (hhigh : ∀ c s, get₂ high' c s = if convId = c ∧ senderId = s then
      (if 0 < (relayWindow cache high (convId, senderId)).ahead SEQ_MOD seq ∧
          (relayWindow cache high (convId, senderId)).ahead SEQ_MOD seq < SEQ_MOD / 2 then some seq
        else get₂ high convId senderId)
      else get₂ high c s) :
    relayWindow cache' high'
      = enter (relayWindow cache high) (some ((convId, senderId), seq, buf)) := by
  funext key
  obtain ⟨c, s⟩ := key
  rw [enter]
  by_cases hkey : convId = c ∧ senderId = s
  · obtain ⟨rfl, rfl⟩ := hkey
    rw [Function.update_self, relayWindow, hcache, hhigh]
    simp only [and_self, if_true, Option.getD_some]
    rfl
  · rw [Function.update_of_ne (fun h => hkey ⟨(congrArg Prod.fst h).symm, (congrArg Prod.snd h).symm⟩),
      relayWindow, hcache, hhigh]
    simp only [if_neg hkey]
    rfl

theorem get₂_ite_set₂ {ν : Type} (p : Prop) [Decidable p] (m : NumMap (NumMap ν)) (i j c t : ℕ)
    (v : ν) : get₂ (if p then set₂ m i j v else m) c t
      = if i = c ∧ j = t then (if p then some v else get₂ m i j) else get₂ m c t := by
  by_cases hp : p
  · rw [if_pos hp, if_pos hp, get₂_set₂]
  · rw [if_neg hp, if_neg hp]
    split
    · rename_i h
      rw [h.1, h.2]
    · rfl

theorem relayWindow_ahead (cache : NumMap (NumMap (NumMap Buffer))) (high : NumMap (NumMap ℕ))
    (convId senderId seq : ℕ) :
    (relayWindow cache high (convId, senderId)).ahead SEQ_MOD seq
      = if (get₂ high convId senderId).isSome then seqDelta ((get₂ high convId senderId).getD 0) seq
        else 1 := by
  have hhigh : (relayWindow cache high (convId, senderId)).highest = get₂ high convId senderId := rfl
  rw [Window.ahead, hhigh]
  cases get₂ high convId senderId <;> rfl

theorem relayWindow_reference (cache : NumMap (NumMap (NumMap Buffer))) (high : NumMap (NumMap ℕ))
    (convId senderId seq : ℕ) :
    (relayWindow cache high (convId, senderId)).reference SEQ_MOD seq
      = if SEQ_MOD / 2 ≤ (if (get₂ high convId senderId).isSome then
            seqDelta ((get₂ high convId senderId).getD 0) seq else 1) then
          (get₂ high convId senderId).getD 0
        else seq := by
  rw [Window.reference, relayWindow_ahead]
  rfl

/-! ### TypeScript -/

namespace GroupServer

variable {C : Crypto} {keys : ServerKeys}

def windows (s : GroupServer) : ℕ × ℕ → Window Buffer := relayWindow s.messageCache s.highestSeq

theorem windows_cacheData (convId senderId seq : ℕ) (buf : Buffer) (s : GroupServer) :
    (cacheData convId senderId seq buf s).windows
      = enter s.windows (some ((convId, senderId), seq, buf)) := by
  apply relayWindow_of_get₂
  · intro c t
    rw [relayWindow_reference, cacheData]
    simp only [get₂_set₂, orDefault_zero, ← Nat.not_lt, decide_not]
    rfl
  · intro c t
    rw [relayWindow_ahead, cacheData]
    simp only [orDefault_zero, get₂_ite_set₂]

/-- The dart an event brings into the cache: one of a peer that has shown an identity. -/
def acceptedAt (s : GroupServer) : Event → Option Accepted
  | .message _ id _ buf => do
    let type ← buf.readUInt8 0
    let convId ← buf.readUInt16BE 1
    if type = TYPE_DATA then
      let senderId ← s.peerIdentity.get id
      let seq ← buf.readUIntBE 3 3
      some ((convId, senderId), seq, buf)
    else none
  | _ => none

/-- The caches stay as they are. -/
def KeepsCache (s : GroupServer) (_ : List ServerOutput) (s' : GroupServer) : Prop :=
  s'.messageCache = s.messageCache ∧ s'.highestSeq = s.highestSeq

theorem keepsCache_relay : Relay KeepsCache where
  comp :=
    { refl := fun _ => ⟨rfl, rfl⟩
      trans := fun h h' => ⟨h'.1.trans h.1, h'.2.trans h.2⟩ }
  draw := fun _ _ => ⟨rfl, rfl⟩
  sent := fun _ _ _ _ => ⟨rfl, rfl⟩

theorem notePeer_keepsCache (type convId : ℕ) (buf : Buffer) (peer : Peer) (s : GroupServer) :
    KeepsCache s [] (notePeer type convId buf peer s) := by
  rw [notePeer]
  split
  · exact ⟨rfl, rfl⟩
  · split <;> exact ⟨rfl, rfl⟩

theorem registerMember_keepsCache (req : KeyReqDart) (s : GroupServer) :
    KeepsCache s [] (registerMember req s) := by
  have hopen : KeepsCache s [] (openRoom req.convId req.senderId s) := by
    rw [openRoom]
    split <;> exact ⟨rfl, rfl⟩
  have htake : ∀ t, KeepsCache t [] (takeOverRoom req.convId req.senderId t) := by
    intro t
    rw [takeOverRoom]
    split
    · exact ⟨rfl, rfl⟩
    · split <;> exact ⟨rfl, rfl⟩
  exact keepsCache_relay.comp.trans hopen (htake _)

theorem notifyMembers_keepsCache (convId : ℕ) :
    Obeys KeepsCache (notifyMembers C keys convId) :=
  notifyMembers_obeys keepsCache_relay convId

theorem handleKeyReq_keepsCache (buf : Buffer) : Obeys KeepsCache (handleKeyReq C keys buf) := by
  rw [handleKeyReq]
  apply Obeys.ofOption_bind keepsCache_relay.comp
  intro req
  apply Obeys.bind keepsCache_relay.comp
    (.modify fun s => registerMember_keepsCache req s)
  exact fun _ => notifyMembers_keepsCache req.convId

theorem removePeer_keepsCache (peerId : String) :
    Obeys KeepsCache (removePeer C keys peerId) := by
  have hcomp := keepsCache_relay.comp
  rw [removePeer]
  apply Obeys.get_bind
  intro s
  apply Obeys.bind hcomp (.modify (f := leaveGroups peerId) fun t => ⟨rfl, rfl⟩)
  intro _
  split
  · exact .pure hcomp _
  · rename_i senderId _
    apply Obeys.forEach hcomp
    intro convId _
    rw [leaveConversation]
    apply Obeys.get_bind
    intro t
    split
    · exact .pure hcomp _
    · rename_i mems _
      apply Obeys.bind hcomp
        (.modify (f := removeMember convId senderId mems) fun u => ⟨rfl, rfl⟩)
      exact fun _ => notifyMembers_keepsCache convId

theorem handlerOf_keepsCache {type : ℕ} (htype : type ≠ TYPE_DATA) (buf : Buffer) (peer : Peer)
    (convId : ℕ) : Obeys KeepsCache (handlerOf C keys type buf peer convId) := by
  have hrelay := keepsCache_relay
  rw [handlerOf, if_neg htype]
  apply Obeys.ite (handleKeyReq_keepsCache buf)
  apply Obeys.ite (handleTargeted_obeys hrelay buf convId)
  apply Obeys.ite (handleNack_obeys hrelay buf peer)
  apply Obeys.ite (handleRelayed_obeys hrelay buf peer convId)
  apply Obeys.ite (handleRelayed_obeys hrelay buf peer convId)
  exact .ite (handleTargeted_obeys hrelay buf convId) (.pure hrelay.comp _)

theorem windows_of_keepsCache {s s' : GroupServer} {os : List ServerOutput} (h : KeepsCache s os s') :
    s'.windows = s.windows := by
  rw [windows, windows, h.1, h.2]

/-- **One event enters the dart it accepts**, and changes nothing else in the caches. -/
theorem step_windows (e : Event) (s : GroupServer) :
    (step C keys e s).state.windows = enter s.windows (acceptedAt s e) := by
  cases e with
  | message now id link buf =>
    rw [step_message]
    show (dispatch C keys buf _ s).state.windows = enter s.windows (acceptedAt s _)
    rw [dispatch, acceptedAt]
    cases buf.readUInt8 0 with
    | none => rfl
    | some type =>
      rw [ofOption_some_bind]
      cases buf.readUInt16BE 1 with
      | none => rfl
      | some convId =>
        rw [ofOption_some_bind, modify_bind]
        have hnoted := windows_of_keepsCache
          (notePeer_keepsCache type convId buf ⟨id, link, some now, 1⟩ s)
        simp only [Option.bind_eq_bind, Option.bind_some]
        by_cases htype : type = TYPE_DATA
        · rw [if_pos htype, handlerOf, if_pos htype, handleData, get_bind]
          have hidentity : (notePeer type convId buf ⟨id, link, some now, 1⟩ s).peerIdentity
              = s.peerIdentity := by
            rw [notePeer, if_pos htype]
            rfl
          rw [hidentity]
          cases s.peerIdentity.get id with
          | none => exact hnoted
          | some senderId =>
            cases buf.readUIntBE 3 3 with
            | none => exact hnoted
            | some seq =>
              simp only [ofOption_some_bind, modify_bind, relayToGroup_run,
                windows_cacheData, hnoted, Option.bind_some]
        · rw [if_neg htype]
          exact (windows_of_keepsCache (handlerOf_keepsCache htype buf _ convId _)).trans hnoted
  | removePeer peerId => exact windows_of_keepsCache (removePeer_keepsCache peerId s)
  | socketClosing socket => rfl
  | close => rfl

/-- The number and the conversation of an accepted dart stand in its bytes. -/
theorem acceptedAt_wire {s : GroupServer} {e : Event} {convId senderId seq : ℕ} {buf : Buffer}
    (h : acceptedAt s e = some ((convId, senderId), seq, buf)) :
    buf.readUInt16BE 1 = some convId ∧ buf.readUIntBE 3 3 = some seq := by
  cases e with
  | message now id link buf' =>
    rw [acceptedAt] at h
    simp only [Option.bind_eq_bind, Option.bind_eq_some_iff] at h
    obtain ⟨type, -, c, hconv, h⟩ := h
    split at h
    · simp only [Option.bind_eq_some_iff] at h
      obtain ⟨sender, -, k, hseq, h⟩ := h
      cases h
      exact ⟨hconv, hseq⟩
    · cases h
  | removePeer peerId => cases h
  | socketClosing socket => cases h
  | close => cases h

end GroupServer

/-! ### Go -/

namespace GoServer

open Slice

variable {C : Crypto} {keys : ServerKeys}

def windows (s : DartGroupServer) : ℕ × ℕ → Window Buffer := relayWindow s.messageCache s.highestSeq

theorem windows_cacheData (convId senderId seq : ℕ) (buf : Buffer) (s : DartGroupServer) :
    windows (cacheData convId senderId seq buf s)
      = enter (windows s) (some ((convId, senderId), seq, buf)) := by
  apply relayWindow_of_get₂
  · intro c t
    rw [relayWindow_reference, cacheData]
    simp only [get₂_set₂, ← Nat.not_lt, decide_not]
    rfl
  · intro c t
    rw [relayWindow_ahead, cacheData]
    simp only [get₂_ite_set₂]

/-- The dart an event brings into the cache. -/
def acceptedAt (s : DartGroupServer) : Event → Option Accepted
  | .message now buf peer =>
    if 7 ≤ buf.length ∧ admitted now peer s = true then do
      let typ ← index buf 0
      let convId ← buf.readUInt16BE 1
      if typ = TYPE_DATA then
        let senderId ← s.peerIdentity.get (s.heap (actualPeer s peer)).id
        let seq ← dataSeq buf
        some ((convId, senderId), seq, buf)
      else none
    else none
  | .removePeer _ => none

/-- The caches stay as they are. -/
def KeepsCache (s : DartGroupServer) (_ : List Output) (s' : DartGroupServer) : Prop :=
  s'.messageCache = s.messageCache ∧ s'.highestSeq = s.highestSeq

theorem keepsCache_comp : Composable KeepsCache where
  refl := fun _ => ⟨rfl, rfl⟩
  trans := fun h h' => ⟨h'.1.trans h.1, h'.2.trans h.2⟩

theorem sendToPeer_keepsCache (buf : Buffer) (peer : ℕ) :
    Obeys KeepsCache (sendToPeer buf peer) := by
  have hemit : ∀ o, Obeys KeepsCache (emit o : GoProg Unit) :=
    fun o => .emit fun _ => ⟨rfl, rfl⟩
  rw [sendToPeer]
  apply Obeys.get_bind
  intro s
  split
  · split
    · exact .pure keepsCache_comp _
    · exact hemit _
  · split
    · exact .pure keepsCache_comp _
    · exact hemit _
  · split
    · exact .pure keepsCache_comp _
    · apply Obeys.ofOption_bind keepsCache_comp
      intro out
      apply Obeys.ofOption_bind keepsCache_comp
      exact fun _ => hemit _

theorem relayToGroup_keepsCache (buf : Buffer) (convId peer : ℕ) :
    Obeys KeepsCache (relayToGroup buf convId peer) := by
  rw [relayToGroup]
  apply Obeys.get_bind
  intro s
  exact .forEach keepsCache_comp fun p _ => sendToPeer_keepsCache buf p

theorem relayToMember_keepsCache (buf : Buffer) (convId targetId : ℕ) :
    Obeys KeepsCache (relayToMember buf convId targetId) := by
  rw [relayToMember]
  apply Obeys.get_bind
  intro s
  split
  · exact .pure keepsCache_comp _
  · exact sendToPeer_keepsCache buf _

theorem notifyMembers_keepsCache (convId : ℕ) :
    Obeys KeepsCache (notifyMembers C keys convId) := by
  rw [notifyMembers]
  apply Obeys.get_bind
  intro s
  split
  · exact .pure keepsCache_comp _
  · apply Obeys.forEach keepsCache_comp
    intro e _
    rw [notifyMember]
    apply Obeys.get_bind
    intro t
    split
    · exact .pure keepsCache_comp _
    · have hdraw : Obeys KeepsCache (randomBytes keys 12) := fun _ => ⟨rfl, rfl⟩
      apply Obeys.bind keepsCache_comp hdraw
      intro nonce
      apply Obeys.ofOption_bind keepsCache_comp
      intro out
      split
      · exact .pure keepsCache_comp _
      · exact relayToMember_keepsCache _ _ _

theorem removePeer_keepsCache (peerId : String) :
    Obeys KeepsCache (removePeer C keys peerId) := by
  rw [removePeer]
  apply Obeys.get_bind
  intro s
  apply Obeys.bind keepsCache_comp
  · exact fun t => ⟨rfl, rfl⟩
  intro _
  apply Obeys.forEach keepsCache_comp
  intro convId _
  rw [leaveConversation]
  apply Obeys.bind keepsCache_comp
  · intro t
    show KeepsCache t [] _
    split <;> exact ⟨rfl, rfl⟩
  · exact fun _ => notifyMembers_keepsCache convId

theorem registerMember_keepsCache (req : KeyReqDart) (s : DartGroupServer) :
    KeepsCache s [] (registerMember req s) := by
  rw [registerMember]
  by_cases hroom : s.members.has req.convId = true
  · simp only [if_pos hroom]
    exact ⟨rfl, rfl⟩
  · simp only [if_neg hroom]
    exact ⟨rfl, rfl⟩

theorem handleKeyReq_keepsCache (buf : Buffer) : Obeys KeepsCache (handleKeyReq C keys buf) := by
  rw [handleKeyReq]
  apply Obeys.ofOption_bind keepsCache_comp
  intro req
  split
  · exact .pure keepsCache_comp _
  · rename_i req
    apply Obeys.bind keepsCache_comp (.modify fun s => registerMember_keepsCache req s)
    exact fun _ => notifyMembers_keepsCache _

theorem handleTargeted_keepsCache (buf : Buffer) (convId : ℕ) :
    Obeys KeepsCache (handleTargeted buf convId) := by
  rw [handleTargeted]
  apply Obeys.ite (.pure keepsCache_comp _)
  apply Obeys.ofOption_bind keepsCache_comp
  exact fun targetId => relayToMember_keepsCache buf convId targetId

theorem handleNack_keepsCache (buf : Buffer) (peer : ℕ) :
    Obeys KeepsCache (handleNack buf peer) := by
  have hpure : Obeys KeepsCache (pure () : GoProg Unit) := .pure keepsCache_comp _
  rw [handleNack]
  apply Obeys.ofOption_bind keepsCache_comp
  intro stripped
  split
  · exact hpure
  · apply Obeys.ofOption_bind keepsCache_comp
    intro nack
    split
    · exact hpure
    · rename_i nack
      rw [repair]
      apply Obeys.get_bind
      intro s
      apply Obeys.bind keepsCache_comp
        (.forEach keepsCache_comp fun cached _ => sendToPeer_keepsCache cached peer)
      intro _
      have hgroup := relayToGroup_keepsCache buf nack.convId peer
      split
      · exact .ite (sendToPeer_keepsCache buf _) (.ite hgroup hpure)
      · exact .ite hgroup hpure

theorem handleRelayed_keepsCache (buf : Buffer) (peer : ℕ) :
    Obeys KeepsCache (handleRelayed C keys buf peer) := by
  have hpure : Obeys KeepsCache (pure () : GoProg Unit) := .pure keepsCache_comp _
  rw [handleRelayed]
  apply Obeys.ofOption_bind keepsCache_comp
  intro convId
  apply Obeys.ofOption_bind keepsCache_comp
  intro senderId
  apply Obeys.get_bind
  intro s
  split
  · exact hpure
  · apply Obeys.ofOption_bind keepsCache_comp
    intro verified
    split
    · exact hpure
    · exact relayToGroup_keepsCache buf convId peer

theorem handlerOf_keepsCache {typ : ℕ} (htyp : typ ≠ TYPE_DATA) (buf : Buffer) (peer convId : ℕ) :
    Obeys KeepsCache (handlerOf C keys typ buf peer convId) := by
  rw [handlerOf, if_neg htyp]
  apply Obeys.ite (handleKeyReq_keepsCache buf)
  apply Obeys.ite (handleTargeted_keepsCache buf convId)
  apply Obeys.ite (handleNack_keepsCache buf peer)
  apply Obeys.ite (handleRelayed_keepsCache buf peer)
  apply Obeys.ite (handleRelayed_keepsCache buf peer)
  exact .ite (handleTargeted_keepsCache buf convId) (.pure keepsCache_comp _)

theorem learn_keepsCache (typ convId : ℕ) (buf : Buffer) (peer : ℕ) :
    Obeys KeepsCache (learn typ convId buf peer) := by
  rw [learn]
  apply Obeys.ite _ (.pure keepsCache_comp _)
  apply Obeys.ofOption_bind keepsCache_comp
  exact fun senderId => .modify fun s => ⟨rfl, rfl⟩

theorem joinGroup_keepsCache (convId peer : ℕ) (s : DartGroupServer) :
    KeepsCache s [] (joinGroup convId peer s) := by
  rw [joinGroup]
  split
  · exact ⟨rfl, rfl⟩
  · split <;> exact ⟨rfl, rfl⟩

theorem joinGroup_heap_id (convId peer q : ℕ) (s : DartGroupServer) :
    ((joinGroup convId peer s).heap q).id = (s.heap q).id := by
  rw [joinGroup]
  split
  · rfl
  · rename_i p _
    split
    · rw [setPeer]
      simp only [Function.update_apply]
      split
      · rename_i hq
        rw [hq]
      · rfl
    · rfl

theorem joinGroup_peerIdentity (convId peer : ℕ) (s : DartGroupServer) :
    (joinGroup convId peer s).peerIdentity = s.peerIdentity := by
  rw [joinGroup]
  split
  · rfl
  · split <;> rfl

theorem countPacket_heap_id (now peer q : ℕ) (s : DartGroupServer) :
    ((countPacket now peer s).heap q).id = (s.heap q).id := by
  rw [countPacket, setPeer]
  simp only [Function.update_apply]
  split
  · rename_i hq
    rw [hq]
    split <;> split <;> rfl
  · rfl

theorem windows_of_keepsCache {s s' : DartGroupServer} {os : List Output} (h : KeepsCache s os s') :
    windows s' = windows s := by
  rw [windows, windows, h.1, h.2]

theorem handleData_windows (buf : Buffer) (peer convId : ℕ) (s : DartGroupServer) :
    windows (handleData buf peer convId s).state
      = enter (windows s) (if 7 ≤ buf.length then do
          let senderId ← s.peerIdentity.get (s.heap peer).id
          let seq ← dataSeq buf
          some ((convId, senderId), seq, buf)
        else none) := by
  rw [handleData]
  by_cases hlen : buf.length < 7
  · rw [if_pos hlen, if_neg (by omega)]
    rfl
  rw [if_neg hlen, if_pos (by omega), get_bind]
  cases s.peerIdentity.get (s.heap peer).id with
  | none => rfl
  | some senderId =>
    cases dataSeq buf with
    | none => rfl
    | some seq =>
      have hrelay := relayToGroup_keepsCache buf convId peer (cacheData convId senderId seq buf s)
      simp only [ofOption_some_bind, modify_bind]
      rw [windows_of_keepsCache hrelay, windows_cacheData]
      rfl

/-- **One event enters the dart it accepts**, and changes nothing else in the caches. -/
theorem step_windows (e : Event) (s : DartGroupServer) :
    windows (step C keys e s).state = enter (windows s) (acceptedAt s e) := by
  cases e with
  | message now buf peer =>
    show windows (handleMessage C keys now buf peer s).state = _
    rw [handleMessage, acceptedAt]
    by_cases hempty : buf.length = 0
    · rw [if_pos hempty, if_neg (by omega)]
      rfl
    rw [if_neg hempty, get_bind, modify_bind]
    by_cases hadmitted : admitted now peer s = true
    · rw [if_pos hadmitted, dispatch, index_eq]
      obtain ⟨typ, htyp⟩ := Option.isSome_iff_exists.mp
        (index_isSome_iff.mpr (by omega : 0 < buf.length))
      rw [← index_eq, htyp, ofOption_some_bind]
      by_cases hshort : buf.length < 3
      · rw [if_pos hshort, if_neg (by omega)]
        rfl
      obtain ⟨convId, hconv⟩ := Option.isSome_iff_exists.mp
        (uint16_slice_isSome_iff.mpr (by omega : 1 + 2 ≤ buf.length))
      have hread : buf.readUInt16BE 1 = some convId := by rw [← uint16_slice rfl, hconv]
      have hslice : (slice buf 1 3).bind uint16 = some convId := hconv
      rw [if_neg hshort, hslice, hread, ofOption_some_bind, modify_bind]
      have hjoined := windows_of_keepsCache
        (joinGroup_keepsCache convId (actualPeer s peer) (countPacket now peer s))
      have hcounted : windows (countPacket now peer s) = windows s := rfl
      simp only [Option.bind_eq_bind, Option.bind_some]
      by_cases hdata : typ = TYPE_DATA
      · have hlearn : learn typ convId buf (actualPeer s peer) = pure () := by
          rw [learn, if_neg (fun h => h.1 hdata)]
        rw [hlearn, Prog.pure_bind, handlerOf, if_pos hdata, handleData_windows, hjoined, hcounted,
          joinGroup_heap_id, countPacket_heap_id, joinGroup_peerIdentity, if_pos hdata]
        by_cases hlen : 7 ≤ buf.length
        · rw [if_pos hlen, if_pos ⟨hlen, hadmitted⟩]
          rfl
        · rw [if_neg hlen, if_neg (fun h => hlen h.1)]
      · rw [if_neg hdata]
        have hhandler : Obeys KeepsCache
            (handlerOf C keys typ buf (actualPeer s peer) convId) := handlerOf_keepsCache hdata buf _ _
        have hrest := Obeys.bind keepsCache_comp
          (learn_keepsCache typ convId buf (actualPeer s peer)) (fun _ => hhandler)
          (joinGroup convId (actualPeer s peer) (countPacket now peer s))
        have hsame := (windows_of_keepsCache hrest).trans (hjoined.trans hcounted)
        split <;> exact hsame
    · rw [if_neg hadmitted, if_neg (fun h => hadmitted h.2)]
      rfl
  | removePeer peerId => exact windows_of_keepsCache (removePeer_keepsCache peerId s)

theorem acceptedAt_wire {s : DartGroupServer} {e : Event} {convId senderId seq : ℕ} {buf : Buffer}
    (h : acceptedAt s e = some ((convId, senderId), seq, buf)) :
    buf.readUInt16BE 1 = some convId ∧ buf.readUIntBE 3 3 = some seq := by
  cases e with
  | message now buf' peer =>
    rw [acceptedAt] at h
    split at h
    · simp only [Option.bind_eq_bind, Option.bind_eq_some_iff] at h
      obtain ⟨typ, -, c, hconv, h⟩ := h
      split at h
      · simp only [Option.bind_eq_some_iff] at h
        obtain ⟨sender, -, k, hseq, h⟩ := h
        cases h
        exact ⟨hconv, (uint24_of_index buf 3).symm.trans hseq⟩
      · cases h
    · cases h
  | removePeer peerId => cases h

/-- The state a fresh server reaches, by its first panic at the latest. -/
def stateAfter (C : Crypto) (keys : ServerKeys) (heap : ℕ → Peer) (es : List Event) :
    DartGroupServer :=
  (run C keys es (start heap)).state

/-- The dart an event brings into the cache, if the process still lives. -/
def acceptedIn (C : Crypto) (keys : ServerKeys) (heap : ℕ → Peer) (es : List Event) (e : Event) :
    Option Accepted :=
  if (run C keys es (start heap)).result.isSome then acceptedAt (stateAfter C keys heap es) e else none

theorem stateAfter_concat_windows (heap : ℕ → Peer) (es : List Event) (e : Event) :
    windows (stateAfter C keys heap (es ++ [e]))
      = enter (windows (stateAfter C keys heap es)) (acceptedIn C keys heap es e) := by
  rw [acceptedIn]
  by_cases hlive : (run C keys es (start heap)).result.isSome
  · rw [if_pos hlive, stateAfter, run, forEach_concat_state]
    exact (congrArg windows (if_pos hlive)).trans (step_windows e _)
  · rw [if_neg hlive, stateAfter, run, forEach_concat_state]
    exact congrArg windows (if_neg hlive)

end GoServer

/-! ### Rust -/

namespace RustServer

open Slice

variable {C : Crypto} {keys : ServerKeys}

def windows (s : ServerState) : ℕ × ℕ → Window Buffer := relayWindow s.messageCache s.highestSeq

theorem windows_cacheData (convId senderId seq : ℕ) (msg : Buffer) (s : ServerState) :
    windows (cacheData convId senderId seq msg s)
      = enter (windows s) (some ((convId, senderId), seq, msg)) := by
  apply relayWindow_of_get₂
  · intro c t
    rw [relayWindow_reference, cacheData]
    simp only [get₂_set₂]
    rfl
  · intro c t
    rw [relayWindow_ahead, cacheData]
    by_cases hbase : (get₂ s.highestSeq convId senderId).isSome
    · simp only [if_pos hbase, get₂_ite_set₂]
    · -- without a baseline the zero that was entered is replaced at once
      have hone : 0 < 1 ∧ 1 < SEQ_MOD / 2 := by decide
      simp only [if_neg hbase, if_pos hone, get₂_set₂]
      split <;> rfl

/-- The dart that entered the cache among outputs. -/
def acceptedOf (os : List Output) : Option Accepted :=
  os.findSome? fun o => match o with
    | .cached convId senderId seq msg => some ((convId, senderId), seq, msg)
    | .sent _ _ _ => none

/-- What a section does to the caches: it enters the dart it puts out as cached, if there is one, whose
bytes name the conversation and the number. -/
def CacheStep (s : ServerState) (os : List Output) (s' : ServerState) : Prop :=
  windows s' = enter (windows s) (acceptedOf os) ∧
    ∀ convId senderId seq msg, acceptedOf os = some ((convId, senderId), seq, msg) →
      msg.readUInt16BE 1 = some convId ∧ msg.readUIntBE 3 3 = some seq

theorem CacheStep.of_same {s s' : ServerState} (hcache : s'.messageCache = s.messageCache)
    (hhigh : s'.highestSeq = s.highestSeq) : CacheStep s [] s' := by
  refine ⟨?_, fun _ _ _ _ h => by cases h⟩
  rw [windows, windows, hcache, hhigh]
  rfl

theorem CacheStep.refl (s : ServerState) : CacheStep s [] s := CacheStep.of_same rfl rfl

theorem foldl_removeMember_same (senderId : ℕ) (convs : List ℕ) :
    ∀ s : ServerState, (convs.foldl (removeMember senderId) s).messageCache = s.messageCache ∧
      (convs.foldl (removeMember senderId) s).highestSeq = s.highestSeq := by
  induction convs with
  | nil => exact fun _ => ⟨rfl, rfl⟩
  | cons convId convs ih => exact fun s => ih (removeMember senderId s convId)

/-- **Every section of a task** enters at most the dart it accepts. -/
theorem cacheStep_rules : TaskRules CacheStep where
  refl := CacheStep.refl
  sent := fun _ _ _ => ⟨rfl, fun _ _ _ _ h => by cases h⟩
  drawn := fun _ => CacheStep.of_same rfl rfl
  counted := fun _ _ => CacheStep.of_same rfl rfl
  noted := by
    intro s typ convId msg peer _
    rw [notePeer]
    split
    · split <;> exact CacheStep.of_same rfl rfl
    · exact CacheStep.of_same rfl rfl
  cached := by
    intro s convId senderId seq msg hconv hseq
    refine ⟨windows_cacheData convId senderId seq msg s, ?_⟩
    intro c t k m h
    cases h
    exact ⟨hconv, hseq⟩
  registered := fun _ _ _ _ => CacheStep.of_same rfl rfl
  removed := by
    intro s peer
    rw [removePeer]
    split
    · exact CacheStep.of_same rfl rfl
    · obtain ⟨hcache, hhigh⟩ := foldl_removeMember_same _ (roomsOf s peer) _
      exact CacheStep.of_same hcache hhigh
  connected := fun _ _ => CacheStep.of_same rfl rfl
  ticked := fun _ _ => CacheStep.of_same rfl rfl

/-- The dart an event brings into the cache, as its section puts it out. -/
def acceptedAt (C : Crypto) (keys : ServerKeys) (es : List Event) (e : Event) : Option Accepted :=
  acceptedOf (step C keys e (poolAfter C keys es)).output

theorem stateAfter_concat_windows (es : List Event) (e : Event) :
    windows (stateAfter C keys (es ++ [e]))
      = enter (windows (stateAfter C keys es)) (acceptedAt C keys es e) := by
  rw [stateAfter, poolAfter_concat]
  exact (step_within cacheStep_rules (poolAfter_within cacheStep_rules es) e).1.1

theorem acceptedAt_wire {es : List Event} {e : Event} {convId senderId seq : ℕ} {msg : Buffer}
    (h : acceptedAt C keys es e = some ((convId, senderId), seq, msg)) :
    msg.readUInt16BE 1 = some convId ∧ msg.readUIntBE 3 3 = some seq :=
  (step_within cacheStep_rules (poolAfter_within cacheStep_rules es) e).1.2 convId senderId seq msg h

end RustServer

/-! ### The window over whole runs -/

/-- **What the caches keep to** over a run of `n` events.  `view i` are the caches after `i` events and
`accepted i` is the dart event `i` brings into them. -/
structure CacheKept (n : ℕ) (view : ℕ → ℕ × ℕ → Window Buffer) (accepted : ℕ → Option Accepted) :
    Prop where
  /-- Nothing is held that lies more than 200 behind the highest number. -/
  within : ∀ i ≤ n, ∀ convId senderId k buf, (view i (convId, senderId)).entries.get k = some buf →
    ∃ highest, (view i (convId, senderId)).highest = some highest ∧ seqDelta k highest ≤ 200
  size : ∀ i ≤ n, ∀ key, (view i key).entries.size ≤ 201
  /-- A dart is held under the conversation and the number that stand in its bytes. -/
  wire : ∀ i ≤ n, ∀ convId senderId k buf, (view i (convId, senderId)).entries.get k = some buf →
    buf.readUInt16BE 1 = some convId ∧ buf.readUIntBE 3 3 = some k
  /-- An accepted dart can be had with the same bytes at every later moment `j`, unless until then
  another one of its number was accepted, or the highest number was more than 200 past it. -/
  kept : ∀ i convId senderId k buf, accepted i = some ((convId, senderId), k, buf) →
    ∀ j, i < j → j ≤ n →
      (∀ m, i < m → m < j → ∀ buf', accepted m ≠ some ((convId, senderId), k, buf')) →
      (∀ m, i < m → m ≤ j → ∀ highest, (view m (convId, senderId)).highest = some highest →
        seqDelta k highest ≤ 200) →
      (view j (convId, senderId)).entries.get k = some buf

theorem cacheKept_of_enter {ε : Type} (es : List ε) (view : List ε → ℕ × ℕ → Window Buffer)
    (accepted : List ε → ε → Option Accepted) (hstart : view [] = fun _ => {})
    (hnext : ∀ es e, view (es ++ [e]) = enter (view es) (accepted es e))
    (hwire : ∀ es e convId senderId seq buf, accepted es e = some ((convId, senderId), seq, buf) →
      buf.readUInt16BE 1 = some convId ∧ buf.readUIntBE 3 3 = some seq) :
    CacheKept es.length (fun i => view (es.take i))
      (fun i => es[i]?.bind (accepted (es.take i))) := by
  have hwire' : ∀ i convId senderId seq buf,
      es[i]?.bind (accepted (es.take i)) = some ((convId, senderId), seq, buf) →
      buf.readUInt16BE 1 = some convId ∧ buf.readUIntBE 3 3 = some seq := by
    intro i convId senderId seq buf h
    obtain ⟨e, -, he⟩ := Option.bind_eq_some_iff.mp h
    exact hwire _ e convId senderId seq buf he
  have htraced : Traced SEQ_MOD 200 es.length (fun i => view (es.take i))
      (fun i => es[i]?.bind (accepted (es.take i))) := by
    constructor
    · exact hstart
    · intro i hi
      rw [List.take_succ_eq_append_getElem hi, hnext, List.getElem?_eq_getElem hi, Option.bind_some]
      cases accepted (es.take i) es[i] <;> rfl
    · rintro i hi ⟨convId, senderId⟩ seq buf h
      exact Buffer.readUIntBE_lt (hwire' i convId senderId seq buf h).2
  have hM : 1 < SEQ_MOD / 2 := by decide
  exact
    { within := fun i hi convId senderId k buf hget =>
        ((htraced.tight hM hi (convId, senderId)).within k buf hget).2
      size := fun i hi key => (htraced.tight hM hi key).size_le
      wire := fun i hi convId senderId k buf hget => by
        obtain ⟨j, -, hacc⟩ := htraced.origin hi hget
        exact hwire' j convId senderId k buf hacc
      kept := fun i convId senderId k buf hacc j hij hj hother hclose =>
        htraced.kept hM hacc hij hj hother hclose }

/-- **The relay cache is a window**, in all three servers and over every run: at every moment what is
held for a conversation and a sender lies at most 200 behind their highest number, is at most 201
darts, each under its own conversation and number, and an accepted dart stays until it is replaced or
the highest number is more than 200 past it. -/
theorem relay_cache_window (C : Crypto) (keys : ServerKeys) :
    (∀ es : List GroupServer.Event,
      CacheKept es.length (fun i => (GroupServer.stateAfter C keys (es.take i)).windows)
        fun i => es[i]?.bind fun e => (GroupServer.stateAfter C keys (es.take i)).acceptedAt e) ∧
    (∀ (heap : ℕ → GoServer.Peer) (es : List GoServer.Event),
      CacheKept es.length (fun i => GoServer.windows (GoServer.stateAfter C keys heap (es.take i)))
        fun i => es[i]?.bind (GoServer.acceptedIn C keys heap (es.take i))) ∧
    ∀ es : List RustServer.Event,
      CacheKept es.length (fun i => RustServer.windows (RustServer.stateAfter C keys (es.take i)))
        fun i => es[i]?.bind (RustServer.acceptedAt C keys (es.take i)) := by
  refine ⟨fun es => ?_, fun heap es => ?_, fun es => ?_⟩
  · exact cacheKept_of_enter es (fun es => (GroupServer.stateAfter C keys es).windows)
      (fun es e => (GroupServer.stateAfter C keys es).acceptedAt e) rfl
      (fun es e => by rw [GroupServer.stateAfter_concat, GroupServer.step_windows])
      (fun es e _ _ _ _ h => GroupServer.acceptedAt_wire h)
  · exact cacheKept_of_enter es (fun es => GoServer.windows (GoServer.stateAfter C keys heap es))
      (GoServer.acceptedIn C keys heap) rfl
      (fun es e => GoServer.stateAfter_concat_windows heap es e)
      (fun es e _ _ _ _ h => by
        rw [GoServer.acceptedIn] at h
        split at h
        · exact GoServer.acceptedAt_wire h
        · cases h)
  · exact cacheKept_of_enter es (fun es => RustServer.windows (RustServer.stateAfter C keys es))
      (RustServer.acceptedAt C keys) rfl
      (fun es e => RustServer.stateAfter_concat_windows es e)
      (fun es e _ _ _ _ h => RustServer.acceptedAt_wire h)

end DartProtocol
