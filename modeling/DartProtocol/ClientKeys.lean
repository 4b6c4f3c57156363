import DartProtocol.ClientState
import DartProtocol.CodecKeys

/-!
# The client: group keys, rosters and sender chains

The key-management half of `src/client.ts`: what the client does on a roster from the server
(`handleMemberInfo`), on a group-key share (`handleKeyShare`) and on a chain share
(`handleChainShare`), and the sharing and rotation these trigger.  Each function keeps the order of
the source, because an exception on the way (an invalid public key, an epoch that does not fit its
field) leaves what was done before it in place.
-/

namespace DartProtocol

variable (C : Crypto) (me : Identity)

/-! ### Sharing the group key -/

/-- One group-key share, encrypted to the key the captured roster has for the member. -/
def sendKeyShare (convId epoch : ℕ) (key : Buffer) (roster : NumMap Buffer) (mId : ℕ) :
    ClientProg Unit := do
  let targetPubKey ← Prog.ofOption (roster.get mId)
  let transportKey ← Prog.ofOption (pairwiseKey C me.privateKey targetPubKey)
  let nonce ← randomBytes me 12
  let share : KeyShareDart :=
    { type := TYPE_KEY_SHARE, convId, senderId := me.senderId, targetId := mId, epoch, nonce,
      encryptedKey := key }
  let buf ← Prog.ofOption (Codec.encodeKeyShare C share transportKey)
  broadcast buf

/-- The members of a roster that are neither this client nor marked as done. -/
def shareTargets (roster : NumMap Buffer) (done : Finset ℕ) : List ℕ :=
  roster.keys.filter fun mId => decide (mId ≠ me.senderId ∧ mId ∉ done)

/-- Share the current group key with the members that do not have it yet; retry twice. -/
def shareWithNewMembers (convId : ℕ) : ClientProg Unit := do
  let s ← Prog.get
  match s.getCurrentKey convId with
  | none => pure ()
  | some key =>
    let epoch := s.sendingEpoch convId
    match s.roster.get convId with
    | none => pure ()
    | some roster =>
      let done := (s.sharedWith.get convId).getD ∅
      let targets := shareTargets me roster done
      Prog.modify fun s =>
        { s with sharedWith := s.sharedWith.set convId (done ∪ targets.toFinset) }
      if targets = [] then pure ()
      else
        Prog.forEach (sendKeyShare C me convId epoch key roster) targets
        let retry := ShareRetry.key convId epoch key targets roster
        Prog.modify fun s => { s with shareTimers := s.shareTimers ++ [retry, retry] }

/-! ### Sender chains -/

/-- One chain share, encrypted to the key the present roster has for the member. -/
def sendChainShare (convId epoch targetId : ℕ) (chain : ChainState) : ClientProg Unit := do
  let s ← Prog.get
  match get₂ s.roster convId targetId with
  | none => pure ()
  | some targetPubKey =>
    let transportKey ← Prog.ofOption (pairwiseKey C me.privateKey targetPubKey)
    let nonce ← randomBytes me 12
    let share : ChainShareDart :=
      { type := TYPE_CHAIN_SHARE, convId, senderId := me.senderId, targetId, epoch, nonce,
        chainKey := chain.key, chainIndex := chain.index }
    let buf ← Prog.ofOption (Codec.encodeChainShare C share transportKey)
    Prog.emit (.chainShared share)
    broadcast buf

/-- Share the own chain with the members that do not have it yet; retry twice. -/
def shareChainWithMembers (convId epoch : ℕ) : ClientProg Unit := do
  let s ← Prog.get
  match s.getChain convId epoch me.senderId, s.roster.get convId with
  | some myChain, some roster =>
    let done := (s.chainSharedWith.get convId).getD ∅
    let targets := shareTargets me roster done
    Prog.modify fun s =>
      { s with chainSharedWith := s.chainSharedWith.set convId (done ∪ targets.toFinset) }
    if targets = [] then pure ()
    else
      Prog.forEach (fun mId => sendChainShare C me convId epoch mId myChain) targets
      let retry := ShareRetry.chain convId epoch targets myChain
      Prog.modify fun s => { s with shareTimers := s.shareTimers ++ [retry, retry] }
  | _, _ => pure ()

/-- Enter a fresh own chain, its seed, and forget with whom the previous one was shared. -/
def startChain (convId epoch : ℕ) (seed : Buffer) (s : Client) : Client :=
  { s.setChain convId epoch me.senderId ⟨seed, 0⟩ with
    chainSeeds := set₂ s.chainSeeds convId epoch ⟨seed, 0⟩
    chainSharedWith := s.chainSharedWith.set convId ∅ }

/-- Start a fresh own chain for an epoch and share it. -/
def initOwnChain (convId epoch : ℕ) : ClientProg Unit := do
  let seed ← randomBytes me 32
  Prog.modify (startChain me convId epoch seed)
  Prog.emit (.chainStarted convId epoch seed)
  shareChainWithMembers C me convId epoch

/-! ### Adopting and rotating keys -/

/-- (Re)start the rekey timer.  There is one for the whole client. -/
def scheduleRekey (convId : ℕ) : ClientProg Unit :=
  Prog.modify fun s => { s with rekeyTimer := some convId }

/-- Enter a group key and its epoch, and forget with whom the previous one was shared. -/
def installKey (convId epoch : ℕ) (key : Buffer) (s : Client) : Client :=
  { s with
    roomKeys := set₂ s.roomKeys convId epoch key
    currentEpochs := s.currentEpochs.set convId epoch
    adoptedEpochs := s.adoptedEpochs.set convId epoch
    sharedWith := s.sharedWith.set convId ∅ }

/-- Share the key that was just entered, and start and share a fresh own chain for its epoch. -/
def announceKey (convId epoch : ℕ) : ClientProg Unit := do
  shareWithNewMembers C me convId
  initOwnChain C me convId epoch
  scheduleRekey convId

def adoptKey (convId epoch : ℕ) (key : Buffer) : ClientProg Unit := do
  Prog.modify (installKey convId epoch key)
  announceKey C me convId epoch

/-- Forget group keys, and the seeds of their epochs, more than four epochs back. -/
def pruneEpochs (convId : ℕ) (s : Client) : Client :=
  let current := orDefault (s.currentEpochs.get convId) 0
  match s.roomKeys.get convId with
  | none => s
  | some keys =>
    { s with
      roomKeys := s.roomKeys.set convId (keys.retain fun e _ => !decide (e + 4 < current))
      chainSeeds :=
        match s.chainSeeds.get convId with
        | none => s.chainSeeds
        | some seeds =>
          s.chainSeeds.set convId
            (seeds.retain fun e _ => !(keys.has e && decide (e + 4 < current))) }

theorem pruneEpochs_eq (convId : ℕ) (s : Client) :
    ∃ keys seeds, pruneEpochs convId s = { s with roomKeys := keys, chainSeeds := seeds } := by
  unfold pruneEpochs
  cases s.roomKeys.get convId <;> exact ⟨_, _, rfl⟩

theorem pruneEpochs_keeps (convId : ℕ) (s : Client) :
    (pruneEpochs convId s).adoptedEpochs = s.adoptedEpochs ∧
      (pruneEpochs convId s).currentEpochs = s.currentEpochs ∧
      (pruneEpochs convId s).senderChains = s.senderChains := by
  obtain ⟨keys, seeds, h⟩ := pruneEpochs_eq convId s
  rw [h]
  exact ⟨rfl, rfl, rfl⟩

/-- The current epoch is not more than four epochs back. -/
theorem getCurrentKey_pruneEpochs (convId c : ℕ) (s : Client) :
    (pruneEpochs convId s).getCurrentKey c = s.getCurrentKey c := by
  unfold pruneEpochs
  cases hkeys : s.roomKeys.get convId with
  | none => rfl
  | some keys =>
    simp only [Client.getCurrentKey, get₂]
    rw [InsertionMap.get_set]
    split
    · rename_i hc
      subst hc
      have hkeep : (!decide (orDefault (s.currentEpochs.get convId) 1 + 4
          < orDefault (s.currentEpochs.get convId) 0)) = true := by
        rw [Bool.not_eq_true', decide_eq_false_iff_not]
        rcases s.currentEpochs.get convId with _ | _ | n <;> simp only [orDefault] <;> omega
      rw [hkeys, Option.bind_some, Option.bind_some, InsertionMap.get_retain]
      cases keys.get (orDefault (s.currentEpochs.get convId) 1) with
      | none => rfl
      | some v => rw [Option.filter_some, if_pos hkeep]
    · rfl

def pruneOldEpochs (convId : ℕ) : ClientProg Unit := Prog.modify (pruneEpochs convId)

def rekey (convId : ℕ) : ClientProg Unit := do
  let s ← Prog.get
  if s.isCreator.get convId = some true then
    let current := s.sendingEpoch convId
    let key ← randomBytes me 32
    adoptKey C me convId (current + 1) key
    pruneOldEpochs convId
  else pure ()

/-! ### Incoming rosters and shares -/

/-- The roster of a MEMBER_INFO as a map, later entries of an id overwriting earlier ones. -/
def rosterOf (info : MemberInfo) : NumMap Buffer :=
  info.members.foldl (fun m e => m.set e.senderId e.pubKey) ∅

/-- Members of the new roster whose public key differs from the one in the previous roster. -/
def changedMembers (prevRoster rosterMap : NumMap Buffer) : Finset ℕ :=
  ((rosterMap.entries.filter fun e =>
    match prevRoster.get e.1 with
    | none => false
    | some prev => decide (prev ≠ e.2)).map Prod.fst).toFinset

/-- Drop members from the done-set of a conversation, when there is one. -/
def dropDone (m : NumMap (Finset ℕ)) (convId : ℕ) (gone : Finset ℕ) : NumMap (Finset ℕ) :=
  match m.get convId with
  | none => m
  | some done => m.set convId (done \ gone)

/-- Take over a roster: remember it, forget the shares of members whose key changed, remember the
server key and the creator flag. -/
def installRoster (info : MemberInfo) (serverPubKey : Buffer) (s : Client) : Client :=
  let rosterMap := rosterOf info
  let gone := match s.roster.get info.convId with
    | none => ∅
    | some prevRoster => changedMembers prevRoster rosterMap
  { s with
    roster := s.roster.set info.convId rosterMap
    sharedWith := dropDone s.sharedWith info.convId gone
    chainSharedWith := dropDone s.chainSharedWith info.convId gone
    serverPubKeys := s.serverPubKeys.set info.convId serverPubKey
    isCreator := s.isCreator.set info.convId info.creator }

/-- A creator without a key founds the group; a member with a key shares it with newcomers. -/
def foundOrShare (info : MemberInfo) (myEpoch : ℕ) : ClientProg Unit :=
  if info.creator && decide (myEpoch = 0) then do
    let key ← randomBytes me 32
    adoptKey C me info.convId 1 key
  else if myEpoch ≠ 0 then shareWithNewMembers C me info.convId
  else pure ()

/-- A member that just became the creator rotates, so that its predecessor loses access. -/
def rotateIfElected (info : MemberInfo) (prevCreator : Bool) (myEpoch : ℕ) : ClientProg Unit :=
  if info.creator && !prevCreator && decide (myEpoch ≠ 0) then rekey C me info.convId
  else pure ()

/-- What follows a verified roster: found the group key, share it, rotate, share the own chain. -/
def afterRoster (info : MemberInfo) (prevCreator : Bool) : ClientProg Unit := do
  let s ← Prog.get
  let myEpoch := orDefault (s.adoptedEpochs.get info.convId) 0
  foundOrShare C me info myEpoch
  rotateIfElected C me info prevCreator myEpoch
  let s ← Prog.get
  shareChainWithMembers C me info.convId (s.sendingEpoch info.convId)
  scheduleRekey info.convId

/-- The roster in a MEMBER_INFO frame, when the pin matches and the frame authenticates.  An
invalid server key throws. -/
def openMemberInfo (s : Client) (buf : Buffer) : Option (Option (MemberInfo × Buffer)) :=
  match Codec.memberInfoServerKey buf with
  | none => some none
  | some serverPubKey =>
    if s.serverFingerprint ≠ "" ∧ Codec.serverFingerprint C serverPubKey ≠ s.serverFingerprint then
      some none
    else
      match pairwiseKey C me.privateKey serverPubKey with
      | none => none
      | some transportKey =>
        match Codec.decodeMemberInfo C buf transportKey with
        | none => some none
        | some info => some (some (info, serverPubKey))

def handleMemberInfo (buf : Buffer) : ClientProg Unit := do
  let s ← Prog.get
  let opened ← Prog.ofOption (openMemberInfo C me s buf)
  match opened with
  | none => pure ()
  | some (info, serverPubKey) =>
    let prevCreator := (s.isCreator.get info.convId).getD false
    Prog.modify (installRoster info serverPubKey)
    afterRoster C me info prevCreator

/-- The transport key of a share addressed to this client by a member of the roster; the outer
`none` is an exception, the inner one a share that is ignored. -/
def shareTransportKey (s : Client) (buf : Buffer) : Option (Option (ℕ × Buffer)) := do
  let convId ← buf.readUInt16BE 1
  let senderId ← buf.readUInt16BE 3
  let targetId ← buf.readUInt16BE 5
  if targetId ≠ me.senderId then some none
  else
    match get₂ s.roster convId senderId with
    | none => some none
    | some sharerPubKey =>
      let transportKey ← pairwiseKey C me.privateKey sharerPubKey
      some (some (convId, transportKey))

/-- Adopt on first join, on a newer epoch, or on an equal epoch with a different key. -/
def shouldAdopt (s : Client) (convId epoch : ℕ) (groupKey : Buffer) : Bool :=
  let myEpoch := orDefault (s.adoptedEpochs.get convId) 0
  decide (myEpoch = 0) || decide (myEpoch < epoch) ||
    (decide (epoch = myEpoch) &&
      match s.getCurrentKey convId with
      | none => false
      | some curKey => decide (curKey ≠ groupKey))

def handleKeyShare (buf : Buffer) : ClientProg Unit := do
  let s ← Prog.get
  let opened ← Prog.ofOption (shareTransportKey C me s buf)
  match opened with
  | none => pure ()
  | some (convId, transportKey) =>
    match Codec.decodeKeyShare C buf transportKey with
    | none => pure ()
    | some (epoch, groupKey) =>
      if shouldAdopt s convId epoch groupKey then adoptKey C me convId epoch groupKey
      else pure ()

def handleChainShare (buf : Buffer) : ClientProg Unit := do
  let s ← Prog.get
  let opened ← Prog.ofOption (shareTransportKey C me s buf)
  match opened with
  | none => pure ()
  | some (convId, transportKey) =>
    match Codec.decodeChainShare C buf transportKey with
    | none => pure ()
    | some decoded =>
      Prog.modify fun s =>
        s.setChain convId decoded.epoch decoded.senderId ⟨decoded.chainKey, decoded.chainIndex⟩

/-! ### Joining -/

/-- The KeyReq of a conversation. -/
def sendKeyReq (convId : ℕ) : ClientProg Unit := do
  let reqNonce ← randomBytes me 16
  let req : KeyReqDart :=
    { type := TYPE_KEY_REQ, convId, senderId := me.senderId, reqNonce,
      clientPubKey := C.getPublicKey me.privateKey }
  let buf ← Prog.ofOption (Codec.encodeKeyReq req)
  broadcast buf

/-- Ask to join, and repeat the request three times. -/
def joinConversation (convId : ℕ) : ClientProg Unit := do
  sendKeyReq C me convId
  Prog.modify fun s => { s with joinTimers := s.joinTimers ++ [convId, convId, convId] }

/-- The callback of a share retry. -/
def runShareRetry : ShareRetry → ClientProg Unit
  | .key convId epoch key targets roster =>
    Prog.forEach (sendKeyShare C me convId epoch key roster) targets
  | .chain convId epoch targets chain =>
    Prog.forEach (fun mId => sendChainShare C me convId epoch mId chain) targets

end DartProtocol
