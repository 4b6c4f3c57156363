import DartProtocol.ServerRules
import DartProtocol.SumCrypto

/-!
# Membership and creators of a conversation

The rooms of the server: which members a conversation has, who its creator is, and over which peers
they are reached.  `Rooms` collects what holds in every reachable state.

* `successorOf_eq_min?` — the election loop finds the smallest id;
* `Rooms.registerMember`, `Rooms.struck` — the two changes of a room keep the invariant;
* `rooms_stateAfter` — every run keeps it;
* `takeOverRoom_eq` — a room is never handed over to a newcomer: routes are learned and never
  forgotten, so a creator always counts as reachable;
* `removePeer_state` — a closed socket strikes one member from some of the rooms its peer was in.
-/

namespace DartProtocol.GroupServer

open Prog InsertionMap

variable {C : Crypto} {keys : ServerKeys}

/-! ### The election -/

theorem foldl_smallerOf (ids : List ℕ) :
    ∀ best : ℕ, ids.foldl smallerOf (some best) = some (ids.foldl min best) := by
  induction ids with
  | nil => intro best; rfl
  | cons id ids ih =>
    intro best
    have hstep : smallerOf (some best) id = some (min best id) := by
      rw [smallerOf, Nat.min_def]
      split <;> split <;> first | rfl | (congr 1; omega)
    rw [List.foldl_cons, List.foldl_cons, hstep, ih]

/-- **The election finds the smallest id.** -/
theorem successorOf_eq_min? (ids : List ℕ) : successorOf ids = ids.min? := by
  cases ids with
  | nil => rfl
  | cons id ids => exact foldl_smallerOf ids id

/-! ### The invariant of the rooms -/

/-- What holds of the rooms in every reachable state. -/
structure Rooms (s : GroupServer) : Prop where
  /-- A room has a creator, who is one of its members. -/
  led : ∀ c mems, s.members.get c = some mems → ∃ k, s.creator.get c = some k ∧ (mems.get k).isSome
  /-- Only rooms have creators. -/
  housed : ∀ c k, s.creator.get c = some k → (s.members.get c).isSome
  /-- A member is reached over some peer. -/
  routed : ∀ c k, (get₂ s.members c k).isSome → (get₂ s.clientMap c k).isSome
  /-- Conversations and members have two-byte ids. -/
  narrow : ∀ c k, (get₂ s.members c k).isSome → c < 65536 ∧ k < 65536

namespace Rooms

theorem init : Rooms {} where
  led := by intro c mems h; cases h
  housed := by intro c k h; cases h
  routed := by intro c k h; cases h
  narrow := by intro c k h; cases h

/-- The rooms do not depend on groups, caches, transports and counters, and survive new routes. -/
theorem of_fields {s t : GroupServer} (hs : Rooms s) (hmem : t.members = s.members)
    (hcre : t.creator = s.creator)
    (hroute : ∀ c k, (get₂ s.clientMap c k).isSome → (get₂ t.clientMap c k).isSome) : Rooms t where
  led := by
    intro c mems h
    rw [hmem] at h
    rw [hcre]
    exact hs.led c mems h
  housed := by
    intro c k h
    rw [hcre] at h
    rw [hmem]
    exact hs.housed c k h
  routed := by
    intro c k h
    rw [hmem] at h
    exact hroute c k (hs.routed c k h)
  narrow := by
    intro c k h
    rw [hmem] at h
    exact hs.narrow c k h

theorem notePeer {s : GroupServer} (hs : Rooms s) (type convId : ℕ) (buf : Buffer) (peer : Peer) :
    Rooms (GroupServer.notePeer type convId buf peer s) := by
  rw [GroupServer.notePeer]
  split
  · exact hs.of_fields rfl rfl fun _ _ h => h
  · cases buf.readUInt16BE 3 with
    | none => exact hs.of_fields rfl rfl fun _ _ h => h
    | some senderId =>
      show Rooms (learnIdentity convId senderId peer (joinGroup convId peer s))
      refine hs.of_fields rfl rfl ?_
      intro c k h
      show (get₂ (set₂ s.clientMap convId senderId peer) c k).isSome
      rw [get₂_set₂]
      split
      · rfl
      · exact h

end Rooms

/-! ### Registering -/

variable {s t : GroupServer} {convId senderId c : ℕ} {req : KeyReqDart} {mems : NumMap Buffer}
  {os : List ServerOutput}

/-- **No room is taken over.**  The recorded creator of a room always has a route, because a route
is never forgotten; the newcomer becomes the creator of a room it founds and of no other. -/
theorem takeOverRoom_eq (hs : Rooms s) (hroute : (get₂ s.clientMap convId senderId).isSome) :
    takeOverRoom convId senderId (openRoom convId senderId s) = openRoom convId senderId s := by
  cases hmem : s.members.get convId with
  | none =>
    have hopen : openRoom convId senderId s
        = { s with members := s.members.set convId ∅, creator := s.creator.set convId senderId } := by
      rw [openRoom, if_neg (by rw [InsertionMap.has, hmem]; simp)]
    rw [hopen, takeOverRoom]
    simp only [get_set_self, hroute, if_true]
  | some mems =>
    have hopen : openRoom convId senderId s = s := by
      rw [openRoom, if_pos (by rw [InsertionMap.has, hmem]; rfl)]
    obtain ⟨k, hk, hmember⟩ := hs.led convId mems hmem
    have hreach := hs.routed convId k (by rw [get₂, hmem]; exact hmember)
    rw [hopen, takeOverRoom]
    simp only [hk, hreach, if_true]

theorem registerMember_members (hs : Rooms s)
    (hroute : (get₂ s.clientMap req.convId req.senderId).isSome) (c : ℕ) :
    (registerMember req s).members.get c
      = if req.convId = c then
          some (((s.members.get c).getD ∅).set req.senderId req.clientPubKey)
        else s.members.get c := by
  show (set₂ (takeOverRoom req.convId req.senderId (openRoom req.convId req.senderId s)).members
    req.convId req.senderId req.clientPubKey).get c = _
  rw [takeOverRoom_eq hs hroute, set₂, get_set, openRoom]
  by_cases hc : req.convId = c
  · subst hc
    rw [if_pos rfl, if_pos rfl]
    cases hmem : s.members.get req.convId with
    | none => simp [InsertionMap.has, hmem]
    | some mems => simp [InsertionMap.has, hmem]
  · rw [if_neg hc, if_neg hc]
    split
    · rfl
    · exact get_set_of_ne _ _ hc

theorem get₂_registerMember (hs : Rooms s)
    (hroute : (get₂ s.clientMap req.convId req.senderId).isSome) (c k : ℕ) :
    get₂ (registerMember req s).members c k
      = if req.convId = c ∧ req.senderId = k then some req.clientPubKey else get₂ s.members c k := by
  have hsame : ∀ c, (registerMember req s).members.get c
      = (set₂ s.members req.convId req.senderId req.clientPubKey).get c := by
    intro c
    rw [registerMember_members hs hroute, set₂, get_set]
    split
    · rename_i hc
      rw [hc]
    · rfl
  rw [get₂, hsame, ← get₂_set₂]
  rfl

theorem registerMember_creator (hs : Rooms s)
    (hroute : (get₂ s.clientMap req.convId req.senderId).isSome) (c : ℕ) :
    (registerMember req s).creator.get c
      = if req.convId = c ∧ s.members.get c = none then some req.senderId else s.creator.get c := by
  show (takeOverRoom req.convId req.senderId (openRoom req.convId req.senderId s)).creator.get c = _
  rw [takeOverRoom_eq hs hroute, openRoom]
  cases hmem : s.members.get req.convId with
  | none =>
    rw [if_neg (by rw [InsertionMap.has, hmem]; simp)]
    show (s.creator.set req.convId req.senderId).get c = _
    rw [get_set]
    by_cases hc : req.convId = c
    · subst hc
      simp [hmem]
    · simp [hc]
  | some mems =>
    rw [if_pos (by rw [InsertionMap.has, hmem]; rfl), if_neg]
    rintro ⟨rfl, h⟩
    rw [hmem] at h
    cases h

theorem registerMember_clientMap (req : KeyReqDart) (s : GroupServer) :
    (registerMember req s).clientMap = s.clientMap := by
  show (takeOverRoom req.convId req.senderId (openRoom req.convId req.senderId s)).clientMap = _
  have hopen : (openRoom req.convId req.senderId s).clientMap = s.clientMap := by
    rw [openRoom]
    split <;> rfl
  rw [takeOverRoom]
  split
  · exact hopen
  · split
    · exact hopen
    · exact hopen

theorem Rooms.registerMember (hs : Rooms s)
    (hroute : (get₂ s.clientMap req.convId req.senderId).isSome) (hconv : req.convId < 65536)
    (hsender : req.senderId < 65536) : Rooms (GroupServer.registerMember req s) where
  led := by
    intro c mems h
    rw [registerMember_members hs hroute] at h
    rw [registerMember_creator hs hroute]
    by_cases hc : req.convId = c
    · subst hc
      rw [if_pos rfl] at h
      cases h
      cases hmem : s.members.get req.convId with
      | none =>
        rw [if_pos ⟨rfl, rfl⟩]
        exact ⟨req.senderId, rfl, by simp⟩
      | some mems =>
        rw [if_neg (by simp)]
        obtain ⟨k, hk, hmember⟩ := hs.led req.convId mems hmem
        refine ⟨k, hk, ?_⟩
        rw [Option.getD_some, get_set]
        split
        · rfl
        · exact hmember
    · rw [if_neg hc] at h
      rw [if_neg (fun hh => hc hh.1)]
      exact hs.led c mems h
  housed := by
    intro c k h
    rw [registerMember_creator hs hroute] at h
    rw [registerMember_members hs hroute]
    by_cases hc : req.convId = c
    · rw [if_pos hc]
      rfl
    · rw [if_neg (fun hh => hc hh.1)] at h
      rw [if_neg hc]
      exact hs.housed c k h
  routed := by
    intro c k h
    rw [registerMember_clientMap]
    rw [get₂_registerMember hs hroute] at h
    split at h
    · rename_i hreq
      rw [← hreq.1, ← hreq.2]
      exact hroute
    · exact hs.routed c k h
  narrow := by
    intro c k h
    rw [get₂_registerMember hs hroute] at h
    split at h
    · rename_i hreq
      rw [← hreq.1, ← hreq.2]
      exact ⟨hconv, hsender⟩
    · exact hs.narrow c k h

/-! ### Striking -/

/-- Strike a member from the room of a conversation, when there is a room. -/
def struck (senderId convId : ℕ) (s : GroupServer) : GroupServer :=
  match s.members.get convId with
  | none => s
  | some mems => removeMember convId senderId mems s

theorem struck_of_none (h : s.members.get convId = none) :
    struck senderId convId s = s := by
  rw [struck, h]

theorem struck_of_some (h : s.members.get convId = some mems) :
    struck senderId convId s = removeMember convId senderId mems s := by
  rw [struck, h]

theorem members_struck (senderId convId : ℕ) (s : GroupServer) (c : ℕ) :
    (struck senderId convId s).members.get c
      = if convId = c then
          ((s.members.get c).map (·.delete senderId)).filter fun rest => decide (rest.size ≠ 0)
        else s.members.get c := by
  cases hmem : s.members.get convId with
  | none =>
    rw [struck_of_none hmem]
    split
    · rename_i hc
      rw [← hc, hmem]
      rfl
    · rfl
  | some mems =>
    rw [struck_of_some hmem]
    show (if (mems.delete senderId).size = 0 then s.members.delete convId
      else s.members.set convId (mems.delete senderId)).get c = _
    by_cases hc : convId = c
    · subst hc
      by_cases hsize : (mems.delete senderId).size = 0
      · simp [hmem, hsize, Option.filter]
      · simp [hmem, hsize, Option.filter]
    · rw [if_neg hc]
      split
      · exact get_delete_of_ne _ hc
      · exact get_set_of_ne _ _ hc

theorem creator_struck_of_ne (s : GroupServer) (h : convId ≠ c) :
    (struck senderId convId s).creator.get c = s.creator.get c := by
  rw [struck]
  split
  · rfl
  · rename_i mems _
    dsimp only [removeMember]
    split
    · split
      · exact get_delete_of_ne _ h
      · exact get_set_of_ne _ _ h
    · rfl

theorem creator_struck (h : s.members.get c = some mems) :
    (struck senderId c s).creator.get c
      = if s.creator.get c = some senderId then (mems.delete senderId).keys.min?
        else s.creator.get c := by
  rw [struck_of_some h]
  dsimp only [removeMember]
  rw [successorOf_eq_min?]
  split
  · cases (mems.delete senderId).keys.min? <;> simp
  · rfl

theorem struck_frame (senderId convId : ℕ) (s : GroupServer) :
    struck senderId convId s
      = { s with members := (struck senderId convId s).members
                 creator := (struck senderId convId s).creator } := by
  rw [struck]
  split <;> rfl

theorem size_eq_zero_iff_keys {m : NumMap Buffer} : m.size = 0 ↔ m.keys = [] := by
  rw [InsertionMap.size, InsertionMap.keys, List.length_eq_zero_iff, List.map_eq_nil_iff]

theorem exists_min_keys {m : NumMap Buffer} (h : m.size ≠ 0) :
    ∃ k, m.keys.min? = some k ∧ IsLeast {i | i ∈ m.keys} k := by
  cases hmin : m.keys.min? with
  | none => exact absurd (size_eq_zero_iff_keys.mpr (List.min?_eq_none_iff.mp hmin)) h
  | some k =>
    obtain ⟨hmem, hle⟩ := List.min?_eq_some_iff.mp hmin
    exact ⟨k, rfl, hmem, fun i hi => hle i hi⟩

/-- A room after a member was struck: the rest of its room, or another room. -/
theorem members_struck_cases {rest : NumMap Buffer} (hmem : s.members.get convId = some mems)
    (h : (struck senderId convId s).members.get c = some rest) :
    (convId = c ∧ rest = mems.delete senderId ∧ rest.size ≠ 0) ∨
      (convId ≠ c ∧ s.members.get c = some rest) := by
  rw [members_struck] at h
  by_cases hc : convId = c
  · subst hc
    rw [if_pos rfl, hmem, Option.map_some, Option.filter_eq_some_iff] at h
    obtain ⟨h₁, h₂⟩ := h
    cases h₁
    exact .inl ⟨rfl, rfl, by simpa using h₂⟩
  · rw [if_neg hc] at h
    exact .inr ⟨hc, h⟩

theorem get₂_of_struck {k : ℕ} {v : Buffer}
    (h : get₂ (struck senderId convId s).members c k = some v) : get₂ s.members c k = some v := by
  cases hmem : s.members.get convId with
  | none =>
    rw [struck_of_none hmem] at h
    exact h
  | some mems =>
    obtain ⟨rest, hrest, hk⟩ := Option.bind_eq_some_iff.mp h
    rcases members_struck_cases hmem hrest with ⟨rfl, rfl, -⟩ | ⟨-, hold⟩
    · have hk' : (mems.delete senderId).get k = some v := hk
      rw [get_delete] at hk'
      split at hk'
      · cases hk'
      · rw [get₂, hmem]
        exact hk'
    · rw [get₂, hold]
      exact hk

theorem Rooms.struck (hs : Rooms s) (senderId convId : ℕ) :
    Rooms (GroupServer.struck senderId convId s) := by
  cases hmem : s.members.get convId with
  | none =>
    rw [struck_of_none hmem]
    exact hs
  | some mems =>
    have hclients : (GroupServer.struck senderId convId s).clientMap = s.clientMap := by
      rw [struck_frame]
    refine ⟨?_, ?_, ?_, ?_⟩
    · intro c rest h
      rcases members_struck_cases hmem h with ⟨rfl, rfl, hsize⟩ | ⟨hc, hold⟩
      · rw [creator_struck hmem]
        split
        · -- the creator is gone and the smallest of the rest follows
          obtain ⟨k, hk, hleast⟩ := exists_min_keys hsize
          obtain ⟨v, hv⟩ := mem_keys_iff.mp hleast.1
          exact ⟨k, hk, by rw [hv]; rfl⟩
        · rename_i hcre
          obtain ⟨k, hk, hmember⟩ := hs.led convId mems hmem
          refine ⟨k, hk, ?_⟩
          rw [get_delete, if_neg]
          · exact hmember
          · rintro rfl
            exact hcre hk
      · rw [creator_struck_of_ne s hc]
        exact hs.led c rest hold
    · intro c k h
      by_cases hc : convId = c
      · subst hc
        rw [creator_struck hmem] at h
        rw [members_struck, if_pos rfl, hmem]
        -- somebody is left: the old creator, or the one elected
        have hleft : (mems.delete senderId).size ≠ 0 := by
          intro hzero
          split at h
          · rw [size_eq_zero_iff_keys.mp hzero] at h
            cases h
          · rename_i hcre
            obtain ⟨k', hk', hmember⟩ := hs.led convId mems hmem
            have hgone := size_eq_zero_iff.mp hzero k'
            rw [get_delete, if_neg] at hgone
            · rw [hgone] at hmember
              cases hmember
            · rintro rfl
              exact hcre hk'
        simp [Option.filter, hleft]
      · rw [creator_struck_of_ne s hc] at h
        rw [members_struck, if_neg hc]
        exact hs.housed c k h
    · intro c k h
      obtain ⟨v, hv⟩ := Option.isSome_iff_exists.mp h
      rw [hclients]
      exact hs.routed c k (by rw [get₂_of_struck hv]; rfl)
    · intro c k h
      obtain ⟨v, hv⟩ := Option.isSome_iff_exists.mp h
      exact hs.narrow c k (by rw [get₂_of_struck hv]; rfl)

/-! ### What an announcement changes -/

/-- Nothing changed but the number of random draws. -/
def SameRooms (s : GroupServer) (_ : List ServerOutput) (t : GroupServer) : Prop :=
  t = { s with draws := t.draws }

theorem sameRooms_relay : Relay SameRooms where
  comp := by
    constructor
    · exact fun s => rfl
    · intro s t u os os' h h'
      rw [SameRooms] at *
      rw [h', h]
  draw := fun s n => rfl
  sent := fun s buf peer _ => rfl

theorem notifyMembers_sameRooms (convId : ℕ) :
    Obeys SameRooms (notifyMembers C keys convId) := notifyMembers_obeys sameRooms_relay convId

theorem SameRooms.rooms (h : SameRooms s os t) (hs : Rooms s) : Rooms t := by
  rw [SameRooms] at h
  rw [h]
  exact hs.of_fields rfl rfl fun _ _ h => h

/-- Strike a member from the rooms of several conversations. -/
def struckAll (senderId : ℕ) (convs : List ℕ) (s : GroupServer) : GroupServer :=
  convs.foldl (fun t convId => struck senderId convId t) s

theorem SameRooms.struck (h : SameRooms s os t) (senderId convId : ℕ) :
    SameRooms (GroupServer.struck senderId convId s) [] (GroupServer.struck senderId convId t) := by
  have hrooms : t.members = s.members := by rw [h]
  cases hmem : s.members.get convId with
  | none =>
    rw [struck_of_none hmem, struck_of_none (by rw [hrooms]; exact hmem)]
    exact h
  | some mems =>
    rw [struck_of_some hmem, struck_of_some (by rw [hrooms]; exact hmem), h]
    rfl

theorem SameRooms.struckAll (h : SameRooms s os t) (senderId : ℕ) (convs : List ℕ) :
    SameRooms (GroupServer.struckAll senderId convs s) []
      (GroupServer.struckAll senderId convs t) := by
  induction convs generalizing s t os with
  | nil => exact h
  | cons convId convs ih => exact ih (h.struck senderId convId)

/-- **What a departure changes.**  The member is struck from the rooms of the first conversations of
the list, and from all of them when no exception ends the loop. -/
theorem forEach_leave_state (C : Crypto) (keys : ServerKeys) (senderId : ℕ) (convs : List ℕ) :
    ∀ s : GroupServer, ∃ n,
      SameRooms (struckAll senderId (convs.take n) s) []
        (forEach (leaveConversation C keys senderId) convs s).state ∧
      ((forEach (leaveConversation C keys senderId) convs s).result.isSome →
        convs.length ≤ n) := by
  induction convs with
  | nil => exact fun s => ⟨0, rfl, fun _ => le_refl _⟩
  | cons convId convs ih =>
    intro s
    have hone : SameRooms (struck senderId convId s) []
        (leaveConversation C keys senderId convId s).state := by
      rw [leaveConversation, get_bind]
      cases hmem : s.members.get convId with
      | none =>
        rw [struck_of_none hmem]
        rfl
      | some mems =>
        rw [struck_of_some hmem]
        exact notifyMembers_sameRooms convId _
    rw [forEach_cons]
    cases hres : (leaveConversation C keys senderId convId s).result with
    | none =>
      rw [bind_of_none hres]
      exact ⟨1, hone, fun h => by cases h⟩
    | some a =>
      rw [bind_of_some hres]
      obtain ⟨n, hn, hdone⟩ := ih (leaveConversation C keys senderId convId s).state
      refine ⟨n + 1, ?_, ?_⟩
      · exact sameRooms_relay.comp.trans (hone.struckAll senderId (convs.take n)) hn
      · intro h
        exact Nat.succ_le_succ (hdone h)

/-- A closed socket strikes the member its peer spoke for from rooms the peer was in. -/
theorem removePeer_state (C : Crypto) (keys : ServerKeys) (peerId : String) (s : GroupServer) :
    ∃ convs, (∀ c ∈ convs, c ∈ s.leftConvs peerId) ∧ convs.Nodup ∧
      SameRooms (struckAll ((s.peerIdentity.get peerId).getD 0) convs (leaveGroups peerId s)) []
        (removePeer C keys peerId s).state := by
  rw [removePeer, get_bind, modify_bind]
  cases s.peerIdentity.get peerId with
  | none => exact ⟨[], by simp, List.nodup_nil, rfl⟩
  | some senderId =>
    obtain ⟨n, hn, -⟩ :=
      forEach_leave_state C keys senderId (s.leftConvs peerId) (leaveGroups peerId s)
    have hnodup : (s.leftConvs peerId).Nodup :=
      s.groups.nodup.sublist (List.filter_sublist.map Prod.fst)
    exact ⟨_, fun c hc => List.mem_of_mem_take hc, hnodup.sublist (List.take_sublist _ _), hn⟩

/-- The room and the creator of a conversation. -/
def room (s : GroupServer) (c : ℕ) : Option (NumMap Buffer) × Option ℕ :=
  (s.members.get c, s.creator.get c)

theorem SameRooms.room (h : SameRooms s os t) (c : ℕ) :
    t.room c = s.room c := by
  rw [SameRooms] at h
  rw [h]
  rfl

theorem room_struck_of_ne (s : GroupServer) (h : convId ≠ c) :
    (struck senderId convId s).room c = s.room c := by
  rw [GroupServer.room, members_struck, if_neg h, creator_struck_of_ne s h]
  rfl

theorem room_struck_congr (h : t.room c = s.room c) (senderId : ℕ) :
    (struck senderId c t).room c = (struck senderId c s).room c := by
  obtain ⟨hmem, hcre⟩ := Prod.mk.inj h
  cases hroom : s.members.get c with
  | none =>
    rw [struck_of_none hroom, struck_of_none (by rw [hmem]; exact hroom)]
    exact h
  | some mems =>
    rw [GroupServer.room, GroupServer.room, members_struck, members_struck, creator_struck hroom,
      creator_struck (by rw [hmem]; exact hroom : t.members.get c = some mems), hmem, hcre]

theorem room_struckAll {convs : List ℕ} (hnodup : convs.Nodup) (s : GroupServer) :
    (struckAll senderId convs s).room c
      = if c ∈ convs then (struck senderId c s).room c else s.room c := by
  induction convs generalizing s with
  | nil => rfl
  | cons convId convs ih =>
    rw [List.nodup_cons] at hnodup
    show (struckAll senderId convs (struck senderId convId s)).room c = _
    rw [ih hnodup.2]
    by_cases hc : convId = c
    · subst hc
      rw [if_neg hnodup.1, if_pos List.mem_cons_self]
    · have hmem : c ∈ convId :: convs ↔ c ∈ convs := by
        rw [List.mem_cons]
        exact ⟨fun h => h.resolve_left (fun h => hc h.symm), .inr⟩
      rw [room_struck_congr (room_struck_of_ne s hc), room_struck_of_ne s hc, if_congr hmem rfl rfl]

theorem room_removePeer (C : Crypto) (keys : ServerKeys) (peerId : String) (s : GroupServer) :
    ∃ convs : List ℕ, (∀ c ∈ convs, c ∈ s.leftConvs peerId) ∧
      ∀ c, (removePeer C keys peerId s).state.room c
        = if c ∈ convs then (struck ((s.peerIdentity.get peerId).getD 0) c s).room c
          else s.room c := by
  obtain ⟨convs, hleft, hnodup, hsame⟩ := removePeer_state C keys peerId s
  refine ⟨convs, hleft, fun c => ?_⟩
  have hleave : (leaveGroups peerId s).room c = s.room c := rfl
  rw [hsame.room, room_struckAll hnodup, room_struck_congr hleave, hleave]

/-! ### Runs -/

/-- The invariant is kept. -/
def KeepsRooms (s : GroupServer) (_ : List ServerOutput) (t : GroupServer) : Prop := Rooms s → Rooms t

theorem keepsRooms_relay : Relay KeepsRooms where
  comp := ⟨fun _ hs => hs, fun h h' hs => h' (h hs)⟩
  draw := fun _ _ hs => hs.of_fields rfl rfl fun _ _ h => h
  sent := fun _ _ _ _ hs => hs

/-- A KeyReq names the conversation and the sender of its header. -/
theorem decodeKeyReq_header {buf : Buffer} (h : Codec.decodeKeyReq buf = some req) :
    buf.readUInt16BE 1 = some req.convId ∧ buf.readUInt16BE 3 = some req.senderId := by
  simp only [Codec.decodeKeyReq, Option.bind_eq_bind, Option.bind_eq_some_iff] at h
  obtain ⟨type, _, convId, hconv, senderId, hsender, hreq⟩ := h
  cases hreq
  exact ⟨hconv, hsender⟩

/-- A KeyReq registers a sender whose route the frame has just taught. -/
theorem rooms_keyReq {buf : Buffer} {peer : Peer} (hreq : Codec.decodeKeyReq buf = some req)
    (hs : Rooms (notePeer TYPE_KEY_REQ req.convId buf peer s)) :
    Rooms (registerMember req (notePeer TYPE_KEY_REQ req.convId buf peer s)) := by
  obtain ⟨hconv, hsender⟩ := decodeKeyReq_header hreq
  have hroute : (get₂ (notePeer TYPE_KEY_REQ req.convId buf peer s).clientMap req.convId
      req.senderId).isSome := by
    rw [notePeer, if_neg (by decide), hsender]
    show (get₂ (set₂ s.clientMap req.convId req.senderId peer) req.convId req.senderId).isSome
    rw [get₂_set₂, if_pos ⟨rfl, rfl⟩]
    rfl
  exact hs.registerMember hroute (Buffer.readUIntBE_lt hconv) (Buffer.readUIntBE_lt hsender)

theorem handleKeyReq_keepsRooms {buf : Buffer} (peer : Peer)
    (hconv : buf.readUInt16BE 1 = some convId) :
    ObeysAt KeepsRooms (handleKeyReq C keys buf)
      (notePeer TYPE_KEY_REQ convId buf peer s) := by
  rw [ObeysAt, handleKeyReq]
  cases hreq : Codec.decodeKeyReq buf with
  | none => exact keepsRooms_relay.comp.refl _
  | some req =>
    rw [ofOption_some_bind, modify_bind]
    intro hs
    obtain ⟨hc, -⟩ := decodeKeyReq_header hreq
    rw [hconv] at hc
    cases hc
    exact notifyMembers_obeys keepsRooms_relay req.convId _ (rooms_keyReq hreq hs)

theorem removePeer_keepsRooms (peerId : String) (s : GroupServer) :
    ObeysAt KeepsRooms (removePeer C keys peerId) s := by
  rw [ObeysAt, removePeer, get_bind, modify_bind]
  have hleave : KeepsRooms s [] (leaveGroups peerId s) :=
    fun hs => hs.of_fields rfl rfl fun _ _ h => h
  apply keepsRooms_relay.comp.trans hleave
  cases s.peerIdentity.get peerId with
  | none => exact keepsRooms_relay.comp.refl _
  | some senderId =>
    apply Obeys.forEach keepsRooms_relay.comp
    intro convId _ t
    rw [ObeysAt, leaveConversation, get_bind]
    cases hmem : t.members.get convId with
    | none => exact keepsRooms_relay.comp.refl _
    | some mems =>
      intro ht
      have hstruck := ht.struck senderId convId
      rw [struck_of_some hmem] at hstruck
      exact notifyMembers_obeys keepsRooms_relay convId _ hstruck

/-- **The step lemma.**  Every event keeps the rooms. -/
theorem step_keepsRooms (e : Event) (s : GroupServer) :
    ObeysAt KeepsRooms (step C keys e) s := by
  apply step_obeysAt
  · intro buf peer
    apply dispatch_obeysAt keepsRooms_relay
    · exact fun type convId hs => hs.notePeer type convId buf peer
    · exact fun t convId senderId seq hs => hs.of_fields rfl rfl fun _ _ h => h
    · exact fun convId hconv => handleKeyReq_keepsRooms peer hconv
  · exact fun peerId => removePeer_keepsRooms peerId s
  · exact fun f hs => hs.of_fields rfl rfl fun _ _ h => h
  · exact fun hs => hs.of_fields rfl rfl fun _ _ h => h

/-- **The run lemma.**  The rooms are in order in every reachable state. -/
theorem rooms_stateAfter (C : Crypto) (keys : ServerKeys) (es : List Event) :
    Rooms (stateAfter C keys es) :=
  Obeys.eventLoop keepsRooms_relay.comp (fun e _ s => step_keepsRooms e s) {} Rooms.init

/-- When a closed socket takes the creator out of a room with members left, the smallest of them is
the creator. -/
theorem Rooms.successor (hs : Rooms s) {peerId : String} {k : ℕ}
    {rest : NumMap Buffer} (hcre : s.creator.get c = some k)
    (hrest : (removePeer C keys peerId s).state.members.get c = some rest)
    (hgone : rest.get k = none) :
    ∃ successor, (removePeer C keys peerId s).state.creator.get c = some successor ∧
      IsLeast {i | i ∈ rest.keys} successor := by
  obtain ⟨mems, hmem⟩ := Option.isSome_iff_exists.mp (hs.housed c k hcre)
  obtain ⟨k', hk', hmember⟩ := hs.led c mems hmem
  cases hcre.symm.trans hk'
  obtain ⟨convs, -, hroom⟩ := room_removePeer C keys peerId s
  generalize (s.peerIdentity.get peerId).getD 0 = senderId at hroom
  have hroom := hroom c
  by_cases hc : c ∈ convs
  · rw [if_pos hc] at hroom
    obtain ⟨hmembers, hcreator⟩ := Prod.mk.inj hroom
    rw [hrest] at hmembers
    rw [hcreator]
    rcases members_struck_cases hmem hmembers.symm with ⟨-, rfl, hsize⟩ | ⟨hne, -⟩
    · -- the creator was in the room, so it is the one that was struck
      have hk : senderId = k := by
        by_contra hne
        rw [get_delete_of_ne _ hne] at hgone
        rw [hgone] at hmember
        cases hmember
      rw [creator_struck hmem, if_pos (by rw [hcre, hk])]
      exact exists_min_keys hsize
    · exact absurd rfl hne
  · rw [if_neg hc] at hroom
    obtain ⟨hmembers, -⟩ := Prod.mk.inj hroom
    rw [hrest] at hmembers
    cases hmembers.trans hmem
    rw [hgone] at hmember
    cases hmember

end DartProtocol.GroupServer
