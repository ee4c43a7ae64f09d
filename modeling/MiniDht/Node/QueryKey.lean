import MiniDht.Node.Meeting

/-!
# The key a search asks for

The first round of a search asks for the key it was begun for. Every later round asks for
the `to_id` of the reply that started it, and in an honest reply that is the id of the
node that searches.
-/

namespace MiniDht

open Lib

namespace Node

variable {w : World} {s s' s₀ s₁ : Node} {t : Token} {q : Search} {k : String} {m : MessageProto}

/-! ## What peers answer -/

/-- A message of `reply_FIND_NODE` to a request from `id` under the token, as some peer
that runs this program sends it. -/
def Honest (id : String) (t : Token) (m : MessageProto) : Prop :=
  ∃ (w : World) (peer : Node), Reachable w peer ∧
    m ∈ requests (peer.since (Act.exec (replyFindNode w id t) peer).2)

/-- An honest reply carries the token, and the searching node's own id as `to_id`. -/
theorem Honest.fields {id : String} (honest : Honest id t m) :
    m.type = .replyFindNode ∧ m.token = t ∧ m.toId = id := by
  obtain ⟨w, peer, -, sent⟩ := honest
  have sends : Sends (fun m => m.type = .replyFindNode ∧ m.token = t ∧ m.toId = id)
      (replyFindNode w id t) := by
    refine .bind (.ofExcept _) fun _ => .catchStd (.bind .get fun s => .sendContacts fun part => ?_)
    exact ⟨rfl, rfl, rfl⟩
  obtain ⟨es, log, fit⟩ := sends peer
  rw [since_of_log log] at sent
  obtain ⟨e, seen, about⟩ := List.mem_filterMap.mp sent
  cases e <;> cases about
  exact fit _ seen

/-- What a peer with one contact answers. -/
theorem honest_one {id : String} (reach : Reachable w s) (nonzero : id ≠ zeroId) {c : ContactProto}
    (alone : s.contactList.entries.map Prod.snd = [c]) :
    Honest id t
      { type := .replyFindNode, fromId := s.id, token := t, toId := id, contactList := [c] } := by
  refine ⟨w, s, reach, ?_⟩
  let m : MessageProto :=
    { type := .replyFindNode, fromId := s.id, token := t, toId := id, contactList := [c] }
  have sent := exec_sendMessage (w := w) (m := m) nonzero reach.sane.named
  have body : (Act.exec (sendContacts w
      { type := .replyFindNode, fromId := s.id, token := t, toId := id } [c]) s).2 =
        s.logged (sendEvents w s.id s.contactList m) := by
    simp only [sendContacts, or_true, if_true, List.nil_append]
    by_cases routed : m.toId = s.id ∨ (s.contactList.lookup m.toId).isSome
    · rw [if_pos routed] at sent
      rw [Act.exec_bind_ok sent]
      rfl
    · rw [if_neg routed] at sent
      rw [Act.exec_bind_error sent]
  have log : (Act.exec (replyFindNode w id t) s).2.log =
      s.log ++ sendEvents w s.id s.contactList m := by
    rw [replyFindNode, exec_checked nonzero, exec_catch_bind (Act.exec_get s), alone,
      Act.exec_catchStd_state, body]
    rfl
  rw [since_of_log log, requests_sendEvents]
  exact List.mem_singleton_self m

/-! ## A search and the replies to it -/

/-- The requests of a search: its `SEND_FIND_NODE`, `SEND_FIND_VALUE` and `SEND_STORE`. -/
def searchRequests (t : Token) (es : List Event) : List MessageProto :=
  (requests es).filter fun m => m.token = t ∧
    (m.type = .sendFindNode ∨ m.type = .sendFindValue ∨ m.type = .sendStore)

/-- A client's call begins a search for `k`, and its first round is run. -/
inductive Begins (w : World) (s₀ : Node) (k : String) (s : Node) : Prop where
  | store {b : DataItemProto} {out : Except Fault Unit}
      (run : Act.exec (iterativeStore w k b) s₀ = (out, s)) (survives : Survives out)
  | findNode {out : Except Fault Unit}
      (run : Act.exec (iterativeFindNode w k) s₀ = (out, s)) (survives : Survives out)
  | findValue {c : Nat} {hint : String} {out : Except Fault Unit}
      (run : Act.exec (iterativeFindValue w k c hint) s₀ = (out, s)) (survives : Survives out)

/-- Honest replies to a search are handled: for each, the search it found and the contacts
it carried, and all the requests they led to. In between the node may change in any way
that leaves its id alone, and the search unless it erases it. -/
inductive Sought (w : World) (t : Token) :
    Node → List (Option Search × List ContactProto) → List MessageProto → Node → Prop where
  | done {s : Node} : Sought w t s [] [] s
  | reply {s s₁ s' : Node} {m : MessageProto} {rounds : List (Option Search × List ContactProto)}
      {later : List MessageProto} (honest : Honest s.id t m)
      (run : Act.exec (handleReplyFindNode w m) s = (.ok (), s₁))
      (rest : Sought w t s₁ rounds later s') :
      Sought w t s ((s.mapSearch t, m.contactList) :: rounds)
        (searchRequests t (s.since s₁) ++ later) s'
  | other {s s₁ s' : Node} {rounds : List (Option Search × List ContactProto)}
      {later : List MessageProto} (sane : s₁.Sane) (id : s₁.id = s.id)
      (kept : s₁.mapSearch t = s.mapSearch t ∨ s₁.mapSearch t = none)
      (rest : Sought w t s₁ rounds later s') :
      Sought w t s rounds later s'

/-- The contacts make the search ask nobody: there is no such search any more, or the
contacts end it, or leave nobody to ask. -/
def Idle (round : Option Search × List ContactProto) : Prop :=
  ∀ q, round.1 = some q → q.picks round.2 = []

theorem searchRequests_append (es es' : List Event) :
    searchRequests t (es ++ es') = searchRequests t es ++ searchRequests t es' := by
  simp [searchRequests, requests_append]

theorem searchRequests_pings {es : List Event} (pings : ∀ e ∈ es, e.message.type = .sendPing) :
    searchRequests t es = [] := by
  rw [searchRequests, List.filter_eq_nil_iff]
  intro m member
  obtain ⟨e, seen, about⟩ := List.mem_filterMap.mp member
  have ping := pings e seen
  cases e <;> cases about
  simp [show m.type = .sendPing from ping]

/-- All requests of a round count. -/
theorem searchRequests_roundEvents (lc : List ContactProto) :
    searchRequests t (roundEvents w s q lc t k) =
      (Search.keys (taken q lc k)).map (roundMessage q lc s.id k t) := by
  rw [searchRequests, requests_roundEvents, List.filter_eq_self]
  intro m member
  obtain ⟨key, -, rfl⟩ := List.mem_map.mp member
  have three : roundType q lc = .sendFindNode ∨ roundType q lc = .sendFindValue ∨
      roundType q lc = .sendStore := by
    unfold roundType
    split
    · simp
    · simp
    · split <;> simp
  simpa using three

/-- A reply to a search makes the requests of its round. -/
theorem searchRequests_handled (sane : s.Sane) (here : s.mapSearch m.token = some q)
    (run : Act.exec (handleReplyFindNode w m) s = (.ok (), s')) :
    searchRequests m.token (s.since s') = (Search.keys (q.picks m.contactList)).map
      (roundMessage q m.contactList s.id m.toId m.token) := by
  obtain ⟨es, pings, log⟩ := reply_log sane here run
  obtain ⟨-, safe, -⟩ := reply_cases sane here run
  rw [since_of_log log, searchRequests_append, searchRequests_pings pings, List.nil_append,
    searchRequests_roundEvents, taken_safe safe]

/-- A reply to a search that is not there makes none. -/
theorem searchRequests_unknown (unknown : s.mapSearch m.token = none)
    (run : Act.exec (handleReplyFindNode w m) s = (.ok (), s')) :
    s' = s ∧ searchRequests m.token (s.since s') = [] := by
  obtain rfl := reply_unknown unknown run
  exact ⟨rfl, by simp [since, searchRequests, requests]⟩

/-- The requests an honest reply leads to all ask for the searching node's own id. -/
theorem searchRequests_reply (sane : s.Sane) (honest : Honest s.id t m)
    (run : Act.exec (handleReplyFindNode w m) s = (.ok (), s')) :
    (∀ m' ∈ searchRequests t (s.since s'), m'.queryId = s.id) ∧
      (searchRequests t (s.since s') = [] ↔ Idle (s.mapSearch t, m.contactList)) := by
  obtain ⟨-, token, own⟩ := honest.fields
  subst token
  cases here : s.mapSearch m.token with
  | none => simp [(searchRequests_unknown here run).2, Idle]
  | some q =>
    rw [searchRequests_handled sane here run, own]
    constructor
    · intro m' member
      obtain ⟨key, -, rfl⟩ := List.mem_map.mp member
      exact roundMessage_queryId ..
    · simp [Idle, Search.keys]

/-- So do the requests of any number of replies. -/
theorem Sought.later {rounds : List (Option Search × List ContactProto)}
    {later : List MessageProto} (run : Sought w t s rounds later s') (sane : s.Sane) :
    (∀ m ∈ later, m.queryId = s.id) ∧ (later = [] ↔ ∀ round ∈ rounds, Idle round) := by
  induction run with
  | done => simp
  | reply honest run _ ih =>
    obtain ⟨asks, idle⟩ := searchRequests_reply sane honest run
    obtain ⟨same, -⟩ := reply_frame sane run
    obtain ⟨asks', idle'⟩ := ih (reply_sane sane run)
    rw [same] at asks'
    refine ⟨fun m member => (List.mem_append.mp member).elim (asks m) (asks' m), ?_⟩
    rw [List.append_eq_nil_iff, idle, idle', List.forall_mem_cons]
  | other kept same _ _ ih =>
    rw [← same]
    exact ih kept

/-- What beginning a search does: its first round is run on the contacts of the node. -/
theorem searchRequests_begun {type : SearchType} {fill : Search → Search} {out : Except Fault Unit}
    (sane : s₀.Sane) (filled : fill (Search.new s₀.id k type) = q) (ready : q.Ready)
    (run : Act.exec (do
        let t ← newSearch w k type fill
        startNodeLookup w t k) s₀ = (out, s)) (survives : Survives out) :
    s.id = s₀.id ∧
      s.mapSearch (tokenAt w s₀.draws) = (if q.ends (s₀.contactList.proximity k) then none
        else some (q.next (s₀.contactList.proximity k))) ∧
      searchRequests (tokenAt w s₀.draws) (s₀.since s) =
        (Search.keys (q.picks (s₀.contactList.proximity k))).map
          (roundMessage q (s₀.contactList.proximity k) s₀.id k (tokenAt w s₀.draws)) := by
  obtain ⟨-, safe, rfl⟩ := begin_cases sane filled ready run survives
  refine ⟨afterRound_id .., by rw [logged_mapSearch, afterRound_at], ?_⟩
  rw [since_of_log (l := roundEvents w (s₀.begun w q k) q (s₀.contactList.proximity k)
    (tokenAt w s₀.draws) k) (by rw [logged_log, afterRound_log]; rfl), searchRequests_roundEvents,
    taken_safe safe]
  rfl

/-- The first round asks for the key the search was begun for. -/
theorem searchRequests_begin {type : SearchType} {fill : Search → Search} {out : Except Fault Unit}
    (sane : s₀.Sane) (filled : fill (Search.new s₀.id k type) = q) (ready : q.Ready)
    (run : Act.exec (do
        let t ← newSearch w k type fill
        startNodeLookup w t k) s₀ = (out, s)) (survives : Survives out) :
    s.id = s₀.id ∧ ∀ m ∈ searchRequests (tokenAt w s₀.draws) (s₀.since s), m.queryId = k := by
  obtain ⟨own, -, made⟩ := searchRequests_begun sane filled ready run survives
  refine ⟨own, fun m member => ?_⟩
  rw [made] at member
  obtain ⟨key, -, rfl⟩ := List.mem_map.mp member
  exact roundMessage_queryId ..

theorem Begins.first (begins : Begins w s₀ k s) (sane : s₀.Sane) :
    s.Sane ∧ s.id = s₀.id ∧
      ∀ m ∈ searchRequests (tokenAt w s₀.draws) (s₀.since s), m.queryId = k := by
  cases begins with
  | @store b out run survives =>
    have kept := sane.input (.iterativeStore k b) run survives
    exact ⟨kept, searchRequests_begin sane rfl (store_ready s₀.id k b) run survives⟩
  | @findNode out run survives =>
    have kept := sane.input (.iterativeFindNode k) run survives
    obtain ⟨out', begun, alive⟩ := Act.exec_of_rethrowAs run survives
    exact ⟨kept, searchRequests_begin sane rfl (node_ready s₀.id k) begun alive⟩
  | @findValue c hint out run survives =>
    have kept := sane.input (.iterativeFindValue k c hint) run survives
    obtain ⟨out', begun, alive⟩ := Act.exec_of_rethrowAs run survives
    exact ⟨kept, searchRequests_begin sane rfl (value_ready s₀.id k hint c) begun alive⟩

/-! ### A search answered once -/

/-- A node that knows one peer has begun to store an item, and another node that knows the
same peer answers. -/
theorem answered_simple :
    ∃ (s₀ s s' : Node) (q : Search) (m : MessageProto) (c : ContactProto),
      s.id = keyToString 1 ∧ AskedOne .pinged s₀ s q "0c" {} peerA ∧
      Honest s.id (tokenAt .pinged s₀.draws) m ∧ m.contactList = [c] ∧ c.key = peerA.key ∧
      c.ep = peerA.ep ∧ Act.exec (handleReplyFindNode .pinged m) s = (.ok (), s') := by
  obtain ⟨s₀, s, q, own, asked⟩ := askedOne_simple
  let ep : Endpoint := { address := "10.0.0.1", port := 1, printed := by decide }
  have proto : ep.proto = peerA.ep := by decide +kernel
  obtain ⟨peer, reach, -, -, -, c, same, at', alone, -⟩ :=
    reachable_met (w := .pinged) Sqlite.inOrder_sound 2 0 {} ep [0] rfl rfl (by decide +kernel) (by decide +kernel)
  have own' : s.id ≠ zeroId := by
    rw [own]
    decide +kernel
  have key : c.key = peerA.key := same
  have honest := honest_one (t := tokenAt .pinged s₀.draws) reach own' (c := c) (by rw [alone]; rfl)
  have named : Search.AllNamed [c] := by
    intro d member
    rw [List.mem_singleton.mp member, at']
    exact ep.proto_named
  have offered : zeroId ∉ Search.keys [c] := by
    simp only [Search.keys, List.map_cons, List.map_nil, key]
    decide +kernel
  have short : zeroId ∉ Search.keys q.shortList := by
    rw [asked.list]
    decide +kernel
  obtain ⟨s', run, -⟩ := reply_returns (w := .pinged)
    (m := { type := .replyFindNode, fromId := peer.id, token := tokenAt .pinged s₀.draws,
            toId := s.id, contactList := [c] })
    asked.reach.sane asked.here named offered (roundSafe_of_nonzero short offered fun _ => own')
  exact ⟨s₀, s, s', q, _, c, own, asked, honest, rfl, key, at'.trans proto, run⟩

/-- **The key a search asks for.** Over any honest replies, the requests of a search begun
for `k` all ask for `k` if and only if `k` is the id of the node itself, or no reply after
the first round makes the search ask anybody. -/
theorem query_key_iff {rounds : List (Option Search × List ContactProto)}
    {later : List MessageProto} (reach : Reachable w s₀) (begins : Begins w s₀ k s)
    (run : Sought w (tokenAt w s₀.draws) s rounds later s') :
    (∀ m ∈ searchRequests (tokenAt w s₀.draws) (s₀.since s) ++ later, m.queryId = k) ↔
      k = s₀.id ∨ ∀ round ∈ rounds, Idle round := by
  obtain ⟨sane, own, first⟩ := begins.first reach.sane
  obtain ⟨asks, idle⟩ := run.later sane
  rw [own] at asks
  constructor
  · intro all
    by_cases quiet : later = []
    · exact .inr (idle.mp quiet)
    · obtain ⟨m, member⟩ := List.exists_mem_of_ne_nil later quiet
      exact .inl ((all m (List.mem_append_right _ member)).symm.trans (asks m member))
  · rintro (self | quiet) m member
    · rcases List.mem_append.mp member with early | late
      · exact first m early
      · exact (asks m late).trans self.symm
    · rw [idle.mpr quiet, List.append_nil] at member
      exact first m member

/-- The theorem at a store search that one peer has answered. -/
theorem query_key_iff_answered :
    ∃ (s₀ s : Node) (rounds : List (Option Search × List ContactProto)) (later : List MessageProto),
      Begins .pinged s₀ "0c" s ∧ rounds.length = 1 ∧
        ((∀ m ∈ searchRequests (tokenAt .pinged s₀.draws) (s₀.since s) ++ later, m.queryId = "0c") ↔
          "0c" = s₀.id ∨ ∀ round ∈ rounds, Idle round) := by
  obtain ⟨s₀, s, s', q, m, c, -, asked, honest, -, -, -, run⟩ := answered_simple
  have begins : Begins .pinged s₀ "0c" s := .store asked.run trivial
  exact ⟨s₀, s, _, _, begins, rfl, query_key_iff asked.reach₀ begins (.reply honest run .done)⟩

/-- The peer is answered for by another that knows it too: the item is stored under the
searching node's own id. -/
theorem query_key_other :
    ∃ (s₀ s s' : Node) (m m' : MessageProto) (ep : Endpoint), Reachable .pinged s₀ ∧
      Act.exec (iterativeStore .pinged "0c" {}) s₀ = (.ok (), s) ∧
      Honest s.id (tokenAt .pinged s₀.draws) m ∧
      Act.exec (handleReplyFindNode .pinged m) s = (.ok (), s') ∧
      .delivered m' ep ∈ s.since s' ∧ m'.type = .sendStore ∧
      m'.token = tokenAt .pinged s₀.draws ∧ m'.queryId ≠ "0c" := by
  obtain ⟨s₀, s, s', q, m, c, own, asked, honest, carried, same, at', run⟩ := answered_simple
  obtain ⟨-, token, toId⟩ := honest.fields
  have reach := asked.reach
  have here : s.mapSearch m.token = some q := token ▸ asked.here
  obtain ⟨-, safe, -⟩ := reply_cases reach.sane here run
  obtain ⟨es, -, log⟩ := reply_log reach.sane here run
  rw [carried] at safe log
  have ended : q.ends [c] = true := Search.ends_again asked.list asked.busy asked.store same
  obtain ⟨d, picked, peer⟩ :=
    Search.picks_again (reach.sane.ready _ q here) asked.list asked.busy asked.store same
  obtain ⟨e, found, where'⟩ := asked.known
  have message : roundMessage q [c] s.id m.toId m.token d.key =
      storeMessage s.id d.key m.toId q.buffer m.token := by
    simp [roundMessage, asked.store, ended]
  let stored := storeMessage s.id d.key m.toId q.buffer m.token
  refine ⟨s₀, s, s', m, stored, { address := "10.0.0.1", port := 1, printed := by decide },
    asked.reach₀, asked.run, honest, run, ?_, rfl, token, ?_⟩
  · rw [since_of_log log]
    refine List.mem_append_right _ (mem_roundEvents.mpr ⟨d, by rwa [taken_safe safe], ?_⟩)
    rw [message]
    refine delivered_mem_sendEvents.mpr ⟨rfl, ?_, e, ?_, ?_, Nat.zero_le _⟩
    · show d.key ≠ s.id
      rw [peer, own]
      decide +kernel
    · show s.contactList.lookup d.key = some e
      rw [peer]
      exact found
    · rw [where']
      decide +kernel
  · show m.toId ≠ "0c"
    rw [toId, own]
    decide +kernel

end Node

end MiniDht
