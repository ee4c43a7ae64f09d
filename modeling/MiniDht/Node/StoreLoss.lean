import MiniDht.Node.Meeting

/-!
# Stores that get lost

`iterativeStore` ends when its search does, whether or not the item left the node. It
leaves exactly if the last round finds, on the short list, somebody it can send to
(`store_delivered_iff`); nothing is ever put into the node's own storage.
-/

namespace MiniDht

open Lib

/-- The world in which a peer pings, and later names itself in an answer. -/
def World.answered : World :=
  .simple [{ type := .sendPing, fromId := peerA.key },
    { type := .replyFindNode, fromId := peerA.key, token := 0, toId := keyToString 1
      contactList := [peerA] }]

namespace Node

variable {w : World} {s s' s₀ : Node} {t : Token} {q : Search} {k : String} {d : DataItemProto}
  {m : MessageProto} {lc : List ContactProto}

/-- A packet that stores the item has been given to a session. -/
def StoreDelivered (t : Token) (d : DataItemProto) (es : List Event) : Prop :=
  ∃ m ep, .delivered m ep ∈ es ∧ m.type = .sendStore ∧ m.token = t ∧ m.dataItem = d

/-- One of these contacts can be sent the item: it is not the node itself, the contact list
has an endpoint for it that resolves, and the message fits into a packet. -/
def Reaches (w : World) (s : Node) (t : Token) (k : String) (d : DataItemProto)
    (lc : List ContactProto) : Prop :=
  ∃ c ∈ lc, c.key ≠ s.id ∧ ∃ e uep, s.contactList.lookup c.key = some e ∧
    w.resolve e.ep = some uep ∧ w.byteSize (storeMessage s.id c.key k d t) ≤ maxBodyLength

/-- Packets with replies arrive, and the node survives them. -/
inductive Answers (w : World) (s : Node) : Node → Prop where
  | start : Answers w s s
  | packet {s₁ s₂ : Node} {ep : Endpoint} {body : List UInt8} {out : Except Fault Unit}
      (earlier : Answers w s s₁) (reply : IsReply (w.parse body).2)
      (run : Act.exec (handleReceive w ep body) s₁ = (out, s₂)) (survives : Survives out) :
      Answers w s s₂

/-- The store search that `iterativeStore k d` begins at `s₀` is erased: at once, or by a
reply after others. With it go the node before the last round, the short list the round
ends with, the key it is run for, and the node after it. -/
inductive StoreEnds (w : World) (s₀ : Node) (k : String) (d : DataItemProto) :
    Node → List ContactProto → String → Node → Prop where
  | atOnce {s' : Node} {out : Except Fault Unit}
      (run : Act.exec (iterativeStore w k d) s₀ = (out, s')) (survives : Survives out)
      (gone : s'.mapSearch (tokenAt w s₀.draws) = none) :
      StoreEnds w s₀ k d s₀
        (({ Search.new s₀.id k .store with buffer := d } : Search).offer
          (s₀.contactList.proximity k)).shortList k s'
  | later {s₁ s s' : Node} {q : Search} {ep : Endpoint} {body : List UInt8}
      {out out' : Except Fault Unit}
      (run : Act.exec (iterativeStore w k d) s₀ = (out, s₁)) (survives : Survives out)
      (answers : Answers w s₁ s) (here : s.mapSearch (tokenAt w s₀.draws) = some q)
      (reply : IsReply (w.parse body).2)
      (last : Act.exec (handleReceive w ep body) s = (out', s')) (survives' : Survives out')
      (gone : s'.mapSearch (tokenAt w s₀.draws) = none) :
      StoreEnds w s₀ k d s (q.offer (w.parse body).2.contactList).shortList (w.parse body).2.toId s'

/-! ## The last round -/

/-- The round that ends a store search delivers the item exactly if it reaches somebody. -/
theorem delivered_roundEvents (store : q.searchType = .store) (safe : RoundSafe q lc k)
    (ended : q.ends lc = true) :
    StoreDelivered t q.buffer (roundEvents w s q lc t k) ↔
      Reaches w s t k q.buffer (q.offer lc).shortList := by
  have whole : taken q lc k = (q.offer lc).shortList := by
    rw [taken_safe safe, Search.picks, if_pos ended, if_pos store]
  have message (key : String) : roundMessage q lc s.id k t key = storeMessage s.id key k q.buffer t := by
    simp [roundMessage, store, ended]
  constructor
  · rintro ⟨m, uep, delivered, -⟩
    obtain ⟨c, member, there⟩ := mem_roundEvents.mp delivered
    rw [message] at there
    obtain ⟨-, other, e, found, resolved, fits⟩ := delivered_mem_sendEvents.mp there
    exact ⟨c, whole ▸ member, other, e, uep, found, resolved, fits⟩
  · rintro ⟨c, member, other, e, uep, found, resolved, fits⟩
    refine ⟨storeMessage s.id c.key k q.buffer t, uep, ?_, rfl, rfl, rfl⟩
    refine mem_roundEvents.mpr ⟨c, whole ▸ member, ?_⟩
    rw [message]
    exact delivered_mem_sendEvents.mpr ⟨rfl, other, e, found, resolved, fits⟩

/-! ## Until then -/

/-- No message that stores under the token is among what was seen. -/
def NoStore (t : Token) (es : List Event) : Prop :=
  ∀ e ∈ es, ¬ (e.message.type = .sendStore ∧ e.message.token = t)

theorem not_delivered_of_noStore {es es' : List Event} (none : NoStore t es) :
    StoreDelivered t d (es ++ es') ↔ StoreDelivered t d es' := by
  constructor
  · rintro ⟨m, ep, seen, type, token, item⟩
    rcases List.mem_append.mp seen with early | late
    · exact absurd ⟨type, token⟩ (none _ early)
    · exact ⟨m, ep, late, type, token, item⟩
  · rintro ⟨m, ep, seen, rest⟩
    exact ⟨m, ep, List.mem_append_right _ seen, rest⟩

/-- A store search under way: it is in the map, and nothing has been stored for it. -/
structure Underway (s₀ : Node) (t : Token) (d : DataItemProto) (s : Node) (q : Search) : Prop where
  sane : s.Sane
  here : s.mapSearch t = some q
  store : q.searchType = .store
  item : q.buffer = d
  stored : s.dbStorage = s₀.dbStorage
  log : ∃ es, s.log = s₀.log ++ es ∧ NoStore t es

/-- Messages of a round under another token, and of a round that goes on, store nothing. -/
theorem noStore_roundEvents (harmless : m.token ≠ t ∨ roundType q lc ≠ .sendStore) :
    NoStore t (roundEvents w s q lc m.token k) := by
  rintro e seen ⟨type, token⟩
  obtain ⟨c, -, sent⟩ := mem_roundEvents.mp seen
  rw [message_of_mem_sendEvents sent] at type token
  rw [roundMessage_type] at type
  rw [roundMessage_token] at token
  exact harmless.elim (fun other => other token) fun other => other type

theorem noStore_append {es es' : List Event} (first : NoStore t es) (second : NoStore t es') :
    NoStore t (es ++ es') := by
  intro e seen
  rcases List.mem_append.mp seen with early | late
  · exact first e early
  · exact second e late

theorem noStore_pings {es : List Event} (pings : ∀ e ∈ es, e.message.type = .sendPing) :
    NoStore t es := by
  rintro e seen ⟨type, -⟩
  rw [pings e seen] at type
  cases type

/-- One more list of contacts: the search goes on, or this was the one that ended it. -/
theorem Underway.reply (before : Underway s₀ t d s q)
    (run : Act.exec (handleReplyFindNode w m) s = (.ok (), s')) :
    (∃ q', Underway s₀ t d s' q') ∨
      (s'.mapSearch t = none ∧ s'.dbStorage = s₀.dbStorage ∧
        (StoreDelivered t d (s₀.since s') ↔
          Reaches w s t m.toId d (q.offer m.contactList).shortList)) := by
  obtain ⟨seen, log₀, none⟩ := before.log
  obtain ⟨-, stored, elsewhere⟩ := reply_frame before.sane run
  have sane := reply_sane before.sane run
  cases known : s.mapSearch m.token with
  | none =>
    rw [reply_unknown known run]
    exact .inl ⟨q, before⟩
  | some q₁ =>
    obtain ⟨es, pings, log⟩ := reply_log before.sane known run
    rw [log₀, List.append_assoc, ← List.append_assoc seen] at log
    have quiet : NoStore t (seen ++ es) := noStore_append none (noStore_pings pings)
    by_cases mine : m.token = t
    · subst mine
      obtain rfl : q₁ = q := Option.some.inj (known.symm.trans before.here)
      obtain ⟨-, safe, -⟩ := reply_cases before.sane known run
      have after := reply_search before.sane known run
      cases ended : q₁.ends m.contactList with
      | true =>
        rw [ended, if_pos rfl] at after
        refine .inr ⟨after, stored.trans before.stored, ?_⟩
        rw [since_of_log log, not_delivered_of_noStore quiet, ← before.item]
        exact delivered_roundEvents before.store safe ended
      | false =>
        simp only [ended, Bool.false_eq_true, if_false] at after
        refine .inl ⟨_, sane, after, ?_, ?_, stored.trans before.stored, _, log,
          noStore_append quiet (noStore_roundEvents (.inr ?_))⟩
        · simp [before.store]
        · simp [Search.next, Search.asks, before.item]
        · simp [roundType, before.store, ended]
    · exact .inl ⟨q, sane, (elsewhere t (Ne.symm mine)).trans before.here, before.store,
        before.item, stored.trans before.stored, _, log,
        noStore_append quiet (noStore_roundEvents (.inl mine))⟩

/-- The same for any packet with a reply. -/
theorem Underway.step {ep : Endpoint} {body : List UInt8} {out : Except Fault Unit}
    (before : Underway s₀ t d s q) (reply : IsReply (w.parse body).2)
    (run : Act.exec (handleReceive w ep body) s = (out, s')) (survives : Survives out) :
    (∃ q', Underway s₀ t d s' q') ∨
      (s'.mapSearch t = none ∧ s'.dbStorage = s₀.dbStorage ∧
        (StoreDelivered t d (s₀.since s') ↔
          Reaches w s t (w.parse body).2.toId d (q.offer (w.parse body).2.contactList).shortList)) := by
  have from' : Underway s₀ t d { s with senderEndpoint := ep } q :=
    ⟨before.sane.congr rfl, before.here, before.store, before.item, before.stored, before.log⟩
  rcases reply_step before.sane reply run survives with ⟨-, handled⟩ | ⟨same, -, stored, kept, -⟩
  · exact from'.reply handled
  · have sane : s'.Sane := by
      have kept := preserves_handleReceive (w := w) ep body s before.sane (by rw [run]; exact survives)
      rwa [run] at kept
    obtain ⟨seen, log, none⟩ := before.log
    exact .inl ⟨q, sane, kept t q before.here (by simp [before.store]), before.store, before.item,
      stored.trans before.stored, seen, same.trans log, none⟩

/-- A search that is gone stays gone, whatever replies arrive. -/
theorem gone_step {ep : Endpoint} {body : List UInt8} {out : Except Fault Unit} (sane : s.Sane)
    (gone : s.mapSearch t = none) (reply : IsReply (w.parse body).2)
    (run : Act.exec (handleReceive w ep body) s = (out, s')) (survives : Survives out) :
    s'.mapSearch t = none := by
  rcases reply_step sane reply run survives with ⟨-, handled⟩ | ⟨-, -, -, -, still⟩
  · have sane₁ : ({ s with senderEndpoint := ep } : Node).Sane := sane.congr rfl
    generalize (w.parse body).2 = m at handled
    by_cases mine : t = m.token
    · subst mine
      have gone₁ : ({ s with senderEndpoint := ep } : Node).mapSearch m.token = none := gone
      rw [reply_unknown gone₁ handled]
      exact gone
    · rw [(reply_frame sane₁ handled).2.2 t mine]
      exact gone
  · exact still t gone

/-! ## A node that knows nobody -/

/-- With an empty contact list `iterativeStore` returns, and that is all. -/
theorem exec_iterativeStore_alone (sane : s.Sane) (keyed : k ≠ zeroId)
    (alone : s.contactList = .new s.id) :
    ∃ s', Act.exec (iterativeStore w k d) s = (.ok (), s') ∧
      s'.mapSearch (tokenAt w s.draws) = none ∧ s'.dbStorage = s.dbStorage ∧ s.since s' = [] := by
  let q : Search := { Search.new s.id k .store with buffer := d }
  have ready : q.Ready := store_ready s.id k d
  have nobody : s.contactList.proximity k = [] := by
    rw [alone]
    rfl
  have ended : q.ends [] = true := Search.ends_of_asked (by simp [q, Search.new]) (List.forall_mem_nil _)
  have nothing : q.picks [] = [] := by
    rw [Search.picks, if_pos ended]
    rfl
  have safe : RoundSafe q [] k := by
    rw [RoundSafe, nothing]
    exact ⟨List.not_mem_nil, fun _ => keyed⟩
  have begun := (sane.searching (w := w) ready).proximate k
  have run := exec_replyIterative (w := w) (k := k) (t := tokenAt w s.draws) (q := q)
    (s := (s.searching w q).proximate k) withSearch_at ready (List.forall_mem_nil _ : Search.AllNamed [])
    begun.named safe
  have whole : Act.exec (iterativeStore w k d) s =
      Act.exec (replyIterative w (s.contactList.proximity k) (tokenAt w s.draws) k)
        ((s.searching w q).proximate k) :=
    exec_newSearch_start sane .store (fun search => { search with buffer := d }) ready
  rw [nobody, run] at whole
  refine ⟨_, whole, ?_, afterRound_dbStorage .., since_of_log ?_⟩
  · rw [logged_mapSearch, afterRound_at, if_pos ended]
  · rw [logged_log, afterRound_log, roundEvents, taken_safe safe, nothing]
    rfl

/-! ## The whole run -/

/-- After any replies a search under way still is, or is gone. -/
theorem Answers.underway (answers : Answers w s s') (sane : s.Sane)
    (start : (∃ q, Underway s₀ t d s q) ∨ s.mapSearch t = none) :
    s'.Sane ∧ ((∃ q, Underway s₀ t d s' q) ∨ s'.mapSearch t = none) := by
  induction answers with
  | start => exact ⟨sane, start⟩
  | @packet s₁ s₂ ep body out _ reply run survives ih =>
    obtain ⟨sane, state⟩ := ih
    have kept := preserves_handleReceive (w := w) ep body s₁ sane (by rw [run]; exact survives)
    rw [run] at kept
    refine ⟨kept, ?_⟩
    rcases state with ⟨q, before⟩ | gone
    · rcases before.step reply run survives with goes | ⟨ended, -⟩
      · exact .inl goes
      · exact .inr ended
    · exact .inr (gone_step sane gone reply run survives)

/-- The first round of a store search: it goes on, or it was the only one. -/
theorem begin_store {out : Except Fault Unit} (sane : s₀.Sane)
    (run : Act.exec (iterativeStore w k d) s₀ = (out, s')) (survives : Survives out) :
    (∃ q, Underway s₀ (tokenAt w s₀.draws) d s' q) ∨
      (s'.mapSearch (tokenAt w s₀.draws) = none ∧ s'.dbStorage = s₀.dbStorage ∧
        (StoreDelivered (tokenAt w s₀.draws) d (s₀.since s') ↔
          Reaches w s₀ (tokenAt w s₀.draws) k d
            (({ Search.new s₀.id k .store with buffer := d } : Search).offer
              (s₀.contactList.proximity k)).shortList)) := by
  let q₀ : Search := { Search.new s₀.id k .store with buffer := d }
  obtain ⟨-, safe, rfl⟩ := begin_cases (q := q₀) sane rfl (store_ready s₀.id k d) run survives
  have sane' := preserves_iterativeStore (w := w) k d s₀ sane (by rw [run]; exact survives)
  rw [run] at sane'
  have after := afterRound_at (s₀.begun w q₀ k) q₀ (s₀.contactList.proximity k) (tokenAt w s₀.draws)
  have log : (((s₀.begun w q₀ k).afterRound q₀ (s₀.contactList.proximity k)
      (tokenAt w s₀.draws)).logged (roundEvents w (s₀.begun w q₀ k) q₀ (s₀.contactList.proximity k)
        (tokenAt w s₀.draws) k)).log = s₀.log ++ roundEvents w (s₀.begun w q₀ k) q₀
          (s₀.contactList.proximity k) (tokenAt w s₀.draws) k := by
    rw [logged_log, afterRound_log]
    rfl
  cases ended : q₀.ends (s₀.contactList.proximity k) with
  | true =>
    rw [ended, if_pos rfl] at after
    refine .inr ⟨after, afterRound_dbStorage .., ?_⟩
    rw [since_of_log log]
    refine (delivered_roundEvents (q := q₀) rfl safe ended).trans ?_
    simp only [Reaches, begun_lookup]
    rfl
  | false =>
    simp only [ended, Bool.false_eq_true, if_false] at after
    have quiet : roundType q₀ (s₀.contactList.proximity k) ≠ .sendStore := by
      have store : q₀.searchType = .store := rfl
      simp [roundType, store, ended]
    exact .inl ⟨_, sane', after, by simp [q₀, Search.new], by simp [q₀, Search.next, Search.asks],
      afterRound_dbStorage .., _, log,
      noStore_roundEvents (m := { token := tokenAt w s₀.draws }) (.inr quiet)⟩

/-- **When a store leaves the node.** However the store search ends, nothing has been put
into the node's own storage, and the item has been given to a session if and only if the
last round could reach one of the contacts on the short list. -/
theorem store_delivered_iff {list : List ContactProto} {k' : String} (reach : Reachable w s₀)
    (ends : StoreEnds w s₀ k d s list k' s') :
    s'.dbStorage = s₀.dbStorage ∧
      (StoreDelivered (tokenAt w s₀.draws) d (s₀.since s') ↔
        Reaches w s (tokenAt w s₀.draws) k' d list) := by
  cases ends with
  | atOnce run survives gone =>
    rcases begin_store reach.sane run survives with ⟨q, goes⟩ | ⟨-, kept, exact'⟩
    · rw [goes.here] at gone
      cases gone
    · exact ⟨kept, exact'⟩
  | later run survives answers here reply last survives' gone =>
    have sane₁ := preserves_iterativeStore (w := w) k d s₀ reach.sane (by rw [run]; exact survives)
    rw [run] at sane₁
    have start := (begin_store reach.sane run survives).imp_right And.left
    obtain ⟨-, ⟨q, before⟩ | gone'⟩ := answers.underway sane₁ start
    · obtain rfl := Option.some.inj (here.symm.trans before.here)
      rcases before.step reply last survives' with ⟨q', after⟩ | ⟨-, kept, exact'⟩
      · rw [after.here] at gone
        cases gone
      · exact ⟨kept, exact'⟩
    · rw [gone'] at here
      cases here

/-- A node that has met one peer stores an item. The answer of the peer ends the search, and the peer
is sent the item. -/
theorem store_delivered_iff_answered :
    let w := World.answered
    let d : DataItemProto := { title := "title", data := [1] }
    ∃ (s₀ s s' : Node) (ep : Endpoint), Act.exec (iterativeStore w "0c" d) s₀ = (.ok (), s) ∧
      Act.exec (handleReceive w ep [1]) s = (.ok (), s') ∧
      s'.mapSearch (tokenAt w s₀.draws) = none ∧ s'.dbStorage = s₀.dbStorage ∧
      StoreDelivered (tokenAt w s₀.draws) d (s₀.since s') := by
  intro w d
  let ep : Endpoint := { address := "10.0.0.1", port := 1, printed := by decide }
  obtain ⟨s₀, s, q, own, asked⟩ : ∃ s₀ s q, s.id = keyToString 1 ∧ AskedOne w s₀ s q "0c" d peerA :=
    askedOne_pinged _ d
  have here := asked.here
  have token : tokenAt w s₀.draws = 0 := tokenAt_simple _ _
  rw [token] at here
  let m : MessageProto := (w.parse [1]).2
  have ready := asked.reach.sane.ready _ _ here
  have ended : q.ends m.contactList = true := Search.ends_again asked.list asked.busy asked.store rfl
  obtain ⟨c, picked, key⟩ := Search.picks_again ready asked.list asked.busy asked.store (c := peerA) rfl
  have only (c : ContactProto) (member : c ∈ q.picks m.contactList) : c = peerA := by
    rcases Search.mem_offer (Search.picks_subset member) with old | new
    · rwa [asked.list, List.mem_singleton] at old
    · exact List.mem_singleton.mp new
  have nonzero : zeroId ∉ Search.keys (q.picks m.contactList) := by
    intro zero
    obtain ⟨c, member, same⟩ := List.mem_map.mp zero
    rw [only c member] at same
    exact absurd same (by decide +kernel)
  have safe : RoundSafe q m.contactList m.toId := ⟨nonzero, fun _ => by decide +kernel⟩
  have sane : ({ s with senderEndpoint := ep } : Node).Sane := asked.reach.sane.congr rfl
  obtain ⟨s', handled, -⟩ := reply_returns (w := w) (m := m) sane here (by decide +kernel)
    (by decide +kernel) safe
  have received : Act.exec (handleReceive w ep [1]) s = (.ok (), s') := by
    rw [exec_handleReceive, Act.exec_rethrowAs_ok]
    exact handled
  have gone : s'.mapSearch 0 = none := (reply_search sane here handled).trans (if_pos ended)
  have ends : StoreEnds w s₀ "0c" d s (q.offer (w.parse [1]).2.contactList).shortList
      (w.parse [1]).2.toId s' :=
    .later asked.run trivial .start (by rw [token]; exact here) (.inr (.inr (.inl rfl))) received
      trivial (by rw [token]; exact gone)
  obtain ⟨kept, exact'⟩ := store_delivered_iff asked.reach₀ ends
  rw [token] at exact'
  obtain ⟨e, known, at'⟩ := asked.known
  have resolved : (w.resolve peerA.ep).isSome = true := by decide +kernel
  obtain ⟨uep, resolved⟩ := Option.isSome_iff_exists.mp resolved
  refine ⟨s₀, s, s', ep, asked.run, received, ?_, kept, ?_⟩
  · rw [token, gone]
  · rw [token]
    refine exact'.mpr ⟨c, Search.picks_subset picked, ?_, e, uep, key ▸ known, ?_, Nat.zero_le _⟩
    · rw [key, own]
      decide +kernel
    · rw [at', resolved]

/-- A node that knows nobody forgets the item and returns. -/
theorem store_lost :
    let w := World.simple []
    let d : DataItemProto := { title := "title", data := [1] }
    ∃ s₀ s' : Node, Reachable w s₀ ∧ Act.exec (iterativeStore w "0c" d) s₀ = (.ok (), s') ∧
      s'.mapSearch (tokenAt w s₀.draws) = none ∧ s'.dbStorage = s₀.dbStorage ∧
      ¬ StoreDelivered (tokenAt w s₀.draws) d (s₀.since s') := by
  intro w d
  obtain ⟨s₀, reach, own, alone, -⟩ := reachable_fresh (w := w) Sqlite.inOrder_sound 1 0 {}
  rw [← own] at alone
  obtain ⟨s', run, gone, kept, nothing⟩ := exec_iterativeStore_alone (w := w) (k := "0c") (d := d)
    reach.sane (by decide +kernel) alone
  refine ⟨s₀, s', reach, run, gone, kept, ?_⟩
  rw [nothing]
  rintro ⟨m, ep, seen, -⟩
  cases seen

end Node

end MiniDht
