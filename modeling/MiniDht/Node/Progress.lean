import MiniDht.Node.Meeting

/-!
# Searches make progress and end

A node or store search, over all the contact lists delivered to it. Every round that does
not end the search asks a contact it never asked before (`round_alive`), so there are no
more such rounds than keys the search was offered. Only a list delivered to a store search
for the zero id fails an assert instead (`search_progress_iff`).
-/

namespace MiniDht

open Lib

/-- The world in which a peer pings, and later names itself in an answer for the zero id. -/
def World.zeroed : World :=
  .simple [{ type := .sendPing, fromId := "03" },
    { type := .replyFindNode, fromId := "03", token := 0, toId := zeroId
      contactList := [{ key := "03", ep := ⟨"10.0.0.1", "1"⟩ }] }]

namespace Node

/-- A contact list delivered to a search, and the key the round is run for. -/
structure Delivery where
  contacts : List ContactProto
  key : String

/-- The contacts have endpoints and ids other than zero. -/
structure Delivery.Good (d : Delivery) : Prop where
  named : Search.AllNamed d.contacts
  nonzero : zeroId ∉ Search.keys d.contacts

/-- The keys of all contacts delivered. -/
def offeredKeys (ds : List Delivery) : List String :=
  ds.flatMap fun d => Search.keys d.contacts

/-- The life of the search under token `t` so far: the lists delivered to it, the contacts
it asked, and what has become of it. Between two rounds the node may change in any way
that leaves the search alone. -/
inductive Life (w : World) (t : Token) (q₀ : Search) :
    List Delivery → List String → Search → Prop where
  | start : Life w t q₀ [] [] q₀
  | round {ds : List Delivery} {asked : List String} {q q' : Search} {s s' : Node} {d : Delivery}
      (earlier : Life w t q₀ ds asked q) (here : s.mapSearch t = some q)
      (named : s.contactList.Named)
      (run : Act.exec (replyIterative w d.contacts t d.key) s = (.ok (), s'))
      (alive : s'.mapSearch t = some q') :
      Life w t q₀ (ds ++ [d]) (asked ++ recipients .sendFindNode t (s.since s')) q'

variable {w : World} {s : Node} {t : Token} {q : Search} {d : Delivery} {ds : List Delivery}
  {asked : List String} {type : SearchType}

/-- What holds of a search that is still in the map: the contacts asked are those marked
busy, each once, all of them were offered, and there are at least as many of them as
rounds. -/
structure Alive (type : SearchType) (ds : List Delivery) (asked : List String) (q : Search) :
    Prop where
  ready : q.Ready
  typed : q.searchType = type
  busy : asked.toFinset = q.mapNodeBusy
  distinct : asked.Nodup
  listed : ∀ c ∈ q.shortList, c.key ∈ offeredKeys ds
  offered : ∀ key ∈ asked, key ∈ offeredKeys ds
  enough : ds.length ≤ asked.length

/-- No more rounds than keys offered. -/
theorem Alive.bound (alive : Alive type ds asked q) :
    ds.length ≤ (offeredKeys ds).toFinset.card := by
  have inside : asked.toFinset ⊆ (offeredKeys ds).toFinset := by
    intro key member
    exact List.mem_toFinset.mpr (alive.offered key (List.mem_toFinset.mp member))
  calc ds.length ≤ asked.length := alive.enough
    _ = asked.toFinset.card := (List.toFinset_card_of_nodup alive.distinct).symm
    _ ≤ (offeredKeys ds).toFinset.card := Finset.card_le_card inside

/-! ## One round -/

theorem offeredKeys_concat (ds : List Delivery) (d : Delivery) :
    offeredKeys (ds ++ [d]) = offeredKeys ds ++ Search.keys d.contacts := by
  simp [offeredKeys]

/-- A short list holds nothing but contacts offered. -/
theorem Alive.listed_offer (alive : Alive type ds asked q) {c : ContactProto}
    (member : c ∈ (q.offer d.contacts).shortList) : c.key ∈ offeredKeys (ds ++ [d]) := by
  rw [offeredKeys_concat, List.mem_append]
  rcases Search.mem_offer member with old | new
  · exact .inl (alive.listed c old)
  · exact .inr (List.mem_map_of_mem new)

/-- Whom a round picks was offered to the search. -/
theorem Alive.listed_picks (alive : Alive type ds asked q) {c : ContactProto}
    (member : c ∈ q.picks d.contacts) : c.key ∈ offeredKeys (ds ++ [d]) :=
  alive.listed_offer (Search.picks_subset member)

/-- Where a round does not end the search, somebody is left to ask. -/
theorem unasked_ne_nil (other : q.searchType ≠ .value) {lc : List ContactProto}
    (goes : q.ends lc = false) : (q.offer lc).unasked ≠ [] := by
  intro none
  rw [Search.ends_of_ne other, Search.settled, Bool.or_eq_false_iff, Search.bucketFull,
    Bool.or_eq_false_iff, Search.exhausted_iff.mpr none] at goes
  exact absurd goes.2.2 (by simp)

/-- A round that does not end the search keeps the invariant, and asks someone. -/
theorem Alive.next (alive : Alive type ds asked q) (other : type ≠ .value)
    (named : Search.AllNamed d.contacts) (safe : RoundSafe q d.contacts d.key)
    (goes : q.ends d.contacts = false) :
    Alive type (ds ++ [d]) (asked ++ Search.keys (q.picks d.contacts)) (q.next d.contacts) := by
  have picks : q.picks d.contacts = (q.offer d.contacts).unasked.take alpha := by
    simp [Search.picks, goes]
  have picked : ∀ c ∈ q.picks d.contacts,
      c ∈ (q.offer d.contacts).shortList ∧ c.key ∉ q.mapNodeBusy := by
    intro c member
    rw [picks] at member
    simpa using Search.free_subset (List.mem_of_mem_take member)
  have some : (q.picks d.contacts).length ≠ 0 := by
    have left := unasked_ne_nil (alive.typed ▸ other) goes
    simp [picks, alpha, left]
  constructor
  · exact alive.ready.next named safe.1
  · simp [Search.next, Search.asks, alive.typed]
  · ext key
    simp [Search.next, Search.asks, ← alive.busy, or_comm]
  · refine List.nodup_append'.mpr ⟨alive.distinct, ?_, ?_⟩
    · have list := (alive.ready.offer named).keys_nodup
      rw [picks]
      exact list.sublist (((List.take_sublist _ _).trans List.filter_sublist).map _)
    · intro key early late
      obtain ⟨c, member, rfl⟩ := List.mem_map.mp late
      refine (picked c member).2 ?_
      rw [← alive.busy]
      exact List.mem_toFinset.mpr early
  · exact fun c member => alive.listed_offer member
  · intro key known
    rcases List.mem_append.mp known with early | late
    · rw [offeredKeys_concat]
      exact List.mem_append_left _ (alive.offered key early)
    · obtain ⟨c, member, rfl⟩ := List.mem_map.mp late
      exact alive.listed_picks member
  · have := alive.enough
    simp [Search.keys]
    omega

/-- What is left of a search by a round, and what the round asked. -/
theorem round_alive (alive : Alive type ds asked q) (other : type ≠ .value)
    (here : s.mapSearch t = some q) (list : s.contactList.Named)
    (named : Search.AllNamed d.contacts) (safe : RoundSafe q d.contacts d.key) :
    ∃ s', Act.exec (replyIterative w d.contacts t d.key) s = (.ok (), s') ∧
      ((s'.mapSearch t = none ∧ recipients .sendFindNode t (s.since s') = []) ∨
        ∃ q', s'.mapSearch t = some q' ∧
          1 ≤ (recipients .sendFindNode t (s.since s')).length ∧
          (recipients .sendFindNode t (s.since s')).length ≤ alpha ∧
          Alive type (ds ++ [d]) (asked ++ recipients .sendFindNode t (s.since s')) q') := by
  have other' : q.searchType ≠ .value := alive.typed ▸ other
  refine ⟨_, exec_replyIterative here alive.ready named list safe, ?_⟩
  rw [since_of_log (l := roundEvents w s q d.contacts t d.key) (by simp), recipients_roundEvents,
    taken_safe safe,
    logged_mapSearch, afterRound_at]
  cases ended : q.ends d.contacts with
  | true =>
    refine .inl ⟨by simp, ?_⟩
    cases typed : q.searchType with
    | node => simp [Search.picks, ended, typed, Search.keys]
    | value => exact absurd typed other'
    | store => simp [roundType, typed, ended]
  | false =>
    have asks : roundType q d.contacts = .sendFindNode := by
      cases typed : q.searchType with
      | node => simp [roundType, typed]
      | value => exact absurd typed other'
      | store => simp [roundType, typed, ended]
    have left := unasked_ne_nil other' ended
    rw [if_pos asks]
    refine .inr ⟨q.next d.contacts, by simp, ?_, ?_, alive.next other named safe ended⟩
    · have := List.length_pos_iff.mpr left
      simp [Search.keys, Search.picks, ended, alpha]
      omega
    · simp [Search.keys, Search.picks, ended]

/-! ## The whole life -/

theorem alive_start (src dest : String) (b : DataItemProto) :
    Alive type [] [] { Search.new src dest type with buffer := b } where
  ready := Search.new_ready src dest type b none "" fun _ => rfl
  typed := rfl
  busy := rfl
  distinct := List.nodup_nil
  listed := by simp [Search.new]
  offered := by simp
  enough := le_refl _

/-- The invariant holds all along the life of a search: rounds that returned were safe. -/
theorem Life.alive {q₀ : Search} (life : Life w t q₀ ds asked q) (start : Alive type [] [] q₀)
    (other : type ≠ .value) (good : ∀ d ∈ ds, d.Good) : Alive type ds asked q := by
  induction life with
  | start => exact start
  | @round ds asked q q' s s' d _ here named run left ih =>
    have before := ih fun d hd => good d (List.mem_append_left _ hd)
    have now : d.Good := good d (List.mem_append_right _ List.mem_cons_self)
    have safe : RoundSafe q d.contacts d.key := by
      by_contra risky
      have aborted := exec_replyIterative_abort (w := w) here before.ready now.named named risky
      rw [run] at aborted
      cases aborted
    obtain ⟨s'', run', outcome⟩ := round_alive (w := w) before other here named now.named safe
    obtain rfl : s' = s'' := congrArg Prod.snd (run.symm.trans run')
    rcases outcome with ⟨gone, -⟩ | ⟨q'', found, -, -, after⟩
    · rw [gone] at left
      cases left
    · rw [found] at left
      exact Option.some.inj left ▸ after

/-- A delivery makes progress: it returns, and either the search is erased or between one and
`ALPHA` contacts are asked, none of which was asked before. -/
def Progresses (w : World) (t : Token) (asked : List String) (d : Delivery) (s : Node) : Prop :=
  ∃ s', Act.exec (replyIterative w d.contacts t d.key) s = (.ok (), s') ∧
    ((s'.mapSearch t = none ∧ recipients .sendFindNode t (s.since s') = []) ∨
      ∃ q', s'.mapSearch t = some q' ∧
        1 ≤ (recipients .sendFindNode t (s.since s')).length ∧
        (recipients .sendFindNode t (s.since s')).length ≤ alpha ∧
        (asked ++ recipients .sendFindNode t (s.since s')).Nodup)

/-- A live search has nothing but good contacts on its short list. -/
theorem Alive.short_nonzero (alive : Alive type ds asked q) (good : ∀ d ∈ ds, d.Good) :
    zeroId ∉ Search.keys q.shortList := by
  intro there
  obtain ⟨c, member, zero⟩ := List.mem_map.mp there
  obtain ⟨d, delivered, offered⟩ := List.mem_flatMap.mp (alive.listed c member)
  exact (good d delivered).nonzero (zero ▸ offered)

/-- A delivery makes progress unless it is one to a store search, made for the zero id. -/
theorem Alive.progresses_iff (alive : Alive type ds asked q) (other : type ≠ .value)
    (good : ∀ d ∈ ds, d.Good) (here : s.mapSearch t = some q) (named : s.contactList.Named)
    (now : d.Good) : Progresses w t asked d s ↔ (type = .store → d.key ≠ zeroId) := by
  constructor
  · rintro ⟨s', run, -⟩
    have safe : RoundSafe q d.contacts d.key := by
      by_contra risky
      have aborted := exec_replyIterative_abort (w := w) here alive.ready now.named named risky
      rw [run] at aborted
      cases aborted
    exact fun store => safe.2 (alive.typed.trans store)
  · intro keyed
    have safe : RoundSafe q d.contacts d.key :=
      roundSafe_of_nonzero (alive.short_nonzero good) now.nonzero fun store =>
        keyed (alive.typed ▸ store)
    obtain ⟨s', run, outcome⟩ := round_alive (w := w) alive other here named now.named safe
    refine ⟨s', run, outcome.imp_right ?_⟩
    rintro ⟨q', found, some, few, after⟩
    exact ⟨q', found, some, few, after.distinct⟩

/-! ## A node that has asked a peer -/

/-- A node that has met the peer has begun to store an item, and asked it. -/
theorem zeroed_asked : ∃ (src : String) (s : Node) (ds : List Delivery) (asked : List String) (q : Search),
    Reachable .zeroed s ∧ Life .zeroed 0 { Search.new src "0c" .store with buffer := {} } ds asked q ∧
      ds.length = 1 ∧ (∀ d ∈ ds, d.Good) ∧ s.mapSearch 0 = some q := by
  obtain ⟨s₀, reach, -, -, -, c, contact, -, alone, fresh⟩ := reachable_met (w := .zeroed)
    Sqlite.inOrder_sound 1 0 {} { address := "10.0.0.1", port := 1, printed := by simp } [0] rfl rfl
    (by decide) (by decide)
  have nonzero : c.key ≠ zeroId := by
    rw [contact]
    decide
  have ready := store_ready s₀.id "0c" {}
  obtain ⟨s, run, here, -⟩ := exec_newSearch_met (w := .zeroed) .store
    (fun search => { search with buffer := {} }) reach.sane nonzero alone fresh rfl ready rfl rfl
    fun _ => by decide
  have first := (exec_newSearch_start (w := .zeroed) reach.sane .store
    (fun search => { search with buffer := {} }) ready).symm.trans run
  have begun := (reach.sane.searching (w := .zeroed) ready).proximate "0c"
  have began : ((s₀.searching .zeroed { Search.new s₀.id "0c" .store with buffer := {} }).proximate
      "0c").mapSearch (tokenAt .zeroed s₀.draws) = some { Search.new s₀.id "0c" .store with buffer := {} } :=
    withSearch_at
  have token : tokenAt .zeroed s₀.draws = 0 := tokenAt_simple _ _
  rw [token] at here began first
  refine ⟨s₀.id, s, [⟨s₀.contactList.proximity "0c", "0c"⟩], _, _, reach.store (b := {}) run trivial,
    .round .start began begun.named first here, rfl, fun d member => ?_, here⟩
  rw [List.mem_singleton.mp member]
  refine ⟨Bucket.proximity_named reach.sane.named "0c", ?_⟩
  rw [Bucket.proximity_one alone fresh "0c"]
  simpa [Search.keys] using nonzero.symm

/-- An answer whose round is not safe brings the process down. -/
theorem receive_aborts {ep : Endpoint} {body : List UInt8} {m : MessageProto} (sane : s.Sane)
    (parsed : (w.parse body).2 = m) (type : m.type = .replyFindNode) (here : s.mapSearch m.token = some q)
    (offered : Search.AllNamed m.contactList) (nonzero : zeroId ∉ Search.keys m.contactList)
    (risky : ¬ RoundSafe q m.contactList m.toId) :
    (Act.exec (handleReceive w ep body) s).1 = .error .assertion := by
  have sane' : ({ s with senderEndpoint := ep } : Node).Sane := sane.congr rfl
  obtain ⟨s₁, after, round⟩ := exec_handleReplyFindNode (w := w)
    (s := { s with senderEndpoint := ep }) sane' here offered nonzero
  have aborts := exec_replyIterative_abort (w := w) (after.mapSearch ▸ here) (sane.ready _ _ here) offered
    (sane'.congr after.core).named risky
  have handled : Act.exec (handleMessageFrom w m ep.proto) { s with senderEndpoint := ep } =
      (.error .assertion, (Act.exec (replyIterative w m.contactList m.token m.toId) s₁).2) := by
    rw [handleMessageFrom]
    simp only [handleMessage, type]
    exact round.trans (Prod.ext aborts rfl)
  rw [exec_handleReceive, parsed, Act.exec_rethrowAs, handled]

/-! ## Progress -/

/-- **When searches make progress and end.** A node or store search never asks a contact twice,
and it outlives no more deliveries than it was offered keys. The next delivery returns, and
ends the search or asks between one and `ALPHA` contacts not asked before, if and only if it
is not one to a store search made for the zero id. -/
theorem search_progress_iff {src dest : String} {b : DataItemProto} (other : type ≠ .value)
    (life : Life w t { Search.new src dest type with buffer := b } ds asked q)
    (good : ∀ d ∈ ds, d.Good) :
    asked.Nodup ∧ ds.length ≤ (offeredKeys ds).toFinset.card ∧
      ∀ (s : Node) (d : Delivery), s.mapSearch t = some q → s.contactList.Named → d.Good →
        (Progresses w t asked d s ↔ (type = .store → d.key ≠ zeroId)) := by
  have alive := life.alive (alive_start src dest b) other good
  exact ⟨alive.distinct, alive.bound, fun s d here named now =>
    alive.progresses_iff other good here named now⟩

/-- The theorem at a store search that has asked one contact, which names itself again. -/
theorem search_progress_iff_asked :
    ∃ (src : String) (s : Node) (ds : List Delivery) (asked : List String) (q : Search),
      Life .zeroed 0 { Search.new src "0c" .store with buffer := {} } ds asked q ∧ ds.length = 1 ∧
        1 ≤ (offeredKeys ds).toFinset.card ∧
        Progresses .zeroed 0 asked ⟨[{ key := "03", ep := ⟨"10.0.0.1", "1"⟩ }], "0c"⟩ s := by
  obtain ⟨src, s, ds, asked, q, reach, life, one, good, here⟩ := zeroed_asked
  obtain ⟨-, bound, next⟩ := search_progress_iff (by decide : SearchType.store ≠ .value) life good
  exact ⟨src, s, ds, asked, q, life, one, one ▸ bound,
    (next s _ here reach.sane.named ⟨by decide, by decide⟩).mpr fun _ => by decide⟩

/-- A store search is under way, and an answer to it comes in for the zero id: an assert fails, so
the search is neither erased nor asks anybody. -/
theorem search_progress_zeroed :
    let d : Delivery := ⟨[{ key := "03", ep := ⟨"10.0.0.1", "1"⟩ }], zeroId⟩
    ∃ (src : String) (s : Node) (ds : List Delivery) (asked : List String) (q : Search),
      Reachable .zeroed s ∧
      Life .zeroed 0 { Search.new src "0c" .store with buffer := {} } ds asked q ∧
      (∀ d ∈ ds, d.Good) ∧ s.mapSearch 0 = some q ∧ s.contactList.Named ∧ d.Good ∧
      ¬ Progresses .zeroed 0 asked d s ∧
      (Act.exec (handleReceive .zeroed s.senderEndpoint [1]) s).1 = .error .assertion := by
  intro d
  obtain ⟨src, s, ds, asked, q, reach, life, -, good, here⟩ := zeroed_asked
  have alive := life.alive (alive_start src "0c" {}) (by decide) good
  have now : d.Good := ⟨by decide, by decide⟩
  have stops := (alive.progresses_iff (w := .zeroed) (by decide) good here reach.sane.named now).not.mpr
    fun keyed => keyed rfl rfl
  have aborts : (Act.exec (handleReceive .zeroed s.senderEndpoint [1]) s).1 = .error .assertion :=
    receive_aborts reach.sane rfl rfl here now.named now.nonzero fun safe => safe.2 alive.typed rfl
  exact ⟨src, s, ds, asked, q, reach, life, good, here, reach.sane.named, now, stops, aborts⟩

end Node

end MiniDht
