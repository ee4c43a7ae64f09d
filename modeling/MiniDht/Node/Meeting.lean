import MiniDht.Node.Replies

/-!
# The first peer

A node started with an empty backup knows nobody. The first peer that pings it becomes its
one contact, and the searches it then begins ask that contact.
-/

namespace MiniDht

open Lib

namespace Search

variable {s : Search} {c : ContactProto}

/-- The first contact offered is the whole short list. -/
theorem offer_first (fit : s.Fit) (fresh : s.shortList = []) : (s.offer [c]).shortList = [c] := by
  have only : ∀ d ∈ (s.offer [c]).shortList, d = c := by
    intro d member
    simpa [fresh] using mem_offer member
  have one : (s.offer [c]).ids.length = 1 := by
    have length := (s.offer_closest fit.nearest [c]).length
    simpa [ids, fresh, idSet, bucketSize] using length
  have single : (s.offer [c]).shortList.length = 1 := by simpa [ids] using one
  obtain ⟨d, list⟩ := List.length_eq_one_iff.mp single
  rw [list, only d (by simp [list])]

/-- A fresh search goes on to ask the first contact it is offered. -/
theorem next_first (ready : s.Ready) (fresh : s.shortList = []) (begun : s.mapNodeBusy = ∅) :
    s.ends [c] = false ∧ s.picks [c] = [c] ∧ (s.next [c]).shortList = [c] ∧
      (s.next [c]).mapNodeBusy = {c.key} := by
  have list := offer_first (c := c) ready.toFit fresh
  have left : (s.offer [c]).unasked = [c] := by simp [unasked, free, list, begun]
  have goes : s.ends [c] = false :=
    ends_false (by simp [list, bucketSize]) (.inl fresh) (by simp [left])
  have picks : s.picks [c] = [c] := by simp [Search.picks, goes, left, alpha]
  exact ⟨goes, picks, by simp [next, asks, list], by simp [next, asks, picks, keys, begun]⟩

/-! ### One contact asked, and another -/

section Two

variable {s : Search} {a b : ContactProto} (ready : s.Ready) (list : s.shortList = [a])
  (busy : s.mapNodeBusy = {a.key}) (store : s.searchType = .store)
include list busy store

/-- Offered the contact it has asked, a search is over. -/
theorem ends_again {c : ContactProto} (same : c.key = a.key) : s.ends [c] = true := by
  refine ends_of_asked (by simp [store]) fun d member => ?_
  rcases mem_offer member with old | new
  · simpa [list, busy] using congrArg ContactProto.key (List.mem_singleton.mp (list ▸ old))
  · simp [busy, List.mem_singleton.mp new, same]

include ready

/-- That round takes it once more. -/
theorem picks_again {c : ContactProto} (same : c.key = a.key) : ∃ d ∈ s.picks [c], d.key = a.key := by
  have whole : s.picks [c] = (s.offer [c]).shortList := by
    rw [picks, if_pos (ends_again list busy store same), if_pos store]
  have there : nodeId a ∈ (s.offer [c]).ids := by
    have closest := s.offer_closest ready.nearest [c]
    rw [← List.mem_toFinset, closest.covers] <;> simp [ids, list, idSet, nodeId, same, bucketSize]
  obtain ⟨d, member, -⟩ := List.mem_map.mp there
  refine ⟨d, whole ▸ member, ?_⟩
  rcases mem_offer member with old | new
  · rw [list, List.mem_singleton] at old
    rw [old]
  · rw [List.mem_singleton.mp new, same]

omit busy store in
/-- There is room for one more contact. -/
theorem shortList_other (apart : nodeId a ≠ nodeId b) :
    (s.offer [b]).shortList.length = 2 ∧ b ∈ (s.offer [b]).shortList := by
  have closest := s.offer_closest ready.nearest [b]
  have all : (s.offer [b]).ids.toFinset = {nodeId a} ∪ {nodeId b} := by
    rw [closest.covers] <;> simp [ids, list, idSet, Finset.card_pair apart, bucketSize]
  constructor
  · have length := closest.card_toFinset
    rw [all] at length
    simpa [ids, Finset.card_pair apart] using length.symm
  · have there : nodeId b ∈ (s.offer [b]).ids := by
      rw [← List.mem_toFinset, all]
      simp
    obtain ⟨c, member, same⟩ := List.mem_map.mp there
    rcases mem_offer member with old | new
    · rw [list, List.mem_singleton] at old
      rw [old] at same
      exact absurd same apart
    · obtain rfl : c = b := List.mem_singleton.mp new
      exact member

omit store in
theorem unasked_other (apart : nodeId a ≠ nodeId b) :
    b ∈ (s.offer [b]).unasked ∧ (s.offer [b]).unasked.length ≤ alpha := by
  obtain ⟨two, there⟩ := shortList_other ready list apart
  constructor
  · have other : b.key ≠ a.key := fun same => apart (by rw [nodeId, nodeId, same])
    rw [unasked, free, List.mem_filter]
    exact ⟨there, by simpa [busy] using other⟩
  · have fewer := List.length_filter_le (fun c => c.key ∉ (s.offer [b]).mapNodeBusy)
      (s.offer [b]).shortList
    unfold unasked free alpha
    omega

omit store in
/-- Offered one more contact first, it goes on, and asks that one. -/
theorem ends_other (apart : nodeId a ≠ nodeId b) : s.ends [b] = false ∧ b ∈ s.picks [b] := by
  obtain ⟨two, -⟩ := shortList_other ready list apart
  obtain ⟨left, few⟩ := unasked_other ready list busy apart
  have goes : s.ends [b] = false := by
    refine ends_false (by rw [two]; decide) (.inr ?_) (List.ne_nil_of_mem left)
    intro unchanged
    rw [offer_of_ne (by simp)] at two
    simp [← unchanged, list] at two
  refine ⟨goes, ?_⟩
  simpa [picks, goes, List.take_of_length_le few] using left

/-- The first contact again, and it is over. -/
theorem ends_last (apart : nodeId a ≠ nodeId b) : (s.next [b]).ends [a] = true := by
  obtain ⟨goes, -⟩ := ends_other ready list busy apart
  obtain ⟨-, few⟩ := unasked_other ready list busy apart
  refine ends_of_asked (by simp [store]) fun c member => ?_
  rcases mem_offer member with old | new
  · exact next_asked goes few old
  · rw [List.mem_singleton.mp new]
    simp [next, asks, busy]

end Two

end Search

/-- Two fixed peers: one the node knows, and one it may hear of. -/
def peerA : ContactProto := { key := "0a", ep := { address := "10.0.0.1", port := "1" } }

@[inherit_doc peerA]
def peerB : ContactProto := { key := "0b", ep := { address := "10.0.0.2", port := "1" } }

/-- The world in which the first peer pings. -/
def World.pinged : World := .simple [{ type := .sendPing, fromId := peerA.key }]

namespace Node

variable {w : World} {s : Node}

/-- A node whose backup is empty pings nobody when it starts. -/
theorem exec_restoreFromBackup_empty (sound : w.backup.Sound) (key : BitVec keySize)
    (maxRecords : Nat) (storage : Tables) :
    Act.exec (restoreFromBackup w) (initial key maxRecords storage []) =
      (.ok (), { initial key maxRecords storage [] with dbBackup := { tables := [], calls := 1 } }) := by
  have reads : selectValues.Reads := by simp [Stmt.reads_iff, selectValues]
  have rows : w.backup.arrange 0 [] = [] := (w.backup.arrange_perm 0 []).eq_nil
  have listed : Act.exec (DbKeyValue.listValue w.backup) ⟨[], 0⟩ = (.ok [], ⟨[], 1⟩) := by
    have run := exec_sound (f := ("SQL error in SELECT value : " ++ ·)) sound reads
      (c := ⟨[], 0⟩) (t := []) (r := []) rfl
    rw [rows] at run
    rw [DbKeyValue.listValue, Act.exec_bind_ok run]
    rfl
  have stored : Act.exec (onBackup (DbKeyValue.listValue w.backup))
      (initial key maxRecords storage []) =
        (.ok [], { initial key maxRecords storage [] with dbBackup := { tables := [], calls := 1 } }) := by
    rw [onBackup, Act.exec_zoom]
    simp only [initial, listed]
  rw [restoreFromBackup, Act.exec_bind_ok stored]
  rfl

theorem reachable_fresh (sound : w.backup.Sound) (key : BitVec keySize) (maxRecords : Nat)
    (storage : Tables) :
    ∃ s, Reachable w s ∧ s.id = keyToString key ∧ s.contactList = .new (keyToString key) ∧
      s.dbStorage.tables = storage :=
  ⟨_, .start (exec_restoreFromBackup_empty sound key maxRecords storage), rfl, rfl, rfl⟩

/-- A node after the first peer with key `k` has been heard of from `ep`. -/
structure MetFirst (s₀ s : Node) (k : String) (ep : Endpoint) (c : ContactProto) : Prop where
  id : s.id = s₀.id
  searches : s.mapSearch = s₀.mapSearch
  storage : s.dbStorage = s₀.dbStorage
  key : c.key = k
  ep : c.ep = ep.proto
  alone : s.contactList.entries = [(s.contactList.common c.key, c)]
  fresh : s.contactList.changed = true

/-- A node that knew nobody after a ping `m` from `ep`. -/
def afterFirst (w : World) (s₀ : Node) (ep : Endpoint) (m : MessageProto) : Node :=
  let c := Bucket.newContact (w.clock s₀.ticks) m.fromId ep.proto
  let list : Bucket := { Bucket.new s₀.id with
    entries := [((Bucket.new s₀.id).common m.fromId, c)] }
  let s₁ : Node := { s₀ with senderEndpoint := ep, ticks := s₀.ticks + 1, contactList := list }
  s₁.logged (sendEvents w s₀.id list
    { type := .replyPing, fromId := s₀.id, toId := m.fromId, token := m.token })

/-- The ping is answered. -/
theorem since_afterFirst {s₀ : Node} {ep uep : Endpoint} {m : MessageProto} (other : m.fromId ≠ s₀.id)
    (finds : w.resolve ep.proto = some uep)
    (fits : w.byteSize { type := .replyPing, fromId := s₀.id, toId := m.fromId, token := m.token } ≤
      maxBodyLength) :
    let pong : MessageProto := { type := .replyPing, fromId := s₀.id, toId := m.fromId, token := m.token }
    s₀.since (afterFirst w s₀ ep m) = [.request pong, .handed pong ep.proto, .delivered pong uep] := by
  intro pong
  let c := Bucket.newContact (w.clock s₀.ticks) m.fromId ep.proto
  let list : Bucket := { Bucket.new s₀.id with
    entries := [((Bucket.new s₀.id).common m.fromId, c)] }
  have log : (afterFirst w s₀ ep m).log = s₀.log ++ sendEvents w s₀.id list pong := rfl
  have found : list.lookup pong.toId = some c := Bucket.lookup_one (b := list) (c := c) rfl
  rw [since_of_log log, sendEvents_found other found, handOver, show c.ep = ep.proto from rfl, finds]
  have small : ¬ maxBodyLength < w.byteSize pong := not_lt.mpr fits
  simp only [if_neg small]

theorem exec_receive_afterFirst {s₀ : Node} (nobody : s₀.contactList = .new s₀.id) (ep : Endpoint)
    (body : List UInt8) {m : MessageProto} (parsed : (w.parse body).2 = m)
    (ping : m.type = .sendPing) (nonzero : m.fromId ≠ zeroId) (other : m.fromId ≠ s₀.id) :
    Act.exec (handleReceive w ep body) s₀ = (.ok (), afterFirst w s₀ ep m) := by
  let c := Bucket.newContact (w.clock s₀.ticks) m.fromId ep.proto
  let list : Bucket := { Bucket.new s₀.id with
    entries := [((Bucket.new s₀.id).common m.fromId, c)] }
  let s₁ : Node := { s₀ with senderEndpoint := ep, ticks := s₀.ticks + 1, contactList := list }
  have added : Act.exec (addContact w m.fromId ep.proto) { s₀ with senderEndpoint := ep } =
      (.ok (), s₁) := by
    have tick := exec_updateTime w { s₀ with senderEndpoint := ep }
    have filed : s₀.contactList.addContact w.evalOrder w.pastEnd (w.clock s₀.ticks) m.fromId
        ep.proto = .ok list := by
      rw [nobody]
      exact Bucket.addContact_first ep.proto_named other
    rw [addContact, Act.exec_bind_ok tick, Act.exec_bind_ok (Act.exec_get _), filed,
      Act.exec_bind_ok (Act.exec_ofExcept _ _)]
    rfl
  have named : list.Named := by
    intro e member
    rw [List.mem_singleton.mp member]
    exact ep.proto_named
  have replied := exec_replyPing (w := w) (t := m.token) (s := s₁) nonzero named
  have handled : Act.exec (handleMessageFrom w m ep.proto) { s₀ with senderEndpoint := ep } =
      (.ok (), afterFirst w s₀ ep m) := by
    rw [handleMessageFrom, ping]
    simp only []
    rw [Act.exec_bind_ok added, handleMessage, ping]
    exact replied
  rw [exec_handleReceive, parsed, Act.exec_rethrowAs_ok]
  exact handled

/-- The ping of the first peer makes it the one contact. -/
theorem exec_receive_first {s₀ : Node} (nobody : s₀.contactList = .new s₀.id) (ep : Endpoint)
    (body : List UInt8) {m : MessageProto} (parsed : (w.parse body).2 = m)
    (ping : m.type = .sendPing) (nonzero : m.fromId ≠ zeroId) (other : m.fromId ≠ s₀.id) :
    ∃ s c, Act.exec (handleReceive w ep body) s₀ = (.ok (), s) ∧ MetFirst s₀ s m.fromId ep c :=
  ⟨afterFirst w s₀ ep m, Bucket.newContact (w.clock s₀.ticks) m.fromId ep.proto,
    exec_receive_afterFirst nobody ep body parsed ping nonzero other,
    rfl, rfl, rfl, rfl, rfl, rfl, rfl⟩

/-- **The first peer.** Its ping makes it the one contact of a node that has just started. -/
theorem reachable_met (sound : w.backup.Sound) (key : BitVec keySize) (maxRecords : Nat)
    (storage : Tables) (ep : Endpoint) (body : List UInt8) {m : MessageProto}
    (parsed : (w.parse body).2 = m) (ping : m.type = .sendPing) (nonzero : m.fromId ≠ zeroId)
    (other : m.fromId ≠ keyToString key) :
    ∃ s, Reachable w s ∧ s.id = keyToString key ∧ (∀ t, s.mapSearch t = none) ∧
      s.dbStorage.tables = storage ∧
      ∃ c, c.key = m.fromId ∧ c.ep = ep.proto ∧
        s.contactList.entries = [(s.contactList.common c.key, c)] ∧
        s.contactList.changed = true := by
  have start := Reachable.start (exec_restoreFromBackup_empty sound key maxRecords storage)
  obtain ⟨s, c, received, met⟩ := @exec_receive_first w
    { initial key maxRecords storage [] with dbBackup := { tables := [], calls := 1 } }
    rfl ep body m parsed ping nonzero other
  refine ⟨s, start.receive received trivial, met.id, fun t => ?_, ?_, c, met.key, met.ep, met.alone,
    met.fresh⟩
  · rw [met.searches]
    rfl
  · rw [met.storage]
    rfl

/-- The first search of a node with one contact asks that contact. -/
theorem exec_newSearch_met {k : String} (type : SearchType) (fill : Search → Search)
    (sane : s.Sane) {c : ContactProto} (nonzero : c.key ≠ zeroId)
    (alone : s.contactList.entries = [(s.contactList.common c.key, c)])
    (fresh : s.contactList.changed = true) {q : Search} (begun : fill (Search.new s.id k type) = q)
    (ready : q.Ready) (nothing : q.shortList = []) (nobody : q.mapNodeBusy = ∅)
    (keyed : q.searchType = .store → k ≠ zeroId) :
    ∃ s', Act.exec (do
          let t ← newSearch w k type fill
          startNodeLookup w t k) s = (.ok (), s') ∧
      s'.mapSearch (tokenAt w s.draws) = some (q.next [{ key := c.key, ep := c.ep }]) ∧
      s'.id = s.id ∧ ∀ key, s'.contactList.lookup key = s.contactList.lookup key := by
  have list : s.contactList.proximity k = [{ key := c.key, ep := c.ep }] :=
    Bucket.proximity_one alone fresh k
  have offered := Bucket.proximity_named sane.named k
  obtain ⟨goes, picks, -, -⟩ := Search.next_first (c := { key := c.key, ep := c.ep }) ready nothing
    nobody
  subst begun
  have begun := (sane.searching (w := w) ready).proximate k
  have safe : RoundSafe (fill (Search.new s.id k type)) (s.contactList.proximity k) k := by
    refine ⟨?_, keyed⟩
    rw [list, picks]
    simpa [Search.keys] using Ne.symm nonzero
  refine ⟨_, (exec_newSearch_start sane type fill ready).trans
    (exec_replyIterative withSearch_at ready offered begun.named safe), ?_, ?_, ?_⟩
  · rw [logged_mapSearch, afterRound_at, list, goes]
    simp
  · simp [searching, proximate, withSearch]
  · intro key
    rw [logged_contactList, afterRound_contactList]
    exact Bucket.lookup_congr (by simp [searching, proximate, withSearch])
      (by simp [searching, proximate, withSearch]) key

/-- A node with one contact `a` has begun to store an item under `k`, and asked `a`. -/
structure AskedOne (w : World) (s₀ s : Node) (q : Search) (k : String) (b : DataItemProto)
    (a : ContactProto) : Prop where
  reach₀ : Reachable w s₀
  run : Act.exec (iterativeStore w k b) s₀ = (.ok (), s)
  here : s.mapSearch (tokenAt w s₀.draws) = some q
  store : q.searchType = .store
  list : q.shortList = [a]
  busy : q.mapNodeBusy = {a.key}
  item : q.buffer = b
  known : ∃ c, s.contactList.lookup a.key = some c ∧ c.ep = a.ep
  others : ∀ key, key ≠ a.key → s.contactList.lookup key = none

theorem AskedOne.reach {s₀ : Node} {q : Search} {k : String} {b : DataItemProto} {a : ContactProto}
    (asked : AskedOne w s₀ s q k b a) : Reachable w s :=
  asked.reach₀.store asked.run trivial

/-- A node that has met one peer comes to have asked it. -/
theorem reachable_store (sound : w.backup.Sound) (key : BitVec keySize) (ep : Endpoint)
    (body : List UInt8) {m : MessageProto} {k : String} (b : DataItemProto)
    (parsed : (w.parse body).2 = m) (ping : m.type = .sendPing) (nonzero : m.fromId ≠ zeroId)
    (other : m.fromId ≠ keyToString key) (keyed : k ≠ zeroId) :
    ∃ s₀ s q, s.id = keyToString key ∧ AskedOne w s₀ s q k b { key := m.fromId, ep := ep.proto } := by
  obtain ⟨s, reach, own, -, -, c, contact, at', alone, fresh⟩ := reachable_met sound
    key 0 {} ep body parsed ping nonzero other
  let q₀ : Search := { Search.new s.id k .store with buffer := b }
  obtain ⟨s', run, here, same, known⟩ := exec_newSearch_met (w := w) (q := q₀)
    .store (fun search => { search with buffer := b }) reach.sane
    (by rw [contact]; exact nonzero) alone fresh rfl (store_ready s.id k b) rfl rfl fun _ => keyed
  obtain ⟨-, -, list, busy⟩ := Search.next_first (c := { key := c.key, ep := c.ep })
    (store_ready s.id k b) rfl rfl
  refine ⟨s, s', q₀.next [{ key := c.key, ep := c.ep }], same.trans own, ?_⟩
  rw [← contact, ← at']
  constructor
  · exact reach
  · exact run
  · exact here
  · simp [q₀, Search.new]
  · exact list
  · exact busy
  · simp [Search.next, Search.asks, q₀]
  · exact ⟨c, by rw [known, Bucket.lookup_one alone], rfl⟩
  · intro key other
    rw [known, Bucket.lookup_others alone other]

/-- The first peer pings, and is asked, whatever else may arrive. -/
theorem askedOne_pinged (rest : List MessageProto) (b : DataItemProto) :
    ∃ s₀ s q, s.id = keyToString 1 ∧
      AskedOne (.simple ({ type := .sendPing, fromId := peerA.key } :: rest)) s₀ s q "0c" b peerA := by
  let w : World := .simple ({ type := .sendPing, fromId := peerA.key } :: rest)
  let ep : Endpoint := { address := "10.0.0.1", port := 1, printed := by decide }
  have proto : ep.proto = peerA.ep := by decide +kernel
  obtain ⟨s₀, s, q, own, asked⟩ := reachable_store (w := w) (k := "0c") Sqlite.inOrder_sound 1 ep [0] b
    rfl rfl (by decide +kernel : peerA.key ≠ zeroId) (by decide +kernel : peerA.key ≠ keyToString 1)
    (by decide +kernel)
  rw [proto] at asked
  exact ⟨s₀, s, q, own, asked⟩

theorem askedOne_simple :
    ∃ s₀ s q, s.id = keyToString 1 ∧ AskedOne .pinged s₀ s q "0c" {} peerA :=
  askedOne_pinged [] {}

/-- Where nothing is drawn but zeros, so is every token. -/
theorem tokenAt_simple (packets : List MessageProto) (draws : Nat) :
    tokenAt (.simple packets) draws = 0 := by
  show tokenAt (.simple []) 0 = 0
  decide

end Node

end MiniDht
