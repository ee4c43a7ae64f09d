import MiniDht.Node.Acknowledged
import MiniDht.Node.Expiry
import MiniDht.Node.Turns

/-!
# Records on their way from node to node

A clean-up publishes what has not expired with the time elapsed taken off its time to live,
in whole seconds, and who gets it puts the time of arrival in place of the stamp. What the
one rounds down the other has rounded down as well, so the date at which a copy expires is
that of the original, later by the time spent between the clean-ups and the arrivals.
-/

namespace MiniDht

open Lib

namespace Node

variable {w : World} {s s' : Node} {t : Token} {step : Section} {m : MessageProto}

/-! ## What a clean-up publishes -/

/-- A search that stores this item. -/
def Storing (b : DataItemProto) (q : Search) : Prop :=
  q.searchType = .store ∧ q.buffer = b

theorem Storing.next {b : DataItemProto} {q : Search} (storing : Storing b q)
    (lc : List ContactProto) : Storing b (q.next lc) :=
  ⟨(Search.next_searchType q lc).trans storing.1, (Search.offer_buffer q lc).trans storing.2⟩

/-- What such a search sends to be stored is the item. -/
theorem OfRound.stores {b : DataItemProto} (round : OfRound t (Storing b) m)
    (type : m.type = .sendStore) : m.dataItem = b := by
  obtain ⟨q, lc, id, k, key, ⟨store, item⟩, rfl⟩ := round
  simp only [roundMessage, store] at type ⊢
  split at type
  · rename_i ended
    rw [if_pos ended]
    exact item
  · cases type

/-- A search that a client's call begins stores the client's item. -/
theorem iterativeStore_stores {k : String} {b : DataItemProto} {out : Except Fault Unit}
    (sane : s.Sane) (run : Act.exec (iterativeStore w k b) s = (out, s')) (survives : Survives out) :
    (∀ q, s'.mapSearch (tokenAt w s.draws) = some q → Storing b q) ∧
      ∀ m ∈ searchRequests (tokenAt w s.draws) (s.since s'),
        OfRound (tokenAt w s.draws) (Storing b) m := by
  obtain ⟨-, here, first⟩ := searchRequests_begun sane rfl (store_ready s.id k b) run survives
  have storing : Storing b { Search.new s.id k .store with buffer := b } := ⟨rfl, rfl⟩
  refine ⟨fun q there => ?_, ?_⟩
  · rw [here] at there
    split at there
    · cases there
    · exact Option.some.inj there ▸ storing.next _
  · rw [first]
    exact OfRound.map storing _ _ _ _

/-- The section for a record begins a search, and the message is a store that the search
sends, at once or after some of its contacts have answered. -/
def Section.Publishes (w : World) (step : Section) (m : MessageProto) : Prop :=
  ∃ out s₁ turns sent s₂,
    Act.exec (cleanHeader w step.checkTime step.header) step.node = (out, s₁) ∧ Survives out ∧
    Follows w (tokenAt w step.node.draws) s₁ turns sent s₂ ∧
    m ∈ searchRequests (tokenAt w step.node.draws) (step.node.since s₁) ++ sent ∧
    m.type = .sendStore

theorem item_ofItem (n : Nat) (k : String) (d : DataItemProto) : (Record.ofItem n k d).item = d := by
  simp [Record.ofItem, Record.item]

/-- It is the record, with the time elapsed taken off. -/
theorem Section.Publishes.item {n : Nat} {k : String} {d : DataItemProto}
    (publishes : step.Publishes w m) (sound : w.storage.Sound) (keeping : Keeping w step.node)
    (clean : Clean step.header.key ∧ Clean step.header.title) (for' : step.For (.ofItem n k d))
    (live : ¬ step.Late) : m.dataItem = { d with ttl := d.ttl - step.elapsed } := by
  obtain ⟨out, s₁, turns, sent, s₂, run, survives, follows, member, type⟩ := publishes
  have sane : s₁.Sane :=
    keeping.reachable.sane.input (.cleanHeader step.checkTime step.header) run survives
  obtain ⟨rs, held, there, header⟩ := for'
  have pair : (Record.ofItem n k d).pair = (step.header.key, step.header.title) := by
    rw [header]
    rfl
  obtain ⟨calls, found⟩ := exec_cleanHeader_found sound held clean live there pair
  rw [found, item_ofItem] at run
  obtain ⟨out', begun, alive⟩ := Act.exec_of_rethrowAs run survives
  obtain ⟨start, first⟩ := iterativeStore_stores (s := step.node.holding rs calls)
    (keeping.reachable.sane.congr rfl) begun alive
  obtain ⟨-, -, later⟩ := follows.sound sane
    (J := Storing { d with ttl := d.ttl - step.elapsed })
    (fun q lc storing _ => Storing.next storing lc) start
  rcases List.mem_append.mp member with early | late
  · exact (first m early).stores type
  · exact (later m late).stores type

section For

variable {n : Nat} {k : String} {d : DataItemProto} (for' : step.For (.ofItem n k d))
  (time : Ticks (d.time.toNat * 1000000)) (since : (d.time.toNat : Int) * 1000000 ≤ step.checkTime)
  (clock : step.checkTime < 2 ^ 63)
include for' time since clock

/-- The stamp is in whole seconds, so rounding the time elapsed rounds the check time. -/
theorem Section.elapsed_toNat :
    (step.elapsed.toNat : Int) = step.checkTime / 1000000 - d.time.toNat := by
  have elapsed : Ticks (step.checkTime - d.time.toNat * 1000000) :=
    Ticks.below ⟨time.1.trans since, clock⟩ (sub_nonneg.mpr since) (sub_le_self _ time.1)
  obtain ⟨rs, held, member, header⟩ := for'
  rw [Section.elapsed, header]
  simp only [RecordStore.listed, Record.ofItem]
  rw [fromTimeT_of_ticks time, toNat_toUnsigned_toTimeT elapsed]
  omega

end For

/-! ## Copies -/

/-- A packet that brings a record to a node: the node before it and after it. -/
structure Copy where
  world : World
  packet : MessageProto
  before : Node
  after : Node

namespace Copy

/-- The item as it is stored. -/
def item (c : Copy) : DataItemProto := arriving c.world c.before c.packet

/-- The time at which it arrives. -/
def received (c : Copy) : Ptime := c.world.clock (c.before.ticks + 1)

/-- The second in which it expires. -/
def expiry (c : Copy) : Nat := c.item.time.toNat + c.item.ttl.toNat

/-- The packet stores an item that the node does not have yet, and the node survives it. -/
structure Arrives (c : Copy) : Prop where
  sound : c.world.storage.Sound
  keeping : Keeping c.world c.before
  store : c.packet.type = .sendStore
  clean : Clean c.packet.toId ∧ Clean c.packet.dataItem.title
  new : c.before.dbStorage.tables.byTitle c.packet.toId c.packet.dataItem.title = []
  clock : Ticks c.received
  run : ∃ ep body out, (c.world.parse body).2 = c.packet ∧
    Act.exec (handleReceive c.world ep body) c.before = (out, c.after) ∧ Survives out

/-- A later clean-up of the node finds the record as it was stored, and not expired, and
publishes it again; the second copy does not arrive before that. -/
structure Republished (c : Copy) (step : Section) (c' : Copy) : Prop where
  swept : ∃ steps s stage, Swept c.world steps s stage ∧ step ∈ steps
  later : ∃ inputs, Takes c.world c.after inputs step.node
  found : ∃ n, step.For (.ofItem n c.packet.toId c.item)
  live : ¬ step.Late
  checked : c.received ≤ step.checkTime
  publishes : step.Publishes c.world c'.packet
  received : step.checkTime ≤ c'.received

/-- What arrives is on the shelf. -/
theorem Arrives.stored {c : Copy} (arrives : c.Arrives) :
    ∃ rs : RecordStore, c.after.dbStorage.tables = rs.tables ∧ rs.Has c.packet.toId c.item := by
  obtain ⟨rs, held, -⟩ := arrives.keeping.records arrives.sound
  obtain ⟨ep, body, out, parsed, run, survives⟩ := arrives.run
  obtain ⟨rs', filed, after, -⟩ := receive_store arrives.keeping.reachable.sane arrives.sound held
    parsed arrives.store arrives.clean run survives
  have absent : rs.Absent c.packet.toId c.packet.dataItem.title := by
    have none := arrives.new
    rw [held, RecordStore.byTitle_tables, List.map_eq_nil_iff, List.filter_eq_nil_iff] at none
    exact fun r member pair => none r member (by simpa using pair)
  exact ⟨rs', after, filed.has_iff_agrees.mpr (RecordStore.agrees_of_absent absent)⟩

theorem Arrives.time {c : Copy} (arrives : c.Arrives) :
    (c.item.time.toNat : Int) = c.received / 1000000 :=
  toNat_toUnsigned_toTimeT arrives.clock

/-- **One hop.** Nothing wraps, and the date of expiry moves by the seconds between the
clean-up and the arrival. -/
theorem Republished.hop {c c' : Copy} (again : c.Republished step c') (arrives : c.Arrives)
    (arrives' : c'.Arrives) (short : c.item.ttl.toNat < 2 ^ 40) :
    step.elapsed ≤ c.item.ttl ∧ c'.item.ttl.toNat ≤ c.item.ttl.toNat ∧
      (c'.expiry : Int) =
        c.expiry + (c'.received / 1000000 - step.checkTime / 1000000) := by
  obtain ⟨steps, s, stage, swept, entered⟩ := again.swept
  obtain ⟨keeping, clean⟩ := swept.sections arrives.sound step entered
  obtain ⟨n, for'⟩ := again.found
  have stamp := arrives.time
  have stamp' := arrives'.time
  have checked := again.checked
  have last := arrives'.clock.2
  have first := arrives.clock
  have received := again.received
  have since : (c.item.time.toNat : Int) * 1000000 ≤ step.checkTime := by
    rw [stamp]
    exact (Int.ediv_mul_le _ (by decide)).trans checked
  have time : Ticks (c.item.time.toNat * 1000000) :=
    ⟨by omega, lt_of_le_of_lt (since.trans received) last⟩
  have elapsed := Section.elapsed_toNat for' time since (lt_of_le_of_lt received last)
  have live := again.live
  have ttl : Ticks (c.item.ttl.toNat * 1000000) := ⟨by omega, by omega⟩
  rw [Section.late_iff for' time, seconds_of_ticks ttl, not_lt] at live
  have fits : step.elapsed ≤ c.item.ttl := by
    rw [UInt64.le_iff_toNat_le]
    omega
  have item := again.publishes.item arrives.sound keeping clean for' again.live
  have left : c'.item.ttl = c.item.ttl - step.elapsed := congrArg DataItemProto.ttl item
  have ttl' : c'.item.ttl.toNat = c.item.ttl.toNat - step.elapsed.toNat := by
    rw [left, UInt64.toNat_sub_of_le _ _ fits]
  have less : step.elapsed.toNat ≤ c.item.ttl.toNat := UInt64.le_iff_toNat_le.mp fits
  refine ⟨fits, by omega, ?_⟩
  simp only [expiry, Nat.cast_add]
  omega

end Copy

/-! ## Chains -/

/-- What one hop takes off, and its two readings of the clock. -/
structure Hop where
  ttl : UInt64
  elapsed : UInt64
  checked : Ptime
  received : Ptime

/-- The whole seconds between the clean-up and the arrival. -/
def Hop.transit (hop : Hop) : Int := hop.received / 1000000 - hop.checked / 1000000

/-- A record that arrives with the first copy comes to the last by some hops, the latest
first. -/
inductive Carried (c₀ : Copy) : List Hop → Copy → Prop where
  | arrives (arrives : c₀.Arrives) : Carried c₀ [] c₀
  | hop {hops : List Hop} {c c' : Copy} {step : Section} (carried : Carried c₀ hops c)
      (again : c.Republished step c') (arrives : c'.Arrives) :
      Carried c₀ (⟨c.item.ttl, step.elapsed, step.checkTime, c'.received⟩ :: hops) c'

theorem Carried.last {c₀ c : Copy} {hops : List Hop} (carried : Carried c₀ hops c) : c.Arrives := by
  cases carried with
  | arrives arrives => exact arrives
  | hop carried again arrives => exact arrives

/-- No hop arrives before it was sent. -/
theorem Carried.forwards {c₀ c : Copy} {hops : List Hop} (carried : Carried c₀ hops c) :
    ∀ hop ∈ hops, 0 ≤ hop.transit := by
  induction carried with
  | arrives => simp
  | hop carried again arrives ih =>
    refine List.forall_mem_cons.mpr ⟨?_, ih⟩
    exact sub_nonneg.mpr (Int.ediv_le_ediv (by decide) again.received)

theorem Carried.conserves {c₀ c : Copy} {hops : List Hop} (carried : Carried c₀ hops c)
    (short : c₀.packet.dataItem.ttl.toNat < 2 ^ 40) :
    (∀ hop ∈ hops, hop.elapsed ≤ hop.ttl) ∧ c.item.ttl.toNat < 2 ^ 40 ∧
      (c.expiry : Int) = c₀.expiry + (hops.map Hop.transit).sum := by
  induction carried with
  | arrives => exact ⟨by simp, short, by simp⟩
  | hop carried again arrives ih =>
    obtain ⟨fits, below, date⟩ := ih
    obtain ⟨fits', less, date'⟩ := again.hop carried.last arrives below
    refine ⟨List.forall_mem_cons.mpr ⟨fits', fits⟩, lt_of_le_of_lt less below, ?_⟩
    rw [date', date, List.map_cons, List.sum_cons]
    exact (add_assoc ..).trans (congrArg _ (add_comm ..))

/-- **The date of expiry is conserved.** However often a record is published again, no
subtraction wraps, and the copy that arrives last expires as many seconds after the original
as the hops have spent between a clean-up and an arrival. It is never before the original,
and with it if every hop arrives within the second of its clean-up. -/
theorem expiry_conserved {c₀ c : Copy} {hops : List Hop} (carried : Carried c₀ hops c)
    (short : c₀.packet.dataItem.ttl.toNat < 2 ^ 40) :
    (∃ rs : RecordStore, c.after.dbStorage.tables = rs.tables ∧ rs.Has c.packet.toId c.item) ∧
      (∀ hop ∈ hops, hop.elapsed ≤ hop.ttl) ∧
      (c.expiry : Int) = c₀.expiry +
        (hops.map fun hop => hop.received / 1000000 - hop.checked / 1000000).sum ∧
      c₀.expiry ≤ c.expiry ∧
      ((∀ hop ∈ hops, hop.received / 1000000 = hop.checked / 1000000) → c.expiry = c₀.expiry) := by
  obtain ⟨fits, -, date⟩ := carried.conserves short
  have forwards : 0 ≤ (hops.map Hop.transit).sum :=
    List.sum_nonneg (List.forall_mem_map.mpr carried.forwards)
  refine ⟨carried.last.stored, fits, date, by omega, fun prompt => ?_⟩
  have still : (hops.map Hop.transit).sum = 0 := by
    refine List.sum_eq_zero (List.forall_mem_map.mpr fun hop member => ?_)
    rw [Hop.transit, prompt hop member, sub_self]
  omega

/-! ### A first copy, and a second -/

/-- A new node has stored the item of its first packet, whose sender is its one contact. -/
structure FirstCopy (c : Copy) (rs : RecordStore) (n : Nat) (a : ContactProto) : Prop where
  arrives : c.Arrives
  keeping : Keeping c.world c.after
  began : c.before.ticks = 0
  held : c.after.dbStorage.tables = rs.tables
  records : rs.records = [.ofItem n c.packet.toId c.item]
  sender : a.key = c.packet.fromId
  alone : c.after.contactList.entries = [(c.after.contactList.common a.key, a)]
  fresh : c.after.contactList.changed = true

theorem exists_firstCopy (sound : w.storage.Sound) (backed : w.backup.Sound) (ep : Endpoint)
    (parsed : (w.parse [0]).2 = m) (store : m.type = .sendStore)
    (clean : Clean m.toId ∧ Clean m.dataItem.title) (key : BitVec keySize)
    (nonzero : m.fromId ≠ zeroId) (other : m.fromId ≠ keyToString key) (clock : Ticks (w.clock 1)) :
    ∃ s₀ s rs n a, FirstCopy ⟨w, m, s₀, s⟩ rs n a ∧ a.ep = ep.proto ∧ s.id = keyToString key := by
  have start := exec_restoreFromBackup_empty (w := w) backed key 1 RecordStore.empty.tables
  have keeping := Keeping.start (fun r member => by cases member) start
  obtain ⟨rs, s₂, filed, greeted, ⟨held, -⟩, received⟩ := exec_receive_filed
    keeping.reachable.sane sound rfl ep parsed store clean (.inr Nat.one_pos)
  obtain ⟨n, records⟩ := filed.of_empty
  have contact := greeted.contact
  rw [show Node.contactList _ = Bucket.new (keyToString key) from rfl,
    Bucket.addContact_first ep.proto_named other, Except.ok.injEq] at contact
  have run := received.trans (Act.exec_rethrowAs_ok.mpr (exec_replyStore nonzero greeted.sane.named))
  have list : s₂.contactList.entries = [(s₂.contactList.common m.fromId,
      Bucket.newContact (w.clock 0) m.fromId ep.proto)] := by
    rw [← contact]
    rfl
  have fresh : s₂.contactList.changed = true := by
    rw [← contact]
    rfl
  refine ⟨_, _, rs, n, Bucket.newContact (w.clock 0) m.fromId ep.proto,
    ⟨⟨sound, keeping, store, clean, rfl, clock, ep, [0], _, parsed, run, trivial⟩,
      keeping.store parsed store clean run trivial, rfl, held, records, rfl, list, fresh⟩, rfl,
    greeted.id⟩

/-- A store search that has asked its one contact stores there once that has answered. -/
theorem stores_when_answered {q : Search} {a : ContactProto} (sane : s.Sane)
    (here : s.mapSearch t = some q) (store : q.searchType = .store) (list : q.shortList = [a])
    (busy : q.mapNodeBusy = {a.key}) (named : a.ep.Named) (nonzero : a.key ≠ zeroId)
    (self : s.id ≠ zeroId) :
    ∃ m s', m.token = t ∧ Act.exec (handleReplyFindNode w m) s = (.ok (), s') ∧
      storeMessage s.id a.key s.id q.buffer t ∈ searchRequests t (s.since s') := by
  let m : MessageProto :=
    { type := .replyFindNode, fromId := a.key, token := t, toId := s.id, contactList := [a] }
  have offered : Search.AllNamed [a] := by simpa [Search.AllNamed] using named
  have zero : zeroId ∉ Search.keys [a] := by simpa [Search.keys] using nonzero.symm
  obtain ⟨s', replied, -⟩ := reply_returns (w := w) (m := m) sane here offered zero
    (roundSafe_of_nonzero (by rwa [list]) zero fun _ => self)
  obtain ⟨d, picked, key⟩ := Search.picks_again (sane.ready _ _ here) list busy store (c := a) rfl
  have ended : q.ends [a] = true := Search.ends_again list busy store rfl
  have message : roundMessage q [a] s.id s.id t d.key = storeMessage s.id a.key s.id q.buffer t := by
    simp only [roundMessage, store, ended, if_true, key]
  refine ⟨m, s', rfl, replied, ?_⟩
  rw [← message, show t = m.token from rfl, searchRequests_handled sane here replied]
  exact List.mem_map_of_mem (List.mem_map_of_mem picked)

/-- The next clean-up comes to the record. -/
theorem FirstCopy.reached {c : Copy} {rs : RecordStore} {n : Nat} {a : ContactProto}
    (first : FirstCopy c rs n a) (checkTime : Ptime) :
    ∃ step : Section, step.checkTime = checkTime ∧
      step.header = RecordStore.listed (.ofItem n c.packet.toId c.item) ∧
      (∃ calls, step.node = c.after.holding rs calls) ∧
      (∃ steps s stage, Swept c.world steps s stage ∧ step ∈ steps) ∧
      ∃ inputs, Takes c.world c.after inputs step.node := by
  obtain ⟨headers, calls, perm, listed⟩ := exec_storedHeaders first.arrives.sound first.held
  rw [first.records, List.map_singleton, List.perm_singleton] at perm
  rw [perm] at listed
  have input : Act.exec (Input.storedHeaders.run c.world) c.after =
      (.ok (), c.after.holding rs calls) := by
    rw [Input.run, Act.exec_bind_ok listed]
    rfl
  have swept := ((Swept.list (.start first.keeping) listed).look checkTime).enter
  exact ⟨_, rfl, rfl, ⟨calls, rfl⟩, ⟨_, _, _, swept, List.mem_singleton_self _⟩, _,
    .step input trivial .done⟩

/-- Publishing begins a search that asks the one contact. -/
theorem FirstCopy.asks {c : Copy} {rs : RecordStore} {n : Nat} {a : ContactProto}
    (first : FirstCopy c rs n a) (nonzero : a.key ≠ zeroId) (keyed : c.packet.toId ≠ zeroId)
    (b : DataItemProto) (calls : Nat) :
    ∃ s₁ q, Act.exec (iterativeStore c.world c.packet.toId b) (c.after.holding rs calls) =
        (.ok (), s₁) ∧ s₁.id = c.after.id ∧
      s₁.mapSearch (tokenAt c.world c.after.draws) = some q ∧ q.searchType = .store ∧
      q.shortList = [{ key := a.key, ep := a.ep }] ∧ q.mapNodeBusy = {a.key} := by
  let q : Search := { Search.new c.after.id c.packet.toId .store with buffer := b }
  have ready : q.Ready := store_ready c.after.id c.packet.toId b
  obtain ⟨s₁, begun, here, own, -⟩ := exec_newSearch_met (w := c.world) (s := c.after.holding rs calls)
    .store (fun search => { search with buffer := b }) (first.keeping.reachable.sane.congr rfl)
    nonzero first.alone first.fresh (q := q) rfl ready rfl rfl fun _ => keyed
  obtain ⟨-, -, list, busy⟩ := Search.next_first (c := { key := a.key, ep := a.ep }) ready rfl rfl
  exact ⟨s₁, _, begun, own, here, Search.next_searchType q _, list, busy⟩

/-- The next clean-up publishes the record to the sender, once that has answered. -/
theorem FirstCopy.publishes {c : Copy} {rs : RecordStore} {n : Nat} {a : ContactProto}
    (first : FirstCopy c rs n a) (checkTime : Ptime) (named : a.ep.Named) (nonzero : a.key ≠ zeroId)
    (keyed : c.packet.toId ≠ zeroId) (self : c.after.id ≠ zeroId)
    (live : ¬ Section.Late ⟨c.after, checkTime, RecordStore.listed (.ofItem n c.packet.toId c.item)⟩) :
    ∃ step : Section, step.checkTime = checkTime ∧
      (∃ steps s stage, Swept c.world steps s stage ∧ step ∈ steps) ∧
      (∃ inputs, Takes c.world c.after inputs step.node) ∧
      step.For (.ofItem n c.packet.toId c.item) ∧ ¬ step.Late ∧
      ∃ m, step.Publishes c.world m ∧ m.toId = a.key ∧ m.fromId = c.after.id := by
  let r : Record := .ofItem n c.packet.toId c.item
  obtain ⟨step, rfl, header, ⟨calls, node⟩, swept, takes⟩ := first.reached checkTime
  have member : r ∈ rs.records := by
    rw [first.records]
    exact List.mem_singleton_self _
  have held : step.node.dbStorage.tables = rs.tables := by rw [node]; rfl
  have pair : r.pair = (step.header.key, step.header.title) := by rw [header]; rfl
  have key : step.header.key = c.packet.toId := by rw [header]; rfl
  have late : ¬ step.Late := by rwa [Section.Late, header]
  obtain ⟨steps, s, stage, swept', entered⟩ := swept
  obtain ⟨keeping, strings⟩ := swept'.sections first.arrives.sound step entered
  obtain ⟨calls', found⟩ :=
    Section.exec_cleanHeader_found first.arrives.sound held strings late member pair
  obtain ⟨s₁, q, begun, own, here, store, list, busy⟩ :=
    first.asks nonzero keyed { c.item with ttl := c.item.ttl - step.elapsed } calls'
  rw [item_ofItem, key, node] at found
  have run : Act.exec (cleanHeader c.world step.checkTime step.header) step.node = (.ok (), s₁) := by
    rw [node, found]
    exact Act.exec_rethrowAs_ok.mpr begun
  have sane₁ : s₁.Sane :=
    keeping.reachable.sane.input (.cleanHeader step.checkTime step.header) run trivial
  obtain ⟨reply, s₂, token, replied, sent⟩ :=
    stores_when_answered (w := c.world) sane₁ here store list busy named nonzero (own ▸ self)
  have draws : step.node.draws = c.after.draws := by rw [node]; rfl
  rw [← draws] at token sent
  refine ⟨step, rfl, ⟨steps, s, stage, swept', entered⟩, takes, ⟨rs, held, member, header⟩, late, _,
    ⟨_, s₁, _, _, s₂, run, trivial, .reply token replied .done,
      List.mem_append_right _ (List.mem_append_left _ sent), rfl⟩, rfl, own⟩

/-- An item for a minute is published again after 30 seconds, and arrives after 100. -/
theorem expiry_conserved_hop :
    ∃ (c₀ c : Copy) (hops : List Hop), Carried c₀ hops c ∧
      hops.map (fun hop => (hop.checked, hop.received)) = [(30000000, 100000000)] ∧
      (∃ rs : RecordStore, c.after.dbStorage.tables = rs.tables ∧ rs.Has c.packet.toId c.item) ∧
      (∀ hop ∈ hops, hop.elapsed ≤ hop.ttl) ∧
      (c.expiry : Int) = c₀.expiry +
        (hops.map fun hop => hop.received / 1000000 - hop.checked / 1000000).sum ∧
      c₀.expiry ≤ c.expiry ∧
      ((∀ hop ∈ hops, hop.received / 1000000 = hop.checked / 1000000) → c.expiry = c₀.expiry) := by
  let ep : Endpoint := { address := "10.0.0.1", port := 1, printed := by decide }
  have clean : Clean (peerStores "a" [1] 60).toId ∧ Clean (peerStores "a" [1] 60).dataItem.title :=
    clean_peerStores (by decide)
  obtain ⟨s₀, s, rs, n, a, first, at', own⟩ := exists_firstCopy (w := later) Sqlite.inOrder_sound
    Sqlite.inOrder_sound ep later_first rfl clean 1 (by decide +kernel) (by decide +kernel)
    (by decide)
  let c₀ : Copy := ⟨later, peerStores "a" [1] 60, s₀, s⟩
  have sender : a.key = "0a" := first.sender
  have began : c₀.before.ticks = 0 := first.began
  have time : c₀.item.time = 0 := by
    have stamp : toUnsigned (toTimeT (later.clock 1)) = 0 := by decide
    simpa only [Copy.item, arriving, stamped, began, Nat.zero_add] using stamp
  have live : ¬ Section.Late ⟨s, 30000000, RecordStore.listed (.ofItem n (keyToString 1) c₀.item)⟩ := by
    have before : ¬ seconds (toSigned 60) < 30000000 - fromTimeT (toSigned 0) := by decide
    have ttl : c₀.item.ttl = 60 := rfl
    simpa only [Section.Late, RecordStore.listed, Record.ofItem, time, ttl] using before
  have keyed : keyToString 1 ≠ zeroId := by decide +kernel
  obtain ⟨step, check, swept, takes, for', live, m, publishes, toId, fromId⟩ := first.publishes
    30000000 (at' ▸ ep.proto_named) (by rw [sender]; decide +kernel) keyed (own ▸ keyed) live
  obtain ⟨steps, _, _, swept', entered⟩ := swept
  obtain ⟨keeping, strings⟩ := swept'.sections Sqlite.inOrder_sound step entered
  have item := publishes.item Sqlite.inOrder_sound keeping strings for' live
  have strings' : Clean m.toId ∧ Clean m.dataItem.title := by
    rw [toId, sender, item]
    exact ⟨by decide, clean.2⟩
  -- another node receives it
  let w : World := { World.simple [m] with clock := fun _ => 100000000 }
  have parsed : (w.parse [0]).2 = m := rfl
  have store : m.type = .sendStore := by
    obtain ⟨-, -, -, -, -, -, -, -, -, store⟩ := publishes
    exact store
  have clock : Ticks 100000000 := by decide
  obtain ⟨s₀', s', rs', n', a', first', -, -⟩ := exists_firstCopy (w := w) Sqlite.inOrder_sound
    Sqlite.inOrder_sound ep parsed store strings' 2 (by rw [fromId, own]; decide +kernel)
    (by rw [fromId, own]; decide +kernel) clock
  have arrived : c₀.received ≤ step.checkTime := by
    have early : later.clock 1 ≤ 30000000 := by decide
    rw [check, Copy.received, began]
    exact early
  have received : (Copy.received ⟨w, m, s₀', s'⟩) = 100000000 := rfl
  have again : c₀.Republished step ⟨w, m, s₀', s'⟩ :=
    ⟨⟨steps, _, _, swept', entered⟩, takes, ⟨n, for'⟩, live, arrived, publishes, by
      rw [check, received]
      decide⟩
  have carried := Carried.hop (.arrives first.arrives) again first'.arrives
  have short : (60 : UInt64).toNat < 2 ^ 40 := by decide
  refine ⟨_, _, _, carried, ?_, expiry_conserved carried short⟩
  rw [List.map_singleton, check, received]

end Node

end MiniDht
