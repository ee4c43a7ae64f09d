import MiniDht.Node.Acknowledged

/-!
# The clean-up of the storage

`periodic` takes the headers of all records in one lock section, reads the clock, and goes
through them in a section each. Between the sections the lock is free, so a store may renew
or evict a record after its header was taken (`Swept`). What is done with a header goes by
the header, and is right only as long as it is what the record still says.
-/

namespace MiniDht

open Lib

/-- The time to live of a record is up, as its row tells. -/
def TimeRow.Expired (now : Ptime) (row : TimeRow) : Prop :=
  row.ttl * 1000000 < now - fromTimeT row.time

theorem sub_le_self_iff {a b : UInt64} : a - b ≤ a ↔ b ≤ a := by
  have aBound := a.toNat_lt
  have bBound := b.toNat_lt
  rw [UInt64.le_iff_toNat_le, UInt64.le_iff_toNat_le, UInt64.toNat_sub]
  omega

namespace Node

/-! ## Lock sections -/

/-- A lock section for one header: the node when it is entered, and the time the clean-up
goes by. -/
structure Section where
  node : Node
  checkTime : Ptime
  header : DataItemHeader

/-- How far `periodic` is with the storage. -/
inductive Stage where
  | resting
  /-- The headers have been taken. -/
  | listed (headers : List DataItemHeader)
  /-- The clock has been read, and these headers are left. -/
  | sweeping (checkTime : Ptime) (headers : List DataItemHeader)
  /-- The lock is held for a header. -/
  | locked (checkTime : Ptime) (h : DataItemHeader) (rest : List DataItemHeader)

namespace Stage

/-- The headers still to be gone through. -/
def headers : Stage → List DataItemHeader
  | resting => []
  | listed hs => hs
  | sweeping _ hs => hs
  | locked _ h rest => h :: rest

/-- What comes after a section: an exception ends the clean-up. -/
def after (checkTime : Ptime) (rest : List DataItemHeader) : Except Fault Unit → Stage
  | .ok _ => sweeping checkTime rest
  | .error _ => resting

end Stage

/-- A node and its clean-up, after other inputs between the lock sections in any order: the
sections entered so far, the node, and how far the clean-up is. The clock may have said
anything. -/
inductive Swept (w : World) : List Section → Node → Stage → Prop where
  | start {s : Node} (keeping : Keeping w s) : Swept w [] s .resting
  | other {steps : List Section} {s s' : Node} {stage : Stage} {input : Input}
      {out : Except Fault Unit} (swept : Swept w steps s stage)
      (free : ∀ t h rest, stage ≠ .locked t h rest) (apart : ∀ t h, input ≠ .cleanHeader t h)
      (clean : input.Clean w) (run : Act.exec (input.run w) s = (out, s'))
      (survives : Survives out) : Swept w steps s' stage
  | list {steps : List Section} {s s' : Node} {headers : List DataItemHeader}
      (swept : Swept w steps s .resting)
      (run : Act.exec (storedHeaders w) s = (.ok headers, s')) : Swept w steps s' (.listed headers)
  | look {steps : List Section} {s : Node} {headers : List DataItemHeader}
      (swept : Swept w steps s (.listed headers)) (checkTime : Ptime) :
      Swept w steps s (.sweeping checkTime headers)
  | enter {steps : List Section} {s : Node} {checkTime : Ptime} {h : DataItemHeader}
      {rest : List DataItemHeader} (swept : Swept w steps s (.sweeping checkTime (h :: rest))) :
      Swept w (steps ++ [⟨s, checkTime, h⟩]) s (.locked checkTime h rest)
  | leave {steps : List Section} {s s' : Node} {checkTime : Ptime} {h : DataItemHeader}
      {rest : List DataItemHeader} {out : Except Fault Unit}
      (swept : Swept w steps s (.locked checkTime h rest))
      (run : Act.exec (cleanHeader w checkTime h) s = (out, s')) (survives : Survives out) :
      Swept w steps s' (.after checkTime rest out)
  | finish {steps : List Section} {s : Node} {checkTime : Ptime}
      (swept : Swept w steps s (.sweeping checkTime [])) : Swept w steps s .resting

variable {w : World} {s : Node} {stage : Stage} {steps : List Section} {step : Section}
  {rs : RecordStore}

/-- Taking the headers changes no record, and hands out their strings. -/
theorem exec_storedHeaders (sound : w.storage.Sound) (held : s.dbStorage.tables = rs.tables) :
    ∃ headers n, headers.Perm (rs.records.map RecordStore.listed) ∧
      Act.exec (storedHeaders w) s = (.ok headers, s.holding rs n) := by
  obtain ⟨headers, perm, run⟩ := RecordStore.exec_listHeaders (s := rs) (n := s.dbStorage.calls) sound
  have listed := exec_onStorage (s := s) run
  rw [holding_self held] at listed
  exact ⟨headers, _, perm, Act.exec_rethrowAs_ok.mpr listed⟩

/-- The node of a clean-up keeps its records, and the headers to go through are clean. -/
theorem Swept.keeping (sound : w.storage.Sound) (swept : Swept w steps s stage) :
    Keeping w s ∧ ∀ h ∈ stage.headers, Clean h.key ∧ Clean h.title := by
  induction swept with
  | start keeping => exact ⟨keeping, fun h member => by cases member⟩
  | other swept free apart clean run survives ih => exact ⟨ih.1.step clean run survives, ih.2⟩
  | @list steps s s' headers swept run ih =>
    obtain ⟨rs, held, strings⟩ := ih.1.records sound
    obtain ⟨headers', n, perm, listed⟩ := exec_storedHeaders sound held
    have input : Act.exec (Input.storedHeaders.run w) s = (.ok (), s') := by
      rw [Input.run, Act.exec_bind_ok run]
      rfl
    have clean : Input.storedHeaders.Clean w := trivial
    refine ⟨ih.1.step clean input trivial, fun h member => ?_⟩
    rw [run] at listed
    obtain rfl : headers = headers' := Except.ok.inj (congrArg Prod.fst listed)
    obtain ⟨r, there, rfl⟩ := List.mem_map.mp (perm.mem_iff.mp member)
    exact strings r there
  | look swept checkTime ih => exact ih
  | enter swept ih => exact ih
  | @leave steps s s' checkTime h rest out swept run survives ih =>
    have input : Act.exec ((Input.cleanHeader checkTime h).run w) s = (out, s') := run
    have clean : (Input.cleanHeader checkTime h).Clean w := ih.2 h List.mem_cons_self
    refine ⟨ih.1.step clean input survives, fun h' member => ?_⟩
    cases out with
    | ok => exact ih.2 h' (List.mem_cons_of_mem h member)
    | error e => cases member
  | finish swept ih => exact ih

/-- So it was at every section. -/
theorem Swept.sections (sound : w.storage.Sound) (swept : Swept w steps s stage) :
    ∀ step ∈ steps, Keeping w step.node ∧ Clean step.header.key ∧ Clean step.header.title := by
  induction swept with
  | start => exact fun step member => by cases member
  | enter swept ih =>
    obtain ⟨keeping, strings⟩ := swept.keeping sound
    refine List.forall_mem_append.mpr ⟨ih, List.forall_mem_singleton.mpr ⟨keeping, ?_⟩⟩
    exact strings _ List.mem_cons_self
  | other _ _ _ _ _ _ ih => exact ih
  | list _ _ ih => exact ih
  | look _ _ ih => exact ih
  | leave _ _ _ ih => exact ih
  | finish _ ih => exact ih

namespace Section

/-- The time row of the record stored under the key and title of the header. -/
def Stored (step : Section) (row : TimeRow) : Prop :=
  row ∈ step.node.dbStorage.tables.dataTime ∧
    ∃ header ∈ step.node.dbStorage.tables.byTitle step.header.key step.header.title,
      header.id = row.timeId

/-- By the header, the time of the record is up. -/
def Late (step : Section) : Prop :=
  seconds step.header.ttl < step.checkTime - fromTimeT step.header.time

/-- Nothing has renewed the record since its header was taken, and its time to live fits 64
bits in microseconds. -/
def Current (step : Section) : Prop :=
  ∀ row, step.Stored row → row.time = step.header.time ∧ row.ttl = step.header.ttl ∧
    seconds row.ttl = row.ttl * 1000000

/-- The section drops no record whose time is not up at any time since the clock was read. -/
def DropsExpired (w : World) (step : Section) : Prop :=
  ∀ now ≥ step.checkTime, ∀ header ∈ step.node.dbStorage.tables.dataHeader,
    header ∉ (Act.exec (cleanHeader w step.checkTime step.header)
      step.node).2.dbStorage.tables.dataHeader →
    ∀ row ∈ step.node.dbStorage.tables.dataTime, row.timeId = header.id → row.Expired now

theorem stored_iff (held : step.node.dbStorage.tables = rs.tables) {row : TimeRow} :
    step.Stored row ↔ ∃ r ∈ rs.records, r.pair = (step.header.key, step.header.title) ∧
      r.timeRow = row := by
  rw [Stored, held, RecordStore.byTitle_tables]
  constructor
  · rintro ⟨listed, header, chosen, tied⟩
    obtain ⟨r', there, rfl⟩ := List.mem_map.mp chosen
    obtain ⟨r, member, rfl⟩ := List.mem_map.mp listed
    obtain ⟨member', pair⟩ := List.mem_filter.mp there
    obtain rfl := RecordStore.eq_of_id member' member tied
    exact ⟨r', member', of_decide_eq_true pair, rfl⟩
  · rintro ⟨r, member, pair, rfl⟩
    exact ⟨List.mem_map_of_mem member, r.header,
      List.mem_map_of_mem (List.mem_filter.mpr ⟨member, decide_eq_true pair⟩), rfl⟩

/-- A section whose header is current drops nothing but what has expired. -/
theorem Current.dropsExpired (current : step.Current) (sound : w.storage.Sound)
    (keeping : Keeping w step.node)
    (clean : Clean step.header.key ∧ Clean step.header.title) : step.DropsExpired w := by
  intro now later header listed gone row there tied
  obtain ⟨rs, held, -⟩ := keeping.records sound
  by_cases late : step.Late
  · rw [exec_cleanHeader_expired sound held clean late] at gone
    obtain ⟨r, member, rfl⟩ := List.mem_map.mp (held ▸ listed)
    have pair : r.pair = (step.header.key, step.header.title) := by
      by_contra other
      refine gone (List.mem_map_of_mem (List.mem_filter.mpr ⟨member, ?_⟩))
      simpa using other
    have stored : step.Stored row := by
      refine ⟨there, r.header, ?_, tied.symm⟩
      rw [held, RecordStore.byTitle_tables]
      exact List.mem_map_of_mem (List.mem_filter.mpr ⟨member, decide_eq_true pair⟩)
    obtain ⟨time, ttl, fits⟩ := current row stored
    rw [TimeRow.Expired, ← fits, ttl, time]
    exact lt_of_lt_of_le late (sub_le_sub_right later _)
  · have kept : Holds rs step.node.maxRecords _ :=
      keeps_cleanHeader sound clean late step.node ⟨held, rfl⟩
    rw [kept.1, ← held] at gone
    exact absurd listed gone

end Section

/-- **Expiry.** Whatever comes in between the sections of clean-ups: as long as every section
finds its header current, no record is dropped before its time. -/
theorem sweep_drops_expired (sound : w.storage.Sound) (swept : Swept w steps s stage)
    (current : ∀ step ∈ steps, step.Current) : ∀ step ∈ steps, step.DropsExpired w := by
  intro step entered
  obtain ⟨keeping, clean⟩ := swept.sections sound step entered
  exact (current step entered).dropsExpired sound keeping clean

namespace Section

/-! ## Publishing again -/

/-- The time elapsed, as it is taken off an unsigned time to live. -/
def elapsed (step : Section) : UInt64 :=
  toUnsigned (toTimeT (step.checkTime - fromTimeT step.header.time))

/-- The record is still there, and the time elapsed is no more than it now has to live. -/
def Living (step : Section) : Prop :=
  ∃ row, step.Stored row ∧ step.elapsed ≤ toUnsigned row.ttl

/-- The section raises no exception, and what it publishes has no longer to live than the
record it finds. -/
def Republishes (w : World) (step : Section) : Prop :=
  (∀ what, (Act.exec (cleanHeader w step.checkTime step.header) step.node).1 ≠
      .error (.exception what)) ∧
    ∀ item s, Act.exec (onStorage (DbMultiKeyData.findTitle w.storage step.header.key
      step.header.title {})) step.node = (.ok item, s) → item.ttl - step.elapsed ≤ item.ttl

end Section

/-- Beginning to store an item raises no exception. -/
theorem iterativeStore_quiet (sane : s.Sane) (k : String) (b : DataItemProto) (what : String) :
    (Act.exec (iterativeStore w k b) s).1 ≠ .error (.exception what) := by
  intro raised
  obtain ⟨returned, -, -⟩ := begin_cases sane rfl (store_ready s.id k b)
    (Prod.ext raised rfl) trivial
  cases returned

namespace Section

/-- A section that does not drop the record looks it up, and publishes what it finds. -/
theorem exec_cleanHeader_live (live : ¬ step.Late) :
    Act.exec (cleanHeader w step.checkTime step.header) step.node =
      Act.exec (Act.rethrowAs "std::exception" do
        let item ← onStorage (DbMultiKeyData.findTitle w.storage step.header.key
          step.header.title {})
        iterativeStore w step.header.key { item with ttl := item.ttl - step.elapsed }) step.node := by
  rw [Late] at live
  rw [cleanHeader]
  simp only [if_neg live]
  rfl

section Found

variable (sound : w.storage.Sound) (held : step.node.dbStorage.tables = rs.tables)
  (clean : Clean step.header.key ∧ Clean step.header.title)
include sound held clean

theorem exec_find_there {r : Record} (member : r ∈ rs.records)
    (pair : r.pair = (step.header.key, step.header.title)) :
    ∃ n, Act.exec (onStorage (DbMultiKeyData.findTitle w.storage step.header.key
      step.header.title {})) step.node = (.ok r.item, step.node.holding rs n) := by
  have found := exec_onStorage (s := step.node) (RecordStore.exec_findTitle
    (n := step.node.dbStorage.calls) sound clean {} member pair)
  rw [holding_self held] at found
  exact ⟨_, found⟩

/-- A section that finds its record publishes that. -/
theorem exec_cleanHeader_found {r : Record} (live : ¬ step.Late) (member : r ∈ rs.records)
    (pair : r.pair = (step.header.key, step.header.title)) :
    ∃ n, Act.exec (cleanHeader w step.checkTime step.header) step.node =
      Act.exec (Act.rethrowAs "std::exception" (iterativeStore w step.header.key
        { r.item with ttl := r.item.ttl - step.elapsed })) (step.node.holding rs n) := by
  obtain ⟨n, found⟩ := exec_find_there sound held clean member pair
  refine ⟨n, ?_⟩
  rw [exec_cleanHeader_live live, Act.exec_rethrowAs, Act.exec_bind_ok found, Act.exec_rethrowAs]

theorem exec_find_gone (absent : rs.Absent step.header.key step.header.title) :
    ∃ what s, Act.exec (onStorage (DbMultiKeyData.findTitle w.storage step.header.key
      step.header.title {})) step.node = (.error (.exception what), s) := by
  have conn : step.node.dbStorage = ⟨rs.tables, step.node.dbStorage.calls⟩ := by rw [← held]
  rw [onStorage, Act.exec_zoom, conn, RecordStore.exec_findTitle_absent sound clean {} absent]
  exact ⟨_, _, rfl⟩

end Found

/-- Publishing again is safe exactly where the record is there and lives long enough. -/
theorem republishes_iff (sound : w.storage.Sound) (keeping : Keeping w step.node)
    (clean : Clean step.header.key ∧ Clean step.header.title) (live : ¬ step.Late) :
    step.Republishes w ↔ step.Living := by
  obtain ⟨rs, held, -⟩ := keeping.records sound
  rw [Republishes, exec_cleanHeader_live live]
  by_cases absent : rs.Absent step.header.key step.header.title
  · obtain ⟨what, s, failed⟩ := exec_find_gone sound held clean absent
    refine iff_of_false (fun safe => safe.1 "std::exception" ?_) ?_
    · rw [Act.exec_rethrowAs, Act.exec_bind_error failed]
    · rintro ⟨row, stored, -⟩
      obtain ⟨r, member, pair, -⟩ := (stored_iff held).mp stored
      exact absent r member pair
  · simp only [RecordStore.Absent, not_forall, not_not] at absent
    obtain ⟨r, member, pair⟩ := absent
    obtain ⟨n, found⟩ := exec_find_there sound held clean member pair
    have sane : (step.node.holding rs n).Sane := keeping.reachable.sane.congr rfl
    constructor
    · rintro ⟨-, fits⟩
      have small := fits _ _ found
      exact ⟨r.timeRow, (stored_iff held).mpr ⟨r, member, pair, rfl⟩, sub_le_self_iff.mp small⟩
    · rintro ⟨row, stored, lives⟩
      obtain ⟨r', member', pair', rfl⟩ := (stored_iff held).mp stored
      obtain rfl := RecordStore.eq_of_pair member' member (pair'.trans pair.symm)
      refine ⟨fun what raised => ?_, fun item s other => ?_⟩
      · obtain ⟨inner, raised⟩ := Act.throws_rethrowAs.mp ⟨what, raised⟩
        rw [Act.exec_bind_ok found] at raised
        exact iterativeStore_quiet sane _ _ inner raised
      · rw [found] at other
        cases other
        exact sub_le_self_iff.mpr lives

end Section

/-- **Publishing again.** Whatever comes in between the sections of clean-ups: a section that
publishes its record again does so safely if and only if the record is there and has no less
to live than is taken off. -/
theorem sweep_republishes_iff (sound : w.storage.Sound) (swept : Swept w steps s stage) :
    ∀ step ∈ steps, ¬ step.Late → (step.Republishes w ↔ step.Living) := by
  intro step entered live
  obtain ⟨keeping, clean⟩ := swept.sections sound step entered
  exact Section.republishes_iff sound keeping clean live

/-! ### A record renewed, and a record evicted -/

/-- The world in which the first peer stores an item at the beginning, and whatever comes
later comes after 100 seconds. -/
def later : World :=
  { World.simple [peerStores "a" [1] 60, { peerStores "b" [] 60 with toId := "0c" }] with
    clock := fun i => if i < 2 then 0 else 100000000 }

theorem later_first : (later.parse [0]).2 = peerStores "a" [1] 60 := rfl

theorem later_second : (later.parse [1]).2 = { peerStores "b" [] 60 with toId := "0c" } := rfl

theorem clock_later (i j : Nat) (le : i ≤ j) : later.clock i ≤ later.clock j := by
  by_cases early : i < 2
  · have first : later.clock i = 0 := if_pos early
    rw [first]
    by_cases soon : j < 2
    · exact (if_pos soon : later.clock j = 0).ge
    · have second : later.clock j = 100000000 := if_neg soon
      rw [second]
      decide
  · have first : later.clock i = 100000000 := if_neg early
    have second : later.clock j = 100000000 := if_neg (by omega)
    rw [first, second]

/-- The first item as it is stored, and its header. -/
def firstRecord (n : Nat) : Record :=
  { id := n, key := keyToString 1, title := "a", time := 0, ttl := 60, data := [1] }

def firstHeader : DataItemHeader :=
  { key := keyToString 1, title := "a", time := 0, ttl := 60 }

theorem not_late_first (s : Node) : ¬ Section.Late ⟨s, 0, firstHeader⟩ := by
  have before : ¬ seconds firstHeader.ttl < 0 - fromTimeT firstHeader.time := by decide
  exact before

theorem late_first (s : Node) : Section.Late ⟨s, 100000000, firstHeader⟩ := by
  have after : seconds firstHeader.ttl < 100000000 - fromTimeT firstHeader.time := by decide
  exact after

/-- After the first item has been stored, a clean-up takes its header and then reads the
clock. -/
theorem StoredFirst.lookedAt {m : MessageProto} {s₀ : Node} {n : Nat}
    (stored : StoredFirst w m s₀ s rs n) (sound : w.storage.Sound) (parsed : (w.parse [0]).2 = m)
    (type : m.type = .sendStore) (clean : Clean m.toId ∧ Clean m.dataItem.title)
    (checkTime : Ptime) :
    ∃ s', Swept w [] s'
        (.sweeping checkTime [RecordStore.listed (.ofItem n m.toId (arriving w s₀ m))]) ∧
      Keeping w s' ∧ Holds rs 1 s' ∧ 2 ≤ s'.ticks := by
  have keeping := stored.keeping parsed type clean
  obtain ⟨held, limit⟩ := stored.holds
  obtain ⟨headers, calls, perm, listed⟩ := exec_storedHeaders (w := w) sound held
  rw [stored.records, List.map_singleton, List.perm_singleton] at perm
  rw [perm] at listed
  have swept := (Swept.list (.start keeping) listed).look checkTime
  have input : Act.exec (Input.storedHeaders.run w) s = (.ok (), s.holding rs calls) := by
    rw [Input.run, Act.exec_bind_ok listed]
    rfl
  have strings : Input.storedHeaders.Clean w := trivial
  exact ⟨_, swept, keeping.step strings input trivial, ⟨rfl, limit⟩, stored.ticks⟩

/-- A new node has stored the first item, and a clean-up has taken its header and then read
the clock. -/
theorem exists_lookedAt (checkTime : Ptime) :
    ∃ s rs n, Swept later [] s (.sweeping checkTime [firstHeader]) ∧ Keeping later s ∧
      Holds rs 1 s ∧ rs.records = [firstRecord n] ∧ 2 ≤ s.ticks := by
  obtain ⟨s₀, s, rs, n, stored⟩ := exists_storedFirst (w := later) Sqlite.inOrder_sound
    Sqlite.inOrder_sound later_first rfl (clean_peerStores (by decide)) (by decide)
  have record : Record.ofItem n (keyToString 1) (arriving later s₀ (peerStores "a" [1] 60)) =
      firstRecord n := by
    have time : toSigned (toUnsigned (toTimeT (later.clock 1))) = 0 := by decide
    have ttl : toSigned 60 = 60 := by decide
    simp only [Record.ofItem, arriving, stamped, stored.began, peerStores, Nat.zero_add, time, ttl]
    rfl
  obtain ⟨s', swept, keeping, holds, ticks⟩ := stored.lookedAt Sqlite.inOrder_sound later_first rfl
    (clean_peerStores (by decide)) checkTime
  have item : (peerStores "a" [1] 60).toId = keyToString 1 := rfl
  rw [item, record] at swept
  refine ⟨s', rs, n, swept, keeping, holds, ?_, ticks⟩
  rw [← record]
  exact stored.records

/-- The theorem at a section for the record as it was stored. -/
theorem sweep_drops_expired_first :
    ∃ step : Section, step.Late ∧ step.DropsExpired later := by
  obtain ⟨s, rs, n, swept, keeping, ⟨held, -⟩, records, -⟩ := exists_lookedAt 100000000
  have current : Section.Current ⟨s, 100000000, firstHeader⟩ := by
    intro row stored
    obtain ⟨r, member, -, rfl⟩ := (Section.stored_iff held).mp stored
    rw [records, List.mem_singleton] at member
    subst member
    have fits : seconds 60 = 60 * 1000000 := by decide
    exact ⟨rfl, rfl, fits⟩
  refine ⟨⟨s, 100000000, firstHeader⟩, late_first s, ?_⟩
  refine sweep_drops_expired (w := later) Sqlite.inOrder_sound swept.enter ?_ _
    (List.mem_append_right _ (List.mem_singleton_self _))
  exact List.forall_mem_singleton.mpr current

/-- The item comes in again after its header was taken, and the clean-up drops it at once. -/
theorem sweep_drops_live :
    (∀ i j, i ≤ j → later.clock i ≤ later.clock j) ∧ ∃ steps s stage, Swept later steps s stage ∧
      ∃ step ∈ steps, step.checkTime = later.clock 2 ∧ ¬ step.DropsExpired later := by
  obtain ⟨s, rs, n, swept, keeping, ⟨held, limit⟩, records, ticks⟩ := exists_lookedAt 100000000
  have clean : Clean (peerStores "a" [1] 60).toId ∧ Clean (peerStores "a" [1] 60).dataItem.title :=
    clean_peerStores (by decide)
  obtain ⟨s', run⟩ := receive_store_returns keeping.reachable.sane
    Sqlite.inOrder_sound held s.senderEndpoint later_first rfl clean (.inr (by rw [limit]; decide)) (by decide)
  obtain ⟨rs', filed, held', -⟩ := receive_store keeping.reachable.sane Sqlite.inOrder_sound held
    later_first rfl clean run trivial
  -- the refresh is handled 100 seconds after the first store
  have time : arriving later s (peerStores "a" [1] 60) =
      { ttl := 60, time := 100, title := "a", data := [1] } := by
    have late : ¬ s.ticks + 1 < 2 := by omega
    have clock : later.clock (s.ticks + 1) = 100000000 := if_neg late
    have stamp : toUnsigned (toTimeT 100000000) = 100 := by decide
    simp only [arriving, stamped, clock, stamp]
    rfl
  rw [time] at filed
  have renews : Renews later ⟨rs.tables, s.dbStorage.calls⟩ (keyToString 1)
      { ttl := 60, time := 100, title := "a", data := [1] } := by
    have newer : fromTimeT (toSigned (toUnsigned 0)) < fromTimeT (toSigned 100) := by decide
    exact (renews_single Sqlite.inOrder_sound clean.1 records rfl).mpr newer
  have renewed : rs'.records = [{ firstRecord n with time := 100 }] := by
    have times : toSigned 100 = 100 ∧ toSigned 60 = 60 := by decide
    rw [filed.of_single records rfl renews, times.1, times.2]
    rfl
  have strings : (Input.receive s.senderEndpoint [0]).Clean later :=
    Input.clean_store later_first rfl clean
  have input : Act.exec ((Input.receive s.senderEndpoint [0]).run later) s = (.ok (), s') := run
  have entered := (swept.other (by simp) (by simp) strings input trivial).enter
  refine ⟨clock_later, _, _, _, entered, _, List.mem_singleton_self _, rfl, fun drops => ?_⟩
  -- the record has just been stored again, and is gone after the section
  have here : { firstRecord n with time := 100 } ∈ rs'.records := by
    rw [renewed]
    exact List.mem_singleton_self _
  have own : Clean firstHeader.key ∧ Clean firstHeader.title := clean
  have expired := drops 100000000 (le_refl _) ({ firstRecord n with time := 100 } : Record).header
    (held' ▸ List.mem_map_of_mem here) ?_ ({ firstRecord n with time := 100 } : Record).timeRow
    (held' ▸ List.mem_map_of_mem here) rfl
  · have now : (100000000 : Ptime) - fromTimeT 100 = 0 := by decide
    have up : (60 : Int) * 1000000 < 100000000 - fromTimeT 100 := expired
    rw [now] at up
    exact absurd up (by decide)
  · rw [exec_cleanHeader_expired Sqlite.inOrder_sound held' own (late_first s')]
    have emptied : (rs'.remove firstHeader.key firstHeader.title).records = [] := by
      simp only [RecordStore.remove, RecordStore.keep, renewed]
      exact List.filter_eq_nil_iff.mpr (by simp [firstHeader, firstRecord, Record.pair])
    simp [Node.holding, RecordStore.tables, emptied]

/-- The theorem at a section for the record as it was stored. -/
theorem sweep_republishes_iff_first :
    ∃ step : Section, ¬ step.Late ∧ step.Republishes later := by
  obtain ⟨s, rs, n, swept, -, ⟨held, -⟩, records, -⟩ := exists_lookedAt 0
  have lives : toUnsigned (toTimeT (0 - fromTimeT firstHeader.time)) ≤ toUnsigned 60 := by decide
  have living : Section.Living ⟨s, 0, firstHeader⟩ := by
    refine ⟨(firstRecord n).timeRow, (Section.stored_iff held).mpr ⟨firstRecord n, ?_, rfl, rfl⟩, lives⟩
    rw [records]
    exact List.mem_singleton_self _
  refine ⟨⟨s, 0, firstHeader⟩, not_late_first s, ?_⟩
  apply (sweep_republishes_iff (w := later) Sqlite.inOrder_sound swept.enter ⟨s, 0, firstHeader⟩
    (List.mem_append_right _ (List.mem_singleton_self _)) (not_late_first s)).mpr
  exact living

/-- Another item takes the place of the first after its header was taken, and publishing the
first again ends the clean-up. -/
theorem sweep_republish_throws :
    (∀ i j, i ≤ j → later.clock i ≤ later.clock j) ∧ ∃ steps s stage, Swept later steps s stage ∧
      ∃ step ∈ steps, ¬ step.Late ∧ ¬ step.Republishes later := by
  obtain ⟨s, rs, n, swept, keeping, ⟨held, limit⟩, records, -⟩ := exists_lookedAt 0
  have clean : Clean "0c" ∧ Clean (peerStores "b" [] 60).dataItem.title :=
    ⟨by decide, (clean_peerStores (by decide)).2⟩
  obtain ⟨s', run⟩ := receive_store_returns keeping.reachable.sane
    Sqlite.inOrder_sound held s.senderEndpoint later_second rfl clean (.inr (by rw [limit]; decide)) (by decide)
  obtain ⟨rs', filed, held', -⟩ := receive_store keeping.reachable.sane Sqlite.inOrder_sound held
    later_second rfl clean run trivial
  rw [limit] at filed
  have strings : (Input.receive s.senderEndpoint [1]).Clean later :=
    Input.clean_store later_second rfl clean
  have input : Act.exec ((Input.receive s.senderEndpoint [1]).run later) s = (.ok (), s') := run
  have swept' := swept.other (by simp) (by simp) strings input trivial
  have entered := swept'.enter
  have own : Clean firstHeader.key ∧ Clean firstHeader.title := by decide
  refine ⟨clock_later, _, _, _, entered, _, List.mem_singleton_self _, not_late_first s',
    fun safe => ?_⟩
  -- the only place in the store went to the other item
  have keys : keyToString 1 ≠ "0c" := by decide
  have bare : rs.under "0c" = [] := by
    rw [RecordStore.under, records]
    exact List.filter_eq_nil_iff.mpr (List.forall_mem_singleton.mpr
      fun same => keys (of_decide_eq_true same))
  obtain ⟨n', others⟩ := filed.of_bare bare
  have before := not_late_first s'
  obtain ⟨row, stored, -⟩ := (@Section.republishes_iff later ⟨s', 0, firstHeader⟩
    Sqlite.inOrder_sound (swept'.keeping Sqlite.inOrder_sound).1 own before).mp safe
  obtain ⟨r, member, pair, -⟩ := (Section.stored_iff held').mp stored
  rw [others, List.mem_singleton] at member
  exact keys (congrArg Prod.fst (member ▸ pair)).symm

end Node

end MiniDht
