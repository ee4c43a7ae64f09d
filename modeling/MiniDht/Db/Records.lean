import MiniDht.Db.Oldest

/-!
# Records and their rows

What the record store is for: a list of records, no two with the same key and title.
`RecordStore.tables` lays the records out in the three tables, and every method that
writes, on clean strings and a sound engine, has on the tables the effect that its name
promises on the records.
-/

namespace MiniDht

open Lib

/-- A record, with the id its header gets. -/
structure Record where
  id : Nat
  key : String
  title : String
  time : Int
  ttl : Int
  data : List UInt8
  deriving DecidableEq, Repr

namespace Record

def pair (r : Record) : String × String := (r.key, r.title)

def header (r : Record) : Header := { id := r.id, key := r.key, title := r.title }

def timeRow (r : Record) : TimeRow := { timeId := r.id, time := r.time, ttl := r.ttl }

def itemRow (r : Record) : ItemRow := { itemId := r.id, data := r.data }

/-- The record as it is handed out. -/
def item (r : Record) : DataItemProto where
  ttl := toUnsigned r.ttl
  time := toUnsigned r.time
  title := r.title
  data := r.data

/-- The record as it is handed out without its data. -/
def head (r : Record) : DataItemProto where
  ttl := toUnsigned r.ttl
  time := toUnsigned r.time
  title := r.title

end Record

/-- Records with distinct ids, none above `seq`, and distinct pairs of key and title. -/
structure RecordStore where
  seq : Nat
  records : List Record
  ids : (records.map Record.id).Nodup
  bound : ∀ r ∈ records, r.id ≤ seq
  pairs : (records.map Record.pair).Nodup

namespace RecordStore

/-- A new database. -/
def empty : RecordStore where
  seq := 0
  records := []
  ids := List.nodup_nil
  bound := by simp
  pairs := List.nodup_nil

/-- The rows of the records. -/
def tables (s : RecordStore) : Tables where
  seq := s.seq
  dataHeader := s.records.map Record.header
  dataTime := s.records.map Record.timeRow
  dataItem := s.records.map Record.itemRow

theorem tables_empty : empty.tables = {} := rfl

theorem records_of_rows {l l' : List Record} (headers : l.map Record.header = l'.map Record.header)
    (times : l.map Record.timeRow = l'.map Record.timeRow)
    (items : l.map Record.itemRow = l'.map Record.itemRow) : l = l' := by
  induction l generalizing l' with
  | nil => exact (List.map_eq_nil_iff.mp headers.symm).symm
  | cons r l ih =>
    cases l' with
    | nil => cases headers
    | cons r' l' =>
      obtain ⟨header, headers⟩ := List.cons.inj headers
      obtain ⟨time, times⟩ := List.cons.inj times
      obtain ⟨item, items⟩ := List.cons.inj items
      rw [ih headers times items]
      cases r
      cases r'
      simp_all [Record.header, Record.timeRow, Record.itemRow]

/-- The tables tell the records. -/
theorem records_of_tables {rs rs' : RecordStore} (same : rs.tables = rs'.tables) :
    rs.records = rs'.records :=
  records_of_rows (congrArg Tables.dataHeader same) (congrArg Tables.dataTime same)
    (congrArg Tables.dataItem same)

/-- The records under a key. -/
def under (s : RecordStore) (key : String) : List Record :=
  s.records.filter fun r => r.key = key

theorem mem_under {s : RecordStore} {key : String} {r : Record} :
    r ∈ s.under key ↔ r ∈ s.records ∧ r.key = key := by
  simp [under]

/-- No record has this key and title. -/
def Absent (s : RecordStore) (key title : String) : Prop :=
  ∀ r ∈ s.records, r.pair ≠ (key, title)

instance (s : RecordStore) (key title : String) : Decidable (s.Absent key title) :=
  inferInstanceAs (Decidable (∀ r ∈ s.records, r.pair ≠ (key, title)))

theorem absent_of_under_eq_nil {s : RecordStore} {key title : String} (bare : s.under key = []) :
    s.Absent key title := fun r member pair =>
  List.filter_eq_nil_iff.mp bare r member (decide_eq_true (congrArg Prod.fst pair))

/-- No key or title breaks out of the text of a statement. -/
def CleanStrings (s : RecordStore) : Prop :=
  ∀ r ∈ s.records, Clean r.key ∧ Clean r.title

/-- Add a record. -/
def insert (s : RecordStore) (key title : String) (time ttl : Int) (data : List UInt8)
    (absent : s.Absent key title) : RecordStore where
  seq := s.seq + 1
  records := s.records ++
    [{ id := s.seq + 1, key := key, title := title, time := time, ttl := ttl, data := data }]
  ids := by
    rw [List.map_append, List.nodup_append]
    refine ⟨s.ids, List.nodup_singleton _, ?_⟩
    intro i old j new same
    obtain ⟨r, member, rfl⟩ := List.mem_map.mp old
    have below := s.bound r member
    simp only [List.map_cons, List.map_nil, List.mem_singleton] at new
    omega
  bound := by
    intro r member
    rcases List.mem_append.mp member with old | new
    · exact Nat.le_succ_of_le (s.bound r old)
    · rw [List.mem_singleton.mp new]
  pairs := by
    rw [List.map_append, List.nodup_append]
    refine ⟨s.pairs, List.nodup_singleton _, ?_⟩
    intro p old q new same
    obtain ⟨r, member, rfl⟩ := List.mem_map.mp old
    exact absent r member (same.trans (List.mem_singleton.mp new))

/-- Keep the records that pass a test. -/
def keep (s : RecordStore) (p : Record → Bool) : RecordStore where
  seq := s.seq
  records := s.records.filter p
  ids := s.ids.sublist (List.filter_sublist.map _)
  bound := fun r member => s.bound r (List.mem_of_mem_filter member)
  pairs := s.pairs.sublist (List.filter_sublist.map _)

/-- Drop the record with this key and title. -/
def remove (s : RecordStore) (key title : String) : RecordStore :=
  s.keep fun r => r.pair ≠ (key, title)

/-- The record with its time and ttl replaced, if it has this key and title. -/
def retime (key title : String) (time ttl : Int) (r : Record) : Record :=
  if r.pair = (key, title) then { r with time := time, ttl := ttl } else r

@[simp] theorem id_retime (key title : String) (time ttl : Int) (r : Record) :
    (retime key title time ttl r).id = r.id := by
  unfold retime
  split <;> rfl

@[simp] theorem header_retime (key title : String) (time ttl : Int) (r : Record) :
    (retime key title time ttl r).header = r.header := by
  unfold retime
  split <;> rfl

@[simp] theorem itemRow_retime (key title : String) (time ttl : Int) (r : Record) :
    (retime key title time ttl r).itemRow = r.itemRow := by
  unfold retime
  split <;> rfl

@[simp] theorem pair_retime (key title : String) (time ttl : Int) (r : Record) :
    (retime key title time ttl r).pair = r.pair := by
  unfold retime
  split <;> rfl

/-- Replace the time and ttl of the record with this key and title. -/
def update (s : RecordStore) (key title : String) (time ttl : Int) : RecordStore where
  seq := s.seq
  records := s.records.map (retime key title time ttl)
  ids := by
    have same : Record.id ∘ retime key title time ttl = Record.id := funext fun r => by simp
    rw [List.map_map, same]
    exact s.ids
  bound := by
    intro r member
    obtain ⟨old, kept, rfl⟩ := List.mem_map.mp member
    rw [id_retime]
    exact s.bound old kept
  pairs := by
    have same : Record.pair ∘ retime key title time ttl = Record.pair := funext fun r => by simp
    rw [List.map_map, same]
    exact s.pairs

/-! ## Rows of one record -/

variable {s : RecordStore}

/-- A record is known by its id. -/
theorem eq_of_id {r r' : Record} (here : r ∈ s.records) (there : r' ∈ s.records)
    (same : r.id = r'.id) : r = r' :=
  List.inj_on_of_nodup_map s.ids here there same

theorem byKey_tables (key : String) : s.tables.byKey key = (s.under key).map Record.header := by
  simp only [Tables.byKey, tables, under, List.filter_map]
  rfl

theorem byTitle_tables (key title : String) : s.tables.byTitle key title =
    (s.records.filter fun r => r.pair = (key, title)).map Record.header := by
  simp only [Tables.byTitle, tables, List.filter_map]
  congr 2
  funext r
  exact decide_eq_decide.mpr (by simp only [Record.header, Record.pair, Prod.mk.injEq])

/-- Selecting the ids of some records' headers selects those records. -/
theorem id_mem_headerIds {p : Record → Bool} {r : Record} (here : r ∈ s.records) :
    r.id ∈ Tables.headerIds ((s.records.filter p).map Record.header) ↔ p r = true := by
  simp only [Tables.headerIds, List.map_map, List.mem_map, List.mem_filter, Function.comp_apply]
  constructor
  · rintro ⟨r', ⟨there, chosen⟩, same⟩
    rwa [eq_of_id there here same] at chosen
  · intro chosen
    exact ⟨r, ⟨here, chosen⟩, rfl⟩

/-- The rows of another table that are tied to them by the id are theirs. -/
theorem id_mem_joined {β : Type} {key : β → Nat} {row : Record → β} {p : Record → Bool}
    {r : Record} (tied : ∀ r, key (row r) = r.id) (here : r ∈ s.records) :
    r.id ∈ ((((s.records.filter p).map Record.header) ×ˢ s.records.map row).filter
      fun x => x.1.id = key x.2).map (fun x => key x.2) ↔ p r = true := by
  simp only [List.mem_map, List.mem_filter, decide_eq_true_eq]
  constructor
  · rintro ⟨⟨h, t⟩, ⟨pairs, joined⟩, same⟩
    obtain ⟨listed, -⟩ := List.mem_product.mp pairs
    obtain ⟨r', chosen, rfl⟩ := List.mem_map.mp listed
    obtain ⟨there, passes⟩ := List.mem_filter.mp chosen
    rwa [eq_of_id there here (joined.trans same)] at passes
  · intro chosen
    refine ⟨(r.header, row r), ⟨List.mem_product.mpr ⟨?_, ?_⟩, (tied r).symm⟩, tied r⟩
    · exact List.mem_map_of_mem (List.mem_filter.mpr ⟨here, chosen⟩)
    · exact List.mem_map_of_mem here

theorem id_mem_timeIds {p : Record → Bool} {r : Record} (here : r ∈ s.records) :
    r.id ∈ s.tables.timeIds ((s.records.filter p).map Record.header) ↔ p r = true :=
  @id_mem_joined s _ TimeRow.timeId Record.timeRow p r (fun _ => rfl) here

theorem id_mem_itemIds {p : Record → Bool} {r : Record} (here : r ∈ s.records) :
    r.id ∈ s.tables.itemIds ((s.records.filter p).map Record.header) ↔ p r = true :=
  @id_mem_joined s _ ItemRow.itemId Record.itemRow p r (fun _ => rfl) here

/-! ## The effect of each statement -/

/-- Deleting headers deletes their records. -/
theorem deleteIds_tables {ids : List Nat} {p : Record → Bool}
    (chosen : ∀ r ∈ s.records, r.id ∈ ids ↔ p r = false) :
    s.tables.deleteIds ids = (s.keep p).tables := by
  have rows {β : Type} (row : Record → β) (id : β → Nat) (tied : ∀ r, id (row r) = r.id) :
      (s.records.map row).filter (fun b => id b ∉ ids) = (s.records.filter p).map row := by
    rw [List.filter_map]
    congr 1
    apply List.filter_congr
    intro r member
    simp [tied, chosen r member]
  simp only [Tables.deleteIds, tables, keep, Tables.mk.injEq, true_and]
  exact ⟨rows _ Header.id fun _ => rfl, rows _ TimeRow.timeId fun _ => rfl,
    rows _ ItemRow.itemId fun _ => rfl⟩

theorem eval_deleteHeader (n : Nat) (key title : String) :
    (deleteHeader key title).eval n s.tables = some ((s.remove key title).tables, []) := by
  simp only [deleteHeader, byTitle_tables, Option.some.injEq, Prod.mk.injEq, and_true, remove]
  apply deleteIds_tables
  intro r member
  rw [id_mem_headerIds member]
  simp

theorem eval_updateTime (n : Nat) (key title : String) (time ttl : Int) :
    (updateTime key title time ttl).eval n s.tables =
      some ((s.update key title time ttl).tables, []) := by
  have times : (s.records.map Record.timeRow).map (fun row =>
      if row.timeId ∈ s.tables.timeIds (s.tables.byTitle key title)
      then { row with time := time, ttl := ttl } else row) =
      (s.records.map (retime key title time ttl)).map Record.timeRow := by
    rw [List.map_map, List.map_map]
    apply List.map_congr_left
    intro r member
    have chosen : r.timeRow.timeId ∈ s.tables.timeIds (s.tables.byTitle key title) ↔
        r.pair = (key, title) := by
      rw [byTitle_tables]
      exact (id_mem_timeIds member).trans decide_eq_true_iff
    simp only [Function.comp_apply, chosen, retime]
    split <;> rfl
  have headers : (s.records.map (retime key title time ttl)).map Record.header =
      s.records.map Record.header := by simp
  have items : (s.records.map (retime key title time ttl)).map Record.itemRow =
      s.records.map Record.itemRow := by simp
  simp only [updateTime, Option.some.injEq, Prod.mk.injEq, and_true]
  simp only [tables, update, headers, items]
  exact congrArg (fun rows => Tables.mk s.seq (s.records.map Record.header) rows
    (s.records.map Record.itemRow)) times

/-- The record a complete insertion adds. -/
def added (s : RecordStore) (key title : String) (time ttl : Int) (data : List UInt8) : Record where
  id := s.seq + 1
  key := key
  title := title
  time := time
  ttl := ttl
  data := data

/-- The tables after the first statement of `insert`, and after the second. -/
def headed (s : RecordStore) (r : Record) : Tables :=
  { s.tables with seq := s.seq + 1, dataHeader := s.tables.dataHeader ++ [r.header] }

def timed (s : RecordStore) (r : Record) : Tables :=
  { s.headed r with dataTime := s.tables.dataTime ++ [r.timeRow] }

theorem byTitle_headed {key title : String} {r : Record} (named : r.pair = (key, title))
    (absent : s.Absent key title) : (s.headed r).byTitle key title = [r.header] := by
  have none : (s.records.map Record.header).filter
      (fun h => decide (h.key = key ∧ h.title = title)) = [] := by
    rw [List.filter_eq_nil_iff]
    intro h listed chosen
    obtain ⟨old, member, rfl⟩ := List.mem_map.mp listed
    have same : old.key = key ∧ old.title = title := of_decide_eq_true chosen
    exact absent old member (Prod.ext same.1 same.2)
  have here : r.header.key = key ∧ r.header.title = title :=
    ⟨congrArg Prod.fst named, congrArg Prod.snd named⟩
  rw [Tables.byTitle, headed, List.filter_append]
  simp only [tables, none, List.nil_append]
  exact List.filter_cons_of_pos (decide_eq_true here)

theorem eval_insertTime (n : Nat) {key title : String} {time ttl : Int} {data : List UInt8}
    (absent : s.Absent key title) :
    (insertTime key title time ttl).eval n (s.headed (s.added key title time ttl data)) =
      some (s.timed (s.added key title time ttl data), []) := by
  have chosen : (s.headed (s.added key title time ttl data)).byTitle key title =
      [(s.added key title time ttl data).header] :=
    byTitle_headed (r := s.added key title time ttl data) rfl absent
  simp only [insertTime, chosen, Option.some.injEq, Prod.mk.injEq, and_true]
  rfl

theorem eval_insertItem (n : Nat) {key title : String} {time ttl : Int} {data : List UInt8}
    (absent : s.Absent key title) :
    (insertItem key title data).eval n (s.timed (s.added key title time ttl data)) =
      some ((s.insert key title time ttl data absent).tables, []) := by
  have chosen : (s.timed (s.added key title time ttl data)).byTitle key title =
      [(s.added key title time ttl data).header] :=
    byTitle_headed (r := s.added key title time ttl data) rfl absent
  simp only [insertItem, chosen, Option.some.injEq, Prod.mk.injEq, and_true]
  simp [timed, headed, tables, insert, added, Record.header, Record.timeRow, Record.itemRow]

/-- Headers, times and items belong together one to one. -/
theorem paired_tables (s : RecordStore) : s.tables.Paired where
  ids := by
    rw [tables, List.map_map]
    exact s.ids
  times := by
    rw [tables, List.map_map, List.map_map]
    exact .refl _
  items := by
    rw [tables, List.map_map, List.map_map]
    exact .refl _

/-- `remove_oldest` sorts the pairs of a header and any time row, so what it deletes is
some record, whatever its time. -/
theorem eval_deleteOldest (n : Nat) (some : s.records ≠ []) :
    ∃ r ∈ s.records, deleteOldest.eval n s.tables =
      Option.some ((s.keep fun r' => r'.id ≠ r.id).tables, []) := by
  obtain ⟨r₀, here⟩ := List.exists_mem_of_ne_nil _ some
  have first : r₀.id ∈ s.tables.dataHeader.map Header.id :=
    List.mem_map_of_mem (f := Header.id) (List.mem_map_of_mem here)
  obtain ⟨id, chosen, effect⟩ := Tables.eval_deleteOldest_some n
    (List.ne_nil_of_mem (s.paired_tables.mem_oldestIds.mpr first))
  obtain ⟨h, listed, rfl⟩ := List.mem_map.mp (s.paired_tables.mem_oldestIds.mp chosen)
  obtain ⟨r, member, rfl⟩ := List.mem_map.mp listed
  refine ⟨r, member, ?_⟩
  rw [effect, deleteIds_tables fun r' other => ?_]
  simp [Record.header]

/-! ## The methods -/

section Methods

variable {q : Sqlite Tables Row} {n : Nat} {key title : String} {time ttl : Int}
  {data : List UInt8}

/-- `clear` leaves a new database. -/
theorem exec_clear (sound : q.Sound) :
    Act.exec (DbMultiKeyData.clear q) ⟨s.tables, n⟩ = (.ok (), ⟨empty.tables, n + 4⟩) := by
  have none : s.tables.deleteIds (s.tables.dataHeader.map Header.id) =
      (s.keep fun _ => false).tables := by
    apply deleteIds_tables
    intro r member
    have there : r.id ∈ s.tables.dataHeader.map Header.id :=
      List.mem_map_of_mem (f := Header.id) (List.mem_map_of_mem member)
    simpa using there
  have dropped : { s.tables.deleteIds (s.tables.dataHeader.map Header.id) with seq := 0 } =
      empty.tables := by
    rw [none]
    simp [tables, keep, empty]
  have headers := exec_sound (f := ("SQL error in DROP table : " ++ ·)) (c := ⟨s.tables, n⟩) sound
    reads_dropHeader (t := empty.tables) (r := []) (congrArg (fun t => some (t, [])) dropped)
  have times := exec_sound (f := ("SQL error in DROP table : " ++ ·)) (c := ⟨empty.tables, n + 1⟩)
    sound reads_dropTime (t := empty.tables) (r := []) rfl
  have items := exec_sound (f := ("SQL error in DROP table : " ++ ·)) (c := ⟨empty.tables, n + 2⟩)
    sound reads_dropItem (t := empty.tables) (r := []) rfl
  have created := exec_sound (f := ("SQL error in CREATE TABLE : " ++ ·))
    (c := ⟨empty.tables, n + 3⟩) sound reads_createTables (t := empty.tables) (r := []) rfl
  rw [DbMultiKeyData.clear, Act.exec_bind_ok headers, Act.exec_bind_ok times,
    Act.exec_bind_ok items, DbMultiKeyData.createTable, Act.exec_bind_ok created]
  rfl

theorem exec_remove (sound : q.Sound) (clean : Clean key ∧ Clean title) :
    Act.exec (DbMultiKeyData.remove q key title) ⟨s.tables, n⟩ =
      (.ok (), ⟨(s.remove key title).tables, n + 1⟩) := by
  have run := exec_sound (f := ("SQL error in DELETE : " ++ ·)) (c := ⟨s.tables, n⟩) sound
    (reads_deleteHeader.mpr clean) (eval_deleteHeader _ key title)
  rw [DbMultiKeyData.remove, Act.exec_bind_ok run]
  rfl

theorem exec_removeOldest (sound : q.Sound) (some : s.records ≠ []) :
    ∃ r ∈ s.records, Act.exec (DbMultiKeyData.removeOldest q) ⟨s.tables, n⟩ =
      (.ok (), ⟨(s.keep fun r' => r'.id ≠ r.id).tables, n + 1⟩) := by
  obtain ⟨r, member, effect⟩ := eval_deleteOldest (q.choice n) some
  exact ⟨r, member, DbMultiKeyData.exec_removeOldest_of sound effect⟩

theorem exec_removeOldest_empty (sound : q.Sound) (none : s.records = []) :
    Act.exec (DbMultiKeyData.removeOldest q) ⟨s.tables, n⟩ = (.ok (), ⟨s.tables, n + 1⟩) := by
  have effect : deleteOldest.eval (q.choice n) s.tables = some (s.tables, []) := by
    simp [deleteOldest, oldestIds, tables, none]
  exact DbMultiKeyData.exec_removeOldest_of sound effect

theorem exec_update (sound : q.Sound) (clean : Clean key ∧ Clean title) :
    Act.exec (DbMultiKeyData.update q key title time ttl) ⟨s.tables, n⟩ =
      (.ok (), ⟨(s.update key title time ttl).tables, n + 1⟩) := by
  have run := exec_sound (f := ("SQL error in UPDATE table : " ++ ·)) (c := ⟨s.tables, n⟩)
    sound (reads_updateTime.mpr clean) (eval_updateTime _ key title time ttl)
  rw [DbMultiKeyData.update, Act.exec_bind_ok run]
  rfl

theorem exec_insert (sound : q.Sound) (clean : Clean key ∧ Clean title)
    (absent : s.Absent key title) :
    Act.exec (DbMultiKeyData.insert q key title time ttl data) ⟨s.tables, n⟩ =
      (.ok (), ⟨(s.insert key title time ttl data absent).tables, n + 6⟩) := by
  let r := s.added key title time ttl data
  have header := exec_sound (f := ("SQL error in INSERT data_header : " ++ ·))
    (c := ⟨s.tables, n⟩) sound (reads_insertHeader.mpr clean) (t := s.headed r) (r := []) rfl
  have times := exec_sound (f := ("SQL error in INSERT data_time : " ++ ·))
    (c := ⟨s.headed r, n + 1⟩) sound (reads_insertTime.mpr clean)
    (eval_insertTime (q.choice (n + 1)) absent)
  have prepared := prepare_sound (f := ("SQL error in prepare INSERT data_item : " ++ ·))
    (c := ⟨s.timed r, n + 2⟩) sound (reads_insertItem.mpr clean)
    (Option.isSome_of_eq_some (eval_insertItem (q.choice (n + 2)) absent))
  have items := exec_sound (f := ("SQL error step in INSERT : " ++ ·))
    (c := ⟨s.timed r, n + 4⟩) sound (reads_insertItem.mpr clean)
    (eval_insertItem (q.choice (n + 4)) absent)
  rw [DbMultiKeyData.insert, Act.exec_bind_ok header, Act.exec_bind_ok times,
    Act.exec_bind_ok prepared, Act.exec_bind_ok (exec_call q sound _ _), Act.exec_bind_ok items,
    Act.exec_bind_ok (exec_call q sound _ _)]
  rfl

/-! ## The methods that count -/

theorem exec_count (sound : q.Sound) (clean : Clean key) :
    Act.exec (DbMultiKeyData.count q key) ⟨s.tables, n⟩ =
      (.ok (s.under key).length, ⟨s.tables, n + 1⟩) := by
  have run := exec_sound (f := ("SQL error in SELECT Count(*) WHERE key = '" ++ key ++ "' : " ++ ·))
    (c := ⟨s.tables, n⟩) sound (reads_countKey.mpr clean) rfl
  rw [DbMultiKeyData.count, Act.exec_bind_ok run, List.perm_singleton.mp (q.arrange_perm _ _)]
  simp [DbMultiKeyData.readCount, byKey_tables]

theorem exec_size (sound : q.Sound) :
    Act.exec (DbMultiKeyData.size q) ⟨s.tables, n⟩ =
      (.ok s.records.length, ⟨s.tables, n + 1⟩) := by
  have run := exec_sound (f := ("SQL error in SELECT Count(*) : " ++ ·))
    (c := ⟨s.tables, n⟩) sound reads_countAll rfl
  rw [DbMultiKeyData.size, Act.exec_bind_ok run, List.perm_singleton.mp (q.arrange_perm _ _)]
  simp [DbMultiKeyData.readCount, tables]

end Methods

end RecordStore

end MiniDht
