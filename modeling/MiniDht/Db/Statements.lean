import MiniDht.Lib.Rows
import MiniDht.Lib.Sqlite

/-!
# The statements of the two databases

A record is a row of `data_header`, one of `data_time` and one of `data_item`, tied by
the id of the header. Each statement below has the text the source builds, cut at its
string literals, and the effect of that text on the three tables: a comma-joined SELECT
is the filtered product of its tables, and deleting a header deletes the rows that
refer to it (`ON DELETE CASCADE`). The backup of the contact list is one table
(`db_key_value`).
-/

set_option maxRecDepth 4000

namespace MiniDht

open Lib

/-- `data_header(id INTEGER PRIMARY KEY AUTOINCREMENT, key TEXT, title TEXT)`. -/
structure Header where
  id : Nat
  key : String
  title : String
  deriving DecidableEq, Repr

/-- `data_time(time_id INTEGER, time BIGINT, ttl BIGINT)`. -/
structure TimeRow where
  timeId : Nat
  time : Int
  ttl : Int
  deriving DecidableEq, Repr

/-- `data_item(item_id INTEGER, data BLOB)`. -/
structure ItemRow where
  itemId : Nat
  data : List UInt8
  deriving DecidableEq, Repr

/-- The database; `seq` is the highest header id ever given out. -/
structure Tables where
  seq : Nat := 0
  dataHeader : List Header := []
  dataTime : List TimeRow := []
  dataItem : List ItemRow := []
  deriving DecidableEq, Repr

/-- A result row, by the column names the readers look for. -/
structure Row where
  key : Option String := none
  time : Option Int := none
  ttl : Option Int := none
  title : Option String := none
  data : Option (List UInt8) := none
  count : Option Nat := none
  deriving DecidableEq, Repr

/-- A statement on the records. -/
abbrev DbStmt := Stmt Tables Row

namespace Tables

variable (t : Tables)

/-- The headers under a key. -/
def byKey (key : String) : List Header :=
  t.dataHeader.filter fun h => h.key = key

/-- The headers under a key and title. -/
def byTitle (key title : String) : List Header :=
  t.dataHeader.filter fun h => h.key = key ∧ h.title = title

/-- `SELECT data_header.id` over the chosen headers. -/
def headerIds (headers : List Header) : List Nat :=
  headers.map (·.id)

/-- `SELECT data_time.time_id FROM data_header, data_time` over the chosen headers,
where the ids agree. -/
def timeIds (headers : List Header) : List Nat :=
  ((headers ×ˢ t.dataTime).filter fun p => p.1.id = p.2.timeId).map (·.2.timeId)

/-- `SELECT data_item.item_id FROM data_header, data_item` over the chosen headers,
where the ids agree. -/
def itemIds (headers : List Header) : List Nat :=
  ((headers ×ˢ t.dataItem).filter fun p => p.1.id = p.2.itemId).map (·.2.itemId)

/-- `FROM data_header, data_time, data_item`. -/
def product : List (Header × TimeRow × ItemRow) :=
  t.dataHeader ×ˢ t.dataTime ×ˢ t.dataItem

/-- `DELETE FROM data_header`, with the rows that refer to a deleted header. -/
def deleteIds (ids : List Nat) : Tables :=
  { t with
    dataHeader := t.dataHeader.filter fun h => h.id ∉ ids
    dataTime := t.dataTime.filter fun r => r.timeId ∉ ids
    dataItem := t.dataItem.filter fun r => r.itemId ∉ ids }

end Tables

/-! ## The tables themselves -/

/-- A statement without literals. -/
def fixed (text : String) (clean : Clean text) (eval : Tables → Tables) : DbStmt where
  template := { head := text, tail := [], plain := by simpa using clean }
  values := []
  fits := rfl
  eval _ t := some (eval t, [])

/-- `DROP TABLE` of the headers: they are deleted first, with the rows that refer to them,
and ids are given out from the start again. -/
def dropHeader : DbStmt :=
  fixed "DROP TABLE IF EXISTS data_header" (.ofList rfl rfl) fun t =>
    { t.deleteIds (t.dataHeader.map Header.id) with seq := 0 }

def dropTime : DbStmt :=
  fixed "DROP TABLE IF EXISTS data_time" (.ofList rfl rfl) fun t => { t with dataTime := [] }

def dropItem : DbStmt :=
  fixed "DROP TABLE IF EXISTS data_item" (.ofList rfl rfl) fun t => { t with dataItem := [] }

/-- The statements of `create_table`, in one text. A table that is not there counts as an
empty one here, so nothing changes. -/
def createTables : DbStmt :=
  fixed "PRAGMA foreign_keys = ON;CREATE TABLE IF NOT EXISTS data_header(id INTEGER PRIMARY KEY AUTOINCREMENT, key TEXT, title TEXT);CREATE TABLE IF NOT EXISTS data_time(time_id INTEGER, time BIGINT, ttl BIGINT, FOREIGN KEY (time_id) REFERENCES data_header(id) ON DELETE CASCADE);CREATE TABLE IF NOT EXISTS data_item(item_id INTEGER, data BLOB, FOREIGN KEY (item_id) REFERENCES data_header(id) ON DELETE CASCADE);CREATE INDEX IF NOT EXISTS data_header_key_title ON data_header(key, title);"
    (.ofList rfl rfl) fun t => t

/-! ## Writing -/

/-- `INSERT INTO data_header VALUES(NULL, 'key', 'title')`. -/
def insertHeader (key title : String) : DbStmt where
  template :=
    { head := "INSERT INTO data_header VALUES(NULL, "
      tail := [", ", ")"] }
  values := [key, title]
  fits := rfl
  eval _ t :=
    some ({ t with
      seq := t.seq + 1
      dataHeader := t.dataHeader ++ [{ id := t.seq + 1, key := key, title := title }] }, [])

/-- `INSERT INTO data_time SELECT data_header.id, 'time', 'ttl' …`: one row for every
header under the key and title. -/
def insertTime (key title : String) (time ttl : Int) : DbStmt where
  template :=
    { head := "INSERT INTO data_time SELECT data_header.id, "
      tail := [", ", " FROM data_header WHERE data_header.key = ", " AND data_header.title = ", " "] }
  values := [toString time, toString ttl, key, title]
  fits := rfl
  eval _ t :=
    some ({ t with
      dataTime := t.dataTime ++
        (t.byTitle key title).map fun h => { timeId := h.id, time := time, ttl := ttl } }, [])

/-- `INSERT INTO data_item SELECT data_header.id, ? …`, with `data` bound. -/
def insertItem (key title : String) (data : List UInt8) : DbStmt where
  template :=
    { head := "INSERT INTO data_item SELECT data_header.id, ? FROM data_header WHERE data_header.key = "
      tail := [" AND data_header.title = ", " "] }
  values := [key, title]
  fits := rfl
  eval _ t :=
    some ({ t with
      dataItem := t.dataItem ++
        (t.byTitle key title).map fun h => { itemId := h.id, data := data } }, [])

/-- `UPDATE data_time SET time = 'time', ttl = 'ttl' …`. -/
def updateTime (key title : String) (time ttl : Int) : DbStmt where
  template :=
    { head := "UPDATE data_time SET time = "
      tail := [", ttl = ",
        " WHERE data_time.time_id IN ( SELECT data_time.time_id FROM data_time, data_header WHERE data_header.key = ",
        " AND data_header.title = ",
        " AND data_time.time_id = data_header.id)"] }
  values := [toString time, toString ttl, key, title]
  fits := rfl
  eval _ t :=
    some ({ t with
      dataTime := t.dataTime.map fun r =>
        if r.timeId ∈ t.timeIds (t.byTitle key title) then { r with time := time, ttl := ttl }
        else r }, [])

/-- `DELETE FROM data_header WHERE key = 'key' AND title = 'title'`. -/
def deleteHeader (key title : String) : DbStmt where
  template :=
    { head := "DELETE FROM data_header WHERE key = "
      tail := [" AND title = ", ""] }
  values := [key, title]
  fits := rfl
  eval _ t := some (t.deleteIds (Tables.headerIds (t.byTitle key title)), [])

/-- The ids `remove_oldest` may select: those of the rows of the product that have the
smallest time. The product is not restricted to matching ids. -/
def oldestIds (t : Tables) : List Nat :=
  let rows := t.dataHeader ×ˢ t.dataTime
  (rows.filter fun p => rows.all fun q => p.2.time ≤ q.2.time).map (·.1.id)

/-- `DELETE FROM data_header WHERE id IN (SELECT … ORDER BY data_time.time ASC LIMIT 1)`;
among rows of equal time any may come first. -/
def deleteOldest : DbStmt where
  template :=
    { head := "DELETE FROM data_header WHERE id IN (SELECT data_header.id FROM data_header, data_time ORDER BY data_time.time ASC LIMIT 1)"
      tail := [] }
  values := []
  fits := rfl
  eval choice t :=
    match oldestIds t with
    | [] => some (t, [])
    | id :: ids => some (t.deleteIds [(id :: ids).getD (choice % (ids.length + 1)) id], [])

/-! ## Reading -/

/-- `SELECT Count(*) FROM data_header WHERE key = 'key'`. -/
def countKey (key : String) : DbStmt where
  template :=
    { head := "SELECT Count(*) FROM data_header WHERE key = "
      tail := [""] }
  values := [key]
  fits := rfl
  eval _ t := some (t, [{ count := some (t.byKey key).length }])

/-- `SELECT Count(*) FROM data_header`. -/
def countAll : DbStmt where
  template :=
    { head := "SELECT Count(*) FROM data_header"
      tail := [] }
  values := []
  fits := rfl
  eval _ t := some (t, [{ count := some t.dataHeader.length }])

/-- The four columns of a record. -/
def itemRow (p : Header × TimeRow × ItemRow) : Row where
  time := some p.2.1.time
  ttl := some p.2.1.ttl
  title := some p.1.title
  data := some p.2.2.data

/-- The three columns of a record without its data. -/
def headRow (p : Header × TimeRow × ItemRow) : Row where
  time := some p.2.1.time
  ttl := some p.2.1.ttl
  title := some p.1.title

/-- The SELECT of `find(key, title)`. -/
def selectTitle (key title : String) : DbStmt where
  template :=
    { head := "SELECT data_time.time, data_time.ttl, data_header.title, data_item.data FROM data_header, data_time, data_item WHERE data_header.id IN (SELECT data_header.id FROM data_header WHERE key = "
      tail := [" AND title = ",
        ") AND data_time.time_id IN ( SELECT data_time.time_id FROM data_header, data_time WHERE data_header.key = ",
        " AND data_header.title = ",
        "  AND data_header.id = data_time.time_id) AND data_item.item_id IN ( SELECT data_item.item_id FROM data_header, data_item WHERE data_header.key = ",
        " AND data_header.title = ",
        " AND data_header.id = data_item.item_id);"] }
  values := [key, title, key, title, key, title]
  fits := rfl
  eval _ t :=
    let headers := t.byTitle key title
    some (t, (t.product.filter fun p =>
      p.1.id ∈ Tables.headerIds headers ∧ p.2.1.timeId ∈ t.timeIds headers ∧
        p.2.2.itemId ∈ t.itemIds headers).map itemRow)

/-- The SELECT of `find(key)`. -/
def selectKey (key : String) : DbStmt where
  template :=
    { head := "SELECT data_time.time, data_time.ttl, data_header.title, data_item.data FROM data_header, data_time, data_item WHERE data_header.id IN ( SELECT data_header.id FROM data_header WHERE key = "
      tail := [
        ") AND data_time.time_id IN ( SELECT data_time.time_id FROM data_header, data_time WHERE data_header.key = ",
        " AND data_header.id = data_time.time_id) AND data_item.item_id IN ( SELECT data_item.item_id FROM data_header, data_item WHERE data_header.key = ",
        " AND data_header.id = data_item.item_id);"] }
  values := [key, key, key]
  fits := rfl
  eval _ t :=
    let headers := t.byKey key
    some (t, (t.product.filter fun p =>
      p.1.id ∈ Tables.headerIds headers ∧ p.2.1.timeId ∈ t.timeIds headers ∧
        p.2.2.itemId ∈ t.itemIds headers).map itemRow)

/-- The SELECT of `find_no_blob(key)`. It joins `data_item` without restricting it. -/
def selectNoBlob (key : String) : DbStmt where
  template :=
    { head := "SELECT data_time.time, data_time.ttl, data_header.title FROM data_header, data_time, data_item WHERE data_header.id IN ( SELECT data_header.id FROM data_header WHERE key = "
      tail := [
        ") AND data_time.time_id IN ( SELECT data_time.time_id FROM data_header, data_time WHERE data_header.key = ",
        " AND data_header.id = data_time.time_id)"] }
  values := [key, key]
  fits := rfl
  eval _ t :=
    let headers := t.byKey key
    some (t, (t.product.filter fun p =>
      p.1.id ∈ Tables.headerIds headers ∧ p.2.1.timeId ∈ t.timeIds headers).map headRow)

/-- The SELECT of `list`: the key is not among its columns. -/
def selectAll : DbStmt where
  template :=
    { head := "SELECT data_time.time, data_time.ttl, data_header.title, data_item.data FROM data_header, data_time, data_item WHERE data_header.id = data_time.time_id AND data_header.id = data_item.item_id"
      tail := [] }
  values := []
  fits := rfl
  eval _ t :=
    some (t, (t.product.filter fun p => p.1.id = p.2.1.timeId ∧ p.1.id = p.2.2.itemId).map itemRow)

/-- The SELECT of `list_headers`. -/
def selectHeaders : DbStmt where
  template :=
    { head := "SELECT data_header.key, data_time.time, data_time.ttl, data_header.title FROM data_header, data_time, data_item WHERE data_header.id = data_time.time_id AND data_header.id = data_item.item_id"
      tail := [] }
  values := []
  fits := rfl
  eval _ t :=
    some (t, (t.product.filter fun p => p.1.id = p.2.1.timeId ∧ p.1.id = p.2.2.itemId).map
      fun p => { headRow p with key := some p.1.key })

/-! ## Reading the texts -/

section Reads

variable {key title : String} {time ttl : Int} {data : List UInt8}

theorem reads_fixed {text : String} (clean : Clean text) (eval : Tables → Tables) :
    (fixed text clean eval).Reads := by
  simp [Stmt.reads_iff, fixed]

theorem reads_dropHeader : dropHeader.Reads := reads_fixed _ _

theorem reads_dropTime : dropTime.Reads := reads_fixed _ _

theorem reads_dropItem : dropItem.Reads := reads_fixed _ _

theorem reads_createTables : createTables.Reads := reads_fixed _ _

theorem reads_insertHeader : (insertHeader key title).Reads ↔ Clean key ∧ Clean title := by
  simp [Stmt.reads_iff, insertHeader]

theorem reads_insertTime : (insertTime key title time ttl).Reads ↔ Clean key ∧ Clean title := by
  simp only [Stmt.reads_iff, insertTime, List.forall_mem_cons, List.not_mem_nil, false_implies,
    implies_true, and_true, clean_int, true_and]

theorem reads_insertItem : (insertItem key title data).Reads ↔ Clean key ∧ Clean title := by
  simp [Stmt.reads_iff, insertItem]

theorem reads_updateTime : (updateTime key title time ttl).Reads ↔ Clean key ∧ Clean title := by
  simp only [Stmt.reads_iff, updateTime, List.forall_mem_cons, List.not_mem_nil, false_implies,
    implies_true, and_true, clean_int, true_and]

theorem reads_deleteHeader : (deleteHeader key title).Reads ↔ Clean key ∧ Clean title := by
  simp [Stmt.reads_iff, deleteHeader]

theorem reads_deleteOldest : deleteOldest.Reads := by
  simp [Stmt.reads_iff, deleteOldest]

theorem reads_countKey : (countKey key).Reads ↔ Clean key := by
  simp [Stmt.reads_iff, countKey]

theorem reads_countAll : countAll.Reads := by
  simp [Stmt.reads_iff, countAll]

theorem reads_selectTitle : (selectTitle key title).Reads ↔ Clean key ∧ Clean title := by
  simp only [Stmt.reads_iff, selectTitle, List.forall_mem_cons, List.not_mem_nil, false_implies,
    implies_true, and_true]
  tauto

theorem reads_selectKey : (selectKey key).Reads ↔ Clean key := by
  simp [Stmt.reads_iff, selectKey]

theorem reads_selectNoBlob : (selectNoBlob key).Reads ↔ Clean key := by
  simp [Stmt.reads_iff, selectNoBlob]

theorem reads_selectHeaders : selectHeaders.Reads := by
  simp [Stmt.reads_iff, selectHeaders]

end Reads

/-! ## The contacts -/

/-- The table `contacts(key TEXT PRIMARY KEY, value TEXT)`. -/
abbrev Contacts := List (String × String)

/-- A result row. -/
structure KvRow where
  key : Option String := none
  value : Option String := none
  count : Option Nat := none
  deriving DecidableEq, Repr

/-- A statement on the contacts. -/
abbrev KvStmt := Stmt Contacts KvRow

/-- The statement of `create_table`. A table that is not there counts as an empty one here. -/
def createContacts : KvStmt where
  template :=
    { head := "CREATE TABLE IF NOT EXISTS contacts(key TEXT PRIMARY KEY, value TEXT)"
      tail := [] }
  values := []
  fits := rfl
  eval _ t := some (t, [])

def dropContacts : KvStmt where
  template :=
    { head := "DROP TABLE IF EXISTS contacts"
      tail := [] }
  values := []
  fits := rfl
  eval _ _ := some ([], [])

def selectValue (key : String) : KvStmt where
  template :=
    { head := "SELECT value FROM contacts WHERE key = "
      tail := [""] }
  values := [key]
  fits := rfl
  eval _ t := some (t, (t.filter fun c => c.1 = key).map fun c => { value := some c.2 })

def deleteContact (key : String) : KvStmt where
  template :=
    { head := "DELETE FROM contacts WHERE key = "
      tail := [""] }
  values := [key]
  fits := rfl
  eval _ t := some (t.filter fun c => c.1 ≠ key, [])

/-- An insertion of a key that is there violates the primary key. -/
def insertContact (key value : String) : KvStmt where
  template :=
    { head := "INSERT INTO contacts VALUES("
      tail := [", ", ")"] }
  values := [key, value]
  fits := rfl
  eval _ t := if t.any fun c => c.1 = key then none else some (t ++ [(key, value)], [])

def countContacts : KvStmt where
  template :=
    { head := "SELECT Count(*) FROM contacts"
      tail := [] }
  values := []
  fits := rfl
  eval _ t := some (t, [{ count := some t.length }])

def selectContacts : KvStmt where
  template :=
    { head := "SELECT * FROM contacts"
      tail := [] }
  values := []
  fits := rfl
  eval _ t := some (t, t.map fun c => { key := some c.1, value := some c.2 })

def selectValues : KvStmt where
  template :=
    { head := "SELECT value FROM contacts"
      tail := [] }
  values := []
  fits := rfl
  eval _ t := some (t, t.map fun c => { value := some c.2 })

end MiniDht
