import MiniDht.Const
import MiniDht.Db.Statements

/-!
# The record store

Class `db_multi_key_data`: each method hands its statements to the engine and turns a
refusal into a `std::runtime_error`. The `exec_*` lemmas give what a method does to the
tables when its strings are clean and the engine is sound.
-/

namespace MiniDht

open Lib

/-- `data_item_header_t`. -/
structure DataItemHeader where
  key : String := ""
  title : String := ""
  time : Int := 0
  ttl : Int := 0
  deriving DecidableEq, Repr

/-- Write the columns a row has over an item. -/
def Row.read (r : Row) (out : DataItemProto) : DataItemProto where
  ttl := (r.ttl.map toUnsigned).getD out.ttl
  time := (r.time.map toUnsigned).getD out.time
  title := r.title.getD out.title
  data := r.data.getD out.data

/-- Write the columns a row has over a header. -/
def Row.readHeader (r : Row) (out : DataItemHeader) : DataItemHeader where
  key := r.key.getD out.key
  title := r.title.getD out.title
  time := r.time.getD out.time
  ttl := r.ttl.getD out.ttl

namespace DbMultiKeyData

variable (q : Sqlite Tables Row)

/-- `create_table`. -/
def createTable : DbM Tables Unit := do
  let _ ← q.exec ("SQL error in CREATE TABLE : " ++ ·) createTables

/-- `clear`. -/
def clear : DbM Tables Unit := do
  let _ ← q.exec ("SQL error in DROP table : " ++ ·) dropHeader
  let _ ← q.exec ("SQL error in DROP table : " ++ ·) dropTime
  let _ ← q.exec ("SQL error in DROP table : " ++ ·) dropItem
  createTable q

/-- `remove(key, title)`. -/
def remove (key title : String) : DbM Tables Unit := do
  let _ ← q.exec ("SQL error in DELETE : " ++ ·) (deleteHeader key title)

/-- `remove_oldest`. -/
def removeOldest : DbM Tables Unit := do
  let _ ← q.exec ("SQL error in DELETE oldest : " ++ ·) deleteOldest

/-- `update`. -/
def update (key title : String) (time ttl : Int) : DbM Tables Unit := do
  let _ ← q.exec ("SQL error in UPDATE table : " ++ ·) (updateTime key title time ttl)

/-- `insert`: the header, then a time row and an item row for every header under the key
and title. -/
def insert (key title : String) (time ttl : Int) (data : List UInt8) : DbM Tables Unit := do
  let _ ← q.exec ("SQL error in INSERT data_header : " ++ ·) (insertHeader key title)
  let _ ← q.exec ("SQL error in INSERT data_time : " ++ ·) (insertTime key title time ttl)
  q.prepare ("SQL error in prepare INSERT data_item : " ++ ·) (insertItem key title data)
  let _ ← q.call fun _ => "SQL error binding data in INSERT!"
  let _ ← q.exec ("SQL error step in INSERT : " ++ ·) (insertItem key title data)
  let _ ← q.call fun _ => "SQL error finalize in INSERT!"

/-- The number in a result of one row; any other result counts as zero. -/
def readCount : List Row → Nat
  | [row] => row.count.getD 0
  | _ => 0

/-- `count(key)`. -/
def count (key : String) : DbM Tables Nat := do
  let rows ← q.exec ("SQL error in SELECT Count(*) WHERE key = '" ++ key ++ "' : " ++ ·)
    (countKey key)
  return readCount rows

/-- `size`. -/
def size : DbM Tables Nat := do
  let rows ← q.exec ("SQL error in SELECT Count(*) : " ++ ·) countAll
  return readCount rows

/-- A SELECT stepped to its end. A failing step only ends the loop, and the failure
comes out of `sqlite3_finalize`. -/
def selectRows (prepareError finalizeError : String) (st : DbStmt) : DbM Tables (List Row) := do
  q.prepare (prepareError ++ ·) st
  q.exec (fun _ => finalizeError) st

/-- `find(key, title, out)`: one step, which must give a row. -/
def findTitle (key title : String) (out : DataItemProto) : DbM Tables DataItemProto := do
  q.prepare ("SQL error in SELECT [key title] : " ++ ·) (selectTitle key title)
  let rows ← q.exec ("SQL error in step : " ++ ·) (selectTitle key title)
  match rows with
  | [] => throw (.exception ("SQL error in step : " ++ q.errmsg ((← get).calls - 1)))
  | row :: _ =>
    let _ ← q.call fun _ => "SQL error finalize in SELECT [key value] !"
    return row.read out

/-- `find(key, out)`: the items appended to `out`. -/
def find (key : String) : DbM Tables (List DataItemProto) := do
  let rows ← selectRows q "SQL error in SELECT [...] : " "SQL error finalize in SELECT * !"
    (selectKey key)
  return rows.map fun row => row.read {}

/-- `find_no_blob(key, out)`: the items appended to `out`. -/
def findNoBlob (key : String) : DbM Tables (List DataItemProto) := do
  let rows ← selectRows q "SQL error in SELECT [...] : " "SQL error finalize in SELECT * !"
    (selectNoBlob key)
  return rows.map fun row => row.read {}

/-- `list(out)`: the pairs inserted into `out`. -/
def list : DbM Tables (List (String × DataItemProto)) := do
  let rows ← selectRows q "SQL error in SELECT * : " "SQL error finalize in SELECT * !" selectAll
  return rows.map fun row => (row.key.getD "", row.read {})

/-- `list_headers(out)`: the headers appended to `out`. -/
def listHeaders : DbM Tables (List DataItemHeader) := do
  let rows ← selectRows q "SQL error in SELECT key, time, ttl, title : "
    "SQL error finalize in SELECT key, time, ttl, title !" selectHeaders
  return rows.map fun row => row.readHeader {}

/-! ## How the calls end -/

theorem tame_createTable : Act.Tame (fun _ => True) (createTable q) :=
  tame_exec_return q _ _ _

theorem tame_insert (key title : String) (time ttl : Int) (data : List UInt8) :
    Act.Tame (fun _ => True) (insert q key title time ttl data) := by
  refine .bind (tame_exec q _ _) fun _ => .bind (tame_exec q _ _) fun _ => ?_
  refine .bind (tame_prepare q _ _) fun _ => .bind (tame_call q _) fun _ => ?_
  exact .bind (tame_exec q _ _) fun _ => .bind (tame_call q _) fun _ => .pure _

theorem tame_findTitle (key title : String) (out : DataItemProto) :
    Act.Tame (fun _ => True) (findTitle q key title out) := by
  refine .bind (tame_prepare q _ _) fun _ => .bind (tame_exec q _ _) fun rows => ?_
  cases rows with
  | nil => exact .bind .get fun _ => .throw _
  | cons row rest => exact .bind (tame_call q _) fun _ => .pure _

/-- Rows that are read and turned into a result. -/
theorem tame_selectRows_return {α : Type} (prepareError finalizeError : String) (st : DbStmt)
    (result : List Row → α) :
    Act.Tame (fun _ => True) (do
      let rows ← selectRows q prepareError finalizeError st
      return result rows) :=
  .bind (.bind (tame_prepare q _ _) fun _ => tame_exec q _ _) fun _ => .pure _

theorem tame_find (key : String) : Act.Tame (fun _ => True) (find q key) :=
  tame_selectRows_return q _ _ _ _

end DbMultiKeyData

end MiniDht
