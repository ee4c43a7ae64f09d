import MiniDht.Db.MultiKeyData

/-!
# An insertion that fails half-way

`db_multi_key_data::insert` writes a record by three statements and makes six calls for them,
each of which may fail. No exit takes back what the statements before it wrote, so where it
throws the tables are as before only if the very first call has failed.
-/

namespace MiniDht

open Lib

/-- The rows of the three tables are the same. -/
def Tables.SameRows (t t' : Tables) : Prop :=
  t'.dataHeader = t.dataHeader ∧ t'.dataTime = t.dataTime ∧ t'.dataItem = t.dataItem

namespace DbMultiKeyData

variable {q : Sqlite Tables Row} {c : Conn Tables} {key title : String} {time ttl : Int}
  {data : List UInt8}

/-- If the insertion throws, the three tables are exactly as they were. -/
def InsertAtomic (q : Sqlite Tables Row) (c : Conn Tables) (key title : String) (time ttl : Int)
    (data : List UInt8) : Prop :=
  ∀ e, (Act.exec (insert q key title time ttl data) c).1 = .error e →
    c.tables.SameRows (Act.exec (insert q key title time ttl data) c).2.tables

/-- What `insert` does after the header: a time row, an item row. -/
def insertRows (q : Sqlite Tables Row) (key title : String) (time ttl : Int) (data : List UInt8) :
    DbM Tables Unit := do
  let _ ← q.exec ("SQL error in INSERT data_time : " ++ ·) (insertTime key title time ttl)
  q.prepare ("SQL error in prepare INSERT data_item : " ++ ·) (insertItem key title data)
  let _ ← q.call fun _ => "SQL error binding data in INSERT!"
  let _ ← q.exec ("SQL error step in INSERT : " ++ ·) (insertItem key title data)
  let _ ← q.call fun _ => "SQL error finalize in INSERT!"

theorem insert_eq (q : Sqlite Tables Row) (key title : String) (time ttl : Int)
    (data : List UInt8) :
    insert q key title time ttl data = (do
      let _ ← q.exec ("SQL error in INSERT data_header : " ++ ·) (insertHeader key title)
      insertRows q key title time ttl data) := rfl

section Clean

variable (clean : Clean key ∧ Clean title)
include clean

theorem total_insertTime : (insertTime key title time ttl).Total :=
  ⟨reads_insertTime.mpr clean, fun _ _ => rfl⟩

theorem total_insertItem : (insertItem key title data).Total :=
  ⟨reads_insertItem.mpr clean, fun _ _ => rfl⟩

theorem makes_insertRows : Makes q 5 (insertRows q key title time ttl data) := by
  show Makes q (1 + (1 + (1 + (1 + (1 + 0))))) _
  unfold insertRows
  refine .bind (.exec (total_insertTime clean) _) fun _ => ?_
  refine .bind (.prepare (total_insertItem clean) _) fun _ => .bind (.call _) fun _ => ?_
  refine .bind (.exec (total_insertItem clean) _) fun _ => ?_
  exact .bind (.call _) fun _ => .pure _

/-- The headers are not touched any more. -/
theorem keeps_insertRows (headers : List Header) :
    Act.Keeps (fun c : Conn Tables => c.tables.dataHeader = headers)
      (insertRows q key title time ttl data) := by
  have times : Act.Keeps (fun c : Conn Tables => c.tables.dataHeader = headers)
      (q.exec ("SQL error in INSERT data_time : " ++ ·) (insertTime key title time ttl)) := by
    refine keeps_exec (I := fun t => t.dataHeader = headers) q _ (reads_insertTime.mpr clean) ?_
    rintro n t t' rows kept run
    cases run
    exact kept
  have items : Act.Keeps (fun c : Conn Tables => c.tables.dataHeader = headers)
      (q.exec ("SQL error step in INSERT : " ++ ·) (insertItem key title data)) := by
    refine keeps_exec (I := fun t => t.dataHeader = headers) q _ (reads_insertItem.mpr clean) ?_
    rintro n t t' rows kept run
    cases run
    exact kept
  have calls (error : String → String) :
      Act.Keeps (fun c : Conn Tables => c.tables.dataHeader = headers) (q.call error) :=
    keeps_call (I := fun t => t.dataHeader = headers) q error
  refine .bind times fun _ => .bind ?_ fun _ => .bind (calls _) fun _ => .bind items fun _ => ?_
  · exact keeps_prepare (I := fun t => t.dataHeader = headers) q _ _
  · exact .bind (calls _) fun _ => .pure _

/-- Once the header is in, it stays, however the insertion ends. -/
theorem insert_headed (works : q.fails c.calls = false) :
    ∃ t, t.dataHeader = c.tables.dataHeader ++ [⟨c.tables.seq + 1, key, title⟩] ∧
      Act.exec (insert q key title time ttl data) c =
        Act.exec (insertRows q key title time ttl data) ⟨t, c.calls + 1⟩ := by
  let t : Tables := { c.tables with
    seq := c.tables.seq + 1
    dataHeader := c.tables.dataHeader ++ [⟨c.tables.seq + 1, key, title⟩] }
  have answered : q.answer c.calls (insertHeader key title) c.tables =
      (true, t, q.arrange c.calls []) := by
    rw [Sqlite.answer, if_pos (reads_insertHeader.mpr clean)]
    rfl
  refine ⟨t, rfl, ?_⟩
  rw [insert_eq, Act.exec_bind_ok (exec_answered works answered)]

/-- An insertion is atomic exactly if the header is refused or nothing is. -/
theorem insertAtomic_iff :
    InsertAtomic q c key title time ttl data ↔
      q.fails c.calls = true ∨ ∀ i < 5, q.fails (c.calls + 1 + i) = false := by
  cases failed : q.fails c.calls with
  | true =>
    refine iff_of_true (fun _ _ => ?_) (.inl rfl)
    rw [insert_eq, Act.exec_bind_error (exec_fails failed)]
    exact ⟨rfl, rfl, rfl⟩
  | false =>
    obtain ⟨t, headers, run⟩ := @insert_headed q c key title time ttl data clean failed
    obtain ⟨works, fails⟩ := @makes_insertRows q key title time ttl data clean
      ⟨t, c.calls + 1⟩
    have left := @keeps_insertRows q key title time ttl data clean _
      ⟨t, c.calls + 1⟩ headers
    constructor
    · intro atomic
      refine .inr fun i inside => Bool.eq_false_iff.mpr fun refused => ?_
      obtain ⟨what, raised⟩ := fails ⟨i, inside, refused⟩
      rw [← run] at raised left
      have same := (atomic _ raised).1
      rw [left] at same
      simp at same
    · rintro (refused | fine) e raised
      · cases refused
      · obtain ⟨a, t', done⟩ := works fine
        rw [run, done] at raised
        cases raised

end Clean

/-- A second record whose header is refused leaves the first alone. -/
theorem insertAtomic_refused :
    let q : Sqlite Tables Row := { Sqlite.inOrder with fails := fun n => n == 6 }
    let c : Conn Tables := ⟨⟨1, [⟨1, "0a", "t"⟩], [⟨1, 1, 60⟩], [⟨1, [7]⟩]⟩, 6⟩
    (Act.exec (insert q "0b" "t" 2 60 [8]) c).1 =
        .error (.exception "SQL error in INSERT data_header : syntax error") ∧
      InsertAtomic q c "0b" "t" 2 60 [8] := by
  intro q c
  exact ⟨by decide, (insertAtomic_iff (by decide)).mpr (.inl rfl)⟩

/-- The header of a record whose time could not be written stays. -/
theorem header_stays :
    let q : Sqlite Tables Row := { Sqlite.inOrder with fails := fun n => n == 1 }
    let after := Act.exec (insert q "0a" "t" 1 60 [7]) ⟨{}, 0⟩
    after.1 = .error (.exception "SQL error in INSERT data_time : syntax error") ∧
      after.2.tables.dataHeader = [⟨1, "0a", "t"⟩] ∧
      ¬ InsertAtomic q ⟨{}, 0⟩ "0a" "t" 1 60 [7] := by
  intro q after
  have thrown : after.1 = .error (.exception "SQL error in INSERT data_time : syntax error") := by
    decide
  have left : after.2.tables.dataHeader = [⟨1, "0a", "t"⟩] := by decide
  refine ⟨thrown, left, fun atomic => ?_⟩
  have same := (atomic _ thrown).1
  rw [left] at same
  cases same

end DbMultiKeyData

end MiniDht
