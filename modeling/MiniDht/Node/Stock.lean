import MiniDht.Node.Shelf

/-!
# The stock of a node

`insert` attaches a time and an item to every header under a key and title, so a pair that
came in twice would mix up what was stored before. What guards against it is that
`insert_db` looks the titles under the key up first, in a product of three tables that
shows every one of them (`exec_insertDb`).
-/

namespace MiniDht

open Lib

/-- No two headers share key and title, and each has one time row and one item row. -/
structure Tables.Exact (t : Tables) : Prop where
  pairs : (t.dataHeader.map fun h => (h.key, h.title)).Nodup
  times : ∀ h ∈ t.dataHeader, t.dataTime.countP (fun row => row.timeId = h.id) = 1
  items : ∀ h ∈ t.dataHeader, t.dataItem.countP (fun row => row.itemId = h.id) = 1

namespace RecordStore

/-- In rows that carry the ids of the records, each id comes once. -/
theorem countP_rows {β : Type} (s : RecordStore) (row : Record → β) (id : β → Nat)
    (tied : ∀ r, id (row r) = r.id) {r : Record} (member : r ∈ s.records) :
    (s.records.map row).countP (fun b => id b = r.id) = 1 := by
  have same : (fun b => decide (id b = r.id)) ∘ row = fun b => decide (r.id = b.id) := by
    funext b
    rw [Function.comp_apply, tied]
    exact decide_eq_decide.mpr eq_comm
  rw [List.countP_map, same, List.countP_eq_length_filter, filter_eq_self s.ids member]
  rfl

theorem exact_tables (s : RecordStore) : s.tables.Exact where
  pairs := by
    rw [tables, List.map_map]
    exact s.pairs
  times h listed := by
    obtain ⟨r, member, rfl⟩ := List.mem_map.mp listed
    exact s.countP_rows Record.timeRow TimeRow.timeId (fun _ => rfl) member
  items h listed := by
    obtain ⟨r, member, rfl⟩ := List.mem_map.mp listed
    exact s.countP_rows Record.itemRow ItemRow.itemId (fun _ => rfl) member

end RecordStore

namespace Node

/-- A call that changes the stock: an item comes in, a clean-up drops a record, or the
eviction loop does. -/
inductive StockCall where
  | insertDb (k : String) (d : DataItemProto)
  | remove (key title : String)
  | removeOldest

namespace StockCall

def CleanStrings : StockCall → Prop
  | insertDb k d => Clean k ∧ Clean d.title
  | remove key title => Clean key ∧ Clean title
  | removeOldest => True

instance : (call : StockCall) → Decidable call.CleanStrings
  | insertDb _ _ => inferInstanceAs (Decidable (_ ∧ _))
  | remove _ _ => inferInstanceAs (Decidable (_ ∧ _))
  | removeOldest => inferInstanceAs (Decidable True)

def run (w : World) : StockCall → NodeM Unit
  | insertDb k d => Node.insertDb w k d
  | remove key title => onStorage (DbMultiKeyData.remove w.storage key title)
  | removeOldest => onStorage (DbMultiKeyData.removeOldest w.storage)

/-- The calls one after the other. -/
def runAll (w : World) : List StockCall → NodeM Unit
  | [] => return ()
  | call :: rest => do
    call.run w
    runAll w rest

variable {w : World} {s : Node} (sound : w.storage.Sound)
include sound

/-- After a call on records there are records. -/
theorem exec_run {call : StockCall} (clean : call.CleanStrings) (room : 1 ≤ s.maxRecords)
    (rs : RecordStore) (n : Nat) :
    ∃ ticks rs' n', Act.exec (call.run w) (s.holding rs n) =
      (.ok (), ({ s with ticks := ticks } : Node).holding rs' n') := by
  cases call with
  | insertDb k d =>
    have here : rs.under k ≠ [] ∨ 0 < s.maxRecords := .inr room
    obtain ⟨ticks, rs', n', -, -, run⟩ := exec_insertDb (n := n) sound clean here
    exact ⟨ticks, rs', n', run⟩
  | remove key title =>
    exact ⟨s.ticks, _, _, exec_onStorage (RecordStore.exec_remove sound clean)⟩
  | removeOldest =>
    by_cases none : rs.records = []
    · exact ⟨s.ticks, _, _, exec_onStorage (RecordStore.exec_removeOldest_empty sound none)⟩
    · obtain ⟨r, -, oldest⟩ := RecordStore.exec_removeOldest (n := n) sound none
      exact ⟨s.ticks, _, _, exec_onStorage oldest⟩

theorem exec_runAll {calls : List StockCall} (clean : ∀ call ∈ calls, call.CleanStrings)
    (room : 1 ≤ s.maxRecords) (rs : RecordStore) (n : Nat) :
    ∃ ticks rs' n', Act.exec (runAll w calls) (s.holding rs n) =
      (.ok (), ({ s with ticks := ticks } : Node).holding rs' n') := by
  induction calls generalizing s rs n with
  | nil => exact ⟨s.ticks, rs, n, rfl⟩
  | cons call rest ih =>
    obtain ⟨ticks, rs', n', first⟩ := exec_run sound (clean call List.mem_cons_self) room rs n
    obtain ⟨ticks', rs'', n'', later⟩ := ih (s := { s with ticks := ticks })
      (fun c member => clean c (List.mem_cons_of_mem call member)) room rs' n'
    exact ⟨ticks', rs'', n'', by rw [runAll, Act.exec_bind_ok first, later]⟩

/-- **No pair twice.** Whatever calls filled the store, in any order, no key and title are in
it twice, and every header has one time and one item. -/
theorem stock_exact {calls : List StockCall} (clean : ∀ call ∈ calls, call.CleanStrings)
    (room : 1 ≤ s.maxRecords) (empty : s.dbStorage.tables = {}) :
    ∃ s', Act.exec (runAll w calls) s = (.ok (), s') ∧ s'.dbStorage.tables.Exact := by
  obtain ⟨ticks, rs, n, run⟩ := exec_runAll (w := w) sound clean room .empty s.dbStorage.calls
  rw [holding_self (empty.trans RecordStore.tables_empty.symm)] at run
  exact ⟨_, run, rs.exact_tables⟩

omit sound in
/-- The theorem where a title comes in again, another beside it, and a record goes. -/
theorem stock_exact_again :
    let calls := [insertDb "k" { title := "a", data := [1] }, insertDb "k" { title := "a" },
      insertDb "k" { title := "b" }, removeOldest, remove "k" "a"]
    ∃ s', Act.exec (runAll (.simple []) calls) (initial 1 10 {} []) = (.ok (), s') ∧
      s'.dbStorage.tables.Exact := by
  intro calls
  exact stock_exact Sqlite.inOrder_sound (by decide) (by decide) rfl

end StockCall

end Node

end MiniDht
