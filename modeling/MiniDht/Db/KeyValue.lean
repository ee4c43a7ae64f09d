import MiniDht.Db.Statements

/-!
# The backup of the contact list

Class `db_key_value`: a table of contacts from which a node that restarts pings the peers
it knew.
-/

namespace MiniDht

open Lib

namespace DbKeyValue

variable (q : Sqlite Contacts KvRow)

/-- `create_table`. -/
def createTable : DbM Contacts Unit := do
  let _ ← q.exec ("SQL error in CREATE table : " ++ ·) createContacts

/-- `clear`. -/
def clear : DbM Contacts Unit := do
  let _ ← q.exec ("SQL error in DROP table : " ++ ·) dropContacts
  createTable q

/-- `find`: empty when there is no such contact. -/
def find (key : String) : DbM Contacts String := do
  let rows ← q.exec ("SQL error in SELECT value : " ++ ·) (selectValue key)
  match rows with
  | [row] => return row.value.getD ""
  | _ => return ""

/-- `remove`. -/
def remove (key : String) : DbM Contacts Unit := do
  let _ ← q.exec ("SQL error in DELETE : " ++ ·) (deleteContact key)

/-- `insert`. -/
def insert (key value : String) : DbM Contacts Unit := do
  let _ ← q.exec ("SQL error in INSERT table : " ++ ·) (insertContact key value)

/-- `size`. -/
def size : DbM Contacts Nat := do
  let rows ← q.exec ("SQL error in SELECT Count(*) : " ++ ·) countContacts
  match rows with
  | [row] => return row.count.getD 0
  | _ => return 0

/-- `list`: the pairs inserted into the map. -/
def list : DbM Contacts (List (String × String)) := do
  let rows ← q.exec ("SQL error in SELECT * : " ++ ·) selectContacts
  return rows.map fun row => (row.key.getD "", row.value.getD "")

/-- `list_value`. -/
def listValue : DbM Contacts (List String) := do
  let rows ← q.exec ("SQL error in SELECT value : " ++ ·) selectValues
  return rows.map fun row => row.value.getD ""

/-! ## With clean strings and a sound engine -/

section Sound

variable {q} {t : Contacts} {n : Nat} {key endpoint : String}

/-- The value under a key, empty if there is none. -/
def value (t : Contacts) (key : String) : String :=
  ((t.find? (·.1 = key)).map Prod.snd).getD ""

/-- A primary key has one row at most. -/
theorem filter_key (keyed : (t.map Prod.fst).Nodup) (key : String) :
    t.filter (·.1 = key) = (t.find? (·.1 = key)).toList := by
  induction t with
  | nil => rfl
  | cons r rest ih =>
    obtain ⟨fresh, keyed⟩ := List.nodup_cons.mp keyed
    by_cases here : r.1 = key
    · have none : rest.filter (·.1 = key) = [] := by
        rw [List.filter_eq_nil_iff]
        intro r' member
        have other : r'.1 ≠ key := fun same =>
          fresh (here.trans same.symm ▸ List.mem_map_of_mem member)
        simpa using other
      simp [here, none]
    · simp [here, ih keyed]

theorem value_of_mem (keyed : (t.map Prod.fst).Nodup) (member : (key, endpoint) ∈ t) :
    value t key = endpoint := by
  have row : (key, endpoint) ∈ t.filter (·.1 = key) := by simpa using member
  rw [filter_key keyed, Option.mem_toList] at row
  rw [value, row]
  rfl

theorem value_of_absent (absent : ∀ v, (key, v) ∉ t) : value t key = "" := by
  have none : t.find? (·.1 = key) = none := by
    rw [List.find?_eq_none]
    rintro ⟨k, v⟩ member
    have other : k ≠ key := fun same => absent v (same ▸ member)
    simpa using other
  rw [value, none]
  rfl

theorem exec_find (sound : q.Sound) (clean : Clean key) (keyed : (t.map Prod.fst).Nodup) :
    Act.exec (find q key) ⟨t, n⟩ = (.ok (value t key), ⟨t, n + 1⟩) := by
  have reads : (selectValue key).Reads := by simpa [Stmt.reads_iff, selectValue] using clean
  have run := exec_sound (f := ("SQL error in SELECT value : " ++ ·)) sound reads
    (c := ⟨t, n⟩) rfl
  rw [find, Act.exec_bind_ok run, filter_key keyed, value]
  cases t.find? (·.1 = key) with
  | none =>
    have rows := (q.arrange_perm n []).eq_nil
    simp [rows]
  | some r =>
    have rows : q.arrange n [{ value := some r.2 }] = [{ value := some r.2 }] :=
      List.perm_singleton.mp (q.arrange_perm n _)
    simp [rows]

theorem exec_remove (sound : q.Sound) (clean : Clean key) :
    Act.exec (remove q key) ⟨t, n⟩ = (.ok (), ⟨t.filter fun r => r.1 ≠ key, n + 1⟩) := by
  have reads : (deleteContact key).Reads := by simpa [Stmt.reads_iff, deleteContact] using clean
  have run := exec_sound (f := ("SQL error in DELETE : " ++ ·)) sound reads (c := ⟨t, n⟩) rfl
  rw [remove, Act.exec_bind_ok run]
  rfl

theorem exec_insert (sound : q.Sound) (clean : Clean key ∧ Clean endpoint)
    (absent : ∀ v, (key, v) ∉ t) :
    Act.exec (insert q key endpoint) ⟨t, n⟩ = (.ok (), ⟨t ++ [(key, endpoint)], n + 1⟩) := by
  have reads : (insertContact key endpoint).Reads := by
    simpa [Stmt.reads_iff, insertContact] using clean
  have free : (t.any fun c => c.1 = key) = false := by
    rw [List.any_eq_false]
    rintro ⟨k, v⟩ member
    have other : k ≠ key := fun same => absent v (same ▸ member)
    simpa using other
  have run := exec_sound (f := ("SQL error in INSERT table : " ++ ·)) sound reads (c := ⟨t, n⟩)
    (t := t ++ [(key, endpoint)]) (r := []) (by simp [insertContact, free])
  rw [insert, Act.exec_bind_ok run]
  rfl

/-- An insertion violates the primary key of a row that is there. -/
theorem insert_raises {v : String} (clean : Clean key ∧ Clean endpoint)
    (member : (key, v) ∈ t) : Act.Raises (insert q key endpoint) ⟨t, n⟩ := by
  have reads : (insertContact key endpoint).Reads := by
    simpa [Stmt.reads_iff, insertContact] using clean
  have taken : (t.any fun c => c.1 = key) = true := by
    rw [List.any_eq_true]
    exact ⟨_, member, by simp⟩
  have refused : ¬ q.Accepts ⟨t, n⟩ (insertContact key endpoint) := by
    rintro ⟨-, accepted⟩
    have violated : (insertContact key endpoint).eval (q.choice n) t = none := by
      simp [insertContact, taken]
    simp [Sqlite.answer, reads, violated] at accepted
  obtain ⟨what, c', run⟩ := exec_refuses (f := ("SQL error in INSERT table : " ++ ·)) refused
  exact ⟨what, by rw [insert, Act.exec_bind_error run]⟩

end Sound

end DbKeyValue

end MiniDht
