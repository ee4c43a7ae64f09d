import MiniDht.Db.KeyValue
import MiniDht.Db.MultiKeyData
import MiniDht.Lib.Mutex

/-!
# The lock of the stores

Every method of the two stores begins with a guard that is deferred and so never owns
`local_lock_`, and locks by hand if `need_mutex_` says so. Its error exits unlock by hand
before they throw; the others do not unlock. Only `open` has a guard that locks.

`need_mutex_` is what `sqlite3_threadsafe()` says, the same for every store of the process.
-/

namespace MiniDht

open Lib

/-- A call on a store and its `local_lock_`. -/
abbrev LockedM (Tbl : Type) := Act (Guarded (Conn Tbl))

section Methods

variable {Tbl Row α : Type} (needMutex : Bool) (q : Sqlite Tbl Row)

/-- The shell of a method, around the statements it runs: each of its error exits unlocks
and throws. -/
def locked (x : DbM Tbl α) : LockedM Tbl α := do
  if needMutex then Mutex.lock
  Mutex.unlocking id (Mutex.inner x)

/-- `sqlite3_open`, on a file with these tables. -/
def sqliteOpen (file : Tbl) : DbM Tbl Unit := do
  let _ ← q.call ("Can't open database: " ++ ·)
  modify fun c => { c with tables := file }

/-- `sqlite3_open_v2`; `code` is the code of a result that is an error. -/
def sqliteOpenV2 (code : Nat → Nat) (file : Tbl) : DbM Tbl Unit := do
  let rc := code (← get).calls
  let _ ← q.call (("Can't open database (full mutex, err = " ++ toString rc ++ " : ") ++ ·)
  modify fun c => { c with tables := file }

/-- `open`. The guard unlocks once more after an error exit has, and the other branch does
not lock. -/
def openStore (code : Nat → Nat) (file : Tbl) (createTable : LockedM Tbl Unit) :
    LockedM Tbl Unit := do
  if needMutex then Mutex.scopedLock (Mutex.unlocking id (Mutex.inner (sqliteOpen q file)))
  else Mutex.inner (sqliteOpenV2 q code file)
  createTable

end Methods

/-! ## The methods -/

namespace DbKeyValue.Locked

variable (needMutex : Bool) (q : Sqlite Contacts KvRow)

def createTable : LockedM Contacts Unit := locked needMutex (DbKeyValue.createTable q)

/-- `open`. -/
def «open» (code : Nat → Nat) (file : Contacts) : LockedM Contacts Unit :=
  openStore needMutex q code file (createTable needMutex q)

/-- `clear`: a block with a guard for the statement, and `create_table`. -/
def clear : LockedM Contacts Unit := do
  let _ ← locked needMutex (q.exec ("SQL error in DROP table : " ++ ·) dropContacts)
  createTable needMutex q

def find (key : String) : LockedM Contacts String := locked needMutex (DbKeyValue.find q key)

def remove (key : String) : LockedM Contacts Unit := locked needMutex (DbKeyValue.remove q key)

def insert (key value : String) : LockedM Contacts Unit :=
  locked needMutex (DbKeyValue.insert q key value)

def size : LockedM Contacts Nat := locked needMutex (DbKeyValue.size q)

def list : LockedM Contacts (List (String × String)) := locked needMutex (DbKeyValue.list q)

def listValue : LockedM Contacts (List String) := locked needMutex (DbKeyValue.listValue q)

end DbKeyValue.Locked

namespace DbMultiKeyData.Locked

variable (needMutex : Bool) (q : Sqlite Tables Row)

def createTable : LockedM Tables Unit := locked needMutex (DbMultiKeyData.createTable q)

/-- `open`. -/
def «open» (code : Nat → Nat) (file : Tables) : LockedM Tables Unit :=
  openStore needMutex q code file (createTable needMutex q)

/-- `clear`: a block with a guard for each statement, and `create_table`. -/
def clear : LockedM Tables Unit := do
  let _ ← locked needMutex (q.exec ("SQL error in DROP table : " ++ ·) dropHeader)
  let _ ← locked needMutex (q.exec ("SQL error in DROP table : " ++ ·) dropTime)
  let _ ← locked needMutex (q.exec ("SQL error in DROP table : " ++ ·) dropItem)
  createTable needMutex q

def find (key : String) : LockedM Tables (List DataItemProto) :=
  locked needMutex (DbMultiKeyData.find q key)

def findTitle (key title : String) (out : DataItemProto) : LockedM Tables DataItemProto :=
  locked needMutex (DbMultiKeyData.findTitle q key title out)

def findNoBlob (key : String) : LockedM Tables (List DataItemProto) :=
  locked needMutex (DbMultiKeyData.findNoBlob q key)

def remove (key title : String) : LockedM Tables Unit :=
  locked needMutex (DbMultiKeyData.remove q key title)

def removeOldest : LockedM Tables Unit := locked needMutex (DbMultiKeyData.removeOldest q)

def insert (key title : String) (time ttl : Int) (data : List UInt8) : LockedM Tables Unit :=
  locked needMutex (DbMultiKeyData.insert q key title time ttl data)

def update (key title : String) (time ttl : Int) : LockedM Tables Unit :=
  locked needMutex (DbMultiKeyData.update q key title time ttl)

def count (key : String) : LockedM Tables Nat := locked needMutex (DbMultiKeyData.count q key)

def size : LockedM Tables Nat := locked needMutex (DbMultiKeyData.size q)

def list : LockedM Tables (List (String × DataItemProto)) :=
  locked needMutex (DbMultiKeyData.list q)

def listHeaders : LockedM Tables (List DataItemHeader) :=
  locked needMutex (DbMultiKeyData.listHeaders q)

end DbMultiKeyData.Locked

/-! ## One method -/

/-- A call ends, and the lock is free then. -/
def Released {Tbl α : Type} (r : Except Fault α × Guarded (Conn Tbl)) : Prop :=
  Survives r.1 ∧ r.2.mutex = .free

section Methods

variable {Tbl Row α β : Type} {q : Sqlite Tbl Row} {code : Nat → Nat} {file : Tbl}
  {x : DbM Tbl α} {c : Conn Tbl}

theorem released_iff {y : LockedM Tbl α} (tame : Act.Tame (fun _ => True) x)
    (follows : Mutex.Follows .misused y x) :
    Released (Act.exec y { state := c }) ↔ ¬ Act.Raises x c := by
  rw [← follows.balanced_iff c]
  obtain ⟨m, leaves, run⟩ := follows c
  rw [run]
  rcases tame c trivial with ⟨a, ok, -⟩ | ⟨what, failed⟩
  · rw [ok] at leaves ⊢
    obtain rfl : m = .free := leaves
    simp [Released, Mutex.Balanced, Survives]
  · rw [failed] at leaves ⊢
    obtain rfl : m = .misused := leaves
    simp [Released, Mutex.Balanced]

/-- Without the lock, an error exit unlocks what nobody has locked. -/
theorem locked_false (x : DbM Tbl α) : Mutex.Follows .misused (locked false x) x := by
  intro c
  have plain : Act.exec (locked false x) { state := c } =
      Act.exec (Mutex.unlocking id (Mutex.inner x)) { state := c } := rfl
  rw [plain, Mutex.exec_unlocking, Mutex.exec_inner]
  generalize Act.exec x c = r
  obtain ⟨o, c'⟩ := r
  rcases o with (_ | _ | _ | _ | _) | _
  · exact ⟨.free, by simp [Mutex.Leaves], rfl⟩
  · exact ⟨.misused, rfl, rfl⟩
  · exact ⟨.free, rfl, rfl⟩
  · exact ⟨.free, by simp [Mutex.Leaves], rfl⟩
  · exact ⟨.free, by simp [Mutex.Leaves], rfl⟩
  · exact ⟨.free, rfl, rfl⟩

theorem exec_locked_true (x : DbM Tbl α) (c : Conn Tbl) :
    Act.exec (locked true x) { state := c } =
      Act.exec (Mutex.unlocking id (Mutex.inner x)) { state := c, mutex := .held } := by
  rw [locked, if_pos rfl, Act.exec_bind_ok (Mutex.exec_lock c)]

/-- With the lock, a call that returns keeps it. -/
theorem locked_true_ok {a : α} {c' : Conn Tbl} (ok : Act.exec x c = (.ok a, c')) :
    Act.exec (locked true x) { state := c } = (.ok a, { state := c', mutex := .held }) := by
  rw [exec_locked_true, Mutex.exec_unlocking, Mutex.exec_inner, ok]

theorem locked_true_fails {what : String} {c' : Conn Tbl}
    (failed : Act.exec x c = (.error (.exception what), c')) :
    Act.exec (locked true x) { state := c } = (.error (.exception what), { state := c' }) := by
  rw [exec_locked_true, Mutex.exec_unlocking, Mutex.exec_inner, failed]
  rfl

/-- One who has kept the lock waits for himself in the next method. -/
theorem locked_true_held (x : DbM Tbl α) (c : Conn Tbl) :
    Act.exec (locked true x) { state := c, mutex := .held } =
      (.error .hang, { state := c, mutex := .held }) := by
  rw [locked, if_pos rfl, Act.exec_bind_error (Mutex.exec_lock_held c)]

/-- **One method.** The lock is free afterwards if a statement is refused and the lock was
taken, or none is refused and it was not. -/
theorem locked_released_iff (tame : Act.Tame (fun _ => True) x) (needMutex : Bool) :
    Released (Act.exec (locked needMutex x) { state := c }) ↔ (Act.Raises x c ↔ needMutex = true) := by
  cases needMutex with
  | false => simpa using released_iff tame (locked_false x)
  | true =>
    rcases tame c trivial with ⟨a, ok, -⟩ | ⟨what, failed⟩
    · rw [locked_true_ok (Prod.ext ok rfl)]
      simp [Released, Act.Raises, ok]
    · rw [locked_true_fails (Prod.ext failed rfl)]
      simp [Released, Act.Raises, failed, Survives]

/-- A method with a block of its own for each statement: the second block waits for the
lock that the first one keeps. -/
theorem blocks_released_iff (tame : Act.Tame (fun _ => True) x) {rest : LockedM Tbl Unit}
    (stuck : ∀ c, Act.exec rest { state := c, mutex := .held } =
      (.error .hang, { state := c, mutex := .held })) :
    Released (Act.exec (locked true x >>= fun _ => rest) { state := c }) ↔ Act.Raises x c := by
  rcases tame c trivial with ⟨a, ok, -⟩ | ⟨what, failed⟩
  · rw [Act.exec_bind_ok (locked_true_ok (Prod.ext ok rfl)), stuck]
    simp [Released, Act.Raises, ok]
  · rw [Act.exec_bind_error (locked_true_fails (Prod.ext failed rfl))]
    simp [Released, Act.Raises, failed, Survives]

/-- When `open` leaves the lock free. -/
def OpenMeets (needMutex : Bool) (q : Sqlite Tbl Row) (code : Nat → Nat) (file : Tbl)
    (createTable : DbM Tbl Unit) (c : Conn Tbl) : Prop :=
  if needMutex then
    ∃ c', Act.exec (sqliteOpen q file) c = (.ok (), c') ∧ Act.Raises createTable c'
  else
    ∀ c', Act.exec (sqliteOpenV2 q code file) c = (.ok (), c') → ¬ Act.Raises createTable c'

theorem open_released_iff {create : DbM Tbl Unit} (tame : Act.Tame (fun _ => True) create)
    (needMutex : Bool) :
    Released (Act.exec (openStore needMutex q code file (locked needMutex create)) { state := c }) ↔
      OpenMeets needMutex q code file create c := by
  cases needMutex with
  | false =>
    have opens : Act.Tame (fun _ => True) (sqliteOpenV2 q code file) :=
      .bind .get fun _ => .bind (tame_call q _) fun _ => .modify fun _ _ => trivial
    have run : Act.exec (openStore false q code file (locked false create)) { state := c } =
        Act.exec (do Mutex.inner (sqliteOpenV2 q code file); locked false create)
          { state := c } := rfl
    rw [run, OpenMeets, if_neg Bool.false_ne_true, Act.exec_bind, Mutex.exec_inner]
    rcases opens c trivial with ⟨u, ok, -⟩ | ⟨what, failed⟩
    · simp only [ok]
      rw [locked_released_iff tame]
      have opened : Act.exec (sqliteOpenV2 q code file) c =
          (.ok (), (Act.exec (sqliteOpenV2 q code file) c).2) := Prod.ext ok rfl
      rw [opened]
      simp
    · have nowhere (c' : Conn Tbl) : Act.exec (sqliteOpenV2 q code file) c ≠ (.ok (), c') := by
        intro run
        rw [run] at failed
        cases failed
      simp [failed, Released, Survives, nowhere]
  | true =>
    have opens : Act.Tame (fun _ => True) (sqliteOpen q file) :=
      .bind (tame_call q _) fun _ => .modify fun _ _ => trivial
    have run : Act.exec (openStore true q code file (locked true create)) { state := c } =
        Act.exec (do
          Mutex.scopedLock (Mutex.unlocking id (Mutex.inner (sqliteOpen q file)))
          locked true create) { state := c } := rfl
    rw [run, OpenMeets, if_pos rfl, Act.exec_bind, Mutex.exec_scopedLock, Mutex.exec_unlocking,
      Mutex.exec_inner]
    rcases opens c trivial with ⟨u, ok, -⟩ | ⟨what, failed⟩
    · simp only [ok, MutexState.unlocked]
      rw [locked_released_iff tame]
      have opened : Act.exec (sqliteOpen q file) c =
          (.ok (), (Act.exec (sqliteOpen q file) c).2) := Prod.ext ok rfl
      rw [opened]
      simp
    · have nowhere (c' : Conn Tbl) : Act.exec (sqliteOpen q file) c ≠ (.ok (), c') := by
        intro run
        rw [run] at failed
        cases failed
      simp [failed, Released, nowhere, MutexState.unlocked]

end Methods

/-- A call whose value is not used. -/
theorem unused_released_iff {Tbl α : Type} {x : DbM Tbl α} {c : Conn Tbl}
    (tame : Act.Tame (fun _ => True) x) (needMutex : Bool) :
    Released (Act.exec (do let _ ← locked needMutex x) { state := c }) ↔
      (Act.Raises x c ↔ needMutex = true) := by
  rw [← locked_released_iff tame needMutex, Act.exec_bind]
  generalize Act.exec (locked needMutex x) { state := c } = r
  obtain ⟨o, s⟩ := r
  cases o with
  | ok a => exact Iff.rfl
  | error e => cases e <;> exact Iff.rfl

/-! ## Sequences of calls -/

section Calls

variable {Tbl Call : Type} (run : Call → LockedM Tbl Unit)

/-- Calls one after the other, whatever they throw: each finds the lock free, ends, and
leaves it free. -/
def AllReleased : List Call → Guarded (Conn Tbl) → Prop
  | [], s => s.mutex = .free
  | call :: rest, s =>
    s.mutex = .free ∧ Released (Act.exec (run call) s) ∧ AllReleased rest (Act.exec (run call) s).2

/-- Calls one after the other, each of which meets a condition on what it finds. -/
def AllMeet (cond : Call → Conn Tbl → Prop) : List Call → Guarded (Conn Tbl) → Prop
  | [], _ => True
  | call :: rest, s => cond call s.state ∧ AllMeet cond rest (Act.exec (run call) s).2

variable {run} {cond : Call → Conn Tbl → Prop}

theorem allReleased_iff
    (each : ∀ call c, Released (Act.exec (run call) { state := c }) ↔ cond call c)
    (calls : List Call) (c : Conn Tbl) :
    AllReleased run calls { state := c } ↔ AllMeet run cond calls { state := c } := by
  induction calls generalizing c with
  | nil => simp [AllReleased, AllMeet]
  | cons call rest ih =>
    rw [AllReleased, AllMeet, ← each call c]
    constructor
    · rintro ⟨-, released, later⟩
      refine ⟨released, ?_⟩
      generalize Act.exec (run call) { state := c } = r at released later ⊢
      obtain ⟨out, c', mutex⟩ := r
      obtain ⟨-, rfl⟩ := released
      exact (ih c').mp later
    · rintro ⟨released, later⟩
      refine ⟨rfl, released, ?_⟩
      generalize Act.exec (run call) { state := c } = r at released later ⊢
      obtain ⟨out, c', mutex⟩ := r
      obtain ⟨-, rfl⟩ := released
      exact (ih c').mpr later

end Calls

namespace DbKeyValue

variable {needMutex : Bool} {q : Sqlite Contacts KvRow} {code : Nat → Nat} {c : Conn Contacts}

/-- The methods. An `open` comes with the tables of its file. -/
inductive Call where
  | open (file : Contacts)
  | createTable
  | clear
  | find (key : String)
  | remove (key : String)
  | insert (key value : String)
  | size
  | list
  | listValue

/-- A call with its lock. -/
def Call.run (needMutex : Bool) (q : Sqlite Contacts KvRow) (code : Nat → Nat) :
    Call → LockedM Contacts Unit
  | .open file => Locked.open needMutex q code file
  | .createTable => Locked.createTable needMutex q
  | .clear => Locked.clear needMutex q
  | .find key => do let _ ← Locked.find needMutex q key
  | .remove key => Locked.remove needMutex q key
  | .insert key value => Locked.insert needMutex q key value
  | .size => do let _ ← Locked.size needMutex q
  | .list => do let _ ← Locked.list needMutex q
  | .listValue => do let _ ← Locked.listValue needMutex q

/-- The condition under which a call leaves the lock free: a statement is refused if the
lock was taken, and none is if it was not. -/
def Call.Meets (needMutex : Bool) (q : Sqlite Contacts KvRow) (code : Nat → Nat) (call : Call)
    (c : Conn Contacts) : Prop :=
  match call with
  | .open file => OpenMeets needMutex q code file (DbKeyValue.createTable q) c
  | .createTable => Act.Raises (DbKeyValue.createTable q) c ↔ needMutex = true
  | .clear =>
    if needMutex then Act.Raises (q.exec ("SQL error in DROP table : " ++ ·) dropContacts) c
    else ¬ Act.Raises (DbKeyValue.clear q) c
  | .find key => Act.Raises (DbKeyValue.find q key) c ↔ needMutex = true
  | .remove key => Act.Raises (DbKeyValue.remove q key) c ↔ needMutex = true
  | .insert key value => Act.Raises (DbKeyValue.insert q key value) c ↔ needMutex = true
  | .size => Act.Raises (DbKeyValue.size q) c ↔ needMutex = true
  | .list => Act.Raises (DbKeyValue.list q) c ↔ needMutex = true
  | .listValue => Act.Raises (DbKeyValue.listValue q) c ↔ needMutex = true

theorem tame_createTable (q : Sqlite Contacts KvRow) : Act.Tame (fun _ => True) (createTable q) :=
  tame_exec_return q _ _ _

theorem clear_released_iff :
    Released (Act.exec (Locked.clear needMutex q) { state := c }) ↔
      if needMutex then Act.Raises (q.exec ("SQL error in DROP table : " ++ ·) dropContacts) c
      else ¬ Act.Raises (clear q) c := by
  cases needMutex with
  | false =>
    rw [if_neg Bool.false_ne_true]
    have follows : Mutex.Follows .misused (Locked.clear false q) (clear q) :=
      .bind (locked_false _) fun _ => locked_false _
    exact released_iff (.bind (tame_exec q _ _) fun _ => tame_createTable q) follows
  | true =>
    rw [if_pos rfl]
    exact blocks_released_iff (tame_exec q _ _) (locked_true_held (createTable q))

theorem Call.released_iff (call : Call) :
    Released (Act.exec (call.run needMutex q code) { state := c }) ↔
      call.Meets needMutex q code c := by
  cases call with
  | «open» file => exact open_released_iff (tame_createTable q) needMutex
  | createTable => exact locked_released_iff (tame_createTable q) needMutex
  | clear => exact clear_released_iff
  | find key =>
    exact unused_released_iff (.bind (tame_exec q _ _) fun rows => by split <;> exact .pure _) needMutex
  | remove key => exact locked_released_iff (tame_exec_return q _ _ _) needMutex
  | insert key value =>
    exact locked_released_iff (tame_exec_return q _ _ _) needMutex
  | size =>
    exact unused_released_iff (.bind (tame_exec q _ _) fun rows => by split <;> exact .pure _) needMutex
  | list => exact unused_released_iff (tame_exec_return q _ _ _) needMutex
  | listValue => exact unused_released_iff (tame_exec_return q _ _ _) needMutex

end DbKeyValue

namespace DbMultiKeyData

variable {needMutex : Bool} {q : Sqlite Tables Row} {code : Nat → Nat} {c : Conn Tables}

/-- The methods. An `open` comes with the tables of its file. -/
inductive Call where
  | open (file : Tables)
  | createTable
  | clear
  | find (key : String)
  | findTitle (key title : String) (out : DataItemProto)
  | findNoBlob (key : String)
  | remove (key title : String)
  | removeOldest
  | insert (key title : String) (time ttl : Int) (data : List UInt8)
  | update (key title : String) (time ttl : Int)
  | count (key : String)
  | size
  | list
  | listHeaders

/-- A call with its lock. -/
def Call.run (needMutex : Bool) (q : Sqlite Tables Row) (code : Nat → Nat) :
    Call → LockedM Tables Unit
  | .open file => Locked.open needMutex q code file
  | .createTable => Locked.createTable needMutex q
  | .clear => Locked.clear needMutex q
  | .find key => do let _ ← Locked.find needMutex q key
  | .findTitle key title out => do let _ ← Locked.findTitle needMutex q key title out
  | .findNoBlob key => do let _ ← Locked.findNoBlob needMutex q key
  | .remove key title => Locked.remove needMutex q key title
  | .removeOldest => Locked.removeOldest needMutex q
  | .insert key title time ttl data => Locked.insert needMutex q key title time ttl data
  | .update key title time ttl => Locked.update needMutex q key title time ttl
  | .count key => do let _ ← Locked.count needMutex q key
  | .size => do let _ ← Locked.size needMutex q
  | .list => do let _ ← Locked.list needMutex q
  | .listHeaders => do let _ ← Locked.listHeaders needMutex q

/-- The condition under which a call leaves the lock free, as for the other store. -/
def Call.Meets (needMutex : Bool) (q : Sqlite Tables Row) (code : Nat → Nat) (call : Call)
    (c : Conn Tables) : Prop :=
  match call with
  | .open file => OpenMeets needMutex q code file (DbMultiKeyData.createTable q) c
  | .createTable => Act.Raises (DbMultiKeyData.createTable q) c ↔ needMutex = true
  | .clear =>
    if needMutex then Act.Raises (q.exec ("SQL error in DROP table : " ++ ·) dropHeader) c
    else ¬ Act.Raises (DbMultiKeyData.clear q) c
  | .find key => Act.Raises (DbMultiKeyData.find q key) c ↔ needMutex = true
  | .findTitle key title out => Act.Raises (DbMultiKeyData.findTitle q key title out) c ↔ needMutex = true
  | .findNoBlob key => Act.Raises (DbMultiKeyData.findNoBlob q key) c ↔ needMutex = true
  | .remove key title => Act.Raises (DbMultiKeyData.remove q key title) c ↔ needMutex = true
  | .removeOldest => Act.Raises (DbMultiKeyData.removeOldest q) c ↔ needMutex = true
  | .insert key title time ttl data =>
    Act.Raises (DbMultiKeyData.insert q key title time ttl data) c ↔ needMutex = true
  | .update key title time ttl =>
    Act.Raises (DbMultiKeyData.update q key title time ttl) c ↔ needMutex = true
  | .count key => Act.Raises (DbMultiKeyData.count q key) c ↔ needMutex = true
  | .size => Act.Raises (DbMultiKeyData.size q) c ↔ needMutex = true
  | .list => Act.Raises (DbMultiKeyData.list q) c ↔ needMutex = true
  | .listHeaders => Act.Raises (DbMultiKeyData.listHeaders q) c ↔ needMutex = true

theorem clear_released_iff :
    Released (Act.exec (Locked.clear needMutex q) { state := c }) ↔
      if needMutex then Act.Raises (q.exec ("SQL error in DROP table : " ++ ·) dropHeader) c
      else ¬ Act.Raises (clear q) c := by
  cases needMutex with
  | false =>
    rw [if_neg Bool.false_ne_true]
    have follows : Mutex.Follows .misused (Locked.clear false q) (clear q) :=
      .bind (locked_false _) fun _ => .bind (locked_false _) fun _ =>
        .bind (locked_false _) fun _ => locked_false _
    have tame : Act.Tame (fun _ => True) (clear q) :=
      .bind (tame_exec q _ _) fun _ => .bind (tame_exec q _ _) fun _ =>
        .bind (tame_exec q _ _) fun _ => tame_createTable q
    exact released_iff tame follows
  | true =>
    rw [if_pos rfl]
    exact blocks_released_iff (tame_exec q _ _) fun c =>
      Act.exec_bind_error (locked_true_held _ c)

theorem Call.released_iff (call : Call) :
    Released (Act.exec (call.run needMutex q code) { state := c }) ↔
      call.Meets needMutex q code c := by
  cases call with
  | «open» file => exact open_released_iff (tame_createTable q) needMutex
  | createTable => exact locked_released_iff (tame_createTable q) needMutex
  | clear => exact clear_released_iff
  | find key => exact unused_released_iff (tame_find q key) needMutex
  | findTitle key title out => exact unused_released_iff (tame_findTitle q key title out) needMutex
  | findNoBlob key => exact unused_released_iff (tame_selectRows_return q _ _ _ _) needMutex
  | remove key title =>
    exact locked_released_iff (tame_exec_return q _ _ _) needMutex
  | removeOldest => exact locked_released_iff (tame_exec_return q _ _ _) needMutex
  | insert key title time ttl data =>
    exact locked_released_iff (tame_insert q key title time ttl data) needMutex
  | update key title time ttl =>
    exact locked_released_iff (tame_exec_return q _ _ _) needMutex
  | count key => exact unused_released_iff (tame_exec_return q _ _ _) needMutex
  | size => exact unused_released_iff (tame_exec_return q _ _ _) needMutex
  | list => exact unused_released_iff (tame_selectRows_return q _ _ _ _) needMutex
  | listHeaders => exact unused_released_iff (tame_selectRows_return q _ _ _ _) needMutex

end DbMultiKeyData

/-- **The lock of the stores.** In a sequence of calls by one thread, whatever statements are
refused, every call finds the lock free and leaves it free if and only if in every call a
statement is refused where the lock is used, and none is where it is not. -/
theorem lock_balanced_iff (needMutex : Bool) (code : Nat → Nat) :
    (∀ (q : Sqlite Contacts KvRow) (calls : List DbKeyValue.Call) (c : Conn Contacts),
      AllReleased (DbKeyValue.Call.run needMutex q code) calls { state := c } ↔
        AllMeet (DbKeyValue.Call.run needMutex q code) (DbKeyValue.Call.Meets needMutex q code) calls
          { state := c }) ∧
    ∀ (q : Sqlite Tables Row) (calls : List DbMultiKeyData.Call) (c : Conn Tables),
      AllReleased (DbMultiKeyData.Call.run needMutex q code) calls { state := c } ↔
        AllMeet (DbMultiKeyData.Call.run needMutex q code)
          (DbMultiKeyData.Call.Meets needMutex q code) calls { state := c } :=
  ⟨fun _ calls c => allReleased_iff (fun call _ => call.released_iff) calls c,
    fun _ calls c => allReleased_iff (fun call _ => call.released_iff) calls c⟩

/-- A contact inserted twice without the lock, and one asked for with it. -/
theorem lock_unbalanced :
    ¬ AllReleased (DbKeyValue.Call.run false .inOrder fun _ => 0)
        [.insert "0a" "1.1.1.1:1", .insert "0a" "1.1.1.1:1"] { state := { tables := [] } } ∧
      ¬ AllReleased (DbKeyValue.Call.run true .inOrder fun _ => 0) [.find "0a", .find "0a"]
        { state := { tables := [] } } := by
  constructor
  · rintro ⟨-, -, -, released, -⟩
    exact absurd released.2 (by decide +kernel)
  · rintro ⟨-, released, -⟩
    exact absurd released.2 (by decide +kernel)

end MiniDht
