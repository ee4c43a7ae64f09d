import MiniDht.Lib.Cpp
import MiniDht.Lib.SqlText

/-!
# A database behind statement texts

A program hands texts to a database engine. `Stmt` is a statement the program means to
run: the template it fills, the values it writes and the effect on the tables. The engine
runs that effect on a text that reads as the statement meant (`Template.Reads`); what it
does with any other text is left open (`Sqlite.other`), and so is which calls fail, in
which order rows come back and which of equally good rows is taken.
-/

namespace MiniDht.Lib

/-- A statement as the program means it. `eval` gets a number that settles what the
language leaves open, and returns nothing when a constraint is violated. -/
structure Stmt (Tbl Row : Type) where
  template : Template
  values : List String
  fits : values.length = template.tail.length
  eval : Nat → Tbl → Option (Tbl × List Row)

namespace Stmt

variable {Tbl Row : Type}

/-- The text handed to the engine. -/
def text (st : Stmt Tbl Row) : String :=
  String.ofList (st.template.text st.values)

/-- The text says what the program means. -/
def Reads (st : Stmt Tbl Row) : Prop := st.template.Reads st.values

instance (st : Stmt Tbl Row) : Decidable st.Reads :=
  inferInstanceAs (Decidable (st.template.Reads st.values))

theorem reads_iff (st : Stmt Tbl Row) : st.Reads ↔ ∀ value ∈ st.values, Clean value :=
  st.template.reads_iff st.fits

end Stmt

/-- The engine. Its calls are numbered in the order they are made. -/
structure Sqlite (Tbl Row : Type) where
  /-- The call fails for a reason of its own: no space, no memory, a lock. -/
  fails : Nat → Bool
  errmsg : Nat → String
  /-- What settles the open points of a statement. -/
  choice : Nat → Nat
  /-- The order in which the rows of a result come back. -/
  arrange : Nat → List Row → List Row
  arrange_perm : ∀ n rows, (arrange n rows).Perm rows
  /-- Success, tables and rows for a text that does not read as the statement meant. -/
  other : Nat → String → Tbl → Bool × Tbl × List Row

/-- A connection: the tables and the number of calls made so far. -/
structure Conn (Tbl : Type) where
  tables : Tbl
  calls : Nat := 0

/-- Calls of the program on one database. -/
abbrev DbM (Tbl : Type) := Act (Conn Tbl)

namespace Sqlite

variable {Tbl Row : Type} (q : Sqlite Tbl Row)

/-- What call `n` with the text of `st` does. -/
def answer (n : Nat) (st : Stmt Tbl Row) (tables : Tbl) : Bool × Tbl × List Row :=
  if st.Reads then
    match st.eval (q.choice n) tables with
    | some (after, rows) => (true, after, q.arrange n rows)
    | none => (false, tables, [])
  else q.other n st.text tables

/-- One call of the interface; `error` makes the text of its exception from the
engine's own message. -/
def call (error : String → String) : DbM Tbl Nat := do
  let c ← get
  set { c with calls := c.calls + 1 }
  if q.fails c.calls then throw (.exception (error (q.errmsg c.calls)))
  return c.calls

/-- Run a statement: `sqlite3_exec`, `sqlite3_get_table` and the steps of a prepared one. -/
def exec (error : String → String) (st : Stmt Tbl Row) : DbM Tbl (List Row) := do
  let n ← q.call error
  let c ← get
  let (ok, tables, rows) := q.answer n st c.tables
  set { c with tables := tables }
  if ok then return rows else throw (.exception (error (q.errmsg n)))

/-- `sqlite3_prepare_v2`: a text that is not accepted is refused here. -/
def prepare (error : String → String) (st : Stmt Tbl Row) : DbM Tbl Unit := do
  let n ← q.call error
  let c ← get
  if (q.answer n st c.tables).1 then return () else throw (.exception (error (q.errmsg n)))

/-- No call fails for a reason of the engine's own. -/
def Sound : Prop := ∀ n, q.fails n = false

/-- An engine that refuses every text that does not read as meant, fails at nothing else
and returns rows in the order they come up. -/
def inOrder : Sqlite Tbl Row where
  fails _ := false
  errmsg _ := "syntax error"
  choice _ := 0
  arrange _ rows := rows
  arrange_perm _ _ := .refl _
  other _ _ tables := (false, tables, [])

theorem inOrder_sound : (inOrder : Sqlite Tbl Row).Sound := fun _ => rfl

/-- The same engine, but it returns a row ahead of all others. -/
def leading [DecidableEq Row] (row : Row) : Sqlite Tbl Row :=
  { q with
    arrange := fun _ rows => rows.filter (· = row) ++ rows.filter (¬ · = row)
    arrange_perm := fun _ rows => by
      simpa using List.filter_append_perm (fun other => decide (other = row)) rows }

variable {q}

theorem Sound.leading [DecidableEq Row] (sound : q.Sound) (row : Row) : (q.leading row).Sound :=
  sound

theorem head_leading [DecidableEq Row] {row : Row} {rows : List Row} (member : row ∈ rows) (n : Nat) :
    ((q.leading row).arrange n rows).head? = some row := by
  have chosen : row ∈ rows.filter (· = row) :=
    List.mem_filter.mpr ⟨member, decide_eq_true rfl⟩
  obtain ⟨other, first⟩ :=
    Option.isSome_iff_exists.mp (List.isSome_head?.mpr (List.ne_nil_of_mem chosen))
  have same : other = row := of_decide_eq_true (List.mem_filter.mp (List.mem_of_mem_head? first)).2
  rw [leading, List.head?_append, first, same]
  rfl

end Sqlite

section Rules

variable {Tbl Row : Type} {q : Sqlite Tbl Row} {c : Conn Tbl} {st : Stmt Tbl Row}
  {f : String → String}

theorem exec_call_works (works : q.fails c.calls = false) :
    Act.exec (q.call f) c = (.ok c.calls, { c with calls := c.calls + 1 }) := by
  simp [Sqlite.call, Act.exec_bind, works]

theorem exec_call_fails (fails : q.fails c.calls = true) :
    Act.exec (q.call f) c =
      (.error (.exception (f (q.errmsg c.calls))), { c with calls := c.calls + 1 }) := by
  simp [Sqlite.call, Act.exec_bind, fails]

theorem exec_call (q : Sqlite Tbl Row) (sound : q.Sound) (error : String → String) (c : Conn Tbl) :
    Act.exec (q.call error) c = (.ok c.calls, { c with calls := c.calls + 1 }) :=
  exec_call_works (sound c.calls)

/-- A statement that reads as meant is answered by its effect. -/
theorem answer_reads (reads : st.Reads) {t : Tbl} {r : List Row}
    (run : st.eval (q.choice c.calls) c.tables = some (t, r)) :
    q.answer c.calls st c.tables = (true, t, q.arrange c.calls r) := by
  rw [Sqlite.answer, if_pos reads, run]

theorem answer_violates (reads : st.Reads) (run : st.eval (q.choice c.calls) c.tables = none) :
    q.answer c.calls st c.tables = (false, c.tables, []) := by
  rw [Sqlite.answer, if_pos reads, run]

theorem exec_answered (works : q.fails c.calls = false) {t : Tbl} {rows : List Row}
    (answered : q.answer c.calls st c.tables = (true, t, rows)) :
    Act.exec (q.exec f st) c = (.ok rows, { tables := t, calls := c.calls + 1 }) := by
  rw [Sqlite.exec, Act.exec_bind_ok (exec_call_works works)]
  simp only [Act.exec_bind, Act.exec_get, answered]
  rfl

theorem exec_unanswered (works : q.fails c.calls = false) {t : Tbl} {rows : List Row}
    (answered : q.answer c.calls st c.tables = (false, t, rows)) :
    Act.exec (q.exec f st) c =
      (.error (.exception (f (q.errmsg c.calls))), { tables := t, calls := c.calls + 1 }) := by
  rw [Sqlite.exec, Act.exec_bind_ok (exec_call_works works)]
  simp only [Act.exec_bind, Act.exec_get, answered]
  rfl

theorem exec_fails (fails : q.fails c.calls = true) :
    Act.exec (q.exec f st) c =
      (.error (.exception (f (q.errmsg c.calls))), { c with calls := c.calls + 1 }) := by
  rw [Sqlite.exec, Act.exec_bind_error (exec_call_fails fails)]

theorem prepare_answered (works : q.fails c.calls = false)
    (answered : (q.answer c.calls st c.tables).1 = true) :
    Act.exec (q.prepare f st) c = (.ok (), { c with calls := c.calls + 1 }) := by
  rw [Sqlite.prepare, Act.exec_bind_ok (exec_call_works works)]
  simp only [Act.exec_bind, Act.exec_get, answered, if_true]
  rfl

/-- A statement that reads as meant has its effect. -/
theorem exec_sound (sound : q.Sound) (reads : st.Reads) {t : Tbl} {r : List Row}
    (run : st.eval (q.choice c.calls) c.tables = some (t, r)) :
    Act.exec (q.exec f st) c =
      (.ok (q.arrange c.calls r), { tables := t, calls := c.calls + 1 }) :=
  exec_answered (sound _) (answer_reads reads run)

theorem prepare_sound (sound : q.Sound) (reads : st.Reads)
    (run : (st.eval (q.choice c.calls) c.tables).isSome) :
    Act.exec (q.prepare f st) c = (.ok (), { c with calls := c.calls + 1 }) := by
  obtain ⟨⟨after, rows⟩, run⟩ := Option.isSome_iff_exists.mp run
  exact prepare_answered (sound _) (by rw [answer_reads reads run])

/-! ### Engines that fail -/

/-- The next call accepts the statement. -/
def Sqlite.Accepts (q : Sqlite Tbl Row) (c : Conn Tbl) (st : Stmt Tbl Row) : Prop :=
  q.fails c.calls = false ∧ (q.answer c.calls st c.tables).1 = true

theorem Sqlite.Sound.accepts (sound : q.Sound) (reads : st.Reads)
    (run : (st.eval (q.choice c.calls) c.tables).isSome) : q.Accepts c st := by
  obtain ⟨⟨after, rows⟩, run⟩ := Option.isSome_iff_exists.mp run
  exact ⟨sound _, by rw [answer_reads reads run]⟩

/-- A statement returns rows if it is accepted, and throws otherwise. -/
theorem exec_accepts (accepts : q.Accepts c st) :
    ∃ rows c', Act.exec (q.exec f st) c = (.ok rows, c') :=
  ⟨_, _, exec_answered accepts.1 (Prod.ext accepts.2 rfl)⟩

theorem exec_refuses (refuses : ¬ q.Accepts c st) :
    ∃ what c', Act.exec (q.exec f st) c = (.error (.exception what), c') := by
  cases failed : q.fails c.calls with
  | true => exact ⟨_, _, exec_fails failed⟩
  | false =>
    have no : (q.answer c.calls st c.tables).1 = false :=
      Bool.eq_false_iff.mpr fun ok => refuses ⟨failed, ok⟩
    exact ⟨_, _, exec_unanswered failed (Prod.ext no rfl)⟩

theorem tame_exec (q : Sqlite Tbl Row) (error : String → String) (st : Stmt Tbl Row) :
    Act.Tame (fun _ => True) (q.exec error st) := by
  intro c _
  by_cases accepts : q.Accepts c st
  · obtain ⟨rows, c', run⟩ := exec_accepts (f := error) accepts
    exact .inl ⟨rows, by rw [run], trivial⟩
  · obtain ⟨what, c', run⟩ := exec_refuses (f := error) accepts
    exact .inr ⟨what, by rw [run]⟩

/-- A statement whose rows are turned into a result. -/
theorem tame_exec_return {α : Type} (q : Sqlite Tbl Row) (error : String → String)
    (st : Stmt Tbl Row) (result : List Row → α) :
    Act.Tame (fun _ => True) (do
      let rows ← q.exec error st
      return result rows) :=
  .bind (tame_exec q error st) fun _ => .pure _

theorem tame_call (q : Sqlite Tbl Row) (error : String → String) :
    Act.Tame (fun _ => True) (q.call error) :=
  .bind .get fun _ => .bind (fun _ _ => .inl ⟨_, rfl, trivial⟩) fun _ =>
    .ite (.bind (.throw _) fun _ => .pure _) (.pure _)

theorem tame_prepare (q : Sqlite Tbl Row) (error : String → String) (st : Stmt Tbl Row) :
    Act.Tame (fun _ => True) (q.prepare error st) :=
  .bind (tame_call q error) fun _ => .bind .get fun _ => .ite (.pure _) (.throw _)

/-! ### What calls leave alone -/

section Keeps

variable {I : Tbl → Prop}

theorem keeps_call (q : Sqlite Tbl Row) (error : String → String) :
    Act.Keeps (fun c : Conn Tbl => I c.tables) (q.call error) := by
  intro c kept
  cases failed : q.fails c.calls with
  | true => rwa [exec_call_fails failed]
  | false => rwa [exec_call_works failed]

theorem keeps_prepare (q : Sqlite Tbl Row) (error : String → String) (st : Stmt Tbl Row) :
    Act.Keeps (fun c : Conn Tbl => I c.tables) (q.prepare error st) :=
  .bind (keeps_call q error) fun _ => .bind .get fun _ => .ite (.pure _) (.throw _)

/-- A statement keeps what its effect keeps. -/
theorem keeps_exec (q : Sqlite Tbl Row) (error : String → String) (reads : st.Reads)
    (step : ∀ n t t' rows, I t → st.eval n t = some (t', rows) → I t') :
    Act.Keeps (fun c : Conn Tbl => I c.tables) (q.exec error st) := by
  intro c kept
  cases failed : q.fails c.calls with
  | true => rwa [exec_fails failed]
  | false =>
    cases run : st.eval (q.choice c.calls) c.tables with
    | none => rwa [exec_unanswered failed (answer_violates reads run)]
    | some after =>
      rw [exec_answered failed (answer_reads reads run)]
      exact step _ _ _ _ kept run

end Keeps

/-- The computation makes `k` calls: it returns if none of them fails, and throws at the first
that does. -/
def Makes {α : Type} (q : Sqlite Tbl Row) (k : Nat) (x : DbM Tbl α) : Prop := ∀ c : Conn Tbl,
  ((∀ i < k, q.fails (c.calls + i) = false) → ∃ a t, Act.exec x c = (.ok a, ⟨t, c.calls + k⟩)) ∧
  ((∃ i < k, q.fails (c.calls + i) = true) → Act.Raises x c)

/-- The statement reads as meant and is never refused. -/
def Stmt.Total (st : Stmt Tbl Row) : Prop := st.Reads ∧ ∀ n t, (st.eval n t).isSome

namespace Makes

variable {α β : Type}

theorem pure (a : α) : Makes q 0 (Pure.pure a : DbM Tbl α) := fun c =>
  ⟨fun _ => ⟨a, c.tables, rfl⟩, fun ⟨_, before, _⟩ => absurd before (Nat.not_lt_zero _)⟩

theorem bind {j k : Nat} {x : DbM Tbl α} {g : α → DbM Tbl β} (first : Makes q j x)
    (rest : ∀ a, Makes q k (g a)) : Makes q (j + k) (x >>= g) := by
  intro c
  obtain ⟨works, fails⟩ := first c
  constructor
  · intro fine
    obtain ⟨a, t, run⟩ := works fun i inside => fine i (by omega)
    obtain ⟨b, t', run'⟩ := (rest a ⟨t, c.calls + j⟩).1 fun i inside => by
      have late := fine (j + i) (by omega)
      rwa [← Nat.add_assoc] at late
    exact ⟨b, t', by rw [Act.exec_bind_ok run, run', Nat.add_assoc]⟩
  · rintro ⟨i, inside, failed⟩
    by_cases early : ∃ i < j, q.fails (c.calls + i) = true
    · obtain ⟨what, raised⟩ := fails early
      exact ⟨what, by rw [Act.exec_bind_error (Prod.ext raised rfl)]⟩
    · have fine : ∀ i < j, q.fails (c.calls + i) = false := fun i inside =>
        Bool.eq_false_iff.mpr fun failed => early ⟨i, inside, failed⟩
      obtain ⟨a, t, run⟩ := works fine
      have late : j ≤ i := not_lt.mp fun before => early ⟨i, before, failed⟩
      obtain ⟨what, raised⟩ := (rest a ⟨t, c.calls + j⟩).2 ⟨i - j, by omega, by
        rwa [Nat.add_assoc, Nat.add_sub_cancel' late]⟩
      exact ⟨what, by rw [Act.exec_bind_ok run, raised]⟩

/-- One call is made. -/
theorem one {x : DbM Tbl α}
    (works : ∀ c : Conn Tbl, q.fails c.calls = false → ∃ a t, Act.exec x c = (.ok a, ⟨t, c.calls + 1⟩))
    (fails : ∀ c : Conn Tbl, q.fails c.calls = true → Act.Raises x c) : Makes q 1 x := by
  intro c
  constructor
  · exact fun fine => works c (fine 0 Nat.zero_lt_one)
  · rintro ⟨i, inside, failed⟩
    obtain rfl : i = 0 := by omega
    exact fails c failed

theorem call (error : String → String) : Makes q 1 (q.call error) :=
  .one (fun c works => ⟨_, c.tables, exec_call_works works⟩)
    fun c fails => ⟨_, by rw [exec_call_fails fails]⟩

theorem exec (total : st.Total) (error : String → String) : Makes q 1 (q.exec error st) := by
  refine .one (fun c works => ?_) fun c fails => ⟨_, by rw [exec_fails fails]⟩
  obtain ⟨⟨t, rows⟩, run⟩ := Option.isSome_iff_exists.mp (total.2 (q.choice c.calls) c.tables)
  exact ⟨_, t, exec_answered works (answer_reads total.1 run)⟩

theorem prepare (total : st.Total) (error : String → String) : Makes q 1 (q.prepare error st) := by
  refine .one (fun c works => ?_) fun c fails => ⟨_, by
    rw [Sqlite.prepare, Act.exec_bind_error (exec_call_fails fails)]⟩
  obtain ⟨⟨t, rows⟩, run⟩ := Option.isSome_iff_exists.mp (total.2 (q.choice c.calls) c.tables)
  exact ⟨(), c.tables, prepare_answered works (by rw [answer_reads total.1 run])⟩

end Makes

end Rules

end MiniDht.Lib
