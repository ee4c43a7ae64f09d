import MiniDht.Db.Records

/-!
# Looking records up by key

`find(key)` and `find_no_blob(key)` filter the product of the three tables column by
column, so a header, a time and an item of different records make a row of the result.
`n` records under a key come back as `n³` items, and as `n² · m` heads when the store
holds `m` records in all.
-/

namespace MiniDht

open Lib

namespace RecordStore

variable {s : RecordStore} {q : Sqlite Tables Row} {n : Nat} {key title : String}

/-- The rows of three records side by side. -/
def across (p : Record × Record × Record) : Header × TimeRow × ItemRow :=
  (p.1.header, p.2.1.timeRow, p.2.2.itemRow)

theorem product_tables (s : RecordStore) :
    s.tables.product = (s.records ×ˢ s.records ×ˢ s.records).map across := by
  rw [Tables.product, tables, product_map, product_map]
  rfl

/-- Restricting the three ids to some records selects header, time and item of any three
of them. -/
theorem cube (p : Record → Bool) :
    (s.tables.product.filter fun x =>
      x.1.id ∈ Tables.headerIds ((s.records.filter p).map Record.header) ∧
        x.2.1.timeId ∈ s.tables.timeIds ((s.records.filter p).map Record.header) ∧
        x.2.2.itemId ∈ s.tables.itemIds ((s.records.filter p).map Record.header)) =
      (s.records.filter p ×ˢ s.records.filter p ×ˢ s.records.filter p).map across := by
  rw [product_tables, List.filter_map]
  congr 1
  simp only [← filter_product]
  apply List.filter_congr
  rintro ⟨a, b, c⟩ triple
  obtain ⟨first, rest⟩ := List.mem_product.mp triple
  obtain ⟨second, third⟩ := List.mem_product.mp rest
  rw [Function.comp_apply, Bool.eq_iff_iff, decide_eq_true_iff, Bool.and_eq_true,
    Bool.and_eq_true]
  exact and_congr (id_mem_headerIds first)
    (and_congr (id_mem_timeIds second) (id_mem_itemIds third))

/-- The rows `find` selects: header, time and item of any three records under the key. -/
theorem eval_selectKey (n : Nat) (key : String) :
    (selectKey key).eval n s.tables = some (s.tables,
      (s.under key ×ˢ s.under key ×ˢ s.under key).map fun p => itemRow (across p)) := by
  have chosen := cube (s := s) fun r => r.key = key
  simp only [selectKey, byKey_tables, under, chosen, List.map_map]
  rfl

/-- The record with this key and title, if it is there. -/
def holds (s : RecordStore) (key title : String) : List Record :=
  s.records.filter fun r => r.pair = (key, title)

theorem holds_of_mem {r : Record} (member : r ∈ s.records) : s.holds r.key r.title = [r] := by
  rw [holds, ← filter_eq_self s.pairs member]
  apply List.filter_congr
  intro b _
  exact decide_eq_decide.mpr eq_comm

theorem holds_of_absent (absent : s.Absent key title) : s.holds key title = [] := by
  rw [holds, List.filter_eq_nil_iff]
  intro r member chosen
  exact absent r member (of_decide_eq_true chosen)

/-- The rows `find(key, title)` selects: those of the one record, if it is there. -/
theorem eval_selectTitle (n : Nat) (key title : String) :
    (selectTitle key title).eval n s.tables = some (s.tables,
      (s.holds key title ×ˢ s.holds key title ×ˢ s.holds key title).map
        fun p => itemRow (across p)) := by
  have chosen := cube (s := s) fun r => r.pair = (key, title)
  simp only [selectTitle, byTitle_tables, holds, chosen, List.map_map]
  rfl

/-- The record as `list_headers` hands it out. -/
def listed (r : Record) : DataItemHeader where
  key := r.key
  title := r.title
  time := r.time
  ttl := r.ttl

/-- Rows whose ids agree are the rows of one record. -/
theorem diagonal (s : RecordStore) :
    s.tables.product.filter (fun p => p.1.id = p.2.1.timeId ∧ p.1.id = p.2.2.itemId) =
      s.records.map fun r => across (r, r, r) := by
  rw [product_tables, List.filter_map]
  refine (congrArg (List.map across) (filter_diagonal s.ids)).trans ?_
  rw [List.map_map]
  rfl

/-- The rows `list_headers` selects: those of each record, once. -/
theorem eval_selectHeaders (n : Nat) :
    selectHeaders.eval n s.tables = some (s.tables, s.records.map fun r =>
      { headRow (across (r, r, r)) with key := some r.key }) := by
  simp only [selectHeaders, diagonal, List.map_map]
  rfl

/-- The rows `find_no_blob` selects: an item of any record of the store joins in. -/
theorem eval_selectNoBlob (n : Nat) (key : String) :
    (selectNoBlob key).eval n s.tables = some (s.tables,
      (s.under key ×ˢ s.under key ×ˢ s.records).map fun p => headRow (across p)) := by
  have all : s.records = s.records.filter fun _ => true := by simp
  have chosen : s.tables.product.filter (fun p =>
      p.1.id ∈ Tables.headerIds (s.tables.byKey key) ∧
        p.2.1.timeId ∈ s.tables.timeIds (s.tables.byKey key)) =
      (s.under key ×ˢ s.under key ×ˢ s.records).map across := by
    rw [product_tables, List.filter_map]
    congr 1
    conv_rhs => rw [all]
    simp only [under, ← filter_product]
    apply List.filter_congr
    rintro ⟨a, b, c⟩ triple
    obtain ⟨first, rest⟩ := List.mem_product.mp triple
    have second := (List.mem_product.mp rest).1
    rw [Function.comp_apply, Bool.eq_iff_iff, decide_eq_true_iff, Bool.and_eq_true,
      Bool.and_true, byKey_tables]
    exact and_congr (id_mem_headerIds first) (id_mem_timeIds second)
  simp only [selectNoBlob, chosen, List.map_map]
  rfl

/-! ## The methods that look up -/

theorem exec_selectRows {st : DbStmt} {rows : List Row} {prepareError finalizeError : String}
    (sound : q.Sound) (reads : st.Reads) (run : ∀ n, st.eval n s.tables = some (s.tables, rows)) :
    Act.exec (DbMultiKeyData.selectRows q prepareError finalizeError st) ⟨s.tables, n⟩ =
      (.ok (q.arrange (n + 1) rows), ⟨s.tables, n + 2⟩) := by
  have prepared := prepare_sound (f := (prepareError ++ ·)) (c := ⟨s.tables, n⟩) sound reads
    (Option.isSome_of_eq_some (run _))
  rw [DbMultiKeyData.selectRows, Act.exec_bind_ok prepared]
  exact exec_sound (c := ⟨s.tables, n + 1⟩) sound reads (run _)

/-- `find` hands out an item for every three records under the key: the title of the
first, the time and ttl of the second and the data of the third. -/
theorem exec_find (sound : q.Sound) (clean : Clean key) :
    ∃ rows : List Row,
      rows.Perm ((s.under key ×ˢ s.under key ×ˢ s.under key).map fun p => itemRow (across p)) ∧
      Act.exec (DbMultiKeyData.find q key) ⟨s.tables, n⟩ =
        (.ok (rows.map fun row => row.read {}), ⟨s.tables, n + 2⟩) := by
  refine ⟨_, q.arrange_perm (n + 1) _, ?_⟩
  rw [DbMultiKeyData.find, Act.exec_bind_ok
    (exec_selectRows sound (reads_selectKey.mpr clean) fun n => eval_selectKey n key)]
  rfl

/-- `find_no_blob` hands out a head for every two records under the key, once for each record
of the store. -/
theorem exec_findNoBlob_arranged (sound : q.Sound) (clean : Clean key) :
    Act.exec (DbMultiKeyData.findNoBlob q key) ⟨s.tables, n⟩ =
      (.ok ((q.arrange (n + 1) ((s.under key ×ˢ s.under key ×ˢ s.records).map
        fun p => headRow (across p))).map fun row => row.read {}), ⟨s.tables, n + 2⟩) := by
  rw [DbMultiKeyData.findNoBlob, Act.exec_bind_ok
    (exec_selectRows sound (reads_selectNoBlob.mpr clean) fun n => eval_selectNoBlob n key)]
  rfl

theorem exec_findNoBlob (sound : q.Sound) (clean : Clean key) :
    ∃ rows : List Row,
      rows.Perm ((s.under key ×ˢ s.under key ×ˢ s.records).map fun p => headRow (across p)) ∧
      Act.exec (DbMultiKeyData.findNoBlob q key) ⟨s.tables, n⟩ =
        (.ok (rows.map fun row => row.read {}), ⟨s.tables, n + 2⟩) :=
  ⟨_, q.arrange_perm (n + 1) _, exec_findNoBlob_arranged sound clean⟩

/-- `find(key, title)` hands out the record, whatever was in `out`. -/
theorem exec_findTitle (sound : q.Sound) (clean : Clean key ∧ Clean title)
    (out : DataItemProto) {r : Record} (member : r ∈ s.records) (pair : r.pair = (key, title)) :
    Act.exec (DbMultiKeyData.findTitle q key title out) ⟨s.tables, n⟩ =
      (.ok r.item, ⟨s.tables, n + 3⟩) := by
  obtain ⟨rfl, rfl⟩ := Prod.mk.inj pair
  have rows : (selectTitle r.key r.title).eval (q.choice (n + 1)) s.tables =
      some (s.tables, [itemRow (across (r, r, r))]) := by
    rw [eval_selectTitle, holds_of_mem member]
    rfl
  have prepared := prepare_sound (f := ("SQL error in SELECT [key title] : " ++ ·))
    (c := ⟨s.tables, n⟩) sound (reads_selectTitle.mpr clean)
    (Option.isSome_of_eq_some (eval_selectTitle _ r.key r.title))
  have stepped := exec_sound (f := ("SQL error in step : " ++ ·)) (c := ⟨s.tables, n + 1⟩) sound
    (reads_selectTitle.mpr clean) rows
  rw [List.perm_singleton.mp (q.arrange_perm _ _)] at stepped
  rw [DbMultiKeyData.findTitle, Act.exec_bind_ok prepared, Act.exec_bind_ok stepped]
  simp only []
  rw [Act.exec_bind_ok (exec_call q sound _ _)]
  rfl

/-- Where there is no such record it throws. -/
theorem exec_findTitle_absent (sound : q.Sound) (clean : Clean key ∧ Clean title)
    (out : DataItemProto) (absent : s.Absent key title) :
    Act.exec (DbMultiKeyData.findTitle q key title out) ⟨s.tables, n⟩ =
      (.error (.exception ("SQL error in step : " ++ q.errmsg (n + 1))), ⟨s.tables, n + 2⟩) := by
  have rows : (selectTitle key title).eval (q.choice (n + 1)) s.tables = some (s.tables, []) := by
    rw [eval_selectTitle, holds_of_absent absent]
    rfl
  have prepared := prepare_sound (f := ("SQL error in SELECT [key title] : " ++ ·))
    (c := ⟨s.tables, n⟩) sound (reads_selectTitle.mpr clean)
    (Option.isSome_of_eq_some (eval_selectTitle _ key title))
  have stepped := exec_sound (f := ("SQL error in step : " ++ ·)) (c := ⟨s.tables, n + 1⟩) sound
    (reads_selectTitle.mpr clean) rows
  rw [List.perm_nil.mp (q.arrange_perm _ _)] at stepped
  rw [DbMultiKeyData.findTitle, Act.exec_bind_ok prepared, Act.exec_bind_ok stepped]
  rfl

/-- `list_headers` hands out every record once. -/
theorem exec_listHeaders (sound : q.Sound) :
    ∃ headers, headers.Perm (s.records.map listed) ∧
      Act.exec (DbMultiKeyData.listHeaders q) ⟨s.tables, n⟩ =
        (.ok headers, ⟨s.tables, n + 2⟩) := by
  have perm := q.arrange_perm (n + 1) (s.records.map fun r =>
    { headRow (across (r, r, r)) with key := some r.key })
  refine ⟨_, (perm.map fun row => row.readHeader {}).trans (.of_eq ?_), ?_⟩
  · rw [List.map_map]
    rfl
  · rw [DbMultiKeyData.listHeaders, Act.exec_bind_ok
      (exec_selectRows sound reads_selectHeaders fun n => eval_selectHeaders n)]
    rfl

/-- `find(key)` appends one item for each of the records, and nothing else. -/
def FindExact (q : Sqlite Tables Row) (key : String) (c : Conn Tables) (rs : List Record) : Prop :=
  ∃ items c', Act.exec (DbMultiKeyData.find q key) c = (.ok items, c') ∧
    items.Perm (rs.map Record.item)

/-- `find_no_blob(key)` appends one head for each of the records, and nothing else. -/
def FindNoBlobExact (q : Sqlite Tables Row) (key : String) (c : Conn Tables) (rs : List Record) :
    Prop :=
  ∃ heads c', Act.exec (DbMultiKeyData.findNoBlob q key) c = (.ok heads, c') ∧
    heads.Perm (rs.map Record.head)

theorem findExact_iff (sound : q.Sound) (clean : Clean key) :
    FindExact q key ⟨s.tables, n⟩ (s.under key) ↔ (s.under key).length ≤ 1 := by
  obtain ⟨rows, perm, run⟩ := exec_find (s := s) (n := n) sound clean
  generalize under : s.under key = u at *
  constructor
  · rintro ⟨items, c', other, exact'⟩
    rw [run] at other
    cases other
    have length := exact'.length_eq
    rw [List.length_map, perm.length_eq, List.length_map, List.length_map, List.length_product,
      List.length_product] at length
    by_contra few
    have more : 1 < u.length := by omega
    have square : 1 * 1 < u.length * u.length := Nat.mul_lt_mul'' more more
    have bigger : u.length * 1 < u.length * (u.length * u.length) :=
      Nat.mul_lt_mul_of_pos_left square (by omega)
    omega
  · intro few
    refine ⟨_, _, run, ?_⟩
    match u, few with
    | [], _ =>
      rw [List.perm_nil.mp perm]
      exact .refl _
    | [r], _ =>
      rw [List.perm_singleton.mp perm]
      exact .refl _

theorem findNoBlobExact_iff (sound : q.Sound) (clean : Clean key) :
    FindNoBlobExact q key ⟨s.tables, n⟩ (s.under key) ↔ s.under key = [] ∨ s.records.length = 1 := by
  obtain ⟨rows, perm, run⟩ := exec_findNoBlob (s := s) (n := n) sound clean
  have part : (s.under key).length ≤ s.records.length := List.length_filter_le _ _
  constructor
  · rintro ⟨heads, c', other, exact'⟩
    rw [run] at other
    cases other
    have length := exact'.length_eq
    rw [List.length_map, perm.length_eq, List.length_map, List.length_map, List.length_product,
      List.length_product] at length
    by_cases none : s.under key = []
    · exact .inl none
    · right
      have some := List.length_pos_iff.mpr none
      have one : (s.under key).length * s.records.length = 1 := by
        apply Nat.eq_of_mul_eq_mul_left some
        omega
      exact Nat.eq_one_of_mul_eq_one_left one
  · intro few
    refine ⟨_, _, run, ?_⟩
    rcases few with none | single
    · rw [none] at perm ⊢
      rw [List.perm_nil.mp perm]
      exact .refl _
    · obtain ⟨r, only⟩ := List.length_eq_one_iff.mp single
      have under : s.under key = [r].filter fun r => r.key = key := by rw [← only]; rfl
      rw [under, only] at perm
      rw [under]
      by_cases here : r.key = key
      · simp only [here, decide_true, List.filter_cons_of_pos, List.filter_nil] at perm ⊢
        rw [List.perm_singleton.mp perm]
        exact .refl _
      · simp only [here, decide_false, Bool.false_eq_true, not_false_eq_true,
          List.filter_cons_of_neg, List.filter_nil] at perm ⊢
        rw [List.perm_nil.mp perm]
        exact .refl _

end RecordStore

/-! ## Histories -/

/-- A call that writes. -/
inductive Change where
  | insert (key title : String) (time ttl : Int) (data : List UInt8)
  | update (key title : String) (time ttl : Int)
  | remove (key title : String)

namespace Change

/-- The key and title a change is about. -/
def pair : Change → String × String
  | insert key title _ _ _ => (key, title)
  | update key title _ _ => (key, title)
  | remove key title => (key, title)

def run (q : Sqlite Tables Row) : Change → DbM Tables Unit
  | insert key title time ttl data => DbMultiKeyData.insert q key title time ttl data
  | update key title time ttl => DbMultiKeyData.update q key title time ttl
  | remove key title => DbMultiKeyData.remove q key title

/-- What a change means for the records. Inserting a pair that is there already has no
meaning here. -/
def apply (s : RecordStore) : Change → Option RecordStore
  | insert key title time ttl data =>
    if absent : s.Absent key title then some (s.insert key title time ttl data absent) else none
  | update key title time ttl => some (s.update key title time ttl)
  | remove key title => some (s.remove key title)

/-- The calls one after the other. -/
def runAll (q : Sqlite Tables Row) : List Change → DbM Tables Unit
  | [] => pure ()
  | change :: rest => do
    change.run q
    runAll q rest

/-- What they mean for the records, if every insertion is of a new pair. -/
def applyAll (s : RecordStore) : List Change → Option RecordStore
  | [] => some s
  | change :: rest => do applyAll (← apply s change) rest

variable {q : Sqlite Tables Row} {s s' : RecordStore}

theorem exec_run {change : Change} {n : Nat} (sound : q.Sound)
    (clean : Clean change.pair.1 ∧ Clean change.pair.2) (meant : apply s change = some s') :
    ∃ n', Act.exec (change.run q) ⟨s.tables, n⟩ = (.ok (), ⟨s'.tables, n'⟩) := by
  cases change with
  | insert key title time ttl data =>
    by_cases absent : s.Absent key title
    · simp only [apply, absent, dif_pos, Option.some.injEq] at meant
      subst meant
      exact ⟨_, RecordStore.exec_insert sound clean absent⟩
    · simp [apply, absent] at meant
  | update key title time ttl =>
    cases meant
    exact ⟨_, RecordStore.exec_update sound clean⟩
  | remove key title =>
    cases meant
    exact ⟨_, RecordStore.exec_remove sound clean⟩

theorem exec_runAll {changes : List Change} {n : Nat} (sound : q.Sound)
    (clean : ∀ change ∈ changes, Clean change.pair.1 ∧ Clean change.pair.2)
    (meant : applyAll s changes = some s') :
    ∃ n', Act.exec (runAll q changes) ⟨s.tables, n⟩ = (.ok (), ⟨s'.tables, n'⟩) := by
  induction changes generalizing s n with
  | nil =>
    cases meant
    exact ⟨n, rfl⟩
  | cons change rest ih =>
    obtain ⟨mid, first, later⟩ := Option.bind_eq_some_iff.mp meant
    obtain ⟨m, run⟩ := exec_run (n := n) sound (clean change (by simp)) first
    rw [runAll, Act.exec_bind_ok run]
    exact ih (fun c hc => clean c (List.mem_cons_of_mem _ hc)) later

/-- **Lookup by key.** After any insertions of new pairs, updates and removals, the two
lookups hand out precisely the records of a key if and only if it has none or its record
is the only one in the store. -/
theorem lookup_exact_iff {changes : List Change} (sound : q.Sound)
    (clean : ∀ change ∈ changes, Clean change.pair.1 ∧ Clean change.pair.2)
    (distinct : applyAll .empty changes = some s) {key : String} (cleanKey : Clean key) :
    ∃ n, Act.exec (runAll q changes) ⟨{}, 0⟩ = (.ok (), ⟨s.tables, n⟩) ∧
      (RecordStore.FindExact q key ⟨s.tables, n⟩ (s.under key) ∧
          RecordStore.FindNoBlobExact q key ⟨s.tables, n⟩ (s.under key) ↔
        s.under key = [] ∨ s.records.length = 1) := by
  obtain ⟨n, run⟩ := exec_runAll (n := 0) sound clean distinct
  refine ⟨n, run, ?_⟩
  rw [RecordStore.findExact_iff sound cleanKey, RecordStore.findNoBlobExact_iff sound cleanKey]
  have part : (s.under key).length ≤ s.records.length := List.length_filter_le _ _
  constructor
  · exact And.right
  · rintro (none | single)
    · exact ⟨by simp [none], .inl none⟩
    · exact ⟨by omega, .inr single⟩

/-- The theorem at one record, which is found as it is. -/
theorem lookup_exact_iff_single :
    let changes := [insert "k" "a" 1 60 [10], update "k" "a" 2 60]
    ∃ s n, applyAll .empty changes = some s ∧
      Act.exec (runAll .inOrder changes) ⟨{}, 0⟩ = (.ok (), ⟨s.tables, n⟩) ∧
      (RecordStore.FindExact .inOrder "k" ⟨s.tables, n⟩ (s.under "k") ∧
          RecordStore.FindNoBlobExact .inOrder "k" ⟨s.tables, n⟩ (s.under "k") ↔
        s.under "k" = [] ∨ s.records.length = 1) := by
  intro changes
  obtain ⟨n, found⟩ := @lookup_exact_iff .inOrder _ changes Sqlite.inOrder_sound (by decide) rfl "k"
    (by decide)
  exact ⟨_, n, rfl, found⟩

/-- Two titles under one key: the records are there, and `find` mixes them up. -/
theorem lookup_two_titles :
    let changes := [insert "k" "a" 1 60 [10], insert "k" "b" 2 60 [20]]
    ∃ s n, applyAll .empty changes = some s ∧
      Act.exec (runAll .inOrder changes) ⟨{}, 0⟩ = (.ok (), ⟨s.tables, n⟩) ∧
      ¬ RecordStore.FindExact .inOrder "k" ⟨s.tables, n⟩ (s.under "k") := by
  intro changes
  obtain ⟨n, run⟩ := @exec_runAll .inOrder .empty _ changes 0 Sqlite.inOrder_sound (by decide) rfl
  refine ⟨_, n, rfl, run, ?_⟩
  rw [RecordStore.findExact_iff Sqlite.inOrder_sound (by decide)]
  decide

end Change

end MiniDht
