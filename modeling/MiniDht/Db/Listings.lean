import MiniDht.Db.Lookup

/-!
# The two listings

`list` and `list_headers` join the tables alike, so each hands out every record once. The
columns `list` selects lack the key, though, and the name its reader looks for never comes
up: it files each record under the empty key, whatever the key of the record.
-/

namespace MiniDht

open Lib

theorem reads_selectAll : selectAll.Reads := by
  simp [Stmt.reads_iff, selectAll]

/-- The key, title, time and ttl of an entry of `list`. -/
def tupleOfEntry (e : String × DataItemProto) : String × String × UInt64 × UInt64 :=
  (e.1, e.2.title, e.2.time, e.2.ttl)

/-- The same of a header; the item of an entry has its numbers unsigned. -/
def DataItemHeader.tuple (h : DataItemHeader) : String × String × UInt64 × UInt64 :=
  (h.key, h.title, toUnsigned h.time, toUnsigned h.ttl)

namespace RecordStore

variable {s : RecordStore} {q : Sqlite Tables Row} {n : Nat}

/-- The rows `list` selects: those of each record, once. -/
theorem eval_selectAll (n : Nat) :
    selectAll.eval n s.tables =
      some (s.tables, s.records.map fun r => itemRow (across (r, r, r))) := by
  simp only [selectAll, diagonal, List.map_map]
  rfl

/-- `list` hands out every record once, under no key. -/
theorem exec_list (sound : q.Sound) :
    ∃ entries, entries.Perm (s.records.map fun r => ("", r.item)) ∧
      Act.exec (DbMultiKeyData.list q) ⟨s.tables, n⟩ = (.ok entries, ⟨s.tables, n + 2⟩) := by
  have perm := q.arrange_perm (n + 1) (s.records.map fun r => itemRow (across (r, r, r)))
  refine ⟨_, (perm.map fun row => (row.key.getD "", row.read {})).trans (.of_eq ?_), ?_⟩
  · rw [List.map_map]
    rfl
  · rw [DbMultiKeyData.list, Act.exec_bind_ok
      (exec_selectRows sound reads_selectAll fun n => eval_selectAll n)]
    rfl

/-- `list` gives one entry for each of the records, under its key. -/
def ListExact (q : Sqlite Tables Row) (c : Conn Tables) (rs : List Record) : Prop :=
  ∃ entries c', Act.exec (DbMultiKeyData.list q) c = (.ok entries, c') ∧
    entries.Perm (rs.map fun r => (r.key, r.item))

/-- The tuples of `list` are those of `list_headers` called next. -/
def ListingsAgree (q : Sqlite Tables Row) (c : Conn Tables) : Prop :=
  ∃ entries c' headers c'', Act.exec (DbMultiKeyData.list q) c = (.ok entries, c') ∧
    Act.exec (DbMultiKeyData.listHeaders q) c' = (.ok headers, c'') ∧
    (entries.map tupleOfEntry).Perm (headers.map DataItemHeader.tuple)

/-- Every record is stored under the empty key. -/
def Keyless (s : RecordStore) : Prop :=
  ∀ r ∈ s.records, r.key = ""

instance (s : RecordStore) : Decidable s.Keyless :=
  inferInstanceAs (Decidable (∀ r ∈ s.records, r.key = ""))

theorem listExact_of_keyless (sound : q.Sound) (keyless : s.Keyless) :
    ListExact q ⟨s.tables, n⟩ s.records := by
  obtain ⟨entries, perm, run⟩ := exec_list (s := s) (n := n) sound
  refine ⟨entries, _, run, perm.trans (.of_eq ?_)⟩
  apply List.map_congr_left
  intro r member
  rw [keyless r member]

theorem listingsAgree_of_keyless (sound : q.Sound) (keyless : s.Keyless) :
    ListingsAgree q ⟨s.tables, n⟩ := by
  obtain ⟨entries, c', run, perm⟩ := listExact_of_keyless (n := n) sound keyless
  obtain ⟨entries', -, run'⟩ := exec_list (s := s) (n := n) sound
  obtain ⟨-, rfl⟩ := Prod.mk.inj (run.symm.trans run')
  obtain ⟨headers, all, read⟩ := exec_listHeaders (s := s) (n := n + 2) sound
  refine ⟨entries, _, headers, _, run, read, (perm.map _).trans (.trans ?_ (all.map _).symm)⟩
  rw [List.map_map, List.map_map]
  exact .refl _

/-- The keys of the listed entries say nothing about the records. -/
theorem keyless_of_listExact (sound : q.Sound) (exact' : ListExact q ⟨s.tables, n⟩ s.records) :
    s.Keyless := by
  obtain ⟨entries, perm, run⟩ := exec_list (s := s) (n := n) sound
  obtain ⟨_, _, run', keyed⟩ := exact'
  obtain ⟨same, -⟩ := Prod.mk.inj (run.symm.trans run')
  obtain rfl := Except.ok.inj same
  intro r member
  have there := keyed.mem_iff.mpr (List.mem_map_of_mem (f := fun r => (r.key, r.item)) member)
  obtain ⟨r', -, entry⟩ := List.mem_map.mp (perm.mem_iff.mp there)
  exact (congrArg Prod.fst entry).symm

end RecordStore

namespace Change

variable {q : Sqlite Tables Row} {s : RecordStore}

/-- **The two listings.** After any insertions of new pairs, updates and removals, `list`
hands out each record once under its key, and the tuples of `list_headers`, if and only if
no record has a key to be filed under. -/
theorem listings_agree_iff {changes : List Change} (sound : q.Sound)
    (distinct : applyAll .empty changes = some s) :
    ((∀ change ∈ changes, Clean change.pair.1 ∧ Clean change.pair.2) →
        ∃ n, Act.exec (runAll q changes) ⟨{}, 0⟩ = (.ok (), ⟨s.tables, n⟩)) ∧
      ∀ n, RecordStore.ListExact q ⟨s.tables, n⟩ s.records ∧
          RecordStore.ListingsAgree q ⟨s.tables, n⟩ ↔ s.Keyless := by
  refine ⟨fun clean => exec_runAll sound clean distinct, fun n => ?_⟩
  constructor
  · rintro ⟨exact', -⟩
    exact RecordStore.keyless_of_listExact sound exact'
  · intro keyless
    exact ⟨RecordStore.listExact_of_keyless sound keyless,
      RecordStore.listingsAgree_of_keyless sound keyless⟩

/-- The theorem at a record without a key, changed once. -/
theorem listings_agree_iff_keyless :
    let changes := [insert "" "a" 1 60 [10], update "" "a" 2 60]
    ∃ s, applyAll .empty changes = some s ∧ s.Keyless ∧
      ∃ n, Act.exec (runAll .inOrder changes) ⟨{}, 0⟩ = (.ok (), ⟨s.tables, n⟩) ∧
        RecordStore.ListExact .inOrder ⟨s.tables, n⟩ s.records ∧
        RecordStore.ListingsAgree .inOrder ⟨s.tables, n⟩ := by
  intro changes
  obtain ⟨s, distinct, keyless⟩ : ∃ s, applyAll .empty changes = some s ∧ s.Keyless :=
    ⟨_, rfl, by decide⟩
  obtain ⟨reached, agree⟩ := listings_agree_iff Sqlite.inOrder_sound distinct
  obtain ⟨n, run⟩ := reached (by decide)
  exact ⟨s, distinct, keyless, n, run, (agree n).mpr keyless⟩

/-- One record under a key: `list` does not tell the key that `list_headers` does. -/
theorem listing_loses_key :
    let changes := [insert "0a" "a" 1 60 [10]]
    let e : String × DataItemProto := ("", { ttl := 60, time := 1, title := "a", data := [10] })
    let h : DataItemHeader := { key := "0a", title := "a", time := 1, ttl := 60 }
    ∃ s n c c', applyAll .empty changes = some s ∧
      Act.exec (runAll .inOrder changes) ⟨{}, 0⟩ = (.ok (), ⟨s.tables, n⟩) ∧
      Act.exec (DbMultiKeyData.list .inOrder) ⟨s.tables, n⟩ = (.ok [e], c) ∧
      Act.exec (DbMultiKeyData.listHeaders .inOrder) c = (.ok [h], c') ∧
      ¬ RecordStore.ListExact .inOrder ⟨s.tables, n⟩ s.records ∧
      ¬ RecordStore.ListingsAgree .inOrder ⟨s.tables, n⟩ := by
  intro changes e h
  obtain ⟨n, reached⟩ :=
    @exec_runAll .inOrder .empty _ changes 0 Sqlite.inOrder_sound (by decide) rfl
  let s := RecordStore.empty.insert "0a" "a" 1 60 [10] (by decide)
  obtain ⟨_, single, run⟩ := @RecordStore.exec_list s .inOrder n Sqlite.inOrder_sound
  obtain ⟨_, head, read⟩ := @RecordStore.exec_listHeaders s .inOrder (n + 2) Sqlite.inOrder_sound
  obtain rfl : _ = [e] := List.perm_singleton.mp single
  obtain rfl : _ = [h] := List.perm_singleton.mp head
  refine ⟨s, n, _, _, rfl, reached, run, read, ?_, ?_⟩
  · rintro ⟨entries, c', run', perm⟩
    obtain rfl := Except.ok.inj (Prod.mk.inj (run.symm.trans run')).1
    exact absurd perm (by decide)
  · rintro ⟨entries, c', headers, c'', run', read', perm⟩
    obtain ⟨same, rfl⟩ := Prod.mk.inj (run.symm.trans run')
    obtain rfl := Except.ok.inj same
    obtain rfl := Except.ok.inj (Prod.mk.inj (read.symm.trans read')).1
    exact absurd perm (by decide)

end Change

end MiniDht
