import Mathlib.Data.Finmap
import MiniDht.Db.Lookup

/-!
# The store as a finite map

What the record store is to its callers: a finite map from pairs of key and title to time,
ttl and data. `RecordStore.toMap` forgets the ids, each call that writes does to the map
what its name says, and what is read is read off the map (`store_refines_map`).
-/

namespace MiniDht

open Lib

/-- What is stored under a key and title. -/
structure Stored where
  time : Int
  ttl : Int
  data : List UInt8
  deriving DecidableEq, Repr

/-- The records by key and title. -/
abbrev StoreMap := Finmap fun _ : String × String => Stored

/-- A call that writes. -/
inductive StoreCall where
  | change (c : Change)
  | clear

namespace StoreCall

def run (q : Sqlite Tables Row) : StoreCall → DbM Tables Unit
  | change c => c.run q
  | clear => DbMultiKeyData.clear q

def runAll (q : Sqlite Tables Row) : List StoreCall → DbM Tables Unit
  | [] => pure ()
  | call :: rest => do
    call.run q
    runAll q rest

/-- What a call does to the map. -/
def apply (m : StoreMap) : StoreCall → StoreMap
  | change (.insert key title time ttl data) => m.insert (key, title) ⟨time, ttl, data⟩
  | change (.update key title time ttl) =>
    match m.lookup (key, title) with
    | some v => m.insert (key, title) { v with time := time, ttl := ttl }
    | none => m
  | change (.remove key title) => m.erase (key, title)
  | clear => ∅

def applyAll (m : StoreMap) (calls : List StoreCall) : StoreMap := calls.foldl apply m

/-- The strings of the call are clean. -/
def CleanStrings : StoreCall → Prop
  | change c => Clean c.pair.1 ∧ Clean c.pair.2
  | clear => True

instance : (call : StoreCall) → Decidable call.CleanStrings
  | change _ => inferInstanceAs (Decidable (_ ∧ _))
  | clear => inferInstanceAs (Decidable True)

/-- Only pairs that are not in the map are inserted. -/
def Fresh (m : StoreMap) : StoreCall → Prop
  | change (.insert key title _ _ _) => (key, title) ∉ m
  | change (.update ..) => True
  | change (.remove ..) => True
  | clear => True

instance (m : StoreMap) : (call : StoreCall) → Decidable (call.Fresh m)
  | change (.insert ..) => inferInstanceAs (Decidable (¬ _))
  | change (.update ..) => inferInstanceAs (Decidable True)
  | change (.remove ..) => inferInstanceAs (Decidable True)
  | clear => inferInstanceAs (Decidable True)

/-- So it is for every call, when its turn comes. -/
def AllFresh (m : StoreMap) : List StoreCall → Prop
  | [] => True
  | call :: rest => call.Fresh m ∧ AllFresh (call.apply m) rest

instance (m : StoreMap) : (calls : List StoreCall) → Decidable (AllFresh m calls)
  | [] => inferInstanceAs (Decidable True)
  | call :: rest =>
    have := instDecidableAllFresh (call.apply m) rest
    inferInstanceAs (Decidable (_ ∧ _))

end StoreCall

namespace RecordStore

variable {s : RecordStore} {key title : String} {time ttl : Int} {data : List UInt8}

def stored (r : Record) : Stored := ⟨r.time, r.ttl, r.data⟩

/-- A record as an entry of the map. -/
def entry (r : Record) : (_ : String × String) × Stored := ⟨r.pair, stored r⟩

/-- The map the records stand for. -/
def toMap (s : RecordStore) : StoreMap where
  entries := s.records.map entry
  nodupKeys := by
    rw [Multiset.coe_nodupKeys, List.NodupKeys, List.keys, List.map_map]
    exact s.pairs

theorem lookup_toMap {p : String × String} {v : Stored} :
    s.toMap.lookup p = some v ↔ ∃ r ∈ s.records, r.pair = p ∧ stored r = v := by
  rw [Finmap.lookup_eq_some_iff]
  constructor
  · intro member
    obtain ⟨r, here, same⟩ := List.mem_map.mp (Multiset.mem_coe.mp member)
    obtain ⟨rfl, rfl⟩ := Sigma.mk.inj same
    exact ⟨r, here, rfl, rfl⟩
  · rintro ⟨r, here, rfl, rfl⟩
    exact Multiset.mem_coe.mpr (List.mem_map_of_mem here)

theorem mem_toMap {p : String × String} : p ∈ s.toMap ↔ ∃ r ∈ s.records, r.pair = p := by
  simp [Finmap.mem_iff, lookup_toMap]

theorem absent_iff : s.Absent key title ↔ (key, title) ∉ s.toMap := by
  simp [mem_toMap, Absent]

theorem toMap_empty : empty.toMap = ∅ := rfl

theorem toMap_insert (absent : s.Absent key title) :
    (s.insert key title time ttl data absent).toMap =
      s.toMap.insert (key, title) ⟨time, ttl, data⟩ := by
  apply Finmap.ext
  rw [Finmap.entries_insert_of_notMem (absent_iff.mp absent)]
  have new (l : List ((_ : String × String) × Stored)) (e : (_ : String × String) × Stored) :
      ((l ++ [e] : List _) : Multiset _) = e ::ₘ (l : Multiset _) :=
    Multiset.coe_eq_coe.mpr (List.perm_append_singleton e l)
  refine Eq.trans ?_ (new (s.records.map entry) ⟨(key, title), time, ttl, data⟩)
  simp [toMap, RecordStore.insert, entry, Record.pair, stored]

theorem toMap_remove : (s.remove key title).toMap = s.toMap.erase (key, title) := by
  apply Finmap.ext_lookup
  intro p
  apply Option.ext
  intro v
  by_cases here : p = (key, title)
  · subst here
    rw [Finmap.lookup_erase, lookup_toMap]
    simp only [reduceCtorEq, iff_false, not_exists, not_and]
    intro r member pair
    have other := of_decide_eq_true (List.mem_filter.mp member).2
    exact absurd pair other
  · rw [Finmap.lookup_erase_ne here, lookup_toMap, lookup_toMap]
    constructor
    · rintro ⟨r, member, same⟩
      exact ⟨r, List.mem_of_mem_filter member, same⟩
    · rintro ⟨r, member, rfl, value⟩
      exact ⟨r, List.mem_filter.mpr ⟨member, decide_eq_true here⟩, rfl, value⟩

theorem stored_retime {r : Record} (pair : r.pair = (key, title)) :
    stored (retime key title time ttl r) = { stored r with time := time, ttl := ttl } := by
  rw [retime, if_pos pair]
  rfl

theorem retime_other {r : Record} (pair : r.pair ≠ (key, title)) :
    retime key title time ttl r = r := if_neg pair

theorem toMap_update : (s.update key title time ttl).toMap =
    (StoreCall.change (.update key title time ttl)).apply s.toMap := by
  have mapped {p : String × String} {v : Stored} :
      (s.update key title time ttl).toMap.lookup p = some v ↔
        ∃ r ∈ s.records, r.pair = p ∧ stored (retime key title time ttl r) = v := by
    rw [lookup_toMap]
    constructor
    · rintro ⟨r, member, rfl, rfl⟩
      obtain ⟨old, there, rfl⟩ := List.mem_map.mp member
      exact ⟨old, there, (pair_retime ..).symm, rfl⟩
    · rintro ⟨r, member, rfl, rfl⟩
      exact ⟨_, List.mem_map_of_mem member, pair_retime .., rfl⟩
  apply Finmap.ext_lookup
  intro p
  apply Option.ext
  intro v
  rw [mapped, StoreCall.apply]
  by_cases here : p = (key, title)
  · subst here
    cases found : s.toMap.lookup (key, title) with
    | none =>
      simp only [found, reduceCtorEq, iff_false, not_exists, not_and]
      intro r member pair
      exact absurd (mem_toMap.mpr ⟨r, member, pair⟩) (Finmap.lookup_eq_none.mp found)
    | some old =>
      obtain ⟨r, member, pair, rfl⟩ := lookup_toMap.mp found
      simp only [Finmap.lookup_insert, Option.some.injEq]
      constructor
      · rintro ⟨r', member', pair', rfl⟩
        obtain rfl : r' = r := List.inj_on_of_nodup_map s.pairs member' member (pair'.trans pair.symm)
        exact (stored_retime pair).symm
      · rintro rfl
        exact ⟨r, member, pair, stored_retime pair⟩
  · have same : (match s.toMap.lookup (key, title) with
        | some v => s.toMap.insert (key, title) { v with time := time, ttl := ttl }
        | none => s.toMap).lookup p = s.toMap.lookup p := by
      split
      · exact Finmap.lookup_insert_of_ne _ here
      · rfl
    rw [same, lookup_toMap]
    constructor
    · rintro ⟨r, member, rfl, rfl⟩
      exact ⟨r, member, rfl, by rw [retime_other here]⟩
    · rintro ⟨r, member, rfl, rfl⟩
      exact ⟨r, member, rfl, by rw [retime_other here]⟩

/-! ## What is read -/

theorem keys_val : s.toMap.keys.val = (s.records.map Record.pair : List _) :=
  congrArg _ (List.map_map ..)

theorem card_keys : s.toMap.keys.card = s.records.length := by
  rw [Finset.card_def, keys_val, Multiset.coe_card, List.length_map]

theorem count_keys : (s.toMap.keys.filter fun p => p.1 = key).card = (s.under key).length := by
  rw [Finset.card_def, Finset.filter_val, keys_val, Multiset.filter_coe, Multiset.coe_card, under,
    List.filter_map, List.length_map]
  rfl

end RecordStore

/-- An entry as `list_headers` hands it out. -/
def entryHeader (e : (_ : String × String) × Stored) : DataItemHeader where
  key := e.1.1
  title := e.1.2
  time := e.2.time
  ttl := e.2.ttl

/-- An entry as `find(key, title)` hands it out. -/
def Stored.item (title : String) (v : Stored) : DataItemProto where
  ttl := toUnsigned v.ttl
  time := toUnsigned v.time
  title := title
  data := v.data

namespace StoreCall

variable {q : Sqlite Tables Row} {s : RecordStore} {n : Nat}

/-- A call does to the records what it does to the map. -/
theorem exec_run {call : StoreCall} (sound : q.Sound) (clean : call.CleanStrings)
    (fresh : call.Fresh s.toMap) :
    ∃ (s' : RecordStore) (n' : Nat), Act.exec (call.run q) ⟨s.tables, n⟩ = (.ok (), ⟨s'.tables, n'⟩) ∧
      s'.toMap = call.apply s.toMap := by
  cases call with
  | clear => exact ⟨_, _, RecordStore.exec_clear sound, rfl⟩
  | change c =>
    cases c with
    | insert key title time ttl data =>
      have absent := RecordStore.absent_iff.mpr fresh
      exact ⟨_, _, RecordStore.exec_insert sound clean absent, RecordStore.toMap_insert absent⟩
    | update key title time ttl =>
      exact ⟨_, _, RecordStore.exec_update sound clean, RecordStore.toMap_update⟩
    | remove key title =>
      exact ⟨_, _, RecordStore.exec_remove sound clean, RecordStore.toMap_remove⟩

theorem exec_runAll {calls : List StoreCall} (sound : q.Sound)
    (clean : ∀ call ∈ calls, call.CleanStrings) (fresh : AllFresh s.toMap calls) :
    ∃ (s' : RecordStore) (n' : Nat), Act.exec (runAll q calls) ⟨s.tables, n⟩ = (.ok (), ⟨s'.tables, n'⟩) ∧
      s'.toMap = applyAll s.toMap calls := by
  induction calls generalizing s n with
  | nil => exact ⟨s, n, rfl, rfl⟩
  | cons call rest ih =>
    obtain ⟨now, later⟩ := fresh
    obtain ⟨mid, n₁, run, same⟩ := exec_run (n := n) sound (clean call List.mem_cons_self) now
    obtain ⟨s', n', run', same'⟩ := ih (s := mid) (n := n₁)
      (fun c member => clean c (List.mem_cons_of_mem call member)) (same ▸ later)
    refine ⟨s', n', ?_, ?_⟩
    · rw [runAll, Act.exec_bind_ok run, run']
    · rw [same', same]
      rfl

/-- The connection answers every question about the store as the map does. -/
structure Represents (q : Sqlite Tables Row) (c : Conn Tables) (m : StoreMap) : Prop where
  size : ∃ c', Act.exec (DbMultiKeyData.size q) c = (.ok m.keys.card, c')
  count : ∀ key, Clean key → ∃ c', Act.exec (DbMultiKeyData.count q key) c =
    (.ok (m.keys.filter fun p => p.1 = key).card, c')
  headers : ∃ headers c', Act.exec (DbMultiKeyData.listHeaders q) c = (.ok headers, c') ∧
    (headers : Multiset DataItemHeader) = m.entries.map entryHeader
  found : ∀ key title out v, Clean key → Clean title → m.lookup (key, title) = some v →
    ∃ c', Act.exec (DbMultiKeyData.findTitle q key title out) c = (.ok (v.item title), c')
  missing : ∀ key title out, Clean key → Clean title → m.lookup (key, title) = none →
    ∃ what c', Act.exec (DbMultiKeyData.findTitle q key title out) c =
      (.error (.exception what), c')

theorem represents (sound : q.Sound) (s : RecordStore) (n : Nat) :
    Represents q ⟨s.tables, n⟩ s.toMap where
  size := ⟨_, by rw [RecordStore.card_keys]; exact RecordStore.exec_size sound⟩
  count key clean := ⟨_, by rw [RecordStore.count_keys]; exact RecordStore.exec_count sound clean⟩
  headers := by
    obtain ⟨headers, perm, run⟩ := RecordStore.exec_listHeaders (s := s) (n := n) sound
    refine ⟨headers, _, run, ?_⟩
    have listed : s.toMap.entries.map entryHeader =
        ((s.records.map RecordStore.entry).map entryHeader : List DataItemHeader) := rfl
    rw [listed, List.map_map]
    exact Multiset.coe_eq_coe.mpr perm
  found key title out v cleanKey cleanTitle there := by
    obtain ⟨r, member, pair, rfl⟩ := RecordStore.lookup_toMap.mp there
    have run := RecordStore.exec_findTitle (n := n) sound ⟨cleanKey, cleanTitle⟩ out member pair
    have title' : r.title = title := congrArg Prod.snd pair
    exact ⟨_, by rw [run, ← title']; rfl⟩
  missing key title out cleanKey cleanTitle none := by
    have absent := RecordStore.absent_iff.mpr (Finmap.lookup_eq_none.mp none)
    exact ⟨_, _, RecordStore.exec_findTitle_absent sound ⟨cleanKey, cleanTitle⟩ out absent⟩

/-- **The store is a finite map.** After any insertions of new pairs, updates, removals and
clearings, the three tables answer as the map does on which the same was done. -/
theorem store_refines_map {calls : List StoreCall} (sound : q.Sound)
    (clean : ∀ call ∈ calls, call.CleanStrings) (fresh : AllFresh ∅ calls) :
    ∃ c, Act.exec (runAll q calls) ⟨{}, 0⟩ = (.ok (), c) ∧ Represents q c (applyAll ∅ calls) := by
  obtain ⟨s, n, run, same⟩ := exec_runAll (s := .empty) (n := 0) sound clean fresh
  refine ⟨_, run, ?_⟩
  rw [← RecordStore.toMap_empty, ← same]
  exact represents sound s n

/-- A pair that is removed and inserted again. -/
theorem store_refines_map_again :
    let calls := [change (.insert "k" "a" 1 60 [10]), change (.remove "k" "a"),
      change (.insert "k" "a" 2 60 [20]), change (.update "k" "a" 3 90), clear,
      change (.insert "k" "a" 4 60 [30])]
    ∃ c, Act.exec (runAll .inOrder calls) ⟨{}, 0⟩ = (.ok (), c) ∧
      Represents .inOrder c (applyAll ∅ calls) := by
  intro calls
  exact store_refines_map Sqlite.inOrder_sound (by decide) (by decide)

end StoreCall

end MiniDht
