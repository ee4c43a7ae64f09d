import MiniDht.Db.Lookup
import MiniDht.Node.Handlers

/-!
# Storing an item

What `insert_db` does to the records of a node, on clean strings and a sound engine. It
returns unless there is nothing under the key and the node is to hold no records at all.
-/

namespace MiniDht

open Lib

/-- The record made of an item. -/
def Record.ofItem (id : Nat) (k : String) (d : DataItemProto) : Record where
  id := id
  key := k
  title := d.title
  time := toSigned d.time
  ttl := toSigned d.ttl
  data := d.data

namespace RecordStore

variable {rs rs' : RecordStore} {max : Nat} {renews : Prop} {k : String} {d : DataItemProto}

/-- What `insert_db` makes of the records of a node that may hold `max`. Whether the item
`renews` a record depends on what the lookup under the key hands out first. -/
inductive Filed (rs : RecordStore) (max : Nat) (renews : Prop) (k : String) (d : DataItemProto) :
    RecordStore → Prop where
  /-- The first record under the key, after others may have been dropped. -/
  | first {left : RecordStore} (fewer : left.records ⊆ rs.records) (seq : left.seq = rs.seq)
      (room : left.records.length < max) (absent : left.Absent k d.title) (none : rs.under k = []) :
      Filed rs max renews k d
        (left.insert k d.title (toSigned d.time) (toSigned d.ttl) d.data absent)
  /-- A record beside others under the key. -/
  | beside (absent : rs.Absent k d.title) (some : rs.under k ≠ []) :
      Filed rs max renews k d
        (rs.insert k d.title (toSigned d.time) (toSigned d.ttl) d.data absent)
  /-- The record is there, and only its time and ttl may be brought up to date. -/
  | kept (there : ¬ rs.Absent k d.title) (old : ¬ renews) : Filed rs max renews k d rs
  | renewed (there : ¬ rs.Absent k d.title) (new : renews) :
      Filed rs max renews k d (rs.update k d.title (toSigned d.time) (toSigned d.ttl))

/-- Every record left is one that was there, under the same id, key and title, or is new
and under the key and title of the item. -/
theorem Filed.mem (filed : rs.Filed max renews k d rs') {r' : Record} (member : r' ∈ rs'.records) :
    (∃ r ∈ rs.records, r.id = r'.id ∧ r.pair = r'.pair) ∨
      (r'.pair = (k, d.title) ∧ ∀ r ∈ rs.records, r.id ≠ r'.id) := by
  cases filed with
  | first fewer seq room absent none =>
    rcases List.mem_append.mp member with old | new
    · exact .inl ⟨r', fewer old, rfl, rfl⟩
    · rw [List.mem_singleton.mp new]
      refine .inr ⟨rfl, fun r there same => ?_⟩
      have below := rs.bound r there
      simp only [seq] at same
      omega
  | beside absent some =>
    rcases List.mem_append.mp member with old | new
    · exact .inl ⟨r', old, rfl, rfl⟩
    · rw [List.mem_singleton.mp new]
      refine .inr ⟨rfl, fun r there same => ?_⟩
      have below := rs.bound r there
      simp only at same
      omega
  | kept => exact .inl ⟨r', member, rfl, rfl⟩
  | renewed =>
    obtain ⟨r, there, rfl⟩ := List.mem_map.mp member
    exact .inl ⟨r, there, (id_retime ..).symm, (pair_retime ..).symm⟩

theorem Filed.cleanStrings (filed : rs.Filed max renews k d rs') (before : rs.CleanStrings)
    (clean : Clean k ∧ Clean d.title) : rs'.CleanStrings := by
  intro r' member
  rcases filed.mem member with ⟨r, there, -, same⟩ | ⟨same, -⟩
  · obtain ⟨key, title⟩ := Prod.mk.inj same
    rw [← key, ← title]
    exact before r there
  · obtain ⟨key, title⟩ := Prod.mk.inj same
    rwa [key, title]

/-- The first item that comes into a store is the one record. -/
theorem Filed.of_empty (filed : empty.Filed max renews k d rs') :
    ∃ n, rs'.records = [.ofItem n k d] := by
  cases filed with
  | @first left fewer seq room absent none =>
    have bare : left.records = [] := List.subset_nil.mp fewer
    exact ⟨_, congrArg (· ++ _) bare⟩
  | beside absent some => exact absurd rfl some
  | kept there old => exact absurd (fun r member => by cases member) there
  | renewed there new => exact absurd (fun r member => by cases member) there

/-- In a store for one record, an item under a key of its own is left alone. -/
theorem Filed.of_bare (filed : rs.Filed 1 renews k d rs') (bare : rs.under k = []) :
    ∃ n, rs'.records = [.ofItem n k d] := by
  have absent : rs.Absent k d.title := absent_of_under_eq_nil bare
  cases filed with
  | @first left fewer seq room _ none =>
    have left_nil : left.records = [] := List.length_eq_zero_iff.mp (Nat.lt_one_iff.mp room)
    exact ⟨_, congrArg (· ++ _) left_nil⟩
  | beside _ some => exact absurd bare some
  | kept there old => exact absurd absent there
  | renewed there new => exact absurd absent there

/-- A later item renews the one record. -/
theorem Filed.of_single (filed : rs.Filed max renews k d rs') {r : Record}
    (alone : rs.records = [r]) (pair : r.pair = (k, d.title)) (new : renews) :
    rs'.records = [retime k d.title (toSigned d.time) (toSigned d.ttl) r] := by
  have here : r ∈ rs.records := by
    rw [alone]
    exact List.mem_singleton_self r
  cases filed with
  | first fewer seq room absent none =>
    have under : r ∈ rs.under k := mem_under.mpr ⟨here, congrArg Prod.fst pair⟩
    exact absurd none (List.ne_nil_of_mem under)
  | beside absent some => exact absurd pair (absent r here)
  | kept there old => exact absurd new old
  | renewed there _ => exact congrArg (List.map _) alone

/-- A title is among the heads found under a key if a record has it. -/
theorem title_mem_heads {rows : List Row} {title : String}
    (perm : rows.Perm ((rs.under k ×ˢ rs.under k ×ˢ rs.records).map fun p => headRow (across p))) :
    title ∈ (rows.map fun row => row.read {}).map DataItemProto.title ↔ ¬ rs.Absent k title := by
  have absent : ¬ rs.Absent k title ↔ ∃ r ∈ rs.records, r.key = k ∧ r.title = title := by
    simp [Absent, Record.pair]
  rw [absent, List.map_map, List.mem_map]
  constructor
  · rintro ⟨row, listed, rfl⟩
    obtain ⟨⟨a, b, c⟩, triple, rfl⟩ := List.mem_map.mp (perm.mem_iff.mp listed)
    obtain ⟨here, key⟩ := mem_under.mp (List.mem_product.mp triple).1
    exact ⟨a, here, key, rfl⟩
  · rintro ⟨r, here, key, rfl⟩
    have there := mem_under.mpr ⟨here, key⟩
    refine ⟨headRow (across (r, r, r)), perm.mem_iff.mpr (List.mem_map_of_mem ?_), rfl⟩
    exact List.mem_product.mpr ⟨there, List.mem_product.mpr ⟨there, here⟩⟩

end RecordStore

/-- The item is later than another one, as `insert_db` reads their times. -/
def DataItemProto.Newer (d item : DataItemProto) : Prop :=
  fromTimeT (toSigned item.time) < fromTimeT (toSigned d.time)

instance (d item : DataItemProto) : Decidable (d.Newer item) :=
  inferInstanceAs (Decidable (_ < _))

namespace Node

variable {w : World} {s : Node} {rs rs' : RecordStore} {n : Nat} {k : String} {d : DataItemProto}

/-- What `insert_db` finds under a key it has counted records of. -/
def headsUnder (w : World) (c : Conn Tables) (k : String) : List DataItemProto :=
  match (Act.exec (DbMultiKeyData.findNoBlob w.storage k) { c with calls := c.calls + 1 }).1 with
  | .ok ld => ld
  | .error _ => []

/-- An item is later than the first one found with its title. -/
def Renews (w : World) (c : Conn Tables) (k : String) (d : DataItemProto) : Prop :=
  ∃ item, ((headsUnder w c k).find? fun item => item.title = d.title) = some item ∧ d.Newer item

/-- The node with these records in its storage, after some calls on it. -/
def holding (s : Node) (rs : RecordStore) (n : Nat) : Node :=
  { s with dbStorage := ⟨rs.tables, n⟩ }

@[simp] theorem holding_maxRecords : (s.holding rs n).maxRecords = s.maxRecords := rfl

@[simp] theorem holding_tables : (s.holding rs n).dbStorage.tables = rs.tables := rfl

theorem holding_self (held : s.dbStorage.tables = rs.tables) :
    s.holding rs s.dbStorage.calls = s := by
  rw [holding, ← held]

/-- A call on the storage that is in the records' terms. -/
theorem exec_onStorage {α : Type} {x : DbM Tables α} {a : α} {n' : Nat}
    (run : Act.exec x ⟨rs.tables, n⟩ = (.ok a, ⟨rs'.tables, n'⟩)) :
    Act.exec (onStorage x) (s.holding rs n) = (.ok a, s.holding rs' n') := by
  rw [onStorage, Act.exec_zoom]
  simp only [holding, run]

section Sound

variable (sound : w.storage.Sound)
include sound

/-! ## Making room -/

/-- The loop that makes room drops records until there are fewer than allowed. -/
theorem exec_makeRoom (rs : RecordStore) (n : Nat) {fuel : Nat} (room : 0 < s.maxRecords)
    (enough : rs.records.length < fuel) :
    ∃ left n', left.records ⊆ rs.records ∧ left.seq = rs.seq ∧
      left.records.length < s.maxRecords ∧
      Act.exec (makeRoom w fuel) (s.holding rs n) = (.ok (), s.holding left n') := by
  induction fuel generalizing rs n with
  | zero => omega
  | succ fuel ih =>
    have size := exec_onStorage (s := s) (RecordStore.exec_size (s := rs) (n := n) sound)
    rw [makeRoom, Act.exec_bind_ok size, Act.exec_bind_ok (Act.exec_get _)]
    by_cases fits : rs.records.length < (s.holding rs (n + 1)).maxRecords
    · exact ⟨rs, n + 1, List.Subset.refl _, rfl, fits, by rw [if_pos fits, Act.exec_pure]⟩
    · have some : rs.records ≠ [] := by
        rintro none
        simp only [none, List.length_nil, holding_maxRecords] at fits
        exact fits room
      obtain ⟨r, member, oldest⟩ := RecordStore.exec_removeOldest (n := n + 1) sound some
      have fewer : (rs.keep fun r' => r'.id ≠ r.id).records.length < rs.records.length :=
        List.length_filter_lt_length_iff_exists.mpr ⟨r, member, by simp⟩
      obtain ⟨left, n', subset, seq, few, run⟩ := ih (rs.keep fun r' => r'.id ≠ r.id) (n + 1 + 1) (by omega)
      refine ⟨left, n', fun a kept => List.mem_of_mem_filter (subset kept), seq, few, ?_⟩
      rw [if_neg fits, Act.exec_bind_ok (exec_onStorage oldest), run]

/-- Where no record is allowed it never ends. -/
theorem exec_makeRoom_hang (rs : RecordStore) (n fuel : Nat) (none : s.maxRecords = 0) :
    (Act.exec (makeRoom w fuel) (s.holding rs n)).1 = .error .hang := by
  induction fuel generalizing rs n with
  | zero => rfl
  | succ fuel ih =>
    have size := exec_onStorage (s := s) (RecordStore.exec_size (s := rs) (n := n) sound)
    rw [makeRoom, Act.exec_bind_ok size, Act.exec_bind_ok (Act.exec_get _)]
    rw [if_neg (by simp [none])]
    by_cases some : rs.records = []
    · have oldest := RecordStore.exec_removeOldest_empty (s := rs) (n := n + 1) sound some
      rw [Act.exec_bind_ok (exec_onStorage oldest)]
      exact ih _ _
    · obtain ⟨r, -, oldest⟩ := RecordStore.exec_removeOldest (n := n + 1) sound some
      rw [Act.exec_bind_ok (exec_onStorage oldest)]
      exact ih _ _

/-! ## A title that is there -/

theorem headsUnder_eq (clean : Clean k) :
    headsUnder w ⟨rs.tables, n⟩ k =
      (w.storage.arrange (n + 2) ((rs.under k ×ˢ rs.under k ×ˢ rs.records).map
        fun p => headRow (RecordStore.across p))).map fun row => row.read {} := by
  rw [headsUnder, RecordStore.exec_findNoBlob_arranged sound clean]

/-- The item is compared with the time of some record under the key. -/
theorem exists_compared (clean : Clean k) (there : ¬ rs.Absent k d.title) :
    ∃ r' ∈ rs.under k, (Renews w ⟨rs.tables, n⟩ k d ↔ d.Newer r'.head) := by
  have perm := w.storage.arrange_perm (n + 2) ((rs.under k ×ˢ rs.under k ×ˢ rs.records).map
    fun p => headRow (RecordStore.across p))
  have listed := (RecordStore.title_mem_heads perm).mpr there
  rw [← headsUnder_eq sound clean] at listed
  obtain ⟨item, member, title⟩ := List.mem_map.mp listed
  have some : ((headsUnder w ⟨rs.tables, n⟩ k).find? fun item => item.title = d.title).isSome :=
    List.find?_isSome.mpr ⟨item, member, decide_eq_true title⟩
  obtain ⟨first, found⟩ := Option.isSome_iff_exists.mp some
  have among := List.mem_of_find?_eq_some found
  rw [headsUnder_eq sound clean] at among
  obtain ⟨row, arranged, read⟩ := List.mem_map.mp among
  obtain ⟨⟨a, b, c⟩, triple, rfl⟩ := List.mem_map.mp (perm.mem_iff.mp arranged)
  have second : b ∈ rs.under k := (List.mem_product.mp (List.mem_product.mp triple).2).1
  refine ⟨b, second, ?_⟩
  have time : first.time = b.head.time := by
    rw [← read]
    rfl
  rw [Renews, found, DataItemProto.Newer, ← time]
  simp [DataItemProto.Newer]

omit sound in
/-- The loop over the titles found under the key finds none that is the item's. -/
theorem exec_refreshTitle_none {ld : List DataItemProto}
    (missing : (ld.find? fun item => item.title = d.title) = none) :
    Act.exec (refreshTitle w k d ld) s = (.ok false, s) := by
  induction ld with
  | nil => rfl
  | cons item rest ih =>
    have other : ¬ item.title = d.title := by
      simpa using List.find?_eq_none.mp missing item List.mem_cons_self
    rw [List.find?_cons_of_neg (by simpa using other)] at missing
    rw [refreshTitle, if_neg other]
    exact ih missing

/-- It stops at the first that is, and may bring the record up to date. -/
theorem exec_refreshTitle_some (rs : RecordStore) (n : Nat) (clean : Clean k ∧ Clean d.title)
    {ld : List DataItemProto} {item : DataItemProto}
    (first : (ld.find? fun item => item.title = d.title) = some item) :
    ∃ n', Act.exec (refreshTitle w k d ld) (s.holding rs n) =
      (.ok true, ({ s with ticks := s.ticks + 1 } : Node).holding
        (if d.Newer item then rs.update k d.title (toSigned d.time) (toSigned d.ttl) else rs) n') := by
  induction ld with
  | nil => cases first
  | cons item' rest ih =>
    rw [refreshTitle]
    by_cases same : item'.title = d.title
    · rw [List.find?_cons_of_pos (by simpa using same), Option.some.injEq] at first
      subst first
      have tick : Act.exec (updateTime w) (s.holding rs n) =
          (.ok (w.clock s.ticks), ({ s with ticks := s.ticks + 1 } : Node).holding rs n) :=
        exec_updateTime w _
      have update : Act.exec (onStorage (DbMultiKeyData.update w.storage k d.title (toSigned d.time)
          (toSigned d.ttl))) (({ s with ticks := s.ticks + 1 } : Node).holding rs n) =
            (.ok (), ({ s with ticks := s.ticks + 1 } : Node).holding
              (rs.update k d.title (toSigned d.time) (toSigned d.ttl)) (n + 1)) :=
        exec_onStorage (RecordStore.exec_update sound clean)
      rw [if_pos same, Act.exec_bind_ok tick]
      -- both differences are taken to one reading of the clock
      have newer : w.clock s.ticks - fromTimeT (toSigned d.time) <
          w.clock s.ticks - fromTimeT (toSigned item'.time) ↔ d.Newer item' :=
        sub_lt_sub_iff_left _
      by_cases late : d.Newer item'
      · exact ⟨n + 1, by rw [if_pos (newer.mpr late), if_pos late, Act.exec_bind_ok update]; rfl⟩
      · exact ⟨n, by rw [if_neg (mt newer.mp late), if_neg late]; rfl⟩
    · rw [List.find?_cons_of_neg (by simpa using same)] at first
      rw [if_neg same]
      exact ih first

/-! ## `insert_db` -/

/-- What `insert_db` does where it returns. -/
theorem exec_insertDb (clean : Clean k ∧ Clean d.title)
    (room : rs.under k ≠ [] ∨ 0 < s.maxRecords) :
    ∃ ticks rs' n', s.ticks ≤ ticks ∧ rs.Filed s.maxRecords (Renews w ⟨rs.tables, n⟩ k d) k d rs' ∧
      Act.exec (insertDb w k d) (s.holding rs n) =
        (.ok (), ({ s with ticks := ticks } : Node).holding rs' n') := by
  have counted := exec_onStorage (s := s) (RecordStore.exec_count (s := rs) (n := n) sound clean.1)
  rw [insertDb, Act.exec_bind_ok counted]
  by_cases bare : rs.under k = []
  · obtain ⟨left, n₁, fewer, seq, few, made⟩ := exec_makeRoom (w := w) (s := s) sound rs (n + 1)
      (room.resolve_left (not_not.mpr bare)) (Nat.lt_succ_self _)
    have absent : left.Absent k d.title := fun r member =>
      RecordStore.absent_of_under_eq_nil bare r (fewer member)
    have inserted : Act.exec (insertItem w k d) (s.holding left n₁) = (.ok (), s.holding
        (left.insert k d.title (toSigned d.time) (toSigned d.ttl) d.data absent) (n₁ + 6)) :=
      exec_onStorage (RecordStore.exec_insert sound clean absent)
    have bound : (s.holding rs (n + 1)).dbStorage.tables.dataHeader.length = rs.records.length := by
      simp [RecordStore.tables]
    refine ⟨s.ticks, _, n₁ + 6, le_refl _, .first fewer seq few absent bare, ?_⟩
    rw [if_pos (by simp [bare]), Act.exec_bind_ok (Act.exec_get _), bound, Act.exec_bind_ok made]
    exact inserted
  · obtain ⟨rows, perm, looked⟩ := RecordStore.exec_findNoBlob (s := rs) (n := n + 1) sound clean.1
    have found := exec_onStorage (s := s) looked
    have heads : headsUnder w ⟨rs.tables, n⟩ k = rows.map fun row => row.read {} := by
      rw [headsUnder, looked]
    have titles : d.title ∈ (rows.map fun row => row.read {}).map DataItemProto.title ↔
        ¬ rs.Absent k d.title := RecordStore.title_mem_heads perm
    rw [if_neg (by simp [bare]), Act.exec_bind_ok found]
    cases first : (rows.map fun row => row.read {}).find? fun item => item.title = d.title with
    | none =>
      have absent : rs.Absent k d.title := by
        by_contra there
        obtain ⟨item, listed, title⟩ := List.mem_map.mp (titles.mpr there)
        exact absurd title (by simpa using List.find?_eq_none.mp first item listed)
      refine ⟨s.ticks, _, n + 1 + 2 + 6, le_refl _, .beside absent bare, ?_⟩
      rw [Act.exec_bind_ok (exec_refreshTitle_none first), if_neg Bool.false_ne_true]
      exact exec_onStorage (RecordStore.exec_insert sound clean absent)
    | some item =>
      obtain ⟨n', run⟩ := exec_refreshTitle_some (s := s) sound rs (n + 1 + 2) clean first
      have there : ¬ rs.Absent k d.title := titles.mp
        (List.mem_map.mpr ⟨item, List.mem_of_find?_eq_some first, by simpa using List.find?_some first⟩)
      have renews : Renews w ⟨rs.tables, n⟩ k d ↔ d.Newer item := by
        rw [Renews, heads, first]
        simp
      rw [Act.exec_bind_ok run]
      by_cases late : d.Newer item
      · exact ⟨s.ticks + 1, _, _, Nat.le_succ _, .renewed there (renews.mpr late),
          by rw [if_pos late]; rfl⟩
      · exact ⟨s.ticks + 1, _, _, Nat.le_succ _, .kept there (mt renews.mp late),
          by rw [if_neg late]; rfl⟩

/-- With nothing under the key and no record allowed it never ends. -/
theorem exec_insertDb_hang (clean : Clean k) (bare : rs.under k = []) (none : s.maxRecords = 0) :
    (Act.exec (insertDb w k d) (s.holding rs n)).1 = .error .hang := by
  have counted := exec_onStorage (s := s) (RecordStore.exec_count (s := rs) (n := n) sound clean)
  rw [insertDb, Act.exec_bind_ok counted, if_pos (by simp [bare]),
    Act.exec_bind_ok (Act.exec_get _), Act.exec_bind]
  have hang := exec_makeRoom_hang (w := w) (s := s) sound rs (n + 1)
    ((s.holding rs (n + 1)).dbStorage.tables.dataHeader.length + 1) none
  generalize Act.exec (makeRoom w _) (s.holding rs (n + 1)) = r at hang ⊢
  obtain ⟨o, s'⟩ := r
  simp only at hang
  rw [hang]

/-- When `insert_db` returns. -/
theorem insertDb_returns_iff (clean : Clean k ∧ Clean d.title) :
    (Act.exec (insertDb w k d) (s.holding rs n)).1 = .ok () ↔
      rs.under k ≠ [] ∨ 0 < s.maxRecords := by
  constructor
  · intro returned
    by_contra stuck
    obtain ⟨none, full⟩ := not_or.mp stuck
    have hang := exec_insertDb_hang (w := w) (s := s) (n := n) (d := d) sound clean.1
      (not_not.mp none) (by omega)
    rw [hang] at returned
    cases returned
  · intro room
    obtain ⟨ticks, rs', n', -, -, run⟩ := exec_insertDb (n := n) sound clean room
    rw [run]

end Sound

end Node

end MiniDht
