import MiniDht.Node.Acknowledged
import MiniDht.Node.Room

/-!
# Refreshing a record

Where the title is under the key already, `insert_db` compares the item with the first row
that has the title among those of `find_no_blob`. Its time may be that of any record under the
key, so whether the record gets the item's time depends on the records beside it and on the
order in which the engine returns the rows.
-/

namespace MiniDht

open Lib

/-- The item is later than the record. -/
def DataItemProto.Later (d : DataItemProto) (r : Record) : Prop :=
  r.time < toSigned d.time

instance (d : DataItemProto) (r : Record) : Decidable (d.Later r) :=
  inferInstanceAs (Decidable (_ < _))

/-- The item has the record's time and ttl. -/
def DataItemProto.SameTimes (d : DataItemProto) (r : Record) : Prop :=
  r.time = toSigned d.time ∧ r.ttl = toSigned d.ttl

/-- The time row of the record with this id is the item's if that is later. -/
def TimeRow.refreshed (id : Nat) (d : DataItemProto) (row : TimeRow) : TimeRow :=
  if row.timeId = id ∧ row.time < toSigned d.time then
    { row with time := toSigned d.time, ttl := toSigned d.ttl }
  else row

theorem TimeRow.refreshed_later {d : DataItemProto} {row : TimeRow}
    (later : row.time < toSigned d.time) : row.refreshed row.timeId d =
      { row with time := toSigned d.time, ttl := toSigned d.ttl } := by
  rw [refreshed, if_pos ⟨rfl, later⟩]

theorem TimeRow.refreshed_not_later {d : DataItemProto} {id : Nat} {row : TimeRow}
    (old : ¬ row.time < toSigned d.time) : row.refreshed id d = row := by
  rw [refreshed, if_neg fun here => old here.2]

theorem TimeRow.refreshed_other {d : DataItemProto} {id : Nat} {row : TimeRow}
    (other : row.timeId ≠ id) : row.refreshed id d = row := by
  rw [refreshed, if_neg fun here => other here.1]

namespace RecordStore

variable {rs : RecordStore} {r r' : Record} {k : String} {d : DataItemProto} {f : Record → Record}

/-- A change of the one record's times is the refreshing of its time row if that is what it does
to the record. -/
theorem times_refreshed_iff (member : r ∈ rs.records)
    (others : ∀ r' ∈ rs.records, r' ≠ r → f r' = r') :
    rs.records.map (fun r' => (f r').timeRow) = rs.tables.dataTime.map (.refreshed r.id d) ↔
      (f r).timeRow = r.timeRow.refreshed r.id d := by
  rw [tables, List.map_map, List.map_inj_left]
  constructor
  · exact fun all => all r member
  · intro own r' other
    by_cases same : r' = r
    · rw [same]
      exact own
    · have apart : r'.id ≠ r.id := fun id => same (List.inj_on_of_nodup_map rs.ids other member id)
      rw [others r' other same, Function.comp_apply, TimeRow.refreshed_other apart]

/-- Where nothing is written, the item was not to be. -/
theorem kept_refreshed_iff (member : r ∈ rs.records) :
    rs.tables.dataTime = rs.tables.dataTime.map (.refreshed r.id d) ↔ ¬ d.Later r := by
  have own := times_refreshed_iff (f := id) (d := d) member fun _ _ _ => rfl
  refine Iff.trans own ?_
  show r.timeRow = r.timeRow.refreshed r.id d ↔ _
  by_cases later : d.Later r
  · have late : r.timeRow.time < toSigned d.time := later
    have chosen : r.timeRow.refreshed r.id d = _ := TimeRow.refreshed_later late
    rw [chosen]
    refine iff_of_false (fun same => ?_) (not_not.mpr later)
    rw [Record.timeRow, TimeRow.mk.injEq] at same
    exact absurd same.2.1 later.ne
  · have old : ¬ r.timeRow.time < toSigned d.time := later
    exact iff_of_true (TimeRow.refreshed_not_later old).symm later

/-- Where the item is written, it was to be, or has the times that were there. -/
theorem renewed_refreshed_iff (member : r ∈ rs.records) (pair : r.pair = (k, d.title)) :
    (rs.update k d.title (toSigned d.time) (toSigned d.ttl)).tables.dataTime =
        rs.tables.dataTime.map (.refreshed r.id d) ↔ d.Later r ∨ d.SameTimes r := by
  have others : ∀ r' ∈ rs.records, r' ≠ r →
      retime k d.title (toSigned d.time) (toSigned d.ttl) r' = r' := fun r' other apart =>
    if_neg fun same => apart (eq_of_pair other member (same.trans pair.symm))
  have rows : (rs.update k d.title (toSigned d.time) (toSigned d.ttl)).tables.dataTime =
      rs.records.map fun r' => (retime k d.title (toSigned d.time) (toSigned d.ttl) r').timeRow :=
    List.map_map
  have own : (retime k d.title (toSigned d.time) (toSigned d.ttl) r).timeRow =
      { r.timeRow with time := toSigned d.time, ttl := toSigned d.ttl } := by
    rw [retime, if_pos pair]
    simp only [Record.timeRow]
  rw [rows, times_refreshed_iff member others, own]
  by_cases later : d.Later r
  · have late : r.timeRow.time < toSigned d.time := later
    exact iff_of_true (TimeRow.refreshed_later late).symm (.inl later)
  · have old : ¬ r.timeRow.time < toSigned d.time := later
    rw [TimeRow.refreshed_not_later old, or_iff_right later]
    constructor
    · intro same
      rw [Record.timeRow, TimeRow.mk.injEq] at same
      exact ⟨same.2.1.symm, same.2.2.symm⟩
    · rintro ⟨time, ttl⟩
      simp only [Record.timeRow, time, ttl]

/-- An item with another title comes in beside the one record. -/
theorem Filed.of_other {rs' : RecordStore} {max : Nat} {renews : Prop}
    (filed : rs.Filed max renews k d rs') (alone : rs.records = [r]) (key : r.key = k)
    (title : r.title ≠ d.title) : ∃ n, rs'.records = [r, .ofItem n k d] := by
  have absent : rs.Absent k d.title := by
    intro r' member pair
    rw [alone, List.mem_singleton] at member
    exact title (member ▸ congrArg Prod.snd pair)
  cases filed with
  | first fewer seq room _ none =>
    have under : r ∈ rs.under k := by simp [under, alone, key]
    exact absurd none (List.ne_nil_of_mem under)
  | beside _ some => exact ⟨_, congrArg (· ++ _) alone⟩
  | kept there old => exact absurd absent there
  | renewed there new => exact absurd absent there

end RecordStore

theorem DataItemProto.SameTimes.not_later {d : DataItemProto} {r : Record} (same : d.SameTimes r) :
    ¬ d.Later r := fun later => absurd same.1 later.ne

namespace Node

variable {w : World} {s : Node} {rs : RecordStore} {r r' : Record} {k : String}
  {d : DataItemProto} {n : Nat}

/-- The world with another engine for the records. -/
def withEngine (w : World) (q : Sqlite Tables Row) : World := { w with storage := q }

/-- The engine returns the row of the title `r` and the time of `r'` first. -/
def leadingRow (w : World) (r r' : Record) : Sqlite Tables Row :=
  w.storage.leading (headRow (RecordStore.across (r, r', r)))

/-- Whatever the engine, and so in whatever order it returns rows, the time row of the header
gets the item's time and ttl if that is later, and no other time row changes. -/
def KeepsNewest (w : World) (s : Node) (k : String) (d : DataItemProto) (id : Nat) : Prop :=
  ∀ q : Sqlite Tables Row, q.Sound → ∃ s',
    Act.exec (insertDb (withEngine w q) k d) s = (.ok (), s') ∧
      s'.dbStorage.tables.dataTime = s.dbStorage.tables.dataTime.map (.refreshed id d)

/-! ## The row that is looked at -/

/-- The record whose time the item is compared with may be any under the key. -/
theorem renews_leading (sound : w.storage.Sound) (clean : Clean k) (member : r ∈ rs.records)
    (pair : r.pair = (k, d.title)) (other : r' ∈ rs.under k) :
    Renews (withEngine w (leadingRow w r r')) ⟨rs.tables, n⟩ k d ↔ d.Newer r'.head := by
  obtain ⟨key, title⟩ := Prod.mk.inj pair
  have triple : (r, r', r) ∈ rs.under k ×ˢ rs.under k ×ˢ rs.records :=
    List.mem_product.mpr ⟨RecordStore.mem_under.mpr ⟨member, key⟩,
      List.mem_product.mpr ⟨other, member⟩⟩
  have leads := Sqlite.head_leading (q := w.storage)
    (List.mem_map_of_mem (f := fun p => headRow (RecordStore.across p)) triple) (n + 2)
  obtain ⟨rest, rows⟩ := List.head?_eq_some_iff.mp leads
  have sound' : (withEngine w (leadingRow w r r')).storage.Sound := sound.leading _
  have first : (headRow (RecordStore.across (r, r', r))).read {} = { r'.head with title := r.title } :=
    rfl
  rw [Renews, headsUnder_eq sound' clean, withEngine, leadingRow, rows, List.map_cons, first,
    List.find?_cons_of_pos (by simpa using title)]
  simp only [Option.some.injEq, exists_eq_left']
  rfl

/-! ## The refresh -/

/-- What one engine makes of it. -/
theorem refreshes_iff (sound : w.storage.Sound) (held : s.dbStorage.tables = rs.tables)
    (clean : Clean k ∧ Clean d.title) (member : r ∈ rs.records) (pair : r.pair = (k, d.title)) :
    (∃ s', Act.exec (insertDb w k d) s = (.ok (), s') ∧
        s'.dbStorage.tables.dataTime = s.dbStorage.tables.dataTime.map (.refreshed r.id d)) ↔
      d.SameTimes r ∨ (Renews w ⟨rs.tables, s.dbStorage.calls⟩ k d ↔ d.Later r) := by
  have some : rs.under k ≠ [] :=
    List.ne_nil_of_mem (RecordStore.mem_under.mpr ⟨member, congrArg Prod.fst pair⟩)
  obtain ⟨ticks, rs', n', -, filed, run⟩ :=
    exec_insertDb (n := s.dbStorage.calls) sound clean (.inl some)
  rw [holding_self held] at run
  rw [run, held]
  simp only [Prod.mk.injEq, true_and, exists_eq_left', holding_tables]
  cases filed with
  | first fewer seq room absent none => exact absurd none some
  | beside absent => exact absurd pair (absent r member)
  | kept there old =>
    rw [RecordStore.kept_refreshed_iff member, iff_false_left old]
    constructor
    · exact .inr
    · rintro (same | older)
      · exact same.not_later
      · exact older
  | renewed there new =>
    rw [RecordStore.renewed_refreshed_iff member pair, iff_true_left new, or_comm]

theorem keepsNewest_iff_of_held (sound : w.storage.Sound) (held : s.dbStorage.tables = rs.tables)
    (clean : Clean k ∧ Clean d.title) (member : r ∈ rs.records) (pair : r.pair = (k, d.title)) :
    KeepsNewest w s k d r.id ↔
      d.SameTimes r ∨ ∀ r' ∈ rs.under k, d.Newer r'.head ↔ d.Later r := by
  have there : ¬ rs.Absent k d.title := fun absent => absent r member pair
  constructor
  · intro keeps
    by_cases same : d.SameTimes r
    · exact .inl same
    refine .inr fun r' other => ?_
    have sound' : (leadingRow w r r').Sound := sound.leading _
    have led := (refreshes_iff (w := withEngine w (leadingRow w r r')) sound' held clean member
      pair).mp (keeps _ sound')
    exact (renews_leading sound clean.1 member pair other).symm.trans (led.resolve_left same)
  · intro agree q sound'
    refine (refreshes_iff (w := withEngine w q) sound' held clean member pair).mpr ?_
    obtain ⟨r', other, compared⟩ := exists_compared (w := withEngine w q)
      (n := s.dbStorage.calls) sound' clean.1 there
    exact agree.imp_right fun all => compared.trans (all r' other)

/-- **Keeping the newest time.** After any calls of `insert_db`, an item under a title that is
there does to the times what it should, in every order of the rows, if and only if it has the
times of the record already or compares with each record under the key as with its own. -/
theorem keepsNewest_iff (stocked : Stocked w s) (sound : w.storage.Sound)
    (clean : Clean k ∧ Clean d.title) :
    ∃ rs : RecordStore, s.dbStorage.tables = rs.tables ∧
      ∀ r ∈ rs.records, r.pair = (k, d.title) →
        (KeepsNewest w s k d r.id ↔
          d.SameTimes r ∨ ∀ r' ∈ rs.under k, d.Newer r'.head ↔ d.Later r) := by
  obtain ⟨rs, held⟩ := stocked.holds sound
  exact ⟨rs, held, fun r member pair => keepsNewest_iff_of_held sound held clean member pair⟩

/-! ### Two titles -/

/-- An item for a minute. -/
def titled (title : String) (time : UInt64) : DataItemProto :=
  { title := title, time := time, ttl := 60 }

theorem clean_titled (title : String) (time : UInt64) (clean : Clean title) :
    Clean "0c" ∧ Clean (titled title time).title :=
  ⟨by decide, clean⟩

/-- A node stores an item, and a later one with another title under the same key. -/
theorem exists_twoTitles :
    ∃ s rs m n, Stocked (.simple []) s ∧ Holds rs 2 s ∧
      rs.records = [.ofItem m "0c" (titled "a" 1), .ofItem n "0c" (titled "b" 5)] := by
  have sound : (World.simple []).storage.Sound := Sqlite.inOrder_sound
  have start : Stocked (.simple []) (initial 1 2 {} {}) := .start rfl
  have empty : Holds .empty 2 (initial 1 2 {} {}) := ⟨rfl, rfl⟩
  obtain ⟨s₁, rs₁, -, first, one, filed₁⟩ :=
    start.next sound empty (by decide) (clean_titled "a" 1 (by decide))
  obtain ⟨m, alone⟩ := filed₁.of_empty
  obtain ⟨s₂, rs₂, -, second, two, filed₂⟩ :=
    first.next sound one (by decide) (clean_titled "b" 5 (by decide))
  obtain ⟨n, both⟩ := filed₂.of_other alone rfl (show "a" ≠ "b" by decide)
  exact ⟨s₂, rs₂, m, n, second, two, both⟩

/-- The theorem at the two titles. -/
theorem keepsNewest_iff_twoTitles :
    ∃ (s : Node) (rs : RecordStore), s.dbStorage.tables = rs.tables ∧
      ∀ r ∈ rs.records, r.pair = ("0c", "b") →
        (KeepsNewest (.simple []) s "0c" (titled "b" 3) r.id ↔
          (titled "b" 3).SameTimes r ∨
            ∀ r' ∈ rs.under "0c", (titled "b" 3).Newer r'.head ↔ (titled "b" 3).Later r) := by
  obtain ⟨s, -, -, -, stocked, -⟩ := exists_twoTitles
  exact ⟨s, keepsNewest_iff stocked Sqlite.inOrder_sound (clean_titled "b" 3 (by decide))⟩

/-- The first row with the second title has the time of the first record. -/
theorem renews_twoTitles (calls : Nat) {m n : Nat}
    (both : rs.records = [.ofItem m "0c" (titled "a" 1), .ofItem n "0c" (titled "b" 5)]) :
    Renews (.simple []) ⟨rs.tables, calls⟩ "0c" (titled "b" 3) := by
  have under : rs.under "0c" = rs.records :=
    List.filter_eq_self.mpr (by simp [both, Record.ofItem])
  rw [Renews, headsUnder_eq Sqlite.inOrder_sound (by decide), under, both]
  exact ⟨titled "b" 1, rfl, by decide⟩

/-- An older item takes the time of the second record back. -/
theorem time_taken_back :
    ∃ s m n, Stocked (.simple []) s ∧
      s.dbStorage.tables.dataTime = [⟨m, 1, 60⟩, ⟨n, 5, 60⟩] ∧
      (Act.exec (insertDb (.simple []) "0c" (titled "b" 3)) s).2.dbStorage.tables.dataTime =
        [⟨m, 1, 60⟩, ⟨n, 3, 60⟩] ∧
      ¬ KeepsNewest (.simple []) s "0c" (titled "b" 3) n := by
  have sound : (World.simple []).storage.Sound := Sqlite.inOrder_sound
  obtain ⟨s, rs, m, n, stocked, holds, both⟩ := exists_twoTitles
  have clean := clean_titled "b" 3 (by decide)
  have renews := renews_twoTitles s.dbStorage.calls both
  obtain ⟨s', rs', run, -, after, filed⟩ := stocked.next sound holds (by decide) clean
  have times : toSigned 1 = 1 ∧ toSigned 3 = 3 ∧ toSigned 5 = 5 ∧ toSigned 60 = 60 := by decide
  have second : .ofItem n "0c" (titled "b" 5) ∈ rs.records := by simp [both]
  have pair : (Record.ofItem n "0c" (titled "b" 5)).pair = ("0c", (titled "b" 3).title) := rfl
  refine ⟨s, m, n, stocked, ?_, ?_, fun keeps => ?_⟩
  · simp [holds.1, RecordStore.tables, both, Record.ofItem, Record.timeRow, titled, times]
  · rw [← holds.1] at renews
    rw [run, after.1]
    cases filed with
    | first fewer seq room absent none =>
      exact absurd none (List.ne_nil_of_mem (RecordStore.mem_under.mpr ⟨second, rfl⟩))
    | beside absent => exact absurd pair (absent _ second)
    | kept there old => exact absurd renews old
    | renewed there new =>
      simp [RecordStore.tables, RecordStore.update, RecordStore.retime, both, Record.ofItem,
        Record.pair, Record.timeRow, titled, times]
  · have first : .ofItem m "0c" (titled "a" 1) ∈ rs.under "0c" := by
      simp [RecordStore.under, both, Record.ofItem]
    have newer : (titled "b" 3).Newer (Record.ofItem m "0c" (titled "a" 1)).head := by
      simp only [DataItemProto.Newer, Record.head, Record.ofItem, titled]
      decide
    have later : ¬ (titled "b" 3).Later (Record.ofItem n "0c" (titled "b" 5)) := by
      simp [DataItemProto.Later, Record.ofItem, titled, times]
    rcases (keepsNewest_iff_of_held sound holds.1 clean second pair).mp keeps with same | all
    · have time := same.1
      simp [Record.ofItem, titled, times] at time
    · exact later ((all _ first).mp newer)

end Node

end MiniDht
