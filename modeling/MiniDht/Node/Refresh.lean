import MiniDht.Node.Contacts
import MiniDht.Node.Meeting

/-!
# The pass over the contact list

The first section of `periodic` drops the contacts that were not seen for long and files the
others in the backup. After an erase its loop goes back to `begin()` and steps on, so the
first entry is looked at only at the start: nothing is lost by that unless the very first
entry is the one erased. Then its successor is passed over, and without a successor the
loop runs past `end()`.
-/

namespace MiniDht

open Lib

namespace Node

variable {w : World} {s s' : Node} {now : Ptime}

/-! ## Entries -/

/-- The entry was not seen for long. -/
def Late (now : Ptime) (e : Nat × ContactProto) : Prop :=
  minutes periodicMinutes < now - fromTimeT (toSigned (e.2.time.getD 0))

instance (now : Ptime) (e : Nat × ContactProto) : Decidable (Late now e) :=
  inferInstanceAs (Decidable (_ < _))

/-- The entry is to stay. -/
def Stays (now : Ptime) (e : Nat × ContactProto) : Prop := e.1 = keySize ∨ ¬ Late now e

instance (now : Ptime) (e : Nat × ContactProto) : Decidable (Stays now e) :=
  inferInstanceAs (Decidable (_ ∨ _))

/-- The row of the backup for an entry. -/
def backupRow (e : Nat × ContactProto) : String × String :=
  (e.2.key, endpointToString e.2.ep)

/-- The backup with the row of an entry. -/
def filed (t : Contacts) (e : Nat × ContactProto) : Contacts :=
  if backupRow e ∈ t then t else t.filter (fun r => r.1 ≠ e.2.key) ++ [backupRow e]

/-- The rows of other keys are the same. -/
def SameBut (key : String) (t t' : Contacts) : Prop :=
  ∀ k v, k ≠ key → ((k, v) ∈ t' ↔ (k, v) ∈ t)

theorem SameBut.refl (key : String) (t : Contacts) : SameBut key t t := fun _ _ _ => Iff.rfl

/-- The entry stays and needs no backup, or has one. -/
def Settled (now : Ptime) (t : Contacts) (e : Nat × ContactProto) : Prop :=
  e.1 = keySize ∨ ¬ Late now e ∧ backupRow e ∈ t

/-- Something goes wrong when the entry is looked at: it is to be pinged under the zero id,
or its row is there and empty. -/
def Trips (now : Ptime) (t : Contacts) (e : Nat × ContactProto) : Prop :=
  e.1 ≠ keySize ∧ if Late now e then e.2.key = zeroId else (e.2.key, "") ∈ t

section Rows

variable {t t' : Contacts} {e : Nat × ContactProto}

theorem settled_congr (rows : ∀ v, (e.2.key, v) ∈ t' ↔ (e.2.key, v) ∈ t) :
    Settled now t' e ↔ Settled now t e := by
  rw [Settled, Settled, backupRow, rows]

theorem trips_congr (rows : ∀ v, (e.2.key, v) ∈ t' ↔ (e.2.key, v) ∈ t) :
    Trips now t' e ↔ Trips now t e := by
  rw [Trips, Trips, rows]

theorem Settled.stays (settled : Settled now t e) : Stays now e := settled.imp_right And.left

/-- A late entry does no harm under another id than zero. -/
theorem smooth_of_late (late : Late now e) (nonzero : e.2.key ≠ zeroId) : ¬ Trips now t e := by
  rintro ⟨-, trips⟩
  rw [if_pos late] at trips
  exact nonzero trips

theorem smooth_of_seen (seen : ¬ Late now e) (fine : (e.2.key, "") ∉ t) : ¬ Trips now t e := by
  rintro ⟨-, trips⟩
  rw [if_neg seen] at trips
  exact fine trips

theorem filed_of_mem (already : backupRow e ∈ t) : filed t e = t := if_pos already

theorem backupRow_mem_filed : backupRow e ∈ filed t e := by
  by_cases already : backupRow e ∈ t
  · rwa [filed_of_mem already]
  · simp [filed, already]

theorem sameBut_filed : SameBut e.2.key t (filed t e) := by
  intro k v other
  by_cases already : backupRow e ∈ t
  · rw [filed_of_mem already]
  · rw [filed, if_neg already]
    simp [backupRow, other]

theorem sameBut_dropped (key : String) : SameBut key t (t.filter fun r => r.1 ≠ key) := by
  intro k v other
  simp [other]

theorem nodup_dropped (keyed : (t.map Prod.fst).Nodup) (key : String) :
    ((t.filter fun r => r.1 ≠ key).map Prod.fst).Nodup :=
  keyed.sublist (List.filter_sublist.map _)

theorem nodup_filed (keyed : (t.map Prod.fst).Nodup) : ((filed t e).map Prod.fst).Nodup := by
  by_cases already : backupRow e ∈ t
  · rwa [filed_of_mem already]
  · rw [filed, if_neg already, List.map_append, List.nodup_append]
    refine ⟨nodup_dropped keyed e.2.key, List.nodup_singleton _, ?_⟩
    intro k old k' new
    obtain ⟨r, member, rfl⟩ := List.mem_map.mp old
    rw [List.map_singleton, List.mem_singleton] at new
    have other : r.1 ≠ e.2.key := by simpa using (List.mem_filter.mp member).2
    exact new ▸ other

theorem endpointToString_ne (ep : EndpointProto) : endpointToString ep ≠ "" := by
  unfold endpointToString
  intro empty
  have chars := congrArg String.length empty
  simp at chars

/-- A settled entry does no harm. -/
theorem Settled.smooth (settled : Settled now t e) (keyed : (t.map Prod.fst).Nodup) :
    ¬ Trips now t e := by
  rintro ⟨far, trips⟩
  obtain ⟨seen, filed⟩ := settled.resolve_left far
  rw [if_neg seen] at trips
  have one := DbKeyValue.value_of_mem keyed filed
  rw [DbKeyValue.value_of_mem keyed trips] at one
  exact endpointToString_ne _ one.symm

end Rows

/-! ## One step -/

/-- What the pass can rely on, whatever it has done so far. -/
structure Passing (w : World) (now : Ptime) (s : Node) : Prop where
  clock : ∀ i, s.ticks ≤ i → w.clock i = now
  named : s.contactList.Named
  clean : ∀ e ∈ s.contactList.entries, e.1 ≠ keySize →
    Clean e.2.key ∧ Clean (endpointToString e.2.ep)
  distinct : (s.contactList.entries.map (·.2.key)).Nodup
  keyed : (s.dbBackup.tables.map Prod.fst).Nodup

/-- The pass has left these entries and these rows. -/
structure Passed (s s' : Node) (entries : List (Nat × ContactProto)) (t : Contacts) : Prop where
  list : s'.contactList = { s.contactList with entries := entries }
  tables : s'.dbBackup.tables = t
  ticks : s.ticks ≤ s'.ticks

theorem Passed.refl (s : Node) : Passed s s s.contactList.entries s.dbBackup.tables where
  list := rfl
  tables := rfl
  ticks := le_rfl

theorem Passed.entries {l : List (Nat × ContactProto)} {t : Contacts} (passed : Passed s s' l t) :
    s'.contactList.entries = l := by
  rw [passed.list]

theorem Passed.trans {s₁ s₂ s₃ : Node} {l l' : List (Nat × ContactProto)} {t t' : Contacts}
    (first : Passed s₁ s₂ l t) (second : Passed s₂ s₃ l' t') : Passed s₁ s₃ l' t' where
  list := by rw [second.list, first.list]
  tables := second.tables
  ticks := first.ticks.trans second.ticks

theorem Passing.next {l : List (Nat × ContactProto)} {t : Contacts} (pass : Passing w now s)
    (passed : Passed s s' l t) (fewer : l.Sublist s.contactList.entries)
    (keyed : (t.map Prod.fst).Nodup) : Passing w now s' where
  clock i late := pass.clock i (passed.ticks.trans late)
  named e member := pass.named e (fewer.subset (passed.entries ▸ member))
  clean e member := pass.clean e (fewer.subset (passed.entries ▸ member))
  distinct := by
    rw [passed.entries]
    exact pass.distinct.sublist (fewer.map _)
  keyed := passed.tables ▸ keyed

/-- No two entries have one key. -/
theorem Passing.apart {e : Nat × ContactProto} {rest : List (Nat × ContactProto)}
    (pass : Passing w now s) (pre : List (Nat × ContactProto))
    (list : s.contactList.entries = pre ++ e :: rest) :
    e.2.key ∉ rest.map (·.2.key) ∧ ∀ x ∈ pre, x.2.key ≠ e.2.key := by
  have distinct := pass.distinct
  rw [list, List.map_append, List.nodup_append, List.map_cons, List.nodup_cons] at distinct
  obtain ⟨-, ⟨fresh, -⟩, apart⟩ := distinct
  exact ⟨fresh, fun x member => apart _ (List.mem_map_of_mem member) _ List.mem_cons_self⟩

theorem Passing.look (pass : Passing w now s) :
    Act.exec (updateTime w) s = (.ok now, { s with ticks := s.ticks + 1 }) := by
  rw [exec_updateTime, pass.clock s.ticks le_rfl]

section Step

variable (fuel : Nat) {pos : Nat} {e : Nat × ContactProto} (sound : w.backup.Sound)
  (pass : Passing w now s)
  (here : s.contactList.entries[pos]? = some e)

theorem exec_refreshFrom_end (past : s.contactList.entries[pos]? = none) :
    Act.exec (refreshFrom w (fuel + 1) pos) s = (.ok (), s) := by
  rw [refreshFrom, Act.exec_bind_ok (Act.exec_get s), past]
  rfl

include here

theorem exec_refreshFrom_near (near : e.1 = keySize) :
    Act.exec (refreshFrom w (fuel + 1) pos) s = Act.exec (refreshFrom w fuel (pos + 1)) s := by
  obtain ⟨index, c⟩ := e
  rw [refreshFrom, Act.exec_bind_ok (Act.exec_get s), here]
  simp only []
  rw [if_pos near]

include pass sound

/-- A late entry is pinged, and dropped from the backup and the list. -/
theorem exec_refreshFrom_late (far : e.1 ≠ keySize) (late : Late now e) (nonzero : e.2.key ≠ zeroId) :
    ∃ s', Passed s s' (s.contactList.entries.eraseIdx pos)
        (s.dbBackup.tables.filter fun r => r.1 ≠ e.2.key) ∧
      Act.exec (refreshFrom w (fuel + 1) pos) s =
        if s.contactList.entries.eraseIdx pos = [] then (.error .undefined, s')
        else Act.exec (refreshFrom w fuel 1) s' := by
  obtain ⟨index, c⟩ := e
  have late' : minutes periodicMinutes < now - fromTimeT (toSigned (c.time.getD 0)) := late
  have clean : Clean c.key := (pass.clean _ (List.mem_of_getElem? here) far).1
  obtain ⟨s₁, ping, list, rows, ticks⟩ : ∃ s₁,
      Act.exec (sendPing w c.key (tokenAt w s.draws))
        { s with ticks := s.ticks + 1, draws := s.draws + tokenSize } = (.ok (), s₁) ∧
      s₁.contactList = s.contactList ∧ s₁.dbBackup = s.dbBackup ∧ s.ticks ≤ s₁.ticks :=
    ⟨_, exec_sendPing nonzero pass.named, rfl, rfl, Nat.le_add_right s.ticks 2⟩
  have drop : Act.exec (onBackup (DbKeyValue.remove w.backup c.key)) s₁ =
      (.ok (), { s₁ with dbBackup :=
        ⟨s.dbBackup.tables.filter fun r => r.1 ≠ c.key, s.dbBackup.calls + 1⟩ }) := by
    apply exec_onBackup
    rw [rows, DbKeyValue.exec_remove sound clean]
  rw [refreshFrom, Act.exec_bind_ok (Act.exec_get s), here]
  simp only []
  rw [if_neg far, Act.exec_bind_ok pass.look, if_pos late', Act.exec_bind_ok (exec_randomToken w _),
    Act.exec_bind_ok ping, Act.exec_bind_ok drop, Act.exec_bind_ok (Act.exec_modify _ _),
    Act.exec_bind_ok (Act.exec_get _), list]
  refine ⟨{ s₁ with
    contactList := { s.contactList with entries := s.contactList.entries.eraseIdx pos }
    dbBackup := ⟨s.dbBackup.tables.filter fun r => r.1 ≠ c.key, s.dbBackup.calls + 1⟩ },
    ⟨rfl, rfl, ticks⟩, ?_⟩
  by_cases empty : s.contactList.entries.eraseIdx pos = []
  · rw [if_pos empty, if_pos empty]
    rfl
  · rw [if_neg empty, if_neg empty]

omit sound in
/-- A late entry under the zero id fails an assert. -/
theorem exec_refreshFrom_zero (far : e.1 ≠ keySize) (late : Late now e) (zero : e.2.key = zeroId) :
    (Act.exec (refreshFrom w (fuel + 1) pos) s).1 = .error .assertion := by
  obtain ⟨index, c⟩ := e
  have late' : minutes periodicMinutes < now - fromTimeT (toSigned (c.time.getD 0)) := late
  rw [refreshFrom, Act.exec_bind_ok (Act.exec_get s), here]
  simp only []
  rw [if_neg far, Act.exec_bind_ok pass.look, if_pos late', Act.exec_bind_ok (exec_randomToken w _), sendPing,
    Act.exec_bind_error (exec_checked_zero zero)]

/-- An entry seen lately is looked up first. -/
theorem exec_refreshFrom_find (far : e.1 ≠ keySize) (seen : ¬ Late now e) :
    ∃ s', Passed s s' s.contactList.entries s.dbBackup.tables ∧
      Act.exec (refreshFrom w (fuel + 1) pos) s =
        if DbKeyValue.value s.dbBackup.tables e.2.key = endpointToString e.2.ep then
          Act.exec (refreshFrom w fuel (pos + 1)) s'
        else Act.exec (do
          if DbKeyValue.value s.dbBackup.tables e.2.key ≠ "" then
            onBackup (DbKeyValue.remove w.backup e.2.key)
          onBackup (DbKeyValue.insert w.backup e.2.key (endpointToString e.2.ep))
          refreshFrom w fuel (pos + 1)) s' := by
  obtain ⟨index, c⟩ := e
  have seen' : ¬ minutes periodicMinutes < now - fromTimeT (toSigned (c.time.getD 0)) := seen
  have clean := pass.clean _ (List.mem_of_getElem? here) far
  have found := exec_onBackup (s := { s with ticks := s.ticks + 1 })
    (DbKeyValue.exec_find (n := s.dbBackup.calls) sound clean.1 pass.keyed)
  rw [refreshFrom, Act.exec_bind_ok (Act.exec_get s), here]
  simp only []
  rw [if_neg far, Act.exec_bind_ok pass.look, if_neg seen', Act.exec_bind_ok found]
  refine ⟨{ s with
    ticks := s.ticks + 1
    dbBackup := ⟨s.dbBackup.tables, s.dbBackup.calls + 1⟩ },
    ⟨rfl, rfl, Nat.le_succ s.ticks⟩, ?_⟩
  by_cases already : DbKeyValue.value s.dbBackup.tables c.key = endpointToString c.ep
  · rw [if_pos already, if_neg (not_not.mpr already)]
  · rw [if_neg already, if_pos already]

/-- An entry seen lately is filed. -/
theorem exec_refreshFrom_seen (far : e.1 ≠ keySize) (seen : ¬ Late now e)
    (fine : (e.2.key, "") ∉ s.dbBackup.tables) :
    ∃ s', Passed s s' s.contactList.entries (filed s.dbBackup.tables e) ∧
      Act.exec (refreshFrom w (fuel + 1) pos) s = Act.exec (refreshFrom w fuel (pos + 1)) s' := by
  obtain ⟨s₁, passed, run⟩ := exec_refreshFrom_find fuel sound pass here far seen
  have clean := pass.clean _ (List.mem_of_getElem? here) far
  rw [run]
  by_cases already : backupRow e ∈ s.dbBackup.tables
  · rw [if_pos (DbKeyValue.value_of_mem pass.keyed already), filed, if_pos already]
    exact ⟨s₁, passed, rfl⟩
  have write (s₂ : Node)
      (rows : s₂.dbBackup.tables = s.dbBackup.tables.filter fun r => r.1 ≠ e.2.key) :
      Act.exec (onBackup (DbKeyValue.insert w.backup e.2.key (endpointToString e.2.ep))) s₂ =
        (.ok (), { s₂ with dbBackup :=
          ⟨filed s.dbBackup.tables e, s₂.dbBackup.calls + 1⟩ }) := by
    apply exec_onBackup
    rw [filed, if_neg already, ← rows]
    refine DbKeyValue.exec_insert sound clean fun v => ?_
    simp [rows]
  by_cases some : ∃ v, (e.2.key, v) ∈ s.dbBackup.tables
  · obtain ⟨v, member⟩ := some
    have same := DbKeyValue.value_of_mem pass.keyed member
    have full : v ≠ "" := by
      rintro rfl
      exact fine member
    have other : v ≠ endpointToString e.2.ep := by
      rintro rfl
      exact already member
    have drop := exec_onBackup (s := s₁)
      (DbKeyValue.exec_remove (t := s₁.dbBackup.tables) (n := s₁.dbBackup.calls) sound clean.1)
    rw [passed.tables] at drop
    rw [same, if_neg other, if_pos full]
    refine ⟨{ s₁ with dbBackup := ⟨filed s.dbBackup.tables e, s₁.dbBackup.calls + 2⟩ },
      ⟨passed.list, rfl, passed.ticks⟩, ?_⟩
    rw [Act.exec_bind_ok drop, Act.exec_bind_ok (write _ rfl)]
  · have absent : ∀ v, (e.2.key, v) ∉ s.dbBackup.tables := not_exists.mp some
    have rows : s₁.dbBackup.tables = s.dbBackup.tables.filter fun r => r.1 ≠ e.2.key := by
      rw [passed.tables, eq_comm, List.filter_eq_self]
      rintro ⟨k, v⟩ member
      have other : k ≠ e.2.key := fun same => absent v (same ▸ member)
      simpa using other
    rw [DbKeyValue.value_of_absent absent, if_neg (endpointToString_ne _).symm,
      if_neg (not_not.mpr rfl)]
    refine ⟨{ s₁ with dbBackup := ⟨filed s.dbBackup.tables e, s₁.dbBackup.calls + 1⟩ },
      ⟨passed.list, rfl, passed.ticks⟩, ?_⟩
    rw [Act.exec_bind_ok (write _ rows)]

/-- Where its row is there and empty, the insertion is refused. -/
theorem exec_refreshFrom_empty (far : e.1 ≠ keySize) (seen : ¬ Late now e)
    (empty : (e.2.key, "") ∈ s.dbBackup.tables) :
    Act.Raises (refreshFrom w (fuel + 1) pos) s := by
  obtain ⟨s₁, passed, run⟩ := exec_refreshFrom_find fuel sound pass here far seen
  have clean := pass.clean _ (List.mem_of_getElem? here) far
  have nothing := DbKeyValue.value_of_mem pass.keyed empty
  obtain ⟨what, refused⟩ := DbKeyValue.insert_raises (q := w.backup) (n := s₁.dbBackup.calls)
    clean (passed.tables ▸ empty)
  rw [Act.Raises, run, nothing, if_neg (endpointToString_ne _).symm, if_neg (not_not.mpr rfl)]
  exact ⟨what, by rw [Act.exec_bind_error (exec_onBackup (Prod.ext refused rfl))]⟩

/-- A settled entry is passed. -/
theorem exec_refreshFrom_settled (settled : Settled now s.dbBackup.tables e) :
    ∃ s', Passed s s' s.contactList.entries s.dbBackup.tables ∧
      Act.exec (refreshFrom w (fuel + 1) pos) s = Act.exec (refreshFrom w fuel (pos + 1)) s' := by
  by_cases near : e.1 = keySize
  · exact ⟨s, .refl s, exec_refreshFrom_near fuel here near⟩
  · obtain ⟨seen, filed⟩ := settled.resolve_left near
    have fine : (e.2.key, "") ∉ s.dbBackup.tables := fun empty =>
      settled.smooth pass.keyed ⟨near, by rwa [if_neg seen]⟩
    obtain ⟨s', passed, run⟩ := exec_refreshFrom_seen fuel sound pass here near seen fine
    rw [filed_of_mem filed] at passed
    exact ⟨s', passed, run⟩

end Step

/-! ## The loop -/

section Loop

variable (sound : w.backup.Sound)
include sound

/-- Settled entries are walked over. -/
theorem exec_refreshFrom_walk (fuel : Nat) {a mid rest : List (Nat × ContactProto)}
    (pass : Passing w now s) (list : s.contactList.entries = a ++ (mid ++ rest))
    (settled : ∀ e ∈ mid, Settled now s.dbBackup.tables e) :
    ∃ s', Passed s s' s.contactList.entries s.dbBackup.tables ∧
      Act.exec (refreshFrom w (fuel + mid.length) a.length) s =
        Act.exec (refreshFrom w fuel (a.length + mid.length)) s' := by
  induction mid generalizing a s with
  | nil => exact ⟨s, .refl s, rfl⟩
  | cons e mid ih =>
    have here : s.contactList.entries[a.length]? = some e := by simp [list]
    obtain ⟨s₁, passed, run⟩ := exec_refreshFrom_settled (fuel + mid.length) sound pass here
      (settled e List.mem_cons_self)
    obtain ⟨s', passed', run'⟩ := ih (a := a ++ [e]) (pass.next passed (.refl _) pass.keyed)
      (by simp [passed.entries, list])
      (fun e' member => by
        rw [passed.tables]
        exact settled e' (List.mem_cons_of_mem _ member))
    rw [passed.entries, passed.tables] at passed'
    refine ⟨s', passed.trans passed', ?_⟩
    rw [List.length_append, List.length_singleton] at run'
    rw [List.length_cons, ← Nat.add_assoc, run, run']
    congr 2
    omega

/-- What the pass leaves when it goes through: the entries to stay, all of them settled, and
the rows of other keys as they were. -/
structure Cleared (now : Ptime) (s s' : Node) (pre rest : List (Nat × ContactProto)) : Prop where
  entries : s'.contactList.entries = pre ++ rest.filter (Stays now)
  settled : ∀ e ∈ rest, Stays now e → Settled now s'.dbBackup.tables e
  rows : ∀ k v, k ∉ rest.map (·.2.key) → ((k, v) ∈ s'.dbBackup.tables ↔ (k, v) ∈ s.dbBackup.tables)

/-- The pass that stands behind the entries `pre` goes through unless an entry it comes to
trips it. -/
structure Sweeps (w : World) (now : Ptime) (fuel : Nat) (s : Node)
    (pre rest : List (Nat × ContactProto)) : Prop where
  iff : (Act.exec (refreshFrom w fuel pre.length) s).1 = .ok () ↔
    ∀ e ∈ rest, ¬ Trips now s.dbBackup.tables e
  swept : (Act.exec (refreshFrom w fuel pre.length) s).1 = .ok () →
    Cleared now s (Act.exec (refreshFrom w fuel pre.length) s).2 pre rest

section Sweeps

variable {s₁ : Node} {fuel : Nat} {e : Nat × ContactProto} {pre rest : List (Nat × ContactProto)}

omit sound

theorem Sweeps.last (list : s.contactList.entries = pre) : Sweeps w now (fuel + 1) s pre [] := by
  have past : s.contactList.entries[pre.length]? = none := by simp [list]
  constructor
  · simp [exec_refreshFrom_end fuel past]
  · rw [exec_refreshFrom_end fuel past]
    exact fun _ => ⟨by simp [list], by simp, by simp⟩

theorem Sweeps.trip (trips : Trips now s.dbBackup.tables e)
    (failed : (Act.exec (refreshFrom w fuel pre.length) s).1 ≠ .ok ()) :
    Sweeps w now fuel s pre (e :: rest) where
  iff := ⟨fun run => absurd run failed, fun none => absurd trips (none e List.mem_cons_self)⟩
  swept run := absurd run failed

variable (rows : SameBut e.2.key s.dbBackup.tables s₁.dbBackup.tables)
  (smooth : ¬ Trips now s.dbBackup.tables e) (fresh : e.2.key ∉ rest.map (·.2.key))
include rows

theorem Cleared.keep (swept : Cleared now s₁ s' (pre ++ [e]) rest)
    (settled : Settled now s₁.dbBackup.tables e) (fresh : e.2.key ∉ rest.map (·.2.key)) :
    Cleared now s s' pre (e :: rest) where
  entries := by
    rw [swept.entries, List.filter_cons_of_pos (by simpa using settled.stays)]
    simp
  settled e' member stays := by
    rcases List.mem_cons.mp member with rfl | later
    · exact (settled_congr fun v => swept.rows _ v fresh).mpr settled
    · exact swept.settled e' later stays
  rows k v other := by
    rw [List.map_cons, List.mem_cons, not_or] at other
    rw [swept.rows k v other.2, rows k v other.1]

theorem Cleared.drop (swept : Cleared now s₁ s' pre rest) (goes : ¬ Stays now e) :
    Cleared now s s' pre (e :: rest) where
  entries := by
    rw [swept.entries, List.filter_cons_of_neg (by simpa using goes)]
  settled e' member stays := by
    rcases List.mem_cons.mp member with rfl | later
    · exact absurd stays goes
    · exact swept.settled e' later stays
  rows k v other := by
    rw [List.map_cons, List.mem_cons, not_or] at other
    rw [swept.rows k v other.2, rows k v other.1]

include smooth fresh

/-- What trips the pass over the entries left is what did before. -/
theorem none_trips_iff :
    (∀ x ∈ rest, ¬ Trips now s₁.dbBackup.tables x) ↔
      ∀ x ∈ e :: rest, ¬ Trips now s.dbBackup.tables x := by
  rw [List.forall_mem_cons, and_iff_right smooth]
  refine forall₂_congr fun x member => not_congr (trips_congr fun v => rows _ v ?_)
  exact fun same => fresh (same ▸ List.mem_map_of_mem member)

theorem Sweeps.keep {fuel' : Nat} (next : Sweeps w now fuel s₁ (pre ++ [e]) rest)
    (settled : Settled now s₁.dbBackup.tables e)
    (run : Act.exec (refreshFrom w fuel' pre.length) s =
      Act.exec (refreshFrom w fuel (pre.length + 1)) s₁) :
    Sweeps w now fuel' s pre (e :: rest) := by
  obtain ⟨goes, swept⟩ := next
  rw [List.length_append, List.length_singleton] at goes swept
  constructor
  · rw [run, goes, none_trips_iff rows smooth fresh]
  · rw [run]
    exact fun ok => (swept ok).keep rows settled fresh

theorem Sweeps.drop {fuel' : Nat} (next : Sweeps w now fuel s₁ pre rest) (late : ¬ Stays now e)
    (run : Act.exec (refreshFrom w fuel' pre.length) s =
      Act.exec (refreshFrom w fuel pre.length) s₁) :
    Sweeps w now fuel' s pre (e :: rest) := by
  constructor
  · rw [run, next.iff, none_trips_iff rows smooth fresh]
  · rw [run]
    exact fun ok => (next.swept ok).drop rows late

omit rows smooth fresh in
include sound in
/-- An entry to stay is settled, or trips the pass. -/
theorem Sweeps.stay (pass : Passing w now s) (list : s.contactList.entries = pre ++ e :: rest)
    (stays : Stays now e)
    (next : ∀ s₁, Passing w now s₁ → s₁.contactList.entries = pre ++ [e] ++ rest →
      SameBut e.2.key s.dbBackup.tables s₁.dbBackup.tables →
      Settled now s₁.dbBackup.tables e → Sweeps w now fuel s₁ (pre ++ [e]) rest) :
    Sweeps w now (fuel + 1) s pre (e :: rest) := by
  have here : s.contactList.entries[pre.length]? = some e := by simp [list]
  have fresh := (pass.apart _ list).1
  by_cases near : e.1 = keySize
  · have smooth : ¬ Trips now s.dbBackup.tables e := fun trips => trips.1 near
    have next := next s pass (by simp [list]) (.refl _ _) (.inl near)
    exact .keep (.refl _ _) smooth fresh next (.inl near) (exec_refreshFrom_near fuel here near)
  have seen : ¬ Late now e := stays.resolve_left near
  by_cases empty : (e.2.key, "") ∈ s.dbBackup.tables
  · obtain ⟨what, raised⟩ := exec_refreshFrom_empty fuel sound pass here near seen empty
    refine .trip ⟨near, by rwa [if_neg seen]⟩ ?_
    rw [raised]
    simp
  · obtain ⟨s₁, passed, run⟩ := exec_refreshFrom_seen fuel sound pass here near seen empty
    have rows : SameBut e.2.key s.dbBackup.tables s₁.dbBackup.tables :=
      passed.tables ▸ sameBut_filed
    have settled : Settled now s₁.dbBackup.tables e :=
      .inr ⟨seen, by rw [passed.tables]; exact backupRow_mem_filed⟩
    have next := next s₁ (pass.next passed (.refl _) (nodup_filed pass.keyed))
      (by simp [passed.entries, list]) rows settled
    exact .keep rows (smooth_of_seen seen empty) fresh next settled run

omit rows smooth fresh in
include sound in
/-- A late entry goes, and the settled ones before it are walked over once more, or it trips
the pass. -/
theorem Sweeps.late {a : Nat × ContactProto} {mid : List (Nat × ContactProto)}
    (pass : Passing w now s) (list : s.contactList.entries = a :: mid ++ e :: rest)
    (settled : ∀ x ∈ mid, Settled now s.dbBackup.tables x) (goes : ¬ Stays now e)
    (next : ∀ s₁, Passing w now s₁ → s₁.contactList.entries = a :: mid ++ rest →
      (∀ x ∈ mid, Settled now s₁.dbBackup.tables x) → Sweeps w now fuel s₁ (a :: mid) rest) :
    Sweeps w now (fuel + mid.length + 1) s (a :: mid) (e :: rest) := by
  obtain ⟨far, late⟩ := not_or.mp goes
  rw [not_not] at late
  have here : s.contactList.entries[(a :: mid).length]? = some e := by simp [list]
  by_cases zero : e.2.key = zeroId
  · refine .trip ⟨far, by rwa [if_pos late]⟩ ?_
    rw [exec_refreshFrom_zero (fuel + mid.length) pass here far late zero]
    simp
  obtain ⟨fresh, apart⟩ := pass.apart _ list
  obtain ⟨s₁, passed, run⟩ := exec_refreshFrom_late (fuel + mid.length) sound pass here far late zero
  have pass₁ := pass.next passed (List.eraseIdx_sublist _ _) (nodup_dropped pass.keyed e.2.key)
  have rows : SameBut e.2.key s.dbBackup.tables s₁.dbBackup.tables :=
    passed.tables ▸ sameBut_dropped e.2.key
  have settled₁ : ∀ x ∈ mid, Settled now s₁.dbBackup.tables x := fun x member =>
    (settled_congr fun v => rows _ v (apart x (List.mem_cons_of_mem a member))).mpr (settled x member)
  have erased : s.contactList.entries.eraseIdx (a :: mid).length = a :: mid ++ rest := by
    rw [list, List.eraseIdx_append_of_length_le le_rfl, Nat.sub_self]
    rfl
  have list₁ : s₁.contactList.entries = a :: mid ++ rest := by rw [passed.entries, erased]
  obtain ⟨s₂, walked, run'⟩ := exec_refreshFrom_walk sound fuel (a := [a]) pass₁ list₁ settled₁
  have next := next s₂ (pass₁.next walked (.refl _) pass₁.keyed) (by rw [walked.entries, list₁])
    (by rwa [walked.tables])
  refine .drop (walked.tables ▸ rows) (smooth_of_late late zero) fresh next goes ?_
  rw [erased, if_neg (by simp)] at run
  rw [run, List.length_cons, Nat.add_comm mid.length]
  exact run'

end Sweeps

/-- Behind the first entry, with those between settled. -/
theorem sweeps_behind {n fuel : Nat} {a : Nat × ContactProto}
    (mid : List (Nat × ContactProto)) {rest : List (Nat × ContactProto)} (pass : Passing w now s)
    (list : s.contactList.entries = a :: mid ++ rest)
    (settled : ∀ e ∈ mid, Settled now s.dbBackup.tables e)
    (few : mid.length + rest.length ≤ n) (enough : rest.length * (n + 1) < fuel) :
    Sweeps w now fuel s (a :: mid) rest := by
  obtain ⟨fuel, rfl⟩ := Nat.exists_eq_add_one.mpr (Nat.zero_lt_of_lt enough)
  induction rest generalizing s mid fuel with
  | nil => exact .last (by simpa using list)
  | cons e rest ih =>
    rw [List.length_cons] at few enough
    rw [Nat.add_mul] at enough
    by_cases stays : Stays now e
    · obtain ⟨fuel, rfl⟩ : ∃ f, fuel = f + 1 := ⟨fuel - 1, by omega⟩
      refine .stay sound pass list stays fun s₁ pass₁ list₁ rows filed => ?_
      refine ih (s := s₁) (mid ++ [e]) pass₁ list₁ (fun x member => ?_) ?_ fuel (by omega)
      · rcases List.mem_append.mp member with before | new
        · have apart := (pass.apart _ list).2 x (List.mem_cons_of_mem a before)
          exact (settled_congr fun v => rows _ v apart).mpr (settled x before)
        · exact List.mem_singleton.mp new ▸ filed
      · rw [List.length_append, List.length_singleton]
        omega
    · obtain ⟨fuel, rfl⟩ : ∃ f, fuel = f + 1 + mid.length := ⟨fuel - 1 - mid.length, by omega⟩
      refine .late sound pass list settled stays fun s₁ pass₁ list₁ settled₁ => ?_
      exact ih (s := s₁) mid pass₁ list₁ settled₁ (by omega) fuel (by omega)

end Loop

/-! ## The pass -/

/-- The pass does its work: it goes through, the entries left are those to stay, and each of
them that needs it has its backup. Where an exception ends it, an entry to stay has none. -/
def Refreshed (w : World) (now : Ptime) (s : Node) : Prop :=
  ∃ s', Act.exec (refreshContacts w) s = (.ok (), s') ∧
    s'.contactList.entries.Perm (s.contactList.entries.filter (Stays now)) ∧
    ∀ e ∈ s'.contactList.entries, e.1 ≠ keySize → backupRow e ∈ s'.dbBackup.tables

/-- The first entry stays, or the one the pass then skips is settled. -/
def SkipsSettled (now : Ptime) (t : Contacts) : List (Nat × ContactProto) → Prop
  | [] => True
  | [e] => Stays now e
  | e :: skipped :: _ => Stays now e ∨ Settled now t skipped

/-- The condition under which the pass does its work. -/
def Refreshable (now : Ptime) (t : Contacts) (l : List (Nat × ContactProto)) : Prop :=
  (∀ e ∈ l, ¬ Trips now t e) ∧ SkipsSettled now t l

/-- The loop from the start, with the fuel for it. -/
abbrev refreshLoop (w : World) (s : Node) : NodeM Unit :=
  refreshFrom w ((s.contactList.entries.length + 1) * (s.contactList.entries.length + 1)) 0

theorem refreshed_iff_loop : Refreshed w now s ↔ ∃ s', Act.exec (refreshLoop w s) s = (.ok (), s') ∧
    s'.contactList.entries.Perm (s.contactList.entries.filter (Stays now)) ∧
    ∀ e ∈ s'.contactList.entries, e.1 ≠ keySize → backupRow e ∈ s'.dbBackup.tables := by
  unfold Refreshed refreshContacts
  simp only [Act.exec_rethrowAs_ok]
  rfl

theorem Settled.backed {t : Contacts} {e : Nat × ContactProto} (settled : Settled now t e)
    (far : e.1 ≠ keySize) : backupRow e ∈ t := (settled.resolve_left far).2

/-- The fuel of the pass is enough for the entries after the first. -/
theorem exists_fuel (m : Nat) : ∃ f, (m + 1 + 1) * (m + 1 + 1) = f + 1 ∧ m * (m + 1 + 1) < f := by
  refine ⟨m * (m + 1 + 1) + (m + 1 + 1) + (m + 1), ?_, by omega⟩
  rw [Nat.add_mul (m + 1), Nat.add_mul m]
  omega

/-- From the start, where the first entry is not skipped over. -/
theorem Sweeps.works_iff
    (sweeps : Sweeps w now ((s.contactList.entries.length + 1) * (s.contactList.entries.length + 1))
      s [] s.contactList.entries) :
    Refreshed w now s ↔ ∀ e ∈ s.contactList.entries, ¬ Trips now s.dbBackup.tables e := by
  rw [refreshed_iff_loop]
  constructor
  · rintro ⟨s', run, -⟩
    apply sweeps.iff.mp
    rw [List.length_nil, run]
  · intro none
    have goes := sweeps.iff.mpr none
    obtain ⟨entries, settled, -⟩ := sweeps.swept goes
    rw [List.length_nil] at goes entries settled
    refine ⟨_, Prod.ext goes rfl, .of_eq entries, fun e member far => ?_⟩
    rw [entries, List.nil_append, List.mem_filter] at member
    exact (settled e member.1 (by simpa using member.2)).backed far

/-- From the second entry on, where the first one is skipped. -/
theorem Sweeps.skips_iff {fuel : Nat} {skipped : Nat × ContactProto}
    {rest : List (Nat × ContactProto)} (sweeps : Sweeps w now fuel s [skipped] rest)
    (fresh : skipped.2.key ∉ rest.map (·.2.key)) :
    (∃ s', Act.exec (refreshFrom w fuel 1) s = (.ok (), s') ∧
        s'.contactList.entries.Perm ((skipped :: rest).filter (Stays now)) ∧
        ∀ e ∈ s'.contactList.entries, e.1 ≠ keySize → backupRow e ∈ s'.dbBackup.tables) ↔
      Settled now s.dbBackup.tables skipped ∧ ∀ e ∈ rest, ¬ Trips now s.dbBackup.tables e := by
  obtain ⟨goes, swept⟩ := sweeps
  rw [List.length_singleton] at goes swept
  constructor
  · rintro ⟨s', run, perm, backed⟩
    rw [run] at goes swept
    obtain ⟨entries, -, rows⟩ := swept rfl
    have there : skipped ∈ s'.contactList.entries := by
      rw [entries]
      exact List.mem_append_left _ List.mem_cons_self
    have stays : Stays now skipped := by
      have chosen := (List.mem_filter.mp (perm.subset there)).2
      simpa using chosen
    refine ⟨(settled_congr fun v => rows _ v fresh).mp ?_, goes.mp rfl⟩
    by_cases near : skipped.1 = keySize
    · exact .inl near
    · exact .inr ⟨stays.resolve_left near, backed skipped there near⟩
  · rintro ⟨settled, none⟩
    have ok := goes.mpr none
    obtain ⟨entries, others, rows⟩ := swept ok
    refine ⟨_, Prod.ext ok rfl, .of_eq ?_, fun e member far => ?_⟩
    · rw [entries, List.filter_cons_of_pos (by simpa using settled.stays)]
      rfl
    · rw [entries, List.singleton_append, List.mem_cons, List.mem_filter] at member
      rcases member with rfl | ⟨later, stays⟩
      · exact ((settled_congr fun v => rows _ v fresh).mpr settled).backed far
      · exact (others e later (by simpa using stays)).backed far

section First

variable {e : Nat × ContactProto} (pass : Passing w now s) (far : e.1 ≠ keySize) (late : Late now e)
include pass far late

theorem not_refreshed_zero {rest : List (Nat × ContactProto)}
    (list : s.contactList.entries = e :: rest) (zero : e.2.key = zeroId) : ¬ Refreshed w now s := by
  have here : s.contactList.entries[0]? = some e := by simp [list]
  obtain ⟨fuel, eq, -⟩ := exists_fuel rest.length
  rw [refreshed_iff_loop, refreshLoop, list, List.length_cons, eq]
  rintro ⟨s', run, -⟩
  have aborted := exec_refreshFrom_zero fuel pass here far late zero
  rw [run] at aborted
  cases aborted

variable (sound : w.backup.Sound) (nonzero : e.2.key ≠ zeroId)
include sound nonzero

/-- Without a second entry the loop runs past the end. -/
theorem not_refreshed_alone (list : s.contactList.entries = [e]) : ¬ Refreshed w now s := by
  have here : s.contactList.entries[0]? = some e := by simp [list]
  obtain ⟨fuel, eq, -⟩ := exists_fuel 0
  rw [refreshed_iff_loop, refreshLoop, list, List.length_singleton, eq]
  obtain ⟨s₁, -, run⟩ := exec_refreshFrom_late fuel sound pass here far late nonzero
  rw [list, List.eraseIdx_cons_zero, if_pos rfl] at run
  rintro ⟨s', run', -⟩
  rw [run] at run'
  cases run'

/-- The second entry becomes the first, and is skipped. -/
theorem refreshed_iff_skips {skipped : Nat × ContactProto} {rest : List (Nat × ContactProto)}
    (list : s.contactList.entries = e :: skipped :: rest) :
    Refreshed w now s ↔
      Settled now s.dbBackup.tables skipped ∧ ∀ x ∈ rest, ¬ Trips now s.dbBackup.tables x := by
  have here : s.contactList.entries[0]? = some e := by simp [list]
  have goes : ¬ Stays now e := not_or.mpr ⟨far, not_not_intro late⟩
  obtain ⟨fuel, eq, enough⟩ := exists_fuel (rest.length + 1)
  rw [refreshed_iff_loop, refreshLoop, list, List.length_cons, List.length_cons, eq]
  obtain ⟨s₁, passed, run⟩ := exec_refreshFrom_late fuel sound pass here far late nonzero
  rw [list, List.eraseIdx_cons_zero] at run passed
  rw [if_neg (List.cons_ne_nil skipped rest)] at run
  obtain ⟨fresh, -⟩ := pass.apart [e] list
  obtain ⟨apart, -⟩ := pass.apart [] list
  have rows : ∀ x ∈ skipped :: rest, ∀ v,
      (x.2.key, v) ∈ s₁.dbBackup.tables ↔ (x.2.key, v) ∈ s.dbBackup.tables := by
    intro x member v
    have moved : x.2.key ∈ (skipped :: rest).map (·.2.key) := List.mem_map_of_mem member
    rw [passed.tables]
    exact sameBut_dropped e.2.key _ v fun same => apart (same ▸ moved)
  have pass₁ := pass.next passed (by simp [list]) (nodup_dropped pass.keyed e.2.key)
  rw [Nat.add_mul] at enough
  have sweeps : Sweeps w now fuel s₁ [skipped] rest :=
    sweeps_behind (n := rest.length + 1 + 1) sound [] pass₁ passed.entries (by simp)
      (by simp; omega) (by omega)
  rw [run, List.filter_cons_of_neg (by simpa using goes), sweeps.skips_iff fresh,
    settled_congr (rows skipped List.mem_cons_self)]
  refine and_congr_right fun _ => forall₂_congr fun x member => ?_
  exact not_congr (trips_congr (rows x (List.mem_cons_of_mem _ member)))

end First

/-- A late first entry. -/
theorem refreshed_iff_late (sound : w.backup.Sound) {e : Nat × ContactProto}
    {rest : List (Nat × ContactProto)} (pass : Passing w now s)
    (list : s.contactList.entries = e :: rest) (goes : ¬ Stays now e) :
    Refreshed w now s ↔ Refreshable now s.dbBackup.tables (e :: rest) := by
  obtain ⟨far, late⟩ := not_or.mp goes
  rw [not_not] at late
  by_cases zero : e.2.key = zeroId
  · refine iff_of_false (not_refreshed_zero pass far late list zero) ?_
    exact fun fits => fits.1 e List.mem_cons_self ⟨far, by rwa [if_pos late]⟩
  cases rest with
  | nil =>
    exact iff_of_false (not_refreshed_alone pass far late sound zero list) fun fits => goes fits.2
  | cons skipped rest =>
    rw [refreshed_iff_skips pass far late sound zero list, Refreshable, List.forall_mem_cons,
      and_iff_right (smooth_of_late late zero), List.forall_mem_cons]
    constructor
    · rintro ⟨settled, none⟩
      exact ⟨⟨settled.smooth pass.keyed, none⟩, .inr settled⟩
    · rintro ⟨⟨-, none⟩, skips⟩
      exact ⟨skips.resolve_left goes, none⟩

/-- **The pass over the contact list.** While the clock stands still, it does its work exactly
if no entry trips it and the entry it skips after dropping the first one is settled. -/
theorem refreshed_iff (reach : Reachable w s) (sound : w.backup.Sound)
    (steady : ∀ i, s.ticks ≤ i → w.clock i = now)
    (clean : ∀ e ∈ s.contactList.entries, e.1 ≠ keySize →
      Clean e.2.key ∧ Clean (endpointToString e.2.ep))
    (keyed : (s.dbBackup.tables.map Prod.fst).Nodup) :
    Refreshed w now s ↔ Refreshable now s.dbBackup.tables s.contactList.entries := by
  have filed := reach.table.filed
  have pass : Passing w now s := ⟨steady, filed.named, clean, filed.distinct, keyed⟩
  match list : s.contactList.entries with
  | [] =>
    have sweeps : Sweeps w now
        ((s.contactList.entries.length + 1) * (s.contactList.entries.length + 1)) s []
        s.contactList.entries := by
      rw [list]
      exact .last list
    rw [sweeps.works_iff, list]
    simp [Refreshable, SkipsSettled]
  | e :: rest =>
    by_cases stays : Stays now e
    · have first : Sweeps w now
          ((s.contactList.entries.length + 1) * (s.contactList.entries.length + 1)) s []
          s.contactList.entries := by
        obtain ⟨fuel, eq, enough⟩ := exists_fuel rest.length
        rw [list, List.length_cons, eq]
        refine .stay sound pass list stays fun s₁ pass₁ list₁ _ _ => ?_
        exact sweeps_behind (n := rest.length + 1) sound [] pass₁ list₁ (by simp)
          (by simp) enough
      rw [first.works_iff, list, Refreshable]
      refine (and_iff_left ?_).symm
      cases rest with
      | nil => exact stays
      | cons skipped rest => exact .inl stays
    · exact refreshed_iff_late sound pass list stays


/-- A node that has met one peer, since its first reading of the clock. -/
theorem reachable_one (sound : w.backup.Sound)
    (parsed : (w.parse [0]).2 = { type := .sendPing, fromId := peerA.key }) :
    ∃ s i c, Reachable w s ∧ i ≠ keySize ∧ s.ticks = 1 ∧ s.dbBackup.tables = [] ∧
      s.contactList.entries = [(i, c)] ∧
      c = Bucket.newContact (w.clock 0) peerA.key peerA.ep := by
  let ep : Endpoint := { address := "10.0.0.1", port := 1, printed := by decide }
  have proto : ep.proto = peerA.ep := by decide +kernel
  have start := Reachable.start (w := w) (exec_restoreFromBackup_empty sound 1 0 {})
  have received := @exec_receive_afterFirst w
    { initial 1 0 {} [] with dbBackup := { tables := [], calls := 1 } } rfl ep [0] _ parsed rfl
    (by decide +kernel) (by decide +kernel)
  refine ⟨_, (Bucket.new (keyToString 1)).common peerA.key, _, start.receive received trivial,
    by decide +kernel, rfl, rfl, rfl, ?_⟩
  rw [← proto]
  rfl

/-- Seen just now, the one contact is filed. -/
theorem refreshed_iff_first : ∃ s, Reachable .pinged s ∧ s.contactList.entries ≠ [] ∧
    Refreshed .pinged 0 s := by
  obtain ⟨s, i, c, reach, far, ticks, rows, alone, made⟩ := reachable_one (w := .pinged)
    Sqlite.inOrder_sound rfl
  have seen : ¬ Late 0 (i, c) := by
    rw [made]
    show ¬ minutes periodicMinutes < 0 - fromTimeT (toSigned (toUnsigned (toTimeT 0)))
    decide
  have plain : Clean c.key ∧ Clean (endpointToString c.ep) := by
    rw [made]
    decide +kernel
  refine ⟨s, reach, by simp [alone], (@refreshed_iff World.pinged s 0 reach Sqlite.inOrder_sound
    (fun _ _ => rfl) ?_ (by simp [rows])).mpr ⟨?_, ?_⟩⟩
  · rw [alone]
    intro e member _
    rw [List.mem_singleton.mp member]
    exact plain
  · rw [alone, rows]
    intro e member
    rw [List.mem_singleton.mp member]
    exact smooth_of_seen seen List.not_mem_nil
  · rw [alone]
    exact .inr seen

/-- The world in which the peer pings at first, and then six minutes pass. -/
def idle : World := { World.pinged with clock := fun i => if i = 0 then 0 else minutes 6 }

/-- Where the one contact is late, the loop runs past the end of the list. -/
theorem late_past_end : ∃ s, Reachable idle s ∧ (∀ i, s.ticks ≤ i → idle.clock i = minutes 6) ∧
    (Act.exec (refreshContacts idle) s).1 = .error .undefined ∧ ¬ Refreshed idle (minutes 6) s := by
  obtain ⟨s, i, c, reach, far, ticks, rows, alone, made⟩ := reachable_one (w := idle)
    Sqlite.inOrder_sound rfl
  have steady : ∀ i, s.ticks ≤ i → idle.clock i = minutes 6 := by
    intro i since
    have later : i ≠ 0 := by omega
    exact if_neg later
  have late : Late (minutes 6) (i, c) := by
    rw [made]
    show minutes periodicMinutes < minutes 6 - fromTimeT (toSigned (toUnsigned (toTimeT 0)))
    decide
  have plain : Clean c.key ∧ Clean (endpointToString c.ep) := by
    rw [made]
    decide +kernel
  have nonzero : c.key ≠ zeroId := by
    rw [made]
    decide +kernel
  have filed := reach.table.filed
  have pass : Passing idle (minutes 6) s := by
    refine ⟨steady, filed.named, ?_, filed.distinct, by simp [rows]⟩
    rw [alone]
    intro e member _
    rw [List.mem_singleton.mp member]
    exact plain
  have here : s.contactList.entries[0]? = some (i, c) := by simp [alone]
  obtain ⟨s', -, run⟩ := exec_refreshFrom_late 3 Sqlite.inOrder_sound pass here far late
    nonzero
  rw [alone, List.eraseIdx_cons_zero, if_pos rfl] at run
  have ends : (Act.exec (refreshContacts idle) s).1 = .error .undefined := by
    have loop : Act.exec (refreshLoop idle s) s = (.error .undefined, s') := by
      rw [refreshLoop, alone]
      exact run
    rw [refreshContacts, Act.exec_rethrowAs, Act.exec_bind_ok (Act.exec_get s), loop]
  refine ⟨s, reach, steady, ends, ?_⟩
  rintro ⟨s', ok, -⟩
  rw [ok] at ends
  cases ends

end Node

end MiniDht
