import MiniDht.Bucket.Filing
import MiniDht.Lib.Rows

/-!
# Which contact a full bucket gives up

`map_time_ite[ite->second.time()] = ite++` reads a time and moves the iterator on, in an
order C++ left open. Where the time is read first, the contact that goes is one of the least
recently seen. Where the iterator moves first, each contact is filed under the time of its
successor, and the last one under what stands behind the bucket.
-/

namespace MiniDht

open Lib

namespace Bucket

variable {b b' : Bucket} {own k : String} {ep : EndpointProto} {order : EvalOrder}
  {pastEnd : UInt64} {now : Ptime}

/-- Where the time is read for the contact at `pos`. -/
def readAt (order : EvalOrder) (pos : Nat) : Nat :=
  match order with
  | .leftFirst => pos
  | .rightFirst => pos + 1

/-- The last-seen time of an entry. -/
def seenAt (e : Nat × ContactProto) : UInt64 := e.2.time.getD 0

/-- The index of times that `add_contact` builds over a full bucket. -/
def mapTimeIte (b : Bucket) (order : EvalOrder) (pastEnd : UInt64) (index : Nat) :
    Std.TreeMap UInt64 Nat :=
  Index.fill (fun i => b.timeAt pastEnd (readAt order (b.find index + i))) (b.find index + ·) ∅
    (List.range (b.count index))

theorem victim_eq (index : Nat) :
    b.victim order pastEnd index =
      ((b.mapTimeIte order pastEnd index).toList.head?.map Prod.snd).getD (b.find index) := by
  cases order <;> rfl

theorem timeAt_of_entry {pos : Nat} {e : Nat × ContactProto} (here : b.entries[pos]? = some e) :
    b.timeAt pastEnd pos = seenAt e := by
  unfold timeAt contactAt
  rw [here]
  rfl

/-- Where the time is read first, none in the bucket was seen before the one that goes. -/
theorem victim_leftFirst (sorted : Multimap.Sorted b.entries) {index : Nat}
    (there : 0 < b.count index) :
    ∃ e, b.entries[b.victim .leftFirst pastEnd index]? = some e ∧ e.1 = index ∧
      ∀ x ∈ b.entries, x.1 = index → seenAt e ≤ seenAt x := by
  obtain ⟨i, inside, head, least⟩ :=
    Index.head_fill (f := fun i => b.timeAt pastEnd (b.find index + i)) (g := (b.find index + ·))
      (List.ne_nil_of_mem (List.mem_range.mpr there))
  have first : (b.mapTimeIte .leftFirst pastEnd index).toList.head? =
      some (b.timeAt pastEnd (b.find index + i), b.find index + i) := head
  have place : b.victim .leftFirst pastEnd index = b.find index + i := by
    rw [victim_eq, first]
    rfl
  obtain ⟨e, here, under⟩ := sorted.key_at (List.mem_range.mp inside)
  have time : b.timeAt pastEnd (b.find index + i) = seenAt e := timeAt_of_entry here
  refine ⟨e, by rw [place]; exact here, under, fun x member same => ?_⟩
  obtain ⟨j, few, there⟩ := sorted.step_at member same
  have time' : b.timeAt pastEnd (b.find index + j) = seenAt x := timeAt_of_entry there
  have before := least j (List.mem_range.mpr few)
  rw [time, time'] at before
  exact Std.isLE_compare.mp before

/-! ## The call -/

/-- The table after `add_contact` took in the contact `c`: `c` is found under its key, and the
other contacts are there as before, but for one of the least recently seen of the bucket where
that was full without the key. -/
structure Admits (b b' : Bucket) (c : ContactProto) : Prop where
  found : b'.lookup c.key = some c
  room : (b.lookup c.key).isSome ∨ b.count (b.common c.key) < bucketSize →
    b'.entries.Perm ((b.common c.key, c) :: b.entries.filter (·.2.key ≠ c.key))
  full : b.lookup c.key = none → bucketSize ≤ b.count (b.common c.key) →
    ∃ e ∈ b.entries, e.1 = b.common c.key ∧
      (∀ x ∈ b.entries, x.1 = b.common c.key → seenAt e ≤ seenAt x) ∧
      b'.entries.Perm ((b.common c.key, c) :: b.entries.erase e)

/-- No entry past the last one of the bucket is read for its time. -/
def ReadsInside (b : Bucket) (order : EvalOrder) (index : Nat) : Prop :=
  ∀ i < b.count index, readAt order (b.find index + i) < b.find index + b.count index

/-- `add_contact` evicts as a bucket should. -/
def Evicts (b : Bucket) (order : EvalOrder) (pastEnd : UInt64) (now : Ptime) (k : String)
    (ep : EndpointProto) : Prop :=
  (∃ b', b.addContact order pastEnd now k ep = .ok b' ∧ Admits b b' (newContact now k ep)) ∧
  (b.lookup k = none → bucketSize ≤ b.count (b.common k) → ReadsInside b order (b.common k))

/-! ## What is left -/

theorem perm_set {α : Type} {l : List α} {pos : Nat} {a : α} (there : pos < l.length) :
    (l.set pos a).Perm (a :: l.eraseIdx pos) := by
  have whole := List.getElem_cons_eraseIdx_perm (l := l.set pos a) (n := pos) (by simpa using there)
  rw [List.getElem_set_self, List.eraseIdx_set_eq] at whole
  exact whole.symm

theorem perm_eraseIdx {α : Type} [BEq α] [LawfulBEq α] {l : List α} {pos : Nat} {a : α}
    (there : l[pos]? = some a) : (l.eraseIdx pos).Perm (l.erase a) := by
  obtain ⟨inside, rfl⟩ := List.getElem?_eq_some_iff.mp there
  have whole := List.getElem_cons_eraseIdx_perm inside
  exact (whole.trans (List.perm_cons_erase (List.getElem_mem inside))).cons_inv

/-- Keys are in the table once, so that dropping one entry drops its key. -/
theorem Filed.perm_others (filed : b.Filed) {pos : Nat} {e : Nat × ContactProto}
    (there : b.entries[pos]? = some e) :
    (b.entries.eraseIdx pos).Perm (b.entries.filter (·.2.key ≠ e.2.key)) := by
  obtain ⟨inside, rfl⟩ := List.getElem?_eq_some_iff.mp there
  have whole := List.getElem_cons_eraseIdx_perm inside
  exact (whole.trans (perm_cons_filter filed.distinct (List.getElem_mem inside))).cons_inv

section Cases

variable (filed : b.Filed) (other : k ≠ b.localKey) (offered : ep.Named)
include filed other offered

/-- A key of the table has its entry replaced. -/
theorem admits_present {c : ContactProto} (present : b.lookup k = some c) :
    ∃ b', b.addContact order pastEnd now k ep = .ok b' ∧ Admits b b' (newContact now k ep) := by
  obtain ⟨pos, e, there, same, added⟩ :=
    @addContact_present b order pastEnd now k ep filed.named offered other c present
  refine ⟨_, added, filed.lookup_added other added, fun _ => ?_, fun absent => ?_⟩
  · obtain ⟨inside, -⟩ := List.getElem?_eq_some_iff.mp there
    have index : e.1 = b.common k := by
      rw [filed.filed e (List.mem_of_getElem? there), same]
    show (b.entries.set pos (e.1, newContact now k ep)).Perm
      ((b.common k, newContact now k ep) :: b.entries.filter (·.2.key ≠ k))
    rw [index, ← same]
    exact (perm_set inside).trans ((filed.perm_others there).cons _)
  · have absent : b.lookup k = none := absent
    rw [present] at absent
    cases absent

/-- A key that is new is filed; a full bucket gives up the contact at `victim` for it. -/
theorem admits_absent (absent : b.lookup k = none)
    (oldest : bucketSize ≤ b.count (b.common k) →
      ∃ e, b.entries[b.victim order pastEnd (b.common k)]? = some e ∧ e.1 = b.common k ∧
        ∀ x ∈ b.entries, x.1 = b.common k → seenAt e ≤ seenAt x) :
    ∃ b', b.addContact order pastEnd now k ep = .ok b' ∧ Admits b b' (newContact now k ep) := by
  have added := @addContact_absent b order pastEnd now k ep offered other absent
  refine ⟨_, added, filed.lookup_added other added, fun space => ?_, fun _ full => ?_⟩
  · have space : b.count (b.common k) < bucketSize := by
      refine space.resolve_left fun found => ?_
      have found : (b.lookup k).isSome := found
      rw [absent] at found
      cases found
    have fresh : b.entries.filter (·.2.key ≠ k) = b.entries := by
      rw [List.filter_eq_self]
      intro e member
      have other : e.2.key ≠ k := by
        intro same
        have found := filed.lookup_isSome.mpr ⟨e, member, same⟩
        rw [absent] at found
        cases found
      simpa using other
    show (insertEntry (if bucketSize ≤ b.count (b.common k) then _ else _) _).Perm
      (_ :: b.entries.filter (·.2.key ≠ k))
    rw [if_neg (not_le.mpr space), fresh]
    exact perm_insertEntry _ _
  · have full : bucketSize ≤ b.count (b.common k) := full
    obtain ⟨e, there, under, least⟩ := oldest full
    refine ⟨e, List.mem_of_getElem? there, under, least, ?_⟩
    show (insertEntry (if bucketSize ≤ b.count (b.common k) then _ else _) _).Perm _
    rw [if_pos full]
    exact (perm_insertEntry _ _).trans ((perm_eraseIdx there).cons _)

end Cases

/-- The time of each contact is read before the iterator moves, or no time is read at all. -/
def Evictable (b : Bucket) (order : EvalOrder) (k : String) : Prop :=
  order = .leftFirst ∨ (b.lookup k).isSome ∨ b.count (b.common k) < bucketSize

/-- Where the iterator moves first, the entry behind the bucket is read. -/
theorem not_readsInside {index : Nat} (there : 0 < b.count index) :
    ¬ ReadsInside b .rightFirst index := by
  intro inside
  have last : b.find index + (b.count index - 1) + 1 < b.find index + b.count index :=
    inside (b.count index - 1) (by omega)
  omega

/-- Adding a contact evicts the least recently seen one and reads nothing else exactly if the
operands are evaluated from left to right or no contact has to go. -/
theorem evicts_iff (reach : Reached (fun _ => True) own b) (other : k ≠ own) (offered : ep.Named) :
    Evicts b order pastEnd now k ep ↔ Evictable b order k := by
  have filed := reach.filed
  obtain rfl := reach.localKey_eq
  cases found : b.lookup k with
  | some c =>
    refine iff_of_true ⟨admits_present filed other offered found, fun absent => ?_⟩
      (.inr (.inl (by rw [found]; rfl)))
    rw [found] at absent
    cases absent
  | none =>
    by_cases full : bucketSize ≤ b.count (b.common k)
    · have there : 0 < b.count (b.common k) := lt_of_lt_of_le (by decide) full
      cases order with
      | leftFirst =>
        refine iff_of_true ⟨admits_absent filed other offered found fun _ => ?_, fun _ _ => ?_⟩
          (.inl rfl)
        · exact victim_leftFirst filed.sorted there
        · intro i inside
          show b.find (b.common k) + i < _
          omega
      | rightFirst =>
        refine iff_of_false (fun evicts => not_readsInside there (evicts.2 found full)) ?_
        rintro (first | present | space)
        · cases first
        · rw [found] at present
          cases present
        · exact absurd full (not_le.mpr space)
    · exact iff_of_true
        ⟨admits_absent filed other offered found fun now => absurd now full,
          fun _ now => absurd now full⟩ (.inr (.inr (not_le.mp full)))

/-! ## A full bucket -/

/-- The table that five contacts of one bucket make. -/
def crowded : Bucket := { Bucket.new "00" with entries := made "00" crowd }

theorem crowded_entries : crowded.entries = made "00" crowd := by simp only [crowded]

theorem count_congr (entries : b'.entries = b.entries) (own : b'.localKey = b.localKey)
    (k : String) : b'.count (b'.common k) = b.count (b.common k) := by
  unfold Bucket.count Bucket.common
  rw [entries, own]

/-- The table is full where the next contact belongs. -/
theorem exists_crowded : ∃ b, (Bucket.new "00").addAll ⟨"10.0.0.2", "4000"⟩ crowd = .ok b ∧
    b.entries = made "00" crowd ∧ Reached (fun _ => True) "00" b ∧ b.lookup "85" = none ∧
    bucketSize ≤ b.count (b.common "85") := by
  obtain ⟨calls, absent, full⟩ : made "00" crowd ≠ [] ∧ crowded.lookup "85" = none ∧
      bucketSize ≤ crowded.count (crowded.common "85") := by decide +kernel
  obtain ⟨b, added, entries, reach⟩ := @exists_made (fun _ => True) _ _ (fun _ _ => trivial) calls
  have own : b.localKey = crowded.localKey := reach.localKey_eq
  have same := entries.trans crowded_entries.symm
  rw [← lookup_congr same own] at absent
  rw [← count_congr same own] at full
  exact ⟨b, added, entries, reach, absent, full⟩

/-- Read from left to right, the full bucket loses its least recently seen contact. -/
theorem evicts_crowded : ∃ b, Reached (fun _ => True) "00" b ∧ b.lookup "85" = none ∧
    bucketSize ≤ b.count (b.common "85") ∧
    Evicts b .leftFirst 100 (seconds 7) "85" ⟨"10.0.0.2", "4000"⟩ := by
  obtain ⟨b, -, -, reach, absent, full⟩ := exists_crowded
  exact ⟨b, reach, absent, full, (evicts_iff reach (by decide) (by decide)).mpr (.inl rfl)⟩

/-- The contact that was seen last goes, as it is filed under the time of the one behind it. -/
theorem latest_evicted :
    ∃ b b', Reached (fun _ => True) "00" b ∧
      b.addContact .rightFirst 100 (seconds 7) "85" ⟨"10.0.0.2", "4000"⟩ = .ok b' ∧
      (∃ e ∈ b.entries, (∀ x ∈ b.entries, x ≠ e → seenAt x < seenAt e) ∧ e ∉ b'.entries) ∧
      ¬ Evicts b .rightFirst 100 (seconds 7) "85" ⟨"10.0.0.2", "4000"⟩ := by
  obtain ⟨b, before, entries, reach, absent, full⟩ := exists_crowded
  obtain ⟨calls', gone⟩ : made "00" (crowd ++ [(7, "85")]) ≠ [] ∧
      ∃ e ∈ made "00" crowd, (∀ x ∈ made "00" crowd, x ≠ e → seenAt x < seenAt e) ∧
        e ∉ made "00" (crowd ++ [(7, "85")]) := by decide +kernel
  obtain ⟨b', after, entries', -⟩ := @exists_made (fun _ => True) _ _ (fun _ _ => trivial) calls'
  have last : b.addContact .rightFirst 100 (seconds 7) "85" ⟨"10.0.0.2", "4000"⟩ = .ok b' := by
    unfold addAll at before after
    rw [List.foldlM_append, before] at after
    obtain ⟨b₁, one, done⟩ := bind_ok_iff.mp (show (b.addContact _ _ _ _ _ >>= _) = _ from after)
    rwa [Except.ok.inj done] at one
  refine ⟨b, b', reach, last, by simpa only [entries, entries'] using gone, fun evicts => ?_⟩
  exact not_readsInside (lt_of_lt_of_le (by decide) full) (evicts.2 absent full)

end Bucket

end MiniDht
