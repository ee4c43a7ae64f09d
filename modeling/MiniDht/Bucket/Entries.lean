import MiniDht.Bucket
import MiniDht.Search.ShortList

/-!
# Entries of the contact list

What `find_key` and `operator[]` find, what `add_contact` and `remove_contact` leave, and
the list of contacts that `startNodeLookup` makes of the cached proximity map.
-/

namespace MiniDht

open Lib

namespace Bucket

variable {b : Bucket}

/-- Every contact in the list has an endpoint. -/
def Named (b : Bucket) : Prop :=
  ∀ e ∈ b.entries, e.2.ep.Named

/-- The first element of a walk with the key is an entry under it, at its position. -/
theorem entry_of_first {index : Nat} {k : String} {p : Nat × ContactProto}
    (first : ((b.range index).find? fun e => e.2.key = k) = some p) :
    p.2.key = k ∧ ∃ e, b.entries[p.1]? = some e ∧ e.2 = p.2 := by
  have same := List.find?_some first
  obtain ⟨i, -, visited⟩ := List.mem_filterMap.mp (List.mem_of_find?_eq_some first)
  obtain ⟨e, entry, rfl⟩ := Option.map_eq_some_iff.mp visited
  exact ⟨by simpa using same, e, entry, rfl⟩

/-- What is found is an entry under the key. -/
theorem mem_of_lookup {k : String} {c : ContactProto}
    (found : b.lookup k = some c) : c.key = k ∧ ∃ e ∈ b.entries, e.2 = c := by
  obtain ⟨p, first, rfl⟩ := Option.map_eq_some_iff.mp found
  obtain ⟨same, e, entry, pair⟩ := entry_of_first first
  exact ⟨same, e, List.mem_of_getElem? entry, pair⟩

theorem Named.lookup (named : b.Named) {k : String} {c : ContactProto}
    (found : b.lookup k = some c) : c.ep.Named := by
  obtain ⟨-, e, member, rfl⟩ := mem_of_lookup found
  exact named e member

/-- No contact is filed under the local key. -/
def Others (b : Bucket) : Prop := ∀ e ∈ b.entries, e.2.key ≠ b.localKey

theorem mem_insertEntry {entries : List (Nat × ContactProto)} {p e : Nat × ContactProto}
    (member : e ∈ insertEntry entries p) : e = p ∨ e ∈ entries := by
  rw [insertEntry, List.mem_append, List.mem_cons] at member
  rcases member with before | here | after
  · exact .inr (List.takeWhile_subset _ before)
  · exact .inl here
  · exact .inr (List.dropWhile_subset _ after)

/-- The iterator `find_key` returns points to an entry under the key. -/
theorem entry_of_findKey {k : String} {pos : Nat} (found : b.findKey k = some pos) :
    ∃ e, b.entries[pos]? = some e ∧ e.2.key = k := by
  obtain ⟨p, first, rfl⟩ := Option.map_eq_some_iff.mp found
  obtain ⟨same, e, entry, pair⟩ := entry_of_first first
  exact ⟨e, entry, pair ▸ same⟩

theorem findKey_eq_none {k : String} : b.findKey k = none ↔ b.lookup k = none := by
  simp [findKey, lookup]

section AddContact

variable {order : EvalOrder} {pastEnd : UInt64} {now : Ptime} {k : String} {ep : EndpointProto}

/-- The contact `add_contact` files. -/
def newContact (now : Ptime) (k : String) (ep : EndpointProto) : ContactProto :=
  { key := k, ep := ep, time := some (toUnsigned (toTimeT now)) }

/-- A key that is not in the list is filed, in place of another contact if its bucket is
full. -/
theorem addContact_absent (offered : ep.Named) (other : k ≠ b.localKey)
    (absent : b.lookup k = none) :
    b.addContact order pastEnd now k ep = .ok { b with
      entries := insertEntry
        (if bucketSize ≤ b.count (b.common k)
          then b.entries.eraseIdx (b.victim order pastEnd (b.common k)) else b.entries)
        (b.common k, newContact now k ep)
      changed := true } := by
  simp only [addContact, other, if_false, assertNamed_named offered,
    findKey_eq_none.mpr absent]
  rfl

/-- A key that is in the list has its endpoint and time replaced. -/
theorem addContact_present (named : b.Named) (offered : ep.Named) (other : k ≠ b.localKey)
    {c : ContactProto} (present : b.lookup k = some c) :
    ∃ pos e, b.entries[pos]? = some e ∧ e.2.key = k ∧
      b.addContact order pastEnd now k ep = .ok { b with
        entries := b.entries.set pos (e.1, newContact now k ep) } := by
  cases found : b.findKey k with
  | none =>
    rw [findKey_eq_none.mp found] at present
    cases present
  | some pos =>
    obtain ⟨e, entry, key⟩ := entry_of_findKey found
    have old := named e (List.mem_of_getElem? entry)
    refine ⟨pos, e, entry, key, ?_⟩
    simp only [addContact, other, if_false, assertNamed_named offered, found, entry,
      Search.endpointEq_named old offered]
    by_cases same : e.2.ep = ep
    · simp [same, bind, Except.bind, pure, Except.pure, newContact, ← key]
    · simp [same, bind, Except.bind, pure, Except.pure, newContact, ← key]

/-- `add_contact` of a contact with an endpoint returns, and keeps the list as it
should be. -/
theorem addContact_ok (named : b.Named) (others : b.Others) (offered : ep.Named) :
    ∃ b', b.addContact order pastEnd now k ep = .ok b' ∧ b'.localKey = b.localKey ∧ b'.Named ∧
      b'.Others := by
  by_cases self : k = b.localKey
  · exact ⟨b, by simp [addContact, self]; rfl, rfl, named, others⟩
  cases found : b.lookup k with
  | none =>
    refine ⟨_, addContact_absent offered self found, rfl, ?_, ?_⟩ <;> intro e member <;>
      rcases mem_insertEntry member with rfl | old
    · exact offered
    · exact named e (by split at old; exacts [List.mem_of_mem_eraseIdx old, old])
    · exact self
    · exact others e (by split at old; exacts [List.mem_of_mem_eraseIdx old, old])
  | some c =>
    obtain ⟨pos, e, -, -, added⟩ :=
      @addContact_present b order pastEnd now k ep named offered self c found
    refine ⟨_, added, rfl, ?_, ?_⟩ <;> intro e' member <;>
      rcases List.mem_or_eq_of_mem_set member with old | rfl
    · exact named e' old
    · exact offered
    · exact others e' old
    · exact self

end AddContact

/-- What `remove_contact` leaves is what single removals lead to. -/
theorem removeFrom_induction {J : List (Nat × ContactProto) → Prop} {ep : EndpointProto}
    {fuel pos : Nat} {entries left : List (Nat × ContactProto)}
    (drop : ∀ es pos, J es → J (es.eraseIdx pos)) (start : J entries)
    (done : removeFrom ep fuel pos entries = .ok left) : J left := by
  induction fuel generalizing pos entries with
  | zero => cases done
  | succ fuel ih =>
    rw [removeFrom] at done
    split at done
    · cases done
      exact start
    · obtain ⟨same, _, done⟩ := bind_ok_iff.mp done
      cases same with
      | true =>
        simp only [if_true] at done
        split at done
        · cases done
        · exact ih (drop entries pos start) done
      | false => exact ih start (by simpa using done)

/-- What `remove_contact` leaves was there before. -/
theorem removeFrom_subset {ep : EndpointProto} {fuel pos : Nat}
    {entries left : List (Nat × ContactProto)} (done : removeFrom ep fuel pos entries = .ok left) :
    left ⊆ entries :=
  removeFrom_induction (J := (· ⊆ entries))
    (fun _ _ sub _ member => sub (List.mem_of_mem_eraseIdx member)) (List.Subset.refl _) done

/-! ## The contacts a search starts from -/

/-- The cached keys that are still in the list, as a search gets them. -/
def proximity (b : Bucket) (k : String) : List ContactProto :=
  ((b.buildProximity k).mapProximity.toList.map Prod.snd).filterMap fun key =>
    (b.lookup key).map fun c => { key := key, ep := c.ep }

theorem proximity_named (named : b.Named) (k : String) : Search.AllNamed (b.proximity k) := by
  intro c member
  obtain ⟨key, -, found⟩ := List.mem_filterMap.mp member
  obtain ⟨c', there, rfl⟩ := Option.map_eq_some_iff.mp found
  exact (named.lookup there : c'.ep.Named)

@[simp] theorem buildProximity_entries (b : Bucket) (k : String) :
    (b.buildProximity k).entries = b.entries := by
  unfold buildProximity
  split <;> rfl

@[simp] theorem buildProximity_localKey (b : Bucket) (k : String) :
    (b.buildProximity k).localKey = b.localKey := by
  unfold buildProximity
  split <;> rfl

/-- Looking up reads the entries and the local key only. -/
theorem lookup_congr {b b' : Bucket} (entries : b'.entries = b.entries)
    (own : b'.localKey = b.localKey) (k : String) : b'.lookup k = b.lookup k := by
  obtain ⟨es, key, _, _⟩ := b
  obtain ⟨es', key', _, _⟩ := b'
  subst entries own
  rfl

/-- A search starts from nobody where there is nobody. -/
theorem proximity_nil {b : Bucket} (nobody : b.entries = []) (k : String) : b.proximity k = [] := by
  rw [proximity, List.filterMap_eq_nil_iff]
  intro key _
  simp [lookup, range, find, nobody]

/-! ## A list with one contact -/

/-- The first contact is filed alone. -/
theorem addContact_first {order : EvalOrder} {pastEnd : UInt64} {now : Ptime} {k own : String}
    {ep : EndpointProto} (offered : ep.Named) (other : k ≠ own) :
    (Bucket.new own).addContact order pastEnd now k ep = .ok { Bucket.new own with
      entries := [((Bucket.new own).common k, newContact now k ep)] } :=
  addContact_absent (b := Bucket.new own) offered other rfl

section One

variable {c : ContactProto} (alone : b.entries = [(b.common c.key, c)])
include alone

theorem lookup_one : b.lookup c.key = some c := by
  simp [lookup, range, count, find, alone]

theorem lookup_others {k : String} (other : k ≠ c.key) : b.lookup k = none := by
  cases found : b.lookup k with
  | none => rfl
  | some d =>
    obtain ⟨same, e, member, rfl⟩ := mem_of_lookup found
    rw [alone, List.mem_singleton] at member
    exact absurd (same.symm.trans (congrArg (·.2.key) member)) other

/-- A search starts from the one contact there is. -/
theorem proximity_one (fresh : b.changed = true) (k : String) :
    b.proximity k = [{ key := c.key, ep := c.ep }] := by
  have cached : (b.buildProximity k).mapProximity.toList.map Prod.snd = [c.key] := by
    simp only [buildProximity, fresh, if_true, alone, List.foldl_cons, List.foldl_nil]
    rfl
  rw [proximity, cached]
  simp [lookup_one alone]

end One

end Bucket

end MiniDht
