import MiniDht.Bucket.Entries
import MiniDht.Lib.Index
import MiniDht.Lib.Multimap

/-!
# How contacts are filed

The representation invariant of `bucket` (`Filed`), kept by `add_contact`, by removals and
by lookups, and what it gives: `find_key`, which visits one bucket, finds every key of the
table.
-/

namespace MiniDht

open Lib

namespace Bucket

/-- The tables that calls in any order make of an empty one. Keys that are added satisfy
`keys`. -/
inductive Reached (keys : String → Prop) (own : String) : Bucket → Prop where
  | new : Reached keys own (new own)
  | add {b b' : Bucket} {order : EvalOrder} {pastEnd : UInt64} {now : Ptime} {k : String}
      {ep : EndpointProto} (reach : Reached keys own b) (allowed : keys k)
      (added : b.addContact order pastEnd now k ep = .ok b') : Reached keys own b'
  | erase {b : Bucket} (reach : Reached keys own b) (pos : Nat) :
      Reached keys own { b with entries := b.entries.eraseIdx pos }
  | look {b : Bucket} (reach : Reached keys own b) (k : String) :
      Reached keys own (b.buildProximity k)

/-- The representation invariant. -/
structure Filed (b : Bucket) : Prop where
  sorted : Multimap.Sorted b.entries
  filed : ∀ e ∈ b.entries, e.1 = b.common e.2.key
  distinct : (b.entries.map (·.2.key)).Nodup
  others : b.Others
  room : ∀ index, b.count index ≤ bucketSize
  named : b.Named

variable {b : Bucket}

/-! ## Looking up -/

theorem filterMap_getElem? {α : Type} (l : List α) (n : Nat) :
    (List.range n).filterMap (fun i => l[i]?) = l.take n := by
  induction n with
  | zero => rfl
  | succ n ih =>
    rw [List.range_succ, List.filterMap_append, ih, List.take_add_one]
    cases here : l[n]? <;> simp [here]

/-- The loops over a bucket visit the entries under its index. -/
theorem range_eq (sorted : Multimap.Sorted b.entries) (index : Nat) :
    (b.range index).map Prod.snd = (b.entries.filter (·.1 = index)).map Prod.snd := by
  have visited : (b.range index).map Prod.snd =
      ((List.range (b.count index)).filterMap
        fun i => (b.entries.drop (b.find index))[i]?).map Prod.snd := by
    simp only [range, List.map_filterMap, List.getElem?_drop, Option.map_map]
    rfl
  rw [visited, filterMap_getElem?, ← sorted.run_eq]
  rfl

theorem lookup_eq (sorted : Multimap.Sorted b.entries) (k : String) :
    b.lookup k =
      ((b.entries.filter (·.1 = b.common k)).map Prod.snd).find? fun c => c.key = k := by
  rw [← range_eq sorted, List.find?_map]
  rfl

/-- An entry under a key is found under that key. -/
theorem Filed.lookup_of_mem (filed : b.Filed) {e : Nat × ContactProto} (member : e ∈ b.entries) :
    b.lookup e.2.key = some e.2 := by
  have listed : e.2 ∈ (b.entries.filter (·.1 = b.common e.2.key)).map Prod.snd :=
    List.mem_map_of_mem
      (List.mem_filter.mpr ⟨member, decide_eq_true (filed.filed e member)⟩)
  cases found : b.lookup e.2.key with
  | none =>
    rw [lookup_eq filed.sorted, List.find?_eq_none] at found
    simpa using found e.2 listed
  | some c =>
    obtain ⟨same, e', member', rfl⟩ := mem_of_lookup found
    rw [List.inj_on_of_nodup_map filed.distinct member' member same]

theorem Filed.lookup_isSome (filed : b.Filed) {k : String} :
    (b.lookup k).isSome ↔ ∃ e ∈ b.entries, e.2.key = k := by
  constructor
  · intro found
    obtain ⟨c, found⟩ := Option.isSome_iff_exists.mp found
    obtain ⟨same, e, member, rfl⟩ := mem_of_lookup found
    exact ⟨e, member, same⟩
  · rintro ⟨e, member, rfl⟩
    rw [filed.lookup_of_mem member]
    rfl

theorem findKey_isSome {k : String} : (b.findKey k).isSome = (b.lookup k).isSome := by
  simp [findKey, lookup]

/-! ## The entry that is given up -/

/-- The first value of an index over `n` positions from `first` on is one of them. -/
theorem head_fill {f : Nat → UInt64} {first n : Nat} (there : 0 < n) :
    ∃ i < n, ((Index.fill f (first + ·) ∅ (List.range n)).toList.head?.map Prod.snd).getD first =
      first + i := by
  obtain ⟨i, inside, head, -⟩ := Index.head_fill (f := f) (g := (first + ·))
    (List.ne_nil_of_mem (List.mem_range.mpr there))
  exact ⟨i, List.mem_range.mp inside, by rw [head]; rfl⟩

/-- A bucket with contacts gives up one of them, whatever the times are. -/
theorem victim_mem (sorted : Multimap.Sorted b.entries) {order : EvalOrder} {pastEnd : UInt64}
    {index : Nat} (there : 0 < b.count index) :
    ∃ e, b.entries[b.victim order pastEnd index]? = some e ∧ e.1 = index := by
  have place : ∃ i < b.count index, b.victim order pastEnd index = b.find index + i := by
    cases order with
    | leftFirst => exact head_fill (f := fun i => b.timeAt pastEnd (b.find index + i)) there
    | rightFirst => exact head_fill (f := fun i => b.timeAt pastEnd (b.find index + i + 1)) there
  obtain ⟨i, inside, here⟩ := place
  rw [here]
  exact sorted.key_at inside

/-! ## Steps -/

theorem Filed.new (own : String) : (Bucket.new own).Filed where
  sorted := Multimap.Sorted.nil
  filed _ member := by cases member
  distinct := List.nodup_nil
  others _ member := by cases member
  room _ := Nat.zero_le _
  named _ member := by cases member

theorem Filed.eraseIdx (filed : b.Filed) (pos : Nat) :
    Filed { b with entries := b.entries.eraseIdx pos } where
  sorted := filed.sorted.eraseIdx pos
  filed e member := filed.filed e (List.mem_of_mem_eraseIdx member)
  distinct := filed.distinct.sublist ((List.eraseIdx_sublist ..).map _)
  others e member := filed.others e (List.mem_of_mem_eraseIdx member)
  room index := (List.Sublist.countP_le (List.eraseIdx_sublist ..)).trans (filed.room index)
  named e member := filed.named e (List.mem_of_mem_eraseIdx member)

theorem perm_insertEntry (entries : List (Nat × ContactProto)) (p : Nat × ContactProto) :
    (Bucket.insertEntry entries p).Perm (p :: entries) := Multimap.perm_insert entries p

/-- A contact of a new key is filed where its bucket has room. -/
theorem Filed.insertEntry (filed : b.Filed) {c : ContactProto} (other : c.key ≠ b.localKey)
    (absent : ∀ e ∈ b.entries, e.2.key ≠ c.key) (named : c.ep.Named)
    (room : b.count (b.common c.key) < bucketSize) :
    Filed { b with
      entries := Bucket.insertEntry b.entries (b.common c.key, c)
      changed := true } where
  sorted := filed.sorted.insert _
  filed e member := by
    rcases mem_insertEntry member with rfl | old
    · rfl
    · exact filed.filed e old
  distinct := by
    apply ((perm_insertEntry b.entries (b.common c.key, c)).map _).nodup_iff.mpr
    rw [List.map_cons, List.nodup_cons]
    refine ⟨fun there => ?_, filed.distinct⟩
    obtain ⟨e, member, same⟩ := List.mem_map.mp there
    exact absent e member same
  others e member := by
    rcases mem_insertEntry member with rfl | old
    · exact other
    · exact filed.others e old
  room index := by
    apply ((perm_insertEntry b.entries (b.common c.key, c)).countP_eq _).le.trans
    by_cases here : b.common c.key = index
    · rw [List.countP_cons_of_pos (by simpa using here), ← here]
      exact room
    · rw [List.countP_cons_of_neg (by simpa using here)]
      exact filed.room index
  named e member := by
    rcases mem_insertEntry member with rfl | old
    · exact named
    · exact filed.named e old

theorem map_set_same {α β : Type} {f : α → β} {l : List α} {pos : Nat} {a c : α}
    (there : l[pos]? = some a) (same : f c = f a) : (l.set pos c).map f = l.map f := by
  obtain ⟨inside, rfl⟩ := List.getElem?_eq_some_iff.mp there
  rw [List.map_set, same, ← List.getElem_map f, List.set_getElem_self]
  simpa using inside

/-- A contact is replaced by one of its key. -/
theorem Filed.set (filed : b.Filed) {pos : Nat} {e : Nat × ContactProto} {c : ContactProto}
    (there : b.entries[pos]? = some e) (same : c.key = e.2.key) (named : c.ep.Named) :
    Filed { b with entries := b.entries.set pos (e.1, c) } where
  sorted := by
    have sorted : (b.entries.map Prod.fst).Pairwise (· ≤ ·) := List.pairwise_map.mpr filed.sorted
    rw [← map_set_same there (c := (e.1, c)) rfl] at sorted
    exact List.pairwise_map.mp sorted
  filed e' member := by
    rcases List.mem_or_eq_of_mem_set member with old | rfl
    · exact filed.filed e' old
    · have before := filed.filed e (List.mem_of_getElem? there)
      rw [← same] at before
      exact before
  distinct := by
    have distinct := filed.distinct
    rw [← map_set_same there (c := (e.1, c)) same] at distinct
    exact distinct
  others e' member := by
    rcases List.mem_or_eq_of_mem_set member with old | rfl
    · exact filed.others e' old
    · exact fun self => filed.others e (List.mem_of_getElem? there) (same ▸ self)
  room index := by
    have counted (l : List (Nat × ContactProto)) :
        l.countP (·.1 = index) = (l.map Prod.fst).countP (· = index) := by
      rw [List.countP_map]
      rfl
    have room := filed.room index
    rw [count, counted, ← map_set_same there (c := (e.1, c)) rfl] at room
    rwa [count, counted]
  named e' member := by
    rcases List.mem_or_eq_of_mem_set member with old | rfl
    · exact filed.named e' old
    · exact named

theorem Filed.buildProximity (filed : b.Filed) (k : String) : (b.buildProximity k).Filed := by
  unfold Bucket.buildProximity
  split
  · exact ⟨filed.sorted, filed.filed, filed.distinct, filed.others, filed.room, filed.named⟩
  · exact filed

section AddContact

variable {b' : Bucket} {order : EvalOrder} {pastEnd : UInt64} {now : Ptime} {k : String}
  {ep : EndpointProto}

/-- What `add_contact` did when it returned. -/
theorem addContact_cases (named : b.Named)
    (added : b.addContact order pastEnd now k ep = .ok b') :
    (k = b.localKey ∧ b' = b) ∨ k ≠ b.localKey ∧ ep.Named ∧
      ((b.lookup k = none ∧ b' = { b with
          entries := Bucket.insertEntry
            (if bucketSize ≤ b.count (b.common k)
              then b.entries.eraseIdx (b.victim order pastEnd (b.common k)) else b.entries)
            (b.common k, newContact now k ep)
          changed := true }) ∨
        ∃ pos e, b.entries[pos]? = some e ∧ e.2.key = k ∧
          b' = { b with entries := b.entries.set pos (e.1, newContact now k ep) }) := by
  by_cases self : k = b.localKey
  · refine .inl ⟨self, ?_⟩
    simpa [Bucket.addContact, self, pure, Except.pure] using added.symm
  refine .inr ⟨self, ?_⟩
  have offered : ep.Named := by
    unfold Bucket.addContact at added
    rw [if_neg self] at added
    obtain ⟨_, checked, -⟩ := bind_ok_iff.mp added
    obtain ⟨_, address, port⟩ := bind_ok_iff.mp checked
    exact ⟨assertThat_ok_iff.mp address, assertThat_ok_iff.mp port⟩
  refine ⟨offered, ?_⟩
  cases found : b.lookup k with
  | none =>
    rw [addContact_absent offered self found] at added
    exact .inl ⟨rfl, (Except.ok.inj added).symm⟩
  | some c =>
    obtain ⟨pos, e, there, same, done⟩ :=
      @addContact_present b order pastEnd now k ep named offered self c found
    rw [done] at added
    exact .inr ⟨pos, e, there, same, (Except.ok.inj added).symm⟩

theorem Filed.addContact (filed : b.Filed)
    (added : b.addContact order pastEnd now k ep = .ok b') : b'.Filed := by
  rcases addContact_cases filed.named added with
    ⟨-, rfl⟩ | ⟨other, offered, ⟨absent, rfl⟩ | ⟨pos, e, there, same, rfl⟩⟩
  · exact filed
  · have fresh : ∀ e ∈ b.entries, e.2.key ≠ k := by
      intro e member same
      have found := filed.lookup_isSome.mpr ⟨e, member, same⟩
      rw [absent] at found
      cases found
    split
    · rename_i full
      -- the contact that goes makes room in the bucket
      set pos := b.victim order pastEnd (b.common k)
      obtain ⟨e, there, under⟩ := @victim_mem b filed.sorted order pastEnd (b.common k)
        (lt_of_lt_of_le (by decide) full)
      refine (filed.eraseIdx pos).insertEntry (c := newContact now k ep) other
        (fun e member => fresh e (List.mem_of_mem_eraseIdx member)) offered ?_
      obtain ⟨inside, rfl⟩ := List.getElem?_eq_some_iff.mp there
      have less := (List.getElem_cons_eraseIdx_perm inside).countP_eq
        fun e => decide (e.1 = b.common k)
      rw [List.countP_cons_of_pos (by simpa using under)] at less
      exact lt_of_lt_of_le (Nat.lt_of_succ_le less.le) (filed.room (b.common k))
    · rename_i space
      exact filed.insertEntry (c := newContact now k ep) other fresh offered (not_le.mp space)
  · exact filed.set there same.symm offered

/-- A contact other than the local node is found after it has been added. -/
theorem Filed.lookup_added (filed : b.Filed) (other : k ≠ b.localKey)
    (added : b.addContact order pastEnd now k ep = .ok b') :
    b'.lookup k = some (newContact now k ep) := by
  have there : ∃ e ∈ b'.entries, e.2 = newContact now k ep := by
    rcases addContact_cases filed.named added with
      ⟨self, -⟩ | ⟨-, -, ⟨-, rfl⟩ | ⟨pos, e, here, -, rfl⟩⟩
    · exact absurd self other
    · exact ⟨(b.common k, newContact now k ep),
        (perm_insertEntry _ _).mem_iff.mpr List.mem_cons_self, rfl⟩
    · obtain ⟨inside, -⟩ := List.getElem?_eq_some_iff.mp here
      exact ⟨(e.1, newContact now k ep), List.mem_set inside _, rfl⟩
  obtain ⟨e, member, same⟩ := there
  have found := (filed.addContact added).lookup_of_mem member
  rwa [same] at found

/-- While there is room, the other contacts stay. -/
theorem Filed.lookup_kept (filed : b.Filed) (few : b.entries.length < bucketSize) {key : String}
    {c : ContactProto} (found : b.lookup key = some c) (other : key ≠ k)
    (added : b.addContact order pastEnd now k ep = .ok b') : b'.lookup key = some c := by
  obtain ⟨rfl, e, member, rfl⟩ := mem_of_lookup found
  suffices stays : e ∈ b'.entries from (filed.addContact added).lookup_of_mem stays
  rcases addContact_cases filed.named added with
    ⟨-, rfl⟩ | ⟨-, -, ⟨-, rfl⟩ | ⟨pos, e', there, same, rfl⟩⟩
  · exact member
  · have space : ¬ bucketSize ≤ b.count (b.common k) :=
      not_le.mpr (lt_of_le_of_lt List.countP_le_length few)
    rw [if_neg space]
    exact (perm_insertEntry _ _).mem_iff.mpr (List.mem_cons_of_mem _ member)
  · obtain ⟨i, here⟩ := List.mem_iff_getElem?.mp member
    have apart : pos ≠ i := by
      rintro rfl
      rw [here, Option.some_inj] at there
      exact other (there ▸ same)
    apply List.mem_of_getElem? (i := i)
    rw [List.getElem?_set_ne apart, here]

end AddContact

/-! ## Runs -/

variable {keys : String → Prop} {own : String}

theorem Reached.filed (reach : Reached keys own b) : b.Filed := by
  induction reach with
  | new => exact Filed.new own
  | add _ _ added ih => exact ih.addContact added
  | erase _ pos ih => exact ih.eraseIdx pos
  | look _ k ih => exact ih.buildProximity k

theorem Reached.localKey_eq (reach : Reached keys own b) : b.localKey = own := by
  induction reach with
  | new => rfl
  | add reach _ added ih =>
    rcases addContact_cases reach.filed.named added with
      ⟨-, rfl⟩ | ⟨-, -, ⟨-, rfl⟩ | ⟨_, _, -, -, rfl⟩⟩ <;> exact ih
  | erase _ pos ih => exact ih
  | look _ k ih => rw [buildProximity_localKey, ih]

/-- `remove_contact` is a sequence of removals. -/
theorem Reached.removeContact {b' : Bucket} {ep : EndpointProto} (reach : Reached keys own b)
    (removed : b.removeContact ep = .ok b') : Reached keys own b' := by
  obtain ⟨left, done, after⟩ := bind_ok_iff.mp removed
  obtain rfl : { b with entries := left } = b' := Except.ok.inj after
  exact removeFrom_induction (J := fun es => Reached keys own { b with entries := es })
    (fun _ pos reach => reach.erase pos) reach done

/-- Whatever calls made the table, every contact is filed by the bits its key shares with
the local one, no key is there twice nor is the local one, and no bucket is over-full;
so `find_key` and `operator[]` answer for the whole table. -/
theorem reached_filed (reach : Reached (fun _ => True) own b) :
    (∀ e ∈ b.entries, e.1 = commonBits (stringToKey own) (stringToKey e.2.key)) ∧
    (b.entries.map (·.2.key)).Nodup ∧
    (∀ e ∈ b.entries, e.2.key ≠ own) ∧
    (∀ index, b.count index ≤ bucketSize) ∧
    ∀ k,
      ((∃ pos, b.findKey k = some pos) ↔ ∃ e ∈ b.entries, e.2.key = k) ∧
      (∀ pos, b.findKey k = some pos → ∃ e, b.entries[pos]? = some e ∧ e.2.key = k) ∧
      (∀ e ∈ b.entries, e.2.key = k → b.get k = .ok e.2.ep) ∧
      ((∀ e ∈ b.entries, e.2.key ≠ k) → b.get k = .error (.thrown "unknown key")) := by
  have filed := reach.filed
  obtain rfl := reach.localKey_eq
  refine ⟨filed.filed, filed.distinct, filed.others, filed.room, fun k => ⟨?_, ?_, ?_, ?_⟩⟩
  · rw [← Option.isSome_iff_exists, findKey_isSome, filed.lookup_isSome]
  · exact fun pos found => entry_of_findKey found
  · rintro e member rfl
    rw [Bucket.get, filed.lookup_of_mem member]
  · intro absent
    cases found : b.lookup k with
    | none => rw [Bucket.get, found]
    | some c =>
      obtain ⟨same, e, member, rfl⟩ := mem_of_lookup found
      exact absurd same (absent e member)

/-! ## A table -/

/-- Add contacts of one peer in turn, each at a second of its own. -/
def addAll (b : Bucket) (ep : EndpointProto) (calls : List (Int × String)) : Except Fault Bucket :=
  calls.foldlM (fun b call => b.addContact .rightFirst 100 (seconds call.1) call.2 ep) b

theorem Reached.addAll {ep : EndpointProto} {calls : List (Int × String)} {b' : Bucket}
    (reach : Reached keys own b) (allowed : ∀ call ∈ calls, keys call.2)
    (added : b.addAll ep calls = .ok b') : Reached keys own b' := by
  induction calls generalizing b with
  | nil =>
    obtain rfl : b = b' := Except.ok.inj added
    exact reach
  | cons call calls ih =>
    obtain ⟨b₁, first, rest⟩ := bind_ok_iff.mp added
    obtain ⟨now, later⟩ := List.forall_mem_cons.mp allowed
    exact ih (.add reach now first) later rest

/-- The entries of the table that calls made. -/
def made (own : String) (calls : List (Int × String)) : List (Nat × ContactProto) :=
  match (Bucket.new own).addAll ⟨"10.0.0.2", "4000"⟩ calls with
  | .ok b => b.entries
  | .error _ => []

theorem exists_made {calls : List (Int × String)} (allowed : ∀ call ∈ calls, keys call.2)
    (some : made own calls ≠ []) :
    ∃ b, (Bucket.new own).addAll ⟨"10.0.0.2", "4000"⟩ calls = .ok b ∧ b.entries = made own calls ∧
      Reached keys own b := by
  cases added : (Bucket.new own).addAll ⟨"10.0.0.2", "4000"⟩ calls with
  | error f => exact absurd (by simp [made, added]) some
  | ok b => exact ⟨b, rfl, by simp [made, added], .addAll .new allowed added⟩

/-- Five contacts of one bucket, the first of which is seen again. -/
def crowd : List (Int × String) := [(1, "80"), (2, "81"), (3, "82"), (4, "83"), (5, "84"), (6, "80")]

/-- Another contact makes one of them go, and there is one in a bucket of its own. What is left is
found, and nothing else. -/
theorem reached_filed_evicted : ∃ b, Reached (fun _ => True) "00" b ∧ b.common "40" ≠ b.common "85" ∧
    (Bucket.new "00").addAll ⟨"10.0.0.2", "4000"⟩ (crowd ++ [(7, "85"), (8, "40")]) = .ok b ∧
    (∃ pos, b.findKey "40" = some pos) ∧ b.get "85" = .ok ⟨"10.0.0.2", "4000"⟩ ∧
    b.get "80" = .error (.thrown "unknown key") := by
  obtain ⟨some, ⟨e, there, key⟩, ⟨e', there', key', ep⟩, gone⟩ :
      made "00" (crowd ++ [(7, "85"), (8, "40")]) ≠ [] ∧
      (∃ e ∈ made "00" (crowd ++ [(7, "85"), (8, "40")]), e.2.key = "40") ∧
      (∃ e ∈ made "00" (crowd ++ [(7, "85"), (8, "40")]), e.2.key = "85" ∧ e.2.ep = ⟨"10.0.0.2", "4000"⟩) ∧
      ∀ e ∈ made "00" (crowd ++ [(7, "85"), (8, "40")]), e.2.key ≠ "80" := by decide +kernel
  obtain ⟨b, added, entries, reach⟩ := @exists_made (fun _ => True) _ _ (fun _ _ => trivial) some
  obtain ⟨-, -, -, -, whole⟩ := reached_filed reach
  rw [← entries] at there there' gone
  refine ⟨b, reach, ?_, added, (whole "40").1.mpr ⟨e, there, key⟩, ?_, (whole "80").2.2.2 gone⟩
  · have apart : (Bucket.new "00").common "40" ≠ (Bucket.new "00").common "85" := by decide +kernel
    rwa [Bucket.common, Bucket.common, reach.localKey_eq]
  · rw [(whole "85").2.2.1 e' there' key', ep]

end Bucket

end MiniDht
