import MiniDht.Bucket.Proximity
import MiniDht.Node.Invariants
import MiniDht.Node.Sane

/-!
# What a node knows of others

Contacts reach a node with packets, and go from its contact list to its searches and to its
answers. What it passes on is as good as what it was told (`Truthful`); its contact list is
always one that `bucket` makes (`Reachable.table`); and a new search starts from all of it
(`startNodeLookup_whole`).
-/

namespace MiniDht

open Lib

namespace Node

/-! ## Hearsay -/

section Truthful

variable {genuine : String → EndpointProto → Prop} {own : String}

/-- A message as the node `own` sends it: it names its sender, and every contact in it is
genuine. -/
def TruthfulMessage (genuine : String → EndpointProto → Prop) (own : String) (m : MessageProto) :
    Prop :=
  m.fromId = own ∧ ∀ c ∈ m.contactList, genuine c.key c.ep

/-- Whatever the node `own` keeps about others, or has ever sent about them, is genuine. -/
structure Truthful (genuine : String → EndpointProto → Prop) (own : String) (s : Node) : Prop where
  id : s.id = own
  table : Bucket.Reached (fun _ => True) own s.contactList
  contacts : ∀ e ∈ s.contactList.entries, genuine e.2.key e.2.ep
  searches : ∀ t q, s.mapSearch t = some q → ∀ c ∈ q.shortList, genuine c.key c.ep
  sent : ∀ e ∈ s.log, TruthfulMessage genuine own e.message

theorem Truthful.initial (key : BitVec keySize) (maxRecords : Nat) (storage : Tables)
    (contacts : Contacts) :
    Truthful genuine (keyToString key) (Node.initial key maxRecords storage contacts) where
  id := rfl
  table := .new
  contacts _ member := by cases member
  searches _ _ found := by cases found
  sent _ member := by cases member

/-- A change under one token leaves what is known of the other searches. -/
theorem searches_update {f : Token → Option Search} {P : Search → Prop} {t : Token}
    {o : Option Search} (old : ∀ t' q, f t' = some q → P q) (new : ∀ q, o = some q → P q) :
    ∀ t' q, Function.update f t o t' = some q → P q := by
  intro t' q found
  by_cases same : t' = t
  · subst same
    rw [Function.update_self] at found
    exact new q found
  · rw [Function.update_of_ne same] at found
    exact old t' q found

theorem Truthful.allows {w : World} :
    Allows w (Truthful genuine own) (TruthfulMessage genuine own) genuine where
  toNotes := by
    refine .of_book (fun _ _ _ _ _ h => ⟨h.id, h.table, h.contacts, h.searches, h.sent⟩) ?_ ?_
    · intro s e h fit
      refine ⟨h.id, h.table, h.contacts, h.searches, fun e' member => ?_⟩
      rcases List.mem_append.mp member with old | new
      · exact h.sent e' old
      · rw [List.mem_singleton.mp new]
        exact fit
    · intro s m h sender some
      refine ⟨sender.trans h.id, fun c member => ?_⟩
      obtain ⟨e, there, rfl⟩ := List.mem_map.mp (some member)
      exact h.contacts e there
  backup _ _ h := ⟨h.id, h.table, h.contacts, h.searches, h.sent⟩
  search s t q h held := ⟨h.id, h.table, h.contacts,
    searches_update h.searches (fun _ same => Option.some.inj same ▸ held), h.sent⟩
  done s t h := ⟨h.id, h.table, h.contacts,
    searches_update h.searches (fun _ nothing => by cases nothing), h.sent⟩
  held s t q h found := h.searches t q found
  add s order pastEnd now k ep b h offered added := by
    refine ⟨h.id, h.table.add trivial added, fun e member => ?_, h.searches, h.sent⟩
    rcases Bucket.addContact_cases h.table.filed.named added with
      ⟨-, rfl⟩ | ⟨-, -, ⟨-, rfl⟩ | ⟨pos, e', -, -, rfl⟩⟩
    · exact h.contacts e member
    · rcases Bucket.mem_insertEntry member with rfl | old
      · exact offered
      · exact h.contacts e (by split at old; exacts [List.mem_of_mem_eraseIdx old, old])
    · rcases List.mem_or_eq_of_mem_set member with old | rfl
      · exact h.contacts e old
      · exact offered
  drop s pos h := ⟨h.id, h.table.erase pos,
    fun e member => h.contacts e (List.mem_of_mem_eraseIdx member), h.searches, h.sent⟩
  look s k h := by
    refine ⟨h.id, h.table.look k, fun e member => ?_, h.searches, h.sent⟩
    rw [Bucket.buildProximity_entries] at member
    exact h.contacts e member
  listed s h := h.contacts

/-- An input that tells the node the truth leaves it truthful, however it ends. -/
theorem Truthful.run {w : World} {input : Input} (tells : input.Tells genuine w) :
    Act.Keeps (Truthful genuine own) (input.run w) :=
  Truthful.allows.run (fun _ _ h => ⟨h.id, h.table, h.contacts, h.searches, h.sent⟩)
    (fun _ _ h => ⟨h.id, h.table, h.contacts, h.searches, h.sent⟩)
    (fun _ _ h => ⟨h.id, h.table, h.contacts, h.searches, h.sent⟩) tells

theorem Truthful.restoreFromBackup {w : World} :
    Act.Keeps (Truthful genuine own) (Node.restoreFromBackup w) :=
  .bind (Truthful.allows (w := w).onBackup _) fun _ => Truthful.allows.pingBackup _

end Truthful

/-- The contact list of a node is the work of `add_contact`, removals and lookups. -/
theorem Reachable.table {w : World} {s : Node} (reach : Reachable w s) :
    Bucket.Reached (fun _ => True) s.id s.contactList := by
  suffices truthful : ∃ own, Truthful (fun _ _ => True) own s by
    obtain ⟨own, truthful⟩ := truthful
    rw [truthful.id]
    exact truthful.table
  induction reach with
  | @start key maxRecords storage contacts s run =>
    have kept := Truthful.restoreFromBackup (w := w) _
      (Truthful.initial key maxRecords storage contacts : Truthful (fun _ _ => True) _ _)
    rw [run] at kept
    exact ⟨_, kept⟩
  | @step s s' input out reach run survives ih =>
    obtain ⟨own, truthful⟩ := ih
    have tells : input.Tells (fun _ _ => True) w := by
      cases input with
      | receive ep body => exact ⟨trivial, fun _ _ => trivial⟩
      | _ => trivial
    have kept := Truthful.run tells s truthful
    rw [run] at kept
    exact ⟨own, kept⟩

/-! ## Starting a search -/

/-- Whatever keys were looked up before, and whatever was removed since, the first round of
a search is run on one contact for each entry of the contact list, with its endpoint. -/
theorem startNodeLookup_whole {own : String} {s : Node}
    (reach : Bucket.Reached Canonical own s.contactList) (w : World) (t : Token) (k : String) :
    ∃ lc, proximityContacts (s.proximate k).contactList
        ((s.proximate k).contactList.mapProximity.toList.map Prod.snd) = .ok lc ∧
      Act.exec (startNodeLookup w t k) s = Act.exec (replyIterative w lc t k) (s.proximate k) ∧
      lc.Perm (s.contactList.entries.map fun e =>
        ({ key := e.2.key, ep := e.2.ep } : ContactProto)) := by
  refine ⟨s.contactList.proximity k, ?_, exec_startNodeLookup reach.filed.named,
    reach.proximity_perm k⟩
  have lookup (key : String) : (s.contactList.buildProximity k).lookup key =
      s.contactList.lookup key := Bucket.lookup_congr (by simp) (by simp) key
  have read := proximityContacts_eq (reach.look k).filed.named
    ((s.proximate k).contactList.mapProximity.toList.map Prod.snd)
  simp only [lookup] at read
  exact read

/-- A contact is removed after a lookup of another key, and is still on the cached map: a search starts
from the one that is left. -/
theorem startNodeLookup_whole_stale : ∃ list : Bucket, list.changed = false ∧
    keyToString 2 ∈ Index.values list.mapProximity ∧ list.lookup (keyToString 2) = none ∧
    let s : Node := { initial 1 10 {} [] with contactList := list }
    ∃ lc, Act.exec (startNodeLookup (.simple []) 0 "0c") s =
        Act.exec (replyIterative (.simple []) lc 0 "0c") (s.proximate "0c") ∧
      lc.Perm [{ key := keyToString 4, ep := ⟨"10.0.0.2", "4000"⟩ }] := by
  let calls : List (Int × String) := [(1, keyToString 4), (2, keyToString 2)]
  let ep : EndpointProto := ⟨"10.0.0.2", "4000"⟩
  have two : Bucket.made (keyToString 1) calls =
      [(5, Bucket.newContact (seconds 1) (keyToString 4) ep),
        (6, Bucket.newContact (seconds 2) (keyToString 2) ep)] := by
    decide +kernel
  obtain ⟨b, -, entries, reach⟩ := @Bucket.exists_made Canonical (keyToString 1) calls
    (by simp [calls, canonical_keyToString]) (fun none => by rw [two] at none; cases none)
  rw [two] at entries
  have looked := reach.look "0b"
  have unchanged := Bucket.buildProximity_changed b "0b"
  obtain ⟨-, cached⟩ := looked.cached unchanged
  have left := looked.erase 1
  rw [Bucket.buildProximity_entries, entries] at cached left
  generalize b.buildProximity "0b" = b' at unchanged cached left
  let list : Bucket := { b' with entries := [(5, Bucket.newContact (seconds 1) (keyToString 4) ep)] }
  have reach' : Bucket.Reached Canonical (keyToString 1) list := left
  refine ⟨list, unchanged, cached _ (List.mem_cons_of_mem _ (List.mem_singleton_self _)), ?_, ?_⟩
  · cases found : list.lookup (keyToString 2) with
    | none => rfl
    | some c =>
      obtain ⟨key, e, member, rfl⟩ := Bucket.mem_of_lookup found
      rw [List.mem_singleton.mp member] at key
      exact absurd key (by decide +kernel)
  · intro s
    have reached : Bucket.Reached Canonical (keyToString 1) s.contactList := reach'
    obtain ⟨lc, -, run, whole⟩ := startNodeLookup_whole reached (.simple []) 0 "0c"
    exact ⟨lc, run, whole⟩

end Node

end MiniDht
