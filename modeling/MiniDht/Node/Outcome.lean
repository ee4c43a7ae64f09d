import MiniDht.Node.Meeting

/-!
# Whom a store search stores to

The replies to a store search may come in any order and in any packets. What it stores to
are the closest of all the contacts that reached it (`replied_closest`); which packets
reach it depends on the order, since the one that ends it makes the later ones void.
-/

namespace MiniDht

open Lib

namespace Search

/-- The contact lists that reach a search: the one that ends it is the last. -/
def consumed (s : Search) : List (List ContactProto) → List (List ContactProto)
  | [] => []
  | lc :: rest => if s.ends lc then [lc] else lc :: (s.next lc).consumed rest

/-- What is left of a search by contact lists. -/
def after (s : Search) : List (List ContactProto) → Option Search
  | [] => some s
  | lc :: rest => if s.ends lc then none else (s.next lc).after rest

end Search

namespace Node

/-- The ids that keys stand for. -/
def keyIds (ks : List String) : Finset (BitVec keySize) := (ks.map stringToKey).toFinset

theorem keyIds_keys (lc : List ContactProto) : keyIds (Search.keys lc) = idSet lc := by
  rw [keyIds, idSet, Search.keys, List.map_map]
  rfl

/-- A run in which replies with the token `t` are handled: their contact lists, and the
keys they called `send_STORE` for. In between the node may do anything that leaves the
search alone. -/
inductive Replied (w : World) (t : Token) :
    Node → List (List ContactProto) → List String → Node → Prop where
  | done {s : Node} : Replied w t s [] [] s
  | reply {s s₁ s' : Node} {m : MessageProto} {lcs : List (List ContactProto)} {stored : List String}
      (token : m.token = t) (run : Act.exec (handleReplyFindNode w m) s = (.ok (), s₁))
      (rest : Replied w t s₁ lcs stored s') :
      Replied w t s (m.contactList :: lcs) (recipients .sendStore t (s.since s₁) ++ stored) s'
  | other {s s₁ s' : Node} {input : Input} {out : Except Fault Unit}
      {lcs : List (List ContactProto)} {stored : List String}
      (run : Act.exec (input.run w) s = (out, s₁)) (survives : Survives out)
      (untouched : s₁.mapSearch t = s.mapSearch t) (rest : Replied w t s₁ lcs stored s') :
      Replied w t s lcs stored s'

variable {w : World} {s s' : Node} {t : Token} {q : Search} {lcs : List (List ContactProto)}
  {stored : List String}

/-- A reply for a search that is gone does nothing. -/
theorem replied_late (run : Replied w t s lcs stored s') (gone : s.mapSearch t = none) :
    stored = [] := by
  induction run with
  | done => rfl
  | @reply s s₁ s' m lcs stored token run _ ih =>
    subst token
    obtain rfl := reply_unknown gone run
    rw [ih gone]
    simp [since, recipients, requests]
  | other _ _ untouched _ ih => exact ih (untouched.trans gone)

theorem replies_late (lcs : List (List ContactProto)) (gone : s.mapSearch t = none) :
    ∃ s' stored, Replied w t s lcs stored s' ∧ s'.mapSearch t = none := by
  induction lcs with
  | nil => exact ⟨s, [], .done, gone⟩
  | cons lc rest ih =>
    obtain ⟨s', stored, late, still⟩ := ih
    have run := exec_handleReplyFindNode_unknown (w := w) (m := { token := t, contactList := lc }) gone
    exact ⟨s', _, .reply rfl run late, still⟩

/-- **What a store search stores to.** If the replies end the search, `send_STORE` was
called for the closest ids among those on the short list and those that reached it. -/
theorem replied_closest (run : Replied w t s lcs stored s') (sane : s.Sane)
    (here : s.mapSearch t = some q) (store : q.searchType = .store)
    (ended : s'.mapSearch t = none) :
    ∃ l, keyIds stored = l.toFinset ∧
      Closest bucketSize (distTo (stringToKey q.destination))
        (q.ids.toFinset ∪ idSet (q.consumed lcs).flatten) l := by
  induction run generalizing q with
  | done =>
    rw [here] at ended
    cases ended
  | @reply s s₁ s' m lcs stored token run rest ih =>
    subst token
    have ready := sane.ready _ _ here
    have closest := q.offer_closest ready.nearest m.contactList
    have after := reply_search sane here run
    have kept := reply_sane sane run
    rw [reply_recipients sane here run (by decide)]
    cases stop : q.ends m.contactList with
    | true =>
      rw [stop] at after
      refine ⟨(q.offer m.contactList).ids, ?_, ?_⟩
      · simp only [roundType, store, stop, if_true, replied_late rest after, List.append_nil,
          Search.picks]
        rw [keyIds_keys]
        rfl
      · simpa [Search.consumed, stop] using closest
    | false =>
      rw [stop] at after
      simp only [Bool.false_eq_true, if_false] at after
      obtain ⟨l, same, final⟩ := ih kept after (by simpa using store) ended
      refine ⟨l, ?_, ?_⟩
      · simpa [roundType, store, stop] using same
      · rw [Search.next_destination, Search.next_ids] at final
        have all := closest.merge final
        simpa [Search.consumed, stop, idSet_append, Finset.union_assoc] using all
  | @other s s₁ s' input out lcs stored run survives untouched _ ih =>
    have kept := sane.input input run survives
    exact ih kept (untouched.trans here) store ended

/-! ## Two orders of two packets -/

/-- Replies on which everything is in order are all handled to their ends. -/
theorem replies_return {k : String} (keyed : k ≠ zeroId) (sane : s.Sane)
    (here : s.mapSearch t = some q) (nonzero : zeroId ∉ Search.keys q.shortList)
    (offered : ∀ lc ∈ lcs, Search.AllNamed lc ∧ zeroId ∉ Search.keys lc) :
    ∃ s' stored, Replied w t s lcs stored s' ∧ s'.mapSearch t = q.after lcs := by
  induction lcs generalizing s q with
  | nil => exact ⟨s, [], .done, here⟩
  | cons lc rest ih =>
    obtain ⟨named, zero⟩ := offered lc List.mem_cons_self
    let m : MessageProto :=
      { type := .replyFindNode, toId := k, token := t, contactList := lc }
    have list : zeroId ∉ Search.keys (q.offer lc).shortList := by
      intro there
      obtain ⟨c, member, none⟩ := List.mem_map.mp there
      rcases Search.mem_offer member with old | new
      · exact nonzero (none ▸ List.mem_map_of_mem old)
      · exact zero (none ▸ List.mem_map_of_mem new)
    have safe : RoundSafe q m.contactList m.toId :=
      roundSafe_of_nonzero nonzero zero fun _ => keyed
    obtain ⟨s₁, run, kept⟩ := reply_returns (w := w) (m := m) sane here named zero safe
    have after := reply_search (m := m) sane here run
    cases stop : q.ends lc with
    | true =>
      rw [show q.ends m.contactList = true from stop, if_pos rfl] at after
      obtain ⟨s', stored, late, gone⟩ := replies_late (w := w) rest after
      exact ⟨s', _, .reply rfl run late, by rw [gone, Search.after, if_pos stop]⟩
    | false =>
      rw [show q.ends m.contactList = false from stop] at after
      obtain ⟨s', stored, later, left⟩ := ih kept (q := q.next lc) after list
        fun lc' member => offered lc' (List.mem_cons_of_mem _ member)
      exact ⟨s', _, .reply rfl run later, by rw [left, Search.after, stop]; rfl⟩

/-- Where there are few contacts a store search stores to all of them. -/
theorem replied_all {stored : List String} (run : Replied w t s lcs stored s') (sane : s.Sane)
    (here : s.mapSearch t = some q) (store : q.searchType = .store)
    (ended : s'.mapSearch t = none)
    (few : (q.ids.toFinset ∪ idSet (q.consumed lcs).flatten).card ≤ bucketSize) :
    keyIds stored = q.ids.toFinset ∪ idSet (q.consumed lcs).flatten := by
  obtain ⟨l, same, closest⟩ := replied_closest run sane here store ended
  rw [same, closest.covers few]

/-- A search that has asked its one contact `a`, and what packets with `a` and another
contact `b` make of it. -/
theorem two_orders {a b : ContactProto} {k : String} (keyed : k ≠ zeroId) (sane : s.Sane)
    (here : s.mapSearch t = some q) (store : q.searchType = .store) (list : q.shortList = [a])
    (busy : q.mapNodeBusy = {a.key}) (named : a.ep.Named ∧ b.ep.Named)
    (nonzero : a.key ≠ zeroId ∧ b.key ≠ zeroId) (apart : nodeId a ≠ nodeId b) :
    (∃ s' stored, Replied w t s [[a]] stored s' ∧ s'.mapSearch t = none) ∧
      (∃ s' stored, Replied w t s [[a], [b]] stored s' ∧ s'.mapSearch t = none ∧
        keyIds stored = {nodeId a}) ∧
      ∃ s' stored, Replied w t s [[b], [a]] stored s' ∧ s'.mapSearch t = none ∧
        keyIds stored = {nodeId a, nodeId b} := by
  have ready := sane.ready t q here
  have again := Search.ends_again list busy store (c := a) rfl
  obtain ⟨goes, -⟩ := Search.ends_other ready list busy apart
  have last := Search.ends_last ready list busy store apart
  have zero : zeroId ∉ Search.keys q.shortList := by
    simpa [list, Search.keys] using Ne.symm nonzero.1
  have good (lcs : List (List ContactProto)) (only : ∀ lc ∈ lcs, lc = [a] ∨ lc = [b]) :
      ∀ lc ∈ lcs, Search.AllNamed lc ∧ zeroId ∉ Search.keys lc := by
    intro lc member
    rcases only lc member with rfl | rfl
    · simpa [Search.AllNamed, Search.keys] using ⟨named.1, Ne.symm nonzero.1⟩
    · simpa [Search.AllNamed, Search.keys] using ⟨named.2, Ne.symm nonzero.2⟩
  obtain ⟨s₀, stored₀, run₀, left₀⟩ := replies_return (w := w) keyed sane here zero
    (good [[a]] (by simp))
  obtain ⟨s₁, stored₁, run₁, left₁⟩ := replies_return (w := w) keyed sane here zero
    (good [[a], [b]] (by simp))
  obtain ⟨s₂, stored₂, run₂, left₂⟩ := replies_return (w := w) keyed sane here zero
    (good [[b], [a]] (by simp))
  rw [Search.after, again] at left₀ left₁
  rw [Search.after, goes] at left₂
  simp only [Bool.false_eq_true, if_false, Search.after, last] at left₂
  refine ⟨⟨s₀, stored₀, run₀, left₀⟩, ⟨s₁, stored₁, run₁, left₁, ?_⟩, s₂, stored₂, run₂, left₂, ?_⟩
  · have reached : q.consumed [[a], [b]] = [[a]] := by rw [Search.consumed, again, if_pos rfl]
    have all : q.ids.toFinset ∪ idSet (q.consumed [[a], [b]]).flatten = {nodeId a} := by
      rw [Search.ids, list, reached]
      exact Finset.union_self _
    rw [replied_all run₁ sane here store left₁ (by rw [all, Finset.card_singleton]; decide), all]
  · have reached : q.consumed [[b], [a]] = [[b], [a]] := by
      simp only [Search.consumed, goes, last, if_true, Bool.false_eq_true, if_false]
    have all : q.ids.toFinset ∪ idSet (q.consumed [[b], [a]]).flatten = {nodeId a, nodeId b} := by
      have ids : idSet [b, a] = {nodeId a, nodeId b} := by
        rw [Finset.pair_comm]
        simp [idSet]
      rw [reached, show [[b], [a]].flatten = [b, a] from rfl, ids, Search.ids, list,
        List.map_singleton, List.toFinset_cons, List.toFinset_nil, insert_empty_eq,
        Finset.singleton_union, Finset.insert_idem]
    have pair : ({nodeId a, nodeId b} : Finset (BitVec keySize)).card = 2 := Finset.card_pair apart
    rw [replied_all run₂ sane here store left₂ (by rw [all, pair]; decide), all]

/-- **The outcome of a store search.** If two sequences of replies both end the search, and
the contacts in the packets up to the one that ends it have the same ids, `send_STORE` is
called for the same ids. -/
theorem outcome_same {lcs' : List (List ContactProto)} {stored stored' : List String} {s'' : Node}
    (reach : Reachable w s) (here : s.mapSearch t = some q) (store : q.searchType = .store)
    (first : Replied w t s lcs stored s') (ended : s'.mapSearch t = none)
    (second : Replied w t s lcs' stored' s'') (ended' : s''.mapSearch t = none)
    (same : idSet (q.consumed lcs).flatten = idSet (q.consumed lcs').flatten) :
    keyIds stored = keyIds stored' := by
  obtain ⟨l, ids, closest⟩ := replied_closest first reach.sane here store ended
  obtain ⟨l', ids', closest'⟩ := replied_closest second reach.sane here store ended'
  rw [← same] at closest'
  rw [ids, ids', closest.unique closest']

/-- What follows the packet that ends the search makes no difference. -/
theorem outcome_same_tail :
    ∃ (t : Token) (s s₁ s₂ : Node) (stored₁ stored₂ : List String), Reachable .pinged s ∧
      Replied .pinged t s [[peerA], [peerB]] stored₁ s₁ ∧ Replied .pinged t s [[peerA]] stored₂ s₂ ∧
        keyIds stored₁ = keyIds stored₂ := by
  obtain ⟨s₀, s, q, -, asked⟩ := askedOne_simple
  have again := Search.ends_again asked.list asked.busy asked.store (c := peerA) rfl
  obtain ⟨⟨s₂, stored₂, run₂, gone₂⟩, ⟨s₁, stored₁, run₁, gone₁, -⟩, -⟩ :=
    two_orders (b := peerB) (k := "0c") (by decide +kernel) asked.reach.sane asked.here asked.store
      asked.list asked.busy (by decide) (by decide +kernel) (by decide +kernel)
  have same : idSet (q.consumed [[peerA], [peerB]]).flatten = idSet (q.consumed [[peerA]]).flatten := by
    have reached (rest : List (List ContactProto)) : q.consumed ([peerA] :: rest) = [[peerA]] := by
      rw [Search.consumed]
      exact if_pos again
    rw [reached, reached]
  exact ⟨_, s, s₁, s₂, stored₁, stored₂, asked.reach, run₁, run₂,
    outcome_same asked.reach asked.here asked.store run₁ gone₁ run₂ gone₂ same⟩

/-- Two packets, in two orders: the search that sees the contact it has asked first ends
there and stores to it alone. -/
theorem outcome_other_order :
    ∃ (t : Token) (q : Search) (s s₁ s₂ : Node) (stored₁ stored₂ : List String),
      Reachable .pinged s ∧ s.mapSearch t = some q ∧ q.searchType = .store ∧
        Replied .pinged t s [[peerA], [peerB]] stored₁ s₁ ∧ s₁.mapSearch t = none ∧
        Replied .pinged t s [[peerB], [peerA]] stored₂ s₂ ∧ s₂.mapSearch t = none ∧
        keyIds stored₁ ≠ keyIds stored₂ := by
  obtain ⟨s₀, s, q, -, asked⟩ := askedOne_simple
  have apart : nodeId peerA ≠ nodeId peerB := by decide +kernel
  obtain ⟨-, ⟨s₁, stored₁, run₁, gone₁, ids₁⟩, s₂, stored₂, run₂, gone₂, ids₂⟩ :=
    two_orders (k := "0c") (by decide +kernel) asked.reach.sane asked.here asked.store asked.list
      asked.busy (by decide) (by decide +kernel) apart
  refine ⟨_, q, s, s₁, s₂, stored₁, stored₂, asked.reach, asked.here, asked.store, run₁, gone₁, run₂,
    gone₂, ?_⟩
  rw [ids₁, ids₂]
  intro same
  have member : nodeId peerB ∈ ({nodeId peerA} : Finset (BitVec keySize)) := same ▸ by simp
  exact apart (Finset.mem_singleton.mp member).symm

end Node

end MiniDht
