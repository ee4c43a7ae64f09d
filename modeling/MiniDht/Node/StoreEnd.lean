import MiniDht.Node.Meeting

/-!
# The end of a store search

When `update_list` finds that a store search is over, its item goes to everybody on the
short list, nearest first, and the search is erased.
-/

namespace MiniDht

open Lib

/-- A short list stands nearest first. -/
theorem Search.Fit.sorted {q : Search} (fit : q.Fit) :
    q.shortList.Pairwise fun a b =>
      distTo (stringToKey q.destination) (nodeId a) < distTo (stringToKey q.destination) (nodeId b) := by
  have sorted := fit.nearest.sorted
  rwa [Search.ids, List.pairwise_map] at sorted

namespace Node

variable {w : World} {s : Node} {t : Token} {q q' : Search} {k : String} {lc : List ContactProto}

/-- A store search as `replyIterativeStoreSearch` finds it: one that a node has come to have
in its map, or one that has just begun. -/
inductive StoreSearch (w : World) : Search → Prop where
  | held {s : Node} {t : Token} {q : Search} (reach : Reachable w s)
      (here : s.mapSearch t = some q) (store : q.searchType = .store) : StoreSearch w q
  | begun (id k : String) (b : DataItemProto) :
      StoreSearch w { Search.new id k .store with buffer := b }

theorem StoreSearch.ready (search : StoreSearch w q) : q.Ready ∧ q.searchType = .store := by
  cases search with
  | held reach here store => exact ⟨reach.sane.ready _ _ here, store⟩
  | begun id k b => exact ⟨store_ready id k b, rfl⟩

/-- The loop that stores ends, in the same state for every bound that it does not reach. -/
theorem storeAll_ends (ready : q.Ready) (named : s.contactList.Named)
    (short : zeroId ∉ Search.keys q.shortList) :
    ∃ s', ∀ n, q.shortList.length < n →
      Act.exec (storeAll w t k n) (s.withSearch t q) = (.ok (), s') := by
  refine ⟨((s.withSearch t q).notedAll t q.buffer (Search.until0 q.shortList)).withSearch t
    (q.stores (Search.until0 q.shortList)) |>.logged
      (storeEvents w (s.withSearch t q) t k q.buffer (Search.until0 q.shortList)),
    fun n enough => ?_⟩
  rw [exec_storeAll withSearch_at ready.toFit (by simp [ready.unsent]) named
    (by rwa [ready.unstored]), ready.unstored, if_neg short]

/-- **The end of a store search.** When `update_list` returns true, the loop that stores ends
and `replyIterativeStoreSearch` returns: it has sent the item of the search to each contact
of the short list once, nearest to the destination first, and has erased the search. -/
theorem store_ends (search : StoreSearch w q) (here : s.mapSearch t = some q)
    (named : s.contactList.Named) (offered : Search.AllNamed lc)
    (short : zeroId ∉ Search.keys q.shortList) (nonzero : zeroId ∉ Search.keys lc)
    (keyed : k ≠ zeroId) (settled : q.updateList lc = .ok (true, q')) :
    (∃ s₁, ∀ n, q'.shortList.length < n →
      Act.exec (storeAll w t k n) (s.withSearch t q') = (.ok (), s₁)) ∧
    ∃ s', Act.exec (replyIterativeStoreSearch w lc t k) s = (.ok (), s') ∧
      s'.mapSearch t = none ∧
      requests (s.since s') =
        (Search.keys q'.shortList).map (fun key => storeMessage s.id key k q.buffer t) ∧
      (Search.keys q'.shortList).Nodup ∧
      q'.shortList.Pairwise fun a b => distTo (stringToKey q.destination) (nodeId a) <
        distTo (stringToKey q.destination) (nodeId b) := by
  obtain ⟨ready, store⟩ := search.ready
  rw [Search.updateList_eq ready.named offered, Except.ok.injEq, Prod.mk.injEq] at settled
  obtain ⟨finished, rfl⟩ := settled
  have ended : q.ends lc = true := by rw [Search.ends_of_ne (by simp [store]), finished]
  have picks : q.picks lc = (q.offer lc).shortList := by simp [Search.picks, ended, store]
  have ready' := ready.offer offered
  have safe : RoundSafe q lc k := roundSafe_of_nonzero short nonzero fun _ => keyed
  obtain ⟨s', run, log, after⟩ := isRound_store (w := w) (k := k) here ready offered named store
  obtain rfl := after safe
  rw [if_pos safe] at run
  refine ⟨storeAll_ends ready' named (picks ▸ safe.1), _, run, ?_, ?_, ready'.keys_nodup, ?_⟩
  · rw [logged_mapSearch, afterRound_at, ended, if_pos rfl]
  · rw [since_of_log (by rw [logged_log, log]), requests_roundEvents, taken_safe safe, picks]
    exact List.map_congr_left fun key _ => by simp [roundMessage, store, ended]
  · have sorted := ready'.sorted
    rwa [Search.offer_destination] at sorted

/-- A peer that has been asked names itself, and the item goes to it. -/
theorem store_ends_asked :
    ∃ (s : Node) (q q' : Search) (t : Token), s.mapSearch t = some q ∧
      q.updateList [peerA] = .ok (true, q') ∧
      (∃ s₁, ∀ n, q'.shortList.length < n →
        Act.exec (storeAll .pinged t "0c" n) (s.withSearch t q') = (.ok (), s₁)) ∧
      ∃ s', Act.exec (replyIterativeStoreSearch .pinged [peerA] t "0c") s = (.ok (), s') ∧
        s'.mapSearch t = none ∧
        requests (s.since s') =
          (Search.keys q'.shortList).map (fun key => storeMessage s.id key "0c" q.buffer t) ∧
        (Search.keys q'.shortList).Nodup ∧
        q'.shortList.Pairwise fun a b => distTo (stringToKey q.destination) (nodeId a) <
          distTo (stringToKey q.destination) (nodeId b) := by
  obtain ⟨s₀, s, q, -, asked⟩ := askedOne_simple
  have ready := asked.reach.sane.ready _ _ asked.here
  have offered : Search.AllNamed [peerA] := by
    intro c member
    rw [List.mem_singleton.mp member]
    decide +kernel
  have finished : q.settled [peerA] = true := by
    rw [← Search.ends_of_ne (by simp [asked.store])]
    exact Search.ends_again asked.list asked.busy asked.store rfl
  have settled : q.updateList [peerA] = .ok (true, q.offer [peerA]) := by
    rw [Search.updateList_eq ready.named offered, finished]
  exact ⟨s, q, _, _, asked.here, settled,
    store_ends (.held asked.reach asked.here asked.store) asked.here asked.reach.sane.named offered
      (by rw [asked.list]; decide +kernel) (by decide +kernel) (by decide +kernel) settled⟩

end Node

end MiniDht
