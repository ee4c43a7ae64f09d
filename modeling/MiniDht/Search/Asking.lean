import Mathlib.Data.List.TakeWhile
import MiniDht.Search.ShortList

/-!
# Who is asked next

`get_node_key` and `get_value_key` give out the first contact that is not busy, so a loop
over them walks through the `free` contacts in order. It runs into an assert when it
comes to a contact under the zero id.
-/

namespace MiniDht

open Lib

namespace Search

/-- The contacts that are not busy. -/
def free (busy : Finset String) (lc : List ContactProto) : List ContactProto :=
  lc.filter fun c => c.key ∉ busy

theorem free_nil_iff {busy : Finset String} {lc : List ContactProto} :
    free busy lc = [] ↔ ∀ c ∈ lc, c.key ∈ busy := by
  simp [free, List.filter_eq_nil_iff]

theorem free_subset {busy : Finset String} {lc : List ContactProto} {c : ContactProto}
    (member : c ∈ free busy lc) : c ∈ lc ∧ c.key ∉ busy := by
  simpa [free] using member

/-- The keys of the contacts. -/
def keys (lc : List ContactProto) : List String := lc.map (·.key)

/-- The contacts before the first under the zero id. -/
def until0 (lc : List ContactProto) : List ContactProto :=
  lc.takeWhile fun c => c.key ≠ zeroId

@[simp] theorem until0_nil : until0 [] = [] := rfl

@[simp] theorem until0_zero {c : ContactProto} {lc : List ContactProto} (zero : c.key = zeroId) :
    until0 (c :: lc) = [] := by
  simp [until0, zero]

theorem until0_cons {c : ContactProto} {lc : List ContactProto} (nonzero : c.key ≠ zeroId) :
    until0 (c :: lc) = c :: until0 lc := by
  simp [until0, nonzero]

theorem until0_eq {lc : List ContactProto} (nonzero : zeroId ∉ keys lc) : until0 lc = lc := by
  rw [until0, List.takeWhile_eq_self_iff]
  intro c member
  have other : c.key ≠ zeroId := fun zero => nonzero (zero ▸ List.mem_map_of_mem member)
  simpa using other

/-- Once the first free contact is busy, the others are the free ones. -/
theorem free_insert {busy : Finset String} {lc rest : List ContactProto} {c : ContactProto}
    (distinct : (keys lc).Nodup) (first : free busy lc = c :: rest) :
    free (insert c.key busy) lc = rest := by
  have again : free (insert c.key busy) lc = (free busy lc).filter fun d => d.key ≠ c.key := by
    rw [free, free, List.filter_filter]
    apply List.filter_congr
    intro d _
    simp [Finset.mem_insert, not_or]
  have apart : (keys (c :: rest)).Nodup := by
    rw [← first]
    exact distinct.sublist (List.filter_sublist.map _)
  have others : ∀ d ∈ rest, d.key ≠ c.key := by
    intro d member same
    exact (List.nodup_cons.mp apart).1 (List.mem_map.mpr ⟨d, member, same⟩)
  rw [again, first, List.filter_cons_of_neg (by simp), List.filter_eq_self]
  simpa using others

theorem firstFree_eq {missing : Fault} {busy : Finset String} {lc : List ContactProto}
    (named : AllNamed lc) (safe : zeroId ∉ busy) :
    firstFree missing busy lc =
      match free busy lc with
      | [] => .error missing
      | c :: _ => if c.key = zeroId then .error .assertion else .ok c.key := by
  induction lc with
  | nil => rfl
  | cons c lc ih =>
    have rest := ih fun d hd => named d (List.mem_cons_of_mem _ hd)
    rw [firstFree]
    by_cases taken : c.key ∈ busy
    · have nonzero : c.key ≠ zeroId := fun zero => safe (zero ▸ taken)
      have same : free busy (c :: lc) = free busy lc := by simp [free, taken]
      rw [same, ← rest, assertThat_pos nonzero, assertNamed_named (named c List.mem_cons_self)]
      simp [taken, bind, Except.bind]
    · have first : free busy (c :: lc) = c :: free busy lc := by simp [free, taken]
      rw [first]
      by_cases zero : c.key = zeroId
      · rw [assertThat_neg (not_not.mpr zero)]
        simp [zero, bind, Except.bind]
      · rw [assertThat_pos zero, assertNamed_named (named c List.mem_cons_self)]
        simp [taken, zero, bind, Except.bind, pure, Except.pure]

/-! ## Short lists without repeats -/

/-- What holds of every search of a node: its contacts have endpoints, are no more than
fit and stand nearest first, and the zero id was never asked. -/
structure Fit (s : Search) : Prop where
  named : AllNamed s.shortList
  nearest : Closest bucketSize (distTo (stringToKey s.destination)) s.ids.toFinset s.ids
  safe : zeroId ∉ s.mapNodeBusy

/-- A short list holds no contact it was not offered. -/
theorem mem_offer {s : Search} {lc : List ContactProto} {c : ContactProto}
    (member : c ∈ (s.offer lc).shortList) : c ∈ s.shortList ∨ c ∈ lc := by
  by_cases empty : lc = []
  · rw [empty, offer_nil] at member
    exact .inl member
  · rw [offer_of_ne empty] at member
    exact merged_subset member

theorem Fit.keys_nodup {s : Search} (fit : s.Fit) : (keys s.shortList).Nodup := by
  have same : s.ids = (keys s.shortList).map stringToKey := by
    simp [ids, keys, nodeId, Function.comp_def]
  have distinct := fit.nearest.nodup
  rw [same] at distinct
  exact distinct.of_map stringToKey

@[simp] theorem offer_mapNodeBusy (s : Search) (lc : List ContactProto) :
    (s.offer lc).mapNodeBusy = s.mapNodeBusy := by
  unfold offer
  split <;> rfl

@[simp] theorem offer_mapValueBusy (s : Search) (lc : List ContactProto) :
    (s.offer lc).mapValueBusy = s.mapValueBusy := by
  unfold offer
  split <;> rfl

@[simp] theorem offer_buffer (s : Search) (lc : List ContactProto) :
    (s.offer lc).buffer = s.buffer := by
  unfold offer
  split <;> rfl

@[simp] theorem offer_searchType (s : Search) (lc : List ContactProto) :
    (s.offer lc).searchType = s.searchType := by
  unfold offer
  split <;> rfl

@[simp] theorem offer_nodeCallbackValid (s : Search) (lc : List ContactProto) :
    (s.offer lc).nodeCallbackValid = s.nodeCallbackValid := by
  unfold offer
  split <;> rfl

@[simp] theorem offer_valueCallback (s : Search) (lc : List ContactProto) :
    (s.offer lc).valueCallback = s.valueCallback := by
  unfold offer
  split <;> rfl

theorem Fit.offer {s : Search} (fit : s.Fit) {lc : List ContactProto} (offered : AllNamed lc) :
    (s.offer lc).Fit where
  named := offer_named fit.named offered
  nearest := by
    rw [offer_destination]
    exact (s.offer_closest fit.nearest lc).self
  safe := by simpa using fit.safe

/-! ## Asking -/

/-- The contacts that have not been asked. -/
def unasked (s : Search) : List ContactProto := free s.mapNodeBusy s.shortList

/-- The contacts the item has not been sent to. -/
def unstored (s : Search) : List ContactProto := free s.mapValueBusy s.shortList

/-- The search after some contacts have been asked. -/
def asks (s : Search) (cs : List ContactProto) : Search :=
  { s with mapNodeBusy := (keys cs).toFinset ∪ s.mapNodeBusy }

/-- The search after the item has been sent to some contacts. -/
def stores (s : Search) (cs : List ContactProto) : Search :=
  { s with mapValueBusy := (keys cs).toFinset ∪ s.mapValueBusy }

@[simp] theorem asks_nil (s : Search) : s.asks [] = s := by simp [asks, keys]

@[simp] theorem stores_nil (s : Search) : s.stores [] = s := by simp [stores, keys]

theorem asks_cons (s : Search) (c : ContactProto) (cs : List ContactProto) :
    s.asks (c :: cs) = (s.asks [c]).asks cs := by
  simp only [asks, keys, List.map_cons, List.map_nil, List.toFinset_cons, List.toFinset_nil]
  congr 1
  ext key
  simp only [Finset.mem_union, Finset.mem_insert, Finset.notMem_empty]
  tauto

theorem stores_cons (s : Search) (c : ContactProto) (cs : List ContactProto) :
    s.stores (c :: cs) = (s.stores [c]).stores cs := by
  simp only [stores, keys, List.map_cons, List.map_nil, List.toFinset_cons, List.toFinset_nil]
  congr 1
  ext key
  simp only [Finset.mem_union, Finset.mem_insert, Finset.notMem_empty]
  tauto

theorem exhausted_iff {s : Search} : s.exhausted = true ↔ s.unasked = [] := by
  rw [exhausted, decide_eq_true_iff, unasked, free_nil_iff]

theorem isValueFull_eq {s : Search} (named : AllNamed s.shortList) :
    s.isValueFull = .ok (decide (s.unstored = [])) := by
  rw [isValueFull, allBusy_eq named]
  congr 1
  exact decide_eq_decide.mpr free_nil_iff.symm

theorem getNodeKey_eq {s : Search} (fit : s.Fit) {c : ContactProto} {rest : List ContactProto}
    (next : s.unasked = c :: rest) :
    s.getNodeKey = if c.key = zeroId then .error .assertion else .ok (c.key, s.asks [c]) := by
  rw [unasked] at next
  rw [getNodeKey, firstFree_eq fit.named fit.safe, next]
  by_cases zero : c.key = zeroId
  · simp [zero, bind, Except.bind]
  · simp [zero, bind, Except.bind, pure, Except.pure, asks, keys]

theorem getValueKey_eq {s : Search} (fit : s.Fit) (safe : zeroId ∉ s.mapValueBusy)
    {c : ContactProto} {rest : List ContactProto} (next : s.unstored = c :: rest) :
    s.getValueKey = if c.key = zeroId then .error .assertion else .ok (c.key, s.stores [c]) := by
  rw [unstored] at next
  rw [getValueKey, firstFree_eq fit.named safe, next]
  by_cases zero : c.key = zeroId
  · simp [zero, bind, Except.bind]
  · simp [zero, bind, Except.bind, pure, Except.pure, stores, keys]

theorem unasked_asks {s : Search} (fit : s.Fit) {c : ContactProto} {rest : List ContactProto}
    (next : s.unasked = c :: rest) : (s.asks [c]).unasked = rest :=
  free_insert fit.keys_nodup next

theorem unstored_stores {s : Search} (fit : s.Fit) {c : ContactProto} {rest : List ContactProto}
    (next : s.unstored = c :: rest) : (s.stores [c]).unstored = rest :=
  free_insert fit.keys_nodup next

theorem Fit.asks {s : Search} (fit : s.Fit) {cs : List ContactProto} (nonzero : zeroId ∉ keys cs) :
    (s.asks cs).Fit where
  named := fit.named
  nearest := fit.nearest
  safe := by simpa [Search.asks] using ⟨nonzero, fit.safe⟩

theorem Fit.stores {s : Search} (fit : s.Fit) (cs : List ContactProto) : (s.stores cs).Fit where
  named := fit.named
  nearest := fit.nearest
  safe := fit.safe

/-! ## One round -/

/-- What holds of every search between two rounds: no item was sent yet, there is no node
callback, and only a value search has a value callback. -/
structure Ready (s : Search) : Prop extends s.Fit where
  unsent : s.mapValueBusy = ∅
  silent : s.nodeCallbackValid = false
  uncalled : s.searchType ≠ .value → s.valueCallback = none

/-- A search as the client's calls fill it. -/
theorem new_ready (src dest : String) (t : SearchType) (b : DataItemProto) (c : Option Nat)
    (hint : String) (called : t ≠ .value → c = none) :
    ({ new src dest t with buffer := b, valueCallback := c, hint := hint } : Search).Ready where
  toFit := ⟨new_named src dest t, (new_closest src dest t).self, Finset.notMem_empty _⟩
  unsent := rfl
  silent := rfl
  uncalled := called

theorem Ready.offer {s : Search} (ready : s.Ready) {lc : List ContactProto}
    (offered : AllNamed lc) : (s.offer lc).Ready where
  toFit := ready.toFit.offer offered
  unsent := by simpa using ready.unsent
  silent := by simpa using ready.silent
  uncalled := by simpa using ready.uncalled

theorem Ready.asks {s : Search} (ready : s.Ready) {cs : List ContactProto}
    (nonzero : zeroId ∉ keys cs) : (s.asks cs).Ready where
  toFit := ready.toFit.asks nonzero
  unsent := ready.unsent
  silent := ready.silent
  uncalled := ready.uncalled

/-- Before an item is sent to anyone it may go to the whole short list. -/
theorem Ready.unstored {s : Search} (ready : s.Ready) : s.unstored = s.shortList := by
  simp [Search.unstored, free, ready.unsent]

/-- Whether delivering `lc` ends the search. A value search does not end by a round. -/
def ends (s : Search) (lc : List ContactProto) : Bool :=
  s.searchType ≠ .value && s.settled lc

/-- The contacts a round takes from the short list: at its end a store search takes all
of them, a node search none. -/
def picks (s : Search) (lc : List ContactProto) : List ContactProto :=
  if s.ends lc then
    if s.searchType = .store then (s.offer lc).shortList else []
  else (s.offer lc).unasked.take alpha

/-- The search after a round that did not end it. -/
def next (s : Search) (lc : List ContactProto) : Search :=
  (s.offer lc).asks (s.picks lc)

/-- Whom a round picks is on the short list. -/
theorem picks_subset {s : Search} {lc : List ContactProto} {c : ContactProto}
    (member : c ∈ s.picks lc) : c ∈ (s.offer lc).shortList := by
  unfold picks at member
  split at member
  · split at member
    · exact member
    · cases member
  · exact (free_subset (List.mem_of_mem_take member)).1

@[simp] theorem next_destination (s : Search) (lc : List ContactProto) :
    (s.next lc).destination = s.destination := by
  simp [next, asks]

@[simp] theorem next_searchType (s : Search) (lc : List ContactProto) :
    (s.next lc).searchType = s.searchType := by
  simp [next, asks]

@[simp] theorem next_ids (s : Search) (lc : List ContactProto) :
    (s.next lc).ids = (s.offer lc).ids := rfl

theorem Ready.next {s : Search} (ready : s.Ready) {lc : List ContactProto}
    (offered : AllNamed lc) (nonzero : zeroId ∉ keys (s.picks lc)) : (s.next lc).Ready :=
  (ready.offer offered).asks nonzero

theorem ends_value {s : Search} (value : s.searchType = .value) (lc : List ContactProto) :
    s.ends lc = false := by
  simp [ends, value]

theorem ends_of_ne {s : Search} (other : s.searchType ≠ .value) (lc : List ContactProto) :
    s.ends lc = s.settled lc := by
  simp [ends, other]

/-! ## When a search goes on -/

section Ends

variable {s : Search} {lc : List ContactProto}

/-- As long as contacts are few and one was not asked, a search that sees something new
goes on. -/
theorem ends_false {lc : List ContactProto} (few : (s.offer lc).shortList.length < bucketSize)
    (changes : s.shortList = [] ∨ s.shortList ≠ s.merged lc)
    (left : (s.offer lc).unasked ≠ []) : s.ends lc = false := by
  have open' : (s.offer lc).exhausted = false := by
    rw [← Bool.not_eq_true, exhausted_iff]
    exact left
  have inside : ¬ bucketSize ≤ (s.offer lc).inBucket := by
    have := List.countP_le_length (p := fun c => (s.offer lc).sharedBits c = (s.offer lc).bucketNb)
      (l := (s.offer lc).shortList)
    unfold inBucket
    omega
  have ended : s.settled lc = false := by
    rcases changes with none | other
    · simp [settled, none, bucketFull, open', inside]
    · simp [settled, other, bucketFull, open', inside]
  simp [ends, ended]

/-- A search is over once everybody on the short list has been asked. -/
theorem ends_of_asked (other : s.searchType ≠ .value)
    (asked : ∀ c ∈ (s.offer lc).shortList, c.key ∈ s.mapNodeBusy) : s.ends lc = true := by
  have all : (s.offer lc).exhausted = true := by
    simpa [exhausted] using asked
  rw [ends_of_ne other, settled, bucketFull, all]
  simp

/-- A search is over once it is offered nothing new. -/
theorem ends_of_seen {seen : Finset (BitVec keySize)} (other : s.searchType ≠ .value)
    (closest : Closest bucketSize (distTo (stringToKey s.destination)) seen s.ids)
    (begun : s.shortList ≠ []) (some : lc ≠ []) (known : idSet lc ⊆ seen) : s.ends lc = true := by
  rw [ends_of_ne other, settled, merged_seen closest known]
  simp [some, begun]

/-- A round that has to ask no more than `ALPHA` contacts asks them all. -/
theorem next_asked (goes : s.ends lc = false) (few : (s.offer lc).unasked.length ≤ alpha)
    {c : ContactProto} (member : c ∈ (s.next lc).shortList) : c.key ∈ (s.next lc).mapNodeBusy := by
  have picks : s.picks lc = (s.offer lc).unasked := by
    simp [Search.picks, goes, List.take_of_length_le few]
  by_cases asked : c.key ∈ s.mapNodeBusy
  · simp [next, asks, asked]
  · have there : c ∈ (s.offer lc).shortList := member
    have left : c ∈ (s.offer lc).unasked := by
      simpa [unasked, free, asked] using there
    simpa [next, asks, picks] using .inl (List.mem_map_of_mem left)

end Ends

end Search

end MiniDht
