import MiniDht.Node.Iterative
import MiniDht.Node.Sent
import MiniDht.Search.Asking

/-!
# One round of a search

What `replyIterative` does to a node in one call. The contacts a round picks and what is
seen of it are functions of the search, the delivered contacts and the contact list. A
round returns unless it comes to a contact under the zero id.
-/

namespace MiniDht

open Lib

namespace Node

variable {w : World} {s : Node} {t : Token} {q : Search} {k : String}

/-- `map_search[t] = q`. -/
def withSearch (s : Node) (t : Token) (q : Search) : Node :=
  { s with mapSearch := Function.update s.mapSearch t (some q) }

/-- `map_search.erase(t)`. -/
def withoutSearch (s : Node) (t : Token) : Node :=
  { s with mapSearch := Function.update s.mapSearch t none }

@[simp] theorem withSearch_id : (s.withSearch t q).id = s.id := rfl

@[simp] theorem withSearch_contactList : (s.withSearch t q).contactList = s.contactList := rfl

@[simp] theorem withSearch_log : (s.withSearch t q).log = s.log := rfl

@[simp] theorem withoutSearch_log : (s.withoutSearch t).log = s.log := rfl

@[simp] theorem withSearch_at : (s.withSearch t q).mapSearch t = some q :=
  Function.update_self ..

@[simp] theorem withoutSearch_at : (s.withoutSearch t).mapSearch t = none :=
  Function.update_self ..

theorem withSearch_of_ne {t' : Token} (other : t' ≠ t) :
    (s.withSearch t q).mapSearch t' = s.mapSearch t' := Function.update_of_ne other _ _

/-- Nothing that was not there is there without a search. -/
theorem withoutSearch_none {t' : Token} (gone : s.mapSearch t' = none) :
    (s.withoutSearch t).mapSearch t' = none := by
  by_cases same : t' = t
  · rw [same]
    exact Function.update_self _ _ _
  · exact (Function.update_of_ne same _ _).trans gone

theorem withoutSearch_of_ne {t' : Token} (other : t' ≠ t) :
    (s.withoutSearch t).mapSearch t' = s.mapSearch t' := Function.update_of_ne other _ _

theorem withSearch_self (here : s.mapSearch t = some q) : s.withSearch t q = s := by
  rw [withSearch, ← here, Function.update_eq_self]

@[simp] theorem withSearch_withSearch (q' : Search) :
    (s.withSearch t q).withSearch t q' = s.withSearch t q' := by
  simp [withSearch]

@[simp] theorem withSearch_logged (es : List Event) :
    (s.logged es).withSearch t q = (s.withSearch t q).logged es := rfl

@[simp] theorem withoutSearch_logged (es : List Event) :
    (s.logged es).withoutSearch t = (s.withoutSearch t).logged es := rfl

@[simp] theorem withoutSearch_withSearch : (s.withSearch t q).withoutSearch t = s.withoutSearch t := by
  simp [withSearch, withoutSearch]

theorem exec_searchAt (here : s.mapSearch t = some q) :
    Act.exec (searchAt t) s = (.ok q, s) := by
  rw [searchAt, Act.exec_bind_ok (Act.exec_get s), here]
  rfl

theorem exec_putSearch (q : Search) (s : Node) :
    Act.exec (putSearch t q) s = (.ok (), s.withSearch t q) := rfl

theorem exec_eraseSearch (s : Node) :
    Act.exec (eraseSearch t) s = (.ok (), s.withoutSearch t) := rfl

/-! ## The loop that asks -/

section Asks

variable {send : String → NodeM Unit} {ev : String → List Event} {n : Nat}

/-- One pass of the loop, when there is a contact to ask. -/
theorem exec_askNodes_step (here : s.mapSearch t = some q) (fit : q.Fit) {c : ContactProto}
    {rest : List ContactProto} (next : q.unasked = c :: rest) :
    Act.exec (askNodes t send (n + 1)) s =
      if c.key = zeroId then (.error .assertion, s)
      else Act.exec (do send c.key; askNodes t send n) (s.withSearch t (q.asks [c])) := by
  have open' : q.exhausted = false := by
    rw [← Bool.not_eq_true, Search.exhausted_iff, next]
    simp
  rw [askNodes, Act.exec_bind_ok (exec_searchAt here), Search.isNodeFull_eq fit.named, open',
    Act.exec_bind_ok (Act.exec_ofExcept _ _)]
  simp only [Bool.false_eq_true, if_false]
  rw [Act.exec_bind_ok (exec_searchAt here), Search.getNodeKey_eq fit next]
  by_cases zero : c.key = zeroId
  · rw [if_pos zero, if_pos zero, Act.exec_bind_error (Act.exec_ofExcept _ _)]
  · rw [if_neg zero, if_neg zero, Act.exec_bind_ok (Act.exec_ofExcept _ _),
      Act.exec_bind_ok (exec_putSearch _ _)]

theorem exec_askNodes_done (here : s.mapSearch t = some q) (fit : q.Fit) (none : q.unasked = []) :
    Act.exec (askNodes t send n) s = (.ok (), s) := by
  cases n with
  | zero => rfl
  | succ n =>
    rw [askNodes, Act.exec_bind_ok (exec_searchAt here), Search.isNodeFull_eq fit.named,
      Search.exhausted_iff.mpr none, Act.exec_bind_ok (Act.exec_ofExcept _ _)]
    rfl

/-- The loop asks the first `n` contacts that were not asked before. At a contact under
the zero id it fails an assert. -/
theorem exec_askNodes (here : s.mapSearch t = some q) (fit : q.Fit)
    (sends : ∀ key, key ≠ zeroId → ∀ s' : Node, s'.id = s.id → s'.contactList = s.contactList →
      Act.exec (send key) s' = (.ok (), s'.logged (ev key))) :
    Act.exec (askNodes t send n) s =
      (if zeroId ∈ Search.keys (q.unasked.take n) then .error .assertion else .ok (),
        (s.withSearch t (q.asks (Search.until0 (q.unasked.take n)))).logged
          ((Search.keys (Search.until0 (q.unasked.take n))).flatMap ev)) := by
  induction n generalizing s q with
  | zero =>
    simp [Search.keys, withSearch_self here]
    rfl
  | succ n ih =>
    cases next : q.unasked with
    | nil =>
      rw [exec_askNodes_done here fit next]
      simp [Search.keys, withSearch_self here]
    | cons c rest =>
      rw [exec_askNodes_step here fit next, List.take_succ_cons]
      by_cases zero : c.key = zeroId
      · simp [zero, Search.keys, withSearch_self here]
      · have left := Search.unasked_asks fit next
        have fit' : (q.asks [c]).Fit := fit.asks (by simpa [Search.keys] using Ne.symm zero)
        rw [if_neg zero, Act.exec_bind_ok (sends c.key zero (s.withSearch t (q.asks [c])) rfl rfl),
          ih (s := (s.withSearch t (q.asks [c])).logged (ev c.key)) (q := q.asks [c])
            withSearch_at fit' sends, left, Search.until0_cons zero,
          Search.asks_cons q c (Search.until0 (rest.take n))]
        simp [Search.keys, Ne.symm zero]

end Asks

/-! ## The loop that stores -/

section Stores

variable {n : Nat}

/-- The node after the item of a search has been sent to some contacts. -/
def notedAll (s : Node) (t : Token) (cbf : DataItemProto) (cs : List ContactProto) : Node :=
  if cs = [] then s else s.noted t cbf

theorem notedAll_log (s : Node) (t : Token) (cbf : DataItemProto) (cs : List ContactProto) :
    (s.notedAll t cbf cs).log = s.log := by
  unfold notedAll
  split <;> rfl

/-- What is seen of sending an item to contacts. -/
def storeEvents (w : World) (s : Node) (t : Token) (k : String) (cbf : DataItemProto)
    (cs : List ContactProto) : List Event :=
  (Search.keys cs).flatMap fun key =>
    sendEvents w s.id s.contactList (storeMessage s.id key k cbf t)

theorem exec_storeAll_step (here : s.mapSearch t = some q) (fit : q.Fit)
    (safe : zeroId ∉ q.mapValueBusy) {c : ContactProto} {rest : List ContactProto}
    (next : q.unstored = c :: rest) :
    Act.exec (storeAll w t k (n + 1)) s =
      if c.key = zeroId then (.error .assertion, s)
      else Act.exec (do sendStore w c.key k q.buffer t; storeAll w t k n)
        (s.withSearch t (q.stores [c])) := by
  rw [storeAll, Act.exec_bind_ok (exec_searchAt here), Search.isValueFull_eq fit.named, next,
    Act.exec_bind_ok (Act.exec_ofExcept _ _)]
  simp only [reduceCtorEq, decide_false, Bool.false_eq_true, if_false]
  rw [Act.exec_bind_ok (exec_searchAt here), Search.getValueKey_eq fit safe next]
  by_cases zero : c.key = zeroId
  · rw [if_pos zero, if_pos zero, Act.exec_bind_error (Act.exec_ofExcept _ _)]
  · rw [if_neg zero, if_neg zero, Act.exec_bind_ok (Act.exec_ofExcept _ _),
      Act.exec_bind_ok (exec_putSearch _ _)]
    rfl

theorem exec_storeAll_done (here : s.mapSearch t = some q) (fit : q.Fit) (none : q.unstored = []) :
    Act.exec (storeAll w t k (n + 1)) s = (.ok (), s) := by
  rw [storeAll, Act.exec_bind_ok (exec_searchAt here), Search.isValueFull_eq fit.named, none,
    Act.exec_bind_ok (Act.exec_ofExcept _ _)]
  rfl

theorem storeAll_safe {c : ContactProto} (safe : zeroId ∉ q.mapValueBusy) (zero : c.key ≠ zeroId) :
    zeroId ∉ (q.stores [c]).mapValueBusy := by
  simpa [Search.stores, Search.keys] using ⟨Ne.symm zero, safe⟩

/-- The loop sends the item to every contact it was not sent to before, and ends. At a
contact under the zero id it fails an assert. -/
theorem exec_storeAll (here : s.mapSearch t = some q) (fit : q.Fit)
    (safe : zeroId ∉ q.mapValueBusy) (named : s.contactList.Named)
    (enough : q.unstored.length < n) :
    Act.exec (storeAll w t k n) s =
      (if zeroId ∈ Search.keys q.unstored then .error .assertion else .ok (),
        ((s.notedAll t q.buffer (Search.until0 q.unstored)).withSearch t
          (q.stores (Search.until0 q.unstored))).logged
            (storeEvents w s t k q.buffer (Search.until0 q.unstored))) := by
  induction n generalizing s q with
  | zero => omega
  | succ n ih =>
    cases next : q.unstored with
    | nil =>
      rw [exec_storeAll_done here fit next]
      simp [notedAll, storeEvents, Search.keys, withSearch_self here]
    | cons c rest =>
      rw [exec_storeAll_step here fit safe next]
      by_cases zero : c.key = zeroId
      · simp [zero, notedAll, storeEvents, Search.keys, withSearch_self here]
      · have left := Search.unstored_stores fit next
        let mid : Node := ((s.noted t q.buffer).withSearch t (q.stores [c])).logged
          (sendEvents w s.id s.contactList (storeMessage s.id c.key k q.buffer t))
        have sent : Act.exec (sendStore w c.key k q.buffer t) (s.withSearch t (q.stores [c])) =
            (.ok (), mid) := exec_sendStore zero (s := s.withSearch t (q.stores [c])) named
        have rest' := ih (s := mid) (q := q.stores [c]) withSearch_at (fit.stores [c])
          (storeAll_safe safe zero) named (by rw [left]; simp [next] at enough; omega)
        rw [if_neg zero, Act.exec_bind_ok sent, rest', left, Search.until0_cons zero,
          Search.stores_cons q c (Search.until0 rest)]
        by_cases last : Search.until0 rest = []
        · simp [last, notedAll, storeEvents, Search.keys, mid, Search.stores, Ne.symm zero]
        · simp only [notedAll, last, if_false, reduceCtorEq, storeEvents, Search.keys,
            List.map_cons, List.flatMap_cons, List.mem_cons, Ne.symm zero, false_or]
          simp [mid, noted, withSearch, logged, Search.stores]

end Stores

/-! ## The round -/

/-- What a round asks the contact with this key. -/
def roundMessage (q : Search) (lc : List ContactProto) (id k : String) (t : Token) (key : String) :
    MessageProto :=
  match q.searchType with
  | .node => findNodeMessage id key k t
  | .value => findValueMessage id key k t ""
  | .store =>
    if q.ends lc then storeMessage id key k q.buffer t else findNodeMessage id key k t

/-- The asserts a round depends on: the contacts it picks have ids other than zero, and so
has the key a store search is run for. -/
def RoundSafe (q : Search) (lc : List ContactProto) (k : String) : Prop :=
  zeroId ∉ Search.keys (q.picks lc) ∧ (q.searchType = .store → k ≠ zeroId)

instance (q : Search) (lc : List ContactProto) (k : String) : Decidable (RoundSafe q lc k) :=
  inferInstanceAs (Decidable (_ ∧ _))

/-- Without contacts under the zero id a round is safe. -/
theorem roundSafe_of_nonzero {q : Search} {lc : List ContactProto}
    (short : zeroId ∉ Search.keys q.shortList) (offered : zeroId ∉ Search.keys lc)
    (keyed : q.searchType = .store → k ≠ zeroId) : RoundSafe q lc k := by
  refine ⟨fun there => ?_, keyed⟩
  obtain ⟨c, picked, zero⟩ := List.mem_map.mp there
  rcases Search.mem_offer (Search.picks_subset picked) with old | new
  · exact short (zero ▸ List.mem_map_of_mem old)
  · exact offered (zero ▸ List.mem_map_of_mem new)

/-- The contacts a round takes from the short list before it returns or fails an assert. -/
def taken (q : Search) (lc : List ContactProto) (k : String) : List ContactProto :=
  if q.searchType = .store ∧ k = zeroId then [] else Search.until0 (q.picks lc)

theorem taken_safe {q : Search} {lc : List ContactProto} (safe : RoundSafe q lc k) :
    taken q lc k = q.picks lc := by
  rw [taken, if_neg fun zero => safe.2 zero.1 zero.2, Search.until0_eq safe.1]

theorem taken_subset {q : Search} {lc : List ContactProto} {c : ContactProto}
    (member : c ∈ taken q lc k) : c ∈ q.picks lc ∧ c.key ≠ zeroId := by
  unfold taken at member
  split at member
  · cases member
  · exact ⟨List.takeWhile_subset _ member, by simpa using List.mem_takeWhile_imp member⟩

/-- What is seen of a round. -/
def roundEvents (w : World) (s : Node) (q : Search) (lc : List ContactProto) (t : Token)
    (k : String) : List Event :=
  (Search.keys (taken q lc k)).flatMap fun key =>
    sendEvents w s.id s.contactList (roundMessage q lc s.id k t key)

theorem mem_roundEvents {lc : List ContactProto} {e : Event} :
    e ∈ roundEvents w s q lc t k ↔
      ∃ c ∈ taken q lc k, e ∈ sendEvents w s.id s.contactList (roundMessage q lc s.id k t c.key) := by
  simp [roundEvents, Search.keys]

/-- A round makes one request to each contact it takes. -/
theorem requests_roundEvents (w : World) (s : Node) (q : Search) (lc : List ContactProto)
    (t : Token) (k : String) :
    requests (roundEvents w s q lc t k) =
      (Search.keys (taken q lc k)).map (roundMessage q lc s.id k t) := by
  unfold roundEvents
  induction Search.keys (taken q lc k) with
  | nil => rfl
  | cons key rest ih => rw [List.flatMap_cons, requests_append, requests_sendEvents, ih]; rfl

@[simp] theorem roundMessage_token (q : Search) (lc : List ContactProto) (id k : String)
    (t : Token) (key : String) : (roundMessage q lc id k t key).token = t := by
  unfold roundMessage
  split
  · rfl
  · rfl
  · split <;> rfl

@[simp] theorem roundMessage_toId (q : Search) (lc : List ContactProto) (id k : String)
    (t : Token) (key : String) : (roundMessage q lc id k t key).toId = key := by
  unfold roundMessage
  split
  · rfl
  · rfl
  · split <;> rfl

@[simp] theorem roundMessage_queryId (q : Search) (lc : List ContactProto) (id k : String)
    (t : Token) (key : String) : (roundMessage q lc id k t key).queryId = k := by
  unfold roundMessage
  split
  · rfl
  · rfl
  · split <;> rfl

/-- The type of the requests a round makes. -/
def roundType (q : Search) (lc : List ContactProto) : MessageType :=
  match q.searchType with
  | .node => .sendFindNode
  | .value => .sendFindValue
  | .store => if q.ends lc then .sendStore else .sendFindNode

@[simp] theorem roundMessage_type (q : Search) (lc : List ContactProto) (id k : String)
    (t : Token) (key : String) : (roundMessage q lc id k t key).type = roundType q lc := by
  unfold roundMessage roundType
  split
  · rfl
  · rfl
  · split <;> rfl

/-- All contacts taken are recipients, of requests of one type. -/
theorem recipients_roundEvents (type : MessageType) (w : World) (s : Node) (q : Search)
    (lc : List ContactProto) (t : Token) (k : String) :
    recipients type t (roundEvents w s q lc t k) =
      if roundType q lc = type then Search.keys (taken q lc k) else [] := by
  rw [recipients, requests_roundEvents, List.filter_map, List.map_map]
  by_cases same : roundType q lc = type
  · simp [same, Function.comp_def]
  · simp [same, Function.comp_def]

/-- The node after a round, the log aside. -/
def afterRound (s : Node) (q : Search) (lc : List ContactProto) (t : Token) : Node :=
  if q.ends lc then
    (if q.searchType = .store then s.notedAll t q.buffer (q.picks lc) else s).withoutSearch t
  else s.withSearch t (q.next lc)

/-- A round changes the searches and the sizes noted for answers to stores, and nothing
else. -/
theorem afterRound_eq (s : Node) (q : Search) (lc : List ContactProto) (t : Token) :
    ∃ sizes, s.afterRound q lc t = { s with
      mapSearch := Function.update s.mapSearch t (if q.ends lc then none else some (q.next lc))
      mapStoreCheckVal := sizes } := by
  by_cases ended : q.ends lc = true
  · by_cases store : q.searchType = .store
    · by_cases none : q.picks lc = []
      · exact ⟨s.mapStoreCheckVal, by simp [afterRound, ended, store, none, notedAll, withoutSearch]⟩
      · exact ⟨_, by
          simp [afterRound, ended, store, none, notedAll, withoutSearch, noted]
          rfl⟩
    · exact ⟨s.mapStoreCheckVal, by simp [afterRound, ended, store, withoutSearch]⟩
  · exact ⟨s.mapStoreCheckVal, by simp [afterRound, ended, withSearch]⟩

@[simp] theorem afterRound_id (s : Node) (q : Search) (lc : List ContactProto) (t : Token) :
    (s.afterRound q lc t).id = s.id := by
  obtain ⟨sizes, same⟩ := afterRound_eq s q lc t
  rw [same]

@[simp] theorem afterRound_log (s : Node) (q : Search) (lc : List ContactProto) (t : Token) :
    (s.afterRound q lc t).log = s.log := by
  obtain ⟨sizes, same⟩ := afterRound_eq s q lc t
  rw [same]

@[simp] theorem afterRound_contactList (s : Node) (q : Search) (lc : List ContactProto)
    (t : Token) : (s.afterRound q lc t).contactList = s.contactList := by
  obtain ⟨sizes, same⟩ := afterRound_eq s q lc t
  rw [same]

@[simp] theorem afterRound_dbStorage (s : Node) (q : Search) (lc : List ContactProto)
    (t : Token) : (s.afterRound q lc t).dbStorage = s.dbStorage := by
  obtain ⟨sizes, same⟩ := afterRound_eq s q lc t
  rw [same]

theorem afterRound_mapSearch (s : Node) (q : Search) (lc : List ContactProto) (t : Token) :
    (s.afterRound q lc t).mapSearch =
      Function.update s.mapSearch t (if q.ends lc then none else some (q.next lc)) := by
  obtain ⟨sizes, same⟩ := afterRound_eq s q lc t
  rw [same]

theorem afterRound_at (s : Node) (q : Search) (lc : List ContactProto) (t : Token) :
    (s.afterRound q lc t).mapSearch t = if q.ends lc then none else some (q.next lc) := by
  rw [afterRound_mapSearch, Function.update_self]

section Round

variable {lc : List ContactProto}

theorem sends_findNode (named : s.contactList.Named) (key : String) (nonzero : key ≠ zeroId)
    (s' : Node) (id : s'.id = s.id) (list : s'.contactList = s.contactList) :
    Act.exec (sendFindNode w key k t) s' =
      (.ok (), s'.logged (sendEvents w s.id s.contactList (findNodeMessage s.id key k t))) := by
  rw [exec_sendFindNode nonzero (by rw [list]; exact named), id, list]

theorem sends_findValue (named : s.contactList.Named) (key : String) (nonzero : key ≠ zeroId)
    (s' : Node) (id : s'.id = s.id) (list : s'.contactList = s.contactList) :
    Act.exec (sendFindValue w key k t) s' =
      (.ok (), s'.logged (sendEvents w s.id s.contactList (findValueMessage s.id key k t ""))) := by
  rw [exec_sendFindValue nonzero (by rw [list]; exact named), id, list]

/-- A call does what a round is to do. Every contact taken is asked. Unless an assert fails it
returns, with the search gone from the map or brought up to date. -/
def IsRound (w : World) (s : Node) (q : Search) (lc : List ContactProto) (t : Token) (k : String)
    (x : NodeM Unit) : Prop :=
  ∃ s', Act.exec x s =
      (if RoundSafe q lc k then .ok () else .error .assertion,
        s'.logged (roundEvents w s q lc t k)) ∧
    s'.log = s.log ∧ (RoundSafe q lc k → s' = s.afterRound q lc t)

section Types

variable (here : s.mapSearch t = some q) (ready : q.Ready) (offered : Search.AllNamed lc)
  (named : s.contactList.Named)
include here ready offered named

omit named in
/-- Each kind of round brings the short list up to date first. -/
theorem exec_updateSearch {α : Type} (rest : Bool × Search → NodeM α) :
    Act.exec (searchAt t >>= fun search => Act.ofExcept (search.updateList lc) >>= rest) s =
      Act.exec (rest (q.settled lc, q.offer lc)) s := by
  rw [Act.exec_bind_ok (exec_searchAt here), Search.updateList_eq ready.named offered,
    Act.exec_bind_ok (Act.exec_ofExcept _ _)]

omit here named in
/-- A round of a search that is not over asks, and leaves the search with the contacts it
took. -/
theorem round_asks {send : String → NodeM Unit} (going : q.ends lc = false)
    (keyed : q.searchType = .store → k ≠ zeroId)
    (sends : ∀ key, key ≠ zeroId → ∀ s' : Node, s'.id = s.id → s'.contactList = s.contactList →
      Act.exec (send key) s' =
        (.ok (), s'.logged (sendEvents w s.id s.contactList (roundMessage q lc s.id k t key)))) :
    ∃ s', Act.exec (askNodes t send alpha) (s.withSearch t (q.offer lc)) =
        (if RoundSafe q lc k then .ok () else .error .assertion,
          s'.logged (roundEvents w s q lc t k)) ∧
      s'.log = s.log ∧ (RoundSafe q lc k → s' = s.afterRound q lc t) := by
  have safe : RoundSafe q lc k ↔ zeroId ∉ Search.keys (q.picks lc) := and_iff_left keyed
  have picks : q.picks lc = (q.offer lc).unasked.take alpha := by simp [Search.picks, going]
  have all : taken q lc k = Search.until0 (q.picks lc) :=
    if_neg fun zero => keyed zero.1 zero.2
  have asked := exec_askNodes (n := alpha) withSearch_at (ready.toFit.offer offered)
    (s := s.withSearch t (q.offer lc)) sends
  refine ⟨s.withSearch t ((q.offer lc).asks (Search.until0 (q.picks lc))), ?_, rfl, ?_⟩
  · simp [safe, asked, roundEvents, all, picks]
  · intro fine
    simp [afterRound, going, Search.next, Search.until0_eq fine.1]

omit here in
/-- A store search that is over stores at every contact of its short list. -/
theorem round_stores (type : q.searchType = .store) (keyed : k ≠ zeroId)
    (settled : q.settled lc = true) :
    ∃ s', Act.exec (do
          storeAll w t k ((q.offer lc).shortList.length + 1)
          eraseSearch t) (s.withSearch t (q.offer lc)) =
        (if RoundSafe q lc k then .ok () else .error .assertion,
          s'.logged (roundEvents w s q lc t k)) ∧
      s'.log = s.log ∧ (RoundSafe q lc k → s' = s.afterRound q lc t) := by
  have ends : q.ends lc = true := by rw [Search.ends_of_ne (by simp [type]), settled]
  have safe : RoundSafe q lc k ↔ zeroId ∉ Search.keys (q.picks lc) :=
    and_iff_left fun _ => keyed
  have whole := (ready.offer offered).unstored
  have picks : q.picks lc = (q.offer lc).shortList := by simp [Search.picks, ends, type]
  have stored := exec_storeAll (w := w) (k := k) (s := s.withSearch t (q.offer lc))
    (n := (q.offer lc).shortList.length + 1) withSearch_at (ready.toFit.offer offered)
    (by simp [ready.unsent]) named (by rw [whole]; omega)
  rw [whole, ← picks, Search.offer_buffer] at stored
  have messages : roundEvents w s q lc t k =
      storeEvents w s t k q.buffer (Search.until0 (q.picks lc)) := by
    simp [roundEvents, roundMessage, storeEvents, taken, type, ends, keyed]
  rw [← picks]
  by_cases zero : zeroId ∈ Search.keys (q.picks lc)
  · rw [if_pos zero] at stored
    refine ⟨((s.withSearch t (q.offer lc)).notedAll t q.buffer
      (Search.until0 (q.picks lc))).withSearch t ((q.offer lc).stores
        (Search.until0 (q.picks lc))), ?_, notedAll_log .., fun fine => absurd zero fine.1⟩
    rw [Act.exec_bind_error stored, if_neg (by simpa [safe] using zero), messages]
    rfl
  · rw [if_neg zero] at stored
    refine ⟨s.afterRound q lc t, ?_, afterRound_log .., fun _ => rfl⟩
    rw [Act.exec_bind_ok stored, exec_eraseSearch, if_pos (safe.mpr zero), messages,
      Search.until0_eq zero]
    simp only [afterRound, ends, if_true, type, withoutSearch_logged,
      withoutSearch_withSearch, storeEvents, withSearch_id, withSearch_contactList]
    simp only [notedAll]
    split <;> simp [noted, withSearch, withoutSearch]

theorem isRound_node (type : q.searchType = .node) :
    IsRound w s q lc t k (replyIterativeNodeSearch w lc t k) := by
  have same := Search.ends_of_ne (s := q) (by simp [type]) lc
  have safe : RoundSafe q lc k ↔ zeroId ∉ Search.keys (q.picks lc) := by simp [RoundSafe, type]
  rw [IsRound, replyIterativeNodeSearch, exec_updateSearch here ready offered]
  simp only []
  rw [Act.exec_bind_ok (exec_putSearch _ _)]
  by_cases ended : q.settled lc = true
  · refine ⟨s.withoutSearch t, ?_, rfl, ?_⟩
    · simp [safe, ended, same, type, roundEvents, taken, Search.picks, Search.keys, ready.silent,
        exec_eraseSearch]
    · simp [same, ended, type, afterRound]
  · have going : q.ends lc = false := by simpa [same] using ended
    simp only [ended, Bool.false_eq_true, if_false]
    refine round_asks ready offered going (by simp [type]) fun key nonzero s' id list => ?_
    rw [sends_findNode named key nonzero s' id list]
    simp [roundMessage, type]

theorem isRound_value (type : q.searchType = .value) :
    IsRound w s q lc t k (replyIterativeValueSearch w lc t k) := by
  rw [IsRound, replyIterativeValueSearch, exec_updateSearch here ready offered]
  simp only []
  rw [Act.exec_bind_ok (exec_putSearch _ _)]
  refine round_asks ready offered (Search.ends_value type lc) (by simp [type])
    fun key nonzero s' id list => ?_
  rw [sends_findValue named key nonzero s' id list]
  simp [roundMessage, type]

theorem isRound_store (type : q.searchType = .store) :
    IsRound w s q lc t k (replyIterativeStoreSearch w lc t k) := by
  have same := Search.ends_of_ne (s := q) (by simp [type]) lc
  rw [IsRound, replyIterativeStoreSearch]
  by_cases keyed : k = zeroId
  · rw [assertThat_neg (not_not.mpr keyed), Act.exec_bind_error (Act.exec_ofExcept _ _)]
    refine ⟨s, ?_, rfl, fun fine => absurd keyed (fine.2 type)⟩
    simp [RoundSafe, type, keyed, roundEvents, taken, Search.keys]
  rw [assertThat_pos keyed, Act.exec_bind_ok (Act.exec_ofExcept _ _),
    exec_updateSearch here ready offered]
  simp only []
  rw [Act.exec_bind_ok (exec_putSearch _ _)]
  by_cases ended : q.settled lc = true
  · simp only [ended, if_true]
    exact round_stores ready offered named type keyed ended
  · have going : q.ends lc = false := by simpa [same] using ended
    simp only [ended, Bool.false_eq_true, if_false]
    refine round_asks ready offered going (fun _ => keyed) fun key nonzero s' id list => ?_
    rw [sends_findNode named key nonzero s' id list]
    simp [roundMessage, type, going]

/-- **One round.** -/
theorem exec_round : IsRound w s q lc t k (replyIterative w lc t k) := by
  rw [IsRound, replyIterative, Act.exec_bind_ok (exec_searchAt here)]
  cases type : q.searchType with
  | node => exact isRound_node here ready offered named type
  | value => exact isRound_value here ready offered named type
  | store => exact isRound_store here ready offered named type

end Types

theorem exec_replyIterative (here : s.mapSearch t = some q) (ready : q.Ready)
    (offered : Search.AllNamed lc) (named : s.contactList.Named) (safe : RoundSafe q lc k) :
    Act.exec (replyIterative w lc t k) s =
      (.ok (), (s.afterRound q lc t).logged (roundEvents w s q lc t k)) := by
  obtain ⟨s', run, -, after⟩ := exec_round (w := w) (k := k) here ready offered named
  rw [run, if_pos safe, after safe]

/-- A round that is not safe fails an assert. -/
theorem exec_replyIterative_abort (here : s.mapSearch t = some q) (ready : q.Ready)
    (offered : Search.AllNamed lc) (named : s.contactList.Named) (risky : ¬ RoundSafe q lc k) :
    (Act.exec (replyIterative w lc t k) s).1 = .error .assertion := by
  obtain ⟨s', run, -, -⟩ := exec_round (w := w) (k := k) here ready offered named
  rw [run, if_neg risky]

end Round

end Node

end MiniDht
