import Mathlib.Data.Finset.Insert
import Std.Data.TreeMap.Lemmas
import MiniDht.Const

/-!
# A search in progress

Class `search`: the short list of the closest contacts heard of, the contacts already
asked, and the tests that decide when the search is over. `updateList_eq` gives its one
large method on contacts with endpoints; the asserts of the others fail otherwise.
-/

namespace MiniDht

open Lib

/-- `search_type_t`. -/
inductive SearchType where
  | node
  | value
  | store
  deriving DecidableEq, Repr

/-- Class `search`. The busy maps only ever hold `true`, so their keys are kept. A
callback is a handle on a function of the client. -/
structure Search where
  shortList : List ContactProto := []
  mapNodeBusy : Finset String := ∅
  mapValueBusy : Finset String := ∅
  destination : String
  source : String
  searchType : SearchType
  nodeCallbackValid : Bool := false
  nodeCallback : Option Nat := none
  valueCallback : Option Nat := none
  buffer : DataItemProto := {}
  bucketNb : Nat
  hint : String := ""

namespace Search

/-- The constructor `search(src, dest, t)`. -/
def new (src dest : String) (t : SearchType) : Search where
  destination := dest
  source := src
  searchType := t
  bucketNb := commonBits (stringToKey dest) (stringToKey src)

/-- The loop of `is_node_full` and `is_value_full`: every contact is busy. -/
def allBusy (busy : Finset String) : List ContactProto → Except Fault Bool
  | [] => .ok true
  | c :: rest => do
    assertNamed c.ep
    if c.key ∈ busy then allBusy busy rest else return false

def isNodeFull (s : Search) : Except Fault Bool :=
  allBusy s.mapNodeBusy s.shortList

def isValueFull (s : Search) : Except Fault Bool :=
  allBusy s.mapValueBusy s.shortList

/-- The loop of `get_node_key` and `get_value_key`: the first contact that is not busy. -/
def firstFree (missing : Fault) (busy : Finset String) : List ContactProto → Except Fault String
  | [] => .error missing
  | c :: rest => do
    assertThat (c.key ≠ zeroId)
    assertNamed c.ep
    if c.key ∈ busy then firstFree missing busy rest else return c.key

/-- `get_node_key` throws a `std::string` when everything is busy. -/
def getNodeKey (s : Search) : Except Fault (String × Search) := do
  let key ← firstFree (.thrown "no key found!") s.mapNodeBusy s.shortList
  return (key, { s with mapNodeBusy := insert key s.mapNodeBusy })

/-- `get_value_key` throws a `std::runtime_error` when everything is busy. -/
def getValueKey (s : Search) : Except Fault (String × Search) := do
  let key ← firstFree (.exception "no key found!") s.mapValueBusy s.shortList
  return (key, { s with mapValueBusy := insert key s.mapValueBusy })

/-- The bucket of the destination a contact falls in. -/
def sharedBits (s : Search) (c : ContactProto) : Nat :=
  commonBits (stringToKey c.key) (stringToKey s.destination)

/-- The loop of `short_list_in_bucket`. -/
def countInBucket (s : Search) : List ContactProto → Except Fault Nat
  | [] => .ok 0
  | c :: rest => do
    assertNamed c.ep
    let nb ← countInBucket s rest
    return if s.sharedBits c = s.bucketNb then nb + 1 else nb

def shortListInBucket (s : Search) : Except Fault Nat :=
  s.countInBucket s.shortList

def isBucketFull (s : Search) : Except Fault Bool := do
  if bucketSize ≤ (← s.shortListInBucket) then return true
  s.isNodeFull

/-- XOR distance of a contact to a key. -/
def distance (dest : BitVec keySize) (c : ContactProto) : BitVec keySize :=
  stringToKey c.key ^^^ dest

/-- `std::map<key_t, contact_proto>`. -/
abbrev ContactMap := Std.TreeMap String ContactProto

/-- Insert contacts under the text of their distance; a later one replaces an earlier. -/
def insertSorted (dest : BitVec keySize) (m : ContactMap) (lc : List ContactProto) : ContactMap :=
  lc.foldl (fun m c => m.insert (bitsetToString (distance dest c)) c) m

/-- The list `update_list` builds: `lc` and then the short list in one map, cut off
after `BUCKET_SIZE` contacts. -/
def merged (s : Search) (lc : List ContactProto) : List ContactProto :=
  let destBs := stringToKey s.destination
  let mapSorted := insertSorted destBs (insertSorted destBs ∅ lc) s.shortList
  (mapSorted.toList.map Prod.snd).take bucketSize

/-- `update_list`: whether the search is over, and the search with the new short list. -/
def updateList (s : Search) (lc : List ContactProto) : Except Fault (Bool × Search) := do
  if lc.length = 0 then return (← s.isBucketFull, s)
  let temp := s.merged lc
  if s.shortList.length ≠ 0 then
    if ← contactListEq s.shortList temp then return (true, s)
  let s := { s with shortList := temp }
  return (← s.isBucketFull, s)

/-! ## The tests, on contacts with endpoints -/

theorem assertNamed_error {ep : EndpointProto} (missing : ¬ ep.Named) :
    assertNamed ep = .error .assertion := by
  rw [assertNamed]
  by_cases address : ep.address ≠ ""
  · rw [assertThat_pos address, assertThat_neg fun port => missing ⟨address, port⟩]
    rfl
  · rw [assertThat_neg address]
    rfl

/-- Every contact of the list has an endpoint. -/
def AllNamed (lc : List ContactProto) : Prop :=
  ∀ c ∈ lc, c.ep.Named

instance (lc : List ContactProto) : Decidable (AllNamed lc) :=
  inferInstanceAs (Decidable (∀ c ∈ lc, c.ep.Named))

theorem allBusy_eq {busy : Finset String} {lc : List ContactProto} (named : AllNamed lc) :
    allBusy busy lc = .ok (decide (∀ c ∈ lc, c.key ∈ busy)) := by
  induction lc with
  | nil => rfl
  | cons c rest ih =>
    rw [allBusy, assertNamed_named (named c (by simp)), ih fun d hd => named d (by simp [hd])]
    by_cases taken : c.key ∈ busy
    · simp [taken, bind, Except.bind]
    · simp [taken, bind, Except.bind, pure, Except.pure]

/-- The number of short-listed contacts in the bucket of the destination. -/
def inBucket (s : Search) : Nat :=
  s.shortList.countP fun c => s.sharedBits c = s.bucketNb

theorem countInBucket_eq {s : Search} {lc : List ContactProto} (named : AllNamed lc) :
    s.countInBucket lc = .ok (lc.countP fun c => s.sharedBits c = s.bucketNb) := by
  induction lc with
  | nil => rfl
  | cons c rest ih =>
    rw [countInBucket, assertNamed_named (named c (by simp)), ih fun d hd => named d (by simp [hd])]
    by_cases here : s.sharedBits c = s.bucketNb
    · simp [here, bind, Except.bind, pure, Except.pure]
    · simp [here, bind, Except.bind, pure, Except.pure]

/-- Every short-listed contact has been asked. -/
def exhausted (s : Search) : Bool :=
  decide (∀ c ∈ s.shortList, c.key ∈ s.mapNodeBusy)

/-- `is_bucket_full`, asserts aside. -/
def bucketFull (s : Search) : Bool :=
  decide (bucketSize ≤ s.inBucket) || s.exhausted

theorem isNodeFull_eq {s : Search} (named : AllNamed s.shortList) :
    s.isNodeFull = .ok s.exhausted :=
  allBusy_eq named

theorem isBucketFull_eq {s : Search} (named : AllNamed s.shortList) :
    s.isBucketFull = .ok s.bucketFull := by
  unfold isBucketFull shortListInBucket
  rw [countInBucket_eq named, isNodeFull_eq named]
  unfold bucketFull
  by_cases full : bucketSize ≤ s.inBucket
  · have counted : bucketSize ≤ s.shortList.countP fun c => s.sharedBits c = s.bucketNb := full
    simp [full, counted, bind, Except.bind, pure, Except.pure]
  · have counted : ¬ bucketSize ≤ s.shortList.countP fun c => s.sharedBits c = s.bucketNb := full
    simp [full, counted, bind, Except.bind]

/-! ## Comparing short lists -/

theorem endpointEq_true {a b : EndpointProto} (same : a.eq b = .ok true) : a = b := by
  simp only [EndpointProto.eq, bind_ok_iff] at same
  obtain ⟨_, _, _, _, _, _, _, _, same⟩ := same
  by_cases address : a.address = b.address <;> by_cases port : a.port = b.port <;>
    simp [address, port, pure, Except.pure] at same
  cases a
  cases b
  simp_all

theorem contactEq_true {a b : ContactProto} (same : a.eq b = .ok true) : a = b := by
  unfold ContactProto.eq at same
  by_cases key : a.key = b.key
  · simp only [key, ne_eq, not_true, if_false, bind_ok_iff] at same
    obtain ⟨equal, endpoints, same⟩ := same
    cases equal with
    | false => simp [pure, Except.pure] at same
    | true =>
      have ep := endpointEq_true endpoints
      obtain ⟨ak, ae, at'⟩ := a
      obtain ⟨bk, be, bt⟩ := b
      cases at' <;> cases bt <;> simp_all [pure, Except.pure]
  · simp [key, pure, Except.pure] at same

theorem contactsEq_true {as bs : List ContactProto} (length : as.length = bs.length)
    (same : contactsEq as bs = .ok true) : as = bs := by
  induction as generalizing bs with
  | nil => simpa using length.symm
  | cons a as ih =>
    cases bs with
    | nil => simp at length
    | cons b bs =>
      rw [contactsEq, bind_ok_iff] at same
      obtain ⟨first, here, rest⟩ := same
      cases first with
      | false => simp [pure, Except.pure] at rest
      | true => rw [contactEq_true here, ih (by simpa using length) (by simpa using rest)]

theorem contactListEq_true {as bs : List ContactProto} (same : contactListEq as bs = .ok true) :
    as = bs := by
  unfold contactListEq at same
  by_cases length : as.length = bs.length
  · exact contactsEq_true length (by simpa [length] using same)
  · simp [length] at same

end Search

end MiniDht
