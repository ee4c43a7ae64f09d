import Std.Data.TreeMap.Lemmas
import MiniDht.Const

/-!
# The contact list

Class `bucket`: a `std::multimap` from the number of leading bits a contact shares with
the local key to the contact. An iterator is a position in the entries; `entries.length`
is `end()`.
-/

namespace MiniDht

open Lib

/-- The order in which the operands of an assignment are evaluated, which C++ leaves
open before C++17 and fixes as `rightFirst` since. -/
inductive EvalOrder where
  | leftFirst
  | rightFirst
  deriving DecidableEq, Repr

/-- Class `bucket`. -/
structure Bucket where
  entries : List (Nat × ContactProto) := []
  localKey : String
  mapProximity : Std.TreeMap String String := ∅
  changed : Bool := true

namespace Bucket

/-- The constructor `bucket(k)`. -/
def new (k : String) : Bucket where
  localKey := k

/-- The bucket a key is filed in. -/
def common (b : Bucket) (k : String) : Nat :=
  commonBits (stringToKey b.localKey) (stringToKey k)

/-- `count(index)` of the multimap. -/
def count (b : Bucket) (index : Nat) : Nat :=
  b.entries.countP (·.1 = index)

/-- `find(index)` of the multimap: its first entry under `index`. -/
def find (b : Bucket) (index : Nat) : Nat :=
  b.entries.findIdx (·.1 = index)

/-- The entries under `index` as the loops over `count` steps from `find` visit them,
each with its position. -/
def range (b : Bucket) (index : Nat) : List (Nat × ContactProto) :=
  (List.range (b.count index)).filterMap fun i =>
    b.entries[b.find index + i]?.map fun e => (b.find index + i, e.2)

/-- `find_key`: the position of the entry with key `k`, if there is one. -/
def findKey (b : Bucket) (k : String) : Option Nat :=
  ((b.range (b.common k)).find? fun e => e.2.key = k).map Prod.fst

/-- The contact an iterator points to. -/
def contactAt (b : Bucket) (pos : Nat) : Option ContactProto :=
  b.entries[pos]?.map Prod.snd

/-- The contact filed under a key. -/
def lookup (b : Bucket) (k : String) : Option ContactProto :=
  ((b.range (b.common k)).find? fun e => e.2.key = k).map Prod.snd

/-- `operator[]`. -/
def get (b : Bucket) (k : String) : Except Fault EndpointProto :=
  match b.lookup k with
  | some c => .ok c.ep
  | none => .error (.thrown "unknown key")

/-- The loop of `remove_contact`, at position `pos`. After an erase it restarts at
`begin()` and `continue` steps over that entry; on a list left empty it steps past
`end()`. -/
def removeFrom (ep : EndpointProto) : Nat → Nat → List (Nat × ContactProto) →
    Except Fault (List (Nat × ContactProto))
  | 0, _, _ => .error .hang
  | fuel + 1, pos, entries =>
    match entries[pos]? with
    | none => .ok entries
    | some e => do
      if ← e.2.ep.eq ep then
        let entries := entries.eraseIdx pos
        if entries.length = 0 then throw .undefined
        removeFrom ep fuel 1 entries
      else removeFrom ep fuel (pos + 1) entries

/-- `remove_contact`. Each erase shortens the list and starts at most one more walk
over it, which bounds the steps. -/
def removeContact (b : Bucket) (ep : EndpointProto) : Except Fault Bucket := do
  let n := b.entries.length
  let entries ← removeFrom ep ((n + 1) * (n + 1)) 0 b.entries
  return { b with entries := entries }

/-- `insert(p)` of the multimap: after every entry with the same index. -/
def insertEntry (entries : List (Nat × ContactProto)) (p : Nat × ContactProto) :
    List (Nat × ContactProto) :=
  entries.takeWhile (·.1 ≤ p.1) ++ p :: entries.dropWhile (·.1 ≤ p.1)

/-- The last-seen time of the entry at a position; `pastEnd` is what is found there when
the position is `end()`. -/
def timeAt (b : Bucket) (pastEnd : UInt64) (pos : Nat) : UInt64 :=
  match b.contactAt pos with
  | some c => c.time.getD 0
  | none => pastEnd

/-- The entry a full bucket gives up. `map_time_ite[ite->second.time()] = ite++` files
position `first + i` under the time read through `ite`, which has already moved on when
the right operand is evaluated first. -/
def victim (b : Bucket) (order : EvalOrder) (pastEnd : UInt64) (index : Nat) : Nat :=
  let first := b.find index
  let mapTimeIte := (List.range (b.count index)).foldl (fun (m : Std.TreeMap UInt64 Nat) i =>
    let readAt := match order with
      | .leftFirst => first + i
      | .rightFirst => first + i + 1
    m.insert (b.timeAt pastEnd readAt) (first + i)) ∅
  (mapTimeIte.toList.head?.map Prod.snd).getD first

/-- `add_contact`, at clock reading `now`. -/
def addContact (b : Bucket) (order : EvalOrder) (pastEnd : UInt64) (now : Ptime) (k : String)
    (ep : EndpointProto) : Except Fault Bucket := do
  if k = b.localKey then return b
  let common := b.common k
  let c : ContactProto := { key := k, ep := ep }
  assertNamed c.ep
  let c := { c with time := some (toUnsigned (toTimeT now)) }
  match b.findKey k with
  | none =>
    let entries := if bucketSize ≤ b.count common
      then b.entries.eraseIdx (b.victim order pastEnd common) else b.entries
    return { b with entries := insertEntry entries (common, c), changed := true }
  | some pos =>
    match b.entries[pos]? with
    | none => throw .undefined
    | some e =>
      -- `operator!=` asserts on both endpoints even where the answer changes nothing
      let differs := !(← e.2.ep.eq ep)
      let e := if differs then (e.1, { e.2 with ep := ep }) else e
      let e := (e.1, { e.2 with time := some (toUnsigned (toTimeT now)) })
      return { b with entries := b.entries.set pos e }

/-- `build_proximity`: the cache, filled on the first call after an insertion. -/
def buildProximity (b : Bucket) (k : String) : Bucket :=
  if b.changed then
    let searchKey := stringToKey k
    let mapProximity := b.entries.foldl (fun (m : Std.TreeMap String String) e =>
      m.insert (bitsetToString (~~~(searchKey ^^^ stringToKey e.2.key))) e.2.key) ∅
    { b with mapProximity := mapProximity, changed := false }
  else b

/-- `random_key_in_bucket`: the bits from `bn` upwards are replaced by draws. -/
def randomKeyInBucket (b : Bucket) (draw : Nat → Bool) (bn : Nat) : String :=
  let key := stringToKey b.localKey
  keyToString (bitset (fun i => if i < bn then key.getLsbD i else draw (i - bn)) keySize)

end Bucket

end MiniDht
