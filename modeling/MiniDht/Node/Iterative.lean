import MiniDht.Node.Send

/-!
# Iterative searches

A search starts from the contacts the node has (`startNodeLookup`). Every list of
contacts delivered to it is one round (`replyIterative`): the short list is brought up to
date, and the round either ends the search or asks the next contacts.
-/

namespace MiniDht

open Lib

namespace Node

/-- The loop of a round that asks: at most `n` contacts, until all have been asked. -/
def askNodes (t : Token) (send : String → NodeM Unit) : Nat → NodeM Unit
  | 0 => return ()
  | n + 1 => do
    if ← Act.ofExcept (← searchAt t).isNodeFull then return ()
    let (key, search) ← Act.ofExcept (← searchAt t).getNodeKey
    putSearch t search
    send key
    askNodes t send n

/-- The loop that ends a store search, bounded by `fuel`: every short-listed contact is
sent the item. -/
def storeAll (w : World) (t : Token) (k : String) : (fuel : Nat) → NodeM Unit
  | 0 => throw .hang
  | fuel + 1 => do
    if ← Act.ofExcept (← searchAt t).isValueFull then return ()
    let (key, search) ← Act.ofExcept (← searchAt t).getValueKey
    putSearch t search
    sendStore w key k search.buffer t
    storeAll w t k fuel

/-- `call_node_callback`; an empty `boost::function` throws. -/
def callNodeCallback (w : World) (search : Search) : NodeM Unit :=
  match search.nodeCallback with
  | some c => Act.ofExcept (w.nodeCallback c (search.shortList.map (·.key)))
  | none => throw (.exception "call to empty boost::function")

def replyIterativeNodeSearch (w : World) (lc : List ContactProto) (t : Token) (k : String) :
    NodeM Unit := do
  let (settled, search) ← Act.ofExcept ((← searchAt t).updateList lc)
  putSearch t search
  if settled then
    if search.nodeCallbackValid then Act.catchStd (callNodeCallback w search)
    eraseSearch t
  else askNodes t (fun key => sendFindNode w key k t) alpha

/-- A value search asks on whatever `update_list` answers. -/
def replyIterativeValueSearch (w : World) (lc : List ContactProto) (t : Token) (k : String) :
    NodeM Unit := do
  let (_, search) ← Act.ofExcept ((← searchAt t).updateList lc)
  putSearch t search
  askNodes t (fun key => sendFindValue w key k t) alpha

def replyIterativeStoreSearch (w : World) (lc : List ContactProto) (t : Token) (k : String) :
    NodeM Unit := do
  Act.ofExcept (assertThat (k ≠ zeroId))
  let (settled, search) ← Act.ofExcept ((← searchAt t).updateList lc)
  putSearch t search
  if settled then
    storeAll w t k (search.shortList.length + 1)
    eraseSearch t
  else askNodes t (fun key => sendFindNode w key k t) alpha

def replyIterative (w : World) (lc : List ContactProto) (t : Token) (k : String) : NodeM Unit := do
  match (← searchAt t).searchType with
  | .node => replyIterativeNodeSearch w lc t k
  | .value => replyIterativeValueSearch w lc t k
  | .store => replyIterativeStoreSearch w lc t k

/-- The loop of `startNodeLookup`: the cached keys that are still in the contact list,
with their endpoints. -/
def proximityContacts (b : Bucket) : List String → Except Fault (List ContactProto)
  | [] => .ok []
  | key :: rest =>
    match b.findKey key with
    | none => proximityContacts b rest
    | some _ => do
      let ep ← b.get key
      assertNamed ep
      let lc ← proximityContacts b rest
      return { key := key, ep := ep } :: lc

def startNodeLookup (w : World) (t : Token) (k : String) : NodeM Unit := do
  modify fun s => { s with contactList := s.contactList.buildProximity k }
  let contactList := (← get).contactList
  let lc ← Act.ofExcept
    (proximityContacts contactList (contactList.mapProximity.toList.map Prod.snd))
  replyIterative w lc t k

/-! ## Starting a search -/

/-- `map_search[t] = search_t(id_, k, type)` under a new token, with the fields its
caller then sets. -/
def newSearch (w : World) (k : String) (type : SearchType) (fill : Search → Search) :
    NodeM Token := do
  let t ← randomToken w
  putSearch t (fill (Search.new (← get).id k type))
  return t

/-- `iterativeStore`, with and without lock. -/
def iterativeStore (w : World) (k : String) (b : DataItemProto) : NodeM Unit := do
  let t ← newSearch w k .store fun search => { search with buffer := b }
  startNodeLookup w t k

/-- `iterativeFindNode_nolock`. -/
def iterativeFindNodeNolock (w : World) (k : String) : NodeM Unit := do
  let t ← newSearch w k .node fun search => { search with nodeCallbackValid := false }
  startNodeLookup w t k

/-- `iterativeFindNode`. What is thrown on is sliced to a `std::exception`. -/
def iterativeFindNode (w : World) (k : String) : NodeM Unit :=
  Act.rethrowAs "std::exception" (iterativeFindNodeNolock w k)

/-- `iterativeFindValue`. -/
def iterativeFindValue (w : World) (k : String) (c : Nat) (hint : String) : NodeM Unit :=
  Act.rethrowAs "std::exception" do
    let t ← newSearch w k .value fun search =>
      { search with valueCallback := some c, hint := hint }
    startNodeLookup w t k

end Node

end MiniDht
