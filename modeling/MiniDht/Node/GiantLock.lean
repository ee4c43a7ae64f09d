import MiniDht.Lib.Mutex
import MiniDht.Node.Meeting

/-!
# The lock of the node

The public calls, `handle_receive`, `handle_accept` and the sections of `periodic` take
`giant_lock_` with a guard, and all but `iterativeStore` also unlock it by hand where they
catch a `std::exception`. What runs inside may be any call here, so that an exception may
come at any point of it; `Input.locked` puts in what the node does.
-/

namespace MiniDht

open Lib

namespace Node

section Shells

variable {σ α : Type}

/-- A guard, and a `try` inside. -/
def guardedTry (x : Act σ α) : Act (Guarded σ) α :=
  Mutex.scopedLock (Mutex.unlocking (fun _ => "std::exception") (Mutex.inner x))

/-- A `try`, and a guard inside. -/
def tryGuarded (x : Act σ α) : Act (Guarded σ) α :=
  Mutex.unlocking (fun _ => "std::exception") (Mutex.scopedLock (Mutex.inner x))

/-- What runs in `periodic`. -/
structure Periodic (σ : Type) where
  refresh : Act σ Unit
  diversify : Act σ Unit
  headers : Act σ (List DataItemHeader)
  checkTime : Act σ Ptime
  /-- Whether an item is out of date, found out without the lock. -/
  elapsed : Ptime → DataItemHeader → Act σ Bool
  /-- The item is dropped or published again. -/
  clean : Ptime → DataItemHeader → Bool → Act σ Unit
  pause : Act σ Unit
  wait : Act σ Unit

/-- The loop over the headers. -/
def Periodic.cleanFrom (p : Periodic σ) (checkTime : Ptime) :
    List DataItemHeader → Act (Guarded σ) Unit
  | [] => return ()
  | h :: rest => do
    let expired ← Mutex.inner (p.elapsed checkTime h)
    Mutex.scopedLock (Mutex.inner (p.clean checkTime h expired))
    Mutex.inner p.pause
    p.cleanFrom checkTime rest

def Periodic.run (p : Periodic σ) : Act (Guarded σ) Unit := do
  tryGuarded p.refresh
  tryGuarded p.diversify
  Mutex.unlocking (fun _ => "std::exception") do
    let ldh ← Mutex.scopedLock (Mutex.inner p.headers)
    let checkTime ← Mutex.inner p.checkTime
    p.cleanFrom checkTime ldh
  tryGuarded p.wait

/-- The constructor and the operations, with what runs in each. -/
inductive Operation (σ : Type) where
  | miniDHT (body : Act σ Unit)
  | iterativeStore (body : Act σ Unit)
  | iterativeFindNode (body : Act σ Unit)
  | iterativeFindValue (body : Act σ Unit)
  | nodesDescription (body : Act σ Unit)
  | storageSize (body : Act σ Unit)
  | bucketSize (body : Act σ Unit)
  | getLocalKey (body : Act σ Unit)
  | getLocalEndpoint (body : Act σ Unit)
  | storageWaitQueue (body : Act σ Unit)
  | setMaxRecord (body : Act σ Unit)
  | getMaxRecord (body : Act σ Unit)
  | pingEndpoint (asserts body : Act σ Unit)
  | ping (asserts body : Act σ Unit)
  | handleReceive (read body : Act σ Unit)
  | handleAccept (body : Act σ Unit)
  | periodic (p : Periodic σ)

/-- An operation with its lock. -/
def Operation.run : Operation σ → Act (Guarded σ) Unit
  | miniDHT body => Mutex.scopedLock (Mutex.inner body)
  | iterativeStore body => Mutex.scopedLock (Mutex.inner body)
  | iterativeFindNode body => guardedTry body
  | iterativeFindValue body => guardedTry body
  | nodesDescription body => guardedTry body
  | storageSize body => guardedTry body
  | bucketSize body => guardedTry body
  | getLocalKey body => Mutex.inner body
  | getLocalEndpoint body => guardedTry body
  | storageWaitQueue body => Mutex.inner body
  | setMaxRecord body => guardedTry body
  | getMaxRecord body => Mutex.inner body
  | pingEndpoint asserts body => do
    Mutex.inner asserts
    guardedTry body
  | ping asserts body => do
    Mutex.inner asserts
    guardedTry body
  | handleReceive read body => Mutex.scopedLock do
    Mutex.inner read
    -- what is thrown on the way to `throw ex` takes its place
    Mutex.unlocking (fun _ => localEndpointError) (Mutex.inner body)
  | handleAccept body => tryGuarded body
  | periodic p => p.run

/-! ## Without the lock -/

/-- The third section of `periodic` without its lock. -/
def Periodic.cleaning (p : Periodic σ) (checkTime : Ptime) : List DataItemHeader → Act σ Unit
  | [] => return ()
  | h :: rest => do
    let expired ← p.elapsed checkTime h
    p.clean checkTime h expired
    p.pause
    p.cleaning checkTime rest

/-- `periodic` without its lock. -/
def Periodic.plain (p : Periodic σ) : Act σ Unit := do
  Act.rethrowAs "std::exception" p.refresh
  Act.rethrowAs "std::exception" p.diversify
  Act.rethrowAs "std::exception" do
    let ldh ← p.headers
    let checkTime ← p.checkTime
    p.cleaning checkTime ldh
  Act.rethrowAs "std::exception" p.wait

theorem follows_guardedTry (x : Act σ α) :
    Mutex.Follows .misused (guardedTry x) (Act.rethrowAs "std::exception" x) :=
  .scopedLock_unlocking _ x

theorem follows_tryGuarded (x : Act σ α) :
    Mutex.Follows .misused (tryGuarded x) (Act.rethrowAs "std::exception" x) :=
  .unlocking _ (.scopedLock x)

theorem Periodic.follows_clean (p : Periodic σ) (checkTime : Ptime) (ldh : List DataItemHeader) :
    Mutex.Follows .free (p.cleanFrom checkTime ldh) (p.cleaning checkTime ldh) := by
  induction ldh with
  | nil => exact .pure ()
  | cons h rest ih =>
    refine .bind (.inner _) fun expired => .bind (.scopedLock _) fun _ => ?_
    exact .bind (.inner _) fun _ => ih

/-- With a free lock `periodic` does what its sections do, and misuses the lock if one of
them raises a `std::exception`. -/
theorem Periodic.follows (p : Periodic σ) : Mutex.Follows .misused p.run p.plain := by
  refine .bind (follows_tryGuarded _) fun _ => .bind (follows_tryGuarded _) fun _ => ?_
  refine .bind (.unlocking _ ?_) fun _ => follows_tryGuarded _
  refine .bind (.scopedLock _) fun ldh => .bind (.inner _) fun checkTime => ?_
  exact p.follows_clean checkTime ldh

/-! ## When the lock is balanced -/

/-- No `std::exception` is raised where the operation would catch it. -/
def Operation.Quiet (s : σ) : Operation σ → Prop
  | miniDHT _ => True
  | iterativeStore _ => True
  | iterativeFindNode body => ¬ Act.Raises body s
  | iterativeFindValue body => ¬ Act.Raises body s
  | nodesDescription body => ¬ Act.Raises body s
  | storageSize body => ¬ Act.Raises body s
  | bucketSize body => ¬ Act.Raises body s
  | getLocalKey _ => True
  | getLocalEndpoint body => ¬ Act.Raises body s
  | storageWaitQueue _ => True
  | setMaxRecord body => ¬ Act.Raises body s
  | getMaxRecord _ => True
  | pingEndpoint asserts body => ∀ s', Act.exec asserts s = (.ok (), s') → ¬ Act.Raises body s'
  | ping asserts body => ∀ s', Act.exec asserts s = (.ok (), s') → ¬ Act.Raises body s'
  | handleReceive read body => ∀ s', Act.exec read s = (.ok (), s') → ¬ Act.Raises body s'
  | handleAccept body => ¬ Act.Raises body s
  | periodic p => ¬ Act.Raises p.plain s

theorem raises_rethrowAs {what : String} {x : Act σ α} {s : σ} :
    Act.Raises (Act.rethrowAs what x) s ↔ Act.Raises x s :=
  Act.throws_rethrowAs

theorem balanced_guardedTry {x : Act σ α} {s : σ} :
    Mutex.Balanced (Act.exec (guardedTry x) { state := s }) ↔ ¬ Act.Raises x s := by
  rw [(follows_guardedTry x).balanced_iff, raises_rethrowAs]

/-- **The lock of the node.** Wherever an exception is raised in an operation, the lock is
released exactly once after it was taken, and never unlocked by one who does not hold it,
if and only if no `std::exception` is raised where the operation catches it. -/
theorem giantLock_balanced_iff (op : Operation σ) (s : σ) :
    Mutex.Balanced (Act.exec op.run { state := s }) ↔ op.Quiet s := by
  cases op with
  | miniDHT body | iterativeStore body =>
    exact iff_of_true ((Mutex.Follows.scopedLock body).balanced s) trivial
  | getLocalKey body | storageWaitQueue body | getMaxRecord body =>
    exact iff_of_true ((Mutex.Follows.inner body).balanced s) trivial
  | iterativeFindNode body | iterativeFindValue body | nodesDescription body | storageSize body
  | bucketSize body | getLocalEndpoint body | setMaxRecord body => exact balanced_guardedTry
  | pingEndpoint asserts body | ping asserts body =>
    exact Mutex.balanced_before.trans
      (forall_congr' fun s' => imp_congr_right fun _ => balanced_guardedTry)
  | handleReceive read body =>
    refine Mutex.balanced_scopedLock_before.trans
      (forall_congr' fun s' => imp_congr_right fun _ => ?_)
    rw [(Mutex.Follows.scopedLock_unlocking localEndpointError body).balanced_iff, raises_rethrowAs]
  | handleAccept body =>
    exact ((follows_tryGuarded body).balanced_iff s).trans (not_congr raises_rethrowAs)
  | periodic p => exact p.follows.balanced_iff s

end Shells

/-! ## What the node runs -/

variable {w : World}

/-- What `handle_receive` runs inside its `try`. -/
def receiveBody (w : World) (ep : Endpoint) (body : List UInt8) : NodeM Unit := do
  modify fun s => { s with senderEndpoint := ep }
  let epp ← Act.ofExcept (endpointToProto ep)
  handleMessageFrom w (w.parse body).2 epp

/-- A packet with the lock. -/
def receiving (w : World) (ep : Endpoint) (body : List UInt8) : Operation Node :=
  .handleReceive (pure ()) (receiveBody w ep body)

/-- A packet with no message in it: the handler unlocks, and the guard again. -/
theorem receiving_unbalanced :
    ∃ s, Reachable (.simple []) s ∧ ¬ Mutex.Balanced
      (Act.exec (receiving (.simple []) s.senderEndpoint []).run { state := s }) := by
  obtain ⟨s, reach, -⟩ := reachable_fresh (w := .simple []) Sqlite.inOrder_sound 1 0 {}
  refine ⟨s, reach, fun balanced => ?_⟩
  have follows := Mutex.Follows.scopedLock_unlocking localEndpointError
    (receiveBody (.simple []) s.senderEndpoint [])
  apply (follows.balanced_iff s).mp balanced
  rw [raises_rethrowAs]
  refine ⟨"Unknown message type.", ?_⟩
  rw [receiveBody, Act.exec_bind_ok (Act.exec_modify _ _), endpointToProto_eq,
    Act.exec_bind_ok (Act.exec_ofExcept _ _)]
  rfl

/-- `periodic` as the node runs it; the timer and the pauses do nothing to the node. -/
def periodicParts (w : World) : Periodic Node where
  refresh := do
    let n := (← get).contactList.entries.length
    refreshFrom w ((n + 1) * (n + 1)) 0
  diversify := diversifyFrom w (List.range (keySize - 1))
  headers := onStorage (DbMultiKeyData.listHeaders w.storage)
  checkTime := updateTime w
  elapsed checkTime h := return decide (seconds h.ttl < checkTime - fromTimeT h.time)
  clean checkTime h expired :=
    if expired then onStorage (DbMultiKeyData.remove w.storage h.key h.title)
    else do
      let item ← onStorage (DbMultiKeyData.findTitle w.storage h.key h.title {})
      let timeElapsed := checkTime - fromTimeT h.time
      iterativeStore w h.key { item with ttl := item.ttl - toUnsigned (toTimeT timeElapsed) }
  pause := return ()
  wait := do let _ ← updateTime w

/-- An input with the lock. -/
def Input.locked (w : World) : Input → Act (Guarded Node) Unit
  | receive ep body => (receiving w ep body).run
  | disconnect ep => Mutex.inner (handleDisconnect ep)
  | iterativeStore k b => (Operation.iterativeStore (Node.iterativeStore w k b)).run
  | iterativeFindNode k => (Operation.iterativeFindNode (iterativeFindNodeNolock w k)).run
  | iterativeFindValue k c hint => (Operation.iterativeFindValue do
      let t ← newSearch w k .value fun search =>
        { search with valueCallback := some c, hint := hint }
      startNodeLookup w t k).run
  | pingEndpoint epp t =>
    (Operation.pingEndpoint (Act.ofExcept (assertNamed epp)) (sendPingTo w epp t)).run
  | ping toId t =>
    (Operation.ping (Act.ofExcept (assertThat (toId ≠ zeroId))) (sendPing w toId t)).run
  | setMaxRecord val => (Operation.setMaxRecord (modify fun s => { s with maxRecords := val })).run
  | refreshContacts => tryGuarded (periodicParts w).refresh
  | diversify => tryGuarded (periodicParts w).diversify
  | storedHeaders => do
    let _ ← tryGuarded (periodicParts w).headers
  | cleanHeader checkTime h => Mutex.unlocking (fun _ => "std::exception") do
    let expired ← Mutex.inner ((periodicParts w).elapsed checkTime h)
    Mutex.scopedLock (Mutex.inner ((periodicParts w).clean checkTime h expired))

/-- A call that catches what it raises, after asserts made twice. -/
theorem follows_asserted {asserts : Except Fault Unit}
    (quiet : ∀ what, asserts ≠ .error (.exception what)) (x : NodeM Unit) :
    Mutex.Follows .misused
      (do
        Mutex.inner (Act.ofExcept asserts)
        guardedTry do
          Act.ofExcept asserts
          Act.catchStd x)
      (do
        Act.ofExcept asserts
        Act.catchStd x) := by
  intro s
  cases asserts with
  | ok u =>
    obtain ⟨m, leaves, run⟩ := follows_guardedTry (do Act.ofExcept (.ok u); Act.catchStd x) s
    have caught : Act.exec (Act.rethrowAs "std::exception" do
        Act.ofExcept (.ok u)
        Act.catchStd x) s = Act.exec (Act.catchStd x) s := by
      rw [Act.exec_rethrowAs, Act.exec_bind_ok (Act.exec_ofExcept _ _), Act.exec_catchStd]
      generalize Act.exec x s = r
      obtain ⟨o, s'⟩ := r
      rcases o with (_ | _ | _ | _ | _) | _ <;> rfl
    rw [caught] at leaves run
    rw [Act.exec_bind_ok (Act.exec_ofExcept _ _)]
    exact ⟨m, leaves, run⟩
  | error e =>
    refine ⟨.free, ?_, rfl⟩
    cases e with
    | exception what => exact absurd rfl (quiet what)
    | thrown what => rfl
    | _ => simp [Act.exec_bind, Mutex.Leaves]

theorem assertThat_quiet (p : Prop) [Decidable p] (what : String) :
    assertThat p ≠ .error (.exception what) := by
  by_cases h : p
  · simp [assertThat_pos h]
  · simp [assertThat_neg h]

theorem assertNamed_quiet (epp : EndpointProto) (what : String) :
    assertNamed epp ≠ .error (.exception what) := by
  unfold assertNamed
  by_cases address : epp.address ≠ ""
  · rw [assertThat_pos address]
    exact assertThat_quiet _ what
  · rw [assertThat_neg address]
    simp [bind, Except.bind]

/-- **The model of the node is what its lock is around.** With a free lock an input with its
lock does to the node what the input does. -/
theorem Input.follows (input : Input) :
    ∃ raised, Mutex.Follows raised (input.locked w) (input.run w) := by
  cases input with
  | receive ep body =>
    exact ⟨_, .scopedLock_unlocking localEndpointError (receiveBody w ep body)⟩
  | disconnect ep => exact ⟨_, .inner _⟩
  | iterativeStore k b => exact ⟨_, .scopedLock _⟩
  | iterativeFindNode k => exact ⟨_, follows_guardedTry _⟩
  | iterativeFindValue k c hint => exact ⟨_, follows_guardedTry _⟩
  | pingEndpoint epp t =>
    simp only [locked, run, Operation.run, sendPingTo]
    exact ⟨_, follows_asserted (assertNamed_quiet epp) _⟩
  | ping toId t =>
    simp only [locked, run, Operation.run, sendPing, checked]
    exact ⟨_, follows_asserted (assertThat_quiet _) _⟩
  | setMaxRecord val => exact ⟨_, .congr (follows_guardedTry _) fun s => rfl⟩
  | refreshContacts => exact ⟨_, follows_tryGuarded _⟩
  | diversify => exact ⟨_, follows_tryGuarded _⟩
  | storedHeaders => exact ⟨_, .bind (follows_tryGuarded _) fun _ => .pure ()⟩
  | cleanHeader checkTime h =>
    refine ⟨_, .congr (.unlocking _ (.bind (.inner _) fun _ => .scopedLock _)) fun s => ?_⟩
    rw [run, Node.cleanHeader, Act.exec_rethrowAs, Act.exec_rethrowAs]
    have weighed : Act.exec ((periodicParts w).elapsed checkTime h) s =
        (.ok (decide (seconds h.ttl < checkTime - fromTimeT h.time)), s) := rfl
    rw [Act.exec_bind_ok weighed]
    by_cases expired : seconds h.ttl < checkTime - fromTimeT h.time
    · simp only [periodicParts, expired, decide_true, if_true]
    · simp only [periodicParts, expired, decide_false, Bool.false_eq_true, if_false]

end Node

end MiniDht
