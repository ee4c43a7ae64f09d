import MiniDht.Session.Life

/-!
# The registry of sessions

A session is put under the endpoint of its last header, and when it is deleted only the
entry under that endpoint goes. An entry under an endpoint it announced before stays, and
points to memory that has been freed. So does one that a handler makes for a session that
is deleted already. There is no third way.
-/

namespace MiniDht

namespace Arrival

/-- The completion fails, and the handler of the session `s` gives up a reference. -/
def Fails (packetSize : Nat) (s : Session) : Arrival → Prop
  | .connected _ error => error = true
  | .header _ bytes attached => ¬ s.Reads packetSize bytes attached
  | .body _ bytes => bytes = none
  | .written _ error => error = true
  | _ => False

/-- A header that puts its session `s` into the registry. -/
def Enters (packetSize : Nat) (s : Session) : Arrival → Prop
  | .header _ bytes attached => s.Reads packetSize bytes attached
  | _ => False

theorem not_enters {packetSize : Nat} {s : Session} {a : Arrival} (fails : a.Fails packetSize s) :
    ¬ a.Enters packetSize s := by
  cases a with
  | header i bytes attached => exact fails
  | accepted => exact not_false
  | sent => exact not_false
  | connected => exact not_false
  | body => exact not_false
  | handled => exact not_false
  | written => exact not_false

/-- The session a completion is for. -/
def session : Arrival → Option Nat
  | .accepted _ _ => none
  | .sent _ _ _ => none
  | .connected i _ => i
  | .header i _ _ => i
  | .body i _ => i
  | .handled i _ => i
  | .written i _ => i

end Arrival

namespace Registry

variable {packetSize : Nat} {r r' : Registry} {a : Arrival} {i j : Nat} {s : Session}

/-- Whether the memory of a session has been freed. -/
def deletedAt (r : Registry) (i : Nat) : Option Bool :=
  r.sessions[i]?.map Session.deleted

/-- Every entry points to a session that has not been deleted. -/
def Live (r : Registry) : Prop :=
  ∀ key i, r.mapEpProtoSession key = some i → r.deletedAt i = some false

/-- The registry has lost nothing, and no session either. -/
structure Quiet (r r' : Registry) : Prop where
  map : r'.mapEpProtoSession = r.mapEpProtoSession
  kept : ∀ j b, r.deletedAt j = some b → r'.deletedAt j = some b

/-- A session has been deleted, and the entry under one endpoint with it. -/
structure Ended (r : Registry) (i : Nat) (key : EndpointProto) (r' : Registry) : Prop where
  map : r'.mapEpProtoSession = Function.update r.mapEpProtoSession key none
  gone : r'.deletedAt i = some true
  others : ∀ j ≠ i, r'.deletedAt j = r.deletedAt j

/-- A session has been put under an endpoint. -/
structure Entered (r : Registry) (i : Nat) (key : EndpointProto) (r' : Registry) : Prop where
  map : r'.mapEpProtoSession = Function.update r.mapEpProtoSession key (some i)
  kept : ∀ j, r'.deletedAt j = r.deletedAt j

section Entries

variable {map : EndpointProto → Option Nat} {key : EndpointProto} {P : Nat → Prop}

theorem entries_erase : (∀ key' j, Function.update map key none key' = some j → P j) ↔
    ∀ key' j, key' ≠ key → map key' = some j → P j := by
  refine forall₂_congr fun key' j => ?_
  by_cases same : key' = key
  · simp [same]
  · simp [same]

theorem entries_enter : (∀ key' j, Function.update map key (some i) key' = some j → P j) ↔
    P i ∧ ∀ key' j, key' ≠ key → map key' = some j → P j := by
  constructor
  · intro all
    refine ⟨all key i (Function.update_self _ _ _), fun key' j other entry => all key' j ?_⟩
    rwa [Function.update_of_ne other]
  · rintro ⟨new, old⟩ key' j entry
    by_cases same : key' = key
    · rw [same, Function.update_self] at entry
      exact Option.some.inj entry ▸ new
    · rw [Function.update_of_ne same] at entry
      exact old key' j same entry

end Entries

theorem Quiet.live (quiet : r.Quiet r') (live : r.Live) : r'.Live := by
  intro key i entry
  rw [quiet.map] at entry
  exact quiet.kept i false (live key i entry)

theorem Ended.live_iff {key : EndpointProto} (ended : r.Ended i key r') (live : r.Live) :
    r'.Live ↔ ∀ key', r.mapEpProtoSession key' = some i → key' = key := by
  rw [Live, ended.map, entries_erase]
  constructor
  · intro after key' entry
    by_contra other
    have left := after key' i other entry
    rw [ended.gone] at left
    cases left
  · intro only key' j other entry
    have apart : j ≠ i := fun here => other (only key' (here ▸ entry))
    rw [ended.others j apart]
    exact live key' j entry

theorem Entered.live_iff {key : EndpointProto} (entered : r.Entered i key r') (live : r.Live) :
    r'.Live ↔ r.deletedAt i = some false := by
  rw [Live, entered.map, entries_enter]
  simp only [entered.kept]
  exact and_iff_left fun key' j _ entry => live key' j entry

/-! ## What a handler does -/

section Handlers

variable {s₀ : Session} (here : r.sessions[i]? = some s₀)
include here

theorem deletedAt_self : r.deletedAt i = some s₀.deleted := by
  rw [deletedAt, here]
  rfl

theorem deletedAt_put : (r.put i s).deletedAt j = if j = i then some s.deleted else r.deletedAt j := by
  have inside : i < r.sessions.length := (List.getElem?_eq_some_iff.mp here).1
  by_cases same : j = i
  · subst same
    simp [deletedAt, put, inside]
  · simp [deletedAt, put, same, Ne.symm same]

theorem quiet_put (alike : s.deleted = s₀.deleted) : r.Quiet (r.put i s) where
  map := rfl
  kept j b there := by
    rw [deletedAt_put here]
    split
    next same =>
      rw [same, deletedAt_self here] at there
      rwa [alike]
    next => exact there

/-- `release` deletes a session whose last reference it gives up. -/
theorem ended_release (last : s.refCount ≤ 1) : r.Ended i s.ep.proto (r.release i s) := by
  have none : s.drop.refCount ≤ 0 := by
    show s.refCount - 1 ≤ 0
    omega
  rw [release, if_pos none]
  have after (j : Nat) := deletedAt_put (j := j) (s := { s.drop with deleted := true }) here
  exact ⟨rfl, (after i).trans (if_pos rfl), fun j other => (after j).trans (if_neg other)⟩

theorem quiet_release (more : 1 < s.refCount) (alike : s.deleted = s₀.deleted) :
    r.Quiet (r.release i s) := by
  have some : ¬ s.drop.refCount ≤ 0 := by
    show ¬ s.refCount - 1 ≤ 0
    omega
  rw [release, if_neg some]
  exact quiet_put here alike

theorem entered_enter (key : EndpointProto) (alike : s.deleted = s₀.deleted) :
    r.Entered i key ((r.put i s).enter i key) := by
  have kept (j : Nat) : (r.put i s).deletedAt j = r.deletedAt j := by
    rw [deletedAt_put here]
    split
    next same => rw [same, deletedAt_self here, alike]
    next => rfl
  rw [enter]
  cases entry : r.mapEpProtoSession key with
  | none =>
    simp only [put, entry]
    exact ⟨rfl, kept⟩
  | some j =>
    simp only [put, entry]
    split
    next same =>
      refine ⟨?_, kept⟩
      rw [← same, ← entry, Function.update_eq_self]
    next => exact ⟨Function.update_idem _ _ _, kept⟩

end Handlers

/-! ## What an arrival does -/

/-- A completion that fails for the last references of a session finds no entry of it but
the one under its endpoint, and a header is not read for a session that is deleted. -/
def Harmless (packetSize : Nat) (r : Registry) (a : Arrival) : Prop :=
  ∀ i s, a.session = some i → r.sessions[i]? = some s →
    (a.Fails packetSize s → s.refCount ≤ 2 →
      ∀ key, r.mapEpProtoSession key = some i → key = s.ep.proto) ∧
    (a.Enters packetSize s → s.deleted = false)

/-- A completion is one session's. -/
theorem forall_own {P : Nat → Session → Prop} (own : a.session = some i)
    (here : r.sessions[i]? = some s) :
    (∀ i' s', a.session = some i' → r.sessions[i']? = some s' → P i' s') ↔ P i s := by
  constructor
  · exact fun all => all i s own here
  · intro holds i' s' own' here'
    obtain rfl : i = i' := Option.some.inj (own.symm.trans own')
    obtain rfl : s = s' := Option.some.inj (here.symm.trans here')
    exact holds

/-- A completion is of an outstanding operation. -/
theorem of_completes {op : Op} {f : Session → Option Registry}
    (stepped : (r.completes i op).bind f = some r') :
    ∃ s₀, r.sessions[i]? = some s₀ ∧ op ∈ s₀.pending ∧
      f { s₀ with pending := s₀.pending.erase op } = some r' := by
  obtain ⟨s, complete, stepped⟩ := Option.bind_eq_some_iff.mp stepped
  rw [completes] at complete
  split at complete
  · cases complete
  next s₀ here =>
    split at complete
    next outstanding =>
      cases complete
      exact ⟨s₀, here, outstanding, stepped⟩
    · cases complete

/-- What an arrival does to the registry: the completion that fails for the last references
of a session deletes it, a header that is read enters it, and nothing else matters. -/
inductive Effect (packetSize : Nat) (r : Registry) (a : Arrival) (r' : Registry) : Prop where
  | ended (i : Nat) (s : Session) (own : a.session = some i) (here : r.sessions[i]? = some s)
      (fails : a.Fails packetSize s) (last : s.refCount ≤ 2) (ended : r.Ended i s.ep.proto r')
  | entered (i : Nat) (s : Session) (key : EndpointProto) (own : a.session = some i)
      (here : r.sessions[i]? = some s) (enters : a.Enters packetSize s) (entered : r.Entered i key r')
  | quiet (quiet : r.Quiet r') (idle : ∀ i s, a.session = some i → r.sessions[i]? = some s →
      (a.Fails packetSize s → 2 < s.refCount) ∧ ¬ a.Enters packetSize s)

section Completion

variable {s₀ : Session} (own : a.session = some i) (here : r.sessions[i]? = some s₀)
  (alike : s.deleted = s₀.deleted)
include own here alike

/-- A handler that gives up the reference of its completion, and then one more. -/
theorem effect_release (fails : a.Fails packetSize s₀) (count : s.refCount = s₀.refCount - 1)
    (ep : s.ep = s₀.ep) : Effect packetSize r a (r.release i s) := by
  by_cases last : s₀.refCount ≤ 2
  · refine .ended i s₀ own here fails last ?_
    rw [← ep]
    exact ended_release here (by omega)
  · refine .quiet (quiet_release here (by omega) alike) ((forall_own own here).mpr ?_)
    exact ⟨fun _ => by omega, Arrival.not_enters fails⟩

/-- A handler that only writes to the session. -/
theorem effect_put (succeeds : ¬ a.Fails packetSize s₀) (idle : ¬ a.Enters packetSize s₀) :
    Effect packetSize r a (r.put i s) := by
  refine .quiet (quiet_put here alike) ((forall_own own here).mpr ?_)
  exact ⟨fun fails => absurd fails succeeds, idle⟩

end Completion

/-- A session more changes nothing for those there are. -/
theorem quiet_append (s : Session) : r.Quiet { r with sessions := r.sessions ++ [s] } where
  map := rfl
  kept j b there := by
    obtain ⟨s₀, here, rfl⟩ := Option.map_eq_some_iff.mp there
    have inside : j < r.sessions.length := (List.getElem?_eq_some_iff.mp here).1
    simp [deletedAt, List.getElem?_append_left inside, here]

theorem quiet_sendMessage (uep : Endpoint) (msg : BasicMessage) : r.Quiet (r.sendMessage uep msg) := by
  rw [sendMessage]
  split
  · exact quiet_append _
  · split
    · exact ⟨rfl, fun _ _ there => there⟩
    next s here => exact quiet_put here (s.deliver_deleted msg)

theorem effect_handleReadHeader {s₀ : Session} (here : r.sessions[i]? = some s₀)
    (bytes : Session.HeaderBytes) (attached : Bool) (pending : List Op) :
    Effect packetSize r (.header i bytes attached)
      (handleReadHeader packetSize r i { s₀ with pending := pending } bytes attached) := by
  rw [handleReadHeader]
  by_cases reads : s₀.Reads packetSize bytes attached
  · obtain ⟨readMsg, ep, read⟩ := Session.headerRead_ok
      (s := { s₀ with pending := pending }.drop) reads
    rw [read]
    exact .entered i s₀ _ rfl here reads (entered_enter here _ rfl)
  · obtain ⟨readMsg, read⟩ := Session.headerRead_error
      (s := { s₀ with pending := pending }.drop) reads
    rw [read]
    exact effect_release rfl here rfl reads rfl rfl

theorem step_effect (stepped : r.step packetSize a = some r') : Effect packetSize r a r' := by
  cases a with
  | accepted remote attached =>
    cases stepped
    exact .quiet (quiet_append _) fun i s own => by cases own
  | sent uep listenPort bytes =>
    cases stepped
    exact .quiet (quiet_sendMessage _ _) fun i s own => by cases own
  | connected i error =>
    obtain ⟨s₀, here, -, ends⟩ := of_completes stepped
    cases ends
    cases error with
    | true => exact effect_release rfl here rfl rfl rfl rfl
    | false => exact effect_put rfl here rfl Bool.false_ne_true not_false
  | header i bytes attached =>
    obtain ⟨s₀, here, -, ends⟩ := of_completes stepped
    cases ends
    exact effect_handleReadHeader here bytes attached _
  | body i bytes =>
    obtain ⟨s₀, here, -, ends⟩ := of_completes stepped
    obtain ⟨-, -, ends⟩ := Option.bind_eq_some_iff.mp ends
    cases ends
    cases bytes with
    | none => exact effect_release rfl here rfl rfl rfl rfl
    | some bytes => exact effect_put rfl here rfl (by simp [Arrival.Fails]) not_false
  | handled i threw =>
    obtain ⟨s₀, here, -, ends⟩ := of_completes stepped
    cases ends
    exact effect_put rfl here (by cases threw <;> rfl) not_false not_false
  | written i error =>
    obtain ⟨s₀, here, -, ends⟩ := of_completes stepped
    cases ends
    cases error with
    | true => exact effect_release rfl here rfl rfl rfl rfl
    | false => exact effect_put rfl here (Session.written_deleted _) Bool.false_ne_true not_false

/-- An arrival leaves every entry live if and only if it is harmless. -/
theorem live_step (stepped : r.step packetSize a = some r') (live : r.Live) :
    r'.Live ↔ Harmless packetSize r a := by
  cases step_effect stepped with
  | ended i s own here fails last ended =>
    rw [ended.live_iff live, Harmless, forall_own own here]
    constructor
    · exact fun only => ⟨fun _ _ => only, fun enters => absurd enters (Arrival.not_enters fails)⟩
    · exact fun harmless => harmless.1 fails last
  | entered i s key own here enters entered =>
    rw [entered.live_iff live, deletedAt_self here, Option.some.injEq, Harmless, forall_own own here]
    constructor
    · exact fun alive => ⟨fun fails => absurd enters (Arrival.not_enters fails), fun _ => alive⟩
    · exact fun harmless => harmless.2 enters
  | quiet quiet idle =>
    refine iff_of_true (quiet.live live) fun i s own here => ⟨fun fails last => ?_, fun enters => ?_⟩
    · have more := (idle i s own here).1 fails
      omega
    · exact absurd enters (idle i s own here).2

/-! ## Runs -/

/-- The sessions of a node after arrivals in any order, with what each of them came to. -/
inductive Ran (packetSize : Nat) : List (Registry × Arrival) → Registry → Prop where
  | start : Ran packetSize [] {}
  | step {steps : List (Registry × Arrival)} {r r' : Registry} {a : Arrival}
      (ran : Ran packetSize steps r) (stepped : r.step packetSize a = some r') :
      Ran packetSize (steps ++ [(r, a)]) r'

/-- **The registry.** In a run every entry refers to a session that has not been deleted, at
all times, if and only if every arrival is harmless. -/
theorem registry_live_iff {steps : List (Registry × Arrival)} (ran : Ran packetSize steps r) :
    (∀ r' ∈ steps.map Prod.fst ++ [r], r'.Live) ↔
      ∀ step ∈ steps, Harmless packetSize step.1 step.2 := by
  induction ran with
  | start =>
    have empty : ({} : Registry).Live := fun key i entry => by cases entry
    simpa using empty
  | @step steps r r' a ran stepped ih =>
    simp only [List.map_append, List.map_cons, List.map_nil, List.forall_mem_append,
      List.forall_mem_singleton] at ih ⊢
    rw [← ih]
    constructor
    · rintro ⟨before, after⟩
      exact ⟨before, (live_step stepped before.2).mp after⟩
    · rintro ⟨before, harmless⟩
      exact ⟨before, (live_step stepped before.2).mpr harmless⟩

/-! ### A session that announces two ports -/

/-- The arrivals one after the other. -/
def runAll (packetSize : Nat) (r : Registry) : List Arrival → Option Registry
  | [] => some r
  | a :: rest => do runAll packetSize (← r.step packetSize a) rest

theorem exists_ran {arrivals : List Arrival} {steps : List (Registry × Arrival)}
    (ran : Ran packetSize steps r) (run : r.runAll packetSize arrivals = some r') :
    ∃ steps', Ran packetSize (steps ++ steps') r' ∧ steps'.map Prod.snd = arrivals := by
  induction arrivals generalizing r steps with
  | nil =>
    cases run
    exact ⟨[], by simpa using ran, rfl⟩
  | cons a rest ih =>
    obtain ⟨r₁, stepped, run⟩ := Option.bind_eq_some_iff.mp run
    obtain ⟨steps', ran', arrivals⟩ := ih (ran.step stepped) run
    refine ⟨(r, a) :: steps', by simpa using ran', ?_⟩
    rw [List.map_cons, arrivals]

/-- The header of an empty message from a node that listens on the port. -/
def announces (port : UInt16) : Session.HeaderBytes :=
  some ⟨(BasicMessage.frame (1024 * 1024) port []).header, BasicMessage.length_header _⟩

/-- A peer connects and sends an empty message. -/
def greets : List Arrival :=
  [.accepted { address := "10.0.0.1", port := 50000, printed := by decide } true,
    .header 0 (announces 1) true, .body 0 (some []), .handled 0 false]

/-- It announces another port with the next message, and is gone before the body. -/
def moves : List Arrival := greets ++ [.header 0 (announces 2) true, .body 0 none]

/-- The theorem at a run with a peer that announces one port. -/
theorem registry_live_iff_greets : ∃ (steps : List (Registry × Arrival)) (r : Registry),
    steps.map Prod.snd = greets ∧ ((∀ r' ∈ steps.map Prod.fst ++ [r], r'.Live) ↔
      ∀ step ∈ steps, Harmless (1024 * 1024) step.1 step.2) := by
  have returns : (runAll (1024 * 1024) {} greets).isSome = true := by decide
  obtain ⟨r, run⟩ := Option.isSome_iff_exists.mp returns
  obtain ⟨steps, ran, arrivals⟩ := exists_ran .start run
  exact ⟨steps, r, arrivals, registry_live_iff ran⟩

/-- The entry under the first port is left when the session is deleted. -/
theorem registry_dangles : ∃ steps r, Ran (1024 * 1024) steps r ∧ steps.map Prod.snd = moves ∧
    ¬ r.Live := by
  let first : EndpointProto := { address := "10.0.0.1", port := "1" }
  have left : ((runAll (1024 * 1024) {} moves).map fun r =>
      (r.mapEpProtoSession first, r.deletedAt 0)) = some (some 0, some true) := by decide
  obtain ⟨r, run, both⟩ := Option.map_eq_some_iff.mp left
  obtain ⟨entry, gone⟩ := Prod.mk.inj both
  obtain ⟨steps, ran, arrivals⟩ := exists_ran .start run
  refine ⟨steps, r, ran, arrivals, fun live => ?_⟩
  have alive := live first 0 entry
  rw [gone] at alive
  cases alive

end Registry

end MiniDht
