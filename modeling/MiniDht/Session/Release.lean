import MiniDht.Session.Registry

/-!
# What a deletion takes along

`release` unregisters a session by its endpoint alone. When a peer connects again, the new
session takes the place of the old one in the registry; if the old one is deleted only then,
the entry that goes is that of the new one, which lives.
-/

namespace MiniDht

namespace Registry

variable {packetSize : Nat} {r r' : Registry} {a : Arrival} {i j : Nat} {s : Session}
  {steps : List (Registry × Arrival)}

/-- A session that is deleted takes no entries along but those that point to it. -/
def TakesOwn (r r' : Registry) : Prop :=
  ∀ i, r.deletedAt i = some false → r'.deletedAt i = some true →
    ∀ key j, r.mapEpProtoSession key = some j → j ≠ i → r'.mapEpProtoSession key = some j

/-- A completion that fails for the last references of a session finds no other session
registered under its endpoint. -/
def Unshared (packetSize : Nat) (r : Registry) (a : Arrival) : Prop :=
  ∀ i s, a.session = some i → r.sessions[i]? = some s → s.deleted = false →
    a.Fails packetSize s → s.refCount ≤ 2 → ∀ j, r.mapEpProtoSession s.ep.proto = some j → j = i

/-- The entry under one endpoint goes, whomever it points to. -/
theorem Ended.takesOwn_iff (ended : r.Ended i s.ep.proto r') (alive : r.deletedAt i = some false) :
    r.TakesOwn r' ↔ ∀ j, r.mapEpProtoSession s.ep.proto = some j → j = i := by
  constructor
  · intro takes j entry
    by_contra other
    have left := takes i alive ended.gone _ j entry other
    rw [ended.map, Function.update_self] at left
    cases left
  · intro only i' was gone key j entry other
    have same : i' = i := by
      by_contra apart
      rw [ended.others i' apart, was] at gone
      cases gone
    rw [ended.map, Function.update_of_ne, entry]
    rintro rfl
    exact other ((only j entry).trans same.symm)

/-- Where no session is deleted nothing is taken. -/
theorem takesOwn_of_kept (kept : ∀ j, r.deletedAt j = some false → r'.deletedAt j = some false) :
    r.TakesOwn r' := by
  intro i was gone
  rw [kept i was] at gone
  cases gone

/-- A step takes nothing but the deleted session's entries if and only if no other session is
registered in its place. -/
theorem takesOwn_step (stepped : r.step packetSize a = some r') :
    r.TakesOwn r' ↔ Unshared packetSize r a := by
  cases step_effect stepped with
  | ended i s own here fails last ended =>
    rw [Unshared, forall_own own here]
    by_cases alive : s.deleted = false
    · rw [ended.takesOwn_iff (by rw [deletedAt_self here, alive])]
      constructor
      · exact fun only _ _ _ => only
      · exact fun unshared => unshared alive fails last
    · -- it was deleted before
      refine iff_of_true (takesOwn_of_kept fun j was => ?_) fun alive' => absurd alive' alive
      rw [ended.others j, was]
      rintro rfl
      rw [deletedAt_self here] at was
      exact alive (Option.some.inj was)
  | entered i s key own here enters entered =>
    rw [Unshared, forall_own own here]
    refine iff_of_true (takesOwn_of_kept fun j was => (entered.kept j).trans was) ?_
    exact fun _ fails => absurd enters (Arrival.not_enters fails)
  | quiet quiet idle =>
    refine iff_of_true (takesOwn_of_kept fun j was => quiet.kept j false was) ?_
    intro i s own here _ fails last
    have more := (idle i s own here).1 fails
    omega

/-- Every step of a run has led somewhere. -/
theorem Ran.stepped (ran : Ran packetSize steps r) :
    ∀ step ∈ steps, ∃ r', step.1.step packetSize step.2 = some r' := by
  induction ran with
  | start => exact fun step member => by cases member
  | step ran stepped ih =>
    exact List.forall_mem_append.mpr ⟨ih, List.forall_mem_singleton.mpr ⟨_, stepped⟩⟩

/-- **Deleting a session.** In a run no deletion takes the entry of another session along, if
and only if no session is deleted while another is registered under its endpoint. -/
theorem deletions_take_own_iff (ran : Ran packetSize steps r) :
    (∀ step ∈ steps, ∀ r', step.1.step packetSize step.2 = some r' → step.1.TakesOwn r') ↔
      ∀ step ∈ steps, Unshared packetSize step.1 step.2 := by
  refine forall₂_congr fun step member => ?_
  obtain ⟨r', stepped⟩ := ran.stepped step member
  constructor
  · exact fun takes => (takesOwn_step stepped).mp (takes r' stepped)
  · intro unshared r'' stepped'
    exact (takesOwn_step stepped').mpr unshared

/-! ### A peer that connects again -/

theorem peer_printed : "10.0.0.1" ≠ "" := by decide

/-- The peer that has greeted connects again and announces the same port. -/
def returns : List Arrival :=
  greets ++ [.accepted { address := "10.0.0.1", port := 50001, printed := peer_printed } true,
    .header 1 (announces 1) true]

/-- The theorem at a run with a peer that connects again. -/
theorem deletions_take_own_iff_returns : ∃ (steps : List (Registry × Arrival)),
    steps.map Prod.snd = returns ∧
      ((∀ step ∈ steps, ∀ r', step.1.step (1024 * 1024) step.2 = some r' → step.1.TakesOwn r') ↔
        ∀ step ∈ steps, Unshared (1024 * 1024) step.1 step.2) := by
  have ends : (runAll (1024 * 1024) {} returns).isSome = true := by decide
  obtain ⟨r, run⟩ := Option.isSome_iff_exists.mp ends
  obtain ⟨steps, ran, arrivals⟩ := exists_ran .start run
  exact ⟨steps, arrivals, deletions_take_own_iff ran⟩

/-- Its first connection breaks, and the second is no longer registered. -/
theorem deletion_takes_other : ∃ steps r, Ran (1024 * 1024) steps r ∧
    steps.map Prod.snd = returns ++ [.header 0 none true] ∧
    ∃ step ∈ steps, step.1.step (1024 * 1024) step.2 = some r ∧ ¬ step.1.TakesOwn r := by
  let first : EndpointProto := { address := "10.0.0.1", port := "1" }
  have before : ((runAll (1024 * 1024) {} returns).map fun r =>
      (r.mapEpProtoSession first, r.deletedAt 0)) = some (some 1, some false) := by decide
  have after : (((runAll (1024 * 1024) {} returns).bind
      (·.step (1024 * 1024) (.header 0 none true))).map fun r =>
      (r.mapEpProtoSession first, r.deletedAt 0)) = some (none, some true) := by decide
  obtain ⟨r, run, both⟩ := Option.map_eq_some_iff.mp before
  obtain ⟨entry, alive⟩ := Prod.mk.inj both
  rw [run, Option.bind_some] at after
  obtain ⟨r', stepped, both'⟩ := Option.map_eq_some_iff.mp after
  obtain ⟨taken, gone⟩ := Prod.mk.inj both'
  obtain ⟨steps, ran, arrivals⟩ := exists_ran .start run
  refine ⟨_, r', ran.step stepped, by rw [List.nil_append, List.map_append, arrivals]; rfl, (r, _),
    List.mem_append_right _ (List.mem_singleton_self _), stepped, fun takes => ?_⟩
  have left := takes 0 alive gone first 1 entry Nat.one_ne_zero
  rw [taken] at left
  cases left

end Registry

end MiniDht
