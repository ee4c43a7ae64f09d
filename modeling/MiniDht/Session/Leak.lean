import MiniDht.Session.Life

/-!
# Sessions that are not deleted

A session is deleted by the handler of a failed operation, and by no other. Where the last
operation that was outstanding ends well, nobody is left to do so: a connection that breaks
while a message is being written is leaked when that write succeeds.
-/

namespace MiniDht.Session

variable {packetSize : Nat} {readFailed writeFailed : Bool} {s s' : Session} {e : Event}
  {steps : List (Session × Event)}

/-- Where a chain has failed and nothing is outstanding, no reference is left. -/
theorem Counted.unheld (counted : s.Counted readFailed writeFailed)
    (failed : readFailed = true ∨ writeFailed = true) (idle : s.pending = []) : s.refCount ≤ 0 := by
  have refs := counted.refs
  have held : s.held = 0 := by rw [Session.held, idle]; rfl
  have some : 1 ≤ readFailed.toNat + writeFailed.toNat := by
    rcases failed with rfl | rfl
    · exact Nat.le_add_right 1 _
    · exact Nat.le_add_left 1 _
  omega

/-- The handler of a failed operation drops a reference, and looks at what is left. -/
theorem step_releases (stepped : s.step packetSize e = some s')
    (fails : e.FailsRead packetSize s ∨ e.FailsWrite) (last : s'.refCount ≤ 0) :
    s'.deleted = true := by
  have releases (s : Session) (last : s.release.refCount ≤ 0) : s.release.deleted = true := by
    rw [release_eq] at last ⊢
    have one : s.refCount ≤ 1 := by
      change s.refCount - 1 ≤ 0 at last
      omega
    show (s.deleted || decide (s.refCount ≤ 1)) = true
    rw [decide_eq_true one, Bool.or_true]
  cases step_effect stepped with
  | delivered msg event after =>
    subst event
    exact absurd fails (or_self_iff.not.mpr id)
  | read op next works quiet on => exact absurd fails (not_or.mpr ⟨works, quiet⟩)
  | readFailed op s₁ holds fails quiet on after =>
    subst after
    exact releases s₁ last
  | written out event after =>
    subst event
    rcases fails with read | write
    · cases read
    · cases write
  | writeFailed out event after =>
    subst after
    exact releases _ last

/-- **Deletion.** An event deletes the session if and only if it is the failure of the last
operation that was outstanding. A session all operations of which are complete, the last of
them without an error, stays where it is. -/
theorem deleted_iff (lived : Lived packetSize steps s) (due : ∀ step ∈ steps, step.2.Due step.1)
    (dueNow : e.Due s) (stepped : s.step packetSize e = some s') :
    s'.deleted = true ↔ s'.pending = [] ∧ (e.FailsRead packetSize s ∨ e.FailsWrite) := by
  obtain ⟨before, idle⟩ := lived_idle (lived.step stepped)
    (List.forall_mem_append.mpr ⟨due, List.forall_mem_singleton.mpr dueNow⟩)
  have alive : s.deleted = false := before (s, e) (List.mem_append_right _ (List.mem_singleton_self _))
  constructor
  · intro gone
    exact ⟨idle gone, (step_deletes stepped alive gone dueNow).1⟩
  · rintro ⟨none, fails⟩
    obtain ⟨_, _, counted, -, -⟩ := lived_counted lived
    obtain ⟨readFailed', writeFailed', counted', read, write⟩ := counted_step counted stepped
    refine step_releases stepped fails (counted'.unheld ?_ none)
    exact fails.imp (fun h => read.mpr (.inr h)) fun h => write.mpr (.inr h)

/-- The theorem at a session whose connection is refused while it writes, and whose write then
succeeds. -/
theorem deleted_iff_leaks : ∃ (steps : List (Session × Event)) (s : Session), Lived 1024 steps s ∧
    steps.map Prod.snd = [.deliver {}, .connected true, .written false] ∧ s.pending = [] ∧
      s.deleted = false := by
  have refused : Lived 1024 [] _ := .connecting unspecified unspecified
  have lived := (refused.step (e := .deliver {}) rfl).step (e := .connected true) rfl
  have kept := deleted_iff (e := .written false) lived (List.forall_mem_cons.mpr ⟨rfl,
    List.forall_mem_cons.mpr ⟨by decide, List.forall_mem_nil _⟩⟩) (by decide) rfl
  refine ⟨_, _, lived.step (e := .written false) rfl, rfl, rfl, ?_⟩
  rw [← Bool.not_eq_true]
  intro gone
  rcases (kept.mp gone).2 with read | write
  · cases read
  · cases write

end MiniDht.Session
