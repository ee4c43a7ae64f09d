import MiniDht.Lib.Cpp

/-!
# A mutex beside a state

Calls run on a state beside a mutex that is not recursive. `scopedLock` is a block with a guard,
`unlocking` a handler that unlocks by hand before it throws on. A guarded call `Follows` a
plain one if it does the same to the state; the relation says what becomes of a free mutex,
and a call can be built up from its parts by the rules below.
-/

namespace MiniDht.Lib

/-- A mutex, as the one who makes the calls has it. -/
inductive MutexState where
  | free
  | held
  /-- It has been unlocked by one who did not hold it. -/
  | misused
  deriving DecidableEq, Repr

def MutexState.unlocked : MutexState → MutexState
  | held => free
  | free => misused
  | misused => misused

/-- A state with a mutex beside it. -/
structure Guarded (σ : Type) where
  state : σ
  mutex : MutexState := .free

namespace Mutex

variable {σ α β : Type}

/-- `m.lock()`. One who holds the mutex waits for himself. -/
def lock : Act (Guarded σ) Unit := do
  match (← get).mutex with
  | .free => modify fun s => { s with mutex := .held }
  | .held => throw .hang
  | .misused => return ()

/-- `m.unlock()`. -/
def unlock : Act (Guarded σ) Unit :=
  modify fun s => { s with mutex := s.mutex.unlocked }

/-- A call that does not touch the mutex. -/
def inner (x : Act σ α) : Act (Guarded σ) α :=
  Act.zoom Guarded.state (fun t s => { s with state := t }) x

/-- `{ scoped_lock lock_it(m); x }`: the destructor unlocks, whatever leaves the block. -/
def scopedLock (x : Act (Guarded σ) α) : Act (Guarded σ) α := do
  lock
  let a ← tryCatch x fun
    | .exception what => do unlock; throw (.exception what)
    | .thrown what => do unlock; throw (.thrown what)
    | e => throw e
  unlock
  return a

/-- `try { x } catch (std::exception&) { m.unlock(); throw … }`. -/
def unlocking (report : String → String) (x : Act (Guarded σ) α) : Act (Guarded σ) α :=
  tryCatch x fun
    | .exception what => do unlock; throw (.exception (report what))
    | e => throw e

/-! ## How the constructs run -/

@[simp] theorem exec_lock (s : σ) :
    Act.exec lock ({ state := s } : Guarded σ) = (.ok (), { state := s, mutex := .held }) := rfl

@[simp] theorem exec_lock_held (s : σ) :
    Act.exec lock ({ state := s, mutex := .held } : Guarded σ) =
      (.error .hang, { state := s, mutex := .held }) := rfl

@[simp] theorem exec_unlock (s : Guarded σ) :
    Act.exec unlock s = (.ok (), { s with mutex := s.mutex.unlocked }) := rfl

theorem exec_inner (x : Act σ α) (s : Guarded σ) :
    Act.exec (inner x) s = ((Act.exec x s.state).1, { s with state := (Act.exec x s.state).2 }) :=
  Act.exec_zoom _ _ x s

theorem exec_unlocking (report : String → String) (x : Act (Guarded σ) α) (s : Guarded σ) :
    Act.exec (unlocking report x) s =
      match Act.exec x s with
      | (.error (.exception what), s') =>
        (.error (.exception (report what)), { s' with mutex := s'.mutex.unlocked })
      | r => r := by
  rw [unlocking, Act.exec_tryCatch]
  generalize Act.exec x s = r
  obtain ⟨o, s'⟩ := r
  rcases o with (_ | _ | _ | _ | _) | _ <;> rfl

theorem exec_scopedLock (x : Act (Guarded σ) α) (s : σ) :
    Act.exec (scopedLock x) { state := s } =
      match Act.exec x { state := s, mutex := .held } with
      | (.error .assertion, s') => (.error .assertion, s')
      | (.error .hang, s') => (.error .hang, s')
      | (.error .undefined, s') => (.error .undefined, s')
      | (out, s') => (out, { s' with mutex := s'.mutex.unlocked }) := by
  rw [scopedLock, Act.exec_bind_ok (exec_lock s), Act.exec_bind, Act.exec_tryCatch]
  generalize Act.exec x { state := s, mutex := .held } = r
  obtain ⟨o, s'⟩ := r
  rcases o with (_ | _ | _ | _ | _) | _ <;> rfl

/-! ## Guarded calls and plain ones -/

/-- What may become of a free mutex: it is free again, `raised` says what it is after a
`std::exception`, and when the process ends it may be held. -/
def Leaves (raised : MutexState) : Except Fault α → MutexState → Prop
  | .ok _, m => m = .free
  | .error (.exception _), m => m = raised
  | .error (.thrown _), m => m = .free
  | .error _, m => m ≠ .misused

/-- With a free mutex `x` does to the state what `y` does. -/
def Follows (raised : MutexState) (x : Act (Guarded σ) α) (y : Act σ α) : Prop :=
  ∀ s, ∃ m, Leaves raised (Act.exec y s).1 m ∧
    Act.exec x { state := s } = ((Act.exec y s).1, { state := (Act.exec y s).2, mutex := m })

namespace Follows

variable {raised : MutexState} {x : Act (Guarded σ) α} {y : Act σ α}

theorem pure (a : α) : Follows raised (Pure.pure a : Act (Guarded σ) α) (Pure.pure a) :=
  fun _ => ⟨.free, rfl, rfl⟩

theorem congr {y' : Act σ α} (follows : Follows raised x y)
    (same : ∀ s, Act.exec y s = Act.exec y' s) : Follows raised x y' := by
  intro s
  rw [← same s]
  exact follows s

theorem inner (y : Act σ α) : Follows .free (Mutex.inner y) y := by
  intro s
  refine ⟨.free, ?_, exec_inner y _⟩
  cases (Act.exec y s).1 with
  | ok a => rfl
  | error e => cases e <;> simp [Leaves]

theorem bind {f : α → Act (Guarded σ) β} {g : α → Act σ β} (first : Follows raised x y)
    (rest : ∀ a, Follows raised (f a) (g a)) : Follows raised (x >>= f) (y >>= g) := by
  intro s
  obtain ⟨m, leaves, run⟩ := first s
  rw [Act.exec_bind, Act.exec_bind, run]
  generalize Act.exec y s = r at leaves
  obtain ⟨o, s'⟩ := r
  cases o with
  | ok a =>
    obtain rfl : m = .free := leaves
    exact rest a s'
  | error e => exact ⟨m, by cases e <;> exact leaves, rfl⟩

/-- A block with a guard leaves the mutex free, however it is left. -/
theorem scopedLock (y : Act σ α) : Follows .free (Mutex.scopedLock (Mutex.inner y)) y := by
  intro s
  rw [exec_scopedLock, exec_inner]
  generalize Act.exec y s = r
  obtain ⟨o, s'⟩ := r
  rcases o with (_ | _ | _ | _ | _) | _
  · exact ⟨.held, by simp [Leaves], rfl⟩
  · exact ⟨.free, rfl, rfl⟩
  · exact ⟨.free, rfl, rfl⟩
  · exact ⟨.held, by simp [Leaves], rfl⟩
  · exact ⟨.held, by simp [Leaves], rfl⟩
  · exact ⟨.free, rfl, rfl⟩

/-- The handler unlocks a mutex that is free by then. -/
theorem unlocking (what : String) (follows : Follows .free x y) :
    Follows .misused (Mutex.unlocking (fun _ => what) x) (Act.rethrowAs what y) := by
  intro s
  obtain ⟨m, leaves, run⟩ := follows s
  rw [exec_unlocking, Act.exec_rethrowAs, run]
  generalize Act.exec y s = r at leaves
  obtain ⟨o, s'⟩ := r
  rcases o with (_ | _ | _ | _ | _) | _
  · exact ⟨m, leaves, rfl⟩
  · obtain rfl : m = .free := leaves
    exact ⟨.misused, rfl, rfl⟩
  · exact ⟨m, leaves, rfl⟩
  · exact ⟨m, leaves, rfl⟩
  · exact ⟨m, leaves, rfl⟩
  · exact ⟨m, leaves, rfl⟩

/-- With the guard outside of the `try`, the handler unlocks first and the destructor
again. -/
theorem scopedLock_unlocking (what : String) (y : Act σ α) :
    Follows .misused (Mutex.scopedLock (Mutex.unlocking (fun _ => what) (Mutex.inner y)))
      (Act.rethrowAs what y) := by
  intro s
  rw [exec_scopedLock, exec_unlocking, exec_inner, Act.exec_rethrowAs]
  generalize Act.exec y s = r
  obtain ⟨o, s'⟩ := r
  rcases o with (_ | _ | _ | _ | _) | _
  · exact ⟨.held, by simp [Leaves], rfl⟩
  · exact ⟨.misused, rfl, rfl⟩
  · exact ⟨.free, rfl, rfl⟩
  · exact ⟨.held, by simp [Leaves], rfl⟩
  · exact ⟨.held, by simp [Leaves], rfl⟩
  · exact ⟨.free, rfl, rfl⟩

end Follows

/-- The mutex is free again on every way out, and nobody unlocked it who did not hold it. -/
def Balanced (r : Except Fault α × Guarded σ) : Prop :=
  r.2.mutex ≠ .misused ∧ (Survives r.1 → r.2.mutex = .free)

theorem Follows.balanced {x : Act (Guarded σ) α} {y : Act σ α} (follows : Follows .free x y) (s : σ) :
    Balanced (Act.exec x { state := s }) := by
  obtain ⟨m, leaves, run⟩ := follows s
  rw [run]
  generalize Act.exec y s = r at leaves
  obtain ⟨o, s'⟩ := r
  rcases o with (_ | _ | _ | _ | _) | _ <;> simp_all [Balanced, Leaves, Survives]

/-- Where a `std::exception` misuses the mutex, a call is balanced if it raises none. -/
theorem Follows.balanced_iff {x : Act (Guarded σ) α} {y : Act σ α} (follows : Follows .misused x y)
    (s : σ) :
    Balanced (Act.exec x { state := s }) ↔ ¬ Act.Raises y s := by
  obtain ⟨m, leaves, run⟩ := follows s
  rw [run, Act.Raises]
  generalize Act.exec y s = r at leaves
  obtain ⟨o, s'⟩ := r
  rcases o with (_ | _ | _ | _ | _) | _ <;> simp_all [Balanced, Leaves, Survives]

/-- What runs before a balanced part without touching the mutex. -/
theorem balanced_before {x : Act σ Unit} {y : Act (Guarded σ) α} {s : σ} :
    Balanced (Act.exec (do inner x; y) { state := s }) ↔
      ∀ s', Act.exec x s = (.ok (), s') → Balanced (Act.exec y { state := s' }) := by
  rw [Act.exec_bind, exec_inner]
  generalize Act.exec x s = r
  obtain ⟨o, s'⟩ := r
  cases o with
  | ok u => simp
  | error e => simp [Balanced]

/-- The same inside a guard. -/
theorem balanced_scopedLock_before {x : Act σ Unit} {y : Act (Guarded σ) α} {s : σ} :
    Balanced (Act.exec (scopedLock do inner x; y) { state := s }) ↔
      ∀ s', Act.exec x s = (.ok (), s') → Balanced (Act.exec (scopedLock y) { state := s' }) := by
  rw [exec_scopedLock, Act.exec_bind, exec_inner]
  generalize Act.exec x s = r
  obtain ⟨o, s'⟩ := r
  rcases o with (_ | _ | _ | _ | _) | _
  · simp [Balanced, Survives]
  · simp [Balanced, MutexState.unlocked]
  · simp [Balanced, MutexState.unlocked]
  · simp [Balanced, Survives]
  · simp [Balanced, Survives]
  · simp [exec_scopedLock]

end Mutex

end MiniDht.Lib
