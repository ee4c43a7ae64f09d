import Mathlib.Tactic.Common
import Mathlib.Logic.Basic

/-!
# C++ calls as state transformers

A call changes the state it runs on and either returns or ends in a fault. The
state is kept on every way out: what ran before a `throw` stays done. `exec` runs a
call, the `exec_*` lemmas run each construct, and `Preserves` carries an invariant
through a call whatever its outcome.
-/

namespace MiniDht.Lib

/-- The ways a call ends other than by returning. -/
inductive Fault where
  /-- A failed `assert`: the process aborts. -/
  | assertion
  /-- A `std::exception`. -/
  | exception (what : String)
  /-- A thrown value that `catch (std::exception&)` does not match. -/
  | thrown (what : String)
  /-- A loop that never ends. -/
  | hang
  /-- Behaviour the language leaves undefined. -/
  | undefined
  deriving DecidableEq, Repr

/-- A way of ending after which the process goes on: a call that returned, or an
exception that a caller may still catch. -/
def Survives {α : Type} : Except Fault α → Prop
  | .ok _ => True
  | .error (.exception _) => True
  | .error (.thrown _) => True
  | .error .assertion => False
  | .error .hang => False
  | .error .undefined => False

/-- A call on a state of type `σ`. -/
abbrev Act (σ : Type) := ExceptT Fault (StateM σ)

/-- `assert(p)`, where no state is involved. -/
def assertThat (p : Prop) [Decidable p] : Except Fault Unit :=
  if p then .ok () else .error .assertion

theorem assertThat_pos {p : Prop} [Decidable p] (h : p) : assertThat p = .ok () := if_pos h

theorem assertThat_neg {p : Prop} [Decidable p] (h : ¬ p) : assertThat p = .error .assertion :=
  if_neg h

theorem assertThat_ok_iff {p : Prop} [Decidable p] : assertThat p = .ok () ↔ p := by
  by_cases h : p <;> simp [assertThat, h]

/-- A sequence returns exactly when its first part does and then its second. -/
theorem bind_ok_iff {ε α β : Type} {x : Except ε α} {f : α → Except ε β} {b : β} :
    (x >>= f) = .ok b ↔ ∃ a, x = .ok a ∧ f a = .ok b := by
  cases x with
  | error e => simp [bind, Except.bind]
  | ok a => simp [bind, Except.bind]

namespace Act

variable {σ τ α β : Type}

/-- Run `x` from `s`: how it ended, and the state it left. -/
def exec (x : Act σ α) (s : σ) : Except Fault α × σ :=
  Id.run (StateT.run (ExceptT.run x) s)

/-- A computation without state, run in place. -/
def ofExcept (r : Except Fault α) : Act σ α :=
  match r with
  | .ok a => pure a
  | .error e => throw e

/-- `try { x } catch (std::exception&) { }`. -/
def catchStd (x : Act σ Unit) : Act σ Unit :=
  tryCatch x fun
    | .exception _ => pure ()
    | e => throw e

/-- `try { x } catch (std::exception&) { throw … }`. -/
def rethrowAs (what : String) (x : Act σ α) : Act σ α :=
  tryCatch x fun
    | .exception _ => throw (.exception what)
    | e => throw e

/-- Run a call on a component of the state. -/
def zoom (view : σ → τ) (put : τ → σ → σ) (x : Act τ α) : Act σ α := do
  let s ← get
  let (r, t) := exec x (view s)
  set (put t s)
  ofExcept r

@[simp] theorem exec_pure (a : α) (s : σ) : exec (pure a) s = (.ok a, s) := rfl

theorem exec_bind (x : Act σ α) (f : α → Act σ β) (s : σ) :
    exec (x >>= f) s =
      match exec x s with
      | (.ok a, s') => exec (f a) s'
      | (.error e, s') => (.error e, s') := by
  simp only [exec, bind, ExceptT.bind, ExceptT.run, ExceptT.mk, StateT.bind, StateT.run, Id.run]
  generalize x s = r
  obtain ⟨o, s'⟩ := r
  cases o <;> rfl

@[simp] theorem exec_map (f : α → β) (x : Act σ α) (s : σ) :
    exec (f <$> x) s =
      match exec x s with
      | (.ok a, s') => (.ok (f a), s')
      | (.error e, s') => (.error e, s') := by
  rw [map_eq_pure_bind, exec_bind]
  obtain ⟨o, s'⟩ := exec x s
  cases o <;> rfl

theorem exec_bind_ok {x : Act σ α} {f : α → Act σ β} {s s' : σ} {a : α}
    (first : exec x s = (.ok a, s')) : exec (x >>= f) s = exec (f a) s' := by
  rw [exec_bind, first]

theorem exec_bind_error {x : Act σ α} {f : α → Act σ β} {s s' : σ} {e : Fault}
    (first : exec x s = (.error e, s')) : exec (x >>= f) s = (.error e, s') := by
  rw [exec_bind, first]

/-- A sequence returns if both parts do. -/
theorem exec_bind_returns {x : Act σ α} {f : α → Act σ β} {s s'' : σ} {b : β} :
    exec (x >>= f) s = (.ok b, s'') ↔
      ∃ a s', exec x s = (.ok a, s') ∧ exec (f a) s' = (.ok b, s'') := by
  rw [exec_bind]
  obtain ⟨_ | a, s'⟩ := exec x s
  · simp
  · simp

@[simp] theorem exec_get (s : σ) : exec (get : Act σ σ) s = (.ok s, s) := rfl

@[simp] theorem exec_set (t s : σ) : exec (set t : Act σ PUnit) s = (.ok ⟨⟩, t) := rfl

@[simp] theorem exec_modify (f : σ → σ) (s : σ) :
    exec (modify f : Act σ PUnit) s = (.ok ⟨⟩, f s) := rfl

@[simp] theorem exec_throw (e : Fault) (s : σ) :
    exec (throw e : Act σ α) s = (.error e, s) := rfl

@[simp] theorem exec_ofExcept (r : Except Fault α) (s : σ) : exec (ofExcept r) s = (r, s) := by
  cases r <;> rfl

theorem exec_tryCatch (x : Act σ α) (h : Fault → Act σ α) (s : σ) :
    exec (tryCatch x h) s =
      match exec x s with
      | (.ok a, s') => (.ok a, s')
      | (.error e, s') => exec (h e) s' := by
  simp only [exec, tryCatch, tryCatchThe, MonadExceptOf.tryCatch, ExceptT.tryCatch, ExceptT.run,
    ExceptT.mk, StateT.run, bind, StateT.bind, Id.run]
  generalize x s = r
  obtain ⟨o, s'⟩ := r
  cases o <;> rfl

theorem exec_catchStd (x : Act σ Unit) (s : σ) :
    exec (catchStd x) s =
      match exec x s with
      | (.error (.exception _), s') => (.ok (), s')
      | r => r := by
  simp only [exec, catchStd, tryCatch, tryCatchThe, MonadExceptOf.tryCatch, ExceptT.tryCatch,
    ExceptT.run, ExceptT.mk, StateT.run, bind, StateT.bind, Id.run]
  generalize x s = r
  obtain ⟨o, s'⟩ := r
  rcases o with (_ | _ | _ | _ | _) | _ <;> rfl

theorem exec_rethrowAs (what : String) (x : Act σ α) (s : σ) :
    exec (rethrowAs what x) s =
      match exec x s with
      | (.error (.exception _), s') => (.error (.exception what), s')
      | r => r := by
  simp only [exec, rethrowAs, tryCatch, tryCatchThe, MonadExceptOf.tryCatch, ExceptT.tryCatch,
    ExceptT.run, ExceptT.mk, StateT.run, bind, StateT.bind, Id.run]
  generalize x s = r
  obtain ⟨o, s'⟩ := r
  rcases o with (_ | _ | _ | _ | _) | _ <;> rfl

/-- Only a call that returned is passed on as it is. -/
theorem exec_rethrowAs_ok {what : String} {x : Act σ α} {s s' : σ} {a : α} :
    exec (rethrowAs what x) s = (.ok a, s') ↔ exec x s = (.ok a, s') := by
  rw [exec_rethrowAs]
  obtain ⟨o, t⟩ := exec x s
  rcases o with (_ | _ | _ | _ | _) | _ <;> simp

theorem exec_catchStd_state (x : Act σ Unit) (s : σ) :
    (exec (catchStd x) s).2 = (exec x s).2 := by
  rw [exec_catchStd]
  obtain ⟨o, t⟩ := exec x s
  rcases o with (_ | _ | _ | _ | _) | _ <;> rfl

theorem exec_rethrowAs_state (what : String) (x : Act σ α) (s : σ) :
    (exec (rethrowAs what x) s).2 = (exec x s).2 := by
  rw [exec_rethrowAs]
  obtain ⟨o, t⟩ := exec x s
  rcases o with (_ | _ | _ | _ | _) | _ <;> rfl

theorem returns_rethrowAs {what : String} {x : Act σ α} {s : σ} {a : α} :
    (exec (rethrowAs what x) s).1 = .ok a ↔ (exec x s).1 = .ok a := by
  rw [exec_rethrowAs]
  obtain ⟨o, t⟩ := exec x s
  rcases o with (_ | _ | _ | _ | _) | _ <;> simp

/-- It throws where the call inside does. -/
theorem throws_rethrowAs {what : String} {x : Act σ α} {s : σ} :
    (∃ e, (exec (rethrowAs what x) s).1 = .error (.exception e)) ↔
      ∃ e, (exec x s).1 = .error (.exception e) := by
  rw [exec_rethrowAs]
  obtain ⟨o, t⟩ := exec x s
  rcases o with (_ | _ | _ | _ | _) | _ <;> simp

theorem survives_rethrowAs {what : String} {x : Act σ α} {s : σ} :
    Survives (exec (rethrowAs what x) s).1 ↔ Survives (exec x s).1 := by
  rw [exec_rethrowAs]
  obtain ⟨o, t⟩ := exec x s
  rcases o with (_ | _ | _ | _ | _) | _ <;> rfl

/-- A call that went on beneath a `catch` that throws again went on by itself. -/
theorem exec_of_rethrowAs {what : String} {x : Act σ α} {s s' : σ} {out : Except Fault α}
    (run : exec (rethrowAs what x) s = (out, s')) (survives : Survives out) :
    ∃ out', exec x s = (out', s') ∧ Survives out' := by
  have left := congrArg Prod.snd run
  rw [exec_rethrowAs_state] at left
  exact ⟨_, Prod.ext rfl left, survives_rethrowAs.mp (by rw [run]; exact survives)⟩

theorem exec_zoom (view : σ → τ) (put : τ → σ → σ) (x : Act τ α) (s : σ) :
    exec (zoom view put x) s = ((exec x (view s)).1, put (exec x (view s)).2 s) := by
  simp [zoom, exec_bind]

/-- The call ends in a `std::exception`. -/
def Raises (x : Act σ α) (s : σ) : Prop := ∃ what, (exec x s).1 = .error (.exception what)

/-- If the process survives the call, the state it leaves satisfies `I` if the state it
started from did. -/
def Preserves (I : σ → Prop) (x : Act σ α) : Prop :=
  ∀ s, I s → Survives (exec x s).1 → I (exec x s).2

namespace Preserves

variable {I : σ → Prop}

theorem pure (a : α) : Preserves I (Pure.pure a : Act σ α) := fun _ h _ => h

theorem throw (e : Fault) : Preserves I (MonadExcept.throw e : Act σ α) := fun _ h _ => h

theorem ofExcept (r : Except Fault α) : Preserves I (Act.ofExcept r) := by
  intro s h _
  rw [exec_ofExcept]
  exact h

theorem modify {f : σ → σ} (step : ∀ s, I s → I (f s)) :
    Preserves I (modify f : Act σ PUnit) := fun s h _ => step s h

theorem bind {x : Act σ α} {f : α → Act σ β} (first : Preserves I x)
    (rest : ∀ a, Preserves I (f a)) : Preserves I (x >>= f) := by
  intro s h
  have kept := first s h
  rw [exec_bind]
  generalize exec x s = r at kept
  obtain ⟨o, s'⟩ := r
  cases o with
  | error e => cases e <;> simp_all [Survives]
  | ok a => exact rest a s' (kept trivial)

/-- The continuation of a read may use that it was handed the current state. -/
theorem get_bind {f : σ → Act σ β}
    (rest : ∀ s, I s → Survives (exec (f s) s).1 → I (exec (f s) s).2) :
    Preserves I ((get : Act σ σ) >>= f) := by
  intro s h
  rw [exec_bind, exec_get]
  exact rest s h

theorem rethrowAs {what : String} {x : Act σ α} (body : Preserves I x) :
    Preserves I (Act.rethrowAs what x) := by
  intro s h
  have kept := body s h
  rw [exec_rethrowAs]
  generalize exec x s = r at kept
  obtain ⟨o, s'⟩ := r
  rcases o with (_ | _ | _ | _ | _) | _ <;> simp_all [Survives]

theorem ite {p : Prop} [Decidable p] {x y : Act σ α} (yes : Preserves I x)
    (no : Preserves I y) : Preserves I (if p then x else y) := by
  split
  · exact yes
  · exact no

end Preserves

/-- Whatever way the call ends, the state it leaves satisfies `I` if the one it started from
did. -/
def Keeps (I : σ → Prop) (x : Act σ α) : Prop := ∀ s, I s → I (exec x s).2

namespace Keeps

variable {I : σ → Prop}

theorem pure (a : α) : Keeps I (Pure.pure a : Act σ α) := fun _ h => h

theorem throw (e : Fault) : Keeps I (MonadExcept.throw e : Act σ α) := fun _ h => h

theorem ofExcept (r : Except Fault α) : Keeps I (Act.ofExcept r) := by
  intro s h
  rw [exec_ofExcept]
  exact h

/-- The continuation of a computation may use its result. -/
theorem ofExcept_bind {r : Except Fault α} {f : α → Act σ β}
    (rest : ∀ a, r = .ok a → Keeps I (f a)) : Keeps I (Act.ofExcept r >>= f) := by
  intro s h
  rw [exec_bind, exec_ofExcept]
  cases ok : r with
  | error e => exact h
  | ok a => exact rest a ok s h

theorem get : Keeps I (MonadState.get : Act σ σ) := fun _ h => h

theorem modify {f : σ → σ} (step : ∀ s, I s → I (f s)) :
    Keeps I (modify f : Act σ PUnit) := fun s h => step s h

theorem bind {x : Act σ α} {f : α → Act σ β} (first : Keeps I x) (rest : ∀ a, Keeps I (f a)) :
    Keeps I (x >>= f) := by
  intro s h
  have kept := first s h
  rw [exec_bind]
  generalize exec x s = r at kept
  obtain ⟨o, s'⟩ := r
  cases o with
  | error e => exact kept
  | ok a => exact rest a s' kept

/-- The continuation of a read may use that it was handed the current state. -/
theorem get_bind {f : σ → Act σ β} (rest : ∀ s, I s → I (exec (f s) s).2) :
    Keeps I ((MonadState.get : Act σ σ) >>= f) := by
  intro s h
  rw [exec_bind, exec_get]
  exact rest s h

theorem catchStd {x : Act σ Unit} (body : Keeps I x) : Keeps I (Act.catchStd x) := by
  intro s h
  rw [exec_catchStd_state]
  exact body s h

theorem rethrowAs {what : String} {x : Act σ α} (body : Keeps I x) :
    Keeps I (Act.rethrowAs what x) := by
  intro s h
  rw [exec_rethrowAs_state]
  exact body s h

theorem zoom {view : σ → τ} {put : τ → σ → σ} {x : Act τ α}
    (step : ∀ s, I s → I (put (exec x (view s)).2 s)) : Keeps I (Act.zoom view put x) := by
  intro s h
  rw [exec_zoom]
  exact step s h

theorem ite {p : Prop} [Decidable p] {x y : Act σ α} (yes : Keeps I x) (no : Keeps I y) :
    Keeps I (if p then x else y) := by
  split
  · exact yes
  · exact no

end Keeps

/-- From a state that satisfies `I` the call returns, and `I` holds again, or it ends in a
`std::exception`. -/
def Tame (I : σ → Prop) (x : Act σ α) : Prop :=
  ∀ s, I s → (∃ a, (exec x s).1 = .ok a ∧ I (exec x s).2) ∨
    ∃ what, (exec x s).1 = .error (.exception what)

namespace Tame

variable {I : σ → Prop}

theorem pure (a : α) : Tame I (Pure.pure a : Act σ α) := fun _ h => .inl ⟨a, rfl, h⟩

theorem throw (what : String) : Tame I (MonadExcept.throw (.exception what) : Act σ α) :=
  fun _ _ => .inr ⟨what, rfl⟩

theorem get : Tame I (MonadState.get : Act σ σ) := fun s h => .inl ⟨s, rfl, h⟩

theorem modify {f : σ → σ} (step : ∀ s, I s → I (f s)) : Tame I (modify f : Act σ PUnit) :=
  fun s h => .inl ⟨⟨⟩, rfl, step s h⟩

theorem bind {x : Act σ α} {f : α → Act σ β} (first : Tame I x) (rest : ∀ a, Tame I (f a)) :
    Tame I (x >>= f) := by
  intro s h
  have split := first s h
  rw [exec_bind]
  generalize exec x s = r at split
  obtain ⟨o, s'⟩ := r
  rcases split with ⟨a, rfl, kept⟩ | ⟨what, rfl⟩
  · exact rest a s' kept
  · exact .inr ⟨what, rfl⟩

theorem ite {p : Prop} [Decidable p] {x y : Act σ α} (yes : Tame I x) (no : Tame I y) :
    Tame I (if p then x else y) := by
  split
  · exact yes
  · exact no

theorem zoom {view : σ → τ} {put : τ → σ → σ} {x : Act τ α} (inner : Tame (fun _ => True) x)
    (step : ∀ t s, I s → I (put t s)) : Tame I (Act.zoom view put x) := by
  intro s h
  rw [exec_zoom]
  rcases inner (view s) trivial with ⟨a, ok, -⟩ | failed
  · exact .inl ⟨a, ok, step _ s h⟩
  · exact .inr failed

/-- Inside a `try` such a call returns. -/
theorem returns {x : Act σ Unit} (tame : Tame I x) {s : σ} (h : I s) :
    (exec (catchStd x) s).1 = .ok () := by
  have split := tame s h
  rw [exec_catchStd]
  generalize exec x s = r at split
  obtain ⟨o, s'⟩ := r
  rcases split with ⟨a, rfl, -⟩ | ⟨what, rfl⟩
  · rfl
  · rfl

end Tame

end Act

end MiniDht.Lib
