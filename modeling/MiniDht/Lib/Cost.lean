import Mathlib.Algebra.BigOperators.Group.Finset.Piecewise
import MiniDht.Lib.Cpp

/-!
# What a call costs

States have a price. A call costs `n` if it raises the price by `n` at most, whatever way it
ends; a call that pays back what was put aside earlier has a negative cost. The costs of the
parts of a call add up.
-/

namespace MiniDht.Lib

/-- A total over a family of which one member changes. -/
theorem sum_update {ι α : Type} [Fintype ι] [DecidableEq ι] (g : α → Nat) (f : ι → α) (i : ι) (a : α) :
    ∑ j, g (Function.update f i a j) + g (f i) = ∑ j, g (f j) + g a := by
  have after : (fun j => g (Function.update f i a j)) = Function.update (fun j => g (f j)) i (g a) :=
    Function.comp_update g f i a
  have before := Finset.add_sum_erase Finset.univ (fun j => g (f j)) (Finset.mem_univ i)
  rw [after, Finset.sum_update_of_mem (Finset.mem_univ i), ← before, Finset.sdiff_singleton_eq_erase]
  omega

namespace Act

variable {σ τ α β : Type} {I : σ → Prop} {price : σ → Int} {n m : Int}

/-- From a state that satisfies `I` the call raises the price by `n` at most. -/
def Costs (I : σ → Prop) (price : σ → Int) (n : Int) (x : Act σ α) : Prop :=
  ∀ s, I s → price (exec x s).2 ≤ price s + n

namespace Costs

theorem mono {x : Act σ α} (cost : Costs I price n x) (le : n ≤ m) : Costs I price m x := by
  intro s h
  have paid := cost s h
  omega

theorem pure (a : α) : Costs I price 0 (Pure.pure a : Act σ α) := fun _ _ => by simp

theorem throw (e : Fault) : Costs I price 0 (MonadExcept.throw e : Act σ α) := fun _ _ => by simp

theorem ofExcept (r : Except Fault α) : Costs I price 0 (Act.ofExcept r) := fun _ _ => by simp

theorem get : Costs I price 0 (MonadState.get : Act σ σ) := fun _ _ => by simp

theorem modify {f : σ → σ} (step : ∀ s, I s → price (f s) ≤ price s + n) :
    Costs I price n (modify f : Act σ PUnit) := step

/-- A fault in the first part saves the cost of the second, which must not be negative. -/
theorem bind {x : Act σ α} {f : α → Act σ β} (first : Costs I price n x) (keeps : Keeps I x)
    (rest : ∀ a, Costs I price m (f a)) (positive : 0 ≤ m) : Costs I price (n + m) (x >>= f) := by
  intro s h
  have paid := first s h
  have kept := keeps s h
  rw [exec_bind]
  generalize exec x s = r at paid kept
  obtain ⟨o, s'⟩ := r
  change price s' ≤ price s + n at paid
  cases o with
  | error e =>
    show price s' ≤ price s + (n + m)
    omega
  | ok a =>
    have more := rest a s' kept
    show price (exec (f a) s').2 ≤ price s + (n + m)
    omega

/-- A first part that costs nothing. -/
theorem free_bind {x : Act σ α} {f : α → Act σ β} (first : Costs I price 0 x) (keeps : Keeps I x)
    (rest : ∀ a, Costs I price n (f a)) (positive : 0 ≤ n) : Costs I price n (x >>= f) :=
  (first.bind keeps rest positive).mono (by omega)

/-- An update that costs nothing may lead from one invariant to another. -/
theorem modify_bind {J : σ → Prop} {f : σ → σ} {x : Act σ α}
    (step : ∀ s, I s → J (f s) ∧ price (f s) ≤ price s) (rest : Costs J price n x) :
    Costs I price n ((MonadStateOf.modifyGet fun s => ((), f s) : Act σ Unit) >>= fun _ => x) := by
  intro s h
  obtain ⟨kept, free⟩ := step s h
  have more := rest (f s) kept
  show price (exec x (f s)).2 ≤ price s + n
  omega

/-- A computation without state costs nothing, and what follows may use its result. -/
theorem ofExcept_bind {r : Except Fault α} {f : α → Act σ β}
    (rest : ∀ a, r = .ok a → Costs I price n (f a)) (positive : 0 ≤ n) :
    Costs I price n (Act.ofExcept r >>= f) := by
  intro s h
  rw [exec_bind, exec_ofExcept]
  cases ok : r with
  | error e => exact Int.le_add_of_nonneg_right positive
  | ok a => exact rest a ok s h

/-- The continuation of a read may use that it was handed the current state. -/
theorem get_bind {f : σ → Act σ β} (rest : ∀ s, I s → price (exec (f s) s).2 ≤ price s + n) :
    Costs I price n ((MonadState.get : Act σ σ) >>= f) := by
  intro s h
  rw [exec_bind, exec_get]
  exact rest s h

theorem catchStd {x : Act σ Unit} (body : Costs I price n x) : Costs I price n (Act.catchStd x) := by
  intro s h
  rw [exec_catchStd_state]
  exact body s h

theorem rethrowAs {what : String} {x : Act σ α} (body : Costs I price n x) :
    Costs I price n (Act.rethrowAs what x) := by
  intro s h
  rw [exec_rethrowAs_state]
  exact body s h

theorem zoom {view : σ → τ} {put : τ → σ → σ} {x : Act τ α}
    (step : ∀ t s, I s → price (put t s) ≤ price s + n) : Costs I price n (Act.zoom view put x) := by
  intro s h
  rw [exec_zoom]
  exact step _ s h

theorem ite {p : Prop} [Decidable p] {x y : Act σ α} (yes : Costs I price n x)
    (no : Costs I price n y) : Costs I price n (if p then x else y) := by
  split
  · exact yes
  · exact no

/-- The cost holds where less is known of the state. -/
theorem weaken {J : σ → Prop} {x : Act σ α} (cost : Costs I price n x) (stronger : ∀ s, J s → I s) :
    Costs J price n x := fun s h => cost s (stronger s h)

end Costs

end Act

end MiniDht.Lib
