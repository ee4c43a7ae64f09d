import Mathlib.Order.WellFounded

/-!
# Loops that end

A loop is the relation between the states before and after a pass of its body. It ends from
a state if no passes follow one another for ever.
-/

namespace MiniDht.Lib

variable {σ : Type} {pass : σ → σ → Prop} {s : σ}

/-- From here the passes come to an end. -/
def Ends (pass : σ → σ → Prop) (s : σ) : Prop :=
  Acc (fun after before => pass before after) s

/-- They do where an invariant holds under which each pass makes a number smaller. -/
theorem ends_of_measure {I : σ → Prop} (measure : σ → Nat)
    (step : ∀ s s', I s → pass s s' → I s' ∧ measure s' < measure s) (start : I s) :
    Ends pass s := by
  induction size : measure s using Nat.strong_induction_on generalizing s with
  | h n ih =>
    refine ⟨s, fun s' passed => ?_⟩
    obtain ⟨kept, fewer⟩ := step s s' start passed
    exact ih _ (size ▸ fewer) kept rfl

/-- They do not where an invariant holds under which there is always another pass. -/
theorem not_ends_of_step {I : σ → Prop} (step : ∀ s, I s → ∃ s', pass s s' ∧ I s') (start : I s) :
    ¬ Ends pass s := by
  intro ends
  induction ends with
  | intro s _ ih =>
    obtain ⟨s', passed, kept⟩ := step s start
    exact ih s' passed kept

end MiniDht.Lib
