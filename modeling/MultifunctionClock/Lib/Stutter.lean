import Mathlib.Data.List.Basic
import Mathlib.Tactic

/-! Folds that do not notice inputs which come again or which are lost. -/

namespace Stutter

variable {σ ι : Type}

/-- Each input of a list, together with a number of further copies of it. -/
def repeated (inputs : List (ι × ℕ)) : List ι :=
  inputs.flatMap fun (input, extra) => List.replicate (extra + 1) input

variable {step : σ → ι → σ}

/-- An input that a state absorbs may come any number of times. -/
theorem foldl_replicate {state : σ} {input : ι} (absorbed : step state input = state) (count : ℕ) :
    (List.replicate count input).foldl step state = state := by
  induction count with
  | zero => rfl
  | succ count ih =>
    -- The first copy leaves the state alone, and so do the others.
    rw [List.replicate_succ, List.foldl_cons, absorbed, ih]

/-- When every step absorbs its own input, copies of inputs change nothing. -/
theorem foldl_repeated (settles : ∀ state input, step (step state input) input = step state input)
    (inputs : List (ι × ℕ)) (state : σ) :
    (repeated inputs).foldl step state = (inputs.map Prod.fst).foldl step state := by
  -- By induction on the inputs, where the state moves on with the first copy of each.
  induction inputs generalizing state with
  | nil => rfl
  | cons head inputs ih =>
    obtain ⟨input, extra⟩ := head
    have unfolded : repeated ((input, extra) :: inputs) =
        input :: (List.replicate extra input ++ repeated inputs) := rfl
    rw [unfolded, List.foldl_cons, List.foldl_append, foldl_replicate (settles state input) extra]
    exact ih (step state input)

/-- Inputs that every reached state absorbs can be left out. -/
theorem foldl_filter {kept : ι → Bool} {settled : σ → Prop}
    (reaches : ∀ state input, kept input = true → settled (step state input))
    (absorbs : ∀ state input, settled state → kept input = false → step state input = state)
    (inputs : List ι) {state : σ} (start : settled state) :
    (inputs.filter kept).foldl step state = inputs.foldl step state := by
  induction inputs generalizing state with
  | nil => rfl
  | cons input inputs ih =>
    cases keeps : kept input with
    | true =>
      -- A kept input is read on both sides, and leads to a settled state again.
      rw [List.filter_cons_of_pos keeps]
      exact ih (reaches state input keeps)
    | false =>
      -- Any other input leaves the settled state as it is.
      rw [List.filter_cons_of_neg (by simp [keeps]), List.foldl_cons,
        absorbs state input start keeps]
      exact ih start

end Stutter
