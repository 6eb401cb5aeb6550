import Mathlib.Logic.Relation
import Mathlib.Tactic

/-! Runs of a system that takes one event at a time and reports what can be observed of it. -/

namespace Reach

variable {σ ε ω : Type}

/--
States a system can reach by allowed events, with everything observed on the way.

A step that gives nothing is not enabled.
-/
inductive Reaches (step : σ → ε → Option (σ × List ω)) (allowed : σ → ε → Prop) (start : σ) :
    σ → List ω → Prop
  /-- A run may stop at once. -/
  | refl : Reaches step allowed start start []
  /-- A run goes on with an event that is allowed and enabled. -/
  | step {state next : σ} {seen new : List ω} {event : ε} :
      Reaches step allowed start state seen → allowed state event →
        step state event = some (next, new) →
      Reaches step allowed start next (seen ++ new)

/-- Every event is allowed. -/
def free : σ → ε → Prop := fun _ _ => True

variable {step : σ → ε → Option (σ × List ω)} {allowed : σ → ε → Prop} {start : σ}

/-- What holds at the start and is kept by every step holds in every state reached. -/
theorem Reaches.invariant (good : σ → List ω → Prop) (init : good start [])
    (keep : ∀ state seen event next new, good state seen → allowed state event →
      step state event = some (next, new) → good next (seen ++ new))
    {state : σ} {seen : List ω} (reached : Reaches step allowed start state seen) :
    good state seen := by
  -- The induction follows the run, one event at a time.
  induction reached with
  | refl => exact init
  | step _ ok taken ih => exact keep _ _ _ _ _ ih ok taken

/-- A run can be continued by another run. -/
theorem Reaches.trans {middle state : σ} {first second : List ω}
    (early : Reaches step allowed start middle first)
    (late : Reaches step allowed middle state second) :
    Reaches step allowed start state (first ++ second) := by
  -- The second run is added event by event, so the induction is on it.
  induction late with
  | refl => simpa using early
  | step _ ok taken ih =>
    rw [← List.append_assoc]
    exact ih.step ok taken

/-- The run of a list of events, when each passes a test and is enabled in its turn. -/
def exec (step : σ → ε → Option (σ × List ω)) (ok : σ → ε → Bool) : σ → List ε → Option (σ × List ω)
  | state, [] => some (state, [])
  | state, event :: rest =>
    if ok state event then do
      let (next, new) ← step state event
      let (last, more) ← exec step ok next rest
      return (last, new ++ more)
    else none

/-- A list of events that can be executed is a run, when the test only passes what is allowed. -/
theorem reaches_of_exec {ok : σ → ε → Bool}
    (sound : ∀ state event, ok state event = true → allowed state event)
    {state last : σ} {events : List ε} {seen : List ω}
    (done : exec step ok state events = some (last, seen)) :
    Reaches step allowed state last seen := by
  -- The first event gives a run of one step, and the rest of the list continues it.
  induction events generalizing state seen with
  | nil =>
    simp only [exec, Option.some.injEq, Prod.mk.injEq] at done
    obtain ⟨rfl, rfl⟩ := done
    exact .refl
  | cons event rest ih =>
    -- The test, the step and the rest of the run all have to succeed.
    obtain ⟨passed, done⟩ := Option.ite_none_right_eq_some.mp done
    obtain ⟨⟨next, new⟩, taken, done⟩ := Option.bind_eq_some_iff.mp done
    obtain ⟨⟨final, more⟩, later, done⟩ := Option.bind_eq_some_iff.mp done
    simp only [Option.pure_def, Option.some.injEq, Prod.mk.injEq] at done
    obtain ⟨rfl, rfl⟩ := done
    have begin : Reaches step allowed state state [] := .refl
    have first : Reaches step allowed state next new := by
      simpa using begin.step (sound _ _ passed) taken
    exact first.trans (ih later)

/-- A list of events taken in a row is a run, of whatever steps its events are. -/
theorem reflTransGen_of_foldlM {next : σ → ε → Option σ} {related : σ → σ → Prop} {events : List ε}
    {state last : σ} (steps : ∀ state after, ∀ event ∈ events, next state event = some after →
      related state after)
    (done : events.foldlM next state = some last) : Relation.ReflTransGen related state last := by
  -- The first event is a step, and the rest of the list continues the run.
  induction events generalizing state with
  | nil => exact Option.some.inj done ▸ .refl
  | cons event rest ih =>
    rw [List.foldlM_cons] at done
    obtain ⟨middle, taken, later⟩ := Option.bind_eq_some_iff.mp done
    exact .head (steps state middle event (by simp) taken)
      (ih (fun state after event member => steps state after event (by simp [member])) later)

end Reach
