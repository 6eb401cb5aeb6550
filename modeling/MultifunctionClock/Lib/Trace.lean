import Mathlib.Tactic

/-! Traces of observations: conditions on each observation and its past,
    and the latest value seen. -/

namespace Trace

variable {ω β : Type}

/-- Every observation meets a condition on what was observed before it. -/
def Always (good : List ω → ω → Prop) (trace : List ω) : Prop :=
  ∀ before event after, trace = before ++ event :: after → good before event

/-- Nothing was observed, so nothing is to be met. -/
theorem always_nil (good : List ω → ω → Prop) : Always good [] := by
  -- The empty trace has no observation to split off.
  intro before event after split
  simp at split

/-- One more observation adds one condition on the whole past. -/
theorem Always.concat {good : List ω → ω → Prop} {trace : List ω} {event : ω}
    (past : Always good trace) (now : good trace event) : Always good (trace ++ [event]) := by
  intro before seen after split
  -- The observation is the new one or lies in the past.
  rcases List.eq_nil_or_concat after with rfl | ⟨rest, last, rfl⟩
  · -- Nothing follows it, so everything before it is the whole past.
    obtain ⟨rfl, same⟩ := List.append_inj' split rfl
    obtain rfl : event = seen := by simpa using same
    exact now
  · -- Taking the new observation off both ends leaves a split of the past.
    refine past before seen rest ?_
    have lengths : trace ++ [event] = (before ++ seen :: rest) ++ [last] := by simpa using split
    exact (List.append_inj' lengths rfl).1

/-- Observations that meet the condition on any past can be added together. -/
theorem Always.append {good : List ω → ω → Prop} {trace new : List ω} (past : Always good trace)
    (harmless : ∀ event ∈ new, ∀ before, good before event) : Always good (trace ++ new) := by
  -- The new observations join the past one at a time.
  induction new generalizing trace with
  | nil => simpa using past
  | cons event new ih =>
    have first := past.concat (harmless event (by simp) trace)
    simpa using ih first fun other member => harmless other (by simp [member])

/-- Behind every observation of one kind there is one of another kind. -/
def Answered (one other : ω) (trace : List ω) : Prop :=
  ∀ before after, trace = before ++ one :: after → other ∈ after

/--
An observation of a third kind leaves the answers there, and one of the other kind gives them.
-/
theorem Answered.concat {one other event : ω} {trace : List ω} (different : event ≠ one)
    (past : event = other ∨ Answered one other trace) : Answered one other (trace ++ [event]) := by
  intro before after split
  rcases List.eq_nil_or_concat after with rfl | ⟨rest, last, rfl⟩
  · -- The new observation is not of the first kind.
    exact absurd (by simpa using (List.append_inj' split rfl).2) different
  · have ends : trace ++ [event] = (before ++ one :: rest) ++ [last] := by simpa using split
    obtain ⟨early, late⟩ := List.append_inj' ends rfl
    obtain rfl : event = last := by simpa using late
    rcases past with rfl | answered
    · simp
    · simp [answered before rest early]

/-- Observations of other kinds leave the answers there. -/
theorem Answered.append {one other : ω} {trace new : List ω} (past : Answered one other trace)
    (silent : ∀ event ∈ new, event ≠ one) : Answered one other (trace ++ new) := by
  -- The new observations join the past one at a time.
  induction new generalizing trace with
  | nil => simpa using past
  | cons event new ih =>
    have first := Answered.concat (silent event (by simp)) (.inr past)
    simpa using ih first fun other member => silent other (by simp [member])

/-- The latest value that a trace shows. -/
def latest (view : ω → Option β) (trace : List ω) : Option β := (trace.filterMap view).getLast?

/-- Observations that show nothing leave the latest value alone. -/
theorem latest_append_silent {view : ω → Option β} {new : List ω}
    (silent : ∀ event ∈ new, view event = none) (trace : List ω) :
    latest view (trace ++ new) = latest view trace := by
  -- The values that are shown are the same list.
  have nothing : new.filterMap view = [] := List.filterMap_eq_nil_iff.mpr silent
  simp [latest, nothing]

/-- An observation that shows a value makes it the latest. -/
theorem latest_concat {view : ω → Option β} {event : ω} {value : β}
    (shows : view event = some value) (trace : List ω) :
    latest view (trace ++ [event]) = some value := by
  simp [latest, shows]

/-- The latest value was shown by some observation. -/
theorem exists_of_latest {view : ω → Option β} {trace : List ω} {value : β}
    (last : latest view trace = some value) : ∃ event ∈ trace, view event = some value :=
  List.mem_filterMap.mp (List.mem_of_getLast? last)

end Trace
