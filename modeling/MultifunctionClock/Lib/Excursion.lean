import Mathlib.Tactic

/-! Triggers with re-arming: after a trigger, nothing fires again before a re-arming sample. -/

namespace Excursion

variable {α : Type} (fires rearms : α → Bool)

/-- First index from `start` on whose sample satisfies a test. -/
def firstFrom (test : α → Bool) (samples : List α) (start : ℕ) : Option ℕ :=
  ((samples.drop start).findIdx? test).map (start + ·)

/--
Index of an excursion, counted from zero.

The first one is the first firing sample.
Each later one is the first firing sample behind the first re-arming sample behind its predecessor.
-/
def excursion (samples : List α) : ℕ → Option ℕ
  | 0 => firstFrom fires samples 0
  | k + 1 => do
    let fired ← excursion samples k
    let rearmed ← firstFrom rearms samples (fired + 1)
    firstFrom fires samples (rearmed + 1)

/-- Samples of the first `count` excursions, oldest first. -/
def firedSamples (samples : List α) (count : ℕ) : List α :=
  (List.range count).filterMap fun k => (excursion fires rearms samples k).bind (samples[·]?)

/-- A found index lies between the start and the end of the samples. -/
theorem firstFrom_bounds {test : α → Bool} {samples : List α} {start index : ℕ}
    (found : firstFrom test samples start = some index) :
    start ≤ index ∧ index < samples.length := by
  -- The search runs on the samples behind the start, and its result is shifted back.
  obtain ⟨offset, located, rfl⟩ := Option.map_eq_some_iff.mp found
  have := (List.findIdx?_eq_some_iff_getElem.mp located).1
  simp only [List.length_drop] at this
  omega

/-- Nothing is found from behind the last sample on. -/
theorem firstFrom_past {test : α → Bool} {samples : List α} {start : ℕ}
    (past : samples.length ≤ start) :
    firstFrom test samples start = none := by
  simp [firstFrom, List.drop_of_length_le past]

/-- One more sample can only be found where nothing was found before. -/
theorem firstFrom_snoc (test : α → Bool) (samples : List α) (sample : α) (start : ℕ) :
    firstFrom test (samples ++ [sample]) start =
      (firstFrom test samples start).or
        (if start ≤ samples.length ∧ test sample then some samples.length else none) := by
  -- The search sees the new sample only after all the old ones, and only when it starts before it.
  unfold firstFrom
  by_cases inside : start ≤ samples.length
  · rw [List.drop_append_of_le_length inside, List.findIdx?_append]
    cases found : (samples.drop start).findIdx? test with
    | some offset => simp
    | none =>
      by_cases hit : test sample <;> simp [hit, inside]
  · have behind : (samples ++ [sample]).drop start = [] :=
      List.drop_of_length_le (by simp; omega)
    simp [behind, inside, List.drop_of_length_le (show samples.length ≤ start by omega)]

/-- A found index stays found when samples are added. -/
theorem firstFrom_mono {test : α → Bool} {samples : List α} {start index : ℕ}
    (found : firstFrom test samples start = some index) (sample : α) :
    firstFrom test (samples ++ [sample]) start = some index := by
  rw [firstFrom_snoc, found, Option.some_or]

/-- An excursion happens at a sample that was read. -/
theorem excursion_lt {samples : List α} {k index : ℕ}
    (found : excursion fires rearms samples k = some index) : index < samples.length := by
  -- Every excursion is found by a search, and a search finds samples that exist.
  cases k with
  | zero => exact (firstFrom_bounds found).2
  | succ k =>
    obtain ⟨_, _, found⟩ := Option.bind_eq_some_iff.mp found
    obtain ⟨_, _, found⟩ := Option.bind_eq_some_iff.mp found
    exact (firstFrom_bounds found).2

/-- The sample found satisfies the test. -/
theorem firstFrom_test {test : α → Bool} {samples : List α} {start index : ℕ}
    (found : firstFrom test samples start = some index) :
    ∃ sample, samples[index]? = some sample ∧ test sample = true := by
  -- The search stops at a sample that passes the test.
  obtain ⟨offset, located, rfl⟩ := Option.map_eq_some_iff.mp found
  obtain ⟨inside, holds, -⟩ := List.findIdx?_eq_some_iff_getElem.mp located
  refine ⟨_, ?_, holds⟩
  rw [List.getElem_drop, List.getElem?_eq_getElem]

/-- Between two excursions lies a re-arming sample. -/
theorem excursion_between {samples : List α} {early late a b : ℕ} (ordered : early < late)
    (first : excursion fires rearms samples early = some a)
    (second : excursion fires rearms samples late = some b) :
    ∃ rearmed sample, a < rearmed ∧ rearmed < b ∧ samples[rearmed]? = some sample ∧
      rearms sample = true := by
  induction late, ordered using Nat.le_induction generalizing b with
  | base =>
    simp only [excursion, first, Option.bind_eq_bind, Option.bind_some] at second
    obtain ⟨rearmed, armed, fired⟩ := Option.bind_eq_some_iff.mp second
    obtain ⟨sample, here, holds⟩ := firstFrom_test armed
    exact ⟨rearmed, sample, (firstFrom_bounds armed).1, (firstFrom_bounds fired).1, here, holds⟩
  | succ late _ ih =>
    -- The excursion before the later one already has a re-arming sample in front of it.
    obtain ⟨middle, before, second⟩ := Option.bind_eq_some_iff.mp second
    obtain ⟨again, armed, fired⟩ := Option.bind_eq_some_iff.mp second
    obtain ⟨rearmed, sample, lower, upper, here, holds⟩ := ih before
    have := (firstFrom_bounds armed).1
    have := (firstFrom_bounds fired).1
    exact ⟨rearmed, sample, lower, by omega, here, holds⟩

/-- An excursion stays where it is when samples are added. -/
theorem excursion_mono {samples : List α} {k index : ℕ}
    (found : excursion fires rearms samples k = some index) (sample : α) :
    excursion fires rearms (samples ++ [sample]) k = some index := by
  -- By induction on the excursion: each search behind it finds what it found before.
  induction k generalizing index with
  | zero => exact firstFrom_mono found sample
  | succ k ih =>
    obtain ⟨fired, earlier, found⟩ := Option.bind_eq_some_iff.mp found
    obtain ⟨rearmed, armed, found⟩ := Option.bind_eq_some_iff.mp found
    simp [excursion, ih earlier, firstFrom_mono armed sample, firstFrom_mono found sample]

/-- Excursions have no gaps: once one is missing, so are all later ones. -/
theorem excursion_none {samples : List α} {k later : ℕ}
    (missing : excursion fires rearms samples k = none) (ordered : k ≤ later) :
    excursion fires rearms samples later = none := by
  -- Each excursion is searched behind the one before it.
  induction later, ordered using Nat.le_induction with
  | base => exact missing
  | succ later _ ih => simp [excursion, ih]

/-- Samples of excursions that were already there stay the same when samples are added. -/
theorem firedSamples_mono {samples : List α} {count : ℕ}
    (found : ∀ k < count, (excursion fires rearms samples k).isSome) (sample : α) :
    firedSamples fires rearms (samples ++ [sample]) count =
      firedSamples fires rearms samples count := by
  -- Each excursion keeps its index, and each index keeps its sample.
  apply List.filterMap_congr
  intro k inside
  obtain ⟨index, earlier⟩ := Option.isSome_iff_exists.mp (found k (List.mem_range.mp inside))
  simp [excursion_mono _ _ earlier, earlier, List.getElem?_append_left (excursion_lt _ _ earlier)]

/-- A new excursion adds its sample. -/
theorem firedSamples_succ {samples : List α} {count index : ℕ}
    (found : excursion fires rearms samples count = some index) (sample : α)
    (here : samples[index]? = some sample) :
    firedSamples fires rearms samples (count + 1) =
      firedSamples fires rearms samples count ++ [sample] := by
  simp [firedSamples, List.range_succ, found, here]

/-- Whether a re-arming sample was read since the last of the first `count` excursions. -/
def armedAfter (samples : List α) : ℕ → Bool
  | 0 => true
  | k + 1 => ((excursion fires rearms samples k).bind fun fired =>
      firstFrom rearms samples (fired + 1)).isSome

/-- The next excursion is the next sample exactly when it fires while armed. -/
theorem excursion_snoc {samples : List α} {count : ℕ}
    (found : ∀ k < count, (excursion fires rearms samples k).isSome)
    (missing : excursion fires rearms samples count = none) (sample : α) :
    excursion fires rearms (samples ++ [sample]) count =
      if armedAfter fires rearms samples count &&
        fires sample then some samples.length else none := by
  cases count with
  | zero =>
    simp only [excursion] at missing ⊢
    simp [firstFrom_snoc, missing, armedAfter]
  | succ k =>
    obtain ⟨fired, earlier⟩ := Option.isSome_iff_exists.mp (found k (by omega))
    simp only [excursion, earlier, Option.bind_eq_bind, Option.bind_some] at missing
    simp only [excursion, excursion_mono _ _ earlier, armedAfter, earlier, Option.bind_eq_bind,
      Option.bind_some]
    cases armed : firstFrom rearms samples (fired + 1) with
    | some rearmed =>
      -- Already armed: only a firing sample is missing.
      have bound := (firstFrom_bounds armed).2
      simp only [armed, Option.bind_some] at missing
      simp only [firstFrom_mono armed, Option.bind_some, firstFrom_snoc, missing, Option.none_or,
        Option.isSome_some, Bool.true_and]
      simp [show rearmed + 1 ≤ samples.length from bound]
    | none =>
      -- Not armed: the new sample can re-arm, and firing has to wait for a later one.
      simp only [firstFrom_snoc rearms, armed, Option.none_or, Option.isSome_none, Bool.false_and,
        Bool.false_eq_true, if_false]
      split
      · exact firstFrom_past (by simp)
      · rfl

/-- A sample re-arms, or leaves the arming as it was, when it starts no excursion. -/
theorem armedAfter_snoc {samples : List α} {count : ℕ}
    (found : ∀ k < count, (excursion fires rearms samples k).isSome) (sample : α) :
    armedAfter fires rearms (samples ++ [sample]) count =
      (armedAfter fires rearms samples count || rearms sample) := by
  -- The search for a re-arming sample behind the last excursion now includes the new sample.
  cases count with
  | zero => rfl
  | succ k =>
    obtain ⟨fired, earlier⟩ := Option.isSome_iff_exists.mp (found k (by omega))
    have bound : fired + 1 ≤ samples.length := excursion_lt _ _ earlier
    simp only [armedAfter, excursion_mono _ _ earlier, earlier, Option.bind_some,
      firstFrom_snoc, bound,
      true_and, Option.isSome_or]
    split <;> simp_all

/-- A one-bit latch: the indices at which it fired, and whether it may fire again. -/
structure Latch where
  armed : Bool
  fired : List ℕ
deriving DecidableEq

/-- A latch reads one sample. -/
def Latch.read (latch : Latch) (index : ℕ) (sample : α) : Latch :=
  if fires sample && latch.armed then ⟨false, latch.fired ++ [index]⟩
  else if rearms sample then { latch with armed := true }
  else latch

/-- What a latch looks like after the excursions of some samples. -/
structure Latch.Tracks (latch : Latch) (samples : List α) : Prop where
  fired : ∀ k, latch.fired[k]? = excursion fires rearms samples k
  armed : latch.armed = armedAfter fires rearms samples latch.fired.length

/-- An armed latch has seen no excursion yet. -/
theorem Latch.tracks_nil : Latch.Tracks fires rearms ⟨true, []⟩ ([] : List α) where
  fired k := by
    have first : excursion fires rearms ([] : List α) 0 = none := by simp [excursion, firstFrom]
    have none_yet := excursion_none fires rearms first (Nat.zero_le k)
    simp [none_yet]
  armed := rfl

variable {fires rearms}

/-- Reading a sample keeps a latch in step with the excursions. -/
theorem Latch.Tracks.read {latch : Latch} {samples : List α}
    (tracks : Latch.Tracks fires rearms latch samples) (sample : α) :
    Latch.Tracks fires rearms (latch.read fires rearms samples.length sample)
      (samples ++ [sample]) := by
  obtain ⟨armed, fired⟩ := latch
  have found : ∀ k < fired.length, (excursion fires rearms samples k).isSome := by
    intro k inside
    rw [← tracks.fired k]
    simp [inside]
  have missing : excursion fires rearms samples fired.length = none := by
    rw [← tracks.fired]
    simp
  have next := excursion_snoc fires rearms found missing sample
  have arming : armed = armedAfter fires rearms samples fired.length := tracks.armed
  -- Excursions that were there before stay where they are.
  have kept : ∀ k < fired.length, excursion fires rearms (samples ++ [sample]) k = fired[k]? := by
    intro k inside
    obtain ⟨index, earlier⟩ := Option.isSome_iff_exists.mp (found k inside)
    rw [excursion_mono _ _ earlier, tracks.fired k, earlier]
  rw [← arming] at next
  unfold Latch.read
  split
  · rename_i firing
    rw [if_pos (by simpa [and_comm] using firing)] at next
    refine ⟨fun k => ?_, ?_⟩
    · rcases Nat.lt_trichotomy k fired.length with before | rfl | behind
      · rw [kept k before]
        exact List.getElem?_append_left before
      · simp [next]
      · -- The new excursion is the last sample, so nothing can re-arm behind it.
        have last : excursion fires rearms (samples ++ [sample]) (fired.length + 1) = none := by
          simp only [excursion, next, Option.bind_eq_bind, Option.bind_some]
          rw [firstFrom_past (by simp)]
          rfl
        rw [excursion_none fires rearms last behind]
        simp
        omega
    · simp only [List.length_append, List.length_cons, List.length_nil, armedAfter, next,
        Option.bind_some]
      rw [firstFrom_past (by simp)]
      rfl
  · rename_i quiet
    rw [if_neg (by simpa [and_comm] using quiet)] at next
    have same : ∀ k, fired[k]? = excursion fires rearms (samples ++ [sample]) k := by
      intro k
      by_cases before : k < fired.length
      · exact (kept k before).symm
      · rw [excursion_none fires rearms next (by omega)]
        simp
        omega
    have rearming := armedAfter_snoc fires rearms found sample
    split
    · rename_i hit
      exact ⟨same, by simp [rearming, hit]⟩
    · rename_i miss
      exact ⟨same, by simp [rearming, miss, arming]⟩

end Excursion
