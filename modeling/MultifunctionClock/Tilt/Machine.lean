import MultifunctionClock.Lib.Excursion

/-! The page machine of `thread_entry_mpu`: tilts past forty degrees turn pages,
    level samples re-arm. -/

namespace MultifunctionClock

/--
The four constants that a pitch is compared with.

A sample is any value of a linear order, since the source only compares it.
-/
structure Levels (α : Type) [LinearOrder α] where
  minus40 : α
  minus30 : α
  plus30 : α
  plus40 : α
  low : minus40 < minus30
  level : minus30 < plus30
  high : plus30 < plus40

/-- The constants on whole degrees. -/
def degrees : Levels ℤ := ⟨-40, -30, 30, 40, by decide, by decide, by decide⟩

/-- `Page_Max`. -/
def pageMax : ℤ := 2

/-- The variables of the loop: the page shown, and whether the next tilt counts. -/
structure Tilt where
  page : ℤ
  pageBuff : ℤ
deriving DecidableEq, Repr

/-- The variables as `thread_entry_mpu` initialises them. -/
def Tilt.initial : Tilt := ⟨0, 1⟩

variable {α : Type} [LinearOrder α] (levels : Levels α)

/-- One iteration of the loop on a pitch: the new variables, and the page mail it sends. -/
def Tilt.turn (tilt : Tilt) (pitch : α) : Tilt × Option ℤ :=
  -- A tilt turns the page once and disarms the loop.
  if pitch < levels.minus40 ∧ tilt.pageBuff = 1 then
    let page := tilt.page + 1
    let page := if page > pageMax then 0 else page
    (⟨page, 0⟩, some page)
  else if pitch > levels.plus40 ∧ tilt.pageBuff = 1 then
    let page := tilt.page - 1
    let page := if page < 0 then pageMax else page
    (⟨page, 0⟩, some page)
  -- Only a sample near the horizontal arms it again.
  else if pitch > levels.minus30 ∧ pitch < levels.plus30 then ({ tilt with pageBuff := 1 }, none)
  else (tilt, none)

/--
The loop so far: its variables, the samples read, and the mails sent with their sample's index.
-/
structure TiltRun where
  tilt : Tilt
  read : ℕ
  sent : List (ℕ × ℤ)
deriving DecidableEq

/-- The loop reads one more sample. -/
def TiltRun.next (run : TiltRun) (pitch : α) : TiltRun :=
  let (tilt, mail) := run.tilt.turn levels pitch
  ⟨tilt, run.read + 1, run.sent ++ (mail.map (run.read, ·)).toList⟩

/-- The loop after a sequence of samples. -/
def tiltRun (pitches : List α) : TiltRun := pitches.foldl (TiltRun.next levels) ⟨.initial, 0, []⟩

/-- A sample that turns a page when the loop is armed. -/
def tilted (pitch : α) : Bool := pitch < levels.minus40 || pitch > levels.plus40

/-- A sample that re-arms the loop. -/
def levelled (pitch : α) : Bool := pitch > levels.minus30 && pitch < levels.plus30

/-- Page after a number of turns in both directions, starting from page zero. -/
def pageOf (turns : List α) : ℤ :=
  ((turns.countP (· < levels.minus40) : ℤ) - turns.countP (· > levels.plus40)) % 3

/-- Pages run from zero to two. -/
theorem pageOf_range (turns : List α) : 0 ≤ pageOf levels turns ∧ pageOf levels turns < 3 :=
  ⟨Int.emod_nonneg _ (by omega), Int.emod_lt_of_pos _ (by omega)⟩

/-- A tilt below minus forty degrees moves one page on, from the last page to the first. -/
theorem pageOf_low (turns : List α) {pitch : α} (below : pitch < levels.minus40) :
    pageOf levels (turns ++ [pitch]) =
      if pageOf levels turns + 1 > pageMax then 0 else pageOf levels turns + 1 := by
  -- The tilt counts on one side only, because the levels are in order.
  have above : ¬ pitch > levels.plus40 :=
    not_lt_of_gt (below.trans (levels.low.trans (levels.level.trans levels.high)))
  have moved : pageOf levels (turns ++ [pitch]) = (pageOf levels turns + 1) % 3 := by
    simp only [pageOf, List.countP_append, List.countP_singleton, below, above, decide_true,
      decide_false, if_true, Bool.false_eq_true, if_false]
    omega
  have range := pageOf_range levels turns
  rw [moved, pageMax]
  split_ifs <;> omega

/-- A tilt above forty degrees moves one page back, from the first page to the last. -/
theorem pageOf_high (turns : List α) {pitch : α} (above : pitch > levels.plus40) :
    pageOf levels (turns ++ [pitch]) =
      if pageOf levels turns - 1 < 0 then pageMax else pageOf levels turns - 1 := by
  -- The tilt counts on one side only, because the levels are in order.
  have below : ¬ pitch < levels.minus40 :=
    not_lt_of_gt ((levels.low.trans (levels.level.trans levels.high)).trans above)
  have moved : pageOf levels (turns ++ [pitch]) = (pageOf levels turns - 1) % 3 := by
    simp only [pageOf, List.countP_append, List.countP_singleton, below, above, decide_true,
      decide_false, if_true, Bool.false_eq_true, if_false]
    omega
  have range := pageOf_range levels turns
  rw [moved, pageMax]
  split_ifs <;> omega

/-- The page after an iteration is the one it sent, if it sent any. -/
theorem Tilt.turn_page (tilt : Tilt) (pitch : α) :
    (tilt.turn levels pitch).1.page = (tilt.turn levels pitch).2.getD tilt.page := by
  -- Both turning branches send the page that they store, and the others keep it.
  unfold Tilt.turn
  split_ifs <;> rfl

/-- Pages stay between zero and `Page_Max`. -/
theorem Tilt.turn_range {tilt : Tilt} (inside : 0 ≤ tilt.page ∧ tilt.page ≤ pageMax) (pitch : α) :
    0 ≤ (tilt.turn levels pitch).1.page ∧ (tilt.turn levels pitch).1.page ≤ pageMax := by
  -- A turn that leaves the range wraps to its other end.
  simp only [pageMax] at inside ⊢
  unfold Tilt.turn
  split_ifs
  · simp only [pageMax]
    split_ifs <;> omega
  · simp only [pageMax]
    split_ifs <;> omega
  · exact inside
  · exact inside

/-- An armed tilt turns a page, and any other sample at most re-arms. -/
theorem Tilt.turn_eq (tilt : Tilt) (pitch : α) (turns : List α)
    (page : tilt.page = pageOf levels turns) :
    tilt.turn levels pitch =
      if tilted levels pitch && decide (tilt.pageBuff = 1) then
        (⟨pageOf levels (turns ++ [pitch]), 0⟩, some (pageOf levels (turns ++ [pitch])))
      else if levelled levels pitch then ({ tilt with pageBuff := 1 }, none)
      else (tilt, none) := by
  -- Only an armed loop looks at the two tilts, and there each of them is one turn of the count.
  unfold Tilt.turn tilted levelled
  by_cases armed : tilt.pageBuff = 1
  · by_cases below : pitch < levels.minus40
    · simp [armed, below, page, pageOf_low levels turns below]
    · by_cases above : pitch > levels.plus40
      · simp [armed, below, above, page, pageOf_high levels turns above]
      · simp [armed, below, above]
  · simp [armed]

open Excursion

/-- The latch that the loop variables and the mails sent so far stand for. -/
def TiltRun.latch (run : TiltRun) : Latch := ⟨decide (run.tilt.pageBuff = 1), run.sent.map Prod.fst⟩

/-- The page after the first `count` excursions. -/
def pageAfter (pitches : List α) (count : ℕ) : ℤ :=
  pageOf levels (firedSamples (tilted levels) (levelled levels) pitches count)

/-- The loop is in step with the excursions of the samples it has read. -/
structure TiltRun.Refines (run : TiltRun) (pitches : List α) : Prop where
  read : run.read = pitches.length
  latch : run.latch.Tracks (tilted levels) (levelled levels) pitches
  page : run.tilt.page = pageAfter levels pitches run.sent.length
  pages : ∀ k mail, run.sent[k]? = some mail → mail.2 = pageAfter levels pitches (k + 1)

variable {levels}

/-- The mails sent so far are one for each excursion. -/
theorem TiltRun.Refines.found {run : TiltRun} {pitches : List α}
    (refines : run.Refines levels pitches) :
    ∀ k < run.sent.length, (excursion (tilted levels) (levelled levels) pitches k).isSome := by
  -- The latch fired once for each mail.
  intro k inside
  rw [← refines.latch.fired k]
  simp [TiltRun.latch, inside]

/-- One more sample keeps the loop in step. -/
theorem TiltRun.Refines.next {run : TiltRun} {pitches : List α}
    (refines : run.Refines levels pitches) (pitch : α) :
    (run.next levels pitch).Refines levels (pitches ++ [pitch]) := by
  have tracks := refines.latch.read pitch
  rw [← refines.read] at tracks
  have turned := run.tilt.turn_eq levels pitch _ refines.page
  -- The excursions that were there before lead to the same pages.
  have stable (count : ℕ) (within : count ≤ run.sent.length) :
      pageAfter levels (pitches ++ [pitch]) count = pageAfter levels pitches count := by
    rw [pageAfter, firedSamples_mono _ _ (fun k inside => refines.found k (by omega)), pageAfter]
  have earlier : ∀ k mail, run.sent[k]? = some mail →
      mail.2 = pageAfter levels (pitches ++ [pitch]) (k + 1) := by
    intro k mail sent
    have inside : k < run.sent.length := (List.getElem?_eq_some_iff.mp sent).1
    rw [stable (k + 1) inside]
    exact refines.pages k mail sent
  unfold Latch.read at tracks
  by_cases turning : tilted levels pitch && decide (run.tilt.pageBuff = 1)
  · rw [if_pos turning] at turned
    rw [if_pos (by simpa [TiltRun.latch] using turning)] at tracks
    -- The new excursion is the sample just read.
    have fresh : excursion (tilted levels) (levelled levels) (pitches ++ [pitch]) run.sent.length =
        some pitches.length := by
      rw [← tracks.fired]
      simp [TiltRun.latch, refines.read]
    have added : pageAfter levels (pitches ++ [pitch]) (run.sent.length + 1) =
        pageOf levels
          (firedSamples (tilted levels) (levelled levels) pitches run.sent.length ++ [pitch]) := by
      rw [pageAfter, firedSamples_succ _ _ fresh pitch (by simp),
        firedSamples_mono _ _ refines.found]
    refine ⟨by simp [TiltRun.next, refines.read], ?_, ?_, ?_⟩
    · simpa [TiltRun.next, turned, TiltRun.latch] using tracks
    · simp [TiltRun.next, turned, added]
    · -- A mail is an earlier one, or the one just sent.
      intro k mail sent
      simp only [TiltRun.next, turned, Option.map_some, Option.toList_some] at sent
      rcases Nat.lt_or_ge k run.sent.length with before | behind
      · exact earlier k mail (by rwa [List.getElem?_append_left before] at sent)
      · rw [List.getElem?_append_right behind] at sent
        have last : k = run.sent.length := by
          have := (List.getElem?_eq_some_iff.mp sent).1
          simp only [List.length_singleton] at this
          omega
        subst last
        simp only [Nat.sub_self, List.getElem?_cons_zero, Option.some.injEq] at sent
        rw [← sent, added]
  · rw [if_neg turning] at turned
    rw [if_neg (by simpa [TiltRun.latch] using turning)] at tracks
    -- No mail is sent, so only the arming can change.
    have quiet : (run.tilt.turn levels pitch).2 = none ∧
        (run.tilt.turn levels pitch).1.page = run.tilt.page ∧
        (run.tilt.turn levels pitch).1.pageBuff =
          if levelled levels pitch then 1 else run.tilt.pageBuff := by
      rw [turned]
      split <;> simp_all
    obtain ⟨noMail, samePage, arming⟩ := quiet
    have sent : (run.next levels pitch).sent = run.sent := by simp [TiltRun.next, noMail]
    refine ⟨by simp [TiltRun.next, refines.read], ?_, ?_, ?_⟩
    · have same : (run.next levels pitch).latch =
          if levelled levels pitch then { run.latch with armed := true } else run.latch := by
        simp only [TiltRun.latch, TiltRun.next, arming]
        split <;> simp_all
      rw [same]
      exact tracks
    · rw [sent, stable _ le_rfl, ← refines.page]
      exact samePage
    · rw [sent]
      exact earlier

variable (levels)

/-- The loop stays in step with the excursions on every sequence of samples. -/
theorem tiltRun_refines (pitches : List α) : (tiltRun levels pitches).Refines levels pitches := by
  -- By induction on the samples read, with the step lemma for each new one.
  induction pitches using List.reverseRecOn with
  | nil =>
    refine ⟨rfl, Latch.tracks_nil _ _, ?_, ?_⟩
    · simp [tiltRun, Tilt.initial, pageAfter, firedSamples, pageOf]
    · intro k mail sent
      simp [tiltRun] at sent
  | append_singleton pitches pitch ih =>
    have unfolded : tiltRun levels (pitches ++ [pitch]) =
        (tiltRun levels pitches).next levels pitch := by
      simp [tiltRun]
    rw [unfolded]
    exact ih.next pitch

/-- The mails sent, one for each excursion, each with the page its excursion leads to. -/
theorem tiltRun_sent (pitches : List α) (k : ℕ) :
    (tiltRun levels pitches).sent[k]? =
      (excursion (tilted levels) (levelled levels) pitches k).map fun index =>
        (index, pageAfter levels pitches (k + 1)) := by
  -- The latch gives the index of a mail, and the refinement its page.
  have refines := tiltRun_refines levels pitches
  have index := refines.latch.fired k
  simp only [TiltRun.latch, List.getElem?_map] at index
  cases sent : (tiltRun levels pitches).sent[k]? with
  | none => simp [← index, sent]
  | some mail =>
    have page := refines.pages k mail sent
    simp [← index, sent, ← page]

/-- The page variable is the page of the last mail. -/
theorem tiltRun_page (pitches : List α) :
    (tiltRun levels pitches).tilt.page =
      ((tiltRun levels pitches).sent.getLast?.map Prod.snd).getD 0 := by
  -- The page of the loop and the page of the last mail count the same excursions.
  have refines := tiltRun_refines levels pitches
  rw [refines.page]
  cases sent : (tiltRun levels pitches).sent.getLast? with
  | none =>
    rw [List.getLast?_eq_none_iff.mp sent]
    simp [pageAfter, firedSamples, pageOf]
  | some mail =>
    rw [List.getLast?_eq_getElem?] at sent
    have page := refines.pages _ mail sent
    have inside := (List.getElem?_eq_some_iff.mp sent).1
    rw [Option.map_some, Option.getD_some, page, Nat.sub_add_cancel (by omega)]

/-- Until the next level sample, an excursion is the only turn of a page. -/
theorem tiltRun_single {pitches : List α} {k index last : ℕ}
    (found : excursion (tilted levels) (levelled levels) pitches k = some index)
    (ordered : index ≤ last)
    (unlevelled : ∀ i pitch, index < i → i ≤ last → pitches[i]? = some pitch →
      levelled levels pitch = false)
    {j : ℕ} {mail : ℕ × ℤ} (sent : (tiltRun levels pitches).sent[j]? = some mail) :
    (index ≤ mail.1 ∧ mail.1 ≤ last) ↔ j = k := by
  rw [tiltRun_sent] at sent
  obtain ⟨turned, fired, rfl⟩ := Option.map_eq_some_iff.mp sent
  rcases Nat.lt_trichotomy j k with before | same | behind
  · -- Earlier mails belong to samples in front of the stretch.
    obtain ⟨rearmed, _, lower, upper, _⟩ := excursion_between _ _ before fired found
    dsimp only
    omega
  · subst same
    rw [found, Option.some.injEq] at fired
    dsimp only
    omega
  · -- Later mails wait for a level sample, which the stretch does not have.
    obtain ⟨rearmed, pitch, lower, upper, here, level⟩ := excursion_between _ _ behind found fired
    have beyond : last < rearmed := by
      by_contra within
      have := unlevelled rearmed pitch lower (by omega) here
      rw [level] at this
      cases this
    dsimp only
    omega

/--
The loop meets its excursion specification on every sequence of samples.

Mails are sent exactly at the excursions, one each, with the page that counting turns modulo three
gives. After every prefix the page variable is the page of the last mail.
A stretch without a level sample behind its excursion turns exactly one page.
-/
theorem tiltRun_excursions (pitches : List α) :
    (∀ k, (tiltRun levels pitches).sent[k]? =
      (excursion (tilted levels) (levelled levels) pitches k).map fun index =>
        (index, pageAfter levels pitches (k + 1))) ∧
    (∀ n, (tiltRun levels (pitches.take n)).tilt.page =
      ((tiltRun levels (pitches.take n)).sent.getLast?.map Prod.snd).getD 0) ∧
    ∀ k index last, excursion (tilted levels) (levelled levels) pitches k = some index →
      index ≤ last →
      (∀ i pitch, index < i → i ≤ last → pitches[i]? = some pitch → levelled levels pitch = false) →
      ∀ j mail, (tiltRun levels pitches).sent[j]? = some mail →
        ((index ≤ mail.1 ∧ mail.1 ≤ last) ↔ j = k) :=
  ⟨tiltRun_sent levels pitches, fun n => tiltRun_page levels (pitches.take n),
    fun _ _ _ found ordered unlevelled _ _ sent =>
      tiltRun_single levels found ordered unlevelled sent⟩

/-- A noisy tilt, a level sample, a swing from one side to the other, and a wrap below page zero. -/
theorem tiltRun_swings :
    (tiltRun degrees [-41, -39, -45, 0, 50, -50, 29, 60]).sent = [(0, 1), (4, 0), (7, 2)] ∧
    ∀ j mail, (tiltRun degrees [-41, -39, -45, 0, 50, -50, 29, 60]).sent[j]? = some mail →
      ((4 ≤ mail.1 ∧ mail.1 ≤ 5) ↔ j = 1) := by
  -- The stretch from sample four to sample five has no level sample in it.
  refine ⟨by decide, (tiltRun_excursions degrees _).2.2 1 4 5 (by decide) (by decide) ?_⟩
  intro i pitch lower upper here
  obtain rfl : i = 5 := by omega
  obtain rfl : -50 = pitch := by simpa using here
  decide

end MultifunctionClock
