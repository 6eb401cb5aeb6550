import MultifunctionClock.Lib.Trace
import MultifunctionClock.System.Moves

/-! The page protocol between the mpu thread and the OLED thread. -/

namespace MultifunctionClock

namespace System

open Trace

variable {α : Type} [LinearOrder α] {env : Env α} {s next : System} {event : Event α}
  {new seen : List Obs}

/-- The page that an observation shows to be received. -/
def receivedPage : Obs → Option ℤ
  | .pageReceived page => some page
  | _ => none

/-- The page that an observation shows to be sent with result `RT_EOK`. -/
def acceptedPage : Obs → Option ℤ
  | .pageSent page .eok => some page
  | _ => none

/-- The pages that the OLED thread received, in order. -/
def pagesReceived (seen : List Obs) : List ℤ := seen.filterMap receivedPage

/-- The pages whose send returned `RT_EOK`, in order. -/
def pagesAccepted (seen : List Obs) : List ℤ := seen.filterMap acceptedPage

/-- A page of the display. -/
def IsPage (page : ℤ) : Prop := 0 ≤ page ∧ page ≤ pageMax

/-- There are three pages. -/
theorem isPage_iff {page : ℤ} : IsPage page ↔ page = 0 ∨ page = 1 ∨ page = 2 := by
  simp only [IsPage, pageMax]
  omega

/-- Page zero is a page. -/
theorem isPage_zero : IsPage 0 := isPage_iff.mpr (.inl rfl)

/-- When an iteration of the display loop begins, the one before has given up the processor. -/
def Yielding (seen : List Obs) : Prop :=
  Always (fun before obs => obs = .iterate → Answered .iterate .delay before) seen

/--
The display loop gives up the processor between its iterations, and has done so when none runs.
-/
structure Paced (control : OledControl) (seen : List Obs) : Prop where
  yielding : Yielding seen
  rested : control.iterating = false → Answered .iterate .delay seen

/-- Inside and outside of an iteration other things may happen. -/
theorem Paced.quiet {control control' : OledControl} (paced : Paced control seen)
    (same : control'.iterating = control.iterating) (silent : ∀ obs ∈ new, obs ≠ .iterate) :
    Paced control' (seen ++ new) where
  yielding := paced.yielding.append fun obs member _ begins => absurd begins (silent obs member)
  rested stopped := (paced.rested (same ▸ stopped)).append silent

/-- An iteration begins after the one before is over. -/
theorem Paced.begin {control control' : OledControl} (paced : Paced control seen)
    (stopped : control.iterating = false) (runs : control'.iterating = true)
    (silent : ∀ obs ∈ new, obs ≠ .iterate) : Paced control' (seen ++ .iterate :: new) where
  yielding := by
    have first : Yielding (seen ++ [.iterate]) :=
      paced.yielding.concat fun _ => paced.rested stopped
    simpa [Yielding] using first.append fun obs member _ begins => absurd begins (silent obs member)
  rested stopped' := by
    rw [runs] at stopped'
    cases stopped'

/-- An iteration ends as the thread gives up the processor. -/
theorem Paced.delay {control control' : OledControl} (paced : Paced control seen) :
    Paced control' (seen ++ [.delay]) where
  yielding := paced.yielding.concat fun begins => by cases begins
  rested _ := Answered.concat (by simp) (.inl rfl)

/-- What the page protocol keeps, whatever the threads do. -/
structure PageFlow (mb : Mailbox ℤ) (page oledSign : ℤ) (control : OledControl)
    (seen : List Obs) : Prop where
  attached : mb.attached = true
  size : mb.size = poolSize
  page : IsPage page
  sign : IsPage oledSign
  accepted : ∀ page ∈ pagesAccepted seen, IsPage page
  /-- What was accepted is what was received and then what is still queued. -/
  order : pagesReceived seen ++ mb.mails = pagesAccepted seen
  paced : Paced control seen

/--
A step keeps the protocol when what it accepts and receives accounts for the change of the queue.
-/
theorem PageFlow.extend {mb mb' : Mailbox ℤ} {page page' oledSign oledSign' : ℤ}
    {control control' : OledControl}
    (held : PageFlow mb page oledSign control seen) (attached : mb'.attached = true)
    (size : mb'.size = mb.size) (inside : IsPage page') (sign : IsPage oledSign')
    (accepted : ∀ page ∈ pagesAccepted new, IsPage page)
    (flow : mb.mails ++ pagesAccepted new = pagesReceived new ++ mb'.mails)
    (paced : Paced control' (seen ++ new)) :
    PageFlow mb' page' oledSign' control' (seen ++ new) where
  attached := attached
  size := size.trans held.size
  page := inside
  sign := sign
  accepted := by
    intro other member
    rw [pagesAccepted, List.filterMap_append, List.mem_append] at member
    exact member.elim (held.accepted other) (accepted other)
  order := by
    -- What is new on both sides is moved behind what was there before.
    have order := held.order
    simp only [pagesReceived, pagesAccepted, List.filterMap_append] at order flow ⊢
    rw [List.append_assoc, ← flow, ← List.append_assoc, order]
  paced := paced

/-- A step without page observations that leaves the queue alone. -/
theorem PageFlow.quiet {mb : Mailbox ℤ} {page page' oledSign oledSign' : ℤ}
    {control control' : OledControl}
    (held : PageFlow mb page oledSign control seen) (inside : IsPage page')
    (sign : IsPage oledSign') (same : control'.iterating = control.iterating)
    (silent : ∀ obs ∈ new, receivedPage obs = none ∧ acceptedPage obs = none ∧ obs ≠ .iterate) :
    PageFlow mb page' oledSign' control' (seen ++ new) := by
  -- Nothing is received, nothing is accepted, and no iteration begins.
  have received : pagesReceived new = [] :=
    List.filterMap_eq_nil_iff.mpr fun obs member => (silent obs member).1
  have accepted : pagesAccepted new = [] :=
    List.filterMap_eq_nil_iff.mpr fun obs member => (silent obs member).2.1
  exact held.extend held.attached rfl inside sign (by simp [accepted])
    (by simp [accepted, received])
    (held.paced.quiet same fun obs member => (silent obs member).2.2)

/-- A page of the display has a branch of its own. -/
theorem branch_of_isPage {page : ℤ} (inside : IsPage page) :
    branch page = .waitTime ∨ branch page = .waitDht ∨ branch page = .drawWeather := by
  rcases isPage_iff.mp inside with rfl | rfl | rfl <;> simp [branch]

/-- The branch of a page belongs to the iteration. -/
theorem iterating_branch {page : ℤ} (inside : IsPage page) : (branch page).iterating = true := by
  rcases branch_of_isPage inside with taken | taken | taken <;> rw [taken] <;> rfl

/-- No step breaks the page protocol. -/
theorem PageFlow.move (held : PageFlow s.mbOledMpu s.mpu.page s.oledSign s.control seen)
    (move : Move env s event next new) :
    PageFlow next.mbOledMpu next.mpu.page next.oledSign next.control (seen ++ new) := by
  cases move
  case mpuStart found here =>
    refine held.quiet ?_ held.sign rfl (by simp)
    cases found <;> exact isPage_zero
  case mpuStay pitch tilt after here turned =>
    have inside : IsPage tilt.page := by
      have page := held.page
      rwa [here] at page
    have range := Tilt.turn_range env.levels inside pitch
    rw [turned] at range
    exact held.quiet range held.sign rfl (by simp)
  case mpuSend pitch tilt after mail err mb here turned sent =>
    have inside : IsPage tilt.page := by
      have page := held.page
      rwa [here] at page
    have range := Tilt.turn_range env.levels inside pitch
    have moved := tilt.turn_page env.levels pitch
    rw [turned] at moved range
    have inside : IsPage mail := by rw [Option.getD_some] at moved; rwa [← moved]
    obtain ⟨-, kept, capacity, ⟨rfl, -, rfl⟩ | ⟨rfl, -, queued⟩⟩ := rtMbSend_cases sent
    · -- A full mailbox refuses the page, and nothing is accepted.
      exact held.quiet range held.sign rfl (by simp [receivedPage, acceptedPage])
    · -- The page that was accepted is the last one in the queue.
      exact held.extend kept capacity range held.sign
        (by simpa [pagesAccepted, acceptedPage] using inside)
        (by simp [queued, pagesAccepted, pagesReceived, acceptedPage, receivedPage])
        (held.paced.quiet rfl (by simp))
  case oledPage mes mb here received =>
    obtain ⟨-, kept, capacity, ⟨failed, -⟩ | ⟨-, queued⟩⟩ := rtMbRecv_cases received
    · cases failed
    · -- The oldest accepted page moves from the queue to the received ones.
      have inside : IsPage mes := held.accepted mes (by rw [← held.order, queued]; simp)
      exact held.extend kept capacity held.page inside (by simp [pagesAccepted, acceptedPage])
        (by simp [queued, pagesAccepted, pagesReceived, List.filterMap_cons, acceptedPage,
          receivedPage])
        (held.paced.begin (by rw [here]; rfl) (iterating_branch inside) (by simp))
  case oledSame here _ empty =>
    -- An iteration begins without a page mail, at the page of the last one.
    exact held.extend held.attached rfl held.page held.sign
      (by simp [pagesAccepted, acceptedPage])
      (by simp [pagesAccepted, pagesReceived, List.filterMap_cons, acceptedPage, receivedPage])
      (held.paced.begin (by rw [here]; rfl) (iterating_branch held.sign) (by simp))
  case delay here =>
    -- The iteration ends as the thread gives up the processor.
    exact held.extend held.attached rfl held.page held.sign
      (by simp [pagesAccepted, acceptedPage])
      (by simp [pagesAccepted, pagesReceived, List.filterMap_cons, acceptedPage, receivedPage])
      held.paced.delay
  case oledStart here _ => exact held.quiet held.page isPage_zero (by rw [here]; rfl) (by simp)
  case oledDetach here => exact held.quiet held.page isPage_zero (by rw [here]; rfl) (by simp)
  case oledReceive here _ => exact held.quiet held.page held.sign (by rw [here]; rfl) (by simp)
  case timeFrame here _ =>
    exact held.quiet held.page held.sign (by rw [here]; rfl) (by simp [receivedPage, acceptedPage])
  case dhtFrame here _ =>
    exact held.quiet held.page held.sign (by rw [here]; rfl) (by simp [receivedPage, acceptedPage])
  case weatherFrame here =>
    exact held.quiet held.page held.sign (by rw [here]; rfl) (by simp [receivedPage, acceptedPage])
  all_goals exact held.quiet held.page held.sign rfl (by simp [receivedPage, acceptedPage])

/-- The page protocol is kept along every run. -/
theorem pageFlow_of_run {allowed : System → Event α → Prop} (run : Run env allowed s seen) :
    PageFlow s.mbOledMpu s.mpu.page s.oledSign s.control seen := by
  -- At the start nothing is queued, and both sides are at page zero.
  refine run.invariant (fun s seen => PageFlow s.mbOledMpu s.mpu.page s.oledSign s.control seen) ?_
    fun held _ move => PageFlow.move held move
  exact ⟨rfl, rfl, isPage_zero, isPage_zero, by simp [pagesAccepted], rfl, always_nil _,
    fun _ before after split => by simp at split⟩

/-- An iteration of the display loop can always begin, and takes the branch of its page. -/
theorem oledStep_poll (held : PageFlow s.mbOledMpu s.mpu.page s.oledSign s.control seen)
    (here : s.control = .poll) : ∃ next new, step env s .oledStep = some (next, new) ∧
      (next.control = .waitTime ∨ next.control = .waitDht ∨ next.control = .drawWeather) := by
  cases queued : s.mbOledMpu.mails with
  | nil => exact ⟨_, _, step_of_move (.oledSame here held.attached queued),
      branch_of_isPage held.sign⟩
  | cons mes rest =>
    obtain ⟨mb, received⟩ := rtMbRecv_of_cons held.attached queued
    -- The mail at the head of the queue is one of the accepted pages.
    have inside := held.accepted mes (by rw [← held.order, queued]; simp)
    exact ⟨_, _, step_of_move (.oledPage here received), branch_of_isPage inside⟩

/--
Page mails are neither reordered, duplicated nor corrupted, and the display loop never spins.

Whatever was accepted was received or is still queued, in order, and is a page.
Every iteration takes the branch of a page,
and between any two iterations the thread has given up the processor.
-/
theorem pages_delivered (run : Run env Reach.free s seen) :
    pagesReceived seen ++ s.mbOledMpu.mails = pagesAccepted seen ∧
    (∀ page ∈ pagesAccepted seen, page = 0 ∨ page = 1 ∨ page = 2) ∧
    (s.control = .poll → ∃ next new, step env s .oledStep = some (next, new) ∧
      (next.control = .waitTime ∨ next.control = .waitDht ∨ next.control = .drawWeather)) ∧
    ∀ before between after, seen = before ++ .iterate :: (between ++ .iterate :: after) →
      .delay ∈ between := by
  -- All of it is part of what the page protocol keeps.
  have held := pageFlow_of_run run
  refine ⟨held.order, fun page member => isPage_iff.mp (held.accepted page member),
    oledStep_poll held, fun before between after split => ?_⟩
  exact held.paced.yielding (before ++ .iterate :: between) .iterate after (by simp [split]) rfl
    before between rfl

/-- One tilt back and forth between two pages, levelled after each. -/
def swing : List (Event ℤ) := [.mpuIterate 41, .mpuIterate 0, .mpuIterate (-41), .mpuIterate 0]

/--
Thirty-three page switches before the weather arrives. The last of them finds the mailbox full.
-/
def manyTilts : List (Event ℤ) :=
  [.mpuStart true, .mpuIterate (-41), .mpuIterate 0, .mpuIterate (-41), .mpuIterate 0] ++
    (List.replicate 15 swing).flatten ++ [.mpuIterate 41, .mpuIterate 0]

/-- Sixteen sensor mails, and thirty-two frames that take the thirty-two page mails. -/
def drainPages : List (Event ℤ) :=
  .dhtStart 3 zeroedDht :: List.replicate 16 .dhtIterate ++ List.replicate 96 .oledStep

/-- In that run thirty-two pages are received and one is refused. -/
theorem reached_backlog : ∃ s seen, Run sunnyEnv Reach.free s seen ∧
    (s.control = .poll ∧ s.mbOledMpu.mails = [] ∧ s.oledSign = 2 ∧ s.mpu.page = 1) ∧
    (pagesReceived seen).length = 32 ∧ .pageSent 1 .efull ∈ seen := by
  have outcome : (Reach.exec (step sunnyEnv) (fun _ _ => true) (initial sunnyEnv)
      (manyTilts ++ enterDisplay ++ drainPages)).map (fun last =>
        ((last.1.control, last.1.mbOledMpu.mails, last.1.oledSign, last.1.mpu.page),
          (pagesReceived last.2).length, decide (.pageSent 1 .efull ∈ last.2))) =
      some ((.poll, [], 2, 1), 32, true) := by decide +kernel
  obtain ⟨⟨s, seen⟩, done, shown⟩ := Option.map_eq_some_iff.mp outcome
  simp only [Prod.mk.injEq, decide_eq_true_eq] at shown
  exact ⟨s, seen, Reach.reaches_of_exec (fun _ _ _ => trivial) done, shown⟩

/-- The pages of that run are accounted for, and its iterations are apart. -/
theorem pages_delivered_backlog : ∃ s seen, Run sunnyEnv Reach.free s seen ∧
    (pagesReceived seen).length = 32 ∧ .pageSent 1 .efull ∈ seen ∧
    pagesReceived seen ++ s.mbOledMpu.mails = pagesAccepted seen ∧
    ∀ before between after, seen = before ++ .iterate :: (between ++ .iterate :: after) →
      .delay ∈ between := by
  obtain ⟨s, seen, run, -, many, refused⟩ := reached_backlog
  obtain ⟨order, -, -, paced⟩ := pages_delivered run
  exact ⟨s, seen, run, many, refused, order, paced⟩

/-- The page that the OLED thread will show once it has taken all queued mails. -/
def pageAhead (s : System) : ℤ := s.mbOledMpu.mails.getLast?.getD s.oledSign

/--
What keeps producer and display together: no page was lost, and the display starts at page zero.
-/
structure InStep (s : System) : Prop where
  ahead : pageAhead s = s.mpu.page
  waiting : s.control.displays = false → s.oledSign = 0

/-- Every page switch finds room in the mailbox. -/
def SwitchHasRoom (env : Env α) (s : System) (event : Event α) : Prop :=
  ∀ pitch tilt, event = .mpuIterate pitch → s.mpu = .loop tilt →
    (tilt.turn env.levels pitch).2.isSome → s.mbOledMpu.entry < poolSize

/-- An iteration of the display loop stays in the display loop. -/
theorem displays_branch (oledSign : ℤ) : (branch oledSign).displays = true := by
  -- Every branch, and the head of the loop itself, lies in the loop.
  unfold branch
  split_ifs <;> rfl

/-- A step keeps producer and display together, unless it switches pages on a full mailbox. -/
theorem InStep.move (held : InStep s) (size : s.mbOledMpu.size = poolSize)
    (room : SwitchHasRoom env s event) (move : Move env s event next new) : InStep next := by
  obtain ⟨ahead, waiting⟩ := held
  cases move
  case mpuStart found here =>
    have zero : s.mpu.page = 0 := by rw [here]; rfl
    refine ⟨?_, waiting⟩
    cases found <;> exact ahead.trans zero
  case mpuStay pitch tilt after here turned =>
    have moved := tilt.turn_page env.levels pitch
    rw [turned] at moved
    have same : after.page = s.mpu.page := by rw [here]; exact moved
    exact ⟨ahead.trans same.symm, waiting⟩
  case mpuSend pitch tilt after mail err mb here turned sent =>
    have moved := tilt.turn_page env.levels pitch
    -- The page is switched and there is room, so the mail is queued.
    have space := room pitch tilt rfl here (by rw [turned]; rfl)
    rw [turned] at moved
    obtain ⟨-, -, -, ⟨-, full, -⟩ | ⟨-, -, queued⟩⟩ := rtMbSend_cases sent
    · omega
    · refine ⟨?_, waiting⟩
      simp only [pageAhead, queued, List.getLast?_concat, Option.getD_some, MpuThread.page]
      exact moved.symm
  case oledPage mes mb here received =>
    obtain ⟨-, -, -, ⟨failed, -⟩ | ⟨-, queued⟩⟩ := rtMbRecv_cases received
    · cases failed
    · -- The page that was at the head of the queue is now the one shown.
      refine ⟨?_, by simp [displays_branch]⟩
      rw [← ahead]
      simp [pageAhead, queued, List.getLast?_cons]
  case oledSame => exact ⟨ahead, by simp [displays_branch]⟩
  -- Before the display loop the variable is zero, so setting it to zero changes nothing.
  case oledStart here _ =>
    have zero := waiting (by rw [here]; rfl)
    exact ⟨by rw [← ahead]; simp [pageAhead, zero], fun _ => rfl⟩
  case oledDetach here =>
    have zero := waiting (by rw [here]; rfl)
    exact ⟨by rw [← ahead]; simp [pageAhead, zero], fun _ => rfl⟩
  case oledReceive here _ => exact ⟨ahead, fun _ => waiting (by rw [here]; rfl)⟩
  case timeFrame => exact ⟨ahead, by simp [OledControl.displays]⟩
  case dhtFrame => exact ⟨ahead, by simp [OledControl.displays]⟩
  case weatherFrame => exact ⟨ahead, by simp [OledControl.displays]⟩
  case delay => exact ⟨ahead, by simp [OledControl.displays]⟩
  all_goals exact ⟨ahead, waiting⟩

/--
Producer and display agree on the page, as long as no page switch finds the mailbox full.

In every run whose page switches all find room, the display variable is the page of the mpu thread
whenever all page mails have been taken.
-/
theorem display_agrees (run : Run env (SwitchHasRoom env) s seen) (empty : s.mbOledMpu.mails = []) :
    s.oledSign = s.mpu.page := by
  -- The page protocol gives the size of the mailbox,
  -- and the step lemma keeps the two pages together.
  have held := run.invariant
    (fun s seen => PageFlow s.mbOledMpu s.mpu.page s.oledSign s.control seen ∧ InStep s)
    ⟨pageFlow_of_run (Reach.Reaches.refl : Run env Reach.free _ _), ⟨rfl, fun _ => rfl⟩⟩
    fun held room move => ⟨held.1.move move, held.2.move held.1.size room move⟩
  have ahead := held.2.ahead
  rwa [pageAhead, empty] at ahead

/-- One tilt, taken by the display. -/
def tiltAndShow : List (Event ℤ) :=
  [.mpuStart true, .mpuIterate (-41)] ++ enterDisplay ++ [.oledStep]

/-- The run of one tilt finds room, and the display shows the new page. -/
theorem display_agrees_tilt : ∃ s seen, Run sunnyEnv (SwitchHasRoom sunnyEnv) s seen ∧
    s.control.displays = true ∧ s.mpu.page = 1 ∧ s.oledSign = s.mpu.page := by
  -- Every step of this run finds room in the mailbox.
  have outcome : (Reach.exec (step sunnyEnv) (fun s _ => s.mbOledMpu.entry < poolSize)
    (initial sunnyEnv)
      tiltAndShow).map (fun last => (last.1.control, last.1.mpu.page, last.1.mbOledMpu.mails)) =
      some (.waitDht, 1, []) := by decide +kernel
  obtain ⟨⟨s, seen⟩, done, shown⟩ := Option.map_eq_some_iff.mp outcome
  simp only [Prod.mk.injEq] at shown
  obtain ⟨control, page, empty⟩ := shown
  have run : Run sunnyEnv (SwitchHasRoom sunnyEnv) s seen :=
    Reach.reaches_of_exec (fun _ _ room _ _ _ _ _ => by simpa using room) done
  exact ⟨s, seen, run, by rw [control]; rfl, page, display_agrees run empty⟩

/--
After too many tilts in one wait, the display shows page two while the mpu thread is at page one.
-/
theorem display_disagrees : ∃ s seen, Run sunnyEnv Reach.free s seen ∧ s.control.displays = true ∧
    s.mbOledMpu.mails = [] ∧ s.oledSign = 2 ∧ s.mpu.page = 1 := by
  -- Thirty-two mails are queued when the last page is sent, and all of them are taken later.
  obtain ⟨s, seen, run, ⟨control, empty, sign, page⟩, -⟩ := reached_backlog
  exact ⟨s, seen, run, by rw [control]; rfl, empty, sign, page⟩

end System

end MultifunctionClock
