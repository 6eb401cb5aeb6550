import MultifunctionClock.Lib.Stutter
import MultifunctionClock.Tilt.Machine

/-! The tilt loop together with `mpu_dmp_get_data`,
    which leaves the pitch alone when a read fails. -/

namespace MultifunctionClock

/-- The levels of the tilt loop around the pitch that the global variable starts with. -/
structure PitchScale (α : Type) [LinearOrder α] extends Levels α where
  zero : α
  zero_low : minus30 < zero
  zero_high : zero < plus30

/-- The scale of whole degrees. -/
def degreeScale : PitchScale ℤ := ⟨degrees, 0, by decide, by decide⟩

/-- What the FIFO of the sensor gives to one call of `mpu_dmp_get_data`. -/
inductive FifoRead (α : Type) where
  /-- `dmp_read_fifo` reports an error. -/
  | failed
  /-- The packet has no quaternion. -/
  | noQuat
  /-- The quaternion of the packet has this pitch. -/
  | quat (pitch : α)
deriving DecidableEq

/-- The read gives a new pitch. -/
def FifoRead.succeeded {α : Type} : FifoRead α → Bool
  | .quat _ => true
  | _ => false

/-- `mpu_dmp_get_data`: the pitch variable after the call, and its result. -/
def mpuDmpGetData {α : Type} (pitch : α) : FifoRead α → α × UInt8
  | .failed => (pitch, 1)
  | .noQuat => (pitch, 2)
  | .quat new => (new, 0)

/-- The pitch that the decision runs on in each iteration. -/
def pitchesOf {α : Type} (pitch : α) : List (FifoRead α) → List α
  | [] => []
  | read :: reads => (mpuDmpGetData pitch read).1 :: pitchesOf (mpuDmpGetData pitch read).1 reads

/-- One more read adds the pitch that the variable then holds. -/
theorem pitchesOf_concat {α : Type} (pitch : α) (reads : List (FifoRead α)) (read : FifoRead α) :
    pitchesOf pitch (reads ++ [read]) = pitchesOf pitch reads ++
      [(mpuDmpGetData (reads.foldl (fun held read => (mpuDmpGetData held read).1) pitch)
        read).1] := by
  -- By induction on the reads, with the variable moving along.
  induction reads generalizing pitch with
  | nil => rfl
  | cons first reads ih =>
    rw [List.cons_append, pitchesOf, pitchesOf, ih, List.cons_append, List.foldl_cons]

/--
The variables of `thread_entry_mpu` and of the file around it, and the page mails sent so far.
-/
@[ext] structure MpuLoop (α : Type) where
  /-- The global variable `Pitch`. -/
  pitch : α
  tilt : Tilt
  sent : List ℤ
deriving DecidableEq

variable {α : Type} [LinearOrder α] (scale : PitchScale α)

/-- One iteration of the loop of `thread_entry_mpu`. -/
def MpuLoop.next (loop : MpuLoop α) (read : FifoRead α) : MpuLoop α :=
  -- The result of the read is not looked at, so the decision runs on whatever the variable holds.
  let (pitch, _) := mpuDmpGetData loop.pitch read
  let (tilt, mail) := loop.tilt.turn scale.toLevels pitch
  ⟨pitch, tilt, loop.sent ++ mail.toList⟩

/-- The loop after a sequence of reads. -/
def mpuLoop (reads : List (FifoRead α)) : MpuLoop α :=
  reads.foldl (MpuLoop.next scale) ⟨scale.zero, .initial, []⟩

/-- The loop decides as the tilt loop does on the pitches that the variable holds. -/
theorem mpuLoop_tiltRun (reads : List (FifoRead α)) :
    (mpuLoop scale reads).tilt = (tiltRun scale.toLevels (pitchesOf scale.zero reads)).tilt ∧
      (mpuLoop scale reads).sent =
        (tiltRun scale.toLevels (pitchesOf scale.zero reads)).sent.map Prod.snd := by
  -- The variable itself is tracked as well, since the next decision depends on it.
  suffices tracked : (mpuLoop scale reads).pitch =
        reads.foldl (fun held read => (mpuDmpGetData held read).1) scale.zero ∧
      (mpuLoop scale reads).tilt = (tiltRun scale.toLevels (pitchesOf scale.zero reads)).tilt ∧
      (mpuLoop scale reads).sent =
        (tiltRun scale.toLevels (pitchesOf scale.zero reads)).sent.map Prod.snd from tracked.2
  induction reads using List.reverseRecOn with
  | nil => exact ⟨rfl, rfl, rfl⟩
  | append_singleton reads read ih =>
    obtain ⟨pitch, tilt, sent⟩ := ih
    have unfolded : mpuLoop scale (reads ++ [read]) = (mpuLoop scale reads).next scale read := by
      simp [mpuLoop]
    rw [unfolded, pitchesOf_concat, ← pitch]
    simp only [MpuLoop.next, tiltRun, List.foldl_append, List.foldl_cons, List.foldl_nil,
      TiltRun.next]
    rw [← tiltRun, ← tilt]
    refine ⟨by rw [pitch], rfl, ?_⟩
    cases ((mpuLoop scale reads).tilt.turn scale.toLevels _).2 <;> simp [sent]

/-- A decision on a pitch leaves nothing to decide on the same pitch. -/
theorem Tilt.turn_turn (levels : Levels α) (tilt : Tilt) (pitch : α) :
    (tilt.turn levels pitch).1.turn levels pitch = ((tilt.turn levels pitch).1, none) := by
  have inner := levels.low.trans (levels.level.trans levels.high)
  by_cases below : pitch < levels.minus40
  · -- A tilt disarms the loop, and is too far from level to arm it again.
    have steep : ¬pitch > levels.minus30 := not_lt_of_gt (below.trans levels.low)
    have single : ¬pitch > levels.plus40 := not_lt_of_gt (below.trans inner)
    by_cases armed : tilt.pageBuff = 1
    · simp [Tilt.turn, below, steep, single, armed]
    · simp [Tilt.turn, steep, armed]
  · by_cases above : pitch > levels.plus40
    · have steep : ¬pitch < levels.plus30 := not_lt_of_gt (levels.high.trans above)
      by_cases armed : tilt.pageBuff = 1
      · simp [Tilt.turn, below, above, steep, armed]
      · simp [Tilt.turn, steep, armed]
    · -- A sample that is no tilt can only arm the loop, and arming twice is arming once.
      by_cases level : pitch > levels.minus30 ∧ pitch < levels.plus30
      · simp [Tilt.turn, below, above, level]
      · simp [Tilt.turn, below, above, level]

/-- The loop has nothing left to decide on the pitch that its variable holds. -/
def MpuLoop.Settled (loop : MpuLoop α) : Prop :=
  loop.tilt.turn scale.toLevels loop.pitch = (loop.tilt, none)

/-- Every iteration settles the loop. -/
theorem MpuLoop.settled_next (loop : MpuLoop α) (read : FifoRead α) :
    (loop.next scale read).Settled scale :=
  Tilt.turn_turn _ _ _

variable {scale}

/-- A settled loop does not notice a failed read. -/
theorem MpuLoop.next_of_failed {loop : MpuLoop α} (settled : loop.Settled scale) {read : FifoRead α}
    (failed : read.succeeded = false) : loop.next scale read = loop := by
  -- A failed read keeps the variable, and the decision on it was made before.
  have stale : (mpuDmpGetData loop.pitch read).1 = loop.pitch := by
    cases read with
    | failed => rfl
    | noQuat => rfl
    | quat pitch => cases failed
  have decided : loop.tilt.turn scale.toLevels loop.pitch = (loop.tilt, none) := settled
  simp [MpuLoop.next, stale, decided]

/-- The second of two equal reads is not noticed. -/
theorem MpuLoop.next_next (loop : MpuLoop α) (read : FifoRead α) :
    (loop.next scale read).next scale read = loop.next scale read := by
  cases read with
  | failed => exact next_of_failed (settled_next scale loop _) rfl
  | noQuat => exact next_of_failed (settled_next scale loop _) rfl
  | quat pitch =>
    -- The variable already holds the sample that comes again.
    have decided := settled_next scale loop (.quat pitch)
    simp only [Settled, MpuLoop.next, mpuDmpGetData] at decided
    simp [MpuLoop.next, mpuDmpGetData, decided]

variable (scale)

/-- The loop starts settled, since a pitch of zero is level and the loop is armed. -/
theorem settled_start : MpuLoop.Settled scale ⟨scale.zero, .initial, []⟩ := by
  -- Zero lies between the two levels, so a read of it turns nothing.
  have below : ¬scale.zero < scale.minus40 := not_lt_of_gt (scale.low.trans scale.zero_low)
  have above : ¬scale.zero > scale.plus40 := not_lt_of_gt (scale.zero_high.trans scale.high)
  simp [MpuLoop.Settled, Tilt.turn, Tilt.initial, below, above]

/--
Failed reads never turn a page, and neither does a sample that comes again.

The mails and the variables are those of the reads without the failures, and copies of a read that
follow it at once change neither.
-/
theorem mpuLoop_stutter :
    (∀ reads : List (FifoRead α),
      mpuLoop scale (reads.filter FifoRead.succeeded) = mpuLoop scale reads) ∧
    ∀ reads : List (FifoRead α × ℕ),
      mpuLoop scale (Stutter.repeated reads) = mpuLoop scale (reads.map Prod.fst) := by
  constructor
  · -- Every iteration settles the loop, and a settled loop absorbs failures.
    intro reads
    exact Stutter.foldl_filter (fun loop read _ => MpuLoop.settled_next scale loop read)
      (fun _ _ settled failed => MpuLoop.next_of_failed settled failed) reads (settled_start scale)
  · intro reads
    exact Stutter.foldl_repeated MpuLoop.next_next reads _

/-- Failures before and between the samples of a tilt, with its last sample read three times. -/
example : mpuLoop degreeScale [.noQuat, .quat (-41), .failed, .quat (-45), .quat (-45),
    .quat (-45)] =
    ⟨-45, ⟨1, 0⟩, [1]⟩ := by decide

end MultifunctionClock
