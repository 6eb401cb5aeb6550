import MultifunctionClock.Clock.Message
import MultifunctionClock.Dht.Message
import MultifunctionClock.Kernel.Mailbox
import MultifunctionClock.Lib.Heap
import MultifunctionClock.Lib.Reach
import MultifunctionClock.Tilt.Machine
import MultifunctionClock.Weather.Fetch

/-!
The five application threads, their four mailboxes and the heap, as one system that takes steps.

A step is an iteration of a producer, one call of the weather thread, or the OLED thread up to its
next call that can wait.
Handles of blocks stand for pointers.
-/

namespace MultifunctionClock

open Bytes

/-- Who allocated a block. -/
inductive Owner where
  | weather
  | time
  | dht
  | oled
  | other
deriving DecidableEq

/-- `thread_entry_weather`: the calls it still has to make, and its variable `mes`. -/
structure WeatherThread where
  todo : List WeatherCall
  mes : Option ℕ
  /-- A kernel assertion failed. Its handler never returns. -/
  asserted : Bool
deriving DecidableEq

/-- `thread_entry_my_time` before its loop, and in it with its message block. -/
inductive TimeThread where
  | start
  | loop (mes : ℕ)
deriving DecidableEq

/-- `read_entry_dht` before its loop, in it with its block and a count of reads, and at its end. -/
inductive DhtThread where
  | start
  | loop (msg count : ℕ)
  | returned
deriving DecidableEq

/-- `thread_entry_mpu` before its loop, in it with its variables, and at its end. -/
inductive MpuThread where
  | start
  | loop (tilt : Tilt)
  | returned
deriving DecidableEq

/-- The page of the mpu thread. -/
def MpuThread.page : MpuThread → ℤ
  | .loop tilt => tilt.page
  | _ => 0

/-- The places where `thread_entry_oled` can be between two steps. -/
inductive OledControl where
  /-- Before the allocation of `str_wea`. -/
  | start
  /-- In the receive of the weather mail. -/
  | waitWeather
  /-- Before `rt_mb_detach`. -/
  | detach
  /-- At the head of the display loop, before the receive of a page mail. -/
  | poll
  /-- In the receive of a time mail. -/
  | waitTime
  /-- In the receive of a sensor mail. -/
  | waitDht
  /-- Before the weather page is drawn. -/
  | drawWeather
  /-- In `rt_thread_mdelay(1)` at the end of a frame. -/
  | delay
deriving DecidableEq

/-- The thread has entered its display loop. -/
def OledControl.displays : OledControl → Bool
  | .start | .waitWeather | .detach => false
  | _ => true

/-- The thread has received the weather mail. -/
def OledControl.received : OledControl → Bool
  | .start | .waitWeather => false
  | _ => true

/-- The thread is inside an iteration of its display loop. -/
def OledControl.iterating : OledControl → Bool
  | .waitTime | .waitDht | .drawWeather | .delay => true
  | _ => false

/-- What the world outside the threads answers. -/
structure Env (α : Type) [LinearOrder α] where
  /-- The constants that pitches are compared with. -/
  levels : Levels α
  cjson : CJson
  fetch : Fetch
  /-- `rt_device_find` finds the sensor. -/
  deviceFound : Bool
  /-- `rt_device_open` succeeds. -/
  deviceOpened : Bool
  /-- The successive results of `rt_device_read`, absent for a failed read. -/
  sensorRead : ℕ → Option (BitVec 32)

/-- The state of the system. -/
structure System where
  heap : Heap Owner
  mbOledWeather : Mailbox ℕ
  mbOledTime : Mailbox ℕ
  mbOledDht : Mailbox ℕ
  mbOledMpu : Mailbox ℤ
  weather : WeatherThread
  time : TimeThread
  dht : DhtThread
  mpu : MpuThread
  control : OledControl
  oledSign : ℤ
  strWea : ℕ

/-- A block of the size of a clock message, with whatever the allocator left in it. -/
abbrev MesgTime.Block := { mes : Bytes // mes.length = MesgTime.size }

/-- The static buffer of `asctime`, with whatever the last caller left in it. -/
abbrev AsctimeBuffer := { buf : Bytes // buf.length = 25 }

/-- A step of a thread, with everything that the thread does not determine itself. -/
inductive Event (α : Type) where
  | weatherMalloc (handle : ℕ) (mes : MesgWeather.Block)
  | weatherCall
  | timeStart (handle : ℕ) (mes : MesgTime.Block)
  | timeIterate (now : ℤ) (buf : AsctimeBuffer)
  | dhtStart (handle : ℕ) (msg : MesgDht.Block)
  | dhtIterate
  | mpuStart (found : Bool)
  | mpuIterate (pitch : α)
  | oledStart (handle : ℕ) (strWea : MesgWeather.Block)
  | oledStep
  | otherMalloc (handle : ℕ) (bytes : Bytes)
  | otherWrite (handle : ℕ) (bytes : Bytes)
  | otherFree (handle : ℕ)

/-- What can be observed of a step. -/
inductive Obs where
  /-- The parser filled a message block, which then shows these strings. -/
  | weatherStored (mes : ℕ) (report : Report) (texts : WeatherTexts)
  /-- The assertion on the object type of a mailbox failed. -/
  | assertFailed
  /-- The time thread rewrote its message from this text of `ctime`. -/
  | timeRewritten (str : Bytes)
  /-- The sensor thread rewrote its message from this word. -/
  | dhtRewritten (word : BitVec 32)
  /-- The mpu thread sent a page, with this result. -/
  | pageSent (page : ℤ) (err : RtErr)
  /-- The OLED thread began an iteration of its display loop. -/
  | iterate
  /-- The OLED thread received a page. -/
  | pageReceived (page : ℤ)
  /-- The OLED thread drew the clock page. -/
  | timeFrame (face : ClockFace)
  /-- The OLED thread drew the sensor page. -/
  | dhtFrame (texts : DhtTexts)
  /-- The OLED thread drew the weather page from this block. -/
  | weatherFrame (mes : ℕ) (texts : WeatherTexts)
  /-- The OLED thread gave up the processor for a tick. -/
  | delay
deriving DecidableEq

/-- `sizeof(mb_pool_oled_time) / 4`, the same for all four pools. -/
def poolSize : ℕ := 32

/-- A mailbox as `main` initialises it. -/
def mainMailbox (μ : Type) [Inhabited μ] : Mailbox μ :=
  rtMbInit (List.replicate poolSize default) (by simp [poolSize]) (by simp [poolSize])

variable {α : Type} [LinearOrder α] (env : Env α)

/-- All mailboxes are initialised, and no thread has run yet. -/
def System.initial : System where
  heap := fun _ => ⟨none, []⟩
  mbOledWeather := mainMailbox ℕ
  mbOledTime := mainMailbox ℕ
  mbOledDht := mainMailbox ℕ
  mbOledMpu := mainMailbox ℤ
  -- The answers of the network are fixed in advance,
  -- so the calls of the weather thread are as well.
  weather := ⟨threadEntryWeather env.cjson env.fetch, none, false⟩
  time := .start
  dht := .start
  mpu := .start
  control := .start
  oledSign := 0
  strWea := 0

namespace System

/-- `rt_malloc` in `cJSON_NowWeatherParse`. -/
def weatherMalloc (s : System) (handle : ℕ) (mes : MesgWeather.Block) :
    Option (System × List Obs) :=
  match s.weather.todo with
  | .malloc :: todo =>
    -- The allocator chooses among the handles that are not in use.
    if (s.heap handle).owner = none then
      some ({ s with
        heap := s.heap.alloc handle .weather mes
        weather := { s.weather with todo := todo, mes := some handle } }, [])
    else none
  | _ => none

/-- Any other call in `cJSON_NowWeatherParse`. -/
def weatherCall (s : System) : Option (System × List Obs) :=
  -- The handler of a failed assertion never returns.
  if s.weather.asserted then none
  else
    match s.weather.mes, s.weather.todo with
    | some mes, .fill report :: todo =>
      let bytes := fillMesgWeather report (s.heap mes).bytes
      some ({ s with heap := s.heap.write mes bytes, weather := { s.weather with todo := todo } },
        [.weatherStored mes report (readWeather bytes)])
    | some mes, .send :: todo =>
      match rtMbSend s.mbOledWeather mes with
      | none => some ({ s with weather := { s.weather with asserted := true } }, [.assertFailed])
      -- The result of the send is not looked at.
      | some (_, mb) =>
        some ({ s with mbOledWeather := mb, weather := { s.weather with todo := todo } }, [])
    | some mes, .free :: todo =>
      some ({ s with
        heap := s.heap.free mes
        weather := { s.weather with todo := todo, mes := none } }, [])
    | _, _ => none

/-- `thread_entry_my_time` up to its loop. -/
def timeStart (s : System) (handle : ℕ) (mes : MesgTime.Block) : Option (System × List Obs) :=
  match s.time with
  | .start =>
    if (s.heap handle).owner = none then
      some ({ s with heap := s.heap.alloc handle .time mes, time := .loop handle }, [])
    else none
  | _ => none

/-- One iteration of `thread_entry_my_time` that reads the second count `now`. -/
def timeIterate (s : System) (now : ℤ) (buf : AsctimeBuffer) : Option (System × List Obs) :=
  match s.time with
  | .loop mes => do
    -- The message is rewritten in place, also while older mails for it are queued.
    let str ← ctime now buf
    let (_, mb) ← rtMbSend s.mbOledTime mes
    return ({ s with
      heap := s.heap.write mes (fillMesgTime str (s.heap mes).bytes)
      mbOledTime := mb }, [.timeRewritten str])
  | _ => none

/-- `read_entry_dht` up to its loop, or to an early return. -/
def dhtStart (s : System) (handle : ℕ) (msg : MesgDht.Block) : Option (System × List Obs) :=
  match s.dht with
  | .start =>
    if (s.heap handle).owner = none then
      some ({ s with
        heap := s.heap.alloc handle .dht msg
        -- The block is kept when the device is missing or cannot be opened.
        dht := if env.deviceFound && env.deviceOpened then .loop handle 0 else .returned }, [])
    else none
  | _ => none

/-- One iteration of `read_entry_dht`. -/
def dhtIterate (s : System) : Option (System × List Obs) :=
  match s.dht with
  | .loop msg count =>
    match env.sensorRead count with
    -- A failed read ends the thread.
    | none => some ({ s with dht := .returned }, [])
    | some word =>
      -- A negative word is skipped without a mail.
      if 0 ≤ word.toInt then do
        let (_, mb) ← rtMbSend s.mbOledDht msg
        return ({ s with
          heap := s.heap.write msg (fillMesgDht word (s.heap msg).bytes)
          mbOledDht := mb
          dht := .loop msg (count + 1) }, [.dhtRewritten word])
      else some ({ s with dht := .loop msg (count + 1) }, [])
  | _ => none

/-- `thread_entry_mpu` up to its loop, or to its return when there is no sensor. -/
def mpuStart (s : System) (found : Bool) : Option (System × List Obs) :=
  match s.mpu with
  | .start => some ({ s with mpu := if found then .loop .initial else .returned }, [])
  | _ => none

/-- One iteration of `thread_entry_mpu`. -/
def mpuIterate (s : System) (pitch : α) : Option (System × List Obs) :=
  match s.mpu with
  | .loop tilt =>
    match tilt.turn env.levels pitch with
    | (tilt, none) => some ({ s with mpu := .loop tilt }, [])
    | (tilt, some page) => do
      -- The page is already stored when the send is refused.
      let (err, mb) ← rtMbSend s.mbOledMpu page
      return ({ s with mpu := .loop tilt, mbOledMpu := mb }, [.pageSent page err])
  | _ => none

/-- `thread_entry_oled` up to its first receive. -/
def oledStart (s : System) (handle : ℕ) (strWea : MesgWeather.Block) : Option (System × List Obs) :=
  match s.control with
  | .start =>
    if (s.heap handle).owner = none then
      some ({ s with
        heap := s.heap.alloc handle .oled strWea
        control := .waitWeather
        oledSign := 0
        strWea := handle }, [])
    else none
  | _ => none

/-- The branch that an iteration of the display loop takes. There is none for other pages. -/
def branch (oledSign : ℤ) : OledControl :=
  if oledSign = 0 then .waitTime
  else if oledSign = 1 then .waitDht
  else if oledSign = 2 then .drawWeather
  else .poll

/-- One step of `thread_entry_oled`. A receive that would have to wait is not enabled. -/
def oledStep (s : System) : Option (System × List Obs) :=
  match s.control with
  | .start => none
  -- The receives of the weather, of the time and of the sensor wait for ever.
  | .waitWeather =>
    match rtMbRecv s.mbOledWeather with
    | some ((.eok, mes), mb) =>
      some ({ s with mbOledWeather := mb, strWea := mes, control := .detach }, [])
    | _ => none
  | .detach =>
    some
      ({ s with mbOledWeather := rtMbDetach s.mbOledWeather, oledSign := 0, control := .poll }, [])
  -- The receive of a page does not wait, and at most one page is taken in an iteration.
  | .poll =>
    match rtMbRecv s.mbOledMpu with
    | some ((.eok, mes), mb) =>
      some ({ s with mbOledMpu := mb, oledSign := mes, control := branch mes },
        [.iterate, .pageReceived mes])
    | some (_, mb) => some ({ s with mbOledMpu := mb, control := branch s.oledSign }, [.iterate])
    | none => none
  | .waitTime =>
    match rtMbRecv s.mbOledTime with
    | some ((.eok, mes), mb) =>
      some ({ s with mbOledTime := mb, control := .delay },
        [.timeFrame (readTime (s.heap mes).bytes)])
    | _ => none
  | .waitDht =>
    match rtMbRecv s.mbOledDht with
    | some ((.eok, mes), mb) =>
      some ({ s with mbOledDht := mb, control := .delay }, [.dhtFrame (readDht (s.heap mes).bytes)])
    | _ => none
  -- The block is read whether or not it is still allocated.
  | .drawWeather =>
    some ({ s with control := .delay },
      [.weatherFrame s.strWea (readWeather (s.heap s.strWea).bytes)])
  | .delay => some ({ s with control := .poll }, [.delay])

/-- `rt_malloc` by any other thread. -/
def otherMalloc (s : System) (handle : ℕ) (bytes : Bytes) : Option (System × List Obs) :=
  if (s.heap handle).owner = none then
    some ({ s with heap := s.heap.alloc handle .other bytes }, [])
  else none

/-- A write by any other thread, to a block of its own. -/
def otherWrite (s : System) (handle : ℕ) (bytes : Bytes) : Option (System × List Obs) :=
  if (s.heap handle).owner = some .other then
    some ({ s with heap := s.heap.write handle bytes }, [])
  else none

/-- `rt_free` by any other thread, of a block of its own. -/
def otherFree (s : System) (handle : ℕ) : Option (System × List Obs) :=
  if (s.heap handle).owner = some .other then some ({ s with heap := s.heap.free handle }, [])
  else none

/-- One step of the system, when it is enabled. -/
def step (s : System) : Event α → Option (System × List Obs)
  | .weatherMalloc handle mes => s.weatherMalloc handle mes
  | .weatherCall => s.weatherCall
  | .timeStart handle mes => s.timeStart handle mes
  | .timeIterate now buf => s.timeIterate now buf
  | .dhtStart handle msg => dhtStart env s handle msg
  | .dhtIterate => dhtIterate env s
  | .mpuStart found => s.mpuStart found
  | .mpuIterate pitch => mpuIterate env s pitch
  | .oledStart handle strWea => s.oledStart handle strWea
  | .oledStep => s.oledStep
  | .otherMalloc handle bytes => s.otherMalloc handle bytes
  | .otherWrite handle bytes => s.otherWrite handle bytes
  | .otherFree handle => s.otherFree handle

/--
The states that the system reaches by steps that a restriction allows, with what was observed.
-/
def Run (allowed : System → Event α → Prop) (s : System) (seen : List Obs) : Prop :=
  Reach.Reaches (step env) allowed (initial env) s seen

end System

/-- A sunny day with a sensor that always reads 25 degrees and 50 percent. -/
def sunnyEnv : Env ℤ where
  levels := degrees
  cjson := standardJson
  fetch := sunnyWhole.fetch (List.replicate 1024 0)
  deviceFound := true
  deviceOpened := true
  sensorRead := fun _ => some 0x00320019#32

namespace System

/-- A block for a weather message that holds zeros. -/
def zeroedWeather : MesgWeather.Block := ⟨List.replicate 34 0, by simp [MesgWeather.size]⟩

/-- A block for a sensor message that holds zeros. -/
def zeroedDht : MesgDht.Block := ⟨List.replicate 24 0, by simp [MesgDht.size]⟩

/-- The weather is posted, and the OLED thread takes it and enters its display loop. -/
def enterDisplay : List (Event ℤ) :=
  [.oledStart 1 zeroedWeather, .weatherMalloc 2 zeroedWeather, .weatherCall, .weatherCall,
    .oledStep, .oledStep]

end System

end MultifunctionClock
