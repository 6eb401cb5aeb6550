import MultifunctionClock.Clock.Era
import MultifunctionClock.Dht.Range
import MultifunctionClock.Kernel.Fairness
import MultifunctionClock.Kernel.MailWait
import MultifunctionClock.Kernel.MutexRuns
import MultifunctionClock.Kernel.Semaphore
import MultifunctionClock.Memory.Runs
import MultifunctionClock.Mpu.Device
import MultifunctionClock.Mpu.WriteMem
import MultifunctionClock.System.BootRuns
import MultifunctionClock.System.Dangling
import MultifunctionClock.System.Detach
import MultifunctionClock.System.Frames
import MultifunctionClock.System.Pages
import MultifunctionClock.System.Waiting
import MultifunctionClock.Tilt.Reading
import MultifunctionClock.Weather.Layout
import MultifunctionClock.Weather.Posting
