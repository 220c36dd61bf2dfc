import NrfProjects.Interaction.Program
import NrfProjects.Interaction.Execution
import NrfProjects.Interaction.Safety
import NrfProjects.Interaction.Returns
import NrfProjects.Interaction.Replay
import NrfProjects.Interaction.Projection
import NrfProjects.Interaction.Boots
import NrfProjects.Interaction.Errno
import NrfProjects.Interaction.Calls
import NrfProjects.Interaction.Parallel
import NrfProjects.Interaction.Daemons
import NrfProjects.Encoding.LittleEndian
import NrfProjects.Encoding.Text
import NrfProjects.Encoding.Hex
import NrfProjects.Containers.RingBuf
import NrfProjects.Calendar.Gregorian
import NrfProjects.CdcAcm.Main
import NrfProjects.CdcAcm.Handler
import NrfProjects.CdcAcm.Echo
import NrfProjects.CdcAcm.Line
import NrfProjects.CdcAcm.Drain
import NrfProjects.CdcAcm.UsbNext
import NrfProjects.CdcAcm.Handshake
import NrfProjects.Nvs.Main
import NrfProjects.Nvs.Store
import NrfProjects.Nvs.Rules
import NrfProjects.Nvs.RebootCycle
import NrfProjects.Nvs.RebootBound
import NrfProjects.Nvs.FailedReads
import NrfProjects.Nvs.WellFormed
import NrfProjects.Nvs.Completion
import NrfProjects.Nvs.CounterHistory
import NrfProjects.Settings.Main
import NrfProjects.Settings.StepByStep
import NrfProjects.Settings.Cycle
import NrfProjects.Littlefs.Pattern
import NrfProjects.Littlefs.Main
import NrfProjects.Littlefs.FileSystem
import NrfProjects.Littlefs.TextFile
import NrfProjects.Littlefs.Updates
import NrfProjects.Littlefs.Counting
import NrfProjects.Littlefs.Trial
import NrfProjects.Littlefs.FailedUpdates
import NrfProjects.Littlefs.ShortWrites
import NrfProjects.Littlefs.Handles
import NrfProjects.Littlefs.CrashConsistency
import NrfProjects.Littlefs.BootCount
import NrfProjects.Littlefs.PrintPattern
import NrfProjects.StateDemo.Main
import NrfProjects.StateDemo.Presses
import NrfProjects.Interrupts.Main
import NrfProjects.Interrupts.Statistics
import NrfProjects.Interrupts.Console
import NrfProjects.PwrReg.Main
import NrfProjects.PwrReg.Balance
import NrfProjects.PwrReg.Drift
import NrfProjects.Rtc.Main
import NrfProjects.Rtc.Carry
import NrfProjects.Rtc.Runs
import NrfProjects.SmpServer.Main
import NrfProjects.SmpServer.Advertising
import NrfProjects.SmpServer.Recovery
import NrfProjects.Watchdog.Main
import NrfProjects.Watchdog.Feeding
import NrfProjects.ButtonController.Main
import NrfProjects.ButtonController.Sampling
import NrfProjects.DeepSleep.Main
import NrfProjects.DeepSleep.PowerOff
