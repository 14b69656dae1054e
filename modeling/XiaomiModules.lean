import XiaomiModules.Library.Runs
import XiaomiModules.Library.Program
import XiaomiModules.Library.Ledger
import XiaomiModules.Library.BoundedFifo
import XiaomiModules.Library.Descending
import XiaomiModules.Library.Approach
import XiaomiModules.Library.Access
import XiaomiModules.Library.Text
import XiaomiModules.Library.Numeral
import XiaomiModules.Library.Word
import XiaomiModules.Kernel.Basic
import XiaomiModules.Kernel.Numbers
import XiaomiModules.Kernel.Scan
import XiaomiModules.Kernel.Memory
import XiaomiModules.Miev.Device
import XiaomiModules.Miev.Event
import XiaomiModules.Miev.IntegerSize
import XiaomiModules.Miev.Buffer
import XiaomiModules.Miev.Stream
import XiaomiModules.Miev.Message
import XiaomiModules.Miev.Unambiguous
import XiaomiModules.Miev.Retry
import XiaomiModules.Miev.Readers
import XiaomiModules.Miev.Faults
import XiaomiModules.Miev.Lifecycle
import XiaomiModules.Thermal.FreqTable
import XiaomiModules.Thermal.CpuLimits
import XiaomiModules.Thermal.InitCpufreq
import XiaomiModules.Thermal.Selection
import XiaomiModules.Thermal.Floor
import XiaomiModules.Thermal.StepLimit
import XiaomiModules.Thermal.Monotone
import XiaomiModules.Thermal.Cluster
import XiaomiModules.Thermal.Drift
import XiaomiModules.Thermal.Reachable
import XiaomiModules.Thermal.LimitsStore
import XiaomiModules.Thermal.Switch
import XiaomiModules.Thermal.Load
import XiaomiModules.Thermal.Teardown
import XiaomiModules.Thermal.ScreenState
import XiaomiModules.Thermal.Unload
import XiaomiModules.Thermal.CapSelection
import XiaomiModules.Thermal.RealFrequencies
import XiaomiModules.Thermal.Words
import XiaomiModules.Thermal.TableOrder
import XiaomiModules.Thermal.DeviceTemp
import XiaomiModules.Thermal.Hotter
import XiaomiModules.Thermal.SensorText
import XiaomiModules.PerfHelper.Text
import XiaomiModules.PerfHelper.Load
import XiaomiModules.PerfHelper.Leftover
import XiaomiModules.TextBuffers
import XiaomiModules.Hooks.Providers
import XiaomiModules.Hooks.Registry
import XiaomiModules.Hooks.Miloadtrace
import XiaomiModules.Hooks.Stale
import XiaomiModules.Hooks.Governor
import XiaomiModules.Library.Lines
import XiaomiModules.Miev.Lines
import XiaomiModules.Miev.WaitQueue
import XiaomiModules.Thermal.Lives
import XiaomiModules.Library.GatedSlots
import XiaomiModules.Hooks.SafeBoot
import XiaomiModules.Library.Nested
import XiaomiModules.Hooks.LoadLives
import XiaomiModules.Hooks.FrameLoad
import XiaomiModules.Library.Parts
import XiaomiModules.Thermal.Interleaving
import XiaomiModules.Thermal.Attributes
import XiaomiModules.Hwid
import XiaomiModules.PerfHelper.Reload
import XiaomiModules.Hooks.GroupIds
import XiaomiModules.Thermal.Writes
import XiaomiModules.Thermal.History
import XiaomiModules.PerfHelper.Files
