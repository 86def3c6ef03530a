import Rpitos.Kernel.UnmaskedCreate
import Rpitos.Kernel.CrossCore
import Rpitos.Kernel.Effects
import Rpitos.Kernel.MutexRuns
import Rpitos.Kernel.Queue
import Rpitos.Kernel.QueueRuns
import Rpitos.Kernel.SoftwareTimer
import Rpitos.Kernel.Spinlock
import Rpitos.Kernel.TimerRuns
import Rpitos.Kernel.TimerPeriod
import Rpitos.Kernel.QueueBounds
import Rpitos.Boot.Boot
import Rpitos.Boot.Bootloader
import Rpitos.Boot.BootloaderRuns
import Rpitos.Boot.ConfirmedImage
import Rpitos.Boot.HostRuns
import Rpitos.Boot.PacketGrammar
import Rpitos.Boot.MetaCodec
import Rpitos.Boot.MetaPass
import Rpitos.Boot.LoadApp
import Rpitos.Boot.FwImage
import Rpitos.Drivers.CoreKick
import Rpitos.Drivers.Uart
import Rpitos.Drivers.UartRuns
import Rpitos.Kernel.BlockingTake
import Rpitos.Kernel.Inheritance
import Rpitos.Kernel.InheritanceRuns
import Rpitos.Kernel.NextOwner
import Rpitos.Kernel.LockReports
import Rpitos.Boot.DfuStream
import Rpitos.Boot.SelfUpdate
import Rpitos.Kernel.CompanionCore
import Rpitos.Kernel.ContextRuns
import Rpitos.Kernel.LockOrder
import Rpitos.Kernel.LocksAlone
import Rpitos.Kernel.SpinlockTickets
import Rpitos.Kernel.RoundRobin
import Rpitos.Lib.Codec
import Rpitos.Telemetry.Frame
import Rpitos.Telemetry.Wire
import Rpitos.Boot.CrcReference
import Rpitos.Drivers.EmmcBlocks
import Rpitos.Telemetry.SyncRoster
import Rpitos.Kernel.TaskCreate
import Rpitos.Boot.Bootstrap
import Rpitos.Drivers.PrintfFields
import Rpitos.Drivers.FormatUint
import Rpitos.Lib.Polling
import Rpitos.Drivers.I2c
import Rpitos.Drivers.I2cTransfers
import Rpitos.Drivers.Mailbox
import Rpitos.Lib.Layout
import Rpitos.Telemetry.Packets
import Rpitos.Telemetry.Reports
import Rpitos.Telemetry.Publisher
import Rpitos.Boot.TrialRuns
import Rpitos.Boot.FlashedImage
import Rpitos.Kernel.WakeUps
import Rpitos.Kernel.TimeOuts
import Rpitos.Telemetry.KernelView
import Rpitos.Kernel.Programs
import Rpitos.Kernel.LockedPrograms
import Rpitos.Samples.SharedCounter
import Rpitos.Samples.Handshake
import Rpitos.Samples.MessageQueue
import Rpitos.Kernel.NoInversion
import Rpitos.Boot.DfuTrigger
import Rpitos.Boot.Wiper
