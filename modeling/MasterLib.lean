import MasterLib.Overlay
import MasterLib.BlockOrder
import MasterLib.FirstMatch
import MasterLib.Runs
import MasterLib.AddressMap
import MasterLib.LittleEndian
import MasterLib.Mach
import MasterLib.ThreadState
import MasterLib.Process
import MasterLib.SoftwareBreakpoint
import MasterLib.HardwareBreakpoint
import MasterLib.HardwareLoops
import MasterLib.BreakpointHandler
import MasterLib.EnableCycles
import MasterLib.ArmOverlay
import MasterLib.Overlap
import MasterLib.DebugSlots
import MasterLib.FailedInstall
import MasterLib.Uninstall
import MasterLib.FailedDisable
import MasterLib.ActiveFlag
import MasterLib.ExceptionHandler
import MasterLib.Regions
import MasterLib.SavedBytes
import MasterLib.PauseCount
import MasterLib.SlotCycles
import MasterLib.TrapAddress
import MasterLib.UninstallLoop
import MasterLib.StaleReset
import MasterLib.RegisterWindow
import MasterLib.Shadowing
import MasterLib.Dr7Fields
import MasterLib.SlotResets
import MasterLib.ForcedWrite
import MasterLib.RegionFailure
import MasterLib.FaultingThread
import MasterLib.RegisterTable
import MasterLib.LoadSave
import MasterLib.SetupHandler
import MasterLib.ProcessLookup
import MasterLib.GetProcess
import MasterLib.RegisterAccess
import MasterLib.RegisterWidth
import MasterLib.Transitions
import MasterLib.Rpc
import MasterLib.MachMessage
import MasterLib.ExcServer
import MasterLib.StaleBytes
import MasterLib.ExcUser
import MasterLib.ExcCall
import MasterLib.ServerThread
import MasterLib.ExceptionProtocol
import MasterLib.ProgramRun
