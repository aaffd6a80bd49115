import MachineEmu.Safety.CrashRecovery
import MachineEmu.Storage.OperationLog
import MachineEmu.Safety.EventReplay
import MachineEmu.Safety.WorkspaceLock
import MachineEmu.Safety.GarbageCollection
import MachineEmu.Safety.RecordCodec
import MachineEmu.Safety.ScanoutPaths
import MachineEmu.Safety.CaptureSnapshots
import MachineEmu.Safety.DisplayHub
import MachineEmu.Safety.ControlLeases
import MachineEmu.Safety.AudioSessions
import MachineEmu.Safety.InputGate
import MachineEmu.Safety.SpiceReader
import MachineEmu.Safety.MergeLaws
import MachineEmu.Safety.EngineRegistry
import MachineEmu.Safety.QmpSessions
import MachineEmu.Safety.LiveDevices
import MachineEmu.Safety.AnalysisIdentities
import MachineEmu.Safety.CpuPolicy
import MachineEmu.Safety.VncStart
import MachineEmu.Safety.BridgeHelper
import MachineEmu.Safety.DiskTargets
import MachineEmu.Safety.FrameUpdates
import MachineEmu.Safety.ClipboardSerials
import MachineEmu.Safety.ParameterSets
import MachineEmu.Safety.ImageDocuments
import MachineEmu.Safety.PinnedExecutables
import MachineEmu.Safety.ImportReplay
import MachineEmu.Safety.GuestReplies
import MachineEmu.Safety.ViewerMessages
import MachineEmu.Safety.BoundArtifacts
import MachineEmu.Safety.InputQueue
import MachineEmu.Safety.LogFollowing
import MachineEmu.Safety.Microphone
import MachineEmu.Safety.AudioTeardown
import MachineEmu.Safety.ChannelDelivery
import MachineEmu.Safety.ViewerDrawing
import MachineEmu.Safety.HeldInput
import MachineEmu.Safety.Archives
import MachineEmu.Safety.SetupTunnel
import MachineEmu.Safety.DeviceTrees
import MachineEmu.Safety.PasswordPatching
import MachineEmu.Safety.ActiveRuns
import MachineEmu.Safety.Speakers
import MachineEmu.Safety.DiskLayout
import MachineEmu.Safety.AudioWorklets
import MachineEmu.Safety.VsockIdentifiers
