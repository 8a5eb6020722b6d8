import PhasicJ.Transitions.LabelledRuns
import PhasicJ.Peg.Readers
import PhasicJ.AgentConf.RoundTrip
import PhasicJ.AgentConf.Spacing
import PhasicJ.Code.SpliceSimulation
import PhasicJ.Instr.MethodInstrumenter
import PhasicJ.Instr.Execution
import PhasicJ.Instr.Simulation
import PhasicJ.Instr.AmendedClass
import PhasicJ.AgentJvm.ClassLoads
import PhasicJ.InstrumenterProcess.Progress
import PhasicJ.InstrumenterProcess.Invocation
import PhasicJ.AgentJvm.HookReturns
import PhasicJ.AgentJvm.AgentRuns
import PhasicJ.AgentJvm.StorageBlocks
import PhasicJ.Svm.Agreement
import PhasicJ.Daemon.Replay
import PhasicJ.AgentRt.NothingLost
import PhasicJ.AgentRt.EventCounters
import PhasicJ.AgentJvm.EnableInstrumentation
import PhasicJ.AgentJvm.EntryPoints
import PhasicJ.Svm.Isolates
import PhasicJ.InstrumenterProcess.Children
import PhasicJ.Embed.CompleteFile
import PhasicJ.AgentRt.CallsReturn
import PhasicJ.Code.HostedSplicing
import PhasicJ.AgentRt.Transparency
import PhasicJ.Daemon.Durability
import PhasicJ.Daemon.Workers
import PhasicJ.Instr.TypeSafety
import PhasicJ.AgentJvm.ClassNames
import PhasicJ.InstrumenterProcess.AnyProgram
import PhasicJ.Svm.Buffers
import PhasicJ.AgentJvm.StartsOnce
import PhasicJ.AgentRt.LoadedApplications
import PhasicJ.AgentJvm.DumpedFiles
import PhasicJ.Daemon.Merging
