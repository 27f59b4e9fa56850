import Libpreempt.Transition.Machine
import Libpreempt.Stdlib.Thread
import Libpreempt.Stdlib.Vector
import Libpreempt.Preempt.PolyTask
import Libpreempt.Preempt.PolyTaskProperties
import Libpreempt.Preempt.PolyTaskConcurrency
import Libpreempt.Preempt.PolyTaskConcurrencyProperties
import Libpreempt.Base.String
import Libpreempt.Base.StringProperties
import Libpreempt.Base.Chrono
import Libpreempt.Base.ChronoProperties
import Libpreempt.Base.Threading
import Libpreempt.Base.ThreadingProperties
import Libpreempt.Base.ThreadStore
import Libpreempt.Base.ThreadStoreProperties
import Libpreempt.Preempt.Thread
import Libpreempt.Preempt.LastError
import Libpreempt.Preempt.LastErrorProperties
import Libpreempt.Preempt.RealtimeStart
import Libpreempt.Preempt.RealtimeStartProperties
import Libpreempt.Scheduling.PriorityFifo
import Libpreempt.Tests.Decrement
import Libpreempt.Tests.DecrementProperties
import Libpreempt.Preempt.MonoTaskConcurrency
import Libpreempt.Preempt.CriticalTask
import Libpreempt.Preempt.MonoTaskConcurrencyProperties
import Libpreempt.Preempt.CriticalTaskProperties
import Libpreempt.Sorting.Bubble
import Libpreempt.Sorting.BubbleProperties
import Libpreempt.Base.Algorithm
import Libpreempt.Base.AlgorithmProperties
import Libpreempt.Sorting.Inversions
import Libpreempt.Preempt.Process
import Libpreempt.Preempt.ProcessProperties
import Libpreempt.Sequence.Fields
import Libpreempt.Base.StringFields
import Libpreempt.Preempt.ThreadProperties
import Libpreempt.Arithmetic.Significand
import Libpreempt.Base.Numeric
import Libpreempt.Base.Timespec
import Libpreempt.Base.TimespecProperties
import Libpreempt.Arithmetic.Tolerance
import Libpreempt.Base.Quoting
import Libpreempt.Base.SprintfProperties
import Libpreempt.Base.StopwatchProperties
import Libpreempt.Base.Tolerance
import Libpreempt.Base.NumericProperties
import Libpreempt.Arithmetic.Decimal
import Libpreempt.Shell.Pattern
import Libpreempt.TestMatrix.Summary
import Libpreempt.TestMatrix.SummaryProperties
import Libpreempt.Shell.AssociativeArray
import Libpreempt.Shell.Words
import Libpreempt.TestMatrix.Targets
import Libpreempt.TestMatrix.TargetsProperties
import Libpreempt.Shell.Numeral
import Libpreempt.TestMatrix.Script
import Libpreempt.Sequence.Stopping
import Libpreempt.TestMatrix.ChoreProperties
import Libpreempt.TestMatrix.RunProperties
import Libpreempt.TestMatrix.ShyProperties
import Libpreempt.Scheduling.RoundRobin
import Libpreempt.Tests.DecrementPolicy
import Libpreempt.Tests.DecrementPolicyProperties
import Libpreempt.Arithmetic.FloatingPoint
import Libpreempt.Arithmetic.HalfUp
import Libpreempt.Base.Double
import Libpreempt.Base.DoubleProperties
import Libpreempt.Arithmetic.Subtraction
import Libpreempt.Base.DoubleTolerance
import Libpreempt.Ownership.Custody
import Libpreempt.Preempt.ThreadObject
import Libpreempt.Preempt.ThreadProgram
import Libpreempt.Preempt.ThreadProgramProperties
import Libpreempt.Shell.Getopts
import Libpreempt.TestMatrix.Arguments
import Libpreempt.TestMatrix.ArgumentsProperties
import Libpreempt.TestMatrix.InvocationProperties
import Libpreempt.TestMatrix.Rules
import Libpreempt.TestMatrix.RulesProperties
import Libpreempt.Preempt.ObjectErrors
import Libpreempt.Preempt.TaskObjects
import Libpreempt.Preempt.MonoTaskObjects
import Libpreempt.Preempt.PolyTaskObjects
import Libpreempt.Preempt.PolyTaskReferences
import Libpreempt.Transition.Termination
import Libpreempt.Tests.DecrementMain
import Libpreempt.Tests.DecrementMainProperties
