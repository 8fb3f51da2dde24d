import TtMlir.Dma.Transfers
import TtMlir.Planner.SpillAllocate
import TtMlir.Spill.Placement
import TtMlir.Spill.EventReplay
import TtMlir.Memory.DramBuffer
import TtMlir.Memory.Reblock
import TtMlir.Spill.RewindBudget
import TtMlir.Layout.GridSelection
import TtMlir.Shardy.Placement
import TtMlir.Trace.CurrentInputs
import TtMlir.Gspmd.Reads
import TtMlir.Ttir.PermutePass
import TtMlir.Ttir.ReshapePass
import TtMlir.Ttir.TripCountExact
import TtMlir.D2m.McastProtocol
import TtMlir.Ttir.CommuteExact
import TtMlir.Distributed.Completion
import TtMlir.Dma.WordMachine
import TtMlir.Dma.CoalescingExact
import TtMlir.Dma.ZeroFloorDiv
import TtMlir.Planner.Usage
import TtMlir.Planner.Tightest
import TtMlir.D2m.DecomposeMasking
import TtMlir.Ttir.SliceConcatExact
import TtMlir.Ttnn.DecomposeExact
import TtMlir.Layout.Reinterpret
import TtMlir.Spill.SumInvariant
import TtMlir.Spill.AliasRecords
import TtMlir.D2m.ScheduleDma
import TtMlir.Layout.LinearMapExact
import TtMlir.Spill.Bookkeeping
import TtMlir.Schedule.Scheduler
import TtMlir.D2m.MaskIntegers
import TtMlir.D2m.MaskFloats
import TtMlir.Hoist.ConstEval
import TtMlir.D2m.DstAllocator
import TtMlir.Ttir.TMFusionExact
import TtMlir.D2m.OpSchedulerRuns
import TtMlir.D2m.DstLinearization
import TtMlir.Ttir.BroadcastReshape
import TtMlir.Ttnn.ReshapeElementwise
import TtMlir.Shardy.UpdatedDims
import TtMlir.Trace.SinkOptimizers
import TtMlir.Shardy.DimShardingText
import TtMlir.Ttnn.ThinPermute
import TtMlir.D2m.ScratchAllocate
import TtMlir.Layout.CartesianProduct
import TtMlir.Dma.MinimizeGap
import TtMlir.Trace.HoistRuns
import TtMlir.D2m.BlockFactorsExact
import TtMlir.D2m.ComputeTilingExact
import TtMlir.D2m.DecomposeTopkExact
import TtMlir.Stablehlo.ComplexHomomorphism
import TtMlir.D2m.GridNormalization
import TtMlir.D2m.TopKShardingExact
