import Miles.ForStd.Except
import Miles.ForStd.List
import Miles.ForStd.Lts
import Miles.ForStd.PyList
import Miles.Native.Session.LinearTrajectory
import Miles.Native.Session.Core
import Miles.Native.Rollout.DataBuffer
import Miles.Native.Rollout.FullyAsync
import Miles.Native.Rollout.TrainAsync
import Miles.Native.Training.ContextParallel
import Miles.Native.Training.SeqlenBalancing
import Miles.Native.Training.DpSchedule
import Miles.Spec.Session.Operations
import Miles.Spec.Session.RepInvariant
import Miles.Spec.Session.CommitSafety
import Miles.Spec.Rollout.Conservation
import Miles.Spec.Rollout.Staleness
import Miles.Spec.Training.ResponseRows
import Miles.Spec.Training.ScoringCoverage
import Miles.Spec.Training.Balancing
import Miles.Spec.Training.DpSchedule
import Miles.Native.Tinker.Scheduler
import Miles.Native.Tinker.Service
import Miles.Spec.Tinker.Updates
import Miles.Spec.Tinker.Slots
import Miles.Spec.Tinker.Futures
import Miles.Spec.Tinker.Packing
import Miles.Spec.Tinker.CommandOrder
import Miles.ForStd.PieceTable
import Miles.ForStd.Csr
import Miles.Native.Rollout.SamplingMask
import Miles.Native.Rollout.StorePlan
import Miles.Native.Rollout.ReplayEdits
import Miles.Spec.Rollout.MaskSegments
import Miles.Spec.Rollout.StorePlan
import Miles.ForStd.PyDict
import Miles.ForStd.Resume
import Miles.Native.Rollout.DataSource
import Miles.Spec.Rollout.DataSourceResume
import Miles.Native.Training.TrainerCells
import Miles.Spec.Training.QuorumAgreement
import Miles.Native.Rollout.ServerCells
import Miles.Spec.Rollout.CellRuns
import Miles.Spec.Rollout.CellServing
import Miles.Spec.Rollout.GhostRegistration
import Miles.Spec.Session.PrepareAtomicity
import Miles.Native.Session.TreeTrajectory
import Miles.Spec.Session.Forest
import Miles.Spec.Session.AttachPoint
import Miles.Spec.Session.ForestRuns
import Miles.Native.Workers.ReconcileLoop
import Miles.Spec.Workers.NoLostUpdate
import Miles.Native.Workers.RpcCall
import Miles.Spec.Workers.AtMostOnce
import Miles.ForStd.PyJson
import Miles.Native.Tinker.InputValidation
import Miles.Native.Tinker.Encoding
import Miles.Spec.Tinker.DecodeTotal
import Miles.Native.Tinker.Submission
import Miles.Spec.Tinker.PendingRequests
import Miles.Spec.Tinker.PendingRuns
import Miles.Spec.Tinker.SubmitAtomicity
import Miles.Native.Session.StoreRefs
import Miles.Spec.Session.StoreOwnership
import Miles.Native.Session.SampleAssembly
import Miles.Native.Session.LeafSamples
import Miles.Spec.Session.SampleLaws
import Miles.Spec.Session.LeafPicking
import Miles.Spec.Rollout.WeightedMixing
import Miles.Spec.Rollout.EpochStream
import Miles.Native.Rollout.SyncRollout
import Miles.Spec.Rollout.SyncAccounting
import Miles.Native.Rollout.PlanWire
import Miles.Spec.Rollout.PlanRoundTrip
import Miles.Spec.Rollout.SampleStrip
import Miles.Native.Rollout.MergeSamples
import Miles.Spec.Rollout.SampleMerge
import Miles.Spec.Rollout.SampleTruncation
import Miles.Native.Session.SamplesCodec
import Miles.Spec.Session.SamplesRoundTrip
import Miles.ForStd.BinPacking
import Miles.Spec.Training.FirstFit
import Miles.Native.Training.DataIterator
import Miles.Spec.Training.DataIterator
import Miles.ForStd.Segments
import Miles.Native.Training.CpGather
import Miles.Spec.Training.CpRoundTrip
import Miles.ForStd.AffineScan
import Miles.Native.Training.Gae
import Miles.Spec.Training.GaeChunks
import Miles.Native.Training.TrainBatch
import Miles.Spec.Training.TokenOrigins
import Miles.Spec.Training.LossMaskAlignment
import Miles.Native.Training.ReplayData
import Miles.Spec.Training.ReplayAlignment
import Miles.Native.Session.InklingParser
import Miles.Spec.Session.InklingBlocks
import Miles.Spec.Session.RendererArgs
import Miles.Spec.Session.LooseMatching
import Miles.Native.Workers.ColocatePairing
import Miles.Spec.Workers.ColocatePairing
import Miles.Native.Training.RankAssignment
import Miles.Spec.Training.RankAssignment
import Miles.ForStd.LittleEndian
import Miles.Native.WeightUpdate.DiskDelta
import Miles.Spec.WeightUpdate.DiskDelta
import Miles.Native.Training.WitnessAllocator
import Miles.Spec.Training.WitnessAllocator
import Miles.Native.Workers.Naming
import Miles.Native.Workers.RegistrationHub
import Miles.Spec.Workers.RegistrationHub
import Miles.ForStd.Rounds
import Miles.Native.WeightUpdate.Bucketing
import Miles.Spec.WeightUpdate.Bucketing
import Miles.Native.Concurrency.TicketLock
import Miles.Spec.Concurrency.TicketLock
import Miles.Native.Concurrency.Parker
import Miles.Spec.Concurrency.Parker
import Miles.Native.Workers.HealthChecker
import Miles.Spec.Workers.HealthChecker
import Miles.Native.Concurrency.ContextLock
import Miles.Spec.Concurrency.ContextLock
import Miles.ForStd.CrashHoare
import Miles.Native.Tinker.CheckpointExpiry
import Miles.Spec.Tinker.CheckpointExpiry
import Miles.Native.Tinker.Downloads
import Miles.Spec.Tinker.Downloads
import Miles.Native.Rollout.SampleRetry
import Miles.Spec.Rollout.SampleRetry
import Miles.Native.Rollout.SubmissionScheduler
import Miles.Spec.Rollout.SampleBackfill
import Miles.Native.Checkpoint.AdapterCommit
import Miles.Spec.Checkpoint.AdapterNames
import Miles.Spec.Checkpoint.AdapterSteps
import Miles.Spec.Checkpoint.AdapterRecovery
import Miles.Spec.Checkpoint.AdapterSwap
import Miles.Spec.Checkpoint.CommitFailure
import Miles.Spec.Checkpoint.AdapterOps
import Miles.Spec.Checkpoint.AfterRecovery
import Miles.Spec.Checkpoint.CrashSafety
import Miles.Native.WeightUpdate.DeltaSync
import Miles.Spec.WeightUpdate.DeltaPool
import Miles.Spec.WeightUpdate.DeltaVersion
import Miles.Spec.WeightUpdate.DeltaPull
import Miles.Spec.WeightUpdate.DeltaRefinement
import Miles.ForStd.Ragged
import Miles.Native.Training.ResponseLayout
import Miles.Spec.Training.ResponseLayout
import Miles.Spec.Training.LayoutReductions
import Miles.Spec.Training.LayoutAgreement
import Miles.Spec.Session.ChainLaw
import Miles.Spec.Session.CollectionChains
import Miles.Spec.Session.BranchCommits
import Miles.Native.Training.RolloutLoss
import Miles.Spec.Training.RolloutLoss
