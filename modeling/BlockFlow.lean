import BlockFlow.BlockingRing.Duet
import BlockFlow.BlockingRing.Script
import BlockFlow.Cli.Run
import BlockFlow.Disk
import BlockFlow.DoubleBuffer.Codec
import BlockFlow.DoubleBuffer.Pipeline
import BlockFlow.DoubleBuffer.Script
import BlockFlow.DriftingRing.Codec
import BlockFlow.Json.Side
import BlockFlow.LockFreeRing.Overlap
import BlockFlow.Main
import BlockFlow.Proofs.Ring.Queue
import BlockFlow.Proofs.LockFreeRing.Queue
import BlockFlow.Proofs.LockFreeRing.Sequential
import BlockFlow.Proofs.LockFreeRing.Traffic
import BlockFlow.Proofs.BlockingRing.Queue
import BlockFlow.Proofs.SharedFifo
import BlockFlow.Proofs.DoubleBuffer.History
import BlockFlow.Proofs.DoubleBuffer.Stream
import BlockFlow.Proofs.DoubleBuffer.Blocking
import BlockFlow.Proofs.DoubleBuffer.Parties
import BlockFlow.Proofs.DoubleBuffer.Balance
import BlockFlow.Proofs.DoubleBuffer.Interleaving
import BlockFlow.Proofs.DoubleBuffer.Config
import BlockFlow.Proofs.DoubleBuffer.Stall
import BlockFlow.Proofs.DoubleBuffer.Script
import BlockFlow.Proofs.DoubleBuffer.Provoked
import BlockFlow.Proofs.DriftingRing.Transfer
import BlockFlow.Proofs.DriftingRing.Stream
import BlockFlow.Proofs.BlockingRing.Duet
import BlockFlow.Proofs.BlockingRing.Notices
import BlockFlow.Proofs.BlockingRing.Waits
import BlockFlow.Proofs.Handoff.Chain
import BlockFlow.Proofs.Handoff.Reclamation
import BlockFlow.Proofs.Ring.Refinement
import BlockFlow.Proofs.DoubleBuffer.Unblocked
import BlockFlow.Proofs.DoubleBuffer.Conservation
import BlockFlow.Proofs.DoubleBuffer.SingleThread
import BlockFlow.Proofs.DriftingRing.Parties
import BlockFlow.Proofs.DriftingRing.Level
import BlockFlow.Proofs.DriftingRing.Xruns
import BlockFlow.Proofs.DriftingRing.Stops
import BlockFlow.Proofs.Soak.Sizes
import BlockFlow.Proofs.Soak.Monitor
import BlockFlow.Proofs.Handoff.Observation
import BlockFlow.Proofs.DriftingRing.Frames
import BlockFlow.Proofs.DoubleBuffer.Teardown
import BlockFlow.Proofs.Interleaved
import BlockFlow.Proofs.DoubleBuffer.Signals
import BlockFlow.Proofs.DoubleBuffer.Settling
import BlockFlow.Proofs.Soak.Gains
import BlockFlow.Proofs.Soak.FirstSignals
import BlockFlow.Proofs.Soak.Latency
import BlockFlow.Proofs.LockFreeRing.Agreement
import BlockFlow.Proofs.Soak.Settings
import BlockFlow.Proofs.DoubleBuffer.Exchange
import BlockFlow.Proofs.DriftingRing.Mismatch
import BlockFlow.Proofs.BlockingRing.Signals
import BlockFlow.Proofs.BoundedFifo
import BlockFlow.Proofs.DoubleBuffer.Sizes
import BlockFlow.Proofs.DoubleBuffer.WholeFrames
import BlockFlow.Proofs.DriftingRing.Ledger
import BlockFlow.Proofs.Cli.Arguments
import BlockFlow.Proofs.DoubleBuffer.Redelivery
