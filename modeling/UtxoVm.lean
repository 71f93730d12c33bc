import UtxoVm.Reasoning.RustStd
import UtxoVm.Reasoning.AsStd
import UtxoVm.Reasoning.Tapscript
import UtxoVm.Reasoning.ScriptNum
import UtxoVm.Reasoning.Wire
import UtxoVm.Reasoning.Prog
import UtxoVm.Reasoning.Interleaving
import UtxoVm.Reasoning.RelyGuarantee
import UtxoVm.Reasoning.Lockstep
import UtxoVm.Reasoning.SparseTree
import UtxoVm.Reasoning.UndoLog
import UtxoVm.Reasoning.Quorum
import UtxoVm.Reasoning.HashChain
import UtxoVm.Reasoning.Checked
import UtxoVm.Reasoning.Utf8
import UtxoVm.Reasoning.Keyed
import UtxoVm.Reasoning.KeySort
import UtxoVm.Reasoning.Apportion
import UtxoVm.Reasoning.Schedule
import UtxoVm.Types
import UtxoVm.Consensus.Attestation
import UtxoVm.Consensus.Covenants
import UtxoVm.Consensus.CovenantRun
import UtxoVm.Consensus.CovenantSafety
import UtxoVm.Consensus.L1Scripts
import UtxoVm.Consensus.Timelocks
import UtxoVm.Consensus.Challenge
import UtxoVm.Consensus.ChallengeFormat
import UtxoVm.Consensus.Quorum
import UtxoVm.Consensus.AttestationRun
import UtxoVm.Consensus.Agreement
import UtxoVm.Consensus.OperatorSet
import UtxoVm.Consensus.OperatorRun
import UtxoVm.Consensus.OperatorHistory
import UtxoVm.Consensus.OperatorKeys
import UtxoVm.Consensus.OperatorPlaces
import UtxoVm.Consensus.FeeDistribution
import UtxoVm.Consensus.FeeShares
import UtxoVm.Consensus.FeeRun
import UtxoVm.Storage.Smt
import UtxoVm.Storage.SmtRoot
import UtxoVm.Storage.SmtProofs
import UtxoVm.Storage.Db
import UtxoVm.Storage.DbRun
import UtxoVm.Storage.Consistency
import UtxoVm.Storage.Rollback
import UtxoVm.CrossChain.Transfer
import UtxoVm.CrossChain.Verifier
import UtxoVm.CrossChain.Bridge
import UtxoVm.CrossChain.BridgeRun
import UtxoVm.CrossChain.LockRuns
import UtxoVm.CrossChain.LockReplay
import UtxoVm.CrossChain.LockRace
import UtxoVm.CrossChain.Accountability
import UtxoVm.CrossChain.Relay
import UtxoVm.CoreVm.Runtime
import UtxoVm.CoreVm.Guest
import UtxoVm.CoreVm.GuestText
import UtxoVm.CoreVm.Execute
import UtxoVm.CoreVm.ExportedState
import UtxoVm.Contracts.Json
import UtxoVm.Contracts.JsonReading
import UtxoVm.Contracts.JsonRoundTrip
import UtxoVm.Contracts.JsonGrammar
import UtxoVm.Contracts.Standards
import UtxoVm.Contracts.Entry
import UtxoVm.Contracts.KeepsKind
import UtxoVm.Contracts.StateText
import UtxoVm.Contracts.TokenRun
import UtxoVm.Scanner.Electrs
import UtxoVm.Scanner.Parser
import UtxoVm.Scanner.ParserSafety
import UtxoVm.Scanner.EnvelopeSearch
import UtxoVm.Scanner.Processor
import UtxoVm.Scanner.ProcessorRun
import UtxoVm.Scanner.Update
import UtxoVm.Scanner.StoreRun
import UtxoVm.Storage.Concurrency
import UtxoVm.Scanner.RollbackExact
import UtxoVm.Scanner.SealRun
import UtxoVm.Scanner.Rejection
import UtxoVm.Scanner.Panics
import UtxoVm.Scanner.VaultRun
import UtxoVm.Scanner.CreateIds
import UtxoVm.Scanner.UndoSlots
import UtxoVm.Storage.ChainFrames
import UtxoVm.Scanner.Readback
import UtxoVm.Scanner.WasmDeploy
import UtxoVm.Sdk.Envelope
import UtxoVm.Sdk.LightLineage
import UtxoVm.Sdk.LightMerkle
import UtxoVm.Scanner.Lineage
import UtxoVm.Scanner.BridgeLock
import UtxoVm.Scanner.Rescan
import UtxoVm.Scanner.RootBinding
import UtxoVm.CrossChain.GenuineProof
import UtxoVm.Scanner.SealRace
import UtxoVm.Scanner.ContractRevert
import UtxoVm.Node.SyncLoop
import UtxoVm.Node.TaskFrames
import UtxoVm.Node.SyncTask
import UtxoVm.Node.SingleChain
import UtxoVm.Node.Equivocation
import UtxoVm.Node.Gossip
import UtxoVm.Node.Network
import UtxoVm.Reasoning.Invariance
import UtxoVm.Reasoning.FixedWindow
import UtxoVm.Rpc.RateLimit
import UtxoVm.Rpc.Server
import UtxoVm.Rpc.ServerWrites
import UtxoVm.Node.TaskWrites
import UtxoVm.Node.Daemon
import UtxoVm.Node.CodeStore
import UtxoVm.Node.FailClosed
import UtxoVm.Consensus.AttestationRoot
import UtxoVm.CoreVm.FixtureReplay
import UtxoVm.CoreVm.FixtureRoot
import UtxoVm.CoreVm.EntryPoints
import UtxoVm.CoreVm.HostGas
import UtxoVm.Scanner.HistoryAudit
import UtxoVm.Sdk.LightSoundness
import UtxoVm.Sdk.SwapFill
import UtxoVm.Sdk.ContractClients
import UtxoVm.CrossChain.MintedState
import UtxoVm.Consensus.IndexerFee
import UtxoVm.Consensus.PayloadBinding
import UtxoVm.CrossChain.CanonicalJson
import UtxoVm.Contracts.StandardRun
import UtxoVm.Contracts.Settlement
import UtxoVm.P2p.Service
import UtxoVm.P2p.Answers
import UtxoVm.Consensus.L1Outputs
import UtxoVm.Consensus.DataOutputs
import UtxoVm.Consensus.BondingGate
