import NeuralMesh.Base.Table
import NeuralMesh.Base.Program
import NeuralMesh.Base.Http
import NeuralMesh.Store.Schema
import NeuralMesh.Store.Action
import NeuralMesh.Coordinator.Rest
import NeuralMesh.Coordinator.Matching
import NeuralMesh.Coordinator.Grpc
import NeuralMesh.Coordinator.Books
import NeuralMesh.Coordinator.Reports
import NeuralMesh.Ledger.Handlers
import NeuralMesh.System.Operation
import NeuralMesh.System.Statements
import NeuralMesh.System.Constraints
import NeuralMesh.Proof.Credits
import NeuralMesh.Proof.EscrowColumn
import NeuralMesh.Base.Interleaving
import NeuralMesh.Proof.TerminalStates
import NeuralMesh.Proof.StripeOnce
import NeuralMesh.Base.OneAtATime
import NeuralMesh.Base.Calls
import NeuralMesh.Base.Debts
import NeuralMesh.Base.Failure
import NeuralMesh.Store.Frame
import NeuralMesh.Store.Rows
import NeuralMesh.Proof.Overdraft
import NeuralMesh.Proof.LedgerBalance
import NeuralMesh.Proof.PartialFailure
import NeuralMesh.Proof.TwoSettlements
import NeuralMesh.Proof.OracleAmounts
import NeuralMesh.Proof.CompletionTwice
import NeuralMesh.Proof.FundedJobs
import NeuralMesh.Proof.HandedOut
import NeuralMesh.Proof.OneJob
import NeuralMesh.Proof.LinkedRows
import NeuralMesh.Proof.StrandedJobs
import NeuralMesh.Proof.SettleOnce
import NeuralMesh.Evm.Escrow
import NeuralMesh.Proof.EvmEscrow
import NeuralMesh.Proof.SolanaEscrow
import NeuralMesh.Proof.Eip1559
import NeuralMesh.Proof.StakeAndFlee
import NeuralMesh.Proof.FreshConsensus
import NeuralMesh.Proof.AttestedMetadata
import NeuralMesh.Proof.ProviderTokens
import NeuralMesh.Proof.EscrowSeeds
import NeuralMesh.Proof.NmcSupply
import NeuralMesh.Proof.SolanaBridge
import NeuralMesh.Proof.TokenBalances
import NeuralMesh.Proof.SolanaVault
import NeuralMesh.Proof.SettlementAmounts
import NeuralMesh.Proof.LockedJobs
import NeuralMesh.Proof.OracleNonces
import NeuralMesh.Proof.ChainRequests
import NeuralMesh.Proof.DepositFlags
import NeuralMesh.Proof.InternalSecret
import NeuralMesh.Base.CriticalSection
import NeuralMesh.Proof.Milestones
import NeuralMesh.Agent.PollForJob
import NeuralMesh.Base.Amid
import NeuralMesh.Proof.JobRoundTrip
import NeuralMesh.System.History
import NeuralMesh.Proof.TwoCancels
import NeuralMesh.Base.Files
import NeuralMesh.Cli.Bundle
import NeuralMesh.Sdk.Bundle
import NeuralMesh.Agent.Commands
import NeuralMesh.Agent.DownloadBundle
import NeuralMesh.Coordinator.Artifacts
import NeuralMesh.Proof.BundleHash
import NeuralMesh.Proof.ArtifactStore
import NeuralMesh.Base.Cursor
import NeuralMesh.Coordinator.Logs
import NeuralMesh.System.LogChanges
import NeuralMesh.Cli.StreamLogs
import NeuralMesh.Proof.LogFollowing
import NeuralMesh.Sdk.StreamLogs
import NeuralMesh.Proof.SdkLogs
import NeuralMesh.Base.Newest
import NeuralMesh.Proof.NewestCheckpoint
import NeuralMesh.Agent.Checkpoint
import NeuralMesh.Proof.SessionRuntime
import NeuralMesh.Proof.RestoreAttempts
import NeuralMesh.Proof.SubmittedConstraints
import NeuralMesh.Base.Journal
import NeuralMesh.Proof.TransactionLog
import NeuralMesh.Base.Pairing
import NeuralMesh.Proof.RegistryActivity
import NeuralMesh.Proof.TimeLock
import NeuralMesh.Proof.StakeExit
import NeuralMesh.Proof.PaidSessions
import NeuralMesh.Proof.TwoReports
import NeuralMesh.Agent.MainLoop
import NeuralMesh.Proof.BusyAgent
import NeuralMesh.Proof.IdleAgent
import NeuralMesh.Base.Fallible
import NeuralMesh.Base.FileSystem
import NeuralMesh.Agent.JobRunner
import NeuralMesh.Proof.JobOutput
import NeuralMesh.Base.Hex
import NeuralMesh.Crypto.Keys
import NeuralMesh.Crypto.Attestation
import NeuralMesh.Proof.FiveMinutes
import NeuralMesh.Proof.Commitment
import NeuralMesh.Base.Marked
import NeuralMesh.Proof.VerifierCounters
import NeuralMesh.Evm.MintHook
import NeuralMesh.Proof.OneToken
import NeuralMesh.Sdk.Provider
import NeuralMesh.Proof.AbleProviders
import NeuralMesh.Base.Along
import NeuralMesh.Coordinator.Accounts
import NeuralMesh.Proof.DeviceBinding
import NeuralMesh.Proof.JobOutcome
import NeuralMesh.Agent.JobTask
import NeuralMesh.Proof.Leftovers
import NeuralMesh.Proof.JobTask
import NeuralMesh.Proof.RefundedLocks
import NeuralMesh.Dashboard.DeviceId
import NeuralMesh.Proof.DeviceAgreement
import NeuralMesh.Base.Abi
import NeuralMesh.Proof.Calldata
import NeuralMesh.Proof.RlpItems
import NeuralMesh.Base.Shortlist
import NeuralMesh.Proof.BestProvider
import NeuralMesh.Proof.LatestRegistration
import NeuralMesh.Base.Paths
import NeuralMesh.Proof.TarOperands
import NeuralMesh.Agent.IdleDetector
import NeuralMesh.Proof.IdleDetector
import NeuralMesh.Agent.FetchCheckpoint
import NeuralMesh.Proof.JobPaths
import NeuralMesh.Proof.PartialRestore
import NeuralMesh.Proof.FreshStart
import NeuralMesh.Base.Attributes
import NeuralMesh.Wireguard.Nat
import NeuralMesh.Proof.StunAnswers
import NeuralMesh.Proof.StunEndpoint
import NeuralMesh.Base.Lines
import NeuralMesh.Base.Single
import NeuralMesh.Macos.GpuDetect
import NeuralMesh.Proof.Utilization
import NeuralMesh.Base.LastMatch
import NeuralMesh.Macos.Sandbox
import NeuralMesh.Proof.SandboxIsolation
import NeuralMesh.Proof.SuccessRate
import NeuralMesh.Proof.WithdrawalAddresses
import NeuralMesh.Proof.WorkConserving
import NeuralMesh.Coordinator.Kyc
import NeuralMesh.Proof.ProviderPages
import NeuralMesh.Proof.ProviderIndex
import NeuralMesh.Proof.TextBoundaries
import NeuralMesh.Proof.KycReview
import NeuralMesh.Base.Refinement
import NeuralMesh.Base.Deals
import NeuralMesh.Proof.EvmDeals
import NeuralMesh.Proof.SolanaDeals
import NeuralMesh.Proof.ChainsAgree
import NeuralMesh.Evm.Network
import NeuralMesh.Proof.NetworkSolvency
import NeuralMesh.Base.Growth
import NeuralMesh.Store.Growth
import NeuralMesh.Proof.AppendOnly
import NeuralMesh.Proof.Isolation
import NeuralMesh.Proof.SettlementPayload
import NeuralMesh.Agent.Identity
import NeuralMesh.Proof.OneIdentity
import NeuralMesh.Proof.WalletEarnings
import NeuralMesh.Proof.SolanaSupply
