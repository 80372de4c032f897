import Leopold.Lib.Checked
import Leopold.Lib.Transition
import Leopold.Contracts.Basic
import Leopold.Contracts.Fhe
import Leopold.Contracts.Externals
import Leopold.Contracts.Config
import Leopold.Contracts.CompoundAdapter
import Leopold.Contracts.AdapterSpec
import Leopold.Contracts.SettlementBondEscrow
import Leopold.Lib.Bisect
import Leopold.Vault.State
import Leopold.Vault.Accounting
import Leopold.Vault.Strategy
import Leopold.Vault.Operations
import Leopold.Vault.Joint
import Leopold.Vault.Inversion
import Leopold.Vault.JointInversion
import Leopold.System.Calls
import Leopold.Lib.Sums
import Leopold.Lib.TimeWeighted
import Leopold.Lib.Accrual
import Leopold.Ledger.Basic
import Leopold.System.LedgerView
import Leopold.System.Shape
import Leopold.System.Books
import Leopold.System.Epochs
import Leopold.System.Runs
import Leopold.Vault.History
import Leopold.System.Settling
import Leopold.Contracts.EscrowTotal
import Leopold.System.Bonds
import Leopold.System.Timeline
import Leopold.Contracts.EscrowSpec
import Leopold.Contracts.EscrowSound
import Leopold.Lib.Lottery
import Leopold.System.Draws
import Leopold.System.Past
import Leopold.System.Selection
import Leopold.System.Payments
import Leopold.System.Settlement
import Leopold.System.Lifecycle
import Leopold.System.Prizes
import Leopold.Reference.Models
import Leopold.Vault.Checkpoints
import Leopold.System.Uniform
import Leopold.System.Widths
import Leopold.System.Steady
import Leopold.System.Preferences
import Leopold.System.Awards
import Leopold.Contracts.Mocks
import Leopold.System.Scripts
import Leopold.Reference.Accounting
import Leopold.System.Accounts
import Leopold.System.Recovery
import Leopold.System.Choices
import Leopold.Lib.Recent
import Leopold.Frontend.Transactions
import Leopold.Frontend.TransactionStore
import Leopold.Keeper.Lifecycle
import Leopold.Keeper.Journal
import Leopold.Lib.PromiseQueue
import Leopold.Keeper.JournalStore
import Leopold.Keeper.JournalRuns
import Leopold.Keeper.JournalHistory
import Leopold.Contracts.AdapterRuns
import Leopold.Keeper.Planner
import Leopold.Keeper.Gateway
import Leopold.Lib.Interaction
import Leopold.Keeper.Engine
import Leopold.Keeper.Pruning
import Leopold.Frontend.WalletSession
import Leopold.Frontend.SessionHistory
import Leopold.Frontend.WalletProvider
import Leopold.Frontend.SessionChanges
import Leopold.Frontend.SessionRuns
import Leopold.Frontend.SessionChecks
import Leopold.Frontend.FinancialProvider
import Leopold.Frontend.PrivateDisplay
import Leopold.Frontend.PrivateReveals
import Leopold.Frontend.V2Page
import Leopold.Frontend.Checkpoints
import Leopold.Frontend.V2Operation
import Leopold.Frontend.V2Writes
import Leopold.Frontend.V2Records
import Leopold.Frontend.V2Resume
import Leopold.Frontend.V2ResumeRuns
import Leopold.Lib.Hex
import Leopold.Packages.BigintBuffer
import Leopold.Lib.Circular
import Leopold.Keeper.Scanning
import Leopold.Lib.HeapTree
import Leopold.Spikes.PrefixTree
import Leopold.Spikes.MomentTree
import Leopold.Reference.History
import Leopold.Spikes.TreeUpdates
import Leopold.Spikes.MomentForm
import Leopold.Spikes.HistoryForms
import Leopold.Spikes.TreeWorld
import Leopold.Spikes.TreeInvariants
import Leopold.Spikes.TreeRuns
import Leopold.Spikes.TicketPartition
import Leopold.Frontend.V2Overwrites
import Leopold.Frontend.V2Withdrawal
import Leopold.Frontend.V2Unwraps
import Leopold.Keeper.Attempts
import Leopold.Keeper.Broadcasts
import Leopold.Keeper.Endpoints
import Leopold.Vault.Erasure
import Leopold.System.PublicPart
import Leopold.System.Secrecy
import Leopold.System.Progress
import Leopold.System.Liveness
import Leopold.System.Interference
import Leopold.Lib.Patience
import Leopold.Keeper.Settlement
import Leopold.Keeper.Fleet
import Leopold.Vault.Rights
import Leopold.System.Disclosure
import Leopold.Vault.Terms
import Leopold.System.Undisclosed
