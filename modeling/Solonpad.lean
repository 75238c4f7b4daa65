import Solonpad.CapacityCaps
import Solonpad.EscrowExact
import Solonpad.FeeCustody
import Solonpad.RightsIsolation
import Solonpad.StakingWeights
import Solonpad.RewardStaging
import Solonpad.RewardIndex
import Solonpad.CapacityRaises
import Solonpad.GovernanceBounds
import Solonpad.OperatingBudgets
import Solonpad.PlatformLots
import Solonpad.StakingSolvency
import Solonpad.SaleProceeds
import Solonpad.DeskCredit
import Solonpad.ProtocolObligations
import Solonpad.HookForwarding
import Solonpad.CanonicalRetries
import Solonpad.FloatEnds
import Solonpad.TaskSuccess
import Solonpad.RefundEnds
import Solonpad.VaultRecords
import Solonpad.LauncherRecords
import Solonpad.SealWatermark
import Solonpad.HubTickets
import Solonpad.CctpLayout
import Solonpad.MessageCodec
import Solonpad.QuoteFees
import Solonpad.Allocations
import Solonpad.DeskCycle
import Solonpad.CarryHistory
import Solonpad.StaleResults
import Solonpad.OrderLimits
import Solonpad.LateReturns
import Solonpad.LaunchQueue
import Solonpad.RoundSplit
import Solonpad.RelayedSource
import Solonpad.OracleViews
import Solonpad.DeskQuotes
import Solonpad.DepositQuote
import Solonpad.LockRuns
import Solonpad.DiscoveryRuns
import Solonpad.ReconcileCursor
import Solonpad.CapRuns
import Solonpad.ExpirySumTree
import Solonpad.HubListed
import Solonpad.DeskGroups
import Solonpad.OpeningTick
import Solonpad.RoundAnswers
import Solonpad.BuybackVault
