import Tradex.Domain.RateLimitCharges
import Tradex.Domain.ReversibleRegistry
import Tradex.Domain.SerializationRoundTrip
import Tradex.Execution.GuardEquivalence
import Tradex.Execution.LedgerCalls
import Tradex.Execution.MarkConsistency
import Tradex.Execution.FillDoor
import Tradex.Execution.QuantityAgreement
import Tradex.Execution.SingleAcceptance
import Tradex.Execution.LegacyMigration
import Tradex.Execution.LogCounts
import Tradex.Execution.Reconciliation
import Tradex.Runtime.SharedRead
import Tradex.Execution.ExposureForecast
import Tradex.Execution.BaselineRestart
import Tradex.Execution.KillRace
import Tradex.Execution.Redelivery
import Tradex.Execution.AdoptionLedger
import Tradex.Execution.EventPayload
import Tradex.Runtime.CrashRedelivery
import Tradex.Runtime.WriterExclusion
import Tradex.Runtime.EarlyFill
import Tradex.Runtime.TickConservation
import Tradex.Runtime.FeeRestart
import Tradex.Runtime.ReconciliationPoll
import Tradex.Runtime.WireSet
import Tradex.Runtime.FeedReadiness
import Tradex.Runtime.FeedRecovery
import Tradex.Brokers.PlacementOutcome
import Tradex.Strategy.StopSilence
import Tradex.Strategy.IndicatorSeries
import Tradex.Brokers.DhanTicks
import Tradex.Runtime.PaperBookFillSource
import Tradex.Replay.ReusedStrategy
import Tradex.MarketData.GapScan
import Tradex.MarketData.BulkHistory
import Tradex.Brokers.TokenManagers
import Tradex.Brokers.TotpCooldown
import Tradex.Brokers.TokenGenerations
import Tradex.Brokers.BreakerProbes
import Tradex.Brokers.ReadCaching
import Tradex.Execution.DurableDedup
import Tradex.Runtime.ReplayController
import Tradex.Runtime.SessionBars
import Tradex.MarketData.ParallelFetcher
import Tradex.MarketData.SyncAccounting
