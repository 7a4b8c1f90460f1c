import Tradex.Execution.CashManager
import Tradex.Execution.Engine
import Tradex.Execution.Recovery

/-!
# Engine wiring and recovery at boot

A boot builds a new engine with a new deduplication, replays orders and positions from
the log, restores cash from the fold, and opens an account without history. Broker,
gates and strategies are not modelled.
-/

namespace Tradex.Runtime

open Tradex.Domain Tradex.Execution Tradex.Execution.Recovery

structure BootConfig where
  engine : EngineConfig
  openingCash : Option Decimal
  killSwitchDefault : Bool

def restoreCash (allowNegative : Bool) (world : World) (cash totalFees : Decimal) : World :=
  match world.ledger with
  | none => { world with ledger := some { cash := cash, allowNegative := allowNegative } }
  | some ledger =>
    { world with ledger := some { ledger with cash := cash, totalFees := totalFees } }

def recoverOmsFromEvents (world : World) : Except TradingError World := do
  let replay ← recoverTradingCache world.log
  let rebuilt : World := { world with cache := replay.cache, booked := replay.booked }
  match latestAnchor world.log with
  | none => return rebuilt
  | some _ =>
    let cash ← foldCash world.log
    return restoreCash false rebuilt cash.cash cash.totalFees

def seedOpeningCash (cfg : BootConfig) (world : World) : World :=
  match cfg.openingCash with
  | none => world
  | some cash =>
    if (latestAnchor world.log).isNone && world.cache.allOrders.isEmpty then
      ((Engine.append cfg.engine (.cashAccountInitialized cash)).run (exec cfg.engine)
        (restoreCash false world cash 0)).2
    else world

def boot (cfg : BootConfig) (env : Environment) (events : List DomainEvent) :
    Except TradingError World :=
  (recoverOmsFromEvents { World.constructed env with
    log := events, killActive := cfg.killSwitchDefault }).map (seedOpeningCash cfg)

end Tradex.Runtime
