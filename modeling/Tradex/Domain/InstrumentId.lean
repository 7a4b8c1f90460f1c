import Tradex.Foundation.Calendar
import Tradex.Foundation.Decimal

/-!
# Instrument ids

The canonical key of an instrument: an exchange, an underlying, and for a derivative
its expiry, strike and right. The two texts are stripped, and equality ignores the
asset class.
-/

namespace Tradex.Domain

open Tradex.Text

inductive AssetClass where
  | equity
  | index
  | future
  | option
  | currency
  | commodity
deriving DecidableEq

def AssetClass.value : AssetClass → String
  | .equity => "EQUITY"
  | .index => "INDEX"
  | .future => "FUTURE"
  | .option => "OPTION"
  | .currency => "CURRENCY"
  | .commodity => "COMMODITY"

inductive Right where
  | ce
  | pe
  | fut
deriving DecidableEq

def Right.value : Right → String
  | .ce => "CE"
  | .pe => "PE"
  | .fut => "FUT"

structure InstrumentId where
  exchange : String
  underlying : String
  expiry : Option Date := none
  strike : Option Decimal := none
  right : Option Right := none
  assetClass : AssetClass := .equity
  exchange_stripped : Stripped exchange.toList
  underlying_stripped : Stripped underlying.toList

structure InstrumentKey where
  exchange : String
  underlying : String
  expiry : Option Date
  strike : Option ℚ
  right : Option Right
deriving DecidableEq

namespace InstrumentId

def key (instr : InstrumentId) : InstrumentKey where
  exchange := instr.exchange
  underlying := instr.underlying
  expiry := instr.expiry
  strike := instr.strike.map Decimal.toRat
  right := instr.right

def strikeText (strike : Decimal) : String :=
  if strike.toRat.den = 1 then toString strike.toRat.num else strike.str

def str (instr : InstrumentId) : String :=
  ":".intercalate ([instr.exchange, instr.underlying] ++
    (instr.expiry.map fun expiry ↦ String.ofList expiry.compact).toList ++
    (instr.strike.map strikeText).toList ++ (instr.right.map Right.value).toList)

end InstrumentId

end Tradex.Domain
