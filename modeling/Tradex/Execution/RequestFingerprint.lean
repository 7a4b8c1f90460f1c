import Tradex.Domain.Types

/-!
# Request fingerprints

The canonical, operation-scoped text that an idempotency key is bound to.
-/

namespace Tradex.Execution

open Tradex.Domain

def canonicalDecimal (val : Option Decimal) : String :=
  match val with
  | none => ""
  | some val => if val.normalize.coeff = 0 then "0" else val.normalize.fixedStr

def canonicalPrice (price : Option Price) : String := canonicalDecimal (price.map Price.value)

def requestFingerprint (req : OrderRequest) (operation : String) (target : Option String) :
    String :=
  String.intercalate "|"
    [operation,
      target.getD "",
      req.instrument.instrumentId,
      req.side.value,
      req.orderType.value,
      canonicalDecimal (some req.quantity),
      canonicalPrice req.price,
      canonicalPrice req.triggerPrice,
      req.timeInForce.value,
      req.productType.value,
      toString req.disclosedQuantity,
      toString req.marketProtection,
      req.tag.getD "",
      req.referenceTimestamp.getD "",
      canonicalPrice req.stopLossPrice,
      canonicalPrice req.targetPrice,
      canonicalPrice req.trailingJump]

def cancelFingerprint (oid : String) : String := "cancel|" ++ oid

end Tradex.Execution
