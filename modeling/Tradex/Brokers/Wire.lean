import Mathlib.Data.Rat.Defs
import Tradex.Foundation.Dict
import Tradex.Foundation.Text

/-!
# Exceptions and answers on the wire

The exceptions that the broker clients tell apart, the JSON values that a venue
answers with, and what one network attempt can end with. The interpreter's own
text functions are collected in `TextOps`.
-/

namespace Tradex.Brokers

inductive ExceptionClass where
  | exception
  | osError
  | connectionError
  | timeoutError
  | urlError
  | httpError
  | valueError
  | typeError
  | sdkError
  | authenticationError
  | rateLimitError
  | brokerUnavailableError
  | retryExhaustedError
  | orderRejectedError
  | orderSubmissionUnknownError
  | instrumentNotFoundError
  | capabilityNotSupportedError
  | derived (name : String) (base : ExceptionClass)
deriving DecidableEq

namespace ExceptionClass

def ancestors : ExceptionClass → List ExceptionClass
  | .exception => []
  | .osError => [.exception]
  | .connectionError => [.osError, .exception]
  | .timeoutError => [.osError, .exception]
  | .urlError => [.osError, .exception]
  | .httpError => [.urlError, .osError, .exception]
  | .valueError => [.exception]
  | .typeError => [.exception]
  | .sdkError => [.exception]
  | .authenticationError => [.sdkError, .exception]
  | .rateLimitError => [.sdkError, .exception]
  | .brokerUnavailableError => [.sdkError, .exception]
  | .retryExhaustedError => [.brokerUnavailableError, .sdkError, .exception]
  | .orderRejectedError => [.sdkError, .exception]
  | .orderSubmissionUnknownError => [.sdkError, .exception]
  | .instrumentNotFoundError => [.sdkError, .exception]
  | .capabilityNotSupportedError => [.sdkError, .exception]
  | .derived _ base => base :: base.ancestors

def isSubclass (cls base : ExceptionClass) : Bool := cls = base || base ∈ cls.ancestors

end ExceptionClass

structure Raised where
  cls : ExceptionClass
  message : String
  status : Option ℤ := none
deriving DecidableEq

namespace Raised

def isInstance (exc : Raised) (cls : ExceptionClass) : Bool := exc.cls.isSubclass cls

def isInstanceOfAny (exc : Raised) (classes : List ExceptionClass) : Bool :=
  classes.any fun cls ↦ exc.isInstance cls

end Raised

inductive Json where
  | null
  | bool (value : Bool)
  | int (value : ℤ)
  | float (value : ℚ)
  | text (value : String)
  | list (items : List Json)
  | object (fields : List (String × Json))

abbrev Fields := List (String × Json)

namespace Json

variable (val : Json)

def atLeast (bound : ℤ) : Except Raised Bool :=
  match val with
  | .int num => .ok (bound ≤ num)
  | .float num => .ok ((bound : ℚ) ≤ num)
  | .bool flag => .ok (bound ≤ flag.toNat)
  | _ => .error
      { cls := .typeError, message := "'>=' not supported between instances" }

def equalsInt (num : ℤ) : Bool :=
  match val with
  | .int other => other = num
  | .float other => other = num
  | .bool flag => (flag.toNat : ℤ) = num
  | _ => false

def isIntAtLeast (bound : ℤ) : Bool :=
  match val with
  | .int num => bound ≤ num
  | .bool flag => bound ≤ flag.toNat
  | _ => false

end Json

namespace Fields

variable (fields : Fields) (name : String)

def get : Option Json := Dict.lookupEntries name fields

def set (val : Json) : Fields :=
  Dict.upsertEntries name val fields

def getOrNull : Json := (fields.get name).getD .null

theorem get_set (name other : String) (val : Json) :
    (fields.set name val).get other = if name = other then some val else fields.get other :=
  Dict.lookupEntries_upsertEntries

end Fields

structure TextOps where
  upper : String → String
  upper_capitals : ∀ text : String, text.toList.all Char.isUpper = true → upper text = text
  lower : String → String
  str : Json → String
  dumps : Json → String
  seconds : ℚ → String

def TextOps.ascii : TextOps where
  upper := Text.upperAscii
  upper_capitals text hcapitals := by
    have hmap : text.toList.map Char.toUpper = text.toList := by
      calc
        text.toList.map Char.toUpper = text.toList.map id := List.map_congr_left fun c hc ↦
          Text.toUpper_of_isUpper (List.all_eq_true.1 hcapitals c hc)
        _ = text.toList := List.map_id _
    rw [Text.upperAscii, hmap, String.ofList_toList]
  lower text := String.ofList (text.toList.map Char.toLower)
  str _ := ""
  dumps _ := ""
  seconds _ := ""

inductive FetchReply where
  | raised (exc : Raised)
  | pair (status : Json) (body : Json)
  | plain (body : Json)

inductive UrlopenReply where
  | raised (exc : Raised)
  | response (status : ℤ) (raw : String) (parsed : Option Json)

end Tradex.Brokers
