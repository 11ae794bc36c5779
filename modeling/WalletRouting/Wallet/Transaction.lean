import WalletRouting.Schema.Record
import WalletRouting.Schema.Scalar

/-! # The purchase being routed

`amount` is at least zero on everything that is read; the correlation id and the timestamp are stamped by the
run that routes the purchase.
-/
namespace WalletRouting
set_option autoImplicit false

inductive WalletType where
  | applePay
  | googlePay
  | samsungPay
  | browser
  deriving DecidableEq, Repr

namespace WalletType

def name : WalletType → String
  | .applePay => "apple_pay"
  | .googlePay => "google_pay"
  | .samsungPay => "samsung_pay"
  | .browser => "browser"

def named : Keyed WalletType := [.applePay, .googlePay, .samsungPay, .browser].map fun w => (w.name, w)

end WalletType

structure Transaction where
  amount : Double
  currency : String
  merchant : String
  mcc : Int
  category : String
  country : String
  walletType : WalletType
  inPerson : Bool
  riskFlags : List String
  correlationId : String
  timestamp : Option Number
  deriving Repr

namespace Transaction

open Schema

/-- A time that is read is whole; one that is stamped is as the clock tells it. -/
def time : Read Number := fun v => (integer v).map .int

def read : Read Transaction := record fun m =>
  Transaction.mk <$> required "amount" (doubleFrom 0) m
    <*> optional "currency" "USD" text m
    <*> required "merchant" text m
    <*> required "mcc" integer m
    <*> optional "category" "" text m
    <*> optional "country" "US" text m
    <*> optional "wallet_type" .applePay (member WalletType.named .unknownMember) m
    <*> optional "is_in_person" true flag m
    <*> optional "risk_flags" [] (listOf text) m
    <*> optional "correlation_id" "" text m
    <*> optional "timestamp" none (nullable time) m

def toValue (t : Transaction) : Value := .object
  [("amount", .float t.amount),
   ("currency", .text t.currency),
   ("merchant", .text t.merchant),
   ("mcc", .int t.mcc),
   ("category", .text t.category),
   ("country", .text t.country),
   ("wallet_type", .text t.walletType.name),
   ("is_in_person", .bool t.inPerson),
   ("risk_flags", .ofList .text t.riskFlags),
   ("correlation_id", .text t.correlationId),
   ("timestamp", .ofOption .num t.timestamp)]

end Transaction

end WalletRouting
