import WalletRouting.Policy.Rule
import WalletRouting.Wallet.Transaction
import WalletRouting.Wallet.User

/-! # Fields a condition can name

There are fields of the transaction, fields derived from the transaction, the instrument and the user, and fields of
the instrument. A name is looked up in these three tables in turn; a name with dots that none of them has is a path,
walked from the instrument part by part. Whether a rule may use a name is asked without walking: its first part counts.
-/
namespace WalletRouting
set_option autoImplicit false

/-- Utilization after the purchase; without a positive limit it is unbounded. -/
def Terms.projectedUtilization (t : Terms) (amount : Double) : Double :=
  if t.limit ≤ 0 then 1.0 / 0.0 else (t.balance + amount) / t.limit

/-- A rate that counts: one that is there and not zero. -/
def nonzero (rate : Option Double) : Option Double :=
  match rate with
  | some x => if x == 0.0 then none else some x
  | none => none

/-- The rate for a category, else the default rate; none if neither is there and nonzero. -/
def Terms.categoryRate? (t : Terms) (category : String) : Option Double :=
  match nonzero (t.rewards.get? (if category = "" then "default" else category)) with
  | some x => some x
  | none => nonzero (t.rewards.get? "default")

def Terms.categoryRate (t : Terms) (category : String) : Double := (t.categoryRate? category).getD 0.0

inductive TransactionField where
  | amount
  | currency
  | merchant
  | mcc
  | category
  | country
  | walletType
  | inPerson
  | riskFlags
  | correlationId
  | timestamp
  deriving DecidableEq, Repr

inductive DerivedField where
  | projectedUtilization
  | hasActiveSignupBonus
  | signupBonusRemaining
  | networkAcceptanceRisk
  | debitBalanceLow
  | categoryRewardRate
  | daysToPaycheck
  | cashBalance
  deriving DecidableEq, Repr

inductive InstrumentField where
  | id
  | name
  | dpan
  | network
  | limit
  | balance
  | utilization
  | apr
  | foreignFee
  | blockedMccs
  | rewards
  | eligible
  | cashbackRate
  | signupBonus
  | metadata
  | type
  deriving DecidableEq, Repr

namespace TransactionField

def named : Keyed TransactionField :=
  [("amount", .amount), ("currency", .currency), ("merchant", .merchant), ("mcc", .mcc),
   ("category", .category), ("country", .country), ("wallet_type", .walletType),
   ("is_in_person", .inPerson), ("risk_flags", .riskFlags), ("correlation_id", .correlationId),
   ("timestamp", .timestamp)]

def value (t : Transaction) : TransactionField → Value
  | .amount => .float t.amount
  | .currency => .text t.currency
  | .merchant => .text t.merchant
  | .mcc => .int t.mcc
  | .category => .text t.category
  | .country => .text t.country
  | .walletType => .text t.walletType.name
  | .inPerson => .bool t.inPerson
  | .riskFlags => .ofList .text t.riskFlags
  | .correlationId => .text t.correlationId
  | .timestamp => .ofOption .num t.timestamp

end TransactionField

namespace DerivedField

def named : Keyed DerivedField :=
  [("projected_utilization", .projectedUtilization), ("has_active_signup_bonus", .hasActiveSignupBonus),
   ("signup_bonus_remaining", .signupBonusRemaining), ("network_acceptance_risk", .networkAcceptanceRisk),
   ("debit_balance_low", .debitBalanceLow), ("category_reward_rate", .categoryRewardRate),
   ("days_to_paycheck", .daysToPaycheck), ("cash_balance", .cashBalance)]

/-- Fields that depend on the user alone. -/
def ofUser : DerivedField → Bool
  | .daysToPaycheck => true
  | .cashBalance => true
  | _ => false

def value (t : Transaction) (i : Instrument) (u : User) : DerivedField → Value
  | .projectedUtilization =>
    if i.cardKind? = some .credit ∧ 0 < i.terms.limit then
      .float ((i.terms.balance + t.amount) / i.terms.limit)
    else .int 0
  | .hasActiveSignupBonus =>
    .bool (match i.terms.signupBonus with
    | some b => decide (b.current < b.threshold)
    | none => false)
  | .signupBonusRemaining =>
    match i.terms.signupBonus with
    | some b => .float (b.threshold - b.current)
    | none => .int 0
  | .networkAcceptanceRisk =>
    .text (match i.terms.network with
    | .discover => "high"
    | .amex => "medium"
    | _ => "low")
  | .debitBalanceLow =>
    .bool (decide (i.cardKind? = some .debit) && decide (i.terms.balance < t.amount * 2.0))
  | .categoryRewardRate =>
    match i.terms.categoryRate? t.category with
    | some x => .float x
    | none => .int 0
  | .daysToPaycheck => .int u.daysToPaycheck
  | .cashBalance => .float u.cashBalance

end DerivedField

namespace InstrumentField

def named : Keyed InstrumentField :=
  [("id", .id), ("name", .name), ("dpan", .dpan), ("network", .network), ("limit", .limit),
   ("balance", .balance), ("utilization", .utilization), ("apr", .apr), ("ftf", .foreignFee),
   ("blocked_mccs", .blockedMccs), ("rewards_by_category", .rewards), ("is_eligible", .eligible),
   ("cashback_rate", .cashbackRate), ("signup_bonus", .signupBonus), ("metadata", .metadata),
   ("type", .type)]

/-- A wallet without a signup bonus reads as null, not as missing. -/
def reading (i : Instrument) : InstrumentField → Reading
  | .id => .value (.text i.terms.id)
  | .name => .value (.text i.terms.name)
  | .dpan => .value (.text i.terms.dpan)
  | .network => .value (.text i.terms.network.name)
  | .limit => .value (.float i.terms.limit)
  | .balance => .value (.float i.terms.balance)
  | .utilization => .value (.float i.terms.utilization)
  | .apr => .value (.float i.terms.apr)
  | .foreignFee => .value (.float i.terms.foreignFee)
  | .blockedMccs => .value (.ofList .int i.terms.blockedMccs)
  | .rewards => .value (.ofMap .float i.terms.rewards)
  | .eligible => .value (.bool i.terms.eligible)
  | .cashbackRate => .value (.float i.terms.cashbackRate)
  | .signupBonus =>
    match i.terms.signupBonus with
    | some b => .bonus b
    | none => .value .null
  | .metadata => .value (.object i.terms.metadata)
  | .type => .value (.text i.typeName)

end InstrumentField

namespace Instrument

/-- What a path finds first: a field of the instrument, or what only a router has. -/
def member? (i : Instrument) (name : String) : Option Reading :=
  match InstrumentField.named.get? name, i with
  | some f, _ => some (f.reading i)
  | none, .card _ => none
  | none, .router r =>
    if name = "children" then some (.value (.ofList Credential.toValue r.children))
    else if name = "routing_strategy" then some (.value (.text r.strategy.name))
    else none

end Instrument

namespace Field

def hasDot (name : String) : Bool := name.toList.contains '.'

/-- A name up to its first dot. -/
def rootOf (name : String) : String := String.ofList (name.toList.takeWhile fun c => c ≠ '.')

/-- Whether a condition may name a field. -/
def isKnown (name : String) : Bool :=
  TransactionField.named.has name || DerivedField.named.has name || InstrumentField.named.has name ||
    (hasDot name && InstrumentField.named.has (rootOf name))

/-- The parts of a text between dots; there is one more part than there are dots. -/
def partsOf : List Char → List Char × List (List Char)
  | [] => ([], [])
  | c :: rest =>
    let (first, more) := partsOf rest
    if c = '.' then ([], first :: more) else (c :: first, more)

def splitAtDots (name : String) : String × List String :=
  let (first, more) := partsOf name.toList
  (String.ofList first, more.map String.ofList)

/-- A path ends at null. -/
def orMissing : Value → Reading
  | .null => .missing
  | .unresolved => .missing
  | v => .value v

/-- One step down a path; only maps and signup bonuses have anything below them. -/
def step (r : Reading) (part : String) : Reading :=
  match r with
  | .value (.object members) =>
    match Keyed.get? part members with
    | some v => orMissing v
    | none => .missing
  | .bonus b =>
    if part = "threshold" then .value (.float b.threshold)
    else if part = "current" then .value (.float b.current)
    else if part = "reward" then .value (.float b.reward)
    else .missing
  | _ => .missing

/-- The first step, from the instrument itself. -/
def start (i : Instrument) (part : String) : Reading :=
  match i.member? part with
  | some (.value v) => orMissing v
  | some r => r
  | none => .missing

def walk (i : Instrument) (first : String) (more : List String) : Reading := more.foldl step (start i first)

/-- What a name stands for; a name that stands for nothing is missing. -/
def resolve (name : String) (t : Transaction) (i : Instrument) (u : User) : Reading :=
  match TransactionField.named.get? name with
  | some f => .value (f.value t)
  | none =>
    match DerivedField.named.get? name with
    | some f => .value (f.value t i u)
    | none =>
      match InstrumentField.named.get? name with
      | some f => f.reading i
      | none => if hasDot name then walk i (splitAtDots name).1 (splitAtDots name).2 else .missing

end Field

end WalletRouting
