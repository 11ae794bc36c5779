import WalletRouting.Policy.Signature

/-! # The baseline policy

Versions are cumulative: each carries the first so many of the baseline rules.
-/
namespace WalletRouting
set_option autoImplicit false

namespace Baseline

def compare (field : String) (operator : Operator) (bound : Value) : Condition :=
  .node field operator bound none none

def compareAnd (field : String) (operator : Operator) (bound : Value) (more : List Condition) : Condition :=
  .node field operator bound (some more) none

def exclude (reason : String) : Action := ⟨.exclude, none, none, .null, none, none, reason⟩

def boost (amount : Double) (reason : String) : Action := ⟨.boost, none, none, .null, some amount, none, reason⟩

def penalize (amount : Double) (reason : String) : Action := ⟨.penalize, none, none, .null, none, some amount, reason⟩

def rule (id label : String) (type : RuleType) (priority : Int) (condition : Condition) (action : Action) : Rule :=
  ⟨id, label, type, priority, true, none, condition, action, none⟩

def rules : List Rule :=
  [rule "rule_util_guard" "Utilization Guard" .hard 1
      (compare "projected_utilization" .gt (.float 0.9))
      (exclude "Would push utilization above 90%"),
   rule "rule_debit_buffer" "Debit Balance Buffer" .hard 2
      (compare "debit_balance_low" .eq (.bool true))
      (exclude "Debit balance under 2x transaction amount"),
   rule "rule_dining_boost" "Dining Rewards Boost" .soft 3
      (compareAnd "category" .eq (.text "dining") [compare "category_reward_rate" .gte (.int 3)])
      (boost 5 "3x+ dining multiplier"),
   rule "rule_signup_chase" "Signup Bonus Progress" .soft 4
      (compare "has_active_signup_bonus" .eq (.bool true))
      (boost 8 "Counts toward an open signup bonus"),
   rule "rule_high_apr" "High APR Penalty" .soft 5
      (compare "apr" .gt (.int 25))
      (penalize 5 "APR above 25%"),
   rule "rule_travel_ftf" "Foreign Transaction Fee" .soft 6
      (compareAnd "country" .neq (.text "US") [compare "ftf" .gt (.int 0)])
      (penalize 10 "Card charges a foreign transaction fee"),
   rule "rule_gas_boost" "Gas Station Boost" .soft 7
      (compareAnd "mcc" .isIn (.list [.int 5541, .int 5542]) [compare "category_reward_rate" .gte (.int 2)])
      (boost 4 "2x+ on fuel"),
   rule "rule_acceptance_abroad" "Network Acceptance Abroad" .soft 8
      (compareAnd "network_acceptance_risk" .eq (.text "high") [compare "country" .neq (.text "US")])
      (penalize 6 "Weak network acceptance outside the US"),
   rule "rule_prepaid_cap" "Prepaid Large Purchase Cap" .hard 9
      (compare "amount" .gt (.int 1000))
      ⟨.exclude, none, some "type", .text "prepaid", none, none, "Prepaid cards capped at $1000"⟩,
   { rule "rule_grocery_drt" "Groceries via Everyday Router" .hard 10
      (compare "mcc" .eq (.int 5411))
      ⟨.force, some "drt_everyday", none, .null, none, none, "Grocery spend routed through the everyday DRT"⟩ with
     enabled := false }]

/-- A baseline version: how long it has been in effect, and how many of the rules it carries. -/
structure Release where
  version : String
  daysAgo : Int
  count : Nat
  description : String
  cached : Bool

def releases : List Release :=
  [⟨"1.0.0", 90, 5, "Initial policy release - basic routing rules", false⟩,
   ⟨"1.1.0", 45, 7, "Added travel and gas station rules", false⟩,
   ⟨"2.0.0", 7, 10, "Complete rule set with boost/penalize actions", true⟩]

/-- Milliseconds. -/
def day : Int := 24 * 60 * 60 * 1000

def Release.date (now : Number) (r : Release) : Number := now.add (.int (-(r.daysAgo * day)))

def Release.policy (now : Number) (r : Release) : PolicyVersion where
  version := r.version
  effectiveDate := (r.date now).whole
  signature := Signature.ofRules (rules.take r.count)
  rules := rules.take r.count
  description := r.description
  cached := r.cached

def versions (now : Number) : List PolicyVersion := releases.map (Release.policy now)

/-- What is wrong with the first date that is no whole number. -/
def issues (now : Number) : List Schema.Issue :=
  match Schema.Checked.each (fun r => (Schema.integer (.num (r.date now))).within (.key "effective_date")) releases with
  | .bad found => found
  | .ok _ => []

end Baseline

end WalletRouting
