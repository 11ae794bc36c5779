import WalletRouting.Resolution.Basic
import WalletRouting.Risk.Given
import WalletRouting.Score.Table

/-! # Choosing a child

Only eligible children take part. Whatever the strategy, each of them is assessed and scored under the ruling of
the run, so that the record shows all of them; a round robin draws its position before that.
-/
namespace WalletRouting
set_option autoImplicit false

inductive ResolutionError where
  | noEligibleChild (routerId : String)
  | unusableLimits (m : Misuse)
  | noTable (e : TableError)
  | malformed (issues : List Schema.Issue)
  deriving Repr

def ResolutionError.message : ResolutionError → String
  | .noEligibleChild id => "DRT " ++ id ++ " has no eligible child DPANs"
  | .unusableLimits m => m.message
  | .noTable e => e.message
  | .malformed issues => Schema.summary "DRTResolution" issues

/-- A resolution with the assessments made for it. -/
structure Resolved where
  resolution : Resolution
  assessments : Keyed RiskAssessment
  deriving Repr

namespace Resolution

def eligibleChildren (r : RoutingCredential) : List Credential := r.children.filter fun c => c.eligible

/-- The first child of lowest utilization. -/
def leastUtilized (first : Credential) (rest : List Credential) : Credential :=
  rest.foldl (fun least c => if c.utilization < least.utilization then c else least) first

/-- The child at the top of the table, or the first child when every row is excluded. -/
def topScored (first : Credential) (children : List Credential) (table : ScoreTable) : Credential × String :=
  match table.top with
  | some row =>
    ((children.find? fun c => c.id = row.credentialId).getD first, "Optimal score: " ++ row.final.fixed 2)
  | none => (first, "Fallback: no scored candidates")

/-- Where a round robin stands; the other strategies draw nothing. -/
def turn (strategy : Strategy) (count : Nat) (g : Generator) : Nat × Generator :=
  match strategy with
  | .roundRobin => g.position count
  | _ => (0, g)

def choose (strategy : Strategy) (first : Credential) (rest : List Credential) (index : Nat) (table : ScoreTable) :
    Credential × String :=
  match strategy with
  | .optimalScore => topScored first (first :: rest) table
  | .roundRobin => ((first :: rest).getD index first, "Round robin: index " ++ toString index)
  | .lowestUtilization =>
    let child := leastUtilized first rest
    (child, "Lowest utilization: " ++ (child.utilization * 100.0).fixed 1 ++ "%")

/-- Scores children that are assessed, and settles on one of them. -/
def settle (r : RoutingCredential) (first : Credential) (rest : List Credential) (index : Nat) (t : Transaction)
    (u : User) (s : Guidance) (now : Value) (assessments : Keyed RiskAssessment) : Except ResolutionError Resolved :=
  match ScoreTable.ofInstruments ((first :: rest).map Instrument.card) t u s assessments none with
  | .error e => .error (.noTable e)
  | .ok table =>
    let (child, reason) := choose r.strategy first rest index table
    match (Schema.integer now).within (.key "timestamp") with
    | .bad issues => .error (.malformed issues)
    | .ok time => .ok ⟨⟨r.id, child, table.rows, reason, time⟩, assessments⟩

/-- Resolves a routing credential; without an eligible child nothing is drawn. -/
def resolve (r : RoutingCredential) (t : Transaction) (u : User) (s : Guidance) (limits : GivenLimits) (now : Value)
    (g : Generator) : Except ResolutionError Resolved × Generator :=
  match eligibleChildren r with
  | [] => (.error (.noEligibleChild r.id), g)
  | first :: rest =>
    let (index, g) := turn r.strategy (first :: rest).length g
    match limits.assessAll t u ((first :: rest).map Instrument.card) g with
    | (.error m, g) => (.error (.unusableLimits m), g)
    | (.ok assessments, g) => (settle r first rest index t u s now assessments, g)

def allChildren (routers : List RoutingCredential) : List Credential := routers.flatMap (·.children)

def router? (routers : List RoutingCredential) (id : String) : Option RoutingCredential :=
  routers.find? fun r => r.id = id

end Resolution

end WalletRouting
