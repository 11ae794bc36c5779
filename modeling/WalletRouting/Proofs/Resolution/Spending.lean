import WalletRouting.Proofs.Resolution.Choice
import WalletRouting.Settings.Given

/-! # What assessments and choices draw

Under limits that are numbers an assessment draws two words, whatever it finds, and a round robin draws one more before
its children are assessed. A credential without eligible children draws nothing.
-/
namespace WalletRouting
set_option autoImplicit false

namespace RiskAssessment

theorem assessEach_snd (limits : RiskLimits) (t : Transaction) (u : User) (instruments : List Instrument)
    (g : Generator) :
    (assessEach limits t u instruments g).2 = ⟨g.seed, g.drawn + 2 * instruments.length⟩ := by
  induction instruments generalizing g with
  | nil => rfl
  | cons i rest ih =>
    rw [assessEach]
    dsimp only
    rw [ih, List.length_cons]
    simp only [assess, Generator.unit, Generator.next_seed, Generator.next_drawn, Generator.mk.injEq, true_and]
    omega

end RiskAssessment

namespace GivenLimits

/-- Limits that are numbers, with a threshold that can be told in percent. -/
def Usable (limits : GivenLimits) : Prop :=
  ∃ numbers : RiskLimits, limits = .ofLimits numbers ∧ isTellable numbers.veto = true

theorem usable_ofSettings (s : Settings) : (GivenSettings.ofSettings s).limits.Usable := ⟨s.riskLimits, rfl, rfl⟩

theorem amountFault?_num (amount : Double) (limits : List Number) : amountFault? amount (limits.map Value.num) = none := by
  induction limits with
  | nil => rfl
  | cons n rest ih =>
    simp only [List.map_cons, amountFault?, Value.quantity?, ih, ite_self]

theorem assessAll_of_usable {limits : GivenLimits} (h : limits.Usable) (t : Transaction) (u : User)
    (instruments : List Instrument) (g : Generator) :
    ∃ assessments, limits.assessAll t u instruments g =
      (.ok assessments, ⟨g.seed, g.drawn + 2 * instruments.length⟩) := by
  obtain ⟨numbers, rfl, htellable⟩ := h
  have hamounts := amountFault?_num t.amount [numbers.high, numbers.medium, numbers.low]
  cases instruments with
  | nil => exact ⟨[], rfl⟩
  | cons first rest =>
    have hdrawn := RiskAssessment.assessEach_snd (ofLimits numbers).numbers t u (first :: rest) g
    simp only [List.map_cons, List.map_nil] at hamounts
    unfold assessAll
    simp only [ofLimits, hamounts, Value.quantity?, htellable]
    exact ⟨_, congrArg (Prod.mk _) hdrawn⟩

end GivenLimits

namespace Resolution

/-- What a strategy draws before the children are assessed. -/
def turnCost : Strategy → Nat
  | .roundRobin => 1
  | _ => 0

/-- What it takes to choose one of the eligible children. -/
def cost (r : RoutingCredential) : Nat := turnCost r.strategy + 2 * (eligibleChildren r).length

theorem turn_snd (strategy : Strategy) (count : Nat) (g : Generator) :
    (turn strategy count g).2 = ⟨g.seed, g.drawn + turnCost strategy⟩ := by
  cases strategy <;> rfl

variable {u : User} {weights : Weights}

theorem settle_returns (hweights : u.weights.normalize = .ok weights) (r : RoutingCredential) (first : Credential)
    (rest : List Credential) (index : Nat) (t : Transaction) (s : Ruling) (now : Int)
    (assessments : Keyed RiskAssessment) :
    ∃ resolved, settle r first rest index t u s.guidance (.num (.int now)) assessments = .ok resolved := by
  unfold settle
  rw [ScoreTable.ofInstruments_of_ruling hweights]
  exact ⟨_, rfl⟩

theorem resolve_of_none {r : RoutingCredential} (hnone : eligibleChildren r = []) (t : Transaction) (u : User)
    (s : Guidance) (limits : GivenLimits) (now : Value) (g : Generator) :
    resolve r t u s limits now g = (.error (.noEligibleChild r.id), g) := by
  unfold resolve
  rw [hnone]

theorem resolve_of_eligible {limits : GivenLimits} (hlimits : limits.Usable)
    (hweights : u.weights.normalize = .ok weights) {r : RoutingCredential} (hsome : eligibleChildren r ≠ [])
    (t : Transaction) (s : Ruling) (now : Int) (g : Generator) :
    ∃ resolved, resolve r t u s.guidance limits (.num (.int now)) g = (.ok resolved, ⟨g.seed, g.drawn + cost r⟩) := by
  unfold resolve cost
  cases heligible : eligibleChildren r with
  | nil => exact absurd heligible hsome
  | cons first rest =>
    dsimp only
    rw [turn_snd]
    obtain ⟨assessments, hassessed⟩ := GivenLimits.assessAll_of_usable hlimits t u ((first :: rest).map Instrument.card)
      ⟨g.seed, g.drawn + turnCost r.strategy⟩
    rw [hassessed]
    obtain ⟨resolved, hsettled⟩ := settle_returns hweights r first rest
      (turn r.strategy (first :: rest).length g).1 t s now assessments
    refine ⟨resolved, ?_⟩
    dsimp only
    rw [hsettled, List.length_map, Nat.add_assoc]

/-- A credential with eligible children is resolved, and at its cost; one without is not, and draws nothing. -/
theorem resolve_spends {limits : GivenLimits} (hlimits : limits.Usable) (hweights : u.weights.normalize = .ok weights)
    (r : RoutingCredential) (t : Transaction) (s : Ruling) (now : Int) (g : Generator) :
    (∃ e, resolve r t u s.guidance limits (.num (.int now)) g = (.error e, g)) ∨
      ∃ resolved, resolve r t u s.guidance limits (.num (.int now)) g =
        (.ok resolved, ⟨g.seed, g.drawn + cost r⟩) := by
  by_cases hnone : eligibleChildren r = []
  · exact Or.inl ⟨_, resolve_of_none hnone t u s.guidance limits (.num (.int now)) g⟩
  · exact Or.inr (resolve_of_eligible hlimits hweights hnone t s now g)

end Resolution

end WalletRouting
