import Mathlib.Data.Int.ModEq
import Mathlib.Tactic.Ring
import WalletRouting.Draws.Request

/-! # A stream is a position on one cycle

The state moves on by an odd constant, so it comes back to where it was after `2 ^ 32` words and not before. Every request
moves it by a number of words that its kind and the length of what comes with it tell, whatever is drawn. Seeds that
differ by a multiple of `2 ^ 32` start the same stream.
-/
namespace WalletRouting
set_option autoImplicit false

namespace Generator

variable {g g' : Generator}

/-! ## States -/

theorem toNat_state (g : Generator) : (g.state.toNat : Int) = (g.seed + g.drawn * increment) % 2 ^ 32 := by
  unfold state
  rw [UInt32.toNat_ofNat']
  omega

theorem state_advance (g : Generator) : g.advance.state = g.state + 0x6D2B79F5 := by
  have hnext := toNat_state g.advance
  have hstate := toNat_state g
  apply UInt32.toNat_inj.mp
  rw [UInt32.toNat_add]
  unfold advance increment at *
  push_cast at hnext
  change _ = (g.state.toNat + 1831565813) % 2 ^ 32
  omega

/-- What the increment is to be multiplied by for a step of one. -/
def unstep : Int := 3696798301

theorem increment_mul_unstep : increment * unstep ≡ 1 [ZMOD 2 ^ 32] := by decide

theorem modEq_of_state {seed : Int} {m n : Nat} (h : (Generator.mk seed m).state = (Generator.mk seed n).state) :
    (m : Int) ≡ n [ZMOD 2 ^ 32] := by
  have hstates : seed + m * increment ≡ seed + n * increment [ZMOD 2 ^ 32] := by
    have hm := toNat_state ⟨seed, m⟩
    have hn := toNat_state ⟨seed, n⟩
    rw [h] at hm
    exact hm.symm.trans hn
  have hback {k : Int} : k * increment * unstep ≡ k [ZMOD 2 ^ 32] := by
    rw [mul_assoc]
    simpa using increment_mul_unstep.mul_left k
  exact hback.symm.trans (((Int.ModEq.add_left_cancel' seed hstates).mul_right unstep).trans hback)

theorem state_ne {seed : Int} {drawn i j : Nat} (hij : i < j) (hj : j < 2 ^ 32) :
    (Generator.mk seed (drawn + i)).state ≠ (Generator.mk seed (drawn + j)).state := by
  intro h
  have hmod := modEq_of_state h
  unfold Int.ModEq at hmod
  push_cast at hmod
  omega

theorem exists_state (g : Generator) (s : UInt32) : ∃ i < 2 ^ 32, (Generator.mk g.seed (g.drawn + i)).state = s := by
  let distance : Int := s.toNat - (g.seed + g.drawn * increment)
  have hnonneg : 0 ≤ distance * unstep % 2 ^ 32 := Int.emod_nonneg _ (by decide)
  have hlt : distance * unstep % 2 ^ 32 < 2 ^ 32 := Int.emod_lt_of_pos _ (by decide)
  refine ⟨(distance * unstep % 2 ^ 32).toNat, by omega, UInt32.toNat_inj.mp ?_⟩
  have hreached : distance * unstep % 2 ^ 32 * increment ≡ distance [ZMOD 2 ^ 32] :=
    calc distance * unstep % 2 ^ 32 * increment ≡ distance * unstep * increment [ZMOD 2 ^ 32] :=
          (Int.mod_modEq _ _).mul_right _
      _ = distance * (increment * unstep) := by ring
      _ ≡ distance * 1 [ZMOD 2 ^ 32] := increment_mul_unstep.mul_left _
      _ = distance := mul_one _
  have hsum : g.seed + (g.drawn + (distance * unstep % 2 ^ 32).toNat : Nat) * increment ≡ s.toNat [ZMOD 2 ^ 32] := by
    rw [Nat.cast_add, Int.toNat_of_nonneg hnonneg, add_mul, ← add_assoc]
    have htotal : (s.toNat : Int) = g.seed + g.drawn * increment + distance := (add_sub_cancel _ _).symm
    rw [htotal]
    exact hreached.add_left _
  have hbound := s.toNat_lt
  apply Int.natCast_inj.mp
  rw [toNat_state]
  exact hsum.eq.trans (Int.emod_eq_of_lt (by omega) (by omega))

/-! ## Draws -/

/-- Generators at one position, whose seeds differ by a multiple of `2 ^ 32`. -/
structure Alike (g g' : Generator) : Prop where
  seed : g.seed % 2 ^ 32 = g'.seed % 2 ^ 32
  drawn : g.drawn = g'.drawn

namespace Alike

theorem forward (h : Alike g g') (n : Nat) : Alike ⟨g.seed, g.drawn + n⟩ ⟨g'.seed, g'.drawn + n⟩ :=
  ⟨h.seed, congrArg (· + n) h.drawn⟩

theorem reset (h : Alike g g') : Alike g.reset g'.reset := ⟨h.seed, rfl⟩

theorem state (h : Alike g g') : g.state = g'.state := by
  have hstate := toNat_state g
  have hstate' := toNat_state g'
  have hseed := h.seed
  rw [h.drawn] at hstate
  apply UInt32.toNat_inj.mp
  generalize (g'.drawn : Int) * increment = moved at hstate hstate'
  omega

theorem word (h : Alike g g') : g.next.1 = g'.next.1 := congrArg scramble (h.forward 1).state

theorem position (h : Alike g g') (n : Nat) : (g.position n).1 = (g'.position n).1 := by
  simp only [Generator.position, unit, h.word]

variable {α : Type}

theorem shuffleBelow (h : Alike g g') (i : Nat) (items : List α) :
    (Generator.shuffleBelow i items g).1 = (Generator.shuffleBelow i items g').1 := by
  induction i generalizing items g g' with
  | zero => rfl
  | succ i ih =>
    rw [Generator.shuffleBelow, Generator.shuffleBelow]
    dsimp only
    rw [h.position]
    exact ih (h.forward 1) _

theorem correlationDigits (h : Alike g g') (count place : Nat) :
    (Generator.correlationDigits count place g).1 = (Generator.correlationDigits count place g').1 := by
  induction count generalizing place g g' with
  | zero => rfl
  | succ count ih =>
    rw [Generator.correlationDigits, Generator.correlationDigits]
    dsimp only
    have hrest := ih (h.forward 1) (place + 1)
    rw [h.position]
    exact congrArg (fun rest => if dashPlaces.contains place then '-' :: _ :: rest else _ :: rest) hrest

theorem declineAround (h : Alike g g') (score : Number) :
    (Generator.declineAround score g).1 = (Generator.declineAround score g').1 := by
  unfold Generator.declineAround
  cases hundredth score with
  | error e => rfl
  | ok base => simp only [unit, h.word]

end Alike

theorem declineAround_snd (score : Number) (g : Generator) :
    (declineAround score g).2 = ⟨g.seed, g.drawn + if (hundredth score).toOption.isSome then 1 else 0⟩ := by
  unfold declineAround
  cases hundredth score <;> rfl

theorem shuffleBelow_snd {α : Type} (i : Nat) (items : List α) (g : Generator) :
    (shuffleBelow i items g).2 = ⟨g.seed, g.drawn + i⟩ := by
  induction i generalizing items g with
  | zero => rfl
  | succ i ih =>
    rw [shuffleBelow]
    dsimp only
    rw [ih]
    simp only [position, unit, next_seed, next_drawn, mk.injEq, true_and]
    omega

theorem correlationDigits_snd (count place : Nat) (g : Generator) :
    (correlationDigits count place g).2 = ⟨g.seed, g.drawn + count⟩ := by
  induction count generalizing place g with
  | zero => rfl
  | succ count ih =>
    rw [correlationDigits]
    dsimp only
    rw [ih]
    simp only [position, unit, next_seed, next_drawn, mk.injEq, true_and]
    omega

end Generator

namespace DrawRequest

variable {α : Type} {g g' : Generator}

/-! ## Requests -/

/-- Whether a request fails before a word would be drawn for it. -/
def failsFirst : DrawRequest α → Bool
  | .decline base => !(Generator.hundredth base).toOption.isSome
  | .illTyped spends => !spends
  | _ => false

/-- The words for a request of its kind, by the length of what comes with it. -/
def allowance : DrawRequest α → Nat
  | .shuffle items => items.length - 1
  | .correlationId => 32
  | .seed => 0
  | .reset => 0
  | _ => 1

/-- The words for requests one after another. -/
def allowances (requests : List (DrawRequest α)) : Nat :=
  ((requests.filter fun r => !r.failsFirst).map allowance).sum

theorem cost_eq (r : DrawRequest α) : r.cost = if r.failsFirst then 0 else r.allowance := by
  cases r with
  | decline base => cases h : (Generator.hundredth base).toOption.isSome <;> simp [cost, failsFirst, allowance, h]
  | illTyped spends => cases spends <;> rfl
  | _ => rfl

theorem allowances_cons (r : DrawRequest α) (rest : List (DrawRequest α)) :
    allowances (r :: rest) = r.cost + allowances rest := by
  rw [cost_eq, allowances, List.filter_cons]
  cases r.failsFirst
  · rfl
  · exact (Nat.zero_add _).symm

theorem answer_snd (r : DrawRequest α) (h : r.rewinds = false) (g : Generator) :
    (r.answer g).2 = ⟨g.seed, g.drawn + r.cost⟩ := by
  cases r with
  | shuffle items => exact Generator.shuffleBelow_snd _ items g
  | correlationId => exact Generator.correlationDigits_snd 32 0 g
  | decline base => exact Generator.declineAround_snd base g
  | illTyped spends => cases spends <;> rfl
  | reset => cases h
  | _ => rfl

theorem answer_snd_seed (r : DrawRequest α) (g : Generator) : (r.answer g).2.seed = g.seed := by
  cases h : r.rewinds with
  | false => rw [answer_snd r h]
  | true =>
    cases r with
    | reset => rfl
    | _ => cases h

theorem answers_snd {requests : List (DrawRequest α)} (h : ∀ r ∈ requests, r.rewinds = false) (g : Generator) :
    (answers requests g).2 = ⟨g.seed, g.drawn + allowances requests⟩ := by
  induction requests generalizing g with
  | nil => rfl
  | cons r rest ih =>
    obtain ⟨hr, hrest⟩ := List.forall_mem_cons.mp h
    rw [answers]
    dsimp only
    rw [ih hrest, answer_snd r hr, allowances_cons, Nat.add_assoc]

theorem answers_snd_seed (requests : List (DrawRequest α)) (g : Generator) : (answers requests g).2.seed = g.seed := by
  induction requests generalizing g with
  | nil => rfl
  | cons r rest ih => exact (ih _).trans (answer_snd_seed r g)

theorem answers_append (before after : List (DrawRequest α)) (g : Generator) :
    answers (before ++ after) g =
      ((answers before g).1 ++ (answers after (answers before g).2).1, (answers after (answers before g).2).2) := by
  induction before generalizing g with
  | nil => rfl
  | cons r rest ih =>
    rw [List.cons_append, answers, answers]
    dsimp only
    rw [ih]
    rfl

/-- A request is answered by the words of the stream alone; only the seed itself tells more. -/
theorem answer_fst_of_alike (h : g.Alike g') {r : DrawRequest α} (hr : r ≠ .seed) : (r.answer g).1 = (r.answer g').1 := by
  cases r with
  | seed => exact absurd rfl hr
  | shuffle items => exact congrArg Drawn.items (h.shuffleBelow _ items)
  | correlationId => exact congrArg (fun chars => Drawn.text (String.ofList chars)) (h.correlationDigits 32 0)
  | decline base => exact congrArg (Drawn.ofNumber Number.float) (h.declineAround base)
  | pickUnplaced | reset | illTyped => rfl
  | _ =>
    simp only [answer, Generator.unit, Generator.wholeBetween, Generator.doubleBetween, Generator.chance,
      Generator.pick, Generator.position, Generator.latency, Generator.scoreAround, Generator.approves, h.word]

theorem answer_snd_of_alike (h : g.Alike g') (r : DrawRequest α) : (r.answer g).2.Alike (r.answer g').2 := by
  cases hr : r.rewinds with
  | false =>
    rw [answer_snd r hr, answer_snd r hr]
    exact h.forward _
  | true =>
    cases r with
    | reset => exact h.reset
    | _ => cases hr

theorem answers_of_alike (h : g.Alike g') (requests : List (DrawRequest α)) {k : Nat} (hk : requests[k]? ≠ some .seed) :
    (answers requests g).1[k]? = (answers requests g').1[k]? := by
  induction requests generalizing g g' k with
  | nil => rfl
  | cons r rest ih =>
    cases k with
    | zero => exact congrArg some (answer_fst_of_alike h fun hr => hk (congrArg some hr))
    | succ k => exact ih (answer_snd_of_alike h r) hk

/-- What the stream of a seed is to those who draw from it. -/
structure Cycles (α : Type) (seed : Int) : Prop where
  begins : ((Generator.ofSeed seed).state.toNat : Int) = seed % 2 ^ 32
  steps : ∀ g : Generator, g.next.2.state = g.state + 0x6D2B79F5 ∧ g.next.1 = Generator.scramble g.next.2.state
  position : ∀ requests : List (DrawRequest α), (∀ r ∈ requests, r.rewinds = false) →
    ((answers requests (.ofSeed seed)).2.state.toNat : Int) = (seed + allowances requests * 0x6D2B79F5) % 2 ^ 32
  restarts : ∀ before after : List (DrawRequest α),
    answers (before ++ .reset :: after) (.ofSeed seed) =
      ((answers before (.ofSeed seed)).1 ++ .nothing :: (answers after (.ofSeed seed)).1,
        (answers after (.ofSeed seed)).2)
  congruent : ∀ seed', seed' % 2 ^ 32 = seed % 2 ^ 32 → ∀ (requests : List (DrawRequest α)) (k : Nat),
    requests[k]? ≠ some .seed → (answers requests (.ofSeed seed')).1[k]? = (answers requests (.ofSeed seed)).1[k]?
  distinct : ∀ drawn i j : Nat, i < j → j < 2 ^ 32 →
    (Generator.mk seed (drawn + i)).state ≠ (Generator.mk seed (drawn + j)).state
  everywhere : ∀ (drawn : Nat) (s : UInt32), ∃ i < 2 ^ 32, (Generator.mk seed (drawn + i)).state = s

/-- The stream of every seed is a position on one cycle through all states, which the kinds of the requests and the
lengths of what comes with them move, and no outcome. -/
theorem streams_cycle (α : Type) (seed : Int) : Cycles α seed where
  begins := by
    rw [Generator.toNat_state]
    simp [Generator.ofSeed]
  steps g := ⟨g.state_advance, rfl⟩
  position requests h := by
    rw [Generator.toNat_state, answers_snd h]
    simp [Generator.ofSeed, Generator.increment]
  restarts before after := by
    have hreset : (answers before (.ofSeed seed)).2.reset = .ofSeed seed :=
      congrArg Generator.ofSeed (answers_snd_seed before (.ofSeed seed))
    rw [answers_append, answers]
    simp only [answer, hreset]
  congruent seed' h requests k hk := by
    have halike : (Generator.ofSeed seed').Alike (.ofSeed seed) := ⟨h, rfl⟩
    exact answers_of_alike halike requests hk
  distinct _ _ _ hij hj := Generator.state_ne hij hj
  everywhere drawn s := Generator.exists_state ⟨seed, drawn⟩ s

/-- A score whose hundredth is no double is refused before a word is drawn for it. -/
theorem decline_of_too_large_score :
    let r : DrawRequest Nat := .decline (.int (10 ^ 400))
    r.allowance = 1 ∧ r.rewinds = false ∧ (answers [r] (.ofSeed 0)).1.length = 1 ∧
      ((answers [r] (.ofSeed 0)).2.state.toNat : Int) ≠ (0 + 1 * 0x6D2B79F5) % 2 ^ 32 := by
  decide +kernel

end DrawRequest

end WalletRouting
