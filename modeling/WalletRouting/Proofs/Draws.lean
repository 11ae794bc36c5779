import WalletRouting.Draws
import WalletRouting.Proofs.Number.Whole
import WalletRouting.Proofs.Outcome
import WalletRouting.Registry.Basic

/-! # What draws are not below

A drawn latency is the floor of its lower bound and something more that is not negative, so it is at least that bound.
-/
namespace WalletRouting
set_option autoImplicit false

open Double (Measures)

namespace Power

theorem measures_scale {n : Nat} (hn : n = scale) : Measures (Float.ofNat n) ((2 ^ 52 : Nat) * (2 : ℚ) ^ (76 : Int)) := by
  have hcanonical : Double.Canonical (2 ^ 52) 76 := ⟨by decide, by decide, Or.inl le_rfl⟩
  have hvalue : (n : ℚ) = (2 ^ 52 : Nat) * (2 : ℚ) ^ (76 : Int) := by
    have hscale : n = 2 ^ 52 * 2 ^ 76 := hn
    rw [hscale, Nat.cast_mul, Nat.cast_pow 2 76, Nat.cast_two, ← zpow_natCast]
    rfl
  apply hcanonical.measures (by decide) (by decide)
  rw [← hvalue]
  exact Double.place_ofNat n

theorem zero_le_ofUnit (k : Nat) : 0 ≤ ofUnit k := by
  unfold ofUnit
  generalize fractional (k * Nat.pow 2 96) 52 fourFifths = n
  generalize hscale : scale = d
  exact Double.zero_le_div (Double.zero_le_ofNat n) (measures_scale hscale.symm) (by positivity)

end Power

theorem Double.floor?_of_floor {x : Double} {k : Int} (h : Double.floor x = .ok k) : Double.floor? x = some k := by
  unfold Double.floor at h
  split at h
  · cases h
  · next hfloor _ =>
    cases h
    exact hfloor
  · cases h

theorem Double.floor_of_floor? {x : Double} {k : Int} (h : Double.floor? x = some k) : Double.floor x = .ok k := by
  unfold Double.floor
  rw [h]
  cases hx : Binary.ofFloat x with
  | nan =>
    unfold Double.floor? at h
    rw [hx] at h
    cases h
  | infinite | finite => rfl

theorem Number.double_int (n : Nat) :
    (Number.int n).double = if Double.finite (Float.ofNat n) then .ok (Float.ofNat n) else .error .tooLarge := by
  have hdouble : (Number.int n).toDouble? = if Double.finite (Float.ofNat n) then some (Float.ofNat n) else none := rfl
  unfold Number.double
  rw [hdouble]
  split_ifs <;> rfl

theorem Number.finite_of_double_int {n : Nat} (h : ∃ x, (Number.int n).double = .ok x) :
    Double.finite (Float.ofNat n) = true := by
  obtain ⟨x, hx⟩ := h
  rw [Number.double_int] at hx
  split_ifs at hx with hfinite
  exact hfinite

theorem Number.eq_of_double_int {n : Nat} {x : Double} (h : (Number.int n).double = .ok x) : x = Float.ofNat n := by
  rw [Number.double_int] at h
  split_ifs at h
  exact (Except.ok.inj h).symm

namespace Generator

/-- A word is divided without rounding. -/
theorem measures_unitOf (word : UInt32) : Measures (unitOf word) (word.toNat * (2 : ℚ) ^ (-32 : Int)) := by
  have hlt := word.toNat_lt
  have hwhole : Measures (4294967296.0 : Double) ((2 ^ 52 : Nat) * (2 : ℚ) ^ (-20 : Int)) :=
    Double.measures_of_place (x := 4294967296.0) rfl
  have hplace := (Double.measures_ofNat (n := word.toNat) (by omega)).place_div hwhole (by positivity)
  have hvalue : (word.toNat : ℚ) / ((2 ^ 52 : Nat) * (2 : ℚ) ^ (-20 : Int)) = word.toNat * (2 : ℚ) ^ (-32 : Int) := by
    rw [div_eq_mul_inv]
    norm_num
  rw [hvalue] at hplace
  exact Double.measures_of_spot_zpow (by omega) (by decide) (by decide) hplace

/-- What is added to a lower bound, and a half beside it, does not take the floor below that bound. -/
theorem le_floor_add {n : Nat} {x : Double} {k : Int} (hn : n < 2 ^ 53) (hx : 0 ≤ x)
    (h : Double.floor (Float.ofNat n + x + 0.5) = .ok k) : (n : Int) ≤ k := by
  have hsum := Double.le_add_right (Double.zero_le_ofNat n) hx
  have hhalf : (0 : Double) ≤ 0.5 := by decide
  have hle := Double.le_trans hsum (Double.le_add_right (Double.le_trans (Double.zero_le_ofNat n) hsum) hhalf)
  exact Double.le_of_floor? hn hle (Double.floor?_of_floor h)

variable {low high : Nat} {g : Generator} {k : Int}

theorem minus_int (h : low < high) : Number.minus (.int high) (.int low) = .ok (.int (high - low : Nat)) := by
  rw [Nat.cast_sub h.le]
  rfl

theorem le_latency (hlow : low < high) (hhigh : high < 2 ^ 53)
    (h : (g.latency (.int low) (.int high)).1 = .ok k) : (low : Int) ≤ k := by
  unfold latency at h
  dsimp only at h
  rw [minus_int hlow] at h
  obtain ⟨_, ⟨⟩, h⟩ := bind_eq_ok h
  obtain ⟨span, hspan, h⟩ := bind_eq_ok h
  obtain ⟨base, hbase, h⟩ := bind_eq_ok h
  rw [Number.eq_of_double_int hspan, Number.eq_of_double_int hbase] at h
  have hmeasures := Double.measures_ofNat (n := high - low) (by omega)
  have hpos : (0 : ℚ) < (high - low : Nat) := by exact_mod_cast Nat.sub_pos_of_lt hlow
  exact le_floor_add (by omega) (Double.zero_le_mul (Power.zero_le_ofUnit _) hmeasures hpos) h

end Generator

namespace Registry

variable {low high : Nat} {g : Generator} {k : Int}

theorem measures_fetchSpan {cached : Bool} {span : Number} {x : Double} (hlow : low < high) (hhigh : high < 2 ^ 53)
    (hspan : fetchSpan cached (.int low) (.int high) = .ok span) (h : span.double = .ok x) : ∃ q, Measures x q := by
  have hrange := Double.measures_ofNat (n := high - low) (by omega)
  unfold fetchSpan at hspan
  rw [Generator.minus_int hlow] at hspan
  cases cached with
  | false =>
    cases hspan
    rw [Number.eq_of_double_int h]
    exact ⟨_, hrange⟩
  | true =>
    have hpart : Measures (0.3 : Double) ((5404319552844595 : Nat) * (2 : ℚ) ^ (-54 : Int)) :=
      Double.measures_of_place (x := 0.3) rfl
    obtain ⟨_, ⟨⟩, hspan⟩ := bind_eq_ok hspan
    rw [if_pos rfl] at hspan
    obtain ⟨range, hdouble, hspan⟩ := bind_eq_ok hspan
    cases hspan
    cases h
    rw [Number.eq_of_double_int hdouble]
    have hplace := hrange.place_mul hpart
    have hle : Float.ofNat (high - low) * 0.3 ≤ Float.ofNat (high - low) := by
      refine Double.le_of_spot hplace hrange.place (by positivity) (mul_le_of_le_one_right (by positivity) ?_)
      norm_num
    exact Double.measures_of_le (Double.zero_le_of_spot hplace (by positivity)) hle hrange

theorem le_fetchLatency {cached : Bool} (hlow : low < high) (hhigh : high < 2 ^ 53)
    (h : (fetchLatency cached (.int low) (.int high) g).1 = .ok k) : (low : Int) ≤ k := by
  unfold fetchLatency at h
  cases hspan : fetchSpan cached (.int low) (.int high) with
  | error e =>
    rw [hspan] at h
    cases h
  | ok span =>
    rw [hspan] at h
    obtain ⟨base, hbase, h⟩ := bind_eq_ok h
    obtain ⟨range, hrange, h⟩ := bind_eq_ok h
    rw [Number.eq_of_double_int hbase] at h
    obtain ⟨q, hq⟩ := measures_fetchSpan hlow hhigh hspan hrange
    exact Generator.le_floor_add (by omega) ((Generator.measures_unitOf g.next.1).zero_le_mul hq) h

end Registry

end WalletRouting
