import WalletRouting.Proofs.Draws
import WalletRouting.Proofs.Number.Nearness

/-! # Where a drawn position is

A word is a part of `2 ^ 32`, and a position is the floor of that part of the length. The part is exact and the product is
rounded once. So the position is the exact one while the product has no more than 53 digits; beyond that it can be the
next one, and it never reaches the length, even if the length is rounded too. A whole number between bounds is drawn as so
many steps above the lower one, an element as the one at a position; both stay inside, as long as there is a double for
the length.
-/
namespace WalletRouting
set_option autoImplicit false

open Double (Measures Infinite place spot)

namespace Double

variable {x y : Double} {p q v : ℚ}

theorem Measures.floor?_mul_infinite (hp : Measures x p) (hy : Infinite y) : Double.floor? (x * y) = none := by
  rw [mul_eq_pack, hy]
  rcases hp.cases with ⟨s, hx, -⟩ | ⟨m, e, hm, hx, -⟩ <;> rw [hx]
  · unfold Double.floor?
    rw [ofFloat_eq]
    exact congrArg (fun reading => (readingOf reading).floor?) unpack_pack_notANumber
  · exact infinite_pack.floor?

theorem exponentOf_of_le (h : (2 : ℚ) ^ (-32 : Int) ≤ v) : -1074 < exponentOf v := by
  have hcanonical : Canonical (2 ^ 52) (-84) := ⟨by decide, by decide, Or.inl le_rfl⟩
  have hvalue : ((2 ^ 52 : Nat) : ℚ) * (2 : ℚ) ^ (-84 : Int) = (2 : ℚ) ^ (-32 : Int) := by norm_num
  have hexponent := hcanonical.exponentOf (by decide)
  rw [hvalue] at hexponent
  have hmono := exponentOf_mono (by positivity) h
  omega

/-- What is not below a small power of two grows by at most one part in `2 ^ 53` when it is rounded. -/
theorem Measures.le_of_rounded (hx : Measures x q) (hplace : Double.place x = some (Double.spot v))
    (h : (2 : ℚ) ^ (-32 : Int) ≤ v) : q ≤ v * (1 + 1 / 2 ^ 53) := by
  have hv : 0 < v := lt_of_lt_of_le (by positivity) h
  have herror := (abs_le.mp (hx.rounding_error hplace hv (exponentOf_of_le h))).2
  linarith

theorem exists_floor_of_between {m : Nat} (hplace : Double.place x = some (Double.spot v)) (hlow : (m : ℚ) ≤ v)
    (hhigh : v ≤ (m + 1 : Nat)) (hfew : m + 1 < 2 ^ 53) :
    ∃ k : Nat, Double.floor? x = some (k : Int) ∧ (k = m ∨ k = m + 1) := by
  have hbelow := le_of_spot (place_ofNat m) hplace (Nat.cast_nonneg m) hlow
  have habove := le_of_spot hplace (place_ofNat (m + 1)) ((Nat.cast_nonneg m).trans hlow) hhigh
  have hnext := measures_ofNat hfew
  obtain ⟨q, hq⟩ := measures_of_le (le_trans (zero_le_ofNat m) hbelow) habove hnext
  have hmq : (m : ℚ) ≤ q := ((measures_ofNat (by omega)).le_iff hq).mp hbelow
  have hqm : q ≤ (m + 1 : Nat) := (hq.le_iff hnext).mp habove
  have hfloor : (m : Int) ≤ ⌊q⌋ := Int.le_floor.mpr (by exact_mod_cast hmq)
  have hfloor' : ⌊q⌋ ≤ (m + 1 : Nat) := Int.floor_le_iff.mpr (hqm.trans_lt (by push_cast; linarith))
  refine ⟨⌊q⌋.toNat, ?_, by omega⟩
  rw [hq.floor?, Int.toNat_of_nonneg (by omega)]

theorem finite_ofNat {n : Nat} (h : n ≤ 2 ^ 53) : Double.finite (Float.ofNat n) = true := by
  obtain ⟨whole, hwhole⟩ := measures_of_finite (zero_le_ofNat (2 ^ 53)) (by decide +kernel)
  have hle : Float.ofNat n ≤ Float.ofNat (2 ^ 53) :=
    le_of_spot (place_ofNat n) (place_ofNat (2 ^ 53)) (Nat.cast_nonneg n) (by exact_mod_cast h)
  obtain ⟨q, hq⟩ := measures_of_le (zero_le_ofNat n) hle hwhole
  exact hq.finite

end Double

namespace Generator

/-- The word that is drawn behind so many others. -/
def wordAt (g : Generator) (k : Nat) : UInt32 := (Generator.mk g.seed (g.drawn + k)).next.1

theorem wordAt_advance (g : Generator) (k : Nat) : g.advance.wordAt k = g.wordAt (k + 1) := by
  unfold wordAt advance
  rw [Nat.add_right_comm, Nat.add_assoc]

/-- What a word makes of a length. -/
structure Turn (word n i : Nat) : Prop where
  below : 0 < n → i < n
  rounded : n < 2 ^ 53 → ∃ x, place x = some (spot ((word * n : Nat) / (2 ^ 32 : Nat))) ∧
    Double.floor? x = some (i : Int)
  near : n < 2 ^ 53 → i = word * n / 2 ^ 32 ∨ i = word * n / 2 ^ 32 + 1
  exact : n ≤ 2 ^ 21 → i = word * n / 2 ^ 32

variable (word : UInt32) {n : Nat}

theorem part_eq (n : Nat) :
    (word.toNat : ℚ) * (2 : ℚ) ^ (-32 : Int) * n = (word.toNat * n : Nat) * (2 : ℚ) ^ (-32 : Int) := by
  push_cast
  ring

theorem part_eq_div (k : Nat) : (k : ℚ) * (2 : ℚ) ^ (-32 : Int) = k / (2 ^ 32 : Nat) := by
  rw [div_eq_mul_inv]
  norm_num

theorem place_part (hn : n < 2 ^ 53) :
    place (unitOf word * Float.ofNat n) = some (spot ((word.toNat * n : Nat) * (2 : ℚ) ^ (-32 : Int))) := by
  rw [← part_eq]
  exact (measures_unitOf word).place_mul (Double.measures_ofNat hn)

theorem part_le : (word.toNat : ℚ) * (2 : ℚ) ^ (-32 : Int) ≤ 1 - (2 : ℚ) ^ (-32 : Int) := by
  have hlt : (word.toNat : ℚ) + 1 ≤ (2 : ℚ) ^ (32 : Int) := by exact_mod_cast word.toNat_lt
  have hunit : (2 : ℚ) ^ (32 : Int) * (2 : ℚ) ^ (-32 : Int) = 1 := by norm_num
  have hmul := mul_le_mul_of_nonneg_right hlt (show (0 : ℚ) ≤ (2 : ℚ) ^ (-32 : Int) by positivity)
  rw [hunit] at hmul
  linarith

/-- The rounded product has a floor, which is that of the exact one or the next integer. -/
theorem exists_floor_part (hn : n < 2 ^ 53) : ∃ k : Nat, Double.floor? (unitOf word * Float.ofNat n) = some (k : Int) ∧
    (k = word.toNat * n / 2 ^ 32 ∨ k = word.toNat * n / 2 ^ 32 + 1) := by
  apply Double.exists_floor_of_between (place_part word hn)
  · rw [part_eq_div]
    exact Nat.cast_div_le
  · rw [part_eq_div, div_le_iff₀ (by positivity)]
    exact_mod_cast (Nat.lt_mul_of_div_lt (Nat.lt_succ_self _) (by decide : 0 < 2 ^ 32)).le
  · rcases Nat.eq_zero_or_pos n with rfl | hpos
    · norm_num
    · have hlt : word.toNat * n / 2 ^ 32 < n :=
        Nat.div_lt_of_lt_mul (Nat.mul_lt_mul_of_pos_right word.toNat_lt hpos)
      omega

theorem floor_part_exact (hn : n ≤ 2 ^ 21) :
    Double.floor? (unitOf word * Float.ofNat n) = some ((word.toNat * n / 2 ^ 32 : Nat) : Int) := by
  have hword := word.toNat_lt
  have hfew : word.toNat * n < 2 ^ 53 :=
    calc word.toNat * n ≤ word.toNat * 2 ^ 21 := Nat.mul_le_mul_left _ hn
      _ < 2 ^ 53 := by omega
  have hmeasures := Double.measures_of_spot_zpow hfew (by decide) (by decide)
    (place_part word (show n < 2 ^ 53 by omega))
  rw [hmeasures.floor?, part_eq_div, Rat.floor_natCast_div_natCast]
  rfl

/-- A part of a length that is rounded is a number, greater by at most one part in `2 ^ 53`. -/
theorem exists_part {length : ℚ} (hlength : Measures (Float.ofNat n) length) (hpos : 1 ≤ length) :
    ∃ q, Measures (unitOf word * Float.ofNat n) q ∧
      q ≤ word.toNat * (2 : ℚ) ^ (-32 : Int) * length * (1 + 1 / 2 ^ 53) := by
  have hunit := measures_unitOf word
  have hplace := hunit.place_mul hlength
  have hle : unitOf word * Float.ofNat n ≤ Float.ofNat n := by
    refine Double.le_of_spot hplace hlength.place (mul_nonneg hunit.nonneg hlength.nonneg) ?_
    exact mul_le_of_le_one_left hlength.nonneg ((part_le word).trans (by norm_num))
  obtain ⟨q, hq⟩ := Double.measures_of_le (hunit.zero_le_mul hlength) hle hlength
  refine ⟨q, hq, ?_⟩
  rcases Nat.eq_zero_or_pos word.toNat with hzero | hword
  · rw [hzero, Nat.cast_zero, zero_mul, zero_mul] at hplace ⊢
    rw [zero_mul, hq.eq_of_place Double.measures_zero (by rw [hplace, Double.place_zero, Double.spot_zero])]
  · have hone : (1 : ℚ) ≤ word.toNat := by exact_mod_cast hword
    have hleast : (2 : ℚ) ^ (-32 : Int) ≤ word.toNat * (2 : ℚ) ^ (-32 : Int) * length :=
      calc (2 : ℚ) ^ (-32 : Int) ≤ word.toNat * (2 : ℚ) ^ (-32 : Int) := le_mul_of_one_le_left (by positivity) hone
        _ ≤ word.toNat * (2 : ℚ) ^ (-32 : Int) * length := le_mul_of_one_le_right (by positivity) hpos
    exact hq.le_of_rounded hplace hleast

theorem one_le_length {length : ℚ} (hn : 0 < n) (hlength : Measures (Float.ofNat n) length) : 1 ≤ length := by
  have hone : Float.ofNat 1 ≤ Float.ofNat n :=
    Double.le_of_spot (Double.place_ofNat 1) (Double.place_ofNat n) (Nat.cast_nonneg 1) (by exact_mod_cast hn)
  exact_mod_cast ((Double.measures_ofNat (by decide)).le_iff hlength).mp hone

theorem floor_part_lt (hn : 0 < n) {k : Int} (h : Double.floor? (unitOf word * Float.ofNat n) = some k) : k < n := by
  have hcast : (1 : ℚ) ≤ n := by exact_mod_cast hn
  rcases Double.infinite_or_measures (Double.zero_le_ofNat n) with hinfinite | ⟨length, hlength⟩
  · cases ((measures_unitOf word).floor?_mul_infinite hinfinite).symm.trans h
  have hpos := one_le_length hn hlength
  have hgrown := hlength.le_of_rounded (Double.place_ofNat n) (le_trans (by norm_num) hcast)
  obtain ⟨q, hq, hle⟩ := exists_part word hlength hpos
  cases hq.floor?.symm.trans h
  -- The length and the product are each rounded up by at most one part in `2 ^ 53`; the word is `2 ^ (-32)` short of one.
  have hlt : q < n :=
    calc q ≤ word.toNat * (2 : ℚ) ^ (-32 : Int) * length * (1 + 1 / 2 ^ 53) := hle
      _ ≤ (1 - (2 : ℚ) ^ (-32 : Int)) * (n * (1 + 1 / 2 ^ 53)) * (1 + 1 / 2 ^ 53) := by
        gcongr
        exact part_le word
      _ = n * ((1 - (2 : ℚ) ^ (-32 : Int)) * (1 + 1 / 2 ^ 53) * (1 + 1 / 2 ^ 53)) := by ring
      _ < n := mul_lt_of_lt_one_right (by positivity) (by norm_num)
  exact Int.floor_lt.mpr (by exact_mod_cast hlt)

theorem position_fst (g : Generator) (n : Nat) :
    (g.position n).1 = ((Double.floor? (unitOf g.next.1 * Float.ofNat n)).getD 0).toNat := rfl

/-- A position lies below the length; it is the floor of the rounded part, which is mostly that of the part. -/
theorem position_turn (g : Generator) (n : Nat) : Turn g.next.1.toNat n (g.position n).1 where
  below hn := by
    rw [position_fst]
    cases h : Double.floor? (unitOf g.next.1 * Float.ofNat n) with
    | none => exact hn
    | some k =>
      have hlt := floor_part_lt g.next.1 hn h
      simp only [Option.getD_some]
      omega
  rounded hn := by
    obtain ⟨k, hfloor, -⟩ := exists_floor_part g.next.1 hn
    refine ⟨unitOf g.next.1 * Float.ofNat n, ?_, ?_⟩
    · rw [place_part g.next.1 hn, part_eq_div]
    · rw [position_fst, hfloor]
      rfl
  near hn := by
    obtain ⟨k, hfloor, hnear⟩ := exists_floor_part g.next.1 hn
    rw [position_fst, hfloor]
    exact hnear
  exact hn := by
    rw [position_fst, floor_part_exact g.next.1 hn]
    rfl

/-! ## Bounds -/

variable {g : Generator} {low high : Int} {i : Nat}

theorem exists_floor_part_lt (word : UInt32) (hn : 0 < n) (hfinite : Double.finite (Float.ofNat n) = true) :
    ∃ i < n, Double.floor? (unitOf word * Float.ofNat n) = some (i : Int) := by
  obtain ⟨length, hlength⟩ := Double.measures_of_finite (Double.zero_le_ofNat n) hfinite
  obtain ⟨q, hq, -⟩ := exists_part word hlength (one_le_length hn hlength)
  have hlt := floor_part_lt word hn hq.floor?
  have hnonneg : 0 ≤ ⌊q⌋ := Int.floor_nonneg.mpr hq.nonneg
  refine ⟨⌊q⌋.toNat, by omega, ?_⟩
  rw [hq.floor?, Int.toNat_of_nonneg hnonneg]

theorem wholeBetween_of_floor (hspan : high - low + 1 = n) (hfinite : Double.finite (Float.ofNat n) = true)
    (hfloor : Double.floor? (unitOf g.next.1 * Float.ofNat n) = some (i : Int)) :
    g.wholeBetween (.int low) (.int high) = (.ok (.int (low + i)), g.next.2) := by
  have hwhole : g.wholeBetween (.int low) (.int high) =
      ((Number.int (high - low + 1)).double >>= fun span => Double.floor (unitOf g.next.1 * span) >>= fun steps =>
        (Number.int low).plus (.int steps), g.next.2) := rfl
  rw [hwhole, hspan, Number.double_int, if_pos hfinite]
  change (Double.floor (unitOf g.next.1 * Float.ofNat n) >>= fun steps => (Number.int low).plus (.int steps), g.next.2) = _
  rw [Double.floor_of_floor? hfloor]
  rfl

theorem pick_of_floor {α : Type} {items : List α} (hi : i < items.length)
    (hfloor : Double.floor? (unitOf g.next.1 * Float.ofNat items.length) = some (i : Int)) :
    g.pick items = (some items[i], g.next.2) := by
  have hposition : (g.position items.length).1 = i := by
    rw [position_fst, hfloor]
    rfl
  have hpick : g.pick items = (items[(g.position items.length).1]?, g.next.2) := rfl
  rw [hpick, hposition, List.getElem?_eq_getElem hi]

/-- What the next word makes of bounds and of lengths. -/
structure Inside (α : Type) (g : Generator) : Prop where
  whole : ∀ low high : Int, low ≤ high → (∃ span, (Number.int (high - low + 1)).double = .ok span) →
    ∃ n : Int, g.wholeBetween (.int low) (.int high) = (.ok (.int n), g.next.2) ∧ low ≤ n ∧ n ≤ high
  exact : ∀ low high : Int, low ≤ high → high - low + 1 ≤ 2 ^ 21 →
    g.wholeBetween (.int low) (.int high) =
      (.ok (.int (low + g.next.1.toNat * (high - low + 1) / 2 ^ 32)), g.next.2)
  pick : ∀ items : List α, items ≠ [] → items.length ≤ 2 ^ 53 → ∃ i, ∃ h : i < items.length,
    Double.floor? (g.unit.1 * Float.ofNat items.length) = some (i : Int) ∧ g.pick items = (some items[i], g.next.2)

/-- Whole numbers are drawn within their bounds, and elements within their list. -/
theorem draws_inside (α : Type) (g : Generator) : Inside α g where
  whole low high h hspan := by
    obtain ⟨n, hn⟩ := Int.eq_ofNat_of_zero_le (show 0 ≤ high - low + 1 by omega)
    rw [hn] at hspan
    have hfinite := Number.finite_of_double_int hspan
    obtain ⟨i, hi, hfloor⟩ := exists_floor_part_lt g.next.1 (show 0 < n by omega) hfinite
    exact ⟨low + i, wholeBetween_of_floor hn hfinite hfloor, by omega, by omega⟩
  exact low high h hfew := by
    obtain ⟨n, hn⟩ := Int.eq_ofNat_of_zero_le (show 0 ≤ high - low + 1 by omega)
    have hfloor := floor_part_exact g.next.1 (show n ≤ 2 ^ 21 by omega)
    rw [wholeBetween_of_floor hn (Double.finite_ofNat (by omega)) hfloor, hn]
    norm_cast
  pick items hitems hlength := by
    have hpos := List.length_pos_of_ne_nil hitems
    obtain ⟨i, hi, hfloor⟩ := exists_floor_part_lt g.next.1 hpos (Double.finite_ofNat hlength)
    exact ⟨i, hi, hfloor, pick_of_floor hi hfloor⟩

/-- The largest word, and a span between two doubles of which the upper one is nearer. -/
theorem draws_inside_of_rounded_span :
    let g := Generator.ofSeed 3543772583
    let low : Int := -5
    let high : Int := 2 ^ 200 + 2 ^ 148 - 7
    g.next.1.toNat = 2 ^ 32 - 1 ∧ (∃ span, (Number.int (high - low + 1)).double = .ok span) ∧
      ∃ n : Int, g.wholeBetween (.int low) (.int high) = (.ok (.int n), g.next.2) ∧ low ≤ n ∧ n ≤ high := by
  intro g low high
  have hspan : high - low + 1 = (2 ^ 200 + 2 ^ 148 - 1 : Nat) := by norm_num [low, high]
  have hdouble : ∃ span, (Number.int (high - low + 1)).double = .ok span := by
    rw [hspan, Number.double_int, if_pos (by decide +kernel)]
    exact ⟨_, rfl⟩
  exact ⟨by decide +kernel, hdouble, (draws_inside Nat g).whole low high (by norm_num [low, high]) hdouble⟩

end Generator

end WalletRouting
