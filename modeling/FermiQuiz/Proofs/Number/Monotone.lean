import Mathlib
import FermiQuiz.Proofs.Number.Arithmetic

/-!
# Operations that respect the order

Rounding respects the order, so products, quotients and sums of doubles that are not negative grow
with their operands, whatever is rounded off. So do `lesser`, also beyond the finite doubles, and
`clampUnit`.
-/

namespace FermiQuiz.Number

open Float.Model (UnpackedFloat Format)
open Float.Model.UnpackedFloat

/-- The doubles stand in this order, none is negative or `-0`, and the last one is finite. -/
structure Climbs (x y top : Float) : Prop where
  lower : x.toBits.toNat ≤ y.toBits.toNat
  upper : y.toBits.toNat ≤ top.toBits.toNat
  finite : top.toBits.toNat < infinityBits

section

variable {x y : Float}

theorem exists_parts_of_bits_lt (h : x.toBits.toNat < infinityBits) :
    ∃ s e, Parts.ofFloat x = .finite false s e := by
  have parts := Parts.ofFloat_eq x
  obtain ⟨ux, -⟩ | ⟨s, e, hs, ux, -⟩ | ⟨-, bits⟩ := unpack_of_bits_le h.le
  · exact ⟨0, -1074, parts.trans (by rw [ux]; rfl)⟩
  · exact ⟨s, e, parts.trans (by rw [ux]; rfl)⟩
  · omega

theorem bits_lt_of_isPositive (h : isPositive x = true) : x.toBits.toNat < infinityBits := by
  obtain ⟨s, e, parts, -⟩ := isPositive_iff.mp h
  rw [toNat_toBits_eq_bitsOf parts]
  exact bitsOf_lt_infinityBits (canonical_of_finite parts) (exponent_le_of_finite parts)

theorem unpack_of_infinite (h : x.toBits.toNat = infinityBits) :
    x.toModel.unpack = .infinity .positive := by
  obtain ⟨-, bits⟩ | ⟨_, _, _, -, -, bits, small⟩ | ⟨ux, -⟩ := unpack_of_bits_le h.le
  · rw [h] at bits
    cases bits
  · omega
  · exact ux

theorem value_le_of_bits_le (le : x.toBits.toNat ≤ y.toBits.toNat)
    (finite : y.toBits.toNat < infinityBits) : value x ≤ value y := by
  obtain ⟨s, e, hx⟩ := exists_parts_of_bits_lt (le.trans_lt finite)
  obtain ⟨s', e', hy⟩ := exists_parts_of_bits_lt finite
  rw [← le_iff_value_le hx hy, le_iff_bits_le (le.trans finite.le) finite.le]
  exact le

theorem isNearest_value (h : x.toBits.toNat < infinityBits) : IsNearest x false (value x) := by
  obtain ⟨s, e, parts⟩ := exists_parts_of_bits_lt h
  have bits := toNat_toBits_of_finite parts
  rw [signBit_false, zero_add] at bits
  rw [value_eq parts]
  refine ⟨s, e, (canonical_of_finite parts).roundsTo, ?_⟩
  rw [signBit_false, zero_add, bits, min_eq_left (bits ▸ h.le)]

theorem isNearest_mul_of_bits_lt (hx : x.toBits.toNat < infinityBits)
    (hy : y.toBits.toNat < infinityBits) : IsNearest (x * y) false (value x * value y) := by
  obtain ⟨s, e, parts⟩ := exists_parts_of_bits_lt hx
  obtain ⟨s', e', parts'⟩ := exists_parts_of_bits_lt hy
  have product := isNearest_mul parts parts'
  rwa [bne_self_eq_false, ← value_eq parts, ← value_eq parts'] at product

theorem isNearest_add_of_bits_lt (hx : x.toBits.toNat < infinityBits)
    (hy : y.toBits.toNat < infinityBits) : IsNearest (x + y) false (value x + value y) := by
  obtain ⟨s, e, parts⟩ := exists_parts_of_bits_lt hx
  obtain ⟨s', e', parts'⟩ := exists_parts_of_bits_lt hy
  exact isNearest_add parts parts'

theorem value_nonneg_of_bits_lt (h : x.toBits.toNat < infinityBits) : 0 ≤ value x := by
  obtain ⟨s, e, parts⟩ := exists_parts_of_bits_lt h
  rw [value_eq parts]
  positivity

end

/-! ### Products and sums -/

section

variable {x y top x' y' top' c : Float}

theorem bits_mul_le (le : x.toBits.toNat ≤ y.toBits.toNat) (hy : y.toBits.toNat < infinityBits)
    (hc : c.toBits.toNat < infinityBits) : (c * x).toBits.toNat ≤ (c * y).toBits.toNat := by
  refine (isNearest_mul_of_bits_lt hc (le.trans_lt hy)).bits_mono
    (isNearest_mul_of_bits_lt hc hy) ?_
  exact mul_le_mul_of_nonneg_left (value_le_of_bits_le le hy) (value_nonneg_of_bits_lt hc)

theorem bits_add_le (le : x.toBits.toNat ≤ y.toBits.toNat) (hy : y.toBits.toNat < infinityBits)
    (le' : x'.toBits.toNat ≤ y'.toBits.toNat) (hy' : y'.toBits.toNat < infinityBits) :
    (x + x').toBits.toNat ≤ (y + y').toBits.toNat := by
  refine (isNearest_add_of_bits_lt (le.trans_lt hy) (le'.trans_lt hy')).bits_mono
    (isNearest_add_of_bits_lt hy hy') ?_
  exact add_le_add (value_le_of_bits_le le hy) (value_le_of_bits_le le' hy')

namespace Climbs

theorem mul (h : Climbs x y top) (hc : c.toBits.toNat < infinityBits)
    (finite : (c * top).toBits.toNat < infinityBits) : Climbs (c * x) (c * y) (c * top) :=
  ⟨bits_mul_le h.lower (h.upper.trans_lt h.finite) hc, bits_mul_le h.upper h.finite hc, finite⟩

theorem add (h : Climbs x y top) (h' : Climbs x' y' top')
    (finite : (top + top').toBits.toNat < infinityBits) :
    Climbs (x + x') (y + y') (top + top') :=
  ⟨bits_add_le h.lower (h.upper.trans_lt h.finite) h'.lower (h'.upper.trans_lt h'.finite),
    bits_add_le h.upper h.finite h'.upper h'.finite, finite⟩

theorem le (h : Climbs x y top) : x ≤ y := by
  have hy := h.upper.trans h.finite.le
  exact (le_iff_bits_le (h.lower.trans hy) hy).mpr h.lower

theorem zero_le (h : Climbs x y top) : 0.0 ≤ x :=
  (le_iff_bits_le (by decide) (h.lower.trans (h.upper.trans h.finite.le))).mpr (Nat.zero_le _)

end Climbs

end

/-! ### Quotients -/

section

variable {x y c : Float} (hc : isPositive c = true)

include hc

theorem isNearest_div_of_bits_lt (hx : x.toBits.toNat < infinityBits) :
    IsNearest (x / c) false (value x / value c) := by
  obtain ⟨s, e, parts⟩ := exists_parts_of_bits_lt hx
  obtain ⟨s', e', parts', positive⟩ := isPositive_iff.mp hc
  have quotient := isNearest_div parts parts' positive
  rwa [bne_self_eq_false, ← value_eq parts, ← value_eq parts'] at quotient

theorem bits_div_of_infinite (hx : x.toBits.toNat = infinityBits) :
    (x / c).toBits.toNat = infinityBits := by
  obtain ⟨s, e, hs, uc⟩ := unpack_of_isPositive hc
  change (UnpackedFloat.pack Format.binary64 (UnpackedFloat.div Format.binary64
    x.toModel.unpack c.toModel.unpack)).toNat = _
  rw [unpack_of_infinite hx, uc, UnpackedFloat.div, UnpackedFloat.pack, toNat_packedInfinity]
  rfl

theorem bits_div_le_infinityBits (hx : x.toBits.toNat ≤ infinityBits) :
    (x / c).toBits.toNat ≤ infinityBits := by
  rcases hx.lt_or_eq with finite | infinite
  · exact (isNearest_div_of_bits_lt hc finite).bits_le
  · exact (bits_div_of_infinite hc infinite).le

theorem bits_div_le (le : x.toBits.toNat ≤ y.toBits.toNat) (hy : y.toBits.toNat ≤ infinityBits) :
    (x / c).toBits.toNat ≤ (y / c).toBits.toNat := by
  rcases hy.lt_or_eq with finite | infinite
  · refine (isNearest_div_of_bits_lt hc (le.trans_lt finite)).bits_mono
      (isNearest_div_of_bits_lt hc finite) ?_
    exact div_le_div_of_nonneg_right (value_le_of_bits_le le finite) (value_pos hc).le
  · rw [bits_div_of_infinite hc infinite]
    exact bits_div_le_infinityBits hc (le.trans hy)

omit hc in
theorem isNaN_div (nan : x.isNaN = true) : (x / c).isNaN = true := by
  change (Float.ofModel (Float.Model.pack (UnpackedFloat.div Format.binary64 x.toModel.unpack
    c.toModel.unpack))).isNaN = true
  rw [isNaN_iff.mp nan, UnpackedFloat.div]
  rfl

end

/-! ### Bounds -/

theorem bits_lesser {x y : Float} (hx : x.toBits.toNat ≤ infinityBits)
    (hy : y.toBits.toNat ≤ infinityBits) :
    (lesser x y).toBits.toNat = min x.toBits.toNat y.toBits.toNat := by
  rw [lesser, if_neg (Bool.eq_false_iff.mp (isNaN_of_bits_le hx))]
  split
  · next less =>
    rw [lt_iff_bits_lt hy hx] at less
    omega
  · next above =>
    rw [lt_iff_bits_lt hy hx] at above
    omega

theorem bits_abs_le {x : Float} (number : x.isNaN = false) :
    x.abs.toBits.toNat ≤ infinityBits := by
  obtain ⟨s, ux, -⟩ | ⟨s, ux, -⟩ | ⟨s, m, e, hm, ux, canonical, -⟩ := unpack_of_isNaN_false number
  all_goals
    change (pack Format.binary64 (UnpackedFloat.abs x.toModel.unpack)).toNat ≤ _
    rw [ux, UnpackedFloat.abs]
  · rw [UnpackedFloat.pack, toNat_packedInfinity]
    exact (zero_add _).le
  · rw [toNat_pack_zero]
    exact Nat.zero_le _
  · rw [toNat_pack_finite _ _ canonical, isNegative, signBit_false, zero_add]
    exact min_le_right _ _

theorem isNaN_abs (x : Float) : x.abs.isNaN = x.isNaN := by
  cases nan : x.isNaN with
  | true =>
    change (Float.ofModel (Float.Model.pack (UnpackedFloat.abs x.toModel.unpack))).isNaN = true
    rw [isNaN_iff.mp nan, UnpackedFloat.abs]
    rfl
  | false => exact isNaN_of_bits_le (bits_abs_le nan)

theorem rank_clampUnit {x : Float} (number : x.isNaN = false) :
    (clampUnit x).isNaN = false ∧ rank (clampUnit x) = max 0 (min (rank x) (rank 1.0)) := by
  have zero : rank 0.0 = 0 := by decide
  have one : 0 < rank 1.0 := by decide
  have zero_number : (0.0 : Float).isNaN = false := by decide
  have one_number : (1.0 : Float).isNaN = false := by decide
  unfold clampUnit
  simp only [lt_iff_rank_lt number zero_number, zero]
  split
  · rw [if_neg (by decide)]
    exact ⟨zero_number, by omega⟩
  · simp only [lt_iff_rank_lt one_number number]
    split
    · exact ⟨one_number, by omega⟩
    · exact ⟨number, by omega⟩

theorem exists_parts_of_rank {x : Float} (number : x.isNaN = false)
    (lower : -(infinityBits : ℤ) < rank x) (upper : rank x < infinityBits) :
    ∃ negative s e, Parts.ofFloat x = .finite negative s e := by
  have parts := Parts.ofFloat_eq x
  obtain ⟨s, -, rank_eq⟩ | ⟨s, ux, -⟩ | ⟨s, m, e, hm, ux, -⟩ := unpack_of_isNaN_false number
  · split at rank_eq <;> omega
  · exact ⟨_, _, _, parts.trans (by rw [ux]; rfl)⟩
  · exact ⟨_, _, _, parts.trans (by rw [ux]; rfl)⟩

theorem exists_parts_clampUnit {x : Float} (number : x.isNaN = false) :
    ∃ negative s e, Parts.ofFloat (clampUnit x) = .finite negative s e := by
  obtain ⟨number', rank_eq⟩ := rank_clampUnit number
  have one : rank 1.0 < infinityBits := by decide
  have top : 0 < infinityBits := by decide
  exact exists_parts_of_rank number' (by omega) (by omega)

theorem value_clampUnit_le_one {x : Float} (number : x.isNaN = false) :
    value (clampUnit x) ≤ value 1.0 := by
  obtain ⟨negative, s, e, parts⟩ := exists_parts_clampUnit number
  rw [← rank_le_iff_value_le parts parts_one, (rank_clampUnit number).2]
  have one : 0 ≤ rank 1.0 := by decide
  exact max_le one (min_le_right _ _)

theorem value_clampUnit_nonneg {x : Float} (number : x.isNaN = false) :
    0 ≤ value (clampUnit x) := by
  obtain ⟨negative, s, e, parts⟩ := exists_parts_clampUnit number
  have zero : Parts.ofFloat 0.0 = .finite false 0 (-1074) := by decide +kernel
  have value_zero : value 0.0 = 0 := by rw [value_eq zero, Nat.cast_zero, zero_mul]
  have rank_zero : rank 0.0 = 0 := by decide
  rw [← value_zero, ← rank_le_iff_value_le zero parts, (rank_clampUnit number).2, rank_zero]
  omega

theorem value_clampUnit_mono {x y : Float} (le : x ≤ y) :
    value (clampUnit x) ≤ value (clampUnit y) := by
  obtain ⟨hx, hy⟩ := isNaN_of_le le
  obtain ⟨_, _, _, parts⟩ := exists_parts_clampUnit hx
  obtain ⟨_, _, _, parts'⟩ := exists_parts_clampUnit hy
  rw [← rank_le_iff_value_le parts parts', (rank_clampUnit hx).2, (rank_clampUnit hy).2]
  rw [le_iff_rank_le hx hy] at le
  omega

theorem isNearest_one_sub_clampUnit {x : Float} (number : x.isNaN = false) :
    IsNearest (1.0 - clampUnit x) false (value 1.0 - value (clampUnit x)) := by
  obtain ⟨_, _, _, parts⟩ := exists_parts_clampUnit number
  obtain ⟨negative, nearest, sign⟩ := isNearest_sub parts_one parts
  have le := value_clampUnit_le_one number
  rwa [sign rfl, decide_eq_false le.not_gt, abs_of_nonneg (sub_nonneg.mpr le)] at nearest

/-- What a double within 0 and 1 lacks to 1 falls as the double grows. -/
theorem climbs_one_sub_clampUnit {x y : Float} (le : x ≤ y) :
    Climbs (1.0 - clampUnit y) (1.0 - clampUnit x) 1.0 := by
  obtain ⟨hx, hy⟩ := isNaN_of_le le
  have least := isNearest_one_sub_clampUnit hy
  have most := isNearest_one_sub_clampUnit hx
  refine ⟨least.bits_mono most ?_, most.bits_mono (isNearest_value (by decide)) ?_, by decide⟩
  · exact sub_le_sub_left (value_clampUnit_mono le) _
  · exact sub_le_self _ (value_clampUnit_nonneg hx)

end FermiQuiz.Number
