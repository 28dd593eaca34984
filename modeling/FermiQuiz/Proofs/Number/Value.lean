import Mathlib
import FermiQuiz.Number.Nearest
import FermiQuiz.Number.Rounding

/-!
# The values of doubles

A finite double stands for the rational number `value`. The parts that `Parts.ofFloat` reads off
the bits are those of core's model of doubles. Apart from NaNs, doubles are ordered by `rank`, which
their bits give; finite ones are ordered as their values, too.
-/

namespace FermiQuiz.Number

open Float.Model (UnpackedFloat Format)
open Float.Model.UnpackedFloat

/-! ### Parts and core's model -/

def isNegative : Sign → Bool
  | .negative => true
  | .positive => false

/-- The parts of a double as core's model unpacks it. -/
def Parts.ofUnpacked : UnpackedFloat → Parts
  | .notANumber => .nan
  | .infinity s => .infinite (isNegative s)
  | .zero s => .finite (isNegative s) 0 (-1074)
  | .finite s m e _ => .finite (isNegative s) m e

theorem toNat_unpackMantissa (b : BitVec 64) :
    (@unpackMantissa Format.binary64 b).toNat = b.toNat % 2 ^ 52 := by
  simp [unpackMantissa]

theorem toNat_unpackExponent (b : BitVec 64) :
    (@unpackExponent Format.binary64 b).toNat = b.toNat / 2 ^ 52 % 2 ^ 11 := by
  simp [unpackExponent, Nat.shiftRight_eq_div_pow]

theorem toNat_unpackSign (b : BitVec 64) :
    (@unpackSign Format.binary64 b).toNat = b.toNat / 2 ^ 63 := by
  have bound : b.toNat < 2 ^ 64 := b.isLt
  simp [unpackSign, Nat.shiftRight_eq_div_pow]
  omega

theorem isNegative_ofBitVec (b : BitVec 1) :
    isNegative (Sign.ofBitVec b) = decide (b.toNat = 1) := by
  revert b; decide

theorem toNat_implicitBit (b : BitVec 52) : (1#1 ++ b).toNat = 2 ^ 52 + b.toNat := by
  rw [BitVec.toNat_append, ← Nat.shiftLeft_add_eq_or_of_lt b.isLt]
  simp [Nat.shiftLeft_eq]

theorem Parts.ofFloat_eq (x : Float) : Parts.ofFloat x = Parts.ofUnpacked x.toModel.unpack := by
  have mantissa := toNat_unpackMantissa x.toBits.toBitVec
  have exponent := toNat_unpackExponent x.toBits.toBitVec
  have negative : isNegative (Sign.ofBitVec (@unpackSign Format.binary64 x.toBits.toBitVec)) =
      decide (Nat.pow 2 63 ≤ x.toBits.toNat) := by
    have bound := x.toBits.toNat_lt
    rw [isNegative_ofBitVec, toNat_unpackSign]
    simp only [decide_eq_decide, UInt64.toNat_toBitVec, Nat.pow_eq]
    omega
  have special : @unpackExponent Format.binary64 x.toBits.toBitVec = -1#_ ↔
      x.toBits.toNat / Nat.pow 2 52 % Nat.pow 2 11 = 2047 := by
    rw [← BitVec.toNat_inj, exponent]; rfl
  have small : @unpackExponent Format.binary64 x.toBits.toBitVec = 0#_ ↔
      x.toBits.toNat / Nat.pow 2 52 % Nat.pow 2 11 = 0 := by
    rw [← BitVec.toNat_inj, exponent]; rfl
  have empty : @unpackMantissa Format.binary64 x.toBits.toBitVec = 0#_ ↔
      x.toBits.toNat % Nat.pow 2 52 = 0 := by
    rw [← BitVec.toNat_inj, mantissa]; rfl
  change _ = Parts.ofUnpacked (UnpackedFloat.unpack Format.binary64 x.toBits.toBitVec)
  unfold UnpackedFloat.unpack Parts.ofFloat Parts.ofBits
  simp only [special, small, empty]
  split
  · split
    · rw [ofUnpacked, negative]
    · rfl
  · split
    · next zero =>
      have zero' : (@unpackExponent Format.binary64 x.toBits.toBitVec).toNat = 0 :=
        exponent.trans zero
      split
      · next h => rw [ofUnpacked, negative, h]
      · rw [ofUnpacked, negative, mantissa, zero']
        rfl
    · rw [ofUnpacked, negative, toNat_implicitBit, mantissa, exponent]
      rfl

/-! ### Canonical parts -/

/-- The significands and exponents of the finite doubles: a significand of 53 bits, or of fewer at
the least exponent. -/
structure Canonical (significand : ℕ) (exponent : ℤ) : Prop where
  bound : significand < 2 ^ 53
  lower : -1074 ≤ exponent
  normal : 2 ^ 52 ≤ significand ∨ exponent = -1074

def bitsOf (significand : ℕ) (exponent : ℤ) : ℕ := (exponent + 1074).toNat * 2 ^ 52 + significand

def signBit (negative : Bool) : ℕ := if negative then 2 ^ 63 else 0

@[simp] theorem signBit_false : signBit false = 0 := rfl

theorem signBit_decide {n : ℕ} (bound : n < 2 ^ 64) :
    signBit (decide (2 ^ 63 ≤ n)) = n / 2 ^ 63 * 2 ^ 63 := by
  unfold signBit
  split
  · next h =>
    rw [decide_eq_true_eq] at h
    omega
  · next h =>
    rw [decide_eq_true_eq] at h
    omega

theorem ofBits_eq_finite_iff {bits : UInt64} {negative : Bool} {s : ℕ} {e : ℤ} :
    Parts.ofBits bits = .finite negative s e ↔
      Canonical s e ∧ e ≤ 971 ∧ bits.toNat = signBit negative + bitsOf s e := by
  have bound := bits.toNat_lt
  unfold Parts.ofBits bitsOf
  simp only [Nat.pow_eq]
  constructor
  · intro h
    split at h
    · split at h <;> cases h
    · split at h
      · simp only [Parts.finite.injEq] at h
        obtain ⟨rfl, rfl, rfl⟩ := h
        rw [signBit_decide bound]
        refine ⟨⟨?_, ?_, ?_⟩, ?_, ?_⟩ <;> omega
      · simp only [Parts.finite.injEq, Int.ofNat_eq_natCast] at h
        obtain ⟨rfl, rfl, rfl⟩ := h
        rw [signBit_decide bound]
        refine ⟨⟨?_, ?_, ?_⟩, ?_, ?_⟩ <;> omega
  · rintro ⟨⟨hs, lower, normal⟩, upper, hb⟩
    have sign : decide (2 ^ 63 ≤ bits.toNat) = negative := by
      cases negative <;> simp [signBit] at hb ⊢ <;> omega
    have low : bits.toNat % 2 ^ 63 = (e + 1074).toNat * 2 ^ 52 + s := by
      cases negative <;> simp [signBit] at hb <;> omega
    have field : bits.toNat / 2 ^ 52 % 2 ^ 11 ≠ 2047 := by omega
    rw [if_neg field, sign]
    split
    · simp only [Parts.finite.injEq, true_and]
      refine ⟨?_, ?_⟩ <;> omega
    · simp only [Parts.finite.injEq, true_and, Int.ofNat_eq_natCast]
      refine ⟨?_, ?_⟩ <;> omega

theorem ofBits_eq_infinite_iff {bits : UInt64} {negative : Bool} :
    Parts.ofBits bits = .infinite negative ↔ bits.toNat = signBit negative + infinityBits := by
  have bound := bits.toNat_lt
  unfold Parts.ofBits infinityBits
  simp only [Nat.pow_eq]
  constructor
  · intro h
    split at h
    · split at h
      · simp only [Parts.infinite.injEq] at h
        subst h
        rw [signBit_decide bound]
        omega
      · cases h
    · split at h <;> cases h
  · intro h
    have sign : decide (2 ^ 63 ≤ bits.toNat) = negative := by
      cases negative <;> simp [signBit] at h ⊢ <;> omega
    have low : bits.toNat % 2 ^ 63 = 2047 * 2 ^ 52 := by
      cases negative <;> simp [signBit] at h <;> omega
    rw [if_pos (by omega), if_pos (by omega), sign]

theorem toNat_toBits_of_finite {x : Float} {negative : Bool} {s : ℕ} {e : ℤ}
    (h : Parts.ofFloat x = .finite negative s e) :
    x.toBits.toNat = signBit negative + bitsOf s e := (ofBits_eq_finite_iff.mp h).2.2

theorem canonical_of_finite {x : Float} {negative : Bool} {s : ℕ} {e : ℤ}
    (h : Parts.ofFloat x = .finite negative s e) : Canonical s e := (ofBits_eq_finite_iff.mp h).1

theorem exponent_le_of_finite {x : Float} {negative : Bool} {s : ℕ} {e : ℤ}
    (h : Parts.ofFloat x = .finite negative s e) : e ≤ 971 := (ofBits_eq_finite_iff.mp h).2.1

theorem bitsOf_lt_infinityBits {s : ℕ} {e : ℤ} (canonical : Canonical s e) (upper : e ≤ 971) :
    bitsOf s e < infinityBits := by
  obtain ⟨bound, lower, -⟩ := canonical
  unfold bitsOf infinityBits
  simp only [Nat.pow_eq]
  omega

theorem toNat_toBits_eq_bitsOf {x : Float} {s : ℕ} {e : ℤ}
    (h : Parts.ofFloat x = .finite false s e) : x.toBits.toNat = bitsOf s e :=
  (toNat_toBits_of_finite h).trans (zero_add _)

theorem toNat_toBits_le_infinityBits {x : Float} {s : ℕ} {e : ℤ}
    (h : Parts.ofFloat x = .finite false s e) : x.toBits.toNat ≤ infinityBits := by
  rw [toNat_toBits_eq_bitsOf h]
  exact (bitsOf_lt_infinityBits (canonical_of_finite h) (exponent_le_of_finite h)).le

theorem eq_of_bitsOf_eq {s s' : ℕ} {e e' : ℤ} (canonical : Canonical s e)
    (canonical' : Canonical s' e') (h : bitsOf s e = bitsOf s' e') : s = s' ∧ e = e' := by
  obtain ⟨bound, lower, normal⟩ := canonical
  obtain ⟨bound', lower', normal'⟩ := canonical'
  unfold bitsOf at h
  omega

/-! ### Values -/

/-- The number that the parts of a double stand for; zero when they are not finite. -/
def Parts.value : Parts → ℚ
  | .finite negative significand exponent =>
    if negative then -(significand * 2 ^ exponent) else significand * 2 ^ exponent
  | _ => 0

def value (x : Float) : ℚ := (Parts.ofFloat x).value

theorem value_eq_of_finite {x : Float} {negative : Bool} {s : ℕ} {e : ℤ}
    (h : Parts.ofFloat x = .finite negative s e) :
    value x = if negative then -(s * 2 ^ e : ℚ) else s * 2 ^ e := by
  rw [value, h]
  rfl

theorem value_eq {x : Float} {s : ℕ} {e : ℤ} (h : Parts.ofFloat x = .finite false s e) :
    value x = s * 2 ^ e := by
  rw [value, h]
  rfl

theorem parts_one : Parts.ofFloat 1.0 = .finite false (2 ^ 52) (-52) := by decide +kernel

theorem lt_iff_compare {x y : Float} :
    x < y ↔ UnpackedFloat.compare x.toModel.unpack y.toModel.unpack = some .lt := by
  change decide (x.toModel.unpack.lt y.toModel.unpack = true) = true ↔ _
  rw [decide_eq_true_eq, UnpackedFloat.lt, beq_iff_eq]

theorem le_iff_compare {x y : Float} :
    x ≤ y ↔ (UnpackedFloat.compare x.toModel.unpack y.toModel.unpack).any (·.isLE) = true := by
  change decide (x.toModel.unpack.le y.toModel.unpack = true) = true ↔ _
  rw [decide_eq_true_eq, UnpackedFloat.le]

theorem unpack_zero : (0.0 : Float).toModel.unpack = .zero .positive := rfl

theorem isFinite_iff {x : Float} :
    x.isFinite = true ↔ ∃ negative s e, Parts.ofFloat x = .finite negative s e := by
  have finite : x.isFinite = x.toModel.unpack.isFinite := rfl
  rw [finite, Parts.ofFloat_eq]
  rcases x.toModel.unpack with s | _ | s | ⟨s, m, e, hm⟩ <;>
    simp [UnpackedFloat.isFinite, Parts.ofUnpacked]

theorem isPositive_iff {x : Float} :
    isPositive x = true ↔ ∃ s e, Parts.ofFloat x = .finite false s e ∧ 0 < s := by
  have finite : x.isFinite = x.toModel.unpack.isFinite := rfl
  rw [isPositive, Bool.and_eq_true, decide_eq_true_eq, lt_iff_compare, unpack_zero, finite,
    Parts.ofFloat_eq]
  rcases x.toModel.unpack with s | _ | s | ⟨s, m, e, hm⟩
  · simp [UnpackedFloat.isFinite, Parts.ofUnpacked]
  · simp [UnpackedFloat.isFinite, Parts.ofUnpacked]
  · simp [UnpackedFloat.compare, Parts.ofUnpacked]
  · cases s <;>
      simp [UnpackedFloat.isFinite, UnpackedFloat.compare, Parts.ofUnpacked, isNegative, hm]

theorem significand_pos {x : Float} {s : ℕ} {e : ℤ}
    (parts : Parts.ofFloat x = .finite false s e) (positive : 0 < value x) : 0 < s := by
  refine Nat.pos_of_ne_zero fun zero => ?_
  rw [value_eq parts, zero, Nat.cast_zero, zero_mul] at positive
  exact positive.false

theorem isPositive_of_value_pos {x : Float} {s : ℕ} {e : ℤ}
    (parts : Parts.ofFloat x = .finite false s e) (positive : 0 < value x) :
    isPositive x = true :=
  isPositive_iff.mpr ⟨s, e, parts, significand_pos parts positive⟩

theorem value_pos {x : Float} (h : isPositive x = true) : 0 < value x := by
  obtain ⟨s, e, parts, positive⟩ := isPositive_iff.mp h
  have cast : (0 : ℚ) < s := by exact_mod_cast positive
  rw [value_eq parts]
  positivity

/-! ### Order -/

/-- Finite doubles compare by exponent and then by significand, which is the order of their
bits. -/
theorem compare_eq_compare_bitsOf {s s' : ℕ} {e e' : ℤ} (canonical : Canonical s e)
    (canonical' : Canonical s' e') :
    (compare e e').then (compare s s') = compare (bitsOf s e) (bitsOf s' e') := by
  obtain ⟨bound, lower, normal⟩ := canonical
  obtain ⟨bound', lower', normal'⟩ := canonical'
  unfold bitsOf
  rcases lt_trichotomy e e' with h | rfl | h
  · rw [compare_lt_iff_lt.mpr h, Ordering.lt_then, eq_comm, compare_lt_iff_lt]
    omega
  · rw [compare_eq_iff_eq.mpr rfl, Ordering.eq_then]
    rcases lt_trichotomy s s' with hs | rfl | hs
    · rw [compare_lt_iff_lt.mpr hs, eq_comm, compare_lt_iff_lt]
      omega
    · rw [compare_eq_iff_eq.mpr rfl, compare_eq_iff_eq.mpr rfl]
    · rw [compare_gt_iff_gt.mpr hs, eq_comm, compare_gt_iff_gt]
      omega
  · rw [compare_gt_iff_gt.mpr h, Ordering.gt_then, eq_comm, compare_gt_iff_gt]
    omega

theorem unpack_of_bits_le {x : Float} (h : x.toBits.toNat ≤ infinityBits) :
    (x.toModel.unpack = .zero .positive ∧ x.toBits.toNat = 0) ∨
      (∃ s e hs, x.toModel.unpack = .finite .positive s e hs ∧ Canonical s e ∧
        x.toBits.toNat = bitsOf s e ∧ bitsOf s e < infinityBits) ∨
      (x.toModel.unpack = .infinity .positive ∧ x.toBits.toNat = infinityBits) := by
  have parts := Parts.ofFloat_eq x
  have small : infinityBits < 2 ^ 63 := by decide
  rcases hu : x.toModel.unpack with s | _ | s | ⟨s, m, e, hm⟩ <;> rw [hu] at parts
  · have bits : x.toBits.toNat = signBit (isNegative s) + infinityBits :=
      ofBits_eq_infinite_iff.mp parts
    cases s
    · simp only [signBit, isNegative, if_true] at bits
      omega
    · exact Or.inr (Or.inr ⟨rfl, by simpa [signBit, isNegative] using bits⟩)
  · exfalso
    unfold Parts.ofFloat Parts.ofBits Parts.ofUnpacked at parts
    unfold infinityBits at h small
    simp only [Nat.pow_eq] at parts h small
    split at parts
    · split at parts
      · cases parts
      · omega
    · split at parts <;> cases parts
  · have bits := toNat_toBits_of_finite parts
    cases s
    · simp only [signBit, isNegative, if_true] at bits
      omega
    · exact Or.inl ⟨rfl, by simpa [signBit, isNegative, bitsOf] using bits⟩
  · have bits := toNat_toBits_of_finite parts
    have canonical := canonical_of_finite parts
    cases s
    · simp only [signBit, isNegative, if_true] at bits
      omega
    · exact Or.inr (Or.inl ⟨m, e, hm, rfl, canonical, by simpa [signBit, isNegative] using bits,
        bitsOf_lt_infinityBits canonical (exponent_le_of_finite parts)⟩)

theorem bitsOf_pos {s : ℕ} {e : ℤ} (h : 0 < s) : 0 < bitsOf s e := by
  unfold bitsOf
  omega

/-- The place of a double that is not a NaN among all of them; the zeros share one. -/
def rank (x : Float) : ℤ :=
  if x.toBits.toNat < 2 ^ 63 then x.toBits.toNat else 2 ^ 63 - x.toBits.toNat

theorem rank_of_bits {x : Float} {negative : Bool} {n : ℕ}
    (bits : x.toBits.toNat = signBit negative + n) (small : n < 2 ^ 63) :
    rank x = if negative then -(n : ℤ) else n := by
  unfold rank
  cases negative
  · rw [signBit_false, zero_add] at bits
    rw [if_pos (by omega), bits, if_neg Bool.false_ne_true]
  · simp only [signBit, if_true] at bits ⊢
    rw [if_neg (by omega)]
    omega

theorem rank_of_finite {x : Float} {negative : Bool} {s : ℕ} {e : ℤ}
    (h : Parts.ofFloat x = .finite negative s e) :
    rank x = if negative then -(bitsOf s e : ℤ) else bitsOf s e := by
  have bounded := bitsOf_lt_infinityBits (canonical_of_finite h) (exponent_le_of_finite h)
  have small : infinityBits < 2 ^ 63 := by decide
  exact rank_of_bits (toNat_toBits_of_finite h) (bounded.trans small)

theorem rank_of_bits_le {x : Float} (h : x.toBits.toNat ≤ infinityBits) :
    rank x = x.toBits.toNat := by
  have small : infinityBits < 2 ^ 63 := by decide
  exact if_pos (by omega)

theorem isNaN_iff {x : Float} : x.isNaN = true ↔ x.toModel.unpack = .notANumber := by
  change x.toModel.unpack.isNaN = true ↔ _
  rcases x.toModel.unpack with s | _ | s | ⟨s, m, e, hm⟩ <;> simp [UnpackedFloat.isNaN]

theorem isNaN_of_finite {x : Float} {negative : Bool} {s : ℕ} {e : ℤ}
    (h : Parts.ofFloat x = .finite negative s e) : x.isNaN = false := by
  refine Bool.eq_false_iff.mpr fun nan => ?_
  rw [Parts.ofFloat_eq, isNaN_iff.mp nan] at h
  cases h

theorem unpack_of_isNaN_false {x : Float} (number : x.isNaN = false) :
    (∃ s, x.toModel.unpack = .infinity s ∧
        rank x = if isNegative s then -(infinityBits : ℤ) else infinityBits) ∨
      (∃ s, x.toModel.unpack = .zero s ∧ rank x = 0) ∨
      ∃ s m e hm, x.toModel.unpack = .finite s m e hm ∧ Canonical m e ∧ 0 < bitsOf m e ∧
        bitsOf m e < infinityBits ∧
        rank x = if isNegative s then -(bitsOf m e : ℤ) else bitsOf m e := by
  have parts := Parts.ofFloat_eq x
  rcases hu : x.toModel.unpack with s | _ | s | ⟨s, m, e, hm⟩ <;> rw [hu] at parts
  · exact Or.inl ⟨s, rfl, rank_of_bits (ofBits_eq_infinite_iff.mp parts) (by decide)⟩
  · rw [isNaN_iff.mpr hu] at number
    cases number
  · refine Or.inr (Or.inl ⟨s, rfl, (rank_of_finite parts).trans ?_⟩)
    cases s <;> rfl
  · have canonical := canonical_of_finite parts
    exact Or.inr (Or.inr ⟨s, m, e, hm, rfl, canonical, bitsOf_pos hm,
      bitsOf_lt_infinityBits canonical (exponent_le_of_finite parts), rank_of_finite parts⟩)

theorem isNaN_of_bits_le {x : Float} (h : x.toBits.toNat ≤ infinityBits) : x.isNaN = false := by
  obtain ⟨ux, -⟩ | ⟨s, e, hs, ux, -⟩ | ⟨ux, -⟩ := unpack_of_bits_le h <;>
    exact Bool.eq_false_iff.mpr fun nan => by
      rw [isNaN_iff, ux] at nan
      cases nan

theorem compare_natCast (a b : ℕ) : compare (a : ℤ) (b : ℤ) = compare a b := by
  rw [← cmp_eq_compare, ← cmp_eq_compare, (Nat.strictMono_cast (α := ℤ)).cmp_map_eq]

theorem compare_neg_natCast (a b : ℕ) : compare (-a : ℤ) (-b : ℤ) = (compare a b).swap := by
  have anti : StrictAnti fun n : ℕ => (-n : ℤ) := fun _ _ h => neg_lt_neg (Nat.cast_lt.mpr h)
  rw [← cmp_eq_compare, ← cmp_eq_compare, cmp_swap]
  exact anti.cmp_map_eq a b

theorem compare_eq_compare_rank {x y : Float} (hx : x.isNaN = false) (hy : y.isNaN = false) :
    UnpackedFloat.compare x.toModel.unpack y.toModel.unpack = some (compare (rank x) (rank y)) := by
  have top : 0 < infinityBits := by decide
  obtain ⟨s, ux, rx⟩ | ⟨s, ux, rx⟩ | ⟨s, m, e, hm, ux, cx, px, bx, rx⟩ :=
      unpack_of_isNaN_false hx <;>
    obtain ⟨s', uy, ry⟩ | ⟨s', uy, ry⟩ | ⟨s', m', e', hm', uy, cy, py, yb, ry⟩ :=
      unpack_of_isNaN_false hy <;>
    rw [ux, uy, rx, ry] <;> cases s <;> cases s' <;>
    simp only [UnpackedFloat.compare, Option.some.injEq, isNegative, if_true, Bool.false_eq_true,
      if_false]
  -- Only two finite doubles of one sign are not told apart by their kinds.
  case inr.inr.inr.inr.negative.negative =>
    rw [compare_eq_compare_bitsOf cx cy, compare_neg_natCast]
  case inr.inr.inr.inr.positive.positive => rw [compare_eq_compare_bitsOf cx cy, compare_natCast]
  all_goals
    first
      | exact (compare_lt_iff_lt.mpr (by omega)).symm
      | exact (compare_gt_iff_gt.mpr (by omega)).symm
      | exact (compare_eq_iff_eq.mpr rfl).symm

section

variable {x y z : Float}

theorem isNaN_of_compare {o : Ordering}
    (h : UnpackedFloat.compare x.toModel.unpack y.toModel.unpack = some o) :
    x.isNaN = false ∧ y.isNaN = false := by
  simp only [← Bool.not_eq_true, isNaN_iff]
  refine ⟨fun nan => ?_, fun nan => ?_⟩
  · rw [nan, UnpackedFloat.compare] at h
    cases h
  · rw [nan] at h
    cases u : x.toModel.unpack <;> simp [u, UnpackedFloat.compare] at h

theorem isNaN_of_le (h : x ≤ y) : x.isNaN = false ∧ y.isNaN = false := by
  rw [le_iff_compare, Option.any_eq_true] at h
  obtain ⟨o, compared, -⟩ := h
  exact isNaN_of_compare compared

theorem isNaN_of_lt (h : x < y) : x.isNaN = false ∧ y.isNaN = false :=
  isNaN_of_compare (lt_iff_compare.mp h)

theorem lt_iff_rank_lt (hx : x.isNaN = false) (hy : y.isNaN = false) :
    x < y ↔ rank x < rank y := by
  rw [lt_iff_compare, compare_eq_compare_rank hx hy, Option.some.injEq, compare_lt_iff_lt]

theorem le_iff_rank_le (hx : x.isNaN = false) (hy : y.isNaN = false) :
    x ≤ y ↔ rank x ≤ rank y := by
  rw [le_iff_compare, compare_eq_compare_rank hx hy, Option.any_some, Ordering.isLE_iff_ne_gt,
    ← not_lt, not_congr compare_gt_iff_gt]

theorem not_le_iff : ¬ x ≤ y ↔ x.isNaN = true ∨ y.isNaN = true ∨ y < x := by
  by_cases hx : x.isNaN = true
  · exact iff_of_true (fun le => Bool.eq_false_iff.mp (isNaN_of_le le).1 hx) (Or.inl hx)
  · by_cases hy : y.isNaN = true
    · exact iff_of_true (fun le => Bool.eq_false_iff.mp (isNaN_of_le le).2 hy) (Or.inr (Or.inl hy))
    · have number := Bool.eq_false_iff.mpr hx
      have number' := Bool.eq_false_iff.mpr hy
      simp only [number, number', Bool.false_eq_true, false_or, le_iff_rank_le number number',
        lt_iff_rank_lt number' number, not_le]

protected theorem lt_of_lt_of_le (h : x < y) (le : y ≤ z) : x < z := by
  obtain ⟨hx, hy⟩ := isNaN_of_lt h
  have hz := (isNaN_of_le le).2
  rw [lt_iff_rank_lt hx hy] at h
  rw [le_iff_rank_le hy hz] at le
  rw [lt_iff_rank_lt hx hz]
  exact h.trans_le le

section

variable (hx : x.toBits.toNat ≤ infinityBits) (hy : y.toBits.toNat ≤ infinityBits)

include hx hy

theorem lt_iff_bits_lt : x < y ↔ x.toBits.toNat < y.toBits.toNat := by
  rw [lt_iff_rank_lt (isNaN_of_bits_le hx) (isNaN_of_bits_le hy), rank_of_bits_le hx,
    rank_of_bits_le hy, Nat.cast_lt]

theorem le_iff_bits_le : x ≤ y ↔ x.toBits.toNat ≤ y.toBits.toNat := by
  rw [le_iff_rank_le (isNaN_of_bits_le hx) (isNaN_of_bits_le hy), rank_of_bits_le hx,
    rank_of_bits_le hy, Nat.cast_le]

end

theorem not_lt_of_le_zero (hx : x.toBits.toNat ≤ infinityBits) (hy : y ≤ 0.0) : ¬ x < y := by
  intro h
  have less := Number.lt_of_lt_of_le h hy
  rw [lt_iff_bits_lt hx (by decide)] at less
  exact Nat.not_lt_zero _ less

end

end FermiQuiz.Number
