import Mathlib
import FermiQuiz.Proofs.Number.Nearest

/-!
# Arithmetic of doubles

`IsNearest x negative q` says that `x` is what the size `q` is rounded to, under a sign. Products,
quotients, sums and differences of doubles, and the doubles of natural numbers, are the nearest to
the exact results, so they are within one part in `2 ^ 53` of them.
-/

namespace FermiQuiz.Number

open Float.Model (UnpackedFloat Format totalExponent)
open Float.Model.UnpackedFloat

/-! ### Packing -/

theorem toNat_packComponents (s : Sign) (e : BitVec 11) (m : BitVec 52) :
    (packComponents Format.binary64 s e m).toNat =
      signBit (isNegative s) + e.toNat * 2 ^ 52 + m.toNat := by
  have he := e.isLt
  have hm := m.isLt
  unfold packComponents
  rw [BitVec.toNat_append, BitVec.toNat_append, ← Nat.shiftLeft_add_eq_or_of_lt hm,
    ← Nat.shiftLeft_add_eq_or_of_lt he, Nat.shiftLeft_eq, Nat.shiftLeft_eq]
  cases s
  · simp [Sign.toBitVec, signBit, isNegative]
    omega
  · simp [Sign.toBitVec, signBit, isNegative]

theorem toNat_packedInfinity (s : Sign) :
    (packedInfinity Format.binary64 s).toNat = signBit (isNegative s) + infinityBits := by
  unfold packedInfinity
  rw [toNat_packComponents]
  rfl

theorem log2_eq_of_normal {m : ℕ} (lower : 2 ^ 52 ≤ m) (bound : m < 2 ^ 53) : m.log2 = 52 :=
  (Nat.log2_eq_iff (by omega)).mpr ⟨lower, bound⟩

theorem toNat_pack_finite (s : Sign) {m : ℕ} {e : ℤ} (hm : 0 < m) (canonical : Canonical m e) :
    (pack Format.binary64 (.finite s m e hm)).toNat =
      signBit (isNegative s) + min (bitsOf m e) infinityBits := by
  obtain ⟨bound, lower, normal⟩ := canonical
  have bias : Format.binary64.exponentBias = 1023 := rfl
  have bits : Format.binary64.mantissaBits = 53 := rfl
  simp only [pack, bias, bits]
  unfold bitsOf infinityBits
  simp only [Nat.pow_eq]
  split
  · next large =>
    rw [toNat_packedInfinity]
    unfold infinityBits
    simp only [Nat.pow_eq]
    omega
  · next small =>
    split
    · next full =>
      have full' := (Nat.log2_eq_iff hm.ne').mp (Nat.succ.inj full)
      rw [toNat_packComponents, BitVec.toNat_ofNat, BitVec.toNat_ofNat]
      omega
    · next short =>
      have subnormal : e = -1074 := by
        refine normal.resolve_left fun h => short ?_
        rw [log2_eq_of_normal h bound]
      have : m < 2 ^ 52 := by
        by_contra! h
        exact short (by rw [log2_eq_of_normal h bound])
      rw [toNat_packComponents, BitVec.toNat_ofNat, BitVec.toNat_ofNat]
      subst subnormal
      omega

/-! ### Guard bits -/

/-- What an accuracy says about the part of a number that its mantissa leaves out. -/
def Describes : Accuracy → ℚ → Prop
  | .exact, f => f = 0
  | .inexact .lt, f => 0 < f ∧ f < 1 / 2
  | .inexact .eq, f => f = 1 / 2
  | .inexact .gt, f => 1 / 2 < f ∧ f < 1

theorem Describes.bounds {a : Accuracy} {f : ℚ} (h : Describes a f) : 0 ≤ f ∧ f < 1 := by
  rcases a with _ | _ | _ | _ <;> simp only [Describes] at h <;> constructor <;> linarith

theorem Describes.isRoundEven {a : Accuracy} {f : ℚ} (m : ℕ) (h : Describes a f) :
    IsRoundEven (a.roundToNearestEven m) (m + f) := by
  rcases a with _ | _ | _ | _
  · exact .of_lt_half h.ge (by simp only [Describes] at h; linarith)
  · exact .of_lt_half h.1.le h.2
  · simp only [Describes] at h
    rw [h]
    exact .of_half m
  · exact .of_half_lt h.1 h.2.le

theorem accuracy_ofMantissaAndAccuracy (m : ℕ) (a : Accuracy) :
    (ExtendedMantissa.ofMantissaAndAccuracy m a).accuracy = a := by
  rcases a with _ | _ | _ | _ <;> rfl

theorem mantissa_ofMantissaAndAccuracy (m : ℕ) (a : Accuracy) :
    (ExtendedMantissa.ofMantissaAndAccuracy m a).mantissa = m := by
  rcases a with _ | _ | _ | _ <;> rfl

/-- The mantissa and the guard bits after it locate the number `x`. -/
def Represents (em : ExtendedMantissa) (x : ℚ) : Prop := Describes em.accuracy (x - em.mantissa)

theorem Represents.isRoundEven {em : ExtendedMantissa} {x : ℚ} (h : Represents em x) :
    IsRoundEven em.roundedMantissa x := by
  have rounded := Describes.isRoundEven em.mantissa h
  rwa [add_sub_cancel] at rounded

theorem Represents.shiftRightOne {em : ExtendedMantissa} {x : ℚ} (h : Represents em x) :
    Represents em.shiftRightOne (x / 2) := by
  rcases em with ⟨m, round, sticky⟩
  have halves : (m : ℚ) = 2 * (m / 2 : ℕ) + (m % 2 : ℕ) := by
    exact_mod_cast (Nat.div_add_mod m 2).symm
  unfold Represents ExtendedMantissa.shiftRightOne at *
  rcases Nat.mod_two_eq_zero_or_one m with parity | parity <;> rw [parity] at halves ⊢ <;>
    cases round <;> cases sticky <;>
    simp [ExtendedMantissa.accuracy, Describes] at h halves ⊢ <;>
    first | linarith | (constructor <;> linarith)

theorem Represents.shiftRight {em : ExtendedMantissa} {x : ℚ} (h : Represents em x) (n : ℕ) :
    Represents (em >>> n) (x / 2 ^ n) := by
  change Represents (n.repeat ExtendedMantissa.shiftRightOne em) _
  induction n with
  | zero => simpa [Nat.repeat] using h
  | succ n ih =>
    rw [Nat.repeat, pow_succ, ← div_div]
    exact ih.shiftRightOne

/-! ### Rounding -/

theorem targetExponent_eq (total : ℤ) :
    Format.binary64.targetExponent total = max (total - 53) (-1074) := rfl

/-- The exponent of the grid to which a mantissa is rounded. -/
def gridOf (m : ℕ) (e : ℤ) : ℤ := max ((m.log2 : ℤ) + 1 + e - 53) (-1074)

theorem le_gridOf {m : ℕ} {e : ℤ} (enough : 2 ^ 52 ≤ m ∨ e ≤ -1074) : e ≤ gridOf m e := by
  unfold gridOf
  rcases enough with large | small
  · have : 52 ≤ m.log2 := (Nat.le_log2 (by omega)).mpr large
    omega
  · omega

def onGrid (m : ℕ) (e : ℤ) (a : Accuracy) : ExtendedMantissa :=
  ExtendedMantissa.ofMantissaAndAccuracy m a >>> (gridOf m e - e).toNat

theorem shiftToTargetExponent_eq {m : ℕ} {e : ℤ} (a : Accuracy) (le : e ≤ gridOf m e) :
    shiftToTargetExponent Format.binary64 m e a = (onGrid m e a, gridOf m e) := by
  have shifted : e + ((gridOf m e - e).toNat : ℕ) = gridOf m e := by omega
  unfold shiftToTargetExponent shiftToExponent totalExponent
  rw [targetExponent_eq, ← gridOf]
  simp only [shifted]
  rfl

theorem represents_onGrid {m : ℕ} {e : ℤ} {a : Accuracy} {q : ℚ}
    (described : Describes a (q / 2 ^ e - m)) (le : e ≤ gridOf m e) :
    Represents (onGrid m e a) (q / 2 ^ gridOf m e) := by
  have start : Represents (ExtendedMantissa.ofMantissaAndAccuracy m a) (q / 2 ^ e) := by
    rwa [Represents, accuracy_ofMantissaAndAccuracy, mantissa_ofMantissaAndAccuracy]
  have moved := start.shiftRight (gridOf m e - e).toNat
  rwa [div_div, ← zpow_natCast, ← zpow_add₀ two_ne_zero,
    show e + ((gridOf m e - e).toNat : ℕ) = gridOf m e by omega] at moved

/-- The number that guard bits locate is rounded to the rounded mantissa on its grid. -/
theorem roundsTo_onGrid {m : ℕ} {e : ℤ} {a : Accuracy} {q : ℚ}
    (described : Describes a (q / 2 ^ e - m)) (le : e ≤ gridOf m e) :
    RoundsTo q (onGrid m e a).roundedMantissa (gridOf m e) := by
  have grid : (0 : ℚ) < 2 ^ e := by positivity
  obtain ⟨below, above⟩ := described.bounds
  rw [sub_nonneg, le_div_iff₀ grid] at below
  rw [sub_lt_iff_lt_add', div_lt_iff₀ grid] at above
  refine ⟨le_max_right _ _, above.trans_le ?_, ?_, (represents_onGrid described le).isRoundEven⟩
  · have total : ((m : ℚ) + 1) ≤ 2 ^ (m.log2 + 1) := by exact_mod_cast Nat.lt_log2_self
    calc ((m : ℚ) + 1) * 2 ^ e ≤ 2 ^ (m.log2 + 1) * 2 ^ e := by gcongr
      _ = 2 ^ ((m.log2 : ℤ) + 1 + e) := by
        rw [← zpow_natCast, ← zpow_add₀ two_ne_zero]
        push_cast
        rfl
      _ ≤ 2 ^ (gridOf m e + 53) := zpow_le_zpow_right₀ one_le_two (by unfold gridOf; omega)
  · rcases Nat.eq_zero_or_pos m with rfl | positive
    · right
      unfold gridOf at le ⊢
      simp only [Nat.log2_zero] at le ⊢
      omega
    · rcases le_total ((m.log2 : ℤ) + 1 + e - 53) (-1074) with small | large
      · exact Or.inr (max_eq_right small)
      · left
        have total : (2 : ℚ) ^ m.log2 ≤ m := by exact_mod_cast Nat.log2_self_le positive.ne'
        calc (2 : ℚ) ^ (gridOf m e + 52) = 2 ^ m.log2 * 2 ^ e := by
              rw [← zpow_natCast, ← zpow_add₀ two_ne_zero]
              unfold gridOf
              congr 1
              omega
          _ ≤ m * 2 ^ e := by gcongr
          _ ≤ q := below

/-- Shifting a rounded significand again only takes off what it has beyond 53 bits. -/
theorem shiftToTargetExponent_rounded {r : ℕ} {e : ℤ} (bound : r ≤ 2 ^ 53) (lower : -1074 ≤ e) :
    shiftToTargetExponent Format.binary64 r e .exact =
      if r = 2 ^ 53 then (⟨2 ^ 52, false, false⟩, e + 1) else (⟨r, false, false⟩, e) := by
  unfold shiftToTargetExponent shiftToExponent totalExponent
  rw [targetExponent_eq]
  simp only
  split
  · next full =>
    have shift : (max ((r.log2 : ℤ) + 1 + e - 53) (-1074) - e).toNat = 1 := by
      rw [full, Nat.log2_two_pow]
      omega
    rw [shift, full]
    rfl
  · next short =>
    have log : r.log2 < 53 ∨ r = 0 := by
      rcases Nat.eq_zero_or_pos r with zero | positive
      · exact Or.inr zero
      · exact Or.inl ((Nat.log2_lt positive.ne').mpr (by omega))
    have log' : r.log2 ≤ 52 := by
      rcases log with h | rfl
      · omega
      · simp
    have shift : (max ((r.log2 : ℤ) + 1 + e - 53) (-1074) - e).toNat = 0 := by omega
    rw [shift, Nat.cast_zero, add_zero]
    rfl

/-- The double of a mantissa that needs no more rounding. -/
def finished (sign : Sign) (shifted : ExtendedMantissa × ℤ) : UnpackedFloat :=
  if h : shifted.1.mantissa = 0 then .zero sign
  else .finite sign shifted.1.mantissa shifted.2 (Nat.pos_of_ne_zero h)

theorem toNat_pack_finished (sign : Sign) {r : ℕ} {e : ℤ} (bound : r ≤ 2 ^ 53)
    (lower : -1074 ≤ e) (normal : 2 ^ 52 ≤ r ∨ e = -1074) :
    (pack Format.binary64
        (finished sign (shiftToTargetExponent Format.binary64 r e .exact))).toNat =
      signBit (isNegative sign) + min (bitsOf r e) infinityBits := by
  rw [shiftToTargetExponent_rounded bound lower]
  by_cases full : r = 2 ^ 53
  · -- A full significand is carried over to the next grid.
    rw [if_pos full, finished, dif_neg (by norm_num),
      toNat_pack_finite _ _ ⟨by norm_num, by omega, Or.inl le_rfl⟩, full]
    unfold bitsOf
    omega
  · rw [if_neg full, finished]
    split
    · next zero =>
      simp only at zero
      rw [zero] at normal ⊢
      have least : e = -1074 := by omega
      rw [least]
      change (packComponents Format.binary64 sign 0 0).toNat = _
      rw [toNat_packComponents]
      simp [bitsOf]
    · exact toNat_pack_finite _ _ ⟨lt_of_le_of_ne bound full, lower, normal⟩

/-- Rounding a mantissa whose guard bits locate `q`, and which has enough bits, gives the double
nearest to `q`. -/
theorem toNat_pack_roundWithAccuracy (sign : Sign) {m : ℕ} {e : ℤ} {a : Accuracy} {q : ℚ}
    (described : Describes a (q / 2 ^ e - m)) (enough : 2 ^ 52 ≤ m ∨ e ≤ -1074) :
    ∃ s e', RoundsTo q s e' ∧
      (pack Format.binary64 (roundWithAccuracy Format.binary64 sign m e a)).toNat =
        signBit (isNegative sign) + min (bitsOf s e') infinityBits := by
  have rounds := roundsTo_onGrid described (le_gridOf enough)
  have twice : roundWithAccuracy Format.binary64 sign m e a =
      finished sign (shiftToTargetExponent Format.binary64 (onGrid m e a).roundedMantissa
        (gridOf m e) .exact) := by
    unfold roundWithAccuracy
    rw [shiftToTargetExponent_eq a (le_gridOf enough)]
    rfl
  refine ⟨_, _, rounds, ?_⟩
  rw [twice]
  exact toNat_pack_finished sign rounds.le_bound rounds.lower rounds.normal_or

/-! ### Nearest doubles -/

/-- `x` is the double that the size `q` is rounded to, under a sign. Sizes that are too large go to
infinity. -/
def IsNearest (x : Float) (negative : Bool) (q : ℚ) : Prop :=
  ∃ s e, RoundsTo q s e ∧ x.toBits.toNat = signBit negative + min (bitsOf s e) infinityBits

theorem eq_of_toNat_toBits_eq {x y : Float} (h : x.toBits.toNat = y.toBits.toNat) : x = y := by
  rcases x with ⟨⟨a, _⟩⟩
  rcases y with ⟨⟨b, _⟩⟩
  obtain rfl : a = b := UInt64.toNat_inj.mp h
  rfl

theorem IsNearest.unique {x y : Float} {negative : Bool} {q : ℚ} (h : IsNearest x negative q)
    (h' : IsNearest y negative q) : x = y := by
  obtain ⟨s, e, rounds, bits⟩ := h
  obtain ⟨s', e', rounds', bits'⟩ := h'
  rw [rounds.bitsOf_eq rounds'] at bits
  exact eq_of_toNat_toBits_eq (bits.trans bits'.symm)

theorem roundsTo_zero : RoundsTo 0 0 (-1074) := by
  refine ⟨le_rfl, by positivity, Or.inr rfl, ?_⟩
  rw [zero_div]
  exact .self 0

theorem RoundsTo.exists_finite {x : Float} {negative : Bool} {q : ℚ} {s' : ℕ} {e' : ℤ}
    (rounds : RoundsTo q s' e')
    (bits : x.toBits.toNat = signBit negative + min (bitsOf s' e') infinityBits)
    (bounded : bitsOf s' e' < infinityBits) :
    ∃ s e, Parts.ofFloat x = .finite negative s e ∧ bitsOf s e = bitsOf s' e' ∧
      (s * 2 ^ e : ℚ) = s' * 2 ^ e' := by
  obtain ⟨s, e, canonical, same, value_same⟩ := rounds.exists_canonical
  rw [min_eq_left bounded.le, ← same] at bits
  refine ⟨s, e, ofBits_eq_finite_iff.mpr ⟨canonical, ?_, bits⟩, same, value_same⟩
  have normal := canonical.normal
  rw [← same] at bounded
  unfold bitsOf infinityBits at bounded
  simp only [Nat.pow_eq] at bounded
  omega

theorem IsNearest.exists_finite {x : Float} {negative : Bool} {q : ℚ} (h : IsNearest x negative q)
    (small : q ≤ 2 ^ (1023 : ℤ)) :
    ∃ s e s' e', Parts.ofFloat x = .finite negative s e ∧ RoundsTo q s' e' ∧
      (s * 2 ^ e : ℚ) = s' * 2 ^ e' := by
  obtain ⟨s', e', rounds, bits⟩ := h
  have top : Canonical (2 ^ 52) 971 := ⟨by norm_num, by norm_num, Or.inl le_rfl⟩
  have top_eq : ((2 ^ 52 : ℕ) : ℚ) * 2 ^ (971 : ℤ) = 2 ^ (1023 : ℤ) := by
    have sum : ((52 : ℕ) : ℤ) + 971 = 1023 := by norm_num
    rw [Nat.cast_pow, Nat.cast_ofNat, ← zpow_natCast, ← zpow_add₀ two_ne_zero, sum]
  have le := rounds.bitsOf_le top.roundsTo (small.trans_eq top_eq.symm)
  have bounded : bitsOf s' e' < infinityBits := le.trans_lt (bitsOf_lt_infinityBits top le_rfl)
  obtain ⟨s, e, parts, -, value_same⟩ := rounds.exists_finite bits bounded
  exact ⟨s, e, s', e', parts, rounds, value_same⟩

theorem IsNearest.exists_parts {x : Float} {negative : Bool} {q : ℚ} (h : IsNearest x negative q)
    (large : 2 ^ (-1022 : ℤ) ≤ q) (small : q ≤ 2 ^ (1023 : ℤ)) :
    ∃ s e, Parts.ofFloat x = .finite negative s e ∧ |s * 2 ^ e - q| ≤ q / 2 ^ 53 := by
  obtain ⟨s, e, s', e', parts, rounds, same⟩ := h.exists_finite small
  refine ⟨s, e, parts, ?_⟩
  rw [same]
  exact rounds.relative_error_le large

theorem IsNearest.bits_le {x : Float} {q : ℚ} (h : IsNearest x false q) :
    x.toBits.toNat ≤ infinityBits := by
  obtain ⟨s, e, -, bits⟩ := h
  rw [bits, signBit_false, zero_add]
  exact min_le_right _ _

theorem IsNearest.bits_mono {x y : Float} {q r : ℚ} (hx : IsNearest x false q)
    (hy : IsNearest y false r) (le : q ≤ r) : x.toBits.toNat ≤ y.toBits.toNat := by
  obtain ⟨s, e, rounds, bits⟩ := hx
  obtain ⟨s', e', rounds', bits'⟩ := hy
  rw [bits, bits']
  exact Nat.add_le_add_left (min_le_min_right _ (rounds.bitsOf_le rounds' le)) _

theorem IsNearest.le {x y : Float} {q r : ℚ} (hx : IsNearest x false q)
    (hy : IsNearest y false r) (le : q ≤ r) : x ≤ y :=
  (le_iff_bits_le hx.bits_le hy.bits_le).mpr (hx.bits_mono hy le)

theorem exists_canonical_of_lt {m : ℕ} {j : ℤ} (bound : m < 2 ^ 53) (lower : -1074 ≤ j) :
    ∃ s e, Canonical s e ∧ e ≤ j ∧ (s * 2 ^ e : ℚ) = m * 2 ^ j := by
  rcases Nat.eq_zero_or_pos m with rfl | positive
  · exact ⟨0, -1074, ⟨by norm_num, le_rfl, Or.inr rfl⟩, lower, by simp⟩
  set shift := min (52 - m.log2) (j + 1074).toNat with shift_eq
  have log : m.log2 ≤ 52 := Nat.lt_succ_iff.mp ((Nat.log2_lt positive.ne').mpr bound)
  refine ⟨m * 2 ^ shift, j - shift, ⟨?_, by omega, ?_⟩, by omega, ?_⟩
  · calc m * 2 ^ shift < 2 ^ (m.log2 + 1) * 2 ^ shift :=
          Nat.mul_lt_mul_of_pos_right Nat.lt_log2_self (Nat.two_pow_pos _)
      _ = 2 ^ (m.log2 + 1 + shift) := (pow_add ..).symm
      _ ≤ 2 ^ 53 := Nat.pow_le_pow_right two_pos (by omega)
  · rcases le_total (52 - m.log2) (j + 1074).toNat with full | least
    · left
      calc 2 ^ 52 = 2 ^ (m.log2 + shift) := by congr 1; omega
        _ = 2 ^ m.log2 * 2 ^ shift := pow_add ..
        _ ≤ m * 2 ^ shift := Nat.mul_le_mul_right _ (Nat.log2_self_le positive.ne')
    · right
      omega
  · push_cast
    rw [mul_assoc, ← zpow_natCast, ← zpow_add₀ two_ne_zero]
    congr 2
    omega

theorem IsNearest.exact {x : Float} {negative : Bool} {m : ℕ} {j : ℤ}
    (h : IsNearest x negative (m * 2 ^ j)) (bound : m < 2 ^ 53) (lower : -1074 ≤ j)
    (upper : j ≤ 971) :
    ∃ s e, Parts.ofFloat x = .finite negative s e ∧ (s * 2 ^ e : ℚ) = m * 2 ^ j := by
  obtain ⟨s, e, canonical, le, same⟩ := exists_canonical_of_lt bound lower
  obtain ⟨s', e', rounds, bits⟩ := h
  rw [← same] at rounds
  have small := bitsOf_lt_infinityBits canonical (le.trans upper)
  rw [rounds.bitsOf_eq canonical.roundsTo, min_eq_left small.le] at bits
  exact ⟨s, e, ofBits_eq_finite_iff.mpr ⟨canonical, le.trans upper, bits⟩, same⟩

theorem toNat_toBits_ofModel_pack (u : UnpackedFloat) :
    (Float.ofModel (Float.Model.pack u)).toBits.toNat = (pack Format.binary64 u).toNat := rfl

theorem toNat_pack_zero (sign : Sign) :
    (pack Format.binary64 (.zero sign)).toNat = signBit (isNegative sign) := by
  change (packComponents Format.binary64 sign 0 0).toNat = _
  rw [toNat_packComponents]
  simp

theorem isNearest_pack_zero (sign : Sign) :
    IsNearest (Float.ofModel (Float.Model.pack (.zero sign))) (isNegative sign) 0 := by
  refine ⟨0, -1074, roundsTo_zero, ?_⟩
  rw [toNat_toBits_ofModel_pack, toNat_pack_zero]
  simp [bitsOf]

theorem isNearest_pack_finite (sign : Sign) {m : ℕ} {e : ℤ} (hm : 0 < m)
    (canonical : Canonical m e) :
    IsNearest (Float.ofModel (Float.Model.pack (.finite sign m e hm))) (isNegative sign)
      (m * 2 ^ e) :=
  ⟨m, e, canonical.roundsTo, toNat_pack_finite sign hm canonical⟩

/-! ### Doubles given by their bits -/

theorem valid_of_le {b : UInt64} (h : b.toNat ≤ infinityBits) :
    Format.binary64.Valid b.toBitVec := by
  refine ⟨fun exponent mantissa => absurd (BitVec.eq_of_toNat_eq ?_) mantissa⟩
  have field := congrArg BitVec.toNat exponent
  rw [toNat_unpackExponent] at field
  have field' : b.toNat / 2 ^ 52 % 2 ^ 11 = 2047 := field
  rw [toNat_unpackMantissa]
  unfold infinityBits at h
  simp only [Nat.pow_eq] at h
  change b.toNat % 2 ^ 52 = 0
  omega

theorem toNat_toBits_ofBits {b : UInt64} (h : b.toNat ≤ infinityBits) :
    (Float.ofBits b).toBits.toNat = b.toNat := by
  set x : Float := ⟨⟨b, valid_of_le h⟩⟩
  have bits : x.toBits.toNat = b.toNat := rfl
  change (pack Format.binary64 x.toModel.unpack).toNat = _
  obtain ⟨ux, bx⟩ | ⟨s, e, hs, ux, canonical, bx, upper⟩ | ⟨ux, bx⟩ :=
    unpack_of_bits_le (x := x) h <;> rw [ux, ← bits, bx]
  · exact toNat_pack_zero _
  · rw [toNat_pack_finite _ _ canonical, min_eq_left upper.le]
    exact zero_add _
  · exact (toNat_packedInfinity _).trans (zero_add _)

theorem isNearest_nearest (num : ℕ) {den : ℕ} (hd : 0 < den) :
    IsNearest (nearest num den) false (num / den) := by
  obtain ⟨s, e, rounds, bits⟩ := nearestBits_spec num hd
  refine ⟨s, e, rounds, ?_⟩
  have le : nearestBits num den ≤ infinityBits := bits ▸ min_le_right _ _
  have small : infinityBits < 2 ^ 64 := by decide
  have same : (nearestBits num den).toUInt64.toNat = nearestBits num den :=
    Nat.mod_eq_of_lt (le.trans_lt small)
  rw [nearest, toNat_toBits_ofBits (same.trans_le le), same, bits]
  exact (zero_add _).symm

/-! ### Operations -/

theorem unpack_of_finite {x : Float} {negative : Bool} {s : ℕ} {e : ℤ}
    (h : Parts.ofFloat x = .finite negative s e) :
    ∃ sign, isNegative sign = negative ∧
      ((x.toModel.unpack = .zero sign ∧ s = 0) ∨
        ∃ hs, x.toModel.unpack = .finite sign s e hs) := by
  rw [Parts.ofFloat_eq] at h
  rcases hu : x.toModel.unpack with sign | _ | sign | ⟨sign, m, e', hm⟩ <;> rw [hu] at h <;>
    simp only [Parts.ofUnpacked, Parts.finite.injEq, reduceCtorEq] at h
  · exact ⟨sign, h.1, Or.inl ⟨rfl, h.2.1.symm⟩⟩
  · obtain ⟨rfl, rfl, rfl⟩ := h
    exact ⟨sign, rfl, Or.inr ⟨hm, rfl⟩⟩

theorem unpack_of_isPositive {x : Float} (h : isPositive x = true) :
    ∃ s e hs, x.toModel.unpack = .finite .positive s e hs := by
  obtain ⟨s, e, parts, positive⟩ := isPositive_iff.mp h
  obtain ⟨sign, plus, ⟨-, zero⟩ | ⟨hs, unpacked⟩⟩ := unpack_of_finite parts
  · exact absurd zero positive.ne'
  · cases sign
    · cases plus
    · exact ⟨s, e, hs, unpacked⟩

theorem beq_zero_iff {x : Float} :
    (x == 0.0) = true ↔ ∃ negative e, Parts.ofFloat x = .finite negative 0 e := by
  change x.toModel.unpack.beq (0.0 : Float).toModel.unpack = true ↔ _
  rw [unpack_zero, Parts.ofFloat_eq]
  rcases x.toModel.unpack with s | _ | s | ⟨s, m, e, hm⟩
  · cases s <;> simp [UnpackedFloat.beq, UnpackedFloat.compare, Parts.ofUnpacked]
  · simp [UnpackedFloat.beq, UnpackedFloat.compare, Parts.ofUnpacked]
  · cases s <;> simp [UnpackedFloat.beq, UnpackedFloat.compare, Parts.ofUnpacked]
  · cases s <;> simp [UnpackedFloat.beq, UnpackedFloat.compare, Parts.ofUnpacked, hm.ne']

theorem beq_zero_of_isPositive {x : Float} (h : isPositive x = true) : (x == 0.0) = false := by
  obtain ⟨s, e, parts, positive⟩ := isPositive_iff.mp h
  refine Bool.eq_false_iff.mpr fun zero => ?_
  obtain ⟨_, _, parts'⟩ := beq_zero_iff.mp zero
  rw [parts] at parts'
  cases parts'
  exact positive.false

theorem isFinite_of_beq_zero {x : Float} (h : (x == 0.0) = true) : x.isFinite = true := by
  obtain ⟨negative, e, parts⟩ := beq_zero_iff.mp h
  exact isFinite_iff.mpr ⟨negative, 0, e, parts⟩

theorem isInf_of_finite {x : Float} {negative : Bool} {s : ℕ} {e : ℤ}
    (h : Parts.ofFloat x = .finite negative s e) : x.isInf = false := by
  obtain ⟨sign, -, ⟨unpacked, -⟩ | ⟨hs, unpacked⟩⟩ := unpack_of_finite h
  · change x.toModel.unpack.isInf = false
    rw [unpacked]
    rfl
  · change x.toModel.unpack.isInf = false
    rw [unpacked]
    rfl

theorem isNegative_mul (a b : Sign) : isNegative (a * b) = (isNegative a != isNegative b) := by
  cases a <;> cases b <;> rfl

theorem isNegative_div (a b : Sign) : isNegative (a / b) = (isNegative a != isNegative b) := by
  cases a <;> cases b <;> rfl

theorem isNearest_pack_mul (sign sign' : Sign) {m m' : ℕ} {e e' : ℤ} (hm : 0 < m) (hm' : 0 < m')
    (enough : 2 ^ 52 ≤ m * m' ∨ e + e' ≤ -1074) :
    IsNearest (Float.ofModel (Float.Model.pack (UnpackedFloat.mul Format.binary64
      (.finite sign m e hm) (.finite sign' m' e' hm')))) (isNegative (sign * sign'))
      (m * 2 ^ e * (m' * 2 ^ e')) := by
  refine toNat_pack_roundWithAccuracy (sign * sign') ?_ enough
  rw [Describes, sub_eq_zero, div_eq_iff (by positivity), zpow_add₀ two_ne_zero]
  push_cast
  ring

section

variable {x y : Float} {nx ny : Bool} {sx sy : ℕ} {ex ey : ℤ}

theorem isNearest_mul (hx : Parts.ofFloat x = .finite nx sx ex)
    (hy : Parts.ofFloat y = .finite ny sy ey) :
    IsNearest (x * y) (nx != ny) (sx * 2 ^ ex * (sy * 2 ^ ey)) := by
  have cx := canonical_of_finite hx
  have cy := canonical_of_finite hy
  obtain ⟨sign, rfl, ux⟩ := unpack_of_finite hx
  obtain ⟨sign', rfl, uy⟩ := unpack_of_finite hy
  rw [← isNegative_mul]
  change IsNearest (Float.ofModel (Float.Model.pack
    (UnpackedFloat.mul Format.binary64 x.toModel.unpack y.toModel.unpack))) _ _
  obtain ⟨ux, zero⟩ | ⟨px, ux⟩ := ux <;> obtain ⟨uy, zero'⟩ | ⟨py, uy⟩ := uy <;>
    rw [ux, uy] <;> simp only [UnpackedFloat.mul]
  · simpa [zero] using isNearest_pack_zero (sign * sign')
  · simpa [zero] using isNearest_pack_zero (sign * sign')
  · simpa [zero'] using isNearest_pack_zero (sign * sign')
  · refine isNearest_pack_mul sign sign' px py ?_
    rcases cx.normal with large | rfl
    · exact Or.inl (large.trans (Nat.le_mul_of_pos_right _ py))
    · rcases cy.normal with large | rfl
      · exact Or.inl (large.trans (Nat.le_mul_of_pos_left _ px))
      · exact Or.inr (by norm_num)

theorem describes_accuracyOfFraction {num den : ℕ} (positive : 0 < den) :
    Describes (accuracyOfFraction (num % den) den) (num / den - (num / den : ℕ)) := by
  have den_pos : (0 : ℚ) < den := by exact_mod_cast positive
  have rest_lt : ((num % den : ℕ) : ℚ) < den := by exact_mod_cast Nat.mod_lt num positive
  rw [div_eq_div_add_mod num positive, add_sub_cancel_left]
  unfold accuracyOfFraction
  generalize num % den = rest at rest_lt
  split
  · next zero => rw [zero, Nat.cast_zero, zero_div]; rfl
  · next nonzero =>
    have rest_pos : (0 : ℚ) < rest := by exact_mod_cast Nat.pos_of_ne_zero nonzero
    rcases lt_trichotomy (2 * rest) den with h | h | h
    · have h' : (2 * rest : ℚ) < den := by exact_mod_cast h
      rw [compare_lt_iff_lt.mpr h]
      refine ⟨by positivity, ?_⟩
      rw [div_lt_div_iff₀ den_pos two_pos]
      linarith
    · have h' : (2 * rest : ℚ) = den := by exact_mod_cast h
      rw [compare_eq_iff_eq.mpr h]
      change (rest : ℚ) / den = 1 / 2
      rw [div_eq_div_iff den_pos.ne' two_ne_zero]
      linarith
    · have h' : (den : ℚ) < 2 * rest := by exact_mod_cast h
      rw [compare_gt_iff_gt.mpr h]
      refine ⟨?_, (div_lt_one den_pos).mpr rest_lt⟩
      rw [div_lt_div_iff₀ two_pos den_pos]
      linarith

/-- The quotient of two mantissas, taken far enough, has all the bits of a result. -/
theorem enough_div {m m' : ℕ} (hm : 0 < m) (hm' : 0 < m') {shift : ℕ}
    (far : m'.log2 + 53 ≤ m.log2 + shift) : 2 ^ 52 ≤ m * 2 ^ shift / m' := by
  rw [Nat.le_div_iff_mul_le hm']
  calc 2 ^ 52 * m' ≤ 2 ^ 52 * 2 ^ (m'.log2 + 1) := by
        gcongr
        exact Nat.lt_log2_self.le
    _ = 2 ^ (m'.log2 + 53) := by rw [← pow_add]; congr 1; omega
    _ ≤ 2 ^ (m.log2 + shift) := Nat.pow_le_pow_right two_pos far
    _ = 2 ^ m.log2 * 2 ^ shift := pow_add ..
    _ ≤ m * 2 ^ shift := by
        gcongr
        exact Nat.log2_self_le hm.ne'

theorem isNearest_div (hx : Parts.ofFloat x = .finite nx sx ex)
    (hy : Parts.ofFloat y = .finite ny sy ey) (nonzero : 0 < sy) :
    IsNearest (x / y) (nx != ny) (sx * 2 ^ ex / (sy * 2 ^ ey)) := by
  obtain ⟨sign, rfl, ux⟩ := unpack_of_finite hx
  obtain ⟨sign', rfl, uy⟩ := unpack_of_finite hy
  rw [← isNegative_div]
  change IsNearest (Float.ofModel (Float.Model.pack
    (UnpackedFloat.div Format.binary64 x.toModel.unpack y.toModel.unpack))) _ _
  obtain ⟨-, zero⟩ | ⟨py, uy⟩ := uy
  · omega
  obtain ⟨ux, zero⟩ | ⟨px, ux⟩ := ux <;> rw [ux, uy] <;> simp only [UnpackedFloat.div]
  · simpa [zero] using isNearest_pack_zero (sign / sign')
  · unfold divCore totalExponent
    rw [targetExponent_eq]
    simp only
    set target := min (ex - ey)
      (max ((sx.log2 : ℤ) + 1 + ex - ((sy.log2 : ℤ) + 1 + ey) - 53) (-1074)) with target_eq
    have le : target ≤ ex - ey := min_le_left _ _
    rw [Nat.shiftLeft_eq]
    refine toNat_pack_roundWithAccuracy (sign / sign') ?_ ?_
    · have quotient : (sx * 2 ^ ex / (sy * 2 ^ ey) : ℚ) / 2 ^ target =
          ((sx * 2 ^ (ex - ey - target).toNat : ℕ) : ℚ) / sy := by
        have shift : (2 : ℚ) ^ (ex - ey - target).toNat = 2 ^ ex / 2 ^ ey / 2 ^ target := by
          rw [← zpow_natCast, Int.toNat_of_nonneg (by omega), zpow_sub₀ two_ne_zero,
            zpow_sub₀ two_ne_zero]
        push_cast
        rw [shift]
        field_simp
      rw [quotient]
      exact describes_accuracyOfFraction nonzero
    · by_cases small : target ≤ -1074
      · exact Or.inr small
      · exact Or.inl (enough_div px py (by omega))

theorem isNearest_pack_round (sign : Sign) {m : ℕ} (e : ℤ) (positive : 0 < m) :
    IsNearest (Float.ofModel (Float.Model.pack (UnpackedFloat.round Format.binary64 sign m e)))
      (isNegative sign) (m * 2 ^ e) := by
  unfold UnpackedFloat.round decreaseExponent totalExponent
  rw [targetExponent_eq]
  simp only
  set shift := (e - max ((m.log2 : ℤ) + 1 + e - 53) (-1074)).toNat with shift_eq
  rw [Nat.shiftLeft_eq]
  refine toNat_pack_roundWithAccuracy sign ?_ ?_
  · rw [Describes, sub_eq_zero, div_eq_iff (by positivity)]
    push_cast
    rw [mul_assoc, ← zpow_natCast, ← zpow_add₀ two_ne_zero]
    congr 2
    omega
  · by_cases small : e - shift ≤ -1074
    · exact Or.inr small
    · left
      calc 2 ^ 52 ≤ 2 ^ (m.log2 + shift) := Nat.pow_le_pow_right two_pos (by omega)
        _ = 2 ^ m.log2 * 2 ^ shift := pow_add ..
        _ ≤ m * 2 ^ shift := by
            gcongr
            exact Nat.log2_self_le positive.ne'

/-- Rounding a whole number of places under its own sign; zero is positive. -/
theorem isNearest_pack_normalize (n : ℤ) (e : ℤ) :
    IsNearest (Float.ofModel (Float.Model.pack
      (UnpackedFloat.normalize Format.binary64 n e .positive))) (decide (n < 0))
      (|(n : ℚ)| * 2 ^ e) := by
  unfold UnpackedFloat.normalize
  rcases lt_trichotomy n 0 with h | rfl | h
  · rw [compare_lt_iff_lt.mpr h, decide_eq_true h]
    have size : |(n : ℚ)| = ((-n).toNat : ℕ) := by
      rw [← Int.cast_abs, abs_of_neg h, ← Int.cast_natCast, Int.toNat_of_nonneg (by omega)]
    rw [size]
    exact isNearest_pack_round .negative e (by omega)
  · simpa [isNegative] using isNearest_pack_zero .positive
  · rw [compare_gt_iff_gt.mpr h, decide_eq_false (by omega)]
    have size : |(n : ℚ)| = (n.toNat : ℕ) := by
      rw [← Int.cast_abs, abs_of_pos h, ← Int.cast_natCast, Int.toNat_of_nonneg h.le]
    rw [size]
    exact isNearest_pack_round .positive e (by omega)

theorem isNearest_pack_normalize_of_eq {n e : ℤ} {q : ℚ} (same : (n : ℚ) * 2 ^ e = q) :
    IsNearest (Float.ofModel (Float.Model.pack
      (UnpackedFloat.normalize Format.binary64 n e .positive))) (decide (q < 0)) |q| := by
  have grid : (0 : ℚ) < 2 ^ e := by positivity
  have sign : q < 0 ↔ n < 0 := by rw [← same, mul_neg_iff]; simp [grid, grid.not_gt]
  have rounded := isNearest_pack_normalize n e
  rwa [← abs_of_pos grid, ← abs_mul, same, decide_eq_decide.mpr sign.symm] at rounded

theorem decreaseExponent_value (sign : Sign) (m : ℕ) {e e' : ℤ} (le : e' ≤ e) :
    (sign.apply (decreaseExponent m e e').1 : ℚ) * 2 ^ e' =
      if isNegative sign then -(m * 2 ^ e : ℚ) else m * 2 ^ e := by
  have shift : (2 : ℚ) ^ (e - e').toNat * 2 ^ e' = 2 ^ e := by
    rw [← zpow_natCast, ← zpow_add₀ two_ne_zero]
    congr 1
    omega
  cases sign <;>
    simp only [decreaseExponent, Nat.shiftLeft_eq, Sign.apply, isNegative] <;> push_cast
  · rw [neg_mul, mul_assoc, shift]
  · rw [mul_assoc, shift]

/-- A difference is rounded to the nearest double. If the minuend is not negative, and not `-0`
either, neither is the difference unless more is taken away. -/
theorem isNearest_sub (hx : Parts.ofFloat x = .finite nx sx ex)
    (hy : Parts.ofFloat y = .finite ny sy ey) :
    ∃ negative, IsNearest (x - y) negative |value x - value y| ∧
      (nx = false → negative = decide (value x < value y)) := by
  have cx := canonical_of_finite hx
  have cy := canonical_of_finite hy
  have vx := value_eq_of_finite hx
  have vy := value_eq_of_finite hy
  obtain ⟨sign, rfl, ux⟩ := unpack_of_finite hx
  obtain ⟨sign', rfl, uy⟩ := unpack_of_finite hy
  change ∃ negative, IsNearest (Float.ofModel (Float.Model.pack
    (UnpackedFloat.sub Format.binary64 x.toModel.unpack y.toModel.unpack))) negative _ ∧ _
  obtain ⟨ux, zero⟩ | ⟨px, ux⟩ := ux <;> obtain ⟨uy, zero'⟩ | ⟨py, uy⟩ := uy <;>
    rw [ux, uy] <;> simp only [UnpackedFloat.sub]
  · have same : |value x - value y| = 0 := by simp [vx, vy, zero, zero']
    rw [same]
    split
    · exact ⟨_, isNearest_pack_zero _, fun h => by simp [h, vx, vy, zero, zero']⟩
    · exact ⟨_, isNearest_pack_zero _, fun _ => by simp [vx, vy, zero, zero', isNegative]⟩
  · have size : |value x - value y| = sy * 2 ^ ey := by
      rw [vx, vy, zero]
      cases isNegative sign' <;> simp
    rw [size]
    refine ⟨_, isNearest_pack_finite (-sign') py cy, fun _ => ?_⟩
    have positive : (0 : ℚ) < sy * 2 ^ ey := by positivity
    cases sign'
    · simpa [vx, vy, zero, isNegative] using positive.le
    · simpa [vx, vy, zero, isNegative] using positive
  · have size : |value x - value y| = sx * 2 ^ ex := by
      rw [vx, vy, zero']
      cases isNegative sign <;> simp
    rw [size]
    refine ⟨_, isNearest_pack_finite sign px cx, fun h => ?_⟩
    have positive : (0 : ℚ) < sx * 2 ^ ex := by positivity
    simp [vx, vy, h, zero', positive.le]
  · have exactly : ((sign.apply (decreaseExponent sx ex (min ex ey)).1 -
        sign'.apply (decreaseExponent sy ey (min ex ey)).1 : ℤ) : ℚ) * 2 ^ min ex ey =
        value x - value y := by
      rw [Int.cast_sub, sub_mul, decreaseExponent_value sign sx (min_le_left _ _),
        decreaseExponent_value sign' sy (min_le_right _ _), ← vx, ← vy]
    exact ⟨_, isNearest_pack_normalize_of_eq exactly, fun _ => decide_eq_decide.mpr sub_neg⟩

theorem isNearest_add (hx : Parts.ofFloat x = .finite false sx ex)
    (hy : Parts.ofFloat y = .finite false sy ey) :
    IsNearest (x + y) false (value x + value y) := by
  have cx := canonical_of_finite hx
  have cy := canonical_of_finite hy
  have vx := value_eq hx
  have vy := value_eq hy
  obtain ⟨sign, plus, ux⟩ := unpack_of_finite hx
  obtain ⟨sign', plus', uy⟩ := unpack_of_finite hy
  change IsNearest (Float.ofModel (Float.Model.pack
    (UnpackedFloat.add Format.binary64 x.toModel.unpack y.toModel.unpack))) _ _
  obtain ⟨ux, zero⟩ | ⟨px, ux⟩ := ux <;> obtain ⟨uy, zero'⟩ | ⟨py, uy⟩ := uy <;>
    rw [ux, uy] <;> simp only [UnpackedFloat.add]
  · have same : (sign == sign') = true := by cases sign <;> cases sign' <;> simp_all [isNegative]
    rw [if_pos same, ← plus]
    simpa [vx, vy, zero, zero'] using isNearest_pack_zero sign
  · rw [← plus']
    simpa [vx, vy, zero] using isNearest_pack_finite sign' py cy
  · rw [← plus]
    simpa [vx, vy, zero'] using isNearest_pack_finite sign px cx
  · have exactly : ((sign.apply (decreaseExponent sx ex (min ex ey)).1 +
        sign'.apply (decreaseExponent sy ey (min ex ey)).1 : ℤ) : ℚ) * 2 ^ min ex ey =
        value x + value y := by
      rw [Int.cast_add, add_mul, decreaseExponent_value sign sx (min_le_left _ _),
        decreaseExponent_value sign' sy (min_le_right _ _), plus, plus', vx, vy]
      simp
    have nonneg : 0 ≤ value x + value y := by rw [vx, vy]; positivity
    have rounded := isNearest_pack_normalize_of_eq exactly
    rwa [decide_eq_false nonneg.not_gt, abs_of_nonneg nonneg] at rounded

theorem ofFloat_abs (hx : Parts.ofFloat x = .finite nx sx ex) :
    Parts.ofFloat x.abs = .finite false sx ex := by
  have canonical := canonical_of_finite hx
  have upper := exponent_le_of_finite hx
  refine ofBits_eq_finite_iff.mpr ⟨canonical, upper, ?_⟩
  obtain ⟨sign, rfl, ux⟩ := unpack_of_finite hx
  change (pack Format.binary64 (UnpackedFloat.abs x.toModel.unpack)).toNat = _
  obtain ⟨ux, zero⟩ | ⟨px, ux⟩ := ux <;> rw [ux]
  · have least : ex = -1074 := canonical.normal.resolve_left (by omega)
    rw [UnpackedFloat.abs, toNat_pack_zero, zero, least]
    rfl
  · rw [UnpackedFloat.abs, toNat_pack_finite _ _ canonical,
      min_eq_left (bitsOf_lt_infinityBits canonical upper).le]
    rfl

theorem ofFloat_neg (hx : Parts.ofFloat x = .finite nx sx ex) :
    Parts.ofFloat (-x) = .finite (!nx) sx ex := by
  have canonical := canonical_of_finite hx
  have upper := exponent_le_of_finite hx
  refine ofBits_eq_finite_iff.mpr ⟨canonical, upper, ?_⟩
  obtain ⟨sign, rfl, ux⟩ := unpack_of_finite hx
  have other : isNegative (-sign) = !isNegative sign := by cases sign <;> rfl
  change (pack Format.binary64 (UnpackedFloat.neg x.toModel.unpack)).toNat = _
  rw [← other]
  obtain ⟨ux, zero⟩ | ⟨px, ux⟩ := ux <;> rw [ux]
  · have least : ex = -1074 := canonical.normal.resolve_left (by omega)
    rw [UnpackedFloat.neg, toNat_pack_zero, zero, least]
    rfl
  · rw [UnpackedFloat.neg, toNat_pack_finite _ _ canonical,
      min_eq_left (bitsOf_lt_infinityBits canonical upper).le]

end

theorem isFinite_neg (x : Float) : (-x).isFinite = x.isFinite := by
  by_cases finite : x.isFinite = true
  · obtain ⟨negative, s, e, parts⟩ := isFinite_iff.mp finite
    rw [finite, isFinite_iff]
    exact ⟨!negative, s, e, ofFloat_neg parts⟩
  · rw [Bool.not_eq_true] at finite
    have infinite : x.toModel.unpack.isFinite = false := finite
    rw [finite]
    change (Float.ofModel (Float.Model.pack (UnpackedFloat.neg x.toModel.unpack))).isFinite = false
    rcases unpacked : x.toModel.unpack with s | _ | s | ⟨s, m, e, hm⟩
    · cases s <;> rfl
    · rfl
    · rw [unpacked] at infinite
      cases infinite
    · rw [unpacked] at infinite
      cases infinite

theorem isFinite_abs (x : Float) : x.abs.isFinite = x.isFinite := by
  by_cases finite : x.isFinite = true
  · obtain ⟨negative, s, e, parts⟩ := isFinite_iff.mp finite
    rw [finite, isFinite_iff]
    exact ⟨false, s, e, ofFloat_abs parts⟩
  · rw [Bool.not_eq_true] at finite
    have infinite : x.toModel.unpack.isFinite = false := finite
    rw [finite]
    change (Float.ofModel (Float.Model.pack (UnpackedFloat.abs x.toModel.unpack))).isFinite = false
    rcases unpacked : x.toModel.unpack with s | _ | s | ⟨s, m, e, hm⟩
    · cases s <;> rfl
    · rfl
    · rw [unpacked] at infinite
      cases infinite
    · rw [unpacked] at infinite
      cases infinite

theorem neg_beq_zero_iff (x : Float) : (-x == 0.0) = true ↔ (x == 0.0) = true := by
  rw [beq_zero_iff, beq_zero_iff]
  constructor
  · rintro ⟨_, _, zero⟩
    have finite := isFinite_iff.mpr ⟨_, _, _, zero⟩
    rw [isFinite_neg] at finite
    obtain ⟨negative, s, e, parts⟩ := isFinite_iff.mp finite
    rw [ofFloat_neg parts] at zero
    cases zero
    exact ⟨negative, _, parts⟩
  · rintro ⟨negative, e, zero⟩
    exact ⟨!negative, e, ofFloat_neg zero⟩

theorem isNearest_toFloat (w : UInt64) : IsNearest w.toFloat false w.toNat := by
  have rounded := isNearest_pack_normalize w.toNat 0
  rwa [zpow_zero, mul_one, decide_eq_false (by omega), Int.cast_natCast, Nat.abs_cast] at rounded

theorem isNearest_ofNat (n : ℕ) : IsNearest (Float.ofNat n) false n := by
  change IsNearest (Float.ofScientific n false 0) false n
  unfold Float.ofScientific
  split
  · next small =>
    have one : Parts.ofFloat (Float.ofBits 0x3FF0000000000000) = .finite false (2 ^ 52) (-52) := by
      decide +kernel
    have word : n.toUInt64.toNat = n := Nat.mod_eq_of_lt (small.1.trans (by norm_num))
    have whole := isNearest_toFloat n.toUInt64
    rw [word, ← mul_one (n : ℚ), ← zpow_zero 2] at whole
    obtain ⟨s, e, parts, same⟩ := whole.exact small.1 (by norm_num) (by norm_num)
    have product := isNearest_mul parts one
    rw [same] at product
    norm_num at product
    exact product
  · next large =>
    have enough : 2 ^ 52 ≤ n * 2 ^ 53 * 1 ∨ (-53 : ℤ) + 0 ≤ -1074 := Or.inl (by omega)
    have product := isNearest_pack_mul .positive .positive (by omega) one_pos enough
    have scaled : n <<< Format.binary64.mantissaBits = n * 2 ^ 53 := Nat.shiftLeft_eq n 53
    have size : ((n * 2 ^ 53 : ℕ) * 2 ^ (-53 : ℤ) * ((1 : ℕ) * 2 ^ (0 : ℤ)) : ℚ) = n := by
      push_cast
      norm_num
      ring
    rw [size] at product
    simp only [Bool.false_eq_true, if_false]
    unfold Float.Model.ofScientific UnpackedFloat.ofScientific
    rw [dif_neg (by omega), if_neg (by decide), if_neg (by simp), if_pos (by decide)]
    simp only [scaled]
    exact product

end FermiQuiz.Number
