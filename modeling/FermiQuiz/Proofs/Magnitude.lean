import Mathlib
import FermiQuiz.Magnitude
import FermiQuiz.Proofs.Number.Range

/-!
# Orders of magnitude

The order of magnitude of a double is the greatest `k` for which the double nearest to `10 ^ k` is
not above it. It is read off shortest digits, but so it depends on the value alone and grows with
it, and doubles have the same order of magnitude exactly if no power of ten separates them.
-/

namespace FermiQuiz

open Number

theorem magnitude_eq_ok_iff {x : Float} {m : ℤ} :
    magnitude x = .ok m ↔ ∃ s e, Parts.ofFloat x = .finite false s e ∧ 0 < s ∧
      (shortest .up s e).exponent = m := by
  unfold magnitude
  constructor
  · intro h
    split at h
    · next s e parts =>
      split at h
      · cases h
      · next nonzero =>
        cases h
        exact ⟨s, e, parts, Nat.pos_of_ne_zero nonzero, rfl⟩
    · cases h
  · rintro ⟨s, e, parts, positive, rfl⟩
    simp only [parts]
    rw [if_neg positive.ne']

/-- The doubles with an order of magnitude are the positive ones. -/
theorem exists_magnitude_iff {x : Float} : (∃ m, magnitude x = .ok m) ↔ isPositive x = true := by
  simp only [magnitude_eq_ok_iff, isPositive_iff]
  constructor
  · rintro ⟨m, s, e, parts, positive, -⟩
    exact ⟨s, e, parts, positive⟩
  · rintro ⟨s, e, parts, positive⟩
    exact ⟨_, s, e, parts, positive, rfl⟩

/-! ### Thresholds -/

theorem nearestDecimal_le_iff {x : Float} {s : ℕ} {e : ℤ}
    (parts : Parts.ofFloat x = .finite false s e) (n : ℕ) (k : ℤ) :
    nearestDecimal n k ≤ x ↔ ∃ s' e', RoundsTo (n * 10 ^ k) s' e' ∧ bitsOf s' e' ≤ bitsOf s e := by
  have bits := toNat_toBits_eq_bitsOf parts
  have small := bitsOf_lt_infinityBits (canonical_of_finite parts) (exponent_le_of_finite parts)
  obtain ⟨s', e', rounds, bits'⟩ := isNearest_nearestDecimal n k
  rw [signBit_false, zero_add] at bits'
  rw [le_iff_bits_le (bits' ▸ min_le_right _ _) (toNat_toBits_le_infinityBits parts), bits, bits']
  constructor
  · intro le
    exact ⟨s', e', rounds, by omega⟩
  · rintro ⟨s'', e'', rounds', le⟩
    rw [rounds.bitsOf_eq rounds']
    exact (min_le_left _ _).trans le

/-- The order of magnitude of a double reaches `k` exactly if the double reaches the one nearest to
`10 ^ k`. -/
theorem le_magnitude_iff {x : Float} {m : ℤ} (h : magnitude x = .ok m) (k : ℤ) :
    k ≤ m ↔ nearestDecimal 1 k ≤ x := by
  obtain ⟨s, e, parts, positive, rfl⟩ := magnitude_eq_ok_iff.mp h
  have canonical := canonical_of_finite parts
  obtain ⟨coefficient, -, -⟩ := shortest_spec .up (e := e) canonical.bound positive
  obtain ⟨begins, ends⟩ := Decimal.exponent_spec coefficient
  have back := (readsBack_iff positive).mp (readsBack_shortest .up (e := e) canonical.bound positive)
  obtain ⟨s₀, e₀, rounds₀, same₀⟩ := roundsTo_of_within canonical back
  rw [nearestDecimal_le_iff parts, Nat.cast_one, one_mul]
  constructor
  · intro le
    obtain ⟨s', e', rounds⟩ := exists_roundsTo 1 k
    rw [Nat.cast_one, one_mul] at rounds
    have below : (10 : ℚ) ^ k ≤ (shortest .up s e).value :=
      (zpow_le_zpow_right₀ (by norm_num) le).trans begins
    exact ⟨s', e', rounds, (rounds.bitsOf_le rounds₀ below).trans_eq same₀⟩
  · -- Otherwise the next power of ten would read back.
    rintro ⟨s', e', rounds, le⟩
    by_contra! beyond
    obtain ⟨s₁, e₁, rounds₁⟩ := exists_roundsTo 1 ((shortest .up s e).exponent + 1)
    rw [Nat.cast_one, one_mul] at rounds₁
    have upper : bitsOf s₁ e₁ ≤ bitsOf s e := (rounds₁.bitsOf_le rounds
      (zpow_le_zpow_right₀ (by norm_num) (by omega))).trans le
    have lower : bitsOf s e ≤ bitsOf s₁ e₁ := same₀.symm.trans_le (rounds₀.bitsOf_le rounds₁ ends.le)
    have reads : readsBack s e ⟨1, (shortest .up s e).exponent + 1⟩ = true := by
      rw [readsBack_iff positive, Decimal.value, Nat.cast_one, one_mul]
      exact within_of_roundsTo canonical rounds₁ (upper.antisymm lower)
    rw [readsBack_next_power .up canonical positive] at reads
    cases reads

/-- Two doubles have the same order of magnitude exactly if they lie on the same side of every
power of ten. -/
theorem magnitude_eq_iff {x y : Float} {m n : ℤ} (hx : magnitude x = .ok m)
    (hy : magnitude y = .ok n) :
    m = n ↔ ∀ k : ℤ, nearestDecimal 1 k ≤ x ↔ nearestDecimal 1 k ≤ y := by
  simp only [← le_magnitude_iff hx, ← le_magnitude_iff hy]
  constructor
  · rintro rfl k
    exact Iff.rfl
  · intro same
    exact le_antisymm ((same m).mp le_rfl) ((same n).mpr le_rfl)

/-! ### Order -/

theorem magnitude_mono {x y : Float} {m n : ℤ} (hx : magnitude x = .ok m)
    (hy : magnitude y = .ok n) (le : x ≤ y) : m ≤ n := by
  obtain ⟨s, e, parts, -⟩ := magnitude_eq_ok_iff.mp hx
  obtain ⟨s', e', parts', -⟩ := magnitude_eq_ok_iff.mp hy
  have reached := (le_magnitude_iff hx m).mp le_rfl
  have power := (isNearest_nearestDecimal 1 m).bits_le
  have bits := toNat_toBits_le_infinityBits parts
  have bits' := toNat_toBits_le_infinityBits parts'
  rw [le_magnitude_iff hy, le_iff_bits_le power bits']
  rw [le_iff_bits_le power bits] at reached
  rw [le_iff_bits_le bits bits'] at le
  exact reached.trans le

theorem lt_iff_magnitude_lt {x y : Float} {m n : ℤ} (hx : magnitude x = .ok m)
    (hy : magnitude y = .ok n) (other : m ≠ n) : x < y ↔ m < n := by
  obtain ⟨s, e, parts, -⟩ := magnitude_eq_ok_iff.mp hx
  obtain ⟨s', e', parts', -⟩ := magnitude_eq_ok_iff.mp hy
  constructor
  · intro less
    have le : x ≤ y := (le_iff_value_le parts parts').mpr ((lt_iff_value_lt parts parts').mp less).le
    exact lt_of_le_of_ne (magnitude_mono hx hy le) other
  · intro less
    rw [lt_iff_value_lt parts parts']
    by_contra! above
    have ge := magnitude_mono hy hx ((le_iff_value_le parts' parts).mpr above)
    omega

/-! ### Sizes -/

theorem two_zpow_le_ten_zpow {k : ℤ} (lower : -307 ≤ k) : (2 : ℚ) ^ (-1022 : ℤ) ≤ 10 ^ k := by
  refine le_trans ?_ (zpow_le_zpow_right₀ (by norm_num) lower)
  have : 10 ^ 307 ≤ 2 ^ 1022 := by decide +kernel
  have cast : (10 ^ 307 : ℚ) ≤ 2 ^ 1022 := by exact_mod_cast this
  rw [zpow_neg, zpow_neg]
  exact inv_anti₀ (by positivity) cast

theorem ten_zpow_lt_overflow {k : ℤ} (upper : k ≤ 308) : (10 : ℚ) ^ k < overflow := by
  refine (zpow_le_zpow_right₀ (by norm_num) upper).trans_lt ?_
  exact_mod_cast ten_pow_lt_overflow le_rfl

theorem exists_parts_power {k : ℤ} (lower : -307 ≤ k) (upper : k ≤ 308) :
    ∃ s e, Parts.ofFloat (nearestDecimal 1 k) = .finite false s e ∧
      |value (nearestDecimal 1 k) - 10 ^ k| ≤ 10 ^ k / 2 ^ 53 := by
  have nearest := isNearest_nearestDecimal 1 k
  rw [Nat.cast_one, one_mul] at nearest
  obtain ⟨s, e, parts, error⟩ :=
    nearest.exists_parts_of_lt (two_zpow_le_ten_zpow lower) (ten_zpow_lt_overflow upper)
  exact ⟨s, e, parts, by rwa [value_eq parts]⟩

/-- Up to the rounding of `10 ^ k`, a double whose order of magnitude reaches `k` reaches
`10 ^ k`. -/
theorem power_le_value_of_le_magnitude {x : Float} {m k : ℤ} (h : magnitude x = .ok m)
    (lower : -307 ≤ k) (upper : k ≤ 308) (le : k ≤ m) :
    (10 : ℚ) ^ k * (1 - 1 / 2 ^ 53) ≤ value x := by
  obtain ⟨s, e, parts, -⟩ := magnitude_eq_ok_iff.mp h
  obtain ⟨s', e', parts', error⟩ := exists_parts_power lower upper
  have reached := (le_iff_value_le parts' parts).mp ((le_magnitude_iff h k).mp le)
  have near := neg_le_of_abs_le error
  linarith

theorem value_lt_power_of_magnitude_lt {x : Float} {m k : ℤ} (h : magnitude x = .ok m)
    (lower : -307 ≤ k) (upper : k ≤ 308) (lt : m < k) :
    value x < (10 : ℚ) ^ k * (1 + 1 / 2 ^ 53) := by
  obtain ⟨s, e, parts, -⟩ := magnitude_eq_ok_iff.mp h
  obtain ⟨s', e', parts', error⟩ := exists_parts_power lower upper
  have missed : ¬ value (nearestDecimal 1 k) ≤ value x := fun reached =>
    absurd ((le_magnitude_iff h k).mpr ((le_iff_value_le parts' parts).mpr reached)) (by omega)
  have near := le_of_abs_le error
  linarith

end FermiQuiz
