import Mathlib
import FermiQuiz.Number.Power
import FermiQuiz.Proofs.Number.Arithmetic

/-!
# Powers of ten by squaring

Each multiplication moves its result by at most a factor `slack`. `IsClose n x q` counts these
factors, so that the error of `powerOfTen` follows the squarings that make it: a factor for each
sixteen tens of the exponent, since the first powers are doubles.
-/

namespace FermiQuiz.Number

/-! ### Counting roundings -/

/-- A factor by which no rounding of a normal number exceeds, up or down. -/
def slack : ℚ := 1 + 1 / 2 ^ 52

theorem one_le_slack : 1 ≤ slack := by norm_num [slack]

theorem slack_pos : 0 < slack := zero_lt_one.trans_le one_le_slack

theorem slack_pow_le {n : ℕ} (few : n ≤ 1000) : slack ^ n ≤ 1 + 1 / 2 ^ 40 := by
  refine (pow_le_pow_right₀ one_le_slack few).trans ?_
  have whole : (2 ^ 52 + 1) ^ 1000 * 2 ^ 40 ≤ (2 ^ 40 + 1) * (2 ^ 52) ^ 1000 := by decide +kernel
  have whole' : ((2 ^ 52 + 1 : ℚ)) ^ 1000 * 2 ^ 40 ≤ (2 ^ 40 + 1) * (2 ^ 52) ^ 1000 := by
    exact_mod_cast whole
  have quotient : slack = (2 ^ 52 + 1) / 2 ^ 52 := by norm_num [slack]
  have bound : (1 + 1 / 2 ^ 40 : ℚ) = (2 ^ 40 + 1) / 2 ^ 40 := by norm_num
  rw [quotient, bound, div_pow, div_le_div_iff₀ (by positivity) (by positivity)]
  exact whole'

theorem slack_pow_le_two {n : ℕ} (few : n ≤ 1000) : slack ^ n ≤ 2 :=
  (slack_pow_le few).trans (by norm_num)

/-- Numbers that stay normal doubles when they are doubled or halved. -/
structure Moderate (q : ℚ) : Prop where
  lower : 2 ^ (-1020 : ℤ) ≤ q
  upper : q ≤ 2 ^ (1020 : ℤ)

theorem Moderate.normal_le {q v : ℚ} (h : Moderate q) (half : q ≤ v * 2) :
    2 ^ (-1022 : ℤ) ≤ v := by
  have split : (2 : ℚ) ^ (-1020 : ℤ) = 2 ^ (-1022 : ℤ) * 4 := by
    rw [show (-1020 : ℤ) = -1022 + 2 by norm_num, zpow_add₀ two_ne_zero]
    congr 1
  have least := h.lower
  have positive : (0 : ℚ) < 2 ^ (-1022 : ℤ) := by positivity
  rw [split] at least
  linarith

theorem Moderate.le_normal {q v : ℚ} (h : Moderate q) (double : v ≤ q * 2) :
    v ≤ 2 ^ (1023 : ℤ) := by
  have split : (2 : ℚ) ^ (1023 : ℤ) = 2 ^ (1020 : ℤ) * 8 := by
    rw [show (1023 : ℤ) = 1020 + 3 by norm_num, zpow_add₀ two_ne_zero]
    congr 1
  have most := h.upper
  have positive : (0 : ℚ) < 2 ^ (1020 : ℤ) := by positivity
  rw [split]
  generalize (2 : ℚ) ^ (1020 : ℤ) = top at most positive
  linarith

/-- `x` is a positive double that at most `n` roundings lead away from `q`. -/
def IsClose (n : ℕ) (x : Float) (q : ℚ) : Prop :=
  (∃ s e, Parts.ofFloat x = .finite false s e) ∧
    q ≤ value x * slack ^ n ∧ value x ≤ q * slack ^ n

theorem IsClose.value_pos {n : ℕ} {x : Float} {q : ℚ} (h : IsClose n x q) (positive : 0 < q) :
    0 < value x :=
  pos_of_mul_pos_left (positive.trans_le h.2.1) (pow_pos slack_pos n).le

theorem IsClose.mono {n n' : ℕ} {x : Float} {q : ℚ} (h : IsClose n x q) (positive : 0 < q)
    (le : n ≤ n') : IsClose n' x q := by
  have value_pos := h.value_pos positive
  obtain ⟨parts, lower, upper⟩ := h
  have more : slack ^ n ≤ slack ^ n' := pow_le_pow_right₀ one_le_slack le
  exact ⟨parts, lower.trans (by gcongr), upper.trans (by gcongr)⟩

theorem IsClose.of_isNearest {n : ℕ} {x : Float} {q v : ℚ} (h : IsNearest x false v)
    (lower : q ≤ v * slack ^ n) (upper : v ≤ q * slack ^ n) (few : n ≤ 1000)
    (moderate : Moderate q) : IsClose (n + 1) x q := by
  have two := slack_pow_le_two few
  have positive : 0 < q := lt_of_lt_of_le (by positivity) moderate.lower
  have v_pos : 0 < v := pos_of_mul_pos_left (positive.trans_le lower) (pow_pos slack_pos n).le
  have half : q ≤ v * 2 := lower.trans (by gcongr)
  have double : v ≤ q * 2 := upper.trans (by gcongr)
  obtain ⟨s, e, parts, error⟩ := h.exists_parts (moderate.normal_le half) (moderate.le_normal double)
  rw [← value_eq parts] at error
  obtain ⟨below, above⟩ := abs_le.mp error
  have down : v ≤ value x * slack := by
    unfold slack
    linarith
  have up : value x ≤ v * slack := by
    unfold slack
    linarith
  refine ⟨⟨s, e, parts⟩, ?_, ?_⟩
  · calc q ≤ v * slack ^ n := lower
      _ ≤ value x * slack * slack ^ n := by gcongr; exact (pow_pos slack_pos n).le
      _ = value x * slack ^ (n + 1) := by ring
  · calc value x ≤ v * slack := up
      _ ≤ q * slack ^ n * slack := by gcongr; exact slack_pos.le
      _ = q * slack ^ (n + 1) := by ring

section

variable {n n' : ℕ} {x y : Float} {p q : ℚ}

theorem IsClose.mul (hx : IsClose n x p) (hy : IsClose n' y q) (hp : 0 < p) (hq : 0 < q)
    (few : n + n' ≤ 1000) (moderate : Moderate (p * q)) :
    IsClose (n + n' + 1) (x * y) (p * q) := by
  have x_pos := hx.value_pos hp
  have y_pos := hy.value_pos hq
  have factor := pow_pos slack_pos n
  have factor' := pow_pos slack_pos n'
  obtain ⟨⟨s, e, parts⟩, lower, upper⟩ := hx
  obtain ⟨⟨s', e', parts'⟩, lower', upper'⟩ := hy
  have rounded := isNearest_mul parts parts'
  rw [bne_self_eq_false, ← value_eq parts, ← value_eq parts'] at rounded
  refine .of_isNearest rounded ?_ ?_ few moderate
  · calc p * q ≤ value x * slack ^ n * (value y * slack ^ n') := by gcongr
      _ = value x * value y * slack ^ (n + n') := by rw [pow_add]; ring
  · calc value x * value y ≤ p * slack ^ n * (q * slack ^ n') := by gcongr
      _ = p * q * slack ^ (n + n') := by rw [pow_add]; ring

theorem IsClose.div (hx : IsClose n x p) (hy : IsClose n' y q) (hp : 0 < p) (hq : 0 < q)
    (few : n + n' ≤ 1000) (moderate : Moderate (p / q)) :
    IsClose (n + n' + 1) (x / y) (p / q) := by
  have x_pos := hx.value_pos hp
  have y_pos := hy.value_pos hq
  have factor := pow_pos slack_pos n
  have factor' := pow_pos slack_pos n'
  obtain ⟨⟨s, e, parts⟩, lower, upper⟩ := hx
  obtain ⟨⟨s', e', parts'⟩, lower', upper'⟩ := hy
  have rounded := isNearest_div parts parts' (significand_pos parts' y_pos)
  rw [bne_self_eq_false, ← value_eq parts, ← value_eq parts'] at rounded
  refine .of_isNearest rounded ?_ ?_ few moderate
  · rw [div_mul_eq_mul_div, div_le_div_iff₀ hq y_pos]
    calc p * value y ≤ value x * slack ^ n * (q * slack ^ n') := by gcongr
      _ = value x * slack ^ (n + n') * q := by rw [pow_add]; ring
  · rw [div_mul_eq_mul_div, div_le_div_iff₀ y_pos hq]
    calc value x * q ≤ p * slack ^ n * (value y * slack ^ n') := by gcongr
      _ = p * slack ^ (n + n') * value y := by rw [pow_add]; ring

theorem isClose_self {s : ℕ} {e : ℤ} (parts : Parts.ofFloat x = .finite false s e) :
    IsClose 0 x (value x) := by
  refine ⟨⟨s, e, parts⟩, ?_, ?_⟩ <;> rw [pow_zero, mul_one]

end

theorem isClose_one : IsClose 0 1.0 1 := by
  have start := isClose_self parts_one
  rw [value_eq parts_one] at start
  norm_num at start
  exact start

theorem isClose_ten : IsClose 0 10.0 10 := by
  have ten : Parts.ofFloat 10.0 = .finite false 5629499534213120 (-49) := by decide +kernel
  have start := isClose_self ten
  rw [value_eq ten] at start
  norm_num at start
  exact start

/-- Up to `10 ^ 22` the powers of ten are doubles, and their products are exact. -/
theorem IsClose.mul_exact {a b : ℕ} {x y : Float} (hx : IsClose 0 x (10 ^ a))
    (hy : IsClose 0 y (10 ^ b)) (few : a + b ≤ 22) : IsClose 0 (x * y) (10 ^ (a + b)) := by
  obtain ⟨⟨s, e, parts⟩, lower, upper⟩ := hx
  obtain ⟨⟨s', e', parts'⟩, lower', upper'⟩ := hy
  rw [pow_zero, mul_one] at lower upper lower' upper'
  have rounded := isNearest_mul parts parts'
  have product : (10 : ℚ) ^ (a + b) = (5 ^ (a + b) : ℕ) * 2 ^ ((a + b : ℕ) : ℤ) := by
    rw [zpow_natCast, Nat.cast_pow, ← mul_pow]
    norm_num
  rw [bne_self_eq_false, ← value_eq parts, ← value_eq parts', upper.antisymm lower,
    upper'.antisymm lower', ← pow_add, product] at rounded
  have bound : 5 ^ (a + b) < 2 ^ 53 :=
    (Nat.pow_le_pow_right (by norm_num) few).trans_lt (by norm_num)
  obtain ⟨t, f, parts'', same⟩ := rounded.exact bound (by omega) (by omega)
  rw [← product, ← value_eq parts''] at same
  exact same ▸ isClose_self parts''

/-! ### Squaring -/

/-- What a bit of the exponent adds: the square, if the bit is set; the square is squared. -/
def tenStep (n : ℕ) (state : Float × Float) (i : ℕ) : Float × Float :=
  (if n.testBit i then state.1 * state.2 else state.1, state.2 * state.2)

theorem tenToThe_eq_foldl (n : ℕ) :
    tenToThe n = ((List.range (n.log2 + 1)).foldl (tenStep n) (1.0, 10.0)).1 := rfl

/-- After the bits below `i`: the product is off by a rounding for each sixteen tens, and the
square is the next power to multiply by, as long as one is needed. -/
structure TenState (n i : ℕ) (state : Float × Float) : Prop where
  product : IsClose (n % 2 ^ i / 16) state.1 (10 ^ (n % 2 ^ i))
  square : 2 ^ i ≤ max n 1 → IsClose (2 ^ i / 16 - 1) state.2 (10 ^ 2 ^ i)

theorem moderate_pow {k : ℕ} (small : k ≤ 301) : Moderate (10 ^ k) := by
  constructor
  · refine le_trans ?_ (one_le_pow₀ (by norm_num))
    rw [zpow_neg]
    exact inv_le_one_of_one_le₀ (one_le_zpow₀ one_le_two (by norm_num))
  · refine (pow_le_pow_right₀ (by norm_num) small).trans ?_
    have whole : 10 ^ 301 ≤ 2 ^ 1020 := by decide +kernel
    exact_mod_cast whole

theorem moderate_inv {q : ℚ} (h : Moderate q) : Moderate (1 / q) := by
  have positive : 0 < q := lt_of_lt_of_le (by positivity) h.lower
  constructor
  · rw [zpow_neg, one_div]
    exact inv_anti₀ positive h.upper
  · rw [one_div, ← inv_inv ((2 : ℚ) ^ (1020 : ℤ)), ← zpow_neg]
    exact inv_anti₀ (by positivity) h.lower

theorem two_pow_cases (i : ℕ) : 2 ^ i ≤ 8 ∨ ∃ t, 0 < t ∧ 2 ^ i = 16 * t := by
  rcases Nat.lt_or_ge i 4 with small | large
  · exact Or.inl ((Nat.pow_le_pow_right two_pos (Nat.lt_succ_iff.mp small)).trans (by norm_num))
  · refine Or.inr ⟨2 ^ (i - 4), Nat.two_pow_pos _, ?_⟩
    calc 2 ^ i = 2 ^ (4 + (i - 4)) := by rw [Nat.add_sub_cancel' large]
      _ = 16 * 2 ^ (i - 4) := pow_add 2 4 (i - 4)

/-- Multiplying by a square adds its roundings and one more, unless the powers are doubles. -/
theorem IsClose.mul_square {c a i : ℕ} {x y : Float} (hx : IsClose c x (10 ^ a))
    (hy : IsClose (2 ^ i / 16 - 1) y (10 ^ 2 ^ i)) (le : a ≤ 2 ^ i) (few : c ≤ a / 16)
    (small : a + 2 ^ i ≤ 301) : IsClose (c + 2 ^ i / 16) (x * y) (10 ^ (a + 2 ^ i)) := by
  rcases two_pow_cases i with low | ⟨t, positive, high⟩
  · obtain rfl : c = 0 := by omega
    rw [show 2 ^ i / 16 - 1 = 0 by omega] at hy
    rw [show 0 + 2 ^ i / 16 = 0 by omega]
    exact hx.mul_exact hy (by omega)
  · have product := hx.mul hy (by positivity) (by positivity) (by omega)
      (by rw [← pow_add]; exact moderate_pow small)
    rwa [← pow_add, show c + (2 ^ i / 16 - 1) + 1 = c + 2 ^ i / 16 by omega] at product

theorem tenState_step {n i : ℕ} {state : Float × Float} (small : n ≤ 301)
    (h : TenState n i state) (needed : 2 ^ i ≤ max n 1) :
    TenState n (i + 1) (tenStep n state i) := by
  have square := h.square needed
  have bit := Nat.testBit_eq_decide_div_mod_eq (x := n) (i := i)
  have next : n % 2 ^ (i + 1) = n % 2 ^ i + 2 ^ i * (n / 2 ^ i % 2) := Nat.mod_pow_succ
  have less : n % 2 ^ i < 2 ^ i := Nat.mod_lt n (Nat.two_pow_pos i)
  have below : n % 2 ^ (i + 1) ≤ n := Nat.mod_le ..
  have shape := two_pow_cases i
  constructor
  · unfold tenStep
    simp only [bit]
    rcases Nat.mod_two_eq_zero_or_one (n / 2 ^ i) with off | on
    · rw [next, off, mul_zero, add_zero, if_neg (by decide)]
      exact h.product
    · rw [next, on, mul_one] at below ⊢
      rw [if_pos (by decide)]
      have product := h.product.mul_square square less.le le_rfl (by omega)
      rwa [show n % 2 ^ i / 16 + 2 ^ i / 16 = (n % 2 ^ i + 2 ^ i) / 16 by omega] at product
  · intro needed'
    have double : 2 ^ (i + 1) = 2 ^ i + 2 ^ i := by rw [pow_succ]; omega
    rw [double] at needed' ⊢
    have product := square.mul_square square le_rfl (Nat.sub_le _ _) (by omega)
    rwa [show 2 ^ i / 16 - 1 + 2 ^ i / 16 = (2 ^ i + 2 ^ i) / 16 - 1 by omega] at product

theorem tenState_foldl {n : ℕ} (small : n ≤ 301) {i : ℕ} (le : i ≤ n.log2 + 1) :
    TenState n i ((List.range i).foldl (tenStep n) (1.0, 10.0)) := by
  induction i with
  | zero =>
    constructor
    · simpa [Nat.mod_one] using isClose_one
    · intro _
      simpa using isClose_ten
  | succ i ih =>
    rw [List.range_succ, List.foldl_append, List.foldl_cons, List.foldl_nil]
    refine tenState_step small (ih (by omega)) ?_
    rcases Nat.eq_zero_or_pos n with rfl | positive
    · have : i = 0 := by simpa using le
      simp [this]
    · exact ((Nat.le_log2 positive.ne').mp (by omega)).trans (le_max_left ..)

theorem isClose_tenToThe {n : ℕ} (small : n ≤ 301) : IsClose (n / 16) (tenToThe n) (10 ^ n) := by
  have final := (tenState_foldl small le_rfl).product
  rwa [Nat.mod_eq_of_lt Nat.lt_log2_self, ← tenToThe_eq_foldl] at final

/-- `powerOfTen` is right up to a rounding for each sixteen tens, and one for a reciprocal. -/
theorem isClose_powerOfTen {k : ℤ} (small : k.natAbs ≤ 301) :
    IsClose (k.natAbs / 16 + 1) (powerOfTen k) (10 ^ k) := by
  have power := isClose_tenToThe small
  have positive : (0 : ℚ) < 10 ^ k.natAbs := by positivity
  unfold powerOfTen
  split
  · next negative =>
    have quotient := isClose_one.div power one_pos positive (by omega)
      (moderate_inv (moderate_pow small))
    rw [zero_add] at quotient
    rwa [one_div, ← zpow_natCast, ← zpow_neg, show -(k.natAbs : ℤ) = k by omega] at quotient
  · next nonneg =>
    have same : (k.natAbs : ℤ) = k := by omega
    rw [← zpow_natCast, same] at power positive
    exact power.mono positive (Nat.le_succ _)

end FermiQuiz.Number
