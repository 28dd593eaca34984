import Mathlib
import FermiQuiz.Chance.Draw
import FermiQuiz.Proofs.Number.Arithmetic

/-!
# Words and draws

What draws take from a stream and what they give. A draw below a bound passes over the words that
decide no number and ends with the first that does, if one comes; a roll takes one word and lies in
`[0, 1)`.
-/

namespace FermiQuiz.Chance

open Number

variable {σ : Type} [WordSource σ]

/-! ### Words -/

/-- The source after so many words. -/
def skip (k : ℕ) (s : σ) : σ := Nat.repeat (fun s => (WordSource.next s).2) k s

/-- The word that so many others come before. -/
def wordAt (k : ℕ) (s : σ) : UInt64 := (WordSource.next (skip k s)).1

theorem skip_next (k : ℕ) (s : σ) : skip k (WordSource.next s).2 = skip (k + 1) s := by
  induction k with
  | zero => rfl
  | succ k ih => exact congrArg (fun s => (WordSource.next s).2) ih

theorem wordAt_next (k : ℕ) (s : σ) : wordAt k (WordSource.next s).2 = wordAt (k + 1) s := by
  rw [wordAt, wordAt, skip_next]

/-! ### Draws below a bound -/

/-- Some word of the stream decides a number below `n`, so that a draw of one comes to an end. -/
def DrawEnds (n : ℕ) (s : σ) : Prop := ∃ k, accepts n (wordAt k s) = true

/-- The word after `k` others is the first that decides a number below `n`. -/
structure DecidesFirst (n : ℕ) (s : σ) (k : ℕ) : Prop where
  passed : ∀ j < k, accepts n (wordAt j s) = false
  accepted : accepts n (wordAt k s) = true

variable {n k : ℕ} {s s' : σ}

theorem DrawEnds.exists_decidesFirst (ends : DrawEnds n s) : ∃ k, DecidesFirst n s k :=
  ⟨Nat.find ends, fun _ before => Bool.eq_false_iff.mpr (Nat.find_min ends before),
    Nat.find_spec ends⟩

theorem DecidesFirst.drawEnds (first : DecidesFirst n s k) : DrawEnds n s := ⟨k, first.accepted⟩

theorem DecidesFirst.unique (first : DecidesFirst n s k) {k' : ℕ} (first' : DecidesFirst n s k') :
    k = k' := by
  rcases Nat.lt_trichotomy k k' with before | same | after
  · exact absurd first.accepted (Bool.eq_false_iff.mp (first'.passed k before))
  · exact same
  · exact absurd first'.accepted (Bool.eq_false_iff.mp (first.passed k' after))

theorem DecidesFirst.decidingWord_eq (first : DecidesFirst n s k) :
    decidingWord n s = (wordAt k s, skip (k + 1) s) := by
  -- On the words that are passed over: behind the first of them there is one fewer.
  induction k generalizing s with
  | zero =>
    have accepted : accepts n (WordSource.next s).1 = true := first.accepted
    rw [Chance.decidingWord_eq, if_pos accepted]
    rfl
  | succ k ih =>
    have refused : accepts n (WordSource.next s).1 ≠ true :=
      Bool.eq_false_iff.mp (first.passed 0 (Nat.succ_pos k))
    have later : DecidesFirst n (WordSource.next s).2 k := by
      constructor
      · intro j before
        rw [wordAt_next]
        exact first.passed (j + 1) (Nat.succ_lt_succ before)
      · rw [wordAt_next]
        exact first.accepted
    rw [Chance.decidingWord_eq, if_neg refused, ih later, wordAt_next, skip_next]

theorem below_eq (positive : 0 < n) (first : DecidesFirst n s k) :
    below n positive s = (highHalf n positive (wordAt k s), skip (k + 1) s) := by
  rw [below, first.decidingWord_eq]

theorem choose_eq {α : Type} (xs : List α) (positive : 0 < xs.length) (s : σ) :
    choose xs positive s =
      (xs.get (below xs.length positive s).1, (below xs.length positive s).2) := rfl

/-! ### Rolls -/

theorem upper_bits_lt (w : UInt64) : (w >>> 11).toNat < 2 ^ 53 := by
  have bound := w.toNat_lt
  rw [UInt64.toNat_shiftRight, Nat.shiftRight_eq_div_pow]
  change w.toNat / 2 ^ 11 < 2 ^ 53
  omega

/-- A roll is a word's upper 53 bits over `2 ^ 53`, which no rounding changes. -/
theorem exists_parts_unit (s : σ) :
    ∃ x e, Parts.ofFloat (unit s).1 = .finite false x e ∧
      (x * 2 ^ e : ℚ) = ((wordAt 0 s >>> 11).toNat : ℚ) / 2 ^ 53 := by
  have scale : Parts.ofFloat 9007199254740992.0 = .finite false (2 ^ 52) 1 := by decide +kernel
  have small := upper_bits_lt (wordAt 0 s)
  have whole := isNearest_toFloat (wordAt 0 s >>> 11)
  rw [← mul_one ((wordAt 0 s >>> 11).toNat : ℚ), ← zpow_zero 2] at whole
  obtain ⟨x, e, parts, same⟩ := whole.exact small (by norm_num) (by norm_num)
  have quotient := isNearest_div parts scale (Nat.two_pow_pos 52)
  have exactly : (x * 2 ^ e : ℚ) / ((2 ^ 52 : ℕ) * (2 : ℚ) ^ (1 : ℤ)) =
      (wordAt 0 s >>> 11).toNat * 2 ^ (-53 : ℤ) := by
    rw [same]
    norm_num
    ring
  rw [exactly] at quotient
  obtain ⟨x', e', parts', same'⟩ := quotient.exact small (by norm_num) (by norm_num)
  refine ⟨x', e', parts', ?_⟩
  rw [same']
  norm_num
  ring

theorem unit_bits_le (s : σ) : (unit s).1.toBits.toNat ≤ infinityBits := by
  obtain ⟨x, e, parts, -⟩ := exists_parts_unit s
  exact toNat_toBits_le_infinityBits parts

theorem not_unit_lt {p : Float} (h : p ≤ 0.0) (s : σ) : ¬ (unit s).1 < p :=
  not_lt_of_le_zero (unit_bits_le s) h

theorem unit_lt_one (s : σ) : (unit s).1 < 1.0 := by
  obtain ⟨x, e, parts, same⟩ := exists_parts_unit s
  have bound : ((wordAt 0 s >>> 11).toNat : ℚ) < 2 ^ 53 := by
    exact_mod_cast upper_bits_lt (wordAt 0 s)
  have whole : ((2 ^ 52 : ℕ) : ℚ) * 2 ^ (-52 : ℤ) = 1 := by norm_num
  rw [lt_iff_value_lt parts parts_one, value_eq parts, value_eq parts_one, same, whole,
    div_lt_one (by norm_num)]
  exact bound

end FermiQuiz.Chance
