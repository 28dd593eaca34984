import FermiQuiz.Chance.Stream

/-!
# Draws

Numbers drawn from a stream: `unit` is a double in `[0, 1)`, `below n` a whole number less than
`n`. A word decides the latter by the high half of its product with `n`, and is passed over when
the low half lies in the rest of the range that would make some numbers likelier than others.
-/

namespace FermiQuiz.Chance

variable {σ : Type} [WordSource σ]

/-- A double in `[0, 1)`: a multiple of `2 ^ -53`. -/
def unit (s : σ) : Float × σ :=
  let (word, s) := WordSource.next s
  ((word >>> 11).toFloat / 9007199254740992.0, s)

/-- The high half of the product of `n` and a word, from the products with the word's halves. -/
def productHigh (n : Nat) (word : UInt64) : Nat :=
  let upper := (word >>> 32).toNat * n
  let lower := word.toUInt32.toNat * n
  (upper + lower / 4294967296) / 4294967296

theorem productHigh_eq (n : Nat) (word : UInt64) :
    productHigh n word = word.toNat * n / Nat.pow 2 64 := by
  have upper : (word >>> 32).toNat = word.toNat / 4294967296 := by
    simp [UInt64.toNat_shiftRight, Nat.shiftRight_eq_div_pow]
  have lower : word.toUInt32.toNat = word.toNat % 4294967296 := by
    simp [UInt64.toNat_toUInt32]
  have split : word.toNat * n =
      4294967296 * (word.toNat / 4294967296 * n) + word.toNat % 4294967296 * n := by
    rw [← Nat.mul_assoc, ← Nat.add_mul, Nat.div_add_mod]
  have square : Nat.pow 2 64 = 4294967296 * 4294967296 := by decide
  rw [productHigh, upper, lower, square, ← Nat.div_div_eq_div_mul, split,
    Nat.mul_add_div (by decide)]

/-- The number below `n` that a word gives. -/
def highHalf (n : Nat) (positive : 0 < n) (word : UInt64) : Fin n :=
  ⟨productHigh n word, by
    have h : word.toNat < Nat.pow 2 64 := word.toNat_lt
    rw [productHigh_eq]
    exact (Nat.div_lt_iff_lt_mul (by decide)).mpr
      (by rw [Nat.mul_comm]; exact Nat.mul_lt_mul_of_pos_left h positive)⟩

/-- Whether a word decides a number below `n`, which needs 64 bits at most: the low half of the
product lies below `n` times the power of two that brings `n` to 64 bits. -/
def accepts (n : Nat) (word : UInt64) : Bool :=
  word * n.toUInt64 < n.toUInt64 <<< (63 - n.log2).toUInt64

theorem accepts_iff {n : Nat} (positive : 0 < n) (bound : n < Nat.pow 2 64) (word : UInt64) :
    accepts n word = true ↔
      word.toNat * n % Nat.pow 2 64 < n * Nat.pow 2 (63 - n.log2) := by
  have bound' : n < 2 ^ 64 := bound
  have small : n.log2 < 64 := (Nat.log2_lt (by omega)).mpr bound'
  have upper : n < 2 ^ (n.log2 + 1) := Nat.lt_log2_self
  have fits : n * 2 ^ (63 - n.log2) < 2 ^ 64 := by
    calc n * 2 ^ (63 - n.log2) < 2 ^ (n.log2 + 1) * 2 ^ (63 - n.log2) :=
          Nat.mul_lt_mul_of_pos_right upper (Nat.two_pow_pos _)
      _ = 2 ^ 64 := by rw [← Nat.pow_add]; congr 1; omega
  have shift : (n.toUInt64 <<< (63 - n.log2).toUInt64).toNat = n * 2 ^ (63 - n.log2) := by
    rw [UInt64.toNat_shiftLeft, Nat.toUInt64_eq, Nat.toUInt64_eq, UInt64.toNat_ofNat',
      UInt64.toNat_ofNat', Nat.mod_eq_of_lt bound',
      Nat.mod_eq_of_lt (show 63 - n.log2 < 2 ^ 64 by omega),
      Nat.mod_eq_of_lt (show 63 - n.log2 < 64 by omega), Nat.shiftLeft_eq, Nat.mod_eq_of_lt fits]
  have product : (word * n.toUInt64).toNat = word.toNat * n % 2 ^ 64 := by
    rw [UInt64.toNat_mul, Nat.toUInt64_eq, UInt64.toNat_ofNat', Nat.mod_eq_of_lt bound']
  unfold accepts
  rw [decide_eq_true_iff, UInt64.lt_iff_toNat_lt, shift, product]
  rfl

/-- One word of a draw below `n`, with which the draw ends if it decides a number. -/
def tryWord (n : Nat) (s : σ) : σ ⊕ UInt64 × σ :=
  let drawn := WordSource.next s
  if accepts n drawn.1 then .inr drawn else .inl drawn.2

/-- The first word that decides a number below `n`, and the source after it. Words that decide none
are passed over, however many they are. -/
def decidingWord (n : Nat) (s : σ) : UInt64 × σ :=
  haveI : Nonempty (UInt64 × σ) := ⟨WordSource.next s⟩
  Id.run (repeatM (fun s => pure (tryWord n s)) s)

theorem decidingWord_eq (n : Nat) (s : σ) : decidingWord n s =
    if accepts n (WordSource.next s).1 then WordSource.next s
    else decidingWord n (WordSource.next s).2 := by
  have : Nonempty (UInt64 × σ) := ⟨WordSource.next s⟩
  rw [decidingWord, repeatM_eq_of_monadTail, repeatM.body, pure_bind, tryWord]
  by_cases accepted : accepts n (WordSource.next s).1 = true
  · rw [if_pos accepted, if_pos accepted]
    rfl
  · rw [if_neg accepted, if_neg accepted]
    rfl

def below (n : Nat) (positive : 0 < n) (s : σ) : Fin n × σ :=
  let (word, s) := decidingWord n s
  (highHalf n positive word, s)

def choose {α : Type} (xs : List α) (positive : 0 < xs.length) (s : σ) : α × σ :=
  let (i, s) := below xs.length positive s
  (xs.get i, s)

end FermiQuiz.Chance
