import Mathlib
import FermiQuiz.Pick
import FermiQuiz.Proofs.Generation.Search
import FermiQuiz.Proofs.HintDraws

/-!
# Even draws

A word decides the number below a bound in whose part of the range its product with the bound lies,
and counts only if it lies at the start of that part, which is equally long for all numbers. So as
many words decide one number as any other, and whatever is drawn from a list is drawn evenly. A draw
goes on until a word counts, which at least every other word does.
-/

namespace FermiQuiz

namespace Chance

/-! ### The words that decide a number -/

def deciding {n : ℕ} (i : Fin n) : Set UInt64 :=
  {word | accepts n word = true ∧ highHalf n i.pos word = i}

/-- The zeros in front of a number below `2 ^ 64` written in 64 bits. -/
def leadingZeros (n : ℕ) : ℕ := (BitVec.ofNat 64 n).clz.toNat

section

variable {n : ℕ}

theorem leadingZeros_eq (positive : 0 < n) (bound : n < 2 ^ 64) :
    leadingZeros n = 63 - n.log2 := by
  have value : (BitVec.ofNat 64 n).toNat = n := by
    rw [BitVec.toNat_ofNat, Nat.mod_eq_of_lt bound]
  have nonzero : BitVec.ofNat 64 n ≠ 0#64 := by
    intro zero
    rw [zero] at value
    exact positive.ne value
  have least := BitVec.two_pow_sub_clz_le_toNat_of_ne_zero (by decide) nonzero
  have most := BitVec.toNat_lt_two_pow_sub_clz (x := BitVec.ofNat 64 n)
  have few : leadingZeros n < 64 := BitVec.clz_lt_iff_ne_zero.mpr nonzero
  rw [value] at least most
  have lower := (Nat.le_log2 positive.ne').mpr least
  have upper := (Nat.log2_lt positive.ne').mpr most
  unfold leadingZeros at *
  omega

/-- A bound moved to 64 bits is in the upper half of what they can hold. -/
theorem shifted_bounds (positive : 0 < n) (bound : n < 2 ^ 64) :
    2 ^ 63 ≤ n * 2 ^ leadingZeros n ∧ n * 2 ^ leadingZeros n < 2 ^ 64 := by
  have small : n.log2 < 64 := (Nat.log2_lt positive.ne').mpr bound
  rw [leadingZeros_eq positive bound]
  constructor
  · calc 2 ^ 63 = 2 ^ n.log2 * 2 ^ (63 - n.log2) := by rw [← pow_add]; congr 1; omega
      _ ≤ n * 2 ^ (63 - n.log2) := Nat.mul_le_mul_right _ (Nat.log2_self_le positive.ne')
  · calc n * 2 ^ (63 - n.log2) < 2 ^ (n.log2 + 1) * 2 ^ (63 - n.log2) :=
          Nat.mul_lt_mul_of_pos_right Nat.lt_log2_self (Nat.two_pow_pos _)
      _ = 2 ^ 64 := by rw [← pow_add]; congr 1; omega

/-- The multiples of a number in a range as long as `k` of it, wherever the range starts. -/
theorem mem_Ico_ceilDiv_iff (positive : 0 < n) {start k x : ℕ} :
    x ∈ Set.Ico (start ⌈/⌉ n) (start ⌈/⌉ n + k) ↔ start ≤ x * n ∧ x * n < start + n * k := by
  have reached (y : ℕ) : start ⌈/⌉ n ≤ y ↔ start ≤ y * n := by
    rw [ceilDiv_le_iff_le_mul positive, Nat.mul_comm]
  rw [Set.mem_Ico, reached]
  refine and_congr_right' (not_iff_not.mp ?_)
  rw [not_lt, not_lt]
  rcases Nat.lt_or_ge x k with below | above
  · have short : x * n < n * k := by
      rw [Nat.mul_comm]
      exact Nat.mul_lt_mul_of_pos_left below positive
    omega
  · obtain ⟨y, rfl⟩ := Nat.exists_eq_add_of_le' above
    rw [Nat.add_le_add_iff_right, reached, Nat.add_mul, Nat.mul_comm k, Nat.add_le_add_iff_right]

variable (bound : n < 2 ^ 64) (i : Fin n)

include bound

/-- A word decides the number whose part of the range its product starts. -/
theorem mem_deciding_iff (word : UInt64) : word ∈ deciding i ↔
    i.val * 2 ^ 64 ≤ word.toNat * n ∧
      word.toNat * n < i.val * 2 ^ 64 + n * 2 ^ leadingZeros n := by
  have room := (shifted_bounds i.pos bound).2
  change _ ∧ highHalf n i.pos word = i ↔ _
  rw [accepts_iff i.pos bound, ← leadingZeros_eq i.pos bound, Fin.ext_iff]
  change _ ∧ productHigh n word = _ ↔ _
  rw [productHigh_eq, Nat.pow_eq, Nat.pow_eq]
  generalize word.toNat * n = product
  generalize n * 2 ^ leadingZeros n = length at room
  omega

/-- The words that decide a number follow each other. -/
theorem image_toNat_deciding : UInt64.toNat '' deciding i = Set.Ico ((i.val * 2 ^ 64) ⌈/⌉ n)
    ((i.val * 2 ^ 64) ⌈/⌉ n + 2 ^ leadingZeros n) := by
  have room := (shifted_bounds i.pos bound).2
  ext x
  rw [mem_Ico_ceilDiv_iff i.pos]
  constructor
  · rintro ⟨word, decides, rfl⟩
    exact (mem_deciding_iff bound i word).mp decides
  · rintro ⟨least, most⟩
    have last : (i.val + 1) * 2 ^ 64 ≤ n * 2 ^ 64 := Nat.mul_le_mul_right _ i.isLt
    have small : x < 2 ^ 64 := by
      apply Nat.lt_of_mul_lt_mul_right (a := n)
      omega
    have value : (UInt64.ofNat x).toNat = x := by
      rw [UInt64.toNat_ofNat', Nat.mod_eq_of_lt small]
    refine ⟨UInt64.ofNat x, (mem_deciding_iff bound i _).mpr ?_, value⟩
    rw [value]
    exact ⟨least, most⟩

theorem ncard_deciding : (deciding i).ncard = 2 ^ leadingZeros n := by
  have injective : Function.Injective UInt64.toNat := fun _ _ => UInt64.toNat_inj.mp
  rw [← Set.ncard_image_of_injective _ injective, image_toNat_deciding bound i, ← Finset.coe_Ico,
    Set.ncard_coe_finset, Nat.card_Ico, Nat.add_sub_cancel_left]

end

theorem ncard_accepted (positive : 0 < n) (bound : n < 2 ^ 64) :
    {word | accepts n word = true}.ncard = n * 2 ^ leadingZeros n := by
  have parts : {word | accepts n word = true} = ⋃ i : Fin n, deciding i := by
    ext word
    rw [Set.mem_iUnion]
    constructor
    · intro accepted
      exact ⟨highHalf n positive word, accepted, rfl⟩
    · rintro ⟨i, accepted, -⟩
      exact accepted
  have apart : Pairwise (Function.onFun Disjoint (deciding (n := n))) := by
    intro i j other
    refine Set.disjoint_left.mpr fun word decides decides' => other ?_
    rw [← decides.2, ← decides'.2]
  rw [parts, Set.ncard_iUnion_of_finite (fun i => Set.toFinite _) apart,
    finsum_eq_sum_of_fintype]
  simp only [ncard_deciding bound, Finset.sum_const, Finset.card_univ, Fintype.card_fin,
    smul_eq_mul]

theorem two_mul_ncard_passed_le (positive : 0 < n) (bound : n < 2 ^ 64) :
    {word | accepts n word = false}.ncard * 2 ≤ 2 ^ 64 := by
  have half := (shifted_bounds positive bound).1
  have rest : {word | accepts n word = false} = {word | accepts n word = true}ᶜ := by
    ext word
    change _ ↔ ¬ accepts n word = true
    rw [Bool.not_eq_true]
    rfl
  have all := Set.ncard_add_ncard_compl {word | accepts n word = true}
  rw [← rest, ncard_accepted positive bound, Nat.card_eq_fintype_card,
    ← FinEnum.card_eq_fintypeCard, FinEnum.card_UInt64] at all
  omega

/-- At most one in `2 ^ k` draws passes over `k` words and goes on. -/
theorem ncard_passing_runs_le (positive : 0 < n) (bound : n < 2 ^ 64) (k : ℕ) :
    {run : Fin k → UInt64 | ∀ j, accepts n (run j) = false}.ncard * 2 ^ k ≤ (2 ^ 64) ^ k := by
  have runs : {run : Fin k → UInt64 | ∀ j, accepts n (run j) = false}.ncard =
      {word | accepts n word = false}.ncard ^ k := by
    rw [← Nat.card_coe_set_eq, ← Nat.card_coe_set_eq]
    calc Nat.card {run : Fin k → UInt64 // ∀ j, accepts n (run j) = false}
        = Nat.card (Fin k → {word // accepts n word = false}) :=
          Nat.card_congr (Equiv.subtypePiEquivPi (p := fun _ word => accepts n word = false))
      _ = Nat.card {word // accepts n word = false} ^ k := by rw [Nat.card_fun, Nat.card_fin]
  rw [runs, ← Nat.mul_pow]
  exact Nat.pow_le_pow_left (two_mul_ncard_passed_le positive bound) k

/-! ### Draws from a list -/

variable {σ : Type} [WordSource σ] {α : Type}

/-- A draw from `s` of the number `i`: the first word that decides a number decides this one, and
the stream goes on after that word. -/
def Draws (s : σ) {n : ℕ} (i : Fin n) (s' : σ) : Prop :=
  ∃ k, DecidesFirst n s k ∧ wordAt k s ∈ deciding i ∧ s' = skip (k + 1) s

/-- An item of a list is drawn by its index, and each index is decided by as many words. -/
structure DrawnEvenly (xs : List α) (s : σ) (x : α) (s' : σ) : Prop where
  index : ∃ i : Fin xs.length, xs.get i = x ∧ Draws s i s'
  even : ∀ i : Fin xs.length, (deciding i).ncard = 2 ^ leadingZeros xs.length

section

variable {xs : List α} {x : α} {s s' : σ}

theorem mem_of_choose {positive : 0 < xs.length} (chosen : choose xs positive s = (x, s')) :
    x ∈ xs := by
  have member := choose_mem xs positive s
  rwa [chosen] at member

theorem drawnEvenly_of_choose {positive : 0 < xs.length} (bound : xs.length < 2 ^ 64)
    (chosen : choose xs positive s = (x, s')) (ends : DrawEnds xs.length s) :
    DrawnEvenly xs s x s' := by
  obtain ⟨k, first⟩ := ends.exists_decidesFirst
  rw [choose_eq, below_eq positive first] at chosen
  cases chosen
  exact ⟨⟨_, rfl, k, first, ⟨first.accepted, rfl⟩, rfl⟩, ncard_deciding bound⟩

theorem DrawnEvenly.rest_eq {k : ℕ} (drawn : DrawnEvenly xs s x s')
    (first : DecidesFirst xs.length s k) : s' = skip (k + 1) s := by
  obtain ⟨-, -, k', first', -, rest⟩ := drawn.index
  rw [rest, first'.unique first]

end

end Chance

open Chance
open Number (Elementary)

variable {σ : Type} [WordSource σ]

/-! ### Questions -/

theorem exists_drawQuestion {d : Dataset} (filled : 0 < d.questions.length)
    (bound : d.questions.length < 2 ^ 64) (s : σ) :
    ∃ q s', drawQuestion d s = (.ok q, s') ∧ q ∈ d.questions ∧
      (DrawEnds d.questions.length s → DrawnEvenly d.questions s q s') := by
  unfold drawQuestion
  rw [dif_pos filled]
  cases chosen : choose d.questions filled s with
  | mk q s' => exact ⟨q, s', rfl, mem_of_choose chosen, drawnEvenly_of_choose bound chosen⟩

/-! ### Hints -/

section

variable [Elementary] {settings : HintSettings} {d : Dataset} {played : Question} {guess : Float}

theorem length_hintPool_le :
    (hintPool settings d played (gapBetween played.answer guess)).length ≤ d.questions.length := by
  rw [length_hintPool]
  exact (Nat.min_le_right _ _).trans List.countP_le_length

theorem drawnEvenly_of_drawHint {direction : Direction} {q : Question} {s s' : σ}
    (bound : d.questions.length < 2 ^ 64)
    (drawn : drawHint settings d played guess s = (.ok (.closer direction q), s')) :
    let pool := hintPool settings d played (gapBetween played.answer guess)
    DrawEnds pool.length (skip 1 s) → DrawnEvenly pool (skip 1 s) q s' := by
  obtain ⟨filled, -, -, chosen⟩ := exists_of_drawHint_closer drawn
  exact drawnEvenly_of_choose (length_hintPool_le.trans_lt bound) chosen

end

/-! ### Pairs of facts -/

variable {facts : List Fact}

theorem length_poolOf_le : (poolOf facts).length ≤ facts.length :=
  (List.length_filterMap_le _ _).trans (List.length_filter_le _ _)

theorem length_partners_le {source : Source} (listed : source ∈ poolOf facts) :
    source.partners.length ≤ facts.length := by
  obtain ⟨f, -, made⟩ := List.mem_filterMap.mp listed
  dsimp only at made
  split at made
  · cases made
    exact (List.length_filter_le _ _).trans (List.length_filter_le _ _)
  · cases made

section

variable [Elementary]

/-- A pair is drawn by its first fact and then by a partner of it, before it may be turned
around. -/
theorem exists_drawPair (nonempty : 0 < (poolOf facts).length) (bound : facts.length < 2 ^ 64)
    (s : σ) : ∃ source s₁ partner s₂, source ∈ poolOf facts ∧ partner ∈ source.partners ∧
      (DrawEnds (poolOf facts).length s → DrawnEvenly (poolOf facts) s source s₁) ∧
      (DrawEnds source.partners.length s₁ → DrawnEvenly source.partners s₁ partner s₂) ∧
      drawPair (poolOf facts) nonempty s = orient source.fact partner s₂ := by
  unfold drawPair
  cases first : choose (poolOf facts) nonempty s with
  | mk source s₁ =>
    dsimp only
    cases second : choose source.partners source.partnered s₁ with
    | mk partner s₂ =>
      have listed := mem_of_choose first
      exact ⟨source, s₁, partner, s₂, listed, mem_of_choose second,
        drawnEvenly_of_choose (length_poolOf_le.trans_lt bound) first,
        drawnEvenly_of_choose ((length_partners_le listed).trans_lt bound) second, rfl⟩

theorem Search.Step.exists_drawn {nonempty : 0 < (poolOf facts).length} {existing : List Question}
    {settings : GenerationSettings} {stamp : String} {p q : Search σ}
    (bound : facts.length < 2 ^ 64) (step : Search.Step nonempty existing settings stamp p q) :
    ∃ source s₁ partner s₂ a b, source ∈ poolOf facts ∧ partner ∈ source.partners ∧
      (DrawEnds (poolOf facts).length p.stream →
        DrawnEvenly (poolOf facts) p.stream source s₁) ∧
      (DrawEnds source.partners.length s₁ → DrawnEvenly source.partners s₁ partner s₂) ∧
      orient source.fact partner s₂ = (.ok (a, b), q.stream) ∧ q.draws = p.draws ++ [(a, b)] := by
  obtain ⟨source, s₁, partner, s₂, listed, member, first, second, pair⟩ :=
    exists_drawPair nonempty bound p.stream
  cases step with
  | repeated _ drawn _ =>
    exact ⟨source, s₁, partner, s₂, _, _, listed, member, first, second, pair.symm.trans drawn, rfl⟩
  | found _ drawn _ =>
    exact ⟨source, s₁, partner, s₂, _, _, listed, member, first, second, pair.symm.trans drawn, rfl⟩

end

/-- Whatever is drawn is drawn evenly. Each number below a bound is decided by as many words, so it
has its share of the words that decide one, and at most one in `2 ^ k` draws is not over after `k`
words. The question that is played, the question that a hint names and both facts of every pair in
a generation come from nothing but the list in question, and a draw of one that ends takes it by
such a number, the one that the first deciding word gives. -/
theorem draws_are_even [Elementary] :
    (∀ n, 0 < n → n < 2 ^ 64 →
      2 ^ 63 ≤ {word | accepts n word = true}.ncard ∧
      (∀ i : Fin n, (deciding i).ncard = 2 ^ leadingZeros n ∧
        ((deciding i).ncard : ℚ) / {word | accepts n word = true}.ncard = 1 / n) ∧
      ∀ k, {run : Fin k → UInt64 | ∀ j, accepts n (run j) = false}.ncard * 2 ^ k ≤
        (2 ^ 64) ^ k) ∧
    (∀ (d : Dataset) (s : σ), 0 < d.questions.length → d.questions.length < 2 ^ 64 →
      ∃ q s', drawQuestion d s = (.ok q, s') ∧ q ∈ d.questions ∧
        (DrawEnds d.questions.length s → DrawnEvenly d.questions s q s')) ∧
    (∀ settings (d : Dataset) played guess (s : σ) direction q s', d.questions.length < 2 ^ 64 →
      drawHint settings d played guess s = (.ok (.closer direction q), s') →
        let pool := hintPool settings d played (gapBetween played.answer guess)
        q ∈ pool ∧ (DrawEnds pool.length (skip 1 s) → DrawnEvenly pool (skip 1 s) q s')) ∧
    ∀ facts existing settings stamp (nonempty : 0 < (poolOf facts).length) (p q : Search σ),
      facts.length < 2 ^ 64 → Search.Step nonempty existing settings stamp p q →
        ∃ source s₁ partner s₂ a b, source ∈ poolOf facts ∧ partner ∈ source.partners ∧
          (DrawEnds (poolOf facts).length p.stream →
            DrawnEvenly (poolOf facts) p.stream source s₁) ∧
          (DrawEnds source.partners.length s₁ → DrawnEvenly source.partners s₁ partner s₂) ∧
          orient source.fact partner s₂ = (.ok (a, b), q.stream) ∧
          q.draws = p.draws ++ [(a, b)] := by
  refine ⟨fun n positive bound => ⟨?_, fun i => ⟨ncard_deciding bound i, ?_⟩,
      ncard_passing_runs_le positive bound⟩,
    fun d s filled bound => exists_drawQuestion filled bound s,
    fun settings d played guess s direction q s' bound drawn =>
      ⟨closer_mem_hintPool drawn, drawnEvenly_of_drawHint bound drawn⟩,
    fun facts existing settings stamp nonempty p q bound step => step.exists_drawn bound⟩
  · rw [ncard_accepted positive bound]
    exact (shifted_bounds positive bound).1
  · have share : (2 ^ leadingZeros n : ℚ) ≠ 0 := by positivity
    have size : (n : ℚ) ≠ 0 := by exact_mod_cast positive.ne'
    rw [ncard_deciding bound i, ncard_accepted positive bound]
    push_cast
    field_simp

/-- Below a bound in the upper half a single word decides each number, and below four, the number of
questions about a town, an eighth of all words does. One of these questions is drawn after four
words that decide none; a hint for a town and a pair of two lengths are drawn evenly as well. -/
theorem draws_about_town_are_even :
    (2 ^ 63 + 1 < 2 ^ 64 ∧ ∀ i : Fin (2 ^ 63 + 1), (deciding i).ncard = 1) ∧
    (0 < townDataset.questions.length ∧ townDataset.questions.length < 2 ^ 64 ∧
      ∀ i : Fin townDataset.questions.length, (deciding i).ncard = 2 ^ 61) ∧
    (DecidesFirst townDataset.questions.length (Stream.ofSeed 1) 4 ∧
      ∃ q s', drawQuestion townDataset (Stream.ofSeed 1) = (.ok q, s') ∧
        DrawnEvenly townDataset.questions (Stream.ofSeed 1) q s') ∧
    ∃ _ : Elementary,
      (∃ q s', drawHint {} townDataset townQuestion 1000.0 (Stream.ofSeed 2) =
          (.ok (.closer .tooLow q), s') ∧
        DrawnEvenly (hintPool {} townDataset townQuestion (gapBetween townQuestion.answer 1000.0))
          (skip 1 (Stream.ofSeed 2)) q s') ∧
      ∃ (nonempty : 0 < (poolOf [towerFact, ballFact]).length) (next : Search Stream)
        (source : Source) (partner : Fact) (s₁ s₂ : Stream),
        Search.Step nonempty [] ⟨1, 1⟩ "now" (.start (Stream.ofSeed 7)) next ∧
        DrawnEvenly (poolOf [towerFact, ballFact]) (Stream.ofSeed 7) source s₁ ∧
        DrawnEvenly source.partners s₁ partner s₂ := by
  let elementary : Elementary := ⟨Number.steppedLog 0, Float.exp2⟩
  obtain ⟨counts, questions, hints, pairs⟩ := draws_are_even (σ := Stream)
  have filled : 0 < townDataset.questions.length := by decide
  have bound : townDataset.questions.length < 2 ^ 64 := by decide
  have upper : 2 ^ 63 + 1 < 2 ^ 64 := by decide
  have none : leadingZeros (2 ^ 63 + 1) = 0 := by decide
  have many : leadingZeros townDataset.questions.length = 61 := by decide
  have fifth : DecidesFirst townDataset.questions.length (Stream.ofSeed 1) 4 :=
    ⟨by decide +kernel, by decide +kernel⟩
  obtain ⟨question, s₁, asked, -, even⟩ := questions townDataset (Stream.ofSeed 1) filled bound
  refine ⟨⟨upper, fun i => ?_⟩, ⟨filled, bound, fun i => ?_⟩,
    ⟨fifth, question, s₁, asked, even fifth.drawEnds⟩, elementary, ?_, ?_⟩
  · rw [((counts _ (by decide) upper).2.1 i).1, none, pow_zero]
  · rw [((counts _ filled bound).2.1 i).1, many]
  · have suits : Suits {} townQuestion 1000.0 metreQuestion := by decide +kernel
    have ends : DrawEnds (hintPool {} townDataset townQuestion
        (gapBetween townQuestion.answer 1000.0)).length (skip 1 (Stream.ofSeed 2)) := by
      rw [length_hintPool]
      exact ⟨0, by decide +kernel⟩
    obtain ⟨q, s', drawn⟩ := exists_closer_hint {} townDataset (k := 3) (m := 6) rfl rfl
      (by norm_num) (s := Stream.ofSeed 2)
      (length_hintPool_pos (q := metreQuestion) (by simp [townDataset]) suits) (by decide +kernel)
    exact ⟨q, s', drawn, (hints _ _ _ _ _ _ _ _ bound drawn).2 ends⟩
  · have nonempty : 0 < (poolOf [towerFact, ballFact]).length := by decide +kernel
    have goes_on : (Search.start (Stream.ofSeed 7)).GoesOn ⟨1, 1⟩ := ⟨one_pos, one_pos⟩
    obtain ⟨next, step⟩ := goes_on.exists_step nonempty [] "now"
    obtain ⟨source, s₁, partner, s₂, -, -, listed, -, first, second, -⟩ :=
      pairs _ _ _ _ nonempty _ next (by decide) step
    -- The first word of the stream decides the first fact, and the next one its only partner.
    have at_once : DecidesFirst (poolOf [towerFact, ballFact]).length (Stream.ofSeed 7) 0 :=
      ⟨fun j before => absurd before (Nat.not_lt_zero j), by decide +kernel⟩
    have one : ∀ source ∈ poolOf [towerFact, ballFact], source.partners.length = 1 := by
      decide +kernel
    have even := first at_once.drawEnds
    have ends : DrawEnds source.partners.length s₁ := by
      rw [one source listed, even.rest_eq at_once]
      exact ⟨0, by decide +kernel⟩
    exact ⟨nonempty, next, source, partner, s₁, s₂, step, even, second ends⟩

end FermiQuiz
