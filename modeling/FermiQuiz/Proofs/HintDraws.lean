import Mathlib
import FermiQuiz.Proofs.Draws
import FermiQuiz.Proofs.HintPool
import FermiQuiz.Proofs.Verdict

/-!
# What hints take from chance

A hint takes words from the stream only after a wrong guess: one for the roll that decides its
kind, and those of one draw from the pool when it names a question. The roll is compared with the
probability of closer hints and with nothing else, so raising the probability turns plain hints
into closer ones and leaves every other hint as it was.
-/

namespace FermiQuiz

open Number (Elementary)
open Chance

variable {σ : Type} [WordSource σ]

theorem unit_snd (s : σ) : (unit s).2 = skip 1 s := rfl

theorem Verdict.draw_wrong (settings : HintSettings) (direction : Direction) (gap : Float)
    (pool : List Question) (s : σ) :
    (Verdict.wrong direction gap pool).draw settings s =
      if h : 0 < pool.length ∧ (unit s).1 < settings.closerProbability then
        (.closer direction (choose pool h.1 (skip 1 s)).1, (choose pool h.1 (skip 1 s)).2)
      else (.plain direction (gapFactor gap), skip 1 s) := by
  simp only [Verdict.draw, unit_snd]
  by_cases filled : 0 < pool.length
  · by_cases rolled : (unit s).1 < settings.closerProbability
    · rw [dif_pos filled, if_pos rolled, dif_pos ⟨filled, rolled⟩]
    · rw [dif_pos filled, if_neg rolled, dif_neg fun h => rolled h.2]
  · rw [dif_neg filled, dif_neg fun h => filled h.1]

section

variable [Elementary] {settings : HintSettings} {d : Dataset} {played : Question} {guess : Float}
variable {s s' : σ} {direction : Direction}

theorem drawHint_of_wrong {gap : Float} {pool : List Question}
    (assessed : assess settings d played guess = .ok (.wrong direction gap pool)) :
    drawHint settings d played guess s =
      if h : 0 < pool.length ∧ (unit s).1 < settings.closerProbability then
        (.ok (.closer direction (choose pool h.1 (skip 1 s)).1), (choose pool h.1 (skip 1 s)).2)
      else (.ok (.plain direction (gapFactor gap)), skip 1 s) := by
  simp only [drawHint, assessed, Verdict.draw_wrong]
  split
  · rfl
  · rfl

theorem eq_of_drawHint_error {e : GameError}
    (h : drawHint settings d played guess s = (.error e, s')) : s' = s := by
  unfold drawHint at h
  split at h
  · cases h
    rfl
  · cases h

/-- A hint is either correct, and takes nothing, or that of a wrong guess. -/
theorem correct_or_wrong_of_drawHint {hint : Hint}
    (h : drawHint settings d played guess s = (.ok hint, s')) :
    (hint = .correct ∧ s' = s) ∨ ∃ direction, assess settings d played guess =
      .ok (.wrong direction (gapBetween played.answer guess)
        (hintPool settings d played (gapBetween played.answer guess))) := by
  cases assessed : assess settings d played guess with
  | error e =>
    rw [drawHint, assessed] at h
    cases h
  | ok v =>
    cases v with
    | correct =>
      rw [drawHint, assessed] at h
      cases h
      exact Or.inl ⟨rfl, rfl⟩
    | wrong direction gap pool =>
      obtain ⟨rfl, rfl⟩ := assess_wrong assessed
      exact Or.inr ⟨direction, rfl⟩

theorem exists_of_drawHint_plain {factor : ℤ}
    (h : drawHint settings d played guess s = (.ok (.plain direction factor), s')) :
    assess settings d played guess = .ok (.wrong direction (gapBetween played.answer guess)
        (hintPool settings d played (gapBetween played.answer guess))) ∧
      ¬ (0 < (hintPool settings d played (gapBetween played.answer guess)).length ∧
        (unit s).1 < settings.closerProbability) ∧
      factor = gapFactor (gapBetween played.answer guess) ∧ s' = skip 1 s := by
  obtain ⟨same, -⟩ | ⟨side, assessed⟩ := correct_or_wrong_of_drawHint h
  · cases same
  · rw [drawHint_of_wrong assessed] at h
    split at h
    · cases h
    · next other =>
      cases h
      exact ⟨assessed, other, rfl, rfl⟩

theorem exists_of_drawHint_closer {q : Question}
    (h : drawHint settings d played guess s = (.ok (.closer direction q), s')) :
    ∃ filled : 0 < (hintPool settings d played (gapBetween played.answer guess)).length,
      assess settings d played guess = .ok (.wrong direction (gapBetween played.answer guess)
        (hintPool settings d played (gapBetween played.answer guess))) ∧
      (unit s).1 < settings.closerProbability ∧
      choose (hintPool settings d played (gapBetween played.answer guess)) filled (skip 1 s) =
        (q, s') := by
  obtain ⟨same, -⟩ | ⟨side, assessed⟩ := correct_or_wrong_of_drawHint h
  · cases same
  · rw [drawHint_of_wrong assessed] at h
    split at h
    · next closer =>
      generalize drawn : choose _ closer.1 (skip 1 s) = result at h
      cases h
      exact ⟨closer.1, assessed, closer.2, drawn⟩
    · cases h

/-! ### What is left of the stream -/

/-- What a hint that may draw from `pool` leaves of the stream. The draw of a question starts after
the roll, and if it ends, it ends with the first word that decides one. -/
def LeftAfter (pool : List Question) (s : σ) : Except GameError Hint → σ → Prop
  | .error _, s' => s' = s
  | .ok .correct, s' => s' = s
  | .ok (.plain _ _), s' => s' = skip 1 s
  | .ok (.closer _ q), s' =>
    (∃ filled : 0 < pool.length, choose pool filled (skip 1 s) = (q, s')) ∧
      (DrawEnds pool.length (skip 1 s) →
        ∃ k, DecidesFirst pool.length (skip 1 s) k ∧ s' = skip (k + 2) s)

theorem leftAfter_drawHint {result : Except GameError Hint}
    (h : drawHint settings d played guess s = (result, s')) :
    LeftAfter (hintPool settings d played (gapBetween played.answer guess)) s result s' := by
  cases result with
  | error e => exact eq_of_drawHint_error h
  | ok hint =>
    cases hint with
    | correct =>
      obtain ⟨-, same⟩ | ⟨direction, assessed⟩ := correct_or_wrong_of_drawHint h
      · exact same
      · rw [drawHint_of_wrong assessed] at h
        split at h
        · cases h
        · cases h
    | plain direction factor => exact (exists_of_drawHint_plain h).2.2.2
    | closer direction q =>
      obtain ⟨filled, -, -, drawn⟩ := exists_of_drawHint_closer h
      refine ⟨⟨filled, drawn⟩, fun ends => ?_⟩
      obtain ⟨k, first⟩ := ends.exists_decidesFirst
      refine ⟨k, first, ?_⟩
      rw [choose_eq, below_eq filled first] at drawn
      cases drawn
      exact skip_next (k + 1) s

/-! ### Another probability -/

theorem assess_withProbability (settings : HintSettings) (d : Dataset) (played : Question)
    (guess p : Float) :
    assess { settings with closerProbability := p } d played guess =
      assess settings d played guess := rfl

theorem Suits.withProbability {q : Question} (suits : Suits settings played guess q) (p : Float) :
    Suits { settings with closerProbability := p } played guess q :=
  ⟨suits.prompt, suits.facts, suits.size⟩

theorem drawHint_closer_of_le {p p' : Float} (le : p ≤ p') {q : Question}
    (h : drawHint { settings with closerProbability := p } d played guess s =
      (.ok (.closer direction q), s')) :
    drawHint { settings with closerProbability := p' } d played guess s =
      (.ok (.closer direction q), s') := by
  obtain ⟨filled, assessed, rolled, drawn⟩ := exists_of_drawHint_closer h
  rw [assess_withProbability, ← assess_withProbability settings d played guess p'] at assessed
  rw [drawHint_of_wrong assessed, dif_pos ⟨filled, Number.lt_of_lt_of_le rolled le⟩, drawn]

theorem drawHint_plain_of_le {p p' : Float} (le : p ≤ p') {factor : ℤ}
    (h : drawHint { settings with closerProbability := p' } d played guess s =
      (.ok (.plain direction factor), s')) :
    drawHint { settings with closerProbability := p } d played guess s =
      (.ok (.plain direction factor), s') := by
  obtain ⟨assessed, missed, rfl, rfl⟩ := exists_of_drawHint_plain h
  rw [assess_withProbability, ← assess_withProbability settings d played guess p] at assessed
  rw [drawHint_of_wrong assessed,
    dif_neg fun closer => missed ⟨closer.1, Number.lt_of_lt_of_le closer.2 le⟩]

end

/-- Hints take what their kind calls for and no more: nothing without a wrong guess, the roll with
a plain hint, and the roll and one draw from the pool with a closer one. As the probability rises,
plain hints turn into closer ones and no other hint changes, from no closer hint at zero to no
plain one at one as long as a question suits. -/
theorem drawHint_takes_by_kind [Elementary] (settings : HintSettings) (d : Dataset)
    (played : Question) (guess : Float) (s : σ) :
    LeftAfter (hintPool settings d played (gapBetween played.answer guess)) s
        (drawHint settings d played guess s).1 (drawHint settings d played guess s).2 ∧
      (∀ p p' : Float, p ≤ p' →
        (∀ direction q s',
          drawHint { settings with closerProbability := p } d played guess s =
              (.ok (.closer direction q), s') →
            drawHint { settings with closerProbability := p' } d played guess s =
              (.ok (.closer direction q), s')) ∧
        ∀ direction factor s',
          drawHint { settings with closerProbability := p' } d played guess s =
              (.ok (.plain direction factor), s') →
            drawHint { settings with closerProbability := p } d played guess s =
              (.ok (.plain direction factor), s')) ∧
      (1.0 ≤ settings.closerProbability →
        ∀ k m, magnitude guess = .ok k → magnitude played.answer = .ok m → k ≠ m →
          (∃ q ∈ d.questions, Suits settings played guess q) →
          ∃ direction q, (drawHint settings d played guess s).1 = .ok (.closer direction q)) ∧
      (settings.closerProbability ≤ 0.0 → ∀ direction q,
        (drawHint settings d played guess s).1 ≠ .ok (.closer direction q)) := by
  refine ⟨leftAfter_drawHint rfl,
    fun p p' le => ⟨fun direction q s' => drawHint_closer_of_le le,
      fun direction factor s' => drawHint_plain_of_le le⟩, ?_, ?_⟩
  · rintro always k m hg ha other ⟨q, member, suits⟩
    obtain ⟨q', s', drawn⟩ := exists_closer_hint settings d hg ha other
      (length_hintPool_pos member suits) (Number.lt_of_lt_of_le (unit_lt_one s) always)
    exact ⟨_, q', congrArg Prod.fst drawn⟩
  · intro never direction q drawn
    obtain ⟨-, -, rolled, -⟩ := exists_of_drawHint_closer
      (Prod.ext (y := (_, (drawHint settings d played guess s).2)) drawn rfl)
    exact not_unit_lt never s rolled

def hintForTown [Elementary] (p : Float) (seed : UInt64) : Except GameError Hint × Stream :=
  drawHint { closerProbability := p } townDataset townQuestion 1000.0 (Stream.ofSeed seed)

/-- After a guess of a thousand for a town a low roll gives a question at one half and above, and a
high roll the missing factor at one half and below. At one every roll gives a question, and at zero
none does. -/
theorem hintForTown_by_kind :
    ∃ (_ : Elementary) (q : Question) (s' : Stream),
      (hintForTown 0.5 2 = (.ok (.closer .tooLow q), s') ∧
        LeftAfter (hintPool { closerProbability := 0.5 } townDataset townQuestion
          (gapBetween townQuestion.answer 1000.0)) (Stream.ofSeed 2) (.ok (.closer .tooLow q)) s') ∧
      hintForTown 0.75 2 = (.ok (.closer .tooLow q), s') ∧
      (∃ factor s'', hintForTown 0.5 0 = (.ok (.plain .tooLow factor), s'') ∧
        hintForTown 0.25 0 = (.ok (.plain .tooLow factor), s'')) ∧
      (∃ direction q, (hintForTown 1.0 0).1 = .ok (.closer direction q)) ∧
      ∀ direction q, (hintForTown 0.0 2).1 ≠ .ok (.closer direction q) := by
  let elementary : Elementary := ⟨Number.steppedLog 0, Float.exp2⟩
  have suits : Suits {} townQuestion 1000.0 metreQuestion := by decide +kernel
  have listed : metreQuestion ∈ townDataset.questions := by simp [townDataset]
  have guessed : magnitude 1000.0 = .ok 3 := by rfl
  have sought : magnitude townQuestion.answer = .ok 6 := by rfl
  have low : (unit (Stream.ofSeed 2)).1 < 0.5 ∧ (0.5 : Float) ≤ 0.75 := by decide +kernel
  have high : ¬ (unit (Stream.ofSeed 0)).1 < 0.5 ∧ (0.25 : Float) ≤ 0.5 := by decide +kernel
  have extremes : (1.0 : Float) ≤ 1.0 ∧ (0.0 : Float) ≤ 0.0 := by decide +kernel
  have by_kind (p : Float) (seed : UInt64) := drawHint_takes_by_kind { closerProbability := p }
    townDataset townQuestion 1000.0 (Stream.ofSeed seed)
  obtain ⟨q, s', closer⟩ := exists_closer_hint { closerProbability := 0.5 } townDataset guessed
    sought (by norm_num) (length_hintPool_pos listed (suits.withProbability 0.5)) low.1
  have plain := drawHint_of_wrong (s := Stream.ofSeed 0)
    (assess_of_magnitude_ne { closerProbability := 0.5 } townDataset guessed sought (by norm_num))
  rw [dif_neg fun closer => high.1 closer.2] at plain
  have always := (by_kind 1.0 0).2.2.1 extremes.1 3 6 guessed sought (by norm_num)
    ⟨_, listed, suits.withProbability 1.0⟩
  have left := (by_kind 0.5 2).1
  rw [closer] at left
  exact ⟨elementary, q, s', ⟨closer, left⟩, ((by_kind 0.5 2).2.1 _ _ low.2).1 _ _ _ closer,
    ⟨_, _, plain, ((by_kind 0.5 0).2.1 _ _ high.2).2 _ _ _ plain⟩, always,
    (by_kind 0.0 2).2.2.2 extremes.2⟩

end FermiQuiz
