import Mathlib
import FermiQuiz.Sheet.Import
import FermiQuiz.Proofs.Sheet.Numbers
import FermiQuiz.Proofs.Store.Files
import FermiQuiz.Proofs.Store.Records

/-!
# Imports that are saved

The number of an entry begins with a digit, so that it is never read as a word. But a number that
overflows is read as an infinity, which is no zero and makes a fact; and it is saved as no number.
So an import is loaded again exactly if no entry of its sheet spells a number that overflows.
-/

namespace FermiQuiz

open Number (isDigit overflow)
open WorldStep (Succeeds)

namespace Sheet

/-! ### The number of an entry -/

section

variable {cs : List Char} {parts : Parts}

theorem beginsNumber_of_body? {specifier : Option (List Char)}
    (h : body? specifier cs = some parts) : BeginsNumber parts.number := by
  unfold body? at h
  split at h
  · cases h
  · next numbers after found =>
    obtain ⟨unit, -, rfl⟩ := Option.map_eq_some_iff.mp h
    exact beginsNumber_of_isNumberPart (isNumberPart_of_takeNumbers? found)

theorem beginsNumber_of_parts? (h : parts? cs = some parts) : BeginsNumber parts.number := by
  rcases Option.or_eq_some_iff.mp h with split | ⟨-, whole⟩
  · obtain ⟨⟨specifier, rest⟩, -, found⟩ := List.exists_of_findSome?_eq_some split
    exact beginsNumber_of_body? found
  · exact beginsNumber_of_body? whole

end

/-- The size of the number of an entry as it is spelled, before it is rounded. -/
def spelledSize? (text : String) : Option ℚ :=
  (parts? (Text.trimChars text.toList)).bind fun parts =>
    (Number.unsigned? (Number.takeSign parts.number).2).map fun (n, e) => n * 10 ^ e

/-- An entry is read as a finite number unless what it spells overflows. -/
theorem isFinite_read?_iff (text : String) :
    (∀ entry ∈ Entry.read? text, entry.quantity.value.isFinite = true) ↔
      ∀ size ∈ spelledSize? text, size < overflow := by
  unfold Entry.read? spelledSize?
  cases taken : parts? (Text.trimChars text.toList) with
  | none => simp
  | some parts =>
    dsimp only [Option.bind_some]
    rw [(beginsNumber_of_parts? taken).readChars?_eq]
    cases Number.unsigned? (Number.takeSign parts.number).2 with
    | none => simp
    | some spelled =>
      obtain ⟨n, e⟩ := spelled
      simp only [Option.map_some, Option.mem_some_iff, forall_eq']
      rw [← Number.isFinite_signed_iff (Number.takeSign parts.number).1]
      generalize (if (Number.takeSign parts.number).1 then -Number.nearestDecimal n e
        else Number.nearestDecimal n e) = x
      -- A zero makes no entry, but it is finite like the number that was spelled.
      by_cases zero : (x == 0.0) = true
      · simp [zero, Number.isFinite_of_beq_zero zero]
      · simp [zero]

/-! ### The entries of a sheet -/

def measured (text : String) : List Piece :=
  match (columns text).1.findIdx? (· == "thing") with
  | none => []
  | some thingColumn => pieces (columns text).1 thingColumn (columns text).2

end Sheet

section

open Sheet

variable {stamp text : String} {imported : Imported} {existing facts : List Fact}

theorem facts_of_importFacts (h : importFacts stamp text = .ok imported) :
    imported.facts = (measured text).filterMap (Piece.fact? stamp) := by
  cases found : (columns text).1.findIdx? (· == "thing") with
  | none =>
    simp only [importFacts, found] at h
    cases h
  | some thingColumn =>
    simp only [importFacts, found] at h
    cases h
    simp only [measured, found]

theorem isFinite_quality_of_importFacts (h : importFacts stamp text = .ok imported) :
    ∀ f ∈ imported.facts, f.quality.isFinite = true := by
  intro f member
  rw [facts_of_importFacts h] at member
  obtain ⟨p, -, made⟩ := List.mem_filterMap.mp member
  obtain ⟨entry, -, rfl⟩ := Option.map_eq_some_iff.mp made
  change (0.0 : Float).isFinite = true
  decide +kernel

theorem isFinite_importFacts_iff (h : importFacts stamp text = .ok imported) :
    (∀ f ∈ imported.facts, f.quantity.value.isFinite = true) ↔
      ∀ p ∈ measured text, ∀ size ∈ spelledSize? p.text, size < overflow := by
  rw [facts_of_importFacts h, List.forall_mem_filterMap]
  refine forall₂_congr fun p _ => ?_
  rw [← isFinite_read?_iff]
  unfold Piece.fact?
  cases Entry.read? p.text <;> simp

theorem writable_carryOver_iff (old : ∀ f ∈ existing, f.quality.isFinite = true)
    (new : ∀ f ∈ facts, f.quality.isFinite = true) :
    (∀ f ∈ carryOver existing facts, f.Writable) ↔
      ∀ f ∈ facts, f.quantity.value.isFinite = true := by
  unfold carryOver
  rw [List.forall_mem_map]
  refine forall₂_congr fun f member => ?_
  cases found : lastWithKey? existing f.key with
  | none => exact and_iff_left (new f member)
  | some g =>
    have curated : g ∈ existing := List.mem_reverse.mp (List.mem_of_find?_eq_some found)
    exact and_iff_left (old g curated)

/-- A saved import is loaded again exactly if no entry of the sheet spells a number that
overflows. -/
theorem import_saved {path : String} {w w' : World}
    (h : importFacts stamp text = .ok imported) (fit : ∀ f ∈ existing, f.Writable)
    (saved : (saveFacts path (carryOver existing imported.facts) : WorldStep Unit).run w =
      (.ok (), w')) :
    Succeeds (loadFacts path) w' ↔
      ∀ p ∈ measured text, ∀ size ∈ spelledSize? p.text, size < overflow := by
  obtain ⟨present, held⟩ := read_of_saveFile saved
  rw [succeeds_loadFacts_iff present held, isSome_readFacts?_writeFacts,
    writable_carryOver_iff (fun f member => (fit f member).2) (isFinite_quality_of_importFacts h),
    isFinite_importFacts_iff h]

end

/-! ### A star of giant length -/

def giantSheet : String := "thing\tlength\nstar\t1e999 m, 5 m\n"

theorem import_saved_giantSheet :
    ∃ imported w', importFacts "now" giantSheet = .ok imported ∧
      (saveFacts "values.json" (carryOver [] imported.facts) : WorldStep Unit).run emptyWorld =
        (.ok (), w') ∧
      ¬ Succeeds (loadFacts "values.json") w' := by
  have columns : Sheet.columns giantSheet = (["thing", "length"], [["star", "1e999 m, 5 m"]]) := by
    decide +kernel
  obtain ⟨imported, made⟩ : ∃ imported, importFacts "now" giantSheet = .ok imported := by
    rw [importFacts, columns]
    exact ⟨_, rfl⟩
  have found : emptyWorld.tree.find "values.json" = .ok ["home", "values.json"] := by
    decide +kernel
  obtain ⟨w', saved⟩ : ∃ w', (saveFacts "values.json" (carryOver [] imported.facts) :
      WorldStep Unit).run emptyWorld = (.ok (), w') :=
    exists_saveFile (by decide +kernel) (by decide +kernel) found (by decide +kernel)
  have listed : ⟨"star", "length", "1e999 m"⟩ ∈ Sheet.measured giantSheet := by decide +kernel
  have spelled : 1e999 ∈ Sheet.spelledSize? "1e999 m" := by decide +kernel
  have large : overflow ≤ 1e999 := by decide +kernel
  refine ⟨imported, w', made, saved, fun loaded => ?_⟩
  have small := (import_saved made (by simp) saved).mp loaded _ listed _ spelled
  exact absurd small large.not_gt

end FermiQuiz
