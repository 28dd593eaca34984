import Mathlib
import FermiQuiz.Proofs.Json.Precision
import FermiQuiz.Proofs.Store.Files
import FermiQuiz.Proofs.Store.Records

/-!
# Facts that are saved

Saved facts are loaded with all their texts. Their numbers come back within a few places, so that
the facts are the same exactly if every number is read back as it was.
-/

namespace FermiQuiz

open Json (ofFloat float? readingError IsWrittenShort)
open Number (value)

namespace Fact

/-- `g` has the texts of `f` and finite numbers near those of `f`. -/
structure IsLoadedAs (f g : Fact) : Prop where
  texts : g = { f with
    quantity := { f.quantity with value := g.quantity.value }
    quality := g.quality }
  writable : g.Writable
  number : |value g.quantity.value - value f.quantity.value| ≤ readingError (value f.quantity.value)
  quality : |value g.quality - value f.quality| ≤ readingError (value f.quality)

def KeepsNumbers (f : Fact) : Prop :=
  float? (ofFloat f.quantity.value) = some f.quantity.value ∧
    float? (ofFloat f.quality) = some f.quality

variable {f g : Fact}

theorem isLoadedAs_of_ofJson? (fit : f.Writable) (read : ofJson? f.toJson = some g) :
    f.IsLoadedAs g := by
  obtain ⟨number, number_read, finite, near⟩ := Json.exists_float?_near fit.1
  obtain ⟨quality, quality_read, finite', near'⟩ := Json.exists_float?_near fit.2
  rw [ofJson?_toJson, number_read, quality_read] at read
  cases read
  exact ⟨rfl, ⟨finite, finite'⟩, near, near'⟩

theorem eq_iff_of_ofJson? (read : ofJson? f.toJson = some g) : g = f ↔ f.KeepsNumbers := by
  rw [ofJson?_toJson] at read
  obtain ⟨number, number_read, read⟩ := Option.bind_eq_some_iff.mp read
  obtain ⟨quality, quality_read, made⟩ := Option.bind_eq_some_iff.mp read
  cases made
  rw [KeepsNumbers, number_read, quality_read, Option.some_inj, Option.some_inj]
  constructor
  · intro same
    exact ⟨congrArg (fun f => f.quantity.value) same, congrArg Fact.quality same⟩
  · rintro ⟨rfl, rfl⟩
    rfl

theorem keepsNumbers_of_isWrittenShort (number : IsWrittenShort f.quantity.value)
    (quality : IsWrittenShort f.quality) : f.KeepsNumbers :=
  ⟨Json.float?_of_isWrittenShort number, Json.float?_of_isWrittenShort quality⟩

theorem forall₂_isLoadedAs {facts loaded : List Fact} (fit : ∀ f ∈ facts, f.Writable)
    (read : List.Forall₂ (fun f g => ofJson? f.toJson = some g) facts loaded) :
    List.Forall₂ IsLoadedAs facts loaded := by
  induction read with
  | nil => exact .nil
  | cons first _ ih =>
    rw [List.forall_mem_cons] at fit
    exact .cons (isLoadedAs_of_ofJson? fit.1 first) (ih fit.2)

end Fact

theorem eq_iff_of_forall₂ {α : Type} {R : α → α → Prop} {P : α → Prop} {xs ys : List α}
    (related : List.Forall₂ R xs ys) (same : ∀ {x y}, R x y → (y = x ↔ P x)) :
    ys = xs ↔ ∀ x ∈ xs, P x := by
  induction related with
  | nil => exact iff_of_true rfl (List.forall_mem_nil _)
  | cons first _ ih => rw [List.cons.injEq, List.forall_mem_cons, same first, ih]

/-- Saved facts are loaded with all their texts and with numbers near those that were saved. They
are the same facts exactly if every number is read back as it was, as one with a short literal
is. -/
theorem load_of_saveFacts {path : String} {w w' : World} {facts : List Fact}
    (fit : ∀ f ∈ facts, f.Writable)
    (saved : (saveFacts path facts : WorldStep Unit).run w = (.ok (), w')) :
    ∃ loaded, (loadFacts path : WorldStep (List Fact)).run w' = (.ok loaded, w') ∧
      List.Forall₂ Fact.IsLoadedAs facts loaded ∧
      (loaded = facts ↔ ∀ f ∈ facts, f.KeepsNumbers) ∧
      ((∀ f ∈ facts, IsWrittenShort f.quantity.value ∧ IsWrittenShort f.quality) →
        loaded = facts) := by
  obtain ⟨present, held⟩ := read_of_saveFile saved
  obtain ⟨loaded, read⟩ := Option.isSome_iff_exists.mp (isSome_readFacts?_writeFacts.mpr fit)
  have listed : (loadFacts path : WorldStep (List Fact)).run w' = _ := run_loadList present held
  rw [read] at listed
  rw [readFacts?_writeFacts, mapM_eq_some_iff] at read
  have same := eq_iff_of_forall₂ read Fact.eq_iff_of_ofJson?
  refine ⟨loaded, listed, Fact.forall₂_isLoadedAs fit read, same, fun short => same.mpr ?_⟩
  intro f member
  obtain ⟨number, quality⟩ := short f member
  exact Fact.keepsNumbers_of_isWrittenShort number quality

/-! ### The mass of a planet -/

def saturnMass : Fact where
  quantity := ⟨5.645e26, "kg"⟩
  name := "mass of Saturn"
  measurement := "mass"
  thing := "Saturn"

/-- The mass is read as `5645 * 10 ^ 23`, with the power of ten rounded before the product is. -/
theorem load_of_saveFacts_saturnMass :
    ∃ w' loaded, (∀ f ∈ [saturnMass], f.Writable) ∧
      (saveFacts "v.json" [saturnMass] : WorldStep Unit).run emptyWorld = (.ok (), w') ∧
      (loadFacts "v.json" : WorldStep (List Fact)).run w' = (.ok loaded, w') ∧
      loaded ≠ [saturnMass] := by
  have fit : ∀ f ∈ [saturnMass], f.Writable := by
    rw [List.forall_mem_singleton, Fact.Writable]
    decide +kernel
  have found : emptyWorld.tree.find "v.json" = .ok ["home", "v.json"] := by decide +kernel
  obtain ⟨w', saved⟩ : ∃ w', (saveFacts "v.json" [saturnMass] : WorldStep Unit).run emptyWorld =
      (.ok (), w') :=
    exists_saveFile (by decide +kernel) (by decide +kernel) found (by decide +kernel)
  obtain ⟨loaded, ran, -, same, -⟩ := load_of_saveFacts fit saved
  have moved : float? (ofFloat 5.645e26) ≠ some 5.645e26 := by decide +kernel
  refine ⟨w', loaded, fit, saved, ran, same.not.mpr fun kept => ?_⟩
  exact moved (kept saturnMass (List.mem_singleton_self _)).1

end FermiQuiz
