import GameArchive.Proofs.Outcome
import Mathlib.Data.List.Forall2

/-!
# Doing the same again

Two computations that differ in what their failures tell succeed with the same values.  The lemmas
of this module follow two such computations step by step, over lists whose elements correspond.
-/

namespace GameArchive
namespace Outcome

universe u v

section Yields

variable {ε : Type u} {α β : Type v}

/-- What the first computation gives, the second gives as well. -/
def Yields (first second : Except ε α) : Prop :=
  ∀ value, first = .ok value → second = .ok value

theorem Yields.refl (outcome : Except ε α) : Yields outcome outcome :=
  fun _ given => given

theorem Yields.of_error (failure : ε) (outcome : Except ε α) : Yields (.error failure) outcome :=
  nofun

theorem Yields.bind {first second : Except ε α} {next other : α → Except ε β}
    (same : Yields first second) (further : ∀ value, Yields (next value) (other value)) :
    Yields (first >>= next) (second >>= other) := by
  intro value given
  obtain ⟨middle, firstOk, nextOk⟩ := bind_eq_ok_iff.mp given
  exact bind_eq_ok_iff.mpr ⟨middle, same middle firstOk, further middle value nextOk⟩

/-- A value that is given under the same condition. -/
theorem Yields.ite {condition other : Prop} [Decidable condition] [Decidable other]
    {value : α} {failure otherFailure : ε} (same : condition → other) :
    Yields (if condition then .ok value else .error failure)
      (if other then .ok value else .error otherFailure) := by
  intro result given
  obtain ⟨holds, rfl⟩ := ite_eq_ok_iff.mp given
  exact ite_eq_ok_iff.mpr ⟨same holds, rfl⟩

/-- Steps that correspond give the same list. -/
theorem Yields.mapM {γ δ : Type v} {relation : γ → δ → Prop} {step : γ → Except ε α}
    {other : δ → Except ε α} {values : List γ} {others : List δ}
    (related : List.Forall₂ relation values others)
    (same : ∀ value counterpart, relation value counterpart →
      Yields (step value) (other counterpart)) :
    Yields (values.mapM step) (others.mapM other) := by
  induction related with
  | nil => exact Yields.refl _
  | cons first _ ih =>
      rw [List.mapM_cons, List.mapM_cons]
      exact (same _ _ first).bind fun _ => ih.bind fun _ => Yields.refl _

end Yields

end Outcome

section Correspondence

variable {α β γ : Type} {relation : α → β → Prop} {values : List α} {others : List β}

/-- Lists whose elements correspond at every index. -/
theorem forall₂_of_getElem? (lengthEq : values.length = others.length)
    (same : ∀ (index : Nat) (value : α), values[index]? = some value →
      ∃ other, others[index]? = some other ∧ relation value other) :
    List.Forall₂ relation values others := by
  apply List.forall₂_of_length_eq_of_get lengthEq
  intro index below otherBelow
  obtain ⟨other, there, related⟩ := same index _ (List.getElem?_eq_getElem below)
  rw [List.getElem?_eq_getElem otherBelow] at there
  cases there
  exact related

theorem exists_of_forall₂ (related : List.Forall₂ relation values others) {other : β}
    (member : other ∈ others) : ∃ value ∈ values, relation value other := by
  induction related with
  | nil => cases member
  | cons first _ ih =>
      rcases List.mem_cons.mp member with rfl | later
      · exact ⟨_, List.mem_cons_self .., first⟩
      · obtain ⟨value, among, holds⟩ := ih later
        exact ⟨value, List.mem_cons_of_mem _ among, holds⟩

theorem exists_getElem?_of_forall₂ (related : List.Forall₂ relation values others) {index : Nat}
    {other : β} (there : others[index]? = some other) :
    ∃ value, values[index]? = some value ∧ relation value other := by
  induction related generalizing index with
  | nil => cases there
  | cons first _ ih =>
      cases index with
      | zero =>
          cases there
          exact ⟨_, rfl, first⟩
      | succ index => exact ih there

/-- Values that are numbered by their positions stand in the order of their numbers. -/
theorem pairwise_of_getElem? {number : α → Nat}
    (positions : ∀ (index : Nat) (value : α), values[index]? = some value →
      number value = index) :
    values.Pairwise fun first second => number first ≤ number second := by
  rw [List.pairwise_iff_getElem]
  intro first second firstBelow secondBelow before
  rw [positions first _ (List.getElem?_eq_getElem firstBelow),
    positions second _ (List.getElem?_eq_getElem secondBelow)]
  exact Nat.le_of_lt before

theorem map_eq_map_of_forall₂ {image : α → γ} {counterpart : β → γ}
    (related : List.Forall₂ relation values others)
    (same : ∀ value other, relation value other → image value = counterpart other) :
    values.map image = others.map counterpart := by
  induction related with
  | nil => rfl
  | cons first _ ih => rw [List.map_cons, List.map_cons, same _ _ first, ih]

theorem flatMap_eq_of_forall₂ {part : α → List γ} {counterpart : β → List γ}
    (related : List.Forall₂ relation values others)
    (same : ∀ value other, relation value other → part value = counterpart other) :
    values.flatMap part = others.flatMap counterpart := by
  induction related with
  | nil => rfl
  | cons first _ ih => rw [List.flatMap_cons, List.flatMap_cons, same _ _ first, ih]

end Correspondence

end GameArchive
