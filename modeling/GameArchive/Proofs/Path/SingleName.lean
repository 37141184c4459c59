import GameArchive.Proofs.Path.Descent

/-!
# Names of one component

A name of ordinary characters is safe and is a single component.  A safe name begins and ends with
a component that leads down, so that it leads right below a directory only when it is such a single
component.
-/

namespace GameArchive
namespace Path

theorem hasParentStep_eq_false {path : List Char} (noBackslash : '\\' ∉ path) :
    hasParentStep path = false := by
  induction path with
  | nil => rfl
  | cons character path ih =>
      rw [List.mem_cons, not_or] at noBackslash
      unfold hasParentStep
      split
      · rfl
      · next equal =>
          cases equal
          exact absurd rfl noBackslash.1
      · next equal =>
          cases equal
          exact ih noBackslash.2

/-- A name is safe when no character of it is one that a component may not begin or end with. -/
theorem isSafeWindows_of_plain {path : List Char} (notEmpty : path ≠ [])
    (plain : ∀ character ∈ path, isForbiddenAtEdge character = false ∧ character ≠ '.') :
    isSafeWindows path = true := by
  have allowed : ∀ character ∈ path, isForbidden character = false ∧ character ≠ ':' ∧
      isSeparator character = false := by
    intro character member
    have edge := (plain character member).1
    simp only [isForbiddenAtEdge, Bool.or_eq_false_iff, beq_eq_false_iff_ne] at edge
    exact ⟨edge.1.1.1.1, edge.1.1.1.2, edge.2⟩
  have noBackslash : '\\' ∉ path := fun member => absurd (allowed _ member).2.2 (by decide)
  have forbidden : path.any isForbidden = false := by
    rw [List.any_eq_false]
    intro character member
    rw [(allowed character member).1]
    exact Bool.false_ne_true
  have noDrive : hasDrive path = false := by
    unfold hasDrive
    split
    · exact absurd rfl (allowed ':' (by simp)).2.1
    · rfl
  have edges : hasSafeEdges (leafCharacters path) = true := by
    have alone : leafCharacters path = path := by
      rw [leafCharacters, splitLast?_eq_none_iff.mpr fun character member =>
        (allowed character member).2.2]
    rw [alone, hasSafeEdges, List.head?_eq_some_head notEmpty,
      List.getLast?_eq_some_getLast notEmpty]
    simp only
    rw [(plain _ (List.head_mem notEmpty)).1, (plain _ (List.getLast_mem notEmpty)).1]
    rfl
  simp only [isSafeWindows, Bool.and_eq_true, Bool.not_eq_true', bne_iff_ne]
  refine ⟨⟨⟨⟨⟨⟨⟨List.isEmpty_eq_false_iff.mpr notEmpty, forbidden⟩, ?_⟩, noDrive⟩, ?_⟩, ?_⟩,
    hasParentStep_eq_false noBackslash⟩, edges⟩
  · exact fun rooted => noBackslash (List.mem_of_mem_head? rooted)
  · exact fun stop => (plain _ (List.mem_of_mem_head? stop)).2 rfl
  · exact fun stop => (plain _ (List.mem_of_getLast? stop)).2 rfl

theorem plain_of_isDigit {character : Char} (digit : character.isDigit) :
    isForbiddenAtEdge character = false ∧ character ≠ '.' := by
  constructor
  · rw [Bool.eq_false_iff]
    intro forbidden
    simp only [isForbiddenAtEdge, isForbidden, isSeparator, Bool.or_eq_true, beq_iff_eq,
      decide_eq_true_eq] at forbidden
    have atLeast : 48 ≤ character.toNat := by
      rw [Char.isDigit, Bool.and_eq_true, decide_eq_true_eq] at digit
      exact UInt32.le_iff_toNat_le.mp digit.1
    rcases forbidden with
      (((((((rfl | rfl) | rfl) | rfl) | control) | rfl) | rfl) | rfl) | rfl | rfl
    any_goals cases digit
    omega
  · rintro rfl
    cases digit

theorem length_splitAt_of_mem {separator : Char} {path : List Char} (member : separator ∈ path) :
    2 ≤ (splitAt separator path).length := by
  obtain ⟨front, back, rfl⟩ := List.append_of_mem member
  obtain ⟨first, firsts, frontSplit⟩ := exists_splitAt_eq_cons separator front
  obtain ⟨next, nexts, backSplit⟩ := exists_splitAt_eq_cons separator back
  rw [splitAt_append, frontSplit, backSplit, List.length_append, List.length_cons,
    List.length_cons]
  omega

/-- The first component is a name. -/
theorem SafeWindows.first {path first : List Char} {components : List (List Char)}
    (safe : SafeWindows path) (split : splitAt '\\' path = first :: components) :
    first ≠ [] ∧ first ≠ ['.'] := by
  obtain ⟨⟨rest, row⟩, -⟩ := splitAt_eq_cons split
  cases path with
  | nil => exact absurd rfl safe.leaf
  | cons character path =>
      constructor
      · rintro rfl
        exact safe.unrooted (congrArg some (List.cons.inj row).1.symm)
      · rintro rfl
        exact safe.firstStop (congrArg some (List.cons.inj row).1.symm)

/-- Whether a name is not passed over when a path is followed. -/
def isStep (name : String) : Bool :=
  !decide (name = "" ∨ name = ".")

theorem isStep_ofList {component : List Char} (notEmpty : component ≠ [])
    (notStop : component ≠ ['.']) : isStep (String.ofList component) = true := by
  rw [isStep, decide_eq_false]
  · rfl
  · rintro (empty | stop)
    · exact notEmpty (String.ofList_inj.mp empty)
    · exact notStop (String.ofList_inj.mp stop)

/-- A safe name that leads to a single name is that name. -/
theorem eq_of_steps_eq_singleton {name found : String} (safe : isSafe name)
    (leads : (names (toNative name).toList).filter isStep = [found]) : name = found := by
  have safe := safeWindows_of_isSafe safe
  obtain ⟨leaf, last, leafNotEmpty, leafNotStop, -⟩ := safe.named (not_mem_replace (by decide) _)
  obtain ⟨first, components, parts⟩ :=
    exists_splitAt_eq_cons '\\' (replace '/' '\\' name.toList)
  obtain ⟨notEmpty, notStop⟩ := safe.first parts
  rw [names, toNative, String.toList_ofList, split_replace, parts, List.map_cons,
    List.filter_cons_of_pos (isStep_ofList notEmpty notStop)] at leads
  obtain ⟨rfl, noOther⟩ := List.cons.inj leads
  rw [parts] at last
  cases components with
  | cons next components =>
      -- The leaf would be a second name.
      have member : leaf ∈ next :: components := List.mem_of_getLast? last
      have passed := List.filter_eq_nil_iff.mp noOther _ (List.mem_map_of_mem member)
      exact absurd (isStep_ofList leafNotEmpty leafNotStop) passed
  | nil =>
      have noBackslash : '\\' ∉ replace '/' '\\' name.toList := by
        intro member
        have several := length_splitAt_of_mem member
        rw [parts, List.length_singleton] at several
        omega
      have noSlash : '/' ∉ name.toList := fun member =>
        noBackslash (List.mem_map.mpr ⟨'/', member, rfl⟩)
      rw [replace_of_not_mem _ noSlash] at noBackslash parts
      rw [splitAt_of_plain noBackslash] at parts
      rw [← (List.cons.inj parts).1, String.ofList_toList]

end Path
end GameArchive
