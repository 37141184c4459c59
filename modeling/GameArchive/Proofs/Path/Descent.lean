import GameArchive.FileTree
import GameArchive.Proofs.Path.Parts

/-!
# Paths that lead down

A safe name has no step to a parent among its components: not inside, where it would stand between
two separators, and not at an end, where it would begin or end the name with a full stop.  So a
reader who follows the components from left to right never leaves the directory that the name is
read from, and ends at a name below it.
-/

namespace GameArchive
namespace Path

/-! ## Components -/

section Components

variable {separator : Char}

theorem splitAt_cons_self (rest : List Char) :
    splitAt separator (separator :: rest) = [] :: splitAt separator rest :=
  if_pos rfl

/-- The first component takes a further character that does not separate. -/
theorem splitAt_cons_of_ne {character : Char} (other : character ≠ separator)
    {rest first : List Char} {components : List (List Char)}
    (split : splitAt separator rest = first :: components) :
    splitAt separator (character :: rest) = (character :: first) :: components := by
  rw [splitAt, if_neg other, split]

theorem exists_splitAt_eq_cons (separator : Char) (path : List Char) :
    ∃ first components, splitAt separator path = first :: components := by
  induction path with
  | nil => exact ⟨[], [], rfl⟩
  | cons character rest ih =>
      by_cases same : character = separator
      · subst same
        exact ⟨[], _, splitAt_cons_self rest⟩
      · obtain ⟨first, components, split⟩ := ih
        exact ⟨_, _, splitAt_cons_of_ne same split⟩

theorem splitAt_append (front back : List Char) :
    splitAt separator (front ++ separator :: back) =
      splitAt separator front ++ splitAt separator back := by
  induction front with
  | nil => exact splitAt_cons_self back
  | cons character front ih =>
      rw [List.cons_append]
      by_cases same : character = separator
      · subst same
        rw [splitAt_cons_self, splitAt_cons_self, ih, List.cons_append]
      · obtain ⟨first, components, split⟩ := exists_splitAt_eq_cons separator front
        rw [split, List.cons_append] at ih
        rw [splitAt_cons_of_ne same ih, splitAt_cons_of_ne same split, List.cons_append]

theorem splitAt_of_plain {path : List Char} (plain : separator ∉ path) :
    splitAt separator path = [path] := by
  induction path with
  | nil => rfl
  | cons character rest ih =>
      rw [List.mem_cons, not_or] at plain
      exact splitAt_cons_of_ne (Ne.symm plain.1) (ih plain.2)

/-- The first component ends at a separator, and the others stand between two, when one is set
behind the path. -/
theorem splitAt_eq_cons {path first : List Char} {components : List (List Char)}
    (split : splitAt separator path = first :: components) :
    first ++ [separator] <+: path ++ [separator] ∧
      ∀ component ∈ components,
        separator :: (component ++ [separator]) <:+: path ++ [separator] := by
  induction path generalizing first components with
  | nil =>
      cases split
      exact ⟨List.prefix_rfl, by simp⟩
  | cons character rest ih =>
      by_cases same : character = separator
      · subst same
        rw [splitAt_cons_self] at split
        cases split
        refine ⟨⟨rest ++ [character], rfl⟩, ?_⟩
        intro component member
        obtain ⟨next, others, restSplit⟩ := exists_splitAt_eq_cons character rest
        obtain ⟨begins, between⟩ := ih restSplit
        rw [restSplit] at member
        rcases List.mem_cons.mp member with rfl | later
        · exact ((List.prefix_cons_inj character).mpr begins).isInfix
        · exact (between component later).trans (List.suffix_cons ..).isInfix
      · obtain ⟨next, others, restSplit⟩ := exists_splitAt_eq_cons separator rest
        rw [splitAt_cons_of_ne same restSplit] at split
        cases split
        obtain ⟨begins, between⟩ := ih restSplit
        exact ⟨(List.prefix_cons_inj character).mpr begins, fun component member =>
          (between component member).trans (List.suffix_cons ..).isInfix⟩

end Components

/-- In a path with backslashes only, the leaf is the last component. -/
theorem getLast?_splitAt {path : List Char} (noSlash : '/' ∉ path) :
    (splitAt '\\' path).getLast? = some (leafCharacters path) := by
  have plainOf : ∀ {part : List Char},
      (∀ character ∈ part, isSeparator character = false) → '\\' ∉ part := by
    intro part plain member
    exact absurd (plain '\\' member) (by decide)
  unfold leafCharacters
  cases split : splitLast? path with
  | none =>
      rw [splitAt_of_plain (plainOf (splitLast?_eq_none_iff.mp split))]
      rfl
  | some parts =>
      obtain ⟨front, back⟩ := parts
      obtain ⟨separator, separates, rfl, plain⟩ := splitLast?_eq_some split
      have backslash : separator = '\\' := by
        have notSlash : separator ≠ '/' := by
          rintro rfl
          exact noSlash (by simp)
        simpa [isSeparator, notSlash] using separates
      rw [backslash, splitAt_append, splitAt_of_plain (plainOf plain),
        List.getLast?_append]
      rfl

/-- The components do not depend on which separators a path is written with. -/
theorem split_replace (path : List Char) :
    split (replace '\\' '/' path) = splitAt '\\' (replace '/' '\\' path) := by
  induction path with
  | nil => rfl
  | cons character rest ih =>
      obtain ⟨first, components, restSplit⟩ :=
        exists_splitAt_eq_cons '\\' (replace '/' '\\' rest)
      rw [restSplit] at ih
      unfold replace split at *
      rw [List.map_cons, List.map_cons]
      by_cases slash : character = '/'
      · rw [if_pos slash, slash, if_neg (by decide), splitAt_cons_self, splitAt_cons_self, ih,
          restSplit]
      · by_cases backslash : character = '\\'
        · rw [if_pos backslash, backslash, if_neg (by decide), splitAt_cons_self,
            splitAt_cons_self, ih, restSplit]
        · rw [if_neg slash, if_neg backslash, splitAt_cons_of_ne slash ih,
            splitAt_cons_of_ne backslash restSplit]

/-! ## Safe names -/

theorem hasParentStep_cons {rest : List Char} (character : Char)
    (step : hasParentStep rest) : hasParentStep (character :: rest) := by
  unfold hasParentStep
  split
  · next impossible => cases impossible
  · rfl
  · next equal =>
      cases equal
      exact step

theorem hasParentStep_of_infix {path : List Char}
    (inside : ['\\', '.', '.', '\\'] <:+: path) : hasParentStep path := by
  obtain ⟨front, back, rfl⟩ := inside
  induction front with
  | nil => rfl
  | cons character front ih => exact hasParentStep_cons character ih

/-- What a safe path with backslashes only is like. -/
structure SafeWindows (path : List Char) : Prop where
  unrooted : path.head? ≠ some '\\'
  firstStop : path.head? ≠ some '.'
  lastStop : path.getLast? ≠ some '.'
  noStep : hasParentStep path = false
  leaf : leafCharacters path ≠ []

theorem safeWindows_of_isSafe {path : List Char} (safe : isSafeWindows path) :
    SafeWindows path := by
  simp only [isSafeWindows, Bool.and_eq_true, Bool.not_eq_true', bne_iff_ne] at safe
  obtain ⟨⟨⟨⟨⟨⟨-, unrooted⟩, -⟩, firstStop⟩, lastStop⟩, noStep⟩, edges⟩ := safe
  refine ⟨unrooted, firstStop, lastStop, noStep, ?_⟩
  intro nothing
  rw [nothing] at edges
  cases edges

namespace SafeWindows

variable {path : List Char}

theorem noParent (safe : SafeWindows path) : ['.', '.'] ∉ splitAt '\\' path := by
  intro member
  obtain ⟨first, components, split⟩ := exists_splitAt_eq_cons '\\' path
  obtain ⟨begins, between⟩ := splitAt_eq_cons split
  rw [split] at member
  rcases List.mem_cons.mp member with rfl | later
  · -- The path begins with the step, and so with a full stop.
    obtain ⟨rest, row⟩ := begins
    cases path with
    | nil => simp at row
    | cons character path =>
        have same : '.' = character := (List.cons.inj row).1
        exact safe.firstStop (congrArg some same.symm)
  · obtain ⟨front, back, row⟩ := between _ later
    rcases List.eq_nil_or_concat back with rfl | ⟨inner, last, rfl⟩
    · -- The step ends the path, and so a full stop does.
      have fenced : (front ++ ['\\', '.', '.']) ++ ['\\'] = path ++ ['\\'] := by
        rw [← row]
        simp
      apply safe.lastStop
      rw [← List.append_cancel_right fenced, List.getLast?_append]
      rfl
    · have fenced : (front ++ ['\\', '.', '.', '\\'] ++ inner) ++ [last] = path ++ ['\\'] := by
        rw [← row]
        simp
      have whole := List.append_inj_left' fenced rfl
      have step := hasParentStep_of_infix ⟨front, inner, whole⟩
      rw [safe.noStep] at step
      cases step

/-- The last component is a name. -/
theorem named (safe : SafeWindows path) (noSlash : '/' ∉ path) :
    ∃ leaf, (splitAt '\\' path).getLast? = some leaf ∧ leaf ≠ [] ∧ leaf ≠ ['.'] ∧
      leaf ≠ ['.', '.'] := by
  refine ⟨_, getLast?_splitAt noSlash, safe.leaf, ?_⟩
  have ending : (leafCharacters path).getLast? = path.getLast? := by
    have there := safe.leaf
    unfold leafCharacters at there ⊢
    cases split : splitLast? path with
    | none => rfl
    | some parts =>
        obtain ⟨front, back⟩ := parts
        obtain ⟨separator, -, rfl, -⟩ := splitLast?_eq_some split
        rw [split] at there
        change back.getLast? = (front ++ separator :: back).getLast?
        rw [List.getLast?_append, List.getLast?_cons_of_ne_nil there,
          List.getLast?_eq_some_getLast there]
        rfl
  constructor
  · intro stop
    rw [stop] at ending
    exact safe.lastStop ending.symm
  · intro stops
    rw [stops] at ending
    exact safe.lastStop ending.symm

end SafeWindows

/-! ## Descending -/

/-- The names of the components of a native path. -/
def names (path : List Char) : List String :=
  (split path).map String.ofList

/-- A native path that leads strictly below every place that it is read from. -/
structure Descends (path : List Char) : Prop where
  unrooted : path.head? ≠ some '/'
  noParent : ".." ∉ names path
  keeps : ∀ start count, start <+: Location.follow start ((names path).take count)
  named : ∃ leaf, (names path).getLast? = some leaf ∧ leaf ≠ "" ∧ leaf ≠ "." ∧ leaf ≠ ".."

/-- What stands between a directory and a path that is read from it. -/
def separatorAfter (base : List Char) : List Char :=
  if base = [] ∨ base.getLast? = some '/' then [] else ['/']

theorem separatorAfter_nil : separatorAfter [] = [] :=
  if_pos (.inl rfl)

/-- The path is that of a directory and, behind it, one that descends. -/
def StrictlyBelow (base path : String) : Prop :=
  ∃ rest, path.toList = base.toList ++ (separatorAfter base.toList ++ rest) ∧ Descends rest

end Path

namespace Location

theorem follow_append (base : Location) (first second : List String) :
    follow base (first ++ second) = follow (follow base first) second := by
  induction first generalizing base with
  | nil => rfl
  | cons name first ih =>
      rw [List.cons_append, follow, follow]
      split
      · exact ih base
      · split
        · exact ih base.dropLast
        · exact ih (base ++ [name])

/-- Without steps to a parent, the names that are not passed over are added. -/
theorem follow_of_noParent (base : Location) {names : List String} (noParent : ".." ∉ names) :
    follow base names = base ++ names.filter fun name => !decide (name = "" ∨ name = ".") := by
  induction names generalizing base with
  | nil => exact (List.append_nil base).symm
  | cons name names ih =>
      rw [List.mem_cons, not_or] at noParent
      rw [follow]
      split
      · next passed =>
          rw [ih base noParent.2, List.filter_cons_of_neg (by rw [decide_eq_true passed]; decide)]
      · next kept =>
          rw [if_neg (Ne.symm noParent.1), ih _ noParent.2,
            List.filter_cons_of_pos (by rw [decide_eq_false kept]; rfl), List.append_assoc,
            List.singleton_append]

end Location

namespace Path

theorem descends_of_noParent {path : List Char} (unrooted : path.head? ≠ some '/')
    (noParent : ['.', '.'] ∉ split path)
    (named : ∃ leaf, (split path).getLast? = some leaf ∧ leaf ≠ [] ∧ leaf ≠ ['.'] ∧
      leaf ≠ ['.', '.']) : Descends path := by
  have plain : ".." ∉ names path := by
    intro member
    obtain ⟨component, among, equal⟩ := List.mem_map.mp member
    have step : component = ['.', '.'] := String.ofList_inj.mp equal
    exact noParent (step ▸ among)
  refine ⟨unrooted, plain, ?_, ?_⟩
  · intro start count
    have front : ".." ∉ (names path).take count := fun member => plain (List.mem_of_mem_take member)
    rw [Location.follow_of_noParent start front]
    exact List.prefix_append ..
  · obtain ⟨leaf, last, notEmpty, notStop, notParent⟩ := named
    refine ⟨String.ofList leaf, ?_, ?_, ?_, ?_⟩
    · rw [names, List.getLast?_map, last]
      rfl
    · exact fun equal => notEmpty (String.ofList_inj.mp equal)
    · exact fun equal => notStop (String.ofList_inj.mp equal)
    · exact fun equal => notParent (String.ofList_inj.mp equal)

theorem toNative_of_not_mem {path : String} (absent : '\\' ∉ path.toList) :
    toNative path = path := by
  rw [toNative, replace_of_not_mem '/' absent, String.ofList_toList]

theorem descends_of_isSafe {name : String} (safe : isSafe name) :
    Descends (toNative name).toList := by
  have safe := safeWindows_of_isSafe safe
  rw [toNative, String.toList_ofList]
  apply descends_of_noParent
  · intro rooted
    apply safe.unrooted
    cases characters : name.toList with
    | nil =>
        rw [characters] at rooted
        cases rooted
    | cons character rest =>
        rw [characters, replace, List.map_cons, List.head?_cons, Option.some.injEq] at rooted
        rw [replace, List.map_cons, List.head?_cons, Option.some.injEq]
        split at rooted
        · next backslash =>
            rw [backslash]
            rfl
        · exact if_pos rooted
  · rw [split_replace]
    exact safe.noParent
  · rw [split_replace]
    exact safe.named (not_mem_replace (by decide) _)

/-- A component alone descends. -/
theorem descends_of_plain {path : List Char} (plain : '/' ∉ path) (notEmpty : path ≠ [])
    (notStop : path ≠ ['.']) (notParent : path ≠ ['.', '.']) : Descends path := by
  have alone : split path = [path] := splitAt_of_plain plain
  apply descends_of_noParent
  · intro rooted
    exact plain (List.mem_of_mem_head? rooted)
  · rw [alone, List.mem_singleton]
    exact Ne.symm notParent
  · exact ⟨path, by rw [alone]; rfl, notEmpty, notStop, notParent⟩

theorem resolve_eq {path : List Char} (base : List Char) (unrooted : path.head? ≠ some '/') :
    resolve base path = base ++ (separatorAfter base ++ path) := by
  unfold resolve separatorAfter
  split
  · exact absurd rfl unrooted
  · split
    · next ending =>
        have empty := List.getLast?_eq_none_iff.mp ending
        rw [if_pos (.inl empty), empty]
        rfl
    · next ending =>
        rw [if_pos (.inr ending)]
        rfl
    · next last other ending =>
        rw [if_neg]
        · rfl
        · rintro (empty | slash)
          · rw [empty] at ending
            cases ending
          · rw [slash] at ending
            exact other (Option.some.inj ending).symm

theorem strictlyBelow_join {name : String} (base : String)
    (descends : Descends (toNative name).toList) : StrictlyBelow base (join base name) := by
  refine ⟨_, ?_, descends⟩
  rw [join, String.toList_ofList, resolve_eq _ descends.unrooted]

theorem names_append (front back : List Char) :
    names (front ++ '/' :: back) = names front ++ names back := by
  rw [names, split, splitAt_append, List.map_append]
  rfl

/-- The names of a path are followed behind those of the directory that it is read from. -/
theorem follow_names_below (start : Location) (base rest : List Char) :
    Location.follow start (names (base ++ (separatorAfter base ++ rest))) =
      Location.follow (Location.follow start (names base)) (names rest) := by
  unfold separatorAfter
  split
  · next ends =>
      rw [List.nil_append]
      rcases ends with rfl | slash
      · rfl
      · obtain ⟨front, rfl⟩ := List.getLast?_eq_some_iff.mp slash
        rw [List.append_assoc, List.singleton_append, names_append, names_append,
          Location.follow_append, Location.follow_append]
        rfl
  · rw [List.singleton_append, names_append, Location.follow_append]

theorem resolve_eq_follow (start : Location) (path : String) :
    Location.resolve start path =
      Location.follow (if path.toList.head? = some '/' then [] else start)
        (names path.toList) := by
  unfold Location.resolve
  split
  · next rooted =>
      rw [rooted]
      rfl
  · next unrooted =>
      rw [if_neg]
      · rfl
      · intro rooted
        cases characters : path.toList with
        | nil =>
            rw [characters] at rooted
            cases rooted
        | cons character rest =>
            rw [characters, List.head?_cons, Option.some.injEq] at rooted
            exact unrooted rest (by rw [characters, rooted])

/-- A path that descends adds names to every location. -/
theorem Descends.follow {path : List Char} (descends : Descends path) (start : Location) :
    ∃ added, added ≠ [] ∧ Location.follow start (names path) = start ++ added := by
  refine ⟨_, ?_, Location.follow_of_noParent start descends.noParent⟩
  obtain ⟨leaf, last, notEmpty, notStop, -⟩ := descends.named
  have kept : leaf ∈ (names path).filter fun name => !decide (name = "" ∨ name = ".") := by
    rw [List.mem_filter]
    refine ⟨List.mem_of_getLast? last, ?_⟩
    rw [decide_eq_false (not_or.mpr ⟨notEmpty, notStop⟩)]
    rfl
  exact List.ne_nil_of_mem kept

/-- What is strictly below a directory is there wherever the directory is. -/
theorem StrictlyBelow.resolve {base path : String} (below : StrictlyBelow base path)
    (start : Location) :
    ∃ added, added ≠ [] ∧
      Location.resolve start path = Location.resolve start base ++ added := by
  obtain ⟨rest, text, descends⟩ := below
  have head : (if path.toList.head? = some '/' then [] else start) =
      if base.toList.head? = some '/' then [] else start := by
    rw [text]
    cases base.toList with
    | nil =>
        rw [List.nil_append, separatorAfter_nil, List.nil_append, if_neg descends.unrooted]
        rfl
    | cons character base => rfl
  rw [resolve_eq_follow, resolve_eq_follow, head, text, follow_names_below]
  exact descends.follow _

end Path
end GameArchive
