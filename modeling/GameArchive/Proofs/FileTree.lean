import GameArchive.FileTree
import GameArchive.Proofs.Outcome

/-!
# What changes in a file tree

An operation on a file changes what stands at its location and nothing at the others.  The creation
of directories only fills free locations, so it leaves every file as it is.  When such an operation
fails, the system has refused it; whether it does so depends on the shape of the tree alone, and not
on what its files hold.
-/

namespace GameArchive

def FileNode.isDirectory : FileNode → Bool
  | directory => true
  | file .. => false

namespace FileTree

variable {tree next : FileTree} {location other : Location} {contents : Bytes}

section Lookup

variable {κ α : Type} [DecidableEq κ] [BEq κ] [LawfulBEq κ] {key sought : κ}

theorem lookup_filter_ne (entries : List (κ × α)) (different : sought ≠ key) :
    (entries.filter fun (found, _) => found ≠ key).lookup sought = entries.lookup sought := by
  induction entries with
  | nil => rfl
  | cons entry entries ih =>
      obtain ⟨found, value⟩ := entry
      by_cases same : found = key
      · have miss : (sought == found) = false := by
          rw [same]
          exact beq_eq_false_iff_ne.mpr different
        rw [List.filter_cons_of_neg (by simpa using same), ih, List.lookup_cons, miss]
      · rw [List.filter_cons_of_pos (by simpa using same), List.lookup_cons, List.lookup_cons, ih]

theorem lookup_filter_self (entries : List (κ × α)) :
    (entries.filter fun (found, _) => found ≠ key).lookup key = none := by
  rw [List.lookup_eq_none_iff]
  intro entry member
  have different : entry.1 ≠ key := of_decide_eq_true (List.mem_filter.mp member).2
  exact bne_iff_ne.mpr (Ne.symm different)

/-- A value that is put at the end under a key from which all others are taken away. -/
theorem lookup_filter_concat (entries : List (κ × α)) (value : α) :
    ((entries.filter fun (found, _) => found ≠ key) ++ [(key, value)]).lookup sought =
      if sought = key then some value else entries.lookup sought := by
  rw [List.lookup_append]
  split
  · next same =>
      rw [same, lookup_filter_self, Option.none_or, List.lookup_cons_self]
  · next different =>
      have miss : [(key, value)].lookup sought = none := by
        rw [List.lookup_cons, beq_eq_false_iff_ne.mpr different]
        rfl
      rw [lookup_filter_ne _ different, miss, Option.or_none]

end Lookup

theorem node?_insert_self (node : FileNode) (below : location ≠ []) :
    (tree.insert location node).node? location = some node := by
  rw [node?, if_neg below, insert, erase]
  exact (lookup_filter_concat ..).trans (if_pos rfl)

theorem node?_insert_of_ne (node : FileNode) (different : other ≠ location) :
    (tree.insert location node).node? other = tree.node? other := by
  rw [node?, node?, insert, erase]
  exact congrArg _ ((lookup_filter_concat ..).trans (if_neg different))

theorem contents?_insert_self {isExecutable : Bool} (below : location ≠ []) :
    (tree.insert location (.file contents isExecutable)).contents? location = some contents := by
  rw [contents?, node?_insert_self _ below]

theorem contents?_insert_of_ne (node : FileNode) (different : other ≠ location) :
    (tree.insert location node).contents? other = tree.contents? other := by
  rw [contents?, contents?, node?_insert_of_ne node different]

theorem exists_node?_of_contents? (there : tree.contents? location = some contents) :
    ∃ isExecutable, tree.node? location = some (.file contents isExecutable) := by
  unfold contents? at there
  split at there
  · next found =>
      cases there
      exact ⟨_, found⟩
  · cases there

theorem ne_nil_of_contents? (there : tree.contents? location = some contents) :
    location ≠ [] := by
  obtain ⟨isExecutable, found⟩ := exists_node?_of_contents? there
  rintro rfl
  cases found

/-- Bytes are added to a file that is there, and to no other. -/
theorem contents?_append_self (there : tree.contents? location = some contents) (bytes : Bytes) :
    (tree.append location bytes).contents? location = some (contents ++ bytes) := by
  obtain ⟨isExecutable, found⟩ := exists_node?_of_contents? there
  rw [append, found]
  exact contents?_insert_self (ne_nil_of_contents? there)

theorem contents?_append_of_ne (bytes : Bytes) (different : other ≠ location) :
    (tree.append location bytes).contents? other = tree.contents? other := by
  unfold append
  split
  · exact contents?_insert_of_ne _ different
  · rfl

theorem createDirectoriesFrom_cons (base : Location) (name : String) (names : List String)
    (tree : FileTree) :
    createDirectoriesFrom base (name :: names) tree =
      if name = "" ∨ name = "." then createDirectoriesFrom base names tree
      else if name = ".." then createDirectoriesFrom base.dropLast names tree
      else
        match tree.node? (base ++ [name]) with
        | some .directory => createDirectoriesFrom (base ++ [name]) names tree
        | some (.file ..) => .error .system tree
        | none =>
            if isUsableName name then
              createDirectoriesFrom (base ++ [name]) names
                (tree.insert (base ++ [name]) .directory)
            else .error .system tree := by
  rw [createDirectoriesFrom]
  split
  · rfl
  · split
    · rfl
    · rw [Outcome.get_bind]
      cases tree.node? (base ++ [name]) with
      | none =>
          simp only
          split <;> rfl
      | some node => cases node <;> rfl

/-- Files stay as they are while directories are created. -/
theorem createDirectoriesFrom_keeps {base created : Location} {names : List String}
    (succeeded : createDirectoriesFrom base names tree = .ok created next)
    (there : tree.contents? other = some contents) : next.contents? other = some contents := by
  induction names generalizing base tree with
  | nil =>
      cases succeeded
      exact there
  | cons name names ih =>
      rw [createDirectoriesFrom_cons] at succeeded
      split at succeeded
      · exact ih succeeded there
      · split at succeeded
        · exact ih succeeded there
        · split at succeeded
          · exact ih succeeded there
          · cases succeeded
          · next free =>
              split at succeeded
              · refine ih succeeded ?_
                rw [contents?_insert_of_ne _ ?_]
                · exact there
                · rintro rfl
                  rw [contents?, free] at there
                  cases there
              · cases succeeded

theorem createDirectoriesFrom_error {base : Location} {names : List String} {failure : IoError}
    (failed : createDirectoriesFrom base names tree = .error failure next) :
    failure = .system := by
  induction names generalizing base tree with
  | nil => cases failed
  | cons name names ih =>
      rw [createDirectoriesFrom_cons] at failed
      split at failed
      · exact ih failed
      · split at failed
        · exact ih failed
        · split at failed
          · exact ih failed
          · cases failed
            rfl
          · split at failed
            · exact ih failed
            · cases failed
              rfl

/-- The directories above a file are created even when its path does not end in a name. -/
theorem prepareFile_eq (base : Location) (path : String) (tree : FileTree) :
    prepareFile base path tree =
      match createDirectoriesFrom (pathNames base path).1 (pathNames base path).2.dropLast tree with
      | .error failure next => .error failure next
      | .ok made next =>
          match (pathNames base path).2.getLast? with
          | none => .error .system next
          | some name =>
              if name = "" ∨ name = "." ∨ name = ".." then .error .system next
              else .ok (made ++ [name]) next := by
  unfold prepareFile
  generalize pathNames base path = found
  obtain ⟨start, names⟩ := found
  simp only [Outcome.state_bind]
  cases createDirectoriesFrom start names.dropLast tree with
  | error failure next => rfl
  | ok made next =>
      cases names.getLast? with
      | none => rfl
      | some name =>
          by_cases empty : name = ""
          · subst empty
            rfl
          · by_cases stop : name = "."
            · subst stop
              rfl
            · by_cases up : name = ".."
              · subst up
                rfl
              · simp only [empty, stop, up, or_self, if_false]
                rfl

theorem writeFile_of_admitsFile (contents : Bytes) (admitted : tree.admitsFile location) :
    writeFile location contents tree =
      .ok () (tree.insert location (.file contents (tree.isExecutable location))) := by
  rw [writeFile, Outcome.get_bind, if_pos admitted]
  rfl

theorem writeFile_ok (succeeded : writeFile location contents tree = .ok () next) :
    next.contents? location = some contents ∧
      ∀ other, other ≠ location → next.contents? other = tree.contents? other := by
  unfold writeFile at succeeded
  rw [Outcome.get_bind] at succeeded
  split at succeeded
  · next admitted =>
      cases succeeded
      have below : location ≠ [] := by
        rintro rfl
        cases admitted
      exact ⟨contents?_insert_self below, fun other => contents?_insert_of_ne _⟩
  · cases succeeded

theorem writeFile_error {failure : IoError}
    (failed : writeFile location contents tree = .error failure next) : failure = .system := by
  unfold writeFile at failed
  rw [Outcome.get_bind] at failed
  split at failed
  · cases failed
  · cases failed
    rfl

/-- Creates an empty file with the directories above it. -/
@[irreducible]
def createFile (location : Location) : EStateM IoError FileTree Unit := do
  createDirectories location.dropLast
  writeFile location []

theorem createFile_eq (location : Location) (tree : FileTree) :
    createFile location tree =
      (createDirectories location.dropLast >>= fun _ => writeFile location []) tree := by
  unfold createFile
  rfl

theorem createFile_ok (succeeded : createFile location tree = .ok () next) :
    next.contents? location = some [] ∧
      ∀ other contents, other ≠ location → tree.contents? other = some contents →
        next.contents? other = some contents := by
  rw [createFile_eq] at succeeded
  obtain ⟨⟨⟩, middle, directories, written⟩ := Outcome.state_bind_eq_ok_iff.mp succeeded
  obtain ⟨last, after, made, unchanged⟩ := Outcome.state_bind_eq_ok_iff.mp directories
  cases unchanged
  obtain ⟨here, elsewhere⟩ := writeFile_ok written
  refine ⟨here, ?_⟩
  intro other contents different there
  rw [elsewhere other different]
  exact createDirectoriesFrom_keeps made there

theorem createFile_error {failure : IoError}
    (failed : createFile location tree = .error failure next) : failure = .system := by
  rw [createFile_eq] at failed
  rcases Outcome.state_bind_eq_error_iff.mp failed with directories | ⟨_, _, -, file⟩
  · rcases Outcome.state_bind_eq_error_iff.mp directories with made | ⟨_, _, -, impossible⟩
    · exact createDirectoriesFrom_error made
    · cases impossible
  · exact writeFile_error file

/-! ## The shape of a tree -/

/-- Both trees have directories at the same locations, and files. -/
def SameShape (first second : FileTree) : Prop :=
  ∀ location, (first.node? location).map FileNode.isDirectory =
    (second.node? location).map FileNode.isDirectory

section Shape

variable {first second : FileTree}

theorem SameShape.symm (same : SameShape first second) : SameShape second first :=
  fun location => (same location).symm

theorem node?_eq_directory_iff :
    tree.node? location = some .directory ↔
      (tree.node? location).map FileNode.isDirectory = some true := by
  constructor
  · intro standing
    rw [standing]
    rfl
  · intro kind
    obtain ⟨node, found, isDirectory⟩ := Option.map_eq_some_iff.mp kind
    cases node with
    | directory => exact found
    | file => cases isDirectory

theorem SameShape.isDirectory (same : SameShape first second) (location : Location) :
    first.isDirectory location = second.isDirectory location := by
  unfold FileTree.isDirectory
  rw [Bool.eq_iff_iff, beq_iff_eq, beq_iff_eq, node?_eq_directory_iff, node?_eq_directory_iff,
    same location]

theorem SameShape.insert (same : SameShape first second) {one other : FileNode}
    (kinds : one.isDirectory = other.isDirectory) :
    SameShape (first.insert location one) (second.insert location other) := by
  intro place
  by_cases here : place = location
  · subst here
    by_cases root : place = []
    · subst root
      rfl
    · rw [node?_insert_self _ root, node?_insert_self _ root, Option.map_some, Option.map_some,
        kinds]
  · rw [node?_insert_of_ne _ here, node?_insert_of_ne _ here]
    exact same place

theorem sameShape_append (tree : FileTree) (location : Location) (bytes : Bytes) :
    SameShape tree (tree.append location bytes) := by
  intro place
  unfold append
  split
  · next found =>
      by_cases here : place = location
      · subst here
        have below : place ≠ [] := by
          rintro rfl
          cases found
        rw [node?_insert_self _ below, found]
        rfl
      · rw [node?_insert_of_ne _ here]
  · rfl

theorem createDirectoriesFrom_sameShape {base created : Location} {names : List String}
    (same : SameShape first second)
    (succeeded : createDirectoriesFrom base names first = .ok created next) :
    ∃ further, createDirectoriesFrom base names second = .ok created further ∧
      SameShape next further := by
  induction names generalizing base first second with
  | nil =>
      cases succeeded
      exact ⟨second, rfl, same⟩
  | cons name names ih =>
      rw [createDirectoriesFrom_cons] at succeeded ⊢
      split at succeeded
      · next stays =>
          rw [if_pos stays]
          exact ih same succeeded
      · next moves =>
          rw [if_neg moves]
          split at succeeded
          · next up =>
              rw [if_pos up]
              exact ih same succeeded
          · next down =>
              rw [if_neg down]
              have kinds := same (base ++ [name])
              split at succeeded
              · next standing =>
                  rw [standing] at kinds
                  rw [node?_eq_directory_iff.mpr kinds.symm]
                  exact ih same succeeded
              · cases succeeded
              · next free =>
                  rw [free] at kinds
                  rw [Option.map_eq_none_iff.mp kinds.symm]
                  split at succeeded
                  · next usable =>
                      simp only [if_pos usable]
                      exact ih (same.insert rfl) succeeded
                  · cases succeeded

theorem SameShape.admitsFile (same : SameShape first second) (location : Location) :
    first.admitsFile location = second.admitsFile location := by
  unfold FileTree.admitsFile
  rw [same.isDirectory, same.isDirectory]

theorem writeFile_sameShape (same : SameShape first second)
    (succeeded : writeFile location contents first = .ok () next) :
    ∃ further, writeFile location contents second = .ok () further ∧ SameShape next further := by
  unfold writeFile at succeeded ⊢
  rw [Outcome.get_bind] at succeeded ⊢
  split at succeeded
  · next admitted =>
      cases succeeded
      rw [same.admitsFile] at admitted
      rw [if_pos admitted]
      exact ⟨_, rfl, same.insert rfl⟩
  · cases succeeded

theorem createFile_sameShape (same : SameShape first second)
    (succeeded : createFile location first = .ok () next) :
    ∃ further, createFile location second = .ok () further ∧ SameShape next further := by
  rw [createFile_eq] at succeeded
  obtain ⟨⟨⟩, middle, directories, written⟩ := Outcome.state_bind_eq_ok_iff.mp succeeded
  obtain ⟨last, after, made, unchanged⟩ := Outcome.state_bind_eq_ok_iff.mp directories
  cases unchanged
  obtain ⟨_, alsoMade, sameAfter⟩ := createDirectoriesFrom_sameShape same made
  obtain ⟨further, alsoWritten, sameNext⟩ := writeFile_sameShape sameAfter written
  refine ⟨further, ?_, sameNext⟩
  rw [createFile_eq]
  refine Outcome.state_bind_eq_ok_iff.mpr ⟨(), _, ?_, alsoWritten⟩
  exact Outcome.state_bind_eq_ok_iff.mpr ⟨last, _, alsoMade, rfl⟩

end Shape

end FileTree
end GameArchive
