import GameArchive.Btar.Writer
import GameArchive.FileTree

/-!
# Packing directories

A directory is packed as a BTAR with a record for each file below it, in the order of their
paths, component by component.  The output file exists before the directory is read, and it grows
record by record, so that an output inside the directory holds itself as far as it was written.
A directory that does not exist holds no files.
-/

namespace GameArchive
namespace Btar

/-- Why a directory was not packed. -/
inductive PackFailure where
  /-- The output file could not be created. -/
  | notCreated (output : String)
  /-- A file could not be put into a record. -/
  | notPacked (name : String) (cause : IoError)
  deriving Repr, DecidableEq

/-- The sentence that reports a failure, with the sentence for its cause where there is one. -/
def PackFailure.messages : PackFailure → List String
  | notCreated output => ["Failed to create " ++ output]
  | notPacked name cause => ["Failed to pack " ++ name, cause.message]

/-- Adds files to the output; gives the finished stream. -/
def packFiles (output directory : Location) (writer : Writer) :
    List (List String) → EStateM PackFailure FileTree Writer
  | [] => pure writer
  | names :: others => do
      let contents := ((← get).contents? (directory ++ names)).getD []
      let name := "/".intercalate names
      let (writer, failure?) := writer.add name contents.length contents
      modify fun tree => tree.insert output (.file writer.bytes false)
      match failure? with
      | some failure => throw (.notPacked name failure)
      | none => packFiles output directory writer others

/-- Packs the files below a directory into an output file; gives the number of records.  Both
paths are read from a working directory. -/
def packDirectory (base : Location) (directory output : String) :
    EStateM PackFailure FileTree Nat := fun tree =>
  let created := match tree.locate? base output with
    | none => none
    | some location =>
        match FileTree.writeFile location [] tree with
        | .ok _ tree => some (location, tree)
        | .error _ _ => none
  match created with
  | none => .error (.notCreated output) tree
  | some (target, tree) =>
      let pack : EStateM PackFailure FileTree Nat := do
        let writer ← match tree.locate? base directory with
          | none => pure Writer.start
          | some location =>
              packFiles target location Writer.start
                ((tree.filesBelow location).map fun (names, _) => names)
        modify fun tree => tree.insert target (.file writer.bytes false)
        pure writer.count
      pack tree

end Btar
end GameArchive
