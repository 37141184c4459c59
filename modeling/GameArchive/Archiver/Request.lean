import GameArchive.Text.Lines

/-!
# Requests to the archiver

The archiver is a program that unpacks one archive into a directory.  Which entries are wanted
can be told in a list file.  Its pattern matching depends on the spelling, so every wanted entry
is listed with either kind of separator, with and without one in front.
-/

namespace GameArchive
namespace Archiver

def listLines (path : String) : List String :=
  let slashed := Path.toNative path
  ["\"" ++ path ++ "\"", "\"\\" ++ path ++ "\"", "\"" ++ slashed ++ "\"", "\"/" ++ slashed ++ "\""]

def listFile (paths : List String) : String :=
  Lines.join (paths.flatMap listLines)

/-- The arguments for unpacking `source` into `destination`, all entries or those of a list
file. -/
def arguments (source destination : String) (list? : Option String) : List String :=
  ["x", "-bsp1", "-y", "-o" ++ destination, source] ++
    (list?.map fun list => "@" ++ list).toList ++ ["-mmt=off"]

end Archiver
end GameArchive
