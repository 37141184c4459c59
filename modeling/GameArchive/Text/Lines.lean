import GameArchive.Path

/-!
# Lines of a text

A text of lines has a line feed after each of them.  The last line of a text that is read may
lack its line feed.
-/

namespace GameArchive
namespace Lines

def join (lines : List String) : String :=
  String.join (lines.map fun line => line ++ "\n")

def split (text : String) : List String :=
  let pieces := Path.splitAt '\n' text.toList
  let lines := if pieces.getLast? = some [] then pieces.dropLast else pieces
  lines.map String.ofList

end Lines
end GameArchive
