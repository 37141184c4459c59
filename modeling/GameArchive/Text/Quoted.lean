import GameArchive.Text.EscapeTable
import GameArchive.Text.Hexadecimal

/-!
# Quoted texts

A text between double quotes for use inside a message.  Quotes, backslashes, tabs and line ends
have short escapes, and a character that would not show has its number between braces.
-/

namespace GameArchive
namespace Quoted

def isHidden (character : Char) : Bool :=
  EscapeTable.ranges.any fun (first, last) =>
    first ≤ character.toNat && character.toNat ≤ last

def escape (character : Char) : List Char :=
  match character with
  | '\x00' => ['\\', '0']
  | '\t' => ['\\', 't']
  | '\n' => ['\\', 'n']
  | '\r' => ['\\', 'r']
  | '"' => ['\\', '"']
  | '\\' => ['\\', '\\']
  | _ =>
      if isHidden character then
        ['\\', 'u', '\x7b'] ++ Hexadecimal.digits character.toNat ++ ['\x7d']
      else
        [character]

def quote (text : String) : String :=
  String.ofList (['"'] ++ text.toList.flatMap escape ++ ['"'])

end Quoted
end GameArchive
