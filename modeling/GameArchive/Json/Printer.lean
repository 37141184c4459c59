import GameArchive.Json.Basic
import GameArchive.Text.Hexadecimal

/-!
# Writing JSON

Values are written with one item or member to a line, two spaces deeper at every level.
-/

namespace GameArchive
namespace Json

def escapeCharacter (character : Char) : List Char :=
  match character with
  | '"' => ['\\', '"']
  | '\\' => ['\\', '\\']
  | '\x08' => ['\\', 'b']
  | '\x0c' => ['\\', 'f']
  | '\n' => ['\\', 'n']
  | '\r' => ['\\', 'r']
  | '\t' => ['\\', 't']
  | _ =>
      if character.toNat < 0x20 then
        ['\\', 'u'] ++ (Hexadecimal.renderPadded 4 character.toNat).toList
      else
        [character]

def renderText (value : String) : String :=
  String.ofList (['"'] ++ value.toList.flatMap escapeCharacter ++ ['"'])

def renderNumber (number : JsonNumber) : String :=
  let magnitude := toString number.significand ++
    (if number.isInteger then "" else "e" ++ toString number.exponent)
  if number.isNegative then "-" ++ magnitude else magnitude

def lineStart (level : Nat) : String :=
  "\n" ++ String.ofList (List.replicate (2 * level) ' ')

mutual

/-- The form of a value whose first line begins at a level. -/
def renderAt : (level : Nat) → Json → String
  | _, null => "null"
  | _, boolean value => if value then "true" else "false"
  | _, number value => renderNumber value
  | _, text value => renderText (value.getD "")
  | _, array [] => "[]"
  | level, array (item :: items) =>
      "[" ++ lineStart (level + 1) ++ renderAt (level + 1) item ++
        renderItems (level + 1) items ++ lineStart level ++ "]"
  | _, object [] => "\x7b\x7d"
  | level, object ((key, value) :: members) =>
      "\x7b" ++ lineStart (level + 1) ++ renderText (key.getD "") ++ ": " ++
        renderAt (level + 1) value ++ renderMembers (level + 1) members ++ lineStart level ++ "\x7d"

def renderItems : (level : Nat) → List Json → String
  | _, [] => ""
  | level, item :: items =>
      "," ++ lineStart level ++ renderAt level item ++ renderItems level items

def renderMembers : (level : Nat) → List (Option String × Json) → String
  | _, [] => ""
  | level, (key, value) :: members =>
      "," ++ lineStart level ++ renderText (key.getD "") ++ ": " ++ renderAt level value ++
        renderMembers level members

end

def render (value : Json) : String :=
  renderAt 0 value

end Json
end GameArchive
