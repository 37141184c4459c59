import GameArchive.Text.CaseTables

/-!
# Lower-casing

Full lower-casing of a text.  Every character is mapped by itself, with two exceptions: the
capital I with a dot above becomes two characters, and a capital sigma becomes the final sigma
at the end of a word.  A sigma ends a word when, case-ignorable characters aside, a cased
character stands before it and none stands after it.
-/

namespace GameArchive
namespace Lowercase

def simple (character : Char) : Char :=
  let number := character.toNat
  if number < 0x80 then
    character.toLower
  else
    match CaseTables.lowercaseRuns.find? fun (first, last, step, _) =>
        first ≤ number && number ≤ last && (number - first) % step == 0 with
    | some (_, _, _, shift) => Char.ofNat (number + shift).toNat
    | none => character

/-- The lower-case form of a character, apart from its surroundings. -/
def expand (character : Char) : List Char :=
  if character = '\u0130' then ['i', '\u0307'] else [simple character]

def isCased (character : Char) : Bool :=
  CaseTables.inRanges CaseTables.casedRanges character.toNat

/-- Whether a character is passed over in the search for a cased neighbour. -/
def isIgnorable (character : Char) : Bool :=
  CaseTables.inRanges CaseTables.ignorableRanges character.toNat

/-- Whether the first character that is not passed over has case. -/
def beginsCased (characters : List Char) : Bool :=
  match characters.dropWhile isIgnorable with
  | character :: _ => isCased character
  | [] => false

/-- The lower-case form of a character between its surroundings, `before` nearest first. -/
def between (before : List Char) (character : Char) (after : List Char) : List Char :=
  if character = '\u03A3' then
    if beginsCased before && !beginsCased after then ['\u03C2'] else ['\u03C3']
  else
    expand character

/-- Lower-cases what follows the characters `before`, which are given nearest first. -/
def charactersAfter (before : List Char) : List Char → List Char
  | [] => []
  | character :: after =>
      between before character after ++ charactersAfter (character :: before) after

def characters (text : List Char) : List Char :=
  charactersAfter [] text

def text (source : String) : String :=
  String.ofList (characters source.toList)

end Lowercase
end GameArchive
