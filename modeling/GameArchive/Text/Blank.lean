/-!
# Blank characters

The characters with the Unicode property White_Space, and the removal of them from both ends of
a text.
-/

namespace GameArchive
namespace Blank

def isBlank (character : Char) : Bool :=
  let number := character.toNat
  (9 ≤ number && number ≤ 13) || number == 0x20 || number == 0x85 || number == 0xA0 ||
    number == 0x1680 || (0x2000 ≤ number && number ≤ 0x200A) || number == 0x2028 ||
    number == 0x2029 || number == 0x202F || number == 0x205F || number == 0x3000

/-- A list without the elements at either end that satisfy a test. -/
def stripEnds {α : Type} (test : α → Bool) (elements : List α) : List α :=
  ((elements.dropWhile test).reverse.dropWhile test).reverse

def trim (text : List Char) : List Char :=
  stripEnds isBlank text

end Blank
end GameArchive
