import GameArchive.Error
import GameArchive.Text.Encoding

/-!
# Names with a length byte

Names in the directory of an archive are written after a byte that holds their length.  The
*terminated* form counts and writes a zero byte at the end, the *plain* form does not.  A block
of names holds terminated names without length bytes.
-/

namespace GameArchive
namespace PrefixedName

/-- A byte string without one zero byte at its end. -/
def dropTerminator (bytes : Bytes) : Bytes :=
  if bytes.getLast? = some 0 then bytes.dropLast else bytes

def read (encoding : Encoding) (bytes : Bytes) : Except IoError (String × Bytes) :=
  match bytes with
  | [] => .error .shortRead
  | length :: rest =>
      match Bytes.split? length.toNat rest with
      | none => .error .shortRead
      | some (name, rest) => .ok (encoding.decode (dropTerminator name), rest)

def writeTerminated (name : Bytes) : Except IoError Bytes :=
  if name.length + 1 < 256 then
    .ok (UInt8.ofNat (name.length + 1) :: (name ++ [0]))
  else
    .error (.longName 254)

def writePlain (name : Bytes) : Except IoError Bytes :=
  if name.length < 256 then .ok (UInt8.ofNat name.length :: name) else .error (.longName 255)

/-- The parts of a byte string between its zero bytes. -/
def splitAtZeros : Bytes → List Bytes
  | [] => [[]]
  | byte :: rest =>
      if byte = 0 then
        [] :: splitAtZeros rest
      else
        match splitAtZeros rest with
        | first :: others => (byte :: first) :: others
        | [] => [[byte]]

def splitBlock (encoding : Encoding) (block : Bytes) : List String :=
  let names := dropTerminator block
  if names.isEmpty then [] else (splitAtZeros names).map encoding.decode

end PrefixedName
end GameArchive
