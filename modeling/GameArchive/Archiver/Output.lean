import GameArchive.Text.Utf8

/-!
# Lines of archiver output

The archiver redraws its progress with backspaces and carriage returns, so that these end a line
as a line feed does.  Empty lines are passed over.

Output arrives in chunks.  `feed` takes one more chunk and keeps what does not end in a line
break for the next one; the lines do not depend on where the chunks end.
-/

namespace GameArchive
namespace Archiver

def isLineBreak (byte : UInt8) : Bool :=
  byte == 0x0A || byte == 0x0D || byte == 0x08

/-- The bytes before the first line break, and the pieces after each line break. -/
def pieces : Bytes → Bytes × List Bytes
  | [] => ([], [])
  | byte :: rest =>
      let (first, others) := pieces rest
      if isLineBreak byte then ([], first :: others) else (byte :: first, others)

def lineText? (line : Bytes) : Option String :=
  if line.isEmpty then none else some (Utf8.decodeReplacing line)

/-- The pieces that line breaks end, and the piece that none ends. -/
def endedPieces (first : Bytes) : List Bytes → List Bytes × Bytes
  | [] => ([], first)
  | second :: others =>
      let (ended, last) := endedPieces second others
      (first :: ended, last)

/-- The lines that a chunk ends when the bytes `pending` came before it, and what is then
pending. -/
def feed (pending chunk : Bytes) : List String × Bytes :=
  let (first, others) := pieces chunk
  let (ended, last) := endedPieces (pending ++ first) others
  (ended.filterMap lineText?, last)

/-- The lines of an output that arrives in chunks when the bytes `pending` came before it. -/
def linesFrom (pending : Bytes) : List Bytes → List String
  | [] => (lineText? pending).toList
  | chunk :: chunks =>
      let (lines, pending) := feed pending chunk
      lines ++ linesFrom pending chunks

def lines (chunks : List Bytes) : List String :=
  linesFrom [] chunks

end Archiver
end GameArchive
