import GameArchive.Archiver.Basic

/-!
# Lines and chunks

What is pending when a chunk ends is put in front of the first piece of the next one.  So the
pieces of all chunks, taken one chunk after the other, are the pieces of the whole output, and the
lines are its pieces between line breaks that are not empty.
-/

namespace GameArchive
namespace Archiver

theorem splitOnP_eq_pieces (output : Bytes) :
    output.splitOnP isLineBreak = (pieces output).1 :: (pieces output).2 := by
  induction output with
  | nil => rfl
  | cons byte output ih =>
      rw [List.splitOnP_cons_eq_if_modifyHead, ih, pieces]
      by_cases ended : isLineBreak byte = true
      · rw [if_pos ended]
        simp only [if_pos ended]
      · rw [if_neg ended, List.modifyHead_cons]
        simp only [if_neg ended]

/-- The pieces of a chunk with the bytes that came before it, all but the last of which it ends. -/
theorem endedPieces_pieces_append (pending chunk rest : Bytes) :
    (endedPieces (pending ++ (pieces chunk).1) (pieces chunk).2).1 ++
        ((endedPieces (pending ++ (pieces chunk).1) (pieces chunk).2).2 ++ (pieces rest).1) ::
          (pieces rest).2 =
      (pending ++ (pieces (chunk ++ rest)).1) :: (pieces (chunk ++ rest)).2 := by
  induction chunk generalizing pending with
  | nil => simp [pieces, endedPieces]
  | cons byte chunk ih =>
      rw [List.cons_append, pieces, pieces]
      by_cases ended : isLineBreak byte = true
      · have further := ih []
        simp only [List.nil_append] at further
        simp only [if_pos ended, List.append_nil, endedPieces, List.cons_append, further]
      · have further := ih (pending ++ [byte])
        simp only [List.append_assoc, List.singleton_append] at further
        simp only [if_neg ended, further]

theorem linesFrom_eq (pending : Bytes) (chunks : List Bytes) :
    linesFrom pending chunks =
      ((pending ++ (pieces chunks.flatten).1) :: (pieces chunks.flatten).2).filterMap
        lineText? := by
  induction chunks generalizing pending with
  | nil =>
      rw [linesFrom, List.flatten_nil, pieces, List.append_nil]
      cases text : lineText? pending <;> simp [text]
  | cons chunk chunks ih =>
      rw [linesFrom, feed]
      simp only
      rw [ih, ← List.filterMap_append, endedPieces_pieces_append, List.flatten_cons]

/-- The lines of an output: its pieces between line breaks, without the empty ones. -/
def printedLines (output : Bytes) : List String :=
  ((output.splitOnP isLineBreak).filter (· ≠ [])).map Utf8.decodeReplacing

theorem filterMap_lineText? (parts : List Bytes) :
    parts.filterMap lineText? = (parts.filter (· ≠ [])).map Utf8.decodeReplacing := by
  induction parts with
  | nil => rfl
  | cons part parts ih => cases part <;> simp [lineText?, ih]

/-- The lines do not depend on the chunks in which the output arrives. -/
theorem lines_eq (chunks : List Bytes) : lines chunks = printedLines chunks.flatten := by
  rw [lines, linesFrom_eq, List.nil_append, printedLines, splitOnP_eq_pieces, filterMap_lineText?]

end Archiver
end GameArchive
