/-
# `NotebookService.Text.Lines` — cutting a text into lines

A line ends at a line feed, and a carriage return right before that line feed belongs to
the ending.  A carriage return anywhere else is text, so a text that ends in one without
a line feed keeps it.  The empty text after a final line feed is not a line: `"a\n"` has
one line and `""` has none.
-/

namespace NotebookService.Text

/-- The pieces between line feeds.  There is always one more piece than
there are line feeds. -/
def splitAtFeeds : List Char → List (List Char)
  | [] => [[]]
  | c :: s =>
    if c = '\n' then [] :: splitAtFeeds s
    else match splitAtFeeds s with
      | [] => [[c]]
      | l :: ls => (c :: l) :: ls

/-- A line without the carriage return of its ending. -/
def dropReturn (l : List Char) : List Char :=
  if l.getLast? = some '\r' then l.dropLast else l

/-- A piece that a line feed ended loses its carriage return; the last piece is a line
only when it holds something. -/
def linesOfPieces : List (List Char) → List (List Char)
  | [] => []
  | [l] => if l.isEmpty then [] else [l]
  | l :: ls => dropReturn l :: linesOfPieces ls

def lines (s : List Char) : List (List Char) := linesOfPieces (splitAtFeeds s)

/-- Lines put back together, a line feed between any two. -/
def unlines (ls : List (List Char)) : List Char := List.intercalate ['\n'] ls

end NotebookService.Text
