/-
# `NotebookService.Text.Indent` — indentation and cutting by columns

A column is a byte of the text's UTF-8 form: a tab and a space are one column each, the
ideographic space is three.  Code that is moved keeps the shape of its own indentation,
so the amount to remove is the least indentation of any line that is not blank, and a
line is cut at that column.

A column can fall inside a character when lines are indented with blanks of different
widths.  Such a line is not cut in half: it loses all of its indentation instead.
-/
import NotebookService.Text.Blank

namespace NotebookService.Text

/-- The number of columns that a text takes up. -/
def width : List Char → Nat
  | [] => 0
  | c :: s => c.utf8Size + width s

@[simp] theorem width_nil : width [] = 0 := rfl

@[simp] theorem width_append (s t : List Char) : width (s ++ t) = width s + width t := by
  induction s with
  | nil => simp
  | cons c s ih => simp [width, ih, Nat.add_assoc]

/-- The columns of a line's leading blank characters. -/
def indentation (l : List Char) : Nat := width (l.takeWhile isBlank)

/-- The line from a column on, if the column is a character's first or
the end of the line. -/
def cut? : Nat → List Char → Option (List Char)
  | 0, l => some l
  | _ + 1, [] => none
  | n + 1, c :: l => if c.utf8Size ≤ n + 1 then cut? (n + 1 - c.utf8Size) l else none
termination_by _ l => l.length

/-- The line without its first `n` columns, or without any indentation
where it cannot be cut. -/
def cut (n : Nat) (l : List Char) : List Char := (cut? n l).getD (trimStart l)

/-- The least element of a list, zero for none. -/
def least : List Nat → Nat
  | [] => 0
  | n :: ns => ns.foldl min n

/-- The indentation that the lines which are not blank share. -/
def sharedIndentation (ls : List (List Char)) : Nat :=
  least ((ls.filter (fun l => !allBlank l)).map indentation)

end NotebookService.Text
