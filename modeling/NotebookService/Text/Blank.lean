/-
# `NotebookService.Text.Blank` — blank characters, trimming, words

A cell is read line by line and word by word, and both depend on what counts as blank.
A character is blank when it has the Unicode property `White_Space`: 25 code points,
among them the line separators U+0085, U+2028 and U+2029 and the no-break space U+00A0,
but not the zero-width space U+200B and not the information separators U+001C to U+001F.

Everything here works on lists of characters; a `String` is taken apart
once, where it enters.
-/

namespace NotebookService.Text

/-- The code points with the property `White_Space`. -/
def isBlank (c : Char) : Bool :=
  let n := c.toNat
  (0x09 ≤ n && n ≤ 0x0D) || n == 0x20 || n == 0x85 || n == 0xA0 || n == 0x1680 ||
    (0x2000 ≤ n && n ≤ 0x200A) || n == 0x2028 || n == 0x2029 || n == 0x202F ||
    n == 0x205F ||
    n == 0x3000

/-- Nothing but blank characters. -/
def allBlank (s : List Char) : Bool := s.all isBlank

/-! ## Trimming -/

def trimStart (s : List Char) : List Char := s.dropWhile isBlank

/-- What is left when the longest suffix of characters satisfying `p` is dropped. -/
def dropEndWhile (p : Char → Bool) : List Char → List Char
  | [] => []
  | c :: s =>
    match dropEndWhile p s with
    | [] => if p c then [] else [c]
    | t => c :: t

def trimEnd (s : List Char) : List Char := dropEndWhile isBlank s

def trim (s : List Char) : List Char := trimEnd (trimStart s)

/-- A text without the blank characters at its two ends. -/
def trimmed (s : String) : String := String.ofList (trim s.toList)

/-! ## Words -/

/-- The maximal runs of characters that are not blank.  `word` is the run
being read, reversed. -/
def wordsFrom (word : List Char) : List Char → List (List Char)
  | [] => if word.isEmpty then [] else [word.reverse]
  | c :: s =>
    if isBlank c then
      if word.isEmpty then wordsFrom [] s else word.reverse :: wordsFrom [] s
    else wordsFrom (c :: word) s

def words (s : List Char) : List (List Char) := wordsFrom [] s

/-- The text up to its first blank character, and the text after it;
`none` if there is none. -/
def splitAtBlank (s : List Char) : Option (List Char × List Char) :=
  match s.dropWhile (fun c => !isBlank c) with
  | [] => none
  | _ :: rest => some (s.takeWhile (fun c => !isBlank c), rest)

end NotebookService.Text
