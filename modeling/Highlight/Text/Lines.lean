/-!
# Lines and byte counts

A text is cut at every line feed, so that joining the lines gives the text
back. Offsets and columns count the bytes of UTF-8.
-/

namespace Highlight.Text

/-- Lines are ended by this character, which offsets count once per line. -/
def lineEnd : Char := '\n'

/-- The pieces between line ends, at least one. -/
def lines (s : String) : List String :=
  (s.toList.splitOn lineEnd).map String.ofList

/-- The lines with a line end between each two. -/
def unlines (ls : List String) : String :=
  String.ofList ([lineEnd].intercalate (ls.map String.toList))

/-- The number of bytes of the characters in UTF-8. -/
def byteCount : List Char → Nat
  | [] => 0
  | c :: cs => c.utf8Size + byteCount cs

/-- Lines for printing: a line end at the very end starts no line, and a
carriage return before a line end belongs to the line end. -/
def printedLines (s : String) : List String :=
  match (s.toList.splitOn lineEnd).reverse with
  | [] => []
  | last :: ended =>
    (ended.reverse.map dropReturn ++ if last = [] then [] else [last]).map String.ofList
where
  dropReturn (cs : List Char) : List Char :=
    if cs.getLast? = some '\r' then cs.dropLast else cs

end Highlight.Text
