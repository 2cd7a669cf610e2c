/-!
# Lines

A line ends at a line feed; a carriage return right before that line feed belongs to the line end.
The last line may lack its line feed, and then a carriage return at its end is part of it.
-/

namespace SleepPolicy.Text

/-- Drops one carriage return at the end. -/
def dropReturn (line : List Char) : List Char :=
  if line.getLast? = some '\r' then line.dropLast else line

/-- The lines of a text.  A line feed at the very end opens no further line. -/
def lines (s : List Char) : List (List Char) :=
  let pieces := s.splitOnP (· == '\n')
  let last := pieces.getLastD []
  pieces.dropLast.map dropReturn ++ if last.isEmpty then [] else [last]

def firstLine (s : List Char) : List Char :=
  (lines s).headD []

end SleepPolicy.Text
