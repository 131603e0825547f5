/-!
# Lines

A line ends at a line feed, and a carriage return directly before that line feed belongs to the
end of the line, not to the line. The text after the last line feed is a line of its own only if
it is not empty, and keeps a carriage return at its end.
-/

namespace GoBuildRules.Text

/-- A line that a line feed ended, without the carriage return at its end. -/
def dropReturn (line : List Char) : List Char :=
  if line.getLast? = some '\r' then line.dropLast else line

/-- The lines of a text. -/
def lines (cs : List Char) : List (List Char) :=
  let pieces := cs.splitOn '\n'
  pieces.dropLast.map dropReturn ++ (pieces.getLast?.toList.filter fun last => !last.isEmpty)

/-- How many line feeds a text holds. -/
def lineFeeds (cs : List Char) : Nat :=
  cs.count '\n'

theorem lines_nil : lines [] = [] := by decide

end GoBuildRules.Text
