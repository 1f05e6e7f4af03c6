/-!
Lines of a text. A line ends at a line feed or at the end of the text, a carriage return directly
before the line feed belongs to the ending, and a final line ending opens no further line.
-/

namespace SearchCompiler.Text

/-- A run of characters of a class ends at the first one that is not in it. -/
theorem run_append {p : Char → Bool} {cs : List Char} (hcs : cs.all p = true) {c : Char}
    (hc : p c = false) (rest : List Char) :
    (cs ++ c :: rest).takeWhile p = cs ∧ (cs ++ c :: rest).dropWhile p = c :: rest := by
  have hall := List.all_eq_true.mp hcs
  rw [List.takeWhile_append_of_pos hall, List.dropWhile_append_of_pos hall]
  simp [hc]

/-- The pieces between line feeds; there is always at least one. -/
def splitAtFeeds : List Char → List (List Char)
  | [] => [[]]
  | '\n' :: rest => [] :: splitAtFeeds rest
  | c :: rest =>
    match splitAtFeeds rest with
    | [] => [[c]]
    | piece :: pieces => (c :: piece) :: pieces

/-- Drops one carriage return at the end of a line that a line feed closed. -/
def dropReturn (line : List Char) : List Char :=
  if line.getLast? = some '\r' then line.dropLast else line

/-- The lines among the pieces between feeds: the last piece is a line only if it holds text, and
only the pieces before it were closed by a feed. -/
def linesOfPieces : List (List Char) → List (List Char)
  | [] => []
  | [last] => if last.isEmpty then [] else [last]
  | piece :: rest => dropReturn piece :: linesOfPieces rest

/-- The lines of a text, without their endings. -/
def lines (s : String) : List String :=
  (linesOfPieces (splitAtFeeds s.toList)).map String.ofList

end SearchCompiler.Text
