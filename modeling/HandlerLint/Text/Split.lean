/-!
# Splitting text

Text is cut at every occurrence of one separator character.  The pieces are
never empty as a list: a text without the separator is its own single piece,
and joining the pieces again gives the text back.

A line of a text ends at a line feed; one carriage return right before that line
feed belongs to the line's end.  A text that ends in a line feed has no empty
line after it, and a carriage return on an unfinished last line is kept.
-/

namespace HandlerLint.Text

/-- Put one more character in front of the first piece. -/
def prependTo
    (c : Char) : List (List Char) → List (List Char)
  | [] => [[c]]
  | piece :: pieces => (c :: piece) :: pieces

/-- The pieces of a text between the occurrences of a separator. -/
def splitOn
    (separator : Char) (text : List Char) : List (List Char) :=
  text.foldr
    (fun c pieces => if c = separator then [] :: pieces else prependTo c pieces)
    [[]]

/-- The pieces written one after another with a separator between them. -/
def joinWith
    (separator : Char) : List (List Char) → List Char
  | [] => []
  | [piece] => piece
  | piece :: pieces => piece ++ separator :: joinWith separator pieces

/-- A line without the one carriage return that precedes its line feed. -/
def dropReturn (line : List Char) : List Char :=
  if line.getLast? = some '\r' then line.dropLast else line

/-- The lines of a text, given its pieces between line feeds. -/
def linesOfPieces : List (List Char) → List (List Char)
  | [] => []
  | [last] => if last.isEmpty then [] else [last]
  | piece :: pieces => dropReturn piece :: linesOfPieces pieces

/-- The lines of a text. -/
def lines (text : List Char) : List (List Char) :=
  linesOfPieces (splitOn '\n' text)

/-- Whether a text occurs within another one. -/
def occursIn (part : List Char) : List Char → Bool
  | [] => part.isEmpty
  | c :: rest => part.isPrefixOf (c :: rest) || occursIn part rest

@[simp] theorem splitOn_nil
    (separator : Char) :
    splitOn separator [] = [[]] :=
  rfl

theorem splitOn_cons
    (separator c : Char) (text : List Char) :
    splitOn separator (c :: text) =
      if c = separator then [] :: splitOn separator text
      else prependTo c (splitOn separator text) :=
  rfl

theorem splitOn_ne_nil
    (separator : Char) (text : List Char) :
    splitOn separator text ≠ [] := by
  cases text with
  | nil => simp
  | cons c text =>
      rw [splitOn_cons]
      split
      · simp
      · cases splitOn separator text <;> simp [prependTo]

/-- Splitting loses nothing: the pieces joined by the separator are the text. -/
theorem joinWith_splitOn
    (separator : Char) (text : List Char) :
    joinWith separator (splitOn separator text) = text := by
  induction text with
  | nil => rfl
  | cons c text ih =>
      rw [splitOn_cons]
      have hne := splitOn_ne_nil separator text
      cases hp : splitOn separator text with
      | nil => exact absurd hp hne
      | cons piece pieces =>
          rw [hp] at ih
          split
          · next h => simp [joinWith, h, ih]
          · cases pieces with
            | nil => simpa [prependTo, joinWith] using ih
            | cons _ _ => simpa [prependTo, joinWith] using ih

end HandlerLint.Text
