import HandlerLint.Text.Split

/-!
# Coloured text

A terminal shows text in a style between a sequence that sets the style and one that
resets it.  A reset inside the text is followed by the style again, so that what
comes after it keeps the style.  Padding belongs to the text.
-/

namespace HandlerLint.Report

/-- A style of coloured text. -/
inductive Paint where
  | boldCyan
  | bold
  | dimmed
  | red
  | green
  | yellow
  | blue
deriving DecidableEq, Repr

namespace Paint

/-- The parameters of the sequence that sets a style. -/
def code : Paint → List Char
  | .boldCyan => "1;36".toList
  | .bold => "1".toList
  | .dimmed => "2".toList
  | .red => "31".toList
  | .green => "32".toList
  | .yellow => "33".toList
  | .blue => "34".toList

/-- The sequence that sets a style. -/
def set (paint : Paint) : List Char :=
  '\x1b' :: '[' :: paint.code ++ ['m']

/-- The sequence that resets the style. -/
def reset : List Char :=
  ['\x1b', '[', '0', 'm']

/-- A text in which the style is set again after every reset. -/
def keepSet (paint : Paint) : List Char → List Char
  | '\x1b' :: '[' :: '0' :: 'm' :: rest => reset ++ paint.set ++ keepSet paint rest
  | c :: rest => c :: keepSet paint rest
  | [] => []

/-- A text filled up with spaces to a width in characters. -/
def padRight (width : Nat) (text : List Char) : List Char :=
  text ++ List.replicate (width - text.length) ' '

/-- A text in a style, filled up to a width; without colours, only filled up. -/
def padded (colours : Bool) (paint : Paint) (width : Nat) (text : String) : String :=
  String.ofList <|
    if colours then
      paint.set ++ padRight width (keepSet paint text.toList) ++ reset
    else padRight width text.toList

/-- A text in a style. -/
def apply (colours : Bool) (paint : Paint) (text : String) : String :=
  padded colours paint 0 text

end Paint

end HandlerLint.Report
