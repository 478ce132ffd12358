/-!
# Styled text

Colours and weights for a terminal. A style is a code in front of a text, and a reset ends it; text
that goes elsewhere is left plain.
-/

namespace Lowering.Text

/-- A colour or a weight. -/
inductive Style where
  | bold
  | dim
  | underline
  | red
  | green
  | blue
  | cyan
  /-- back to plain -/
  | reset
deriving DecidableEq, Repr

/-- What switches a terminal to a style. -/
def Style.code : Style → String
  | .bold => "\x1b[1m"
  | .dim => "\x1b[2m"
  | .underline => "\x1b[4m"
  | .red => "\x1b[31m"
  | .green => "\x1b[32m"
  | .blue => "\x1b[34m"
  | .cyan => "\x1b[36m"
  | .reset => "\x1b[0m"

/-- The code of a style, if the text is for a terminal. -/
def Style.codeIf (colored : Bool) (s : Style) : String := if colored then s.code else ""

/-- A text in some styles, if it is for a terminal. -/
def paint (colored : Bool) (styles : List Style) (text : String) : String :=
  if colored then String.join (styles.map Style.code) ++ text ++ Style.reset.code else text

end Lowering.Text
