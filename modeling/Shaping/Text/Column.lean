/-!
# Columns

Texts filled up with spaces to a width, counted in characters.  A text that is too wide is not cut off.
-/

set_option autoImplicit false

namespace Shaping.Text

/-- A text at the left of a column. -/
def left (width : Nat) (s : String) : String :=
  s ++ String.ofList (List.replicate (width - s.length) ' ')

/-- A text at the right of a column. -/
def right (width : Nat) (s : String) : String :=
  String.ofList (List.replicate (width - s.length) ' ') ++ s

end Shaping.Text
