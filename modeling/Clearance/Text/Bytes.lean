/-!
Texts measured in bytes. A character that does not fit into them counts on neither side. Where a text is
a slice of bytes, a cut inside of a character ends the program; here it drops the character.
-/
namespace Clearance.Text

/-- The characters at the start of a text that fit into so many bytes. One that fits only in part is
dropped. -/
def takeBytes : Nat → List Char → List Char
  | _, [] => []
  | room, c :: cs => if c.utf8Size ≤ room then c :: takeBytes (room - c.utf8Size) cs else []

/-- The text after so many bytes. -/
def dropBytes : Nat → List Char → List Char
  | _, [] => []
  | 0, cs => cs
  | room + 1, c :: cs => dropBytes (room + 1 - c.utf8Size) cs

end Clearance.Text
