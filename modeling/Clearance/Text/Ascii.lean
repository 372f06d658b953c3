/-!
Letter case in the ASCII range. A letter outside it keeps its case, so a character whose upper case
is an ASCII letter elsewhere stays as it is here.
-/
namespace Clearance.Text

def upper (s : String) : String := String.ofList (s.toList.map Char.toUpper)

def lower (s : String) : String := String.ofList (s.toList.map Char.toLower)

end Clearance.Text
