/-!
# Letter case of ASCII names

Keywords are compared without regard to the case of the letters A to Z; other characters count as
they are.
-/

namespace EntityForge.Text

/-- The name with the letters A to Z in lower case. -/
def lowerAscii (s : String) : String :=
  String.ofList (s.toList.map Char.toLower)

end EntityForge.Text
