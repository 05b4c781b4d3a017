/-!
# Letter case

Names are compared without regard to the case of ASCII letters; other letters have none here.
-/

namespace SearchFilter.Text

def lower (s : String) : String :=
  String.ofList (s.toList.map Char.toLower)

end SearchFilter.Text
