/-!
# Names

## Main definitions

* `isNameChar`: the characters of a bare name
-/

namespace StatusPanel.Text

/-- Whether a character may stand in a bare name. -/
def isNameChar (c : Char) : Bool := c.isAlphanum || c == '_' || c == '-'

end StatusPanel.Text
