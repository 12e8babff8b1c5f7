/-!
# Blank text

White space is the Unicode property `White_Space`; a text of nothing else is blank.
-/

namespace Switchboard.Text

def isWhiteSpace (c : Char) : Bool :=
  let code := c.toNat
  (0x09 ≤ code && code ≤ 0x0D) || code = 0x20 || code = 0x85 || code = 0xA0 || code = 0x1680 ||
    (0x2000 ≤ code && code ≤ 0x200A) || code = 0x2028 || code = 0x2029 || code = 0x202F ||
    code = 0x205F || code = 0x3000

/-- Nothing is left of a blank text once white space is cut off both ends. -/
def isBlank (text : String) : Bool :=
  text.toList.all isWhiteSpace

end Switchboard.Text
