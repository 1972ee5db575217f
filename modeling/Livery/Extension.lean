import Livery.Text.Blank
import Livery.Text.Split

/-!
# File extensions

Extension lists are written in one attribute, separated by `;`. For look-up an extension is reduced
to a key without leading dots and in lower case.
-/

namespace Livery.Extension

/-- The entries of an extension list: the pieces between `;`, trimmed, the empty ones left out. -/
def split (s : String) : List String :=
  (((Text.pieces ';' s.toList).map Text.trimmed).filter (! ·.isEmpty)).map String.ofList

/-- The extension list of `entries` as one attribute value, which `split` takes apart. -/
def join (entries : List String) : String := String.intercalate ";" entries

/-- The look-up key of the extension `s`: trimmed, leading dots dropped, in lower case. -/
def normalize (s : String) : String :=
  Text.lower (String.ofList ((Text.trimmed s.toList).dropWhile (· == '.')))

end Livery.Extension
