import BlockStage.Text.Blank
import BlockStage.Text.Lowercase

/-!
Labels of keys: `space` for the space bar, and lower case without surrounding white space for every
other key.
-/

namespace BlockStage

def keyLabel (raw : String) : String :=
  if raw = " " then "space" else Text.lower (Text.trim raw)

end BlockStage
