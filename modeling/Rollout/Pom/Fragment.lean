import Rollout.Text.Blank
import Rollout.Text.Pieces
import Rollout.Xml.Reader
import Rollout.Failure

/-!
# Configuration fragments

The configuration stamped into the deployment plugin comes from a template.

- `filledTemplate`: a template with the key and the value of an annotation in it.
- `readFragment`: the tree of a fragment.
-/

namespace Rollout.Pom

open Xml

/-- What stands for the key of the annotation in a template. -/
def keyToken : String := "\x7bkey\x7d"

/-- What stands for the value of the annotation in a template. -/
def valueToken : String := "\x7bvalue\x7d"

/-- The template with the key in it, then the value in the result. -/
def filledTemplate (template key value : String) : String :=
  Text.replaceAll valueToken value (Text.replaceAll keyToken key template)

/-- The tree of a fragment, whose root has to be a configuration. Blanks around the fragment do not
count. -/
def readFragment (text : String) : Except Failure Node :=
  match readDocument? (Text.strip text) with
  | none => .error .malformedFragment
  | some root =>
    if root.isNamed "configuration" then .ok root
    else .error (.fragmentRoot ((root.name?.map QName.name).getD ""))

end Rollout.Pom
