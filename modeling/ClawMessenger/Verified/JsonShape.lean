import ClawMessenger.Verified.Json

/-!
# Checks on the fields of an object

A validator reads an object through its fields: whether a key is there, what
stands under it, and whether there are other keys.
-/

namespace ClawMessenger.Verified.Json

/-- The field is there and passes the check. -/
def fieldIs (v : Json) (key : JsString) (check : Json → Bool) : Bool := (v.field? key).any check

/-- The field passes the check if it is there. -/
def fieldIfPresent (v : Json) (key : JsString) (check : Json → Bool) : Bool :=
  (v.field? key).all check

/-- The value is the given text. -/
def isText (text : JsString) (v : Json) : Bool := v.text? == some text

/-- The value is one of the given texts. -/
def isOneOf (texts : List JsString) (v : Json) : Bool := v.text?.any texts.contains

/-- All required keys are there and no others than the optional ones. -/
def exactKeys (v : Json) (required optional : List JsString) : Bool :=
  required.all v.hasOwn && v.keys.all fun key => required.contains key || optional.contains key

end ClawMessenger.Verified.Json
