import Livery.Brush
import Livery.Font
import Livery.Markup.Entity
import Livery.Markup.Fault
import Livery.Markup.Tag
import Livery.Overlay.Document

/-!
# Faults of overlays

Why a text is refused as an overlay. Some causes arise only when the schema is enforced; those are
the ones that `Cause.isSchema` tells.
-/

namespace Livery.Overlay

/-- Why the text of an overlay is refused. -/
inductive Cause where
  | markup (fault : Markup.Fault)
  | malformedAttribute (fault : Markup.AttributeFault)
  | undecodable
  | entity (fault : Markup.EntityFault)
  | textBeforeRoot
  | noRoot
  | wrongRoot (found : String)
  | unknownElement (name : String)
  | colorOutsideSet
  | misplaced (name : String)
  | childInside (name : String)
  | endInside (name : String)
  | textInside (name : String)
  | unknownAttribute (key element : String)
  | missingName (element : String)
  | unsupportedStyle (name : String)
  | emptyName
  | slashInName (name : String)
  | brush (value : String) (reason : Brush.ParseError)
  | style (reason : StyleError)
  deriving DecidableEq, Repr

namespace Cause

/-- The name of the root element. -/
def rootName : String := "ThemeSyntaxDefinition"

/-- The name of the elements that declare colour sets. -/
def setName : String := "SyntaxDefinition"

def message : Cause → String
  | .markup fault => fault.message
  | .malformedAttribute fault => fault.message
  | .undecodable => "Malformed input, decoding impossible"
  | .entity fault => fault.message
  | .textBeforeRoot => "Text is not allowed before the root element"
  | .noRoot => s!"Document has no {rootName} root element"
  | .wrongRoot found => s!"Expected {rootName} in namespace '{themeNamespace}', found {found}"
  | .unknownElement name => s!"Unknown element {name}"
  | .colorOutsideSet => s!"Color cannot occur outside of {setName}"
  | .misplaced name => s!"{name} cannot occur inside {setName}"
  | .childInside name => s!"{name} cannot contain child elements"
  | .endInside name => s!"Unexpected end of document inside {name}"
  | .textInside name => s!"Text content is not allowed inside {name}"
  | .unknownAttribute key element => s!"Unknown attribute '{key}' on {element}"
  | .missingName element => s!"{element} requires a 'name' attribute"
  | .unsupportedStyle name => s!"GlobalStyle named '{name}' is not supported"
  | .emptyName => "The empty string is not a valid name"
  | .slashInName name => s!"Element names must not contain a slash: '{name}'"
  | .brush _ (.unknownReference reference) => (Brush.ParseError.unknownReference reference).message
  | .brush value (.color reason) => s!"Invalid color '{value}': " ++ reason.message
  | .style reason => reason.message

/-- The causes that only a strict `Reader` knows. -/
def isSchema : Cause → Bool
  | .unknownAttribute _ _ => true
  | .missingName _ => true
  | .textInside _ => true
  | .unsupportedStyle _ => true
  | _ => false

end Cause

/-- A `Cause` and where it was found. -/
structure Failure where
  position : Position
  cause : Cause
  deriving DecidableEq, Repr

end Livery.Overlay
