import Livery.Chrome
import Livery.ThemeError

/-!
# Notices

What the library reports about its own doings, for whoever keeps a log.
-/

namespace Livery

/-- How much a notice matters. -/
inductive Level where
  | debug
  | info
  | warn
  deriving DecidableEq, Repr

/-- An event worth a line in a log, at some `Level`. -/
inductive Notice where
  | overlayRead (theme : String) (declarations : Nat)
  | overlayResolved (theme : String) (grammars : Nat)
  | overlayReady (theme : String) (grammars : Nat)
  | overlayFailed (theme : String) (error : ThemeError)
  | grammarLoaded (theme grammar : String)
  | nameDiffers (registered declared : String)
  | colorsIgnored (grammar : String) (names : List String)
  | styleApplied (theme : String) (slot : Slot) (brush : Brush)
  | themeChanged (theme : String)
  deriving DecidableEq, Repr

namespace Notice

def level : Notice → Level
  | overlayFailed _ _ => .warn
  | nameDiffers _ _ => .warn
  | themeChanged _ => .info
  | _ => .debug

def message : Notice → String
  | overlayRead _ _ => "parsed theme overlay"
  | overlayResolved _ _ => "resolved theme overlay"
  | overlayReady _ _ => "theme overlay ready"
  | overlayFailed _ _ => "theme overlay failed to load; continuing without it"
  | grammarLoaded _ _ => "grammar loaded"
  | nameDiffers _ _ => "grammar declares a different name than it was registered under"
  | colorsIgnored _ _ => "theme colors without a base color were ignored"
  | styleApplied _ _ _ => "applying global style"
  | themeChanged _ => "current highlighting theme changed"

/-- What a `Notice` is about, by name. -/
def fields : Notice → List (String × String)
  | overlayRead theme n => [("theme", theme), ("elements", Text.Decimal.digits n)]
  | overlayResolved theme n => [("theme", theme), ("grammars", Text.Decimal.digits n)]
  | overlayReady theme n => [("theme", theme), ("grammars", Text.Decimal.digits n)]
  | overlayFailed theme e => [("theme", theme), ("error", e.message)]
  | grammarLoaded theme grammar => [("theme", theme), ("grammar", grammar)]
  | nameDiffers registered declared => [("registered", registered), ("declared", declared)]
  | colorsIgnored grammar names => [("grammar", grammar), ("ignored", Text.quotedList names)]
  | styleApplied theme slot brush =>
    [("theme", theme), ("slot", slot.key), ("color", brush.text)]
  | themeChanged theme => [("theme", theme)]

end Notice

end Livery
