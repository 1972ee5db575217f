import Livery.Text.Blank
import Livery.Text.Decimal

/-!
# Font attributes

The ten named weights, the three styles and the underline flag, with the texts that stand for them.
A weight may also be given as a number from 1 to 999, which stands for the nearest named weight.
-/

namespace Livery

/-- An attribute value that is no style. It keeps the text without the white space around it. -/
inductive StyleError where
  | fontWeight (value : String)
  | fontStyle (value : String)
  | underline (value : String)
  deriving DecidableEq, Repr

def StyleError.message : StyleError → String
  | .fontWeight value => s!"'{value}' is not a valid font weight"
  | .fontStyle value => s!"'{value}' is not a valid font style"
  | .underline value => s!"'{value}' is not a valid underline flag"

/-- A named weight, from light to heavy. -/
inductive FontWeight where
  | thin
  | extraLight
  | light
  | normal
  | medium
  | semiBold
  | bold
  | extraBold
  | black
  | extraBlack
  deriving DecidableEq, Repr

namespace FontWeight

/-- The named weights from light to heavy. -/
def all : List FontWeight :=
  [.thin, .extraLight, .light, .normal, .medium, .semiBold, .bold, .extraBold, .black, .extraBlack]

/-- The weight class. -/
def value : FontWeight → Nat
  | .thin => 100
  | .extraLight => 200
  | .light => 300
  | .normal => 400
  | .medium => 500
  | .semiBold => 600
  | .bold => 700
  | .extraBold => 800
  | .black => 900
  | .extraBlack => 950

def name : FontWeight → String
  | .thin => "Thin"
  | .extraLight => "ExtraLight"
  | .light => "Light"
  | .normal => "Normal"
  | .medium => "Medium"
  | .semiBold => "SemiBold"
  | .bold => "Bold"
  | .extraBold => "ExtraBold"
  | .black => "Black"
  | .extraBlack => "ExtraBlack"

/-- Weights compare by their `value`. -/
instance : Ord FontWeight := ⟨fun a b => compare a.value b.value⟩

/-- How far the weight classes `m` and `n` are apart. -/
def distance (m n : Nat) : Nat := (m - n) + (n - m)

/-- The `candidate`, if it is strictly nearer to `n` than the `best` so far. -/
def nearer (n : Nat) (best candidate : FontWeight) : FontWeight :=
  if distance candidate.value n < distance best.value n then candidate else best

/-- The named weight nearest to the class `n`, of two the lighter one. -/
def nearest (n : Nat) : FontWeight :=
  all.foldl (nearer n) .thin

/-- The names a weight may be written with, in lower case. -/
def keywords : List (String × FontWeight) :=
  [("thin", .thin), ("extralight", .extraLight), ("ultralight", .extraLight), ("light", .light),
   ("normal", .normal), ("regular", .normal), ("medium", .medium), ("semibold", .semiBold),
   ("demibold", .semiBold), ("bold", .bold), ("extrabold", .extraBold), ("ultrabold", .extraBold),
   ("black", .black), ("heavy", .black), ("extrablack", .extraBlack), ("ultrablack", .extraBlack)]

/-- Reads a weight: one of the `keywords` in any letter case, or a number from 1 to 999. -/
def parse (s : String) : Except StyleError FontWeight :=
  let w := Text.lower (Text.trim s)
  match keywords.lookup w with
  | some weight => .ok weight
  | none =>
    match Text.Decimal.read? w.toList with
    | some n => if 1 ≤ n ∧ n ≤ 999 then .ok (nearest n) else .error (.fontWeight (Text.trim s))
    | none => .error (.fontWeight (Text.trim s))

end FontWeight

/-- A slope of the letters. -/
inductive FontStyle where
  | normal
  | italic
  | oblique
  deriving DecidableEq, Repr

namespace FontStyle

def name : FontStyle → String
  | .normal => "Normal"
  | .italic => "Italic"
  | .oblique => "Oblique"

/-- Reads a `FontStyle` by its name, in any letter case. -/
def parse (s : String) : Except StyleError FontStyle :=
  match Text.lower (Text.trim s) with
  | "normal" => .ok .normal
  | "italic" => .ok .italic
  | "oblique" => .ok .oblique
  | _ => .error (.fontStyle (Text.trim s))

end FontStyle

namespace Underline

/-- Reads an underline flag: `true` or `1`, `false` or `0`. -/
def parse (s : String) : Except StyleError Bool :=
  match Text.trim s with
  | "true" => .ok true
  | "1" => .ok true
  | "false" => .ok false
  | "0" => .ok false
  | other => .error (.underline other)

/-- The flag `underline` in the form that reads back. -/
def text (underline : Bool) : String := if underline then "true" else "false"

end Underline

end Livery
