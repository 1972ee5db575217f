import Livery.Extension
import Livery.Grammar
import Livery.Grammar.Definition
import Livery.Notice

/-!
# Reading grammars

From a definition to a grammar: the values of its colours are read, and of two colours of one name
the later one counts, in the place of the earlier. `Grammar.load` does the same for the bytes of a
file and lays a theme's colours over the result.
-/

namespace Livery

/-- Why a text is no `Grammar`. -/
inductive GrammarError where
  | decode (refusal : Definition.Refusal)
  | brush (color : String) (reason : Brush.ParseError)
  | style (color : String) (reason : StyleError)
  deriving DecidableEq, Repr

def GrammarError.message [Wording Definition.Fault] : GrammarError → String
  | .decode refusal =>
    "failed to decode grammar definition: " ++ Wording.message refusal.text refusal.fault
  | .brush color reason => s!"color '{color}': " ++ reason.message
  | .style color reason => s!"color '{color}': " ++ reason.message

namespace Definition.ColorEntry

/-- Reads a value by `parse` if there is one. An error of `parse` becomes its `cause`. -/
def optional {α ε : Type} (parse : String → Except ε α) (cause : ε → GrammarError) :
    Option String → Except GrammarError (Option α)
  | none => .ok none
  | some v =>
    match parse v with
    | .ok a => .ok (some a)
    | .error e => .error (cause e)

/-- The `Token` of the colour `c`. A value that is there must be readable, even if it is empty. -/
def token (c : ColorEntry) : Except GrammarError Token := do
  let foreground ← optional Brush.parse (.brush c.name) c.foreground
  let background ← optional Brush.parse (.brush c.name) c.background
  let fontWeight ← optional FontWeight.parse (.style c.name) c.fontWeight
  let fontStyle ← optional FontStyle.parse (.style c.name) c.fontStyle
  let underline ← optional Underline.parse (.style c.name) c.underline
  pure { name := c.name, foreground, background, underline, fontWeight, fontStyle }

end Definition.ColorEntry

namespace Grammar

/-- Adds the colour `c` of a definition to `g`, in place of one of the same name. -/
def addEntry (g : Grammar) (c : Definition.ColorEntry) : Except GrammarError Grammar := do
  let token ← c.token
  pure (g.withColor token)

/-- The grammar of the definition `d`. -/
def ofDefinition (d : Definition) : Except GrammarError Grammar :=
  d.colors.foldlM addEntry
    { name := d.name, extensions := (d.extensions.map Extension.split).getD [] }

/-- Reads the text `s` of a grammar file. -/
def read [Markup.Decoders] (s : String) : Except GrammarError Grammar :=
  match Definition.read s with
  | .ok d => ofDefinition d
  | .error refusal => .error (.decode refusal)

/-- The result of `load` with the notices of the way. -/
structure Loading where
  notices : List Notice
  result : Except ThemeError Grammar

/-- Lays the theme's `ColorSet` over `g`, if there is one, and notes the colours that `g` lacks. -/
def dress (g : Grammar) (name : String) : Option ColorSet → Grammar × List Notice
  | none => (g, [])
  | some colors =>
    match g.tint colors with
    | (tinted, []) => (tinted, [])
    | (tinted, ignored) => (tinted, [.colorsIgnored name ignored])

/-- Loads the bytes `source` of a grammar file under `name`, in the theme's `colors`. The text may
begin with any number of byte-order marks. -/
def load [Markup.Decoders] [Wording Definition.Fault] (name : String) (source : Bytes)
    (colors : Option ColorSet) : Loading :=
  match Text.Utf8.decode? source with
  | none =>
    let defect := (Text.Utf8.defect? source).getD ""
    ⟨[], .error (.format none ("grammar is not valid UTF-8: " ++ defect))⟩
  | some s =>
    match read (String.ofList (s.toList.dropWhile (· == '\ufeff'))) with
    | .error e => ⟨[], .error (.format none e.message)⟩
    | .ok g =>
      let dressed := g.dress name colors
      let renamed := if g.name = name then [] else [Notice.nameDiffers name g.name]
      ⟨renamed ++ dressed.2, .ok dressed.1⟩

end Grammar

end Livery
