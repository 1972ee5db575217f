import Livery.ThemeError

/-!
# Catalogs

The themes there are, which of them is current, and the grammars that every theme starts with. The
catalog says where the files are; nothing is opened here.
-/

namespace Livery

/-- Where base grammars lie unless a theme says otherwise. -/
def Catalog.stockBase : String := "ThemedHL.Resources.Light"

/-- Where the overlays of the stock themes lie. -/
def Catalog.stockOverlays : String := "ThemedHL.Resources.Themes"

/-- A theme: its `key`, the name to show, where its base grammars lie, and its overlay if it has
one. -/
structure ThemeEntry where
  key : String
  displayName : String := ""
  basePrefix : String := Catalog.stockBase
  overlay : Option ResourceName := none
  deriving DecidableEq, Repr

/-- The `displayName`, or the `key` where it is empty. -/
def ThemeEntry.label (t : ThemeEntry) : String :=
  if t.displayName = "" then t.key else t.displayName

/-- A grammar that every theme starts with, and the file it is read from. -/
structure BuiltinGrammar where
  name : String
  extensions : List String := []
  resource : String
  deriving DecidableEq, Repr

/-- The themes, the key of the `current` one, and the grammars that come with them. -/
structure Catalog where
  current : String
  themes : List ThemeEntry := []
  grammars : List BuiltinGrammar := []
  deriving DecidableEq, Repr

namespace Catalog

/-- The first theme of `c` with the key `key`. -/
def theme? (c : Catalog) (key : String) : Option ThemeEntry := c.themes.find? (·.key == key)

/-- The theme that is current unless a catalog says otherwise. -/
def stockCurrent : String := "Light"

/-- Dark, Light and True Blue. -/
def stockThemes : List ThemeEntry :=
  [{ key := "Dark", displayName := "Dark", overlay := some ⟨stockOverlays, "Dark.xshtd"⟩ },
   { key := "Light", displayName := "Light" },
   { key := "TrueBlue", displayName := "True Blue",
     overlay := some ⟨stockOverlays, "TrueBlue.xshtd"⟩ }]

/-- The grammars that come with an editor. -/
def stockGrammars : List BuiltinGrammar :=
  [⟨"XmlDoc", [], "XmlDoc.xshd"⟩,
   ⟨"C#", [".cs"], "CSharp-Mode.xshd"⟩,
   ⟨"JavaScript", [".js"], "JavaScript-Mode.xshd"⟩,
   ⟨"HTML", [".htm", ".html"], "HTML-Mode.xshd"⟩,
   ⟨"ASP/XHTML", [".asp", ".aspx", ".asax", ".asmx", ".ascx", ".master"], "ASPX.xshd"⟩,
   ⟨"Boo", [".boo"], "Boo.xshd"⟩,
   ⟨"Coco", [".atg"], "Coco-Mode.xshd"⟩,
   ⟨"CSS", [".css"], "CSS-Mode.xshd"⟩,
   ⟨"C++", [".c", ".h", ".cc", ".cpp", ".hpp"], "CPP-Mode.xshd"⟩,
   ⟨"Java", [".java"], "Java-Mode.xshd"⟩,
   ⟨"Patch", [".patch", ".diff"], "Patch-Mode.xshd"⟩,
   ⟨"PowerShell", [".ps1", ".psm1", ".psd1"], "PowerShell.xshd"⟩,
   ⟨"PHP", [".php"], "PHP-Mode.xshd"⟩,
   ⟨"Python", [".py", ".pyw"], "Python-Mode.xshd"⟩,
   ⟨"TeX", [".tex"], "Tex-Mode.xshd"⟩,
   ⟨"TSQL", [".sql"], "TSQL-Mode.xshd"⟩,
   ⟨"VB", [".vb"], "VB-Mode.xshd"⟩,
   ⟨"XML", [".xml", ".xsl", ".xslt", ".xsd", ".manifest", ".config", ".addin", ".xshd", ".wxs",
     ".wxi", ".wxl", ".proj", ".csproj", ".vbproj", ".ilproj", ".booproj", ".build", ".xfrm",
     ".targets", ".xaml", ".xpt", ".xft", ".map", ".wsdl", ".disco", ".ps1xml", ".nuspec"],
     "XML-Mode.xshd"⟩,
   ⟨"MarkDown", [".md"], "MarkDown-Mode.xshd"⟩,
   ⟨"ActionScript3", [".as"], "AS3.xshd"⟩,
   ⟨"BAT", [".bat", ".dos"], "DOSBATCH.xshd"⟩,
   ⟨"F#", [".fs"], "FSharp-Mode.xshd"⟩,
   ⟨"HLSL", [".fx"], "HLSL.xshd"⟩,
   ⟨"INI", [".cfg", ".conf", ".ini", ".iss"], "INI.xshd"⟩,
   ⟨"LOG", [".log"], "Log.xshd"⟩,
   ⟨"Pascal", [".pas"], "Pascal.xshd"⟩,
   ⟨"PLSQL", [".plsql"], "PLSQL.xshd"⟩,
   ⟨"Ruby", [".rb"], "Ruby.xshd"⟩,
   ⟨"Scheme", [".sls", ".sps", ".ss", ".scm"], "scheme.xshd"⟩,
   ⟨"Squirrel", [".nut"], "squirrel.xshd"⟩,
   ⟨"TXT", [".txt"], "TXT.xshd"⟩,
   ⟨"VTL", [".vtl", ".vm"], "vtl.xshd"⟩]

/-- The `stockThemes` over the `stockGrammars`. -/
def stock : Catalog := ⟨stockCurrent, stockThemes, stockGrammars⟩

end Catalog

end Livery
