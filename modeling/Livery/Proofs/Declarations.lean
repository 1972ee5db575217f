import Livery.Libraries
import Livery.Proofs.Gathering
import Livery.Proofs.RoundTrip

/-!
# Colours of overlays and of base grammars

A colour can be written in an overlay as it is in a base grammar. The overlay takes a blank value
for an absent one, reads the underline before the font, and hands on what it has read when it is
resolved; the grammar reads every value that is there. Where no value is blank, the two agree.

* `Definition.ColorEntry.token_ok_iff`, `Overlay.Reader.color_ok_iff_readable`: each accepts exactly
  the colours whose values can be read, for the same token.
* `Overlay.color?_of_resolve`: the token in a resolved overlay.
* `Definition.ColorEntry.gives_element`, `Definition.ColorEntry.colorEntry_element`: every colour
  can be written as an element that both read.
* `Overlay.Reader.color_agrees`: the two against each other.
-/

namespace Livery

open Markup (Content Element Scope)
open Markup.Source (Assignment Field Word assignment assignments tagOf)
open Overlay (IsOptional optionalValue)

/-! ## Grammars -/

namespace Definition.ColorEntry

variable {c : ColorEntry}

/-- A value that is absent or not blank. -/
def IsInked (value : Option String) : Prop := ∀ v ∈ value, Text.isAllBlank v = false

instance (value : Option String) : Decidable (IsInked value) :=
  inferInstanceAs (Decidable (∀ v ∈ value, Text.isAllBlank v = false))

/-- The name of `c` may stand in an overlay, and no value is blank. -/
structure Plain (c : ColorEntry) : Prop where
  named : c.name ≠ ""
  slashFree : c.name.contains '/' = false
  foreground : IsInked c.foreground
  background : IsInked c.background
  fontWeight : IsInked c.fontWeight
  fontStyle : IsInked c.fontStyle
  underline : IsInked c.underline

/-- Every value of `c` that is there can be read. -/
structure Readable (c : ColorEntry) : Prop where
  foreground : IsOptional Brush.parse c.foreground
  background : IsOptional Brush.parse c.background
  fontWeight : IsOptional FontWeight.parse c.fontWeight
  fontStyle : IsOptional FontStyle.parse c.fontStyle
  underline : IsOptional Underline.parse c.underline

section Value

variable {α ε : Type} (parse : String → Except ε α) {value : Option String}

/-- A value that `IsInked` says the same in an overlay. -/
theorem optionalValue_eq (h : IsInked value) : optionalValue parse value = value? parse value := by
  cases value with
  | none => rfl
  | some v => simp [optionalValue, value?, h v rfl]

theorem optional_ok_iff (cause : ε → GrammarError) (h : IsInked value) {a : Option α} :
    optional parse cause value = .ok a ↔ IsOptional parse value ∧ a = value? parse value := by
  cases value with
  | none => simpa [optional, IsOptional, value?] using eq_comm
  | some v =>
    have hv := h v rfl
    cases hp : parse v with
    | ok x => simpa [optional, IsOptional, value?, hp, Except.toOption] using eq_comm
    | error e => simp [optional, IsOptional, hp, hv]

end Value

/-- **A grammar accepts a colour** exactly if its values are `Readable`, and then as its `style`. -/
theorem token_ok_iff (h : c.Plain) {t : Token} : c.token = .ok t ↔ c.Readable ∧ t = c.style := by
  simp only [token, bind_eq_ok, optional_ok_iff _ _ h.foreground,
    optional_ok_iff _ _ h.background, optional_ok_iff _ _ h.fontWeight,
    optional_ok_iff _ _ h.fontStyle, optional_ok_iff _ _ h.underline, exists_answer, pure_eq_ok]
  constructor
  · rintro ⟨hf, hb, hw, hs, hu, rfl⟩
    exact ⟨⟨hf, hb, hw, hs, hu⟩, rfl⟩
  · rintro ⟨⟨hf, hb, hw, hs, hu⟩, rfl⟩
    exact ⟨hf, hb, hw, hs, hu, rfl⟩

/-- The values of the colour `c` are found under their keys by `find`. -/
structure FoundBy (find : String → Option String) (c : ColorEntry) : Prop where
  name : find "name" = some c.name
  foreground : find "foreground" = c.foreground
  background : find "background" = c.background
  fontWeight : find "fontWeight" = c.fontWeight
  fontStyle : find "fontStyle" = c.fontStyle
  underline : find "underline" = c.underline

/-- What `find` finds is the colour `c`. -/
theorem FoundBy.entry_eq {find : String → Option String} (h : c.FoundBy find) :
    c = { name := c.name, foreground := find "foreground", background := find "background",
          fontWeight := find "fontWeight", fontStyle := find "fontStyle",
          underline := find "underline" } := by
  rw [h.foreground, h.background, h.fontWeight, h.fontStyle, h.underline]

end Definition.ColorEntry

/-! ## Overlays -/

namespace Overlay

open Definition (ColorEntry)

namespace Reader

variable (r : Reader) {scope : Scope} {e : Element} {content : Option Content} {c : ColorEntry}

/-- The attributes of the element `e` are read as the values of the colour `c`. -/
def Gives [Markup.Decoders] (e : Element) (c : ColorEntry) : Prop :=
  ∃ vs, r.values e colorKeys = .ok vs ∧ c.FoundBy (vs.lookup ·)

/-- **An overlay accepts a colour** if its values are `Readable`. -/
theorem color_ok_iff_readable [Markup.Decoders] (he : r.Gives e c)
    (hleaf : r.leaf "Color" scope content = .ok ()) (hc : c.Plain) {t : Token} :
    (∃ d, r.color scope e content = .ok d ∧ d.token = t) ↔ c.Readable ∧ t = c.style := by
  obtain ⟨vs, hvs, hfound⟩ := he
  have hstyle : c.style =
      { name := c.name
        foreground := optionalValue Brush.parse c.foreground
        background := optionalValue Brush.parse c.background
        underline := optionalValue Underline.parse c.underline
        fontWeight := optionalValue FontWeight.parse c.fontWeight
        fontStyle := optionalValue FontStyle.parse c.fontStyle } := by
    rw [ColorEntry.optionalValue_eq _ hc.foreground, ColorEntry.optionalValue_eq _ hc.background,
      ColorEntry.optionalValue_eq _ hc.underline, ColorEntry.optionalValue_eq _ hc.fontWeight,
      ColorEntry.optionalValue_eq _ hc.fontStyle]
    rfl
  simp only [color, colorOfValues, hvs, hleaf, bind_eq_ok, Except.ok.injEq, exists_eq_left',
    exists_const, brush, colorName_ok_iff, optional_ok_iff, hfound.name, hfound.foreground,
    hfound.background, hfound.fontWeight, hfound.fontStyle, hfound.underline, Option.getD_some,
    exists_answer, pure_eq_ok, true_and]
  constructor
  · rintro ⟨_, ⟨_, ⟨-, hf, hb, hu, hw, hs, rfl⟩, rfl⟩, rfl⟩
    exact ⟨⟨hf, hb, hw, hs, hu⟩, hstyle.symm⟩
  · rintro ⟨⟨hf, hb, hw, hs, hu⟩, rfl⟩
    exact ⟨_, ⟨_, ⟨⟨hc.named, hc.slashFree⟩, hf, hb, hu, hw, hs, rfl⟩, rfl⟩, hstyle.symm⟩

end Reader

/-- **A resolved overlay** has the token of each colour under its name. -/
theorem color?_of_resolve {document : Document} {m : Model} (h : resolve document = .ok m)
    {s : SetDeclaration} (hs : s ∈ document.colorSets) {d : ColorDeclaration} (hd : d ∈ s.colors) :
    ∃ set, m.colorSet? s.name = some set ∧ set.color? d.name = some d.token := by
  rcases register_cases document with ⟨o, more, -, hr⟩ | ⟨hobj, drafts, hr, hreg⟩
  · simp only [resolve, hr, bind, Except.bind, reduceCtorEq] at h
  · obtain ⟨sets, hp, -, hsets⟩ := populate_declares hobj hreg
    simp only [resolve, hr, hp, bind_eq_ok, Except.ok.injEq, exists_eq_left', pure_eq_ok] at h
    subst h
    obtain ⟨set, hget, hdeclares⟩ := hsets s hs
    exact ⟨set, hget, hdeclares.colors d hd⟩

end Overlay

/-! ## One element for both -/

namespace Definition

section Attributes

variable {known : List String} {fields : Fields} {fs : List Field} {key : Word}

/-- The fields that attributes give a `Definition`. -/
def given (fs : List Field) : Fields :=
  fs.flatMap fun f => f.2.toList.map fun v => ("@" ++ f.1.text, v)

theorem attributeKey_assignment (h : key.text ≠ "xmlns") (text : String) :
    attributeKey (assignment key text).entry.key = "@" ++ key.text := by
  have hkey : (assignment key text).entry.key = Text.Utf8.encode key.text := rfl
  have hundeclared : Markup.declaredPrefix? (Text.Utf8.encode key.text) = none := by
    rw [Markup.declaredPrefix?, if_neg (mt (Markup.Source.xmlns_iff key).1 h), if_neg]
    intro hbegins
    have hcolon : 0x3A ∈ (Text.Utf8.encode key.text).take 6 := by simp [hbegins]
    exact key.plain (List.mem_of_mem_take hcolon)
  have hlocal : Markup.localPart (Text.Utf8.encode key.text) = Text.Utf8.encode key.text := by
    simp [Markup.localPart, key.plain]
  rw [attributeKey, hkey, hundeclared, hlocal]
  exact congrArg ("@" ++ ·) (Text.Utf8.decodeLossy_encode key.text)

theorem value_assignment (key : Word) (text : String) :
    value (assignment key text).entry.value = .ok text := by
  simp [value, Assignment.entry, assignment, Text.Utf8.decode?_encode, Markup.unescape_escape]

theorem field_beq_of_ne {s t : String} (h : s ≠ t) : ("@" ++ s == "@" ++ t) = false := by
  simpa using h

/-- **Attributes are read into fields** of their names. -/
theorem attributeFields_assignments (hknown : ∀ f ∈ fs, "@" ++ f.1.text ∈ known)
    (hplain : ∀ f ∈ fs, f.1.text ≠ "xmlns") (hnd : (fs.map (·.1.text)).Nodup)
    (hfresh : ∀ f ∈ fs, fields.lookup ("@" ++ f.1.text) = none) :
    attributeFields known fields ((assignments fs).map Assignment.entry) =
      .ok (fields ++ given fs) := by
  induction fs generalizing fields with
  | nil => simp [assignments, attributeFields, given]
  | cons f fs ih =>
    obtain ⟨key, value⟩ := f
    rw [List.forall_mem_cons] at hknown hplain hfresh
    obtain ⟨hkey, hrest⟩ := List.nodup_cons.1 hnd
    cases value with
    | none => exact ih hknown.2 hplain.2 hrest hfresh.2
    | some v =>
      -- the fields behind this one have other names
      have hfresh' : ∀ f ∈ fs,
          (fields ++ [("@" ++ key.text, v)]).lookup ("@" ++ f.1.text) = none := by
        intro f hf
        have hne : f.1.text ≠ key.text := fun heq => hkey (List.mem_map.2 ⟨f, hf, heq⟩)
        simp [List.lookup_append, List.lookup_cons, hfresh.2 f hf, field_beq_of_ne hne]
      have hread := ih hknown.2 hplain.2 hrest hfresh'
      rw [List.append_assoc] at hread
      have hfirst : addField fields ("@" ++ key.text) (fun _ => Definition.value
          (assignment key v).entry.value) = .ok (fields ++ [("@" ++ key.text, v)]) := by
        rw [addField, hfresh.1, value_assignment]
        rfl
      show attributeFields known fields ((assignment key v).entry :: _) = _
      rw [attributeFields]
      simp only [attributeKey_assignment hplain.1, if_pos hknown.1, hfirst]
      exact hread

/-- The fields `given` have the values that were given. -/
theorem lookup_given {value : Option String} (hnd : (fs.map (·.1.text)).Nodup)
    (h : (key, value) ∈ fs) : (given fs).lookup ("@" ++ key.text) = value := by
  induction fs with
  | nil => cases h
  | cons f fs ih =>
    obtain ⟨hkey, hrest⟩ := List.nodup_cons.1 hnd
    rw [given, List.flatMap_cons, ← given, List.lookup_append]
    rcases List.mem_cons.1 h with rfl | h
    · have hnone : (given fs).lookup ("@" ++ key.text) = none := by
        rw [List.lookup_eq_none_iff]
        intro p hp
        obtain ⟨f, hf, hv⟩ := List.mem_flatMap.1 hp
        obtain ⟨v, -, rfl⟩ := List.mem_map.1 hv
        have hne : key.text ≠ f.1.text := fun heq => hkey (List.mem_map.2 ⟨f, hf, heq.symm⟩)
        simpa using hne
      cases value <;> simp [hnone]
    · -- the field in front has another name
      have hne : key.text ≠ f.1.text := fun heq => hkey (List.mem_map.2 ⟨_, h, heq⟩)
      rw [ih hrest h]
      cases f.2 <;> simp [List.lookup_cons, field_beq_of_ne hne]

end Attributes

namespace ColorEntry

variable {c : ColorEntry}

/-- The keys of the attributes of a colour. -/
def keys : List String :=
  ["name", "foreground", "background", "fontWeight", "fontStyle", "underline"]

theorem named_of_mem : ∀ text ∈ "Color" :: keys, Text.Utf8.encode text ≠ [] ∧
    (Text.Utf8.encode text).all Markup.Source.isNameByte = true ∧ 0x3A ∉ Text.Utf8.encode text := by
  decide

/-- One of the words that the element of a colour is written with. -/
def word (text : String) (h : text ∈ "Color" :: keys := by decide) : Word where
  text := text
  nonempty := (named_of_mem text h).1
  named := (named_of_mem text h).2.1
  plain := (named_of_mem text h).2.2

/-- The attributes of the colour `c`. -/
def fields (c : ColorEntry) : List Field :=
  [(word "name", some c.name), (word "foreground", c.foreground),
   (word "background", c.background), (word "fontWeight", c.fontWeight),
   (word "fontStyle", c.fontStyle), (word "underline", c.underline)]

/-- The `Element` of the colour `c`. -/
def element (c : ColorEntry) : Element := ⟨0, .utf8, (tagOf (word "Color") c.fields).tag⟩

theorem hasKeys (c : ColorEntry) : Overlay.HasKeys c.fields keys := ⟨rfl, by decide, by decide⟩

theorem foundBy_of_fields {find : String → Option String}
    (h : ∀ key value, (key, value) ∈ c.fields → find key.text = value) : c.FoundBy find where
  name := h (word "name") _ (by simp [fields])
  foreground := h (word "foreground") _ (by simp [fields])
  background := h (word "background") _ (by simp [fields])
  fontWeight := h (word "fontWeight") _ (by simp [fields])
  fontStyle := h (word "fontStyle") _ (by simp [fields])
  underline := h (word "underline") _ (by simp [fields])

/-- **A grammar reads the element** as the colour. -/
theorem colorEntry_element (c : ColorEntry) : colorEntry c.element .closed = .ok c := by
  have hnd : (c.fields.map (·.1.text)).Nodup := c.hasKeys.eq ▸ c.hasKeys.distinct
  have hattributes : c.element.tag.attributes =
      ⟨(assignments c.fields).map Assignment.entry, none⟩ :=
    (tagOf (word "Color") c.fields).attributes_tag (Markup.Source.distinct_tagOf _ hnd)
  have hknown : ∀ f ∈ c.fields, "@" ++ f.1.text ∈ colorKeys := by
    simp only [fields, List.forall_mem_cons, List.not_mem_nil, false_implies, implies_true,
      and_true]
    decide
  have hplain : ∀ f ∈ c.fields, f.1.text ≠ "xmlns" := fun f hf heq =>
    c.hasKeys.plain (c.hasKeys.eq ▸ List.mem_map.2 ⟨f, hf, heq⟩)
  have hread := @attributeFields_assignments colorKeys [] c.fields hknown hplain hnd fun _ _ => rfl
  have hfields : tagFields colorKeys c.element.tag = .ok (given c.fields) := by
    rw [tagFields, hattributes]
    simp only [hread]
    rfl
  have hcontent : childFields colorKeys (given c.fields) [] .closed = .ok (given c.fields) := rfl
  have hfound : c.FoundBy fun key => (given c.fields).lookup ("@" ++ key) :=
    foundBy_of_fields fun key value h => lookup_given hnd h
  have hname : required (given c.fields) "@name" = .ok c.name := by
    rw [required, show (given c.fields).lookup "@name" = _ from hfound.name]
  simp only [colorEntry, hfields, hcontent, hname, bind_eq_ok, Except.ok.injEq, exists_eq_left',
    pure_eq_ok]
  exact hfound.entry_eq

/-- **An overlay reads its attributes** as the values of the colour. -/
theorem gives_element [Markup.Decoders] (c : ColorEntry) (r : Overlay.Reader) :
    r.Gives c.element c := by
  have hfair : Overlay.Fair .utf8 Markup.Source.themeScope
      ⟨0, tagOf (word "Color") c.fields, none⟩ :=
    ⟨⟨_, c.hasKeys.regular _⟩, by rintro f ⟨⟩⟩
  have hallowed : ∀ text ∈ c.fields.map (·.1.text), text ∈ Overlay.Reader.colorKeys := by
    rw [c.hasKeys.eq]
    decide
  have hknows : (tagOf (word "Color") c.fields).Knows Overlay.Reader.colorKeys :=
    Markup.Source.knows_tagOf _ fun text htext _ => hallowed text htext
  refine ⟨_, (r.values_ok_iff hfair).2 ⟨fun _ => hknows, rfl⟩,
    foundBy_of_fields fun key value h => ?_⟩
  rw [Overlay.Reader.lookup_values hfair Overlay.Reader.colorKeys key.text
    (hallowed _ (List.mem_map.2 ⟨_, h, rfl⟩))]
  exact c.hasKeys.value _ rfl key h

end ColorEntry

end Definition

/-! ## Agreement -/

namespace Overlay.Reader

open Definition (ColorEntry)

/-- **A colour means the same in an overlay and in a base grammar**, whether or not the schema is
enforced, if its name may stand in an overlay and none of its values is blank. It can be written as
an element that both read. From any element with these values and no children, the overlay accepts
it exactly if the grammar does, and then for the same token, which a document with the colour has
under its name when it is resolved. -/
theorem color_agrees [Markup.Decoders] (r : Reader) (c : ColorEntry) (hc : c.Plain) :
    (∃ e, r.Gives e c ∧ Definition.colorEntry e .closed = .ok c) ∧
    ∀ scope e content, r.Gives e c → r.leaf "Color" scope content = .ok () →
      ((∃ d, r.color scope e content = .ok d) ↔ ∃ t, c.token = .ok t) ∧
      ∀ d t, r.color scope e content = .ok d → c.token = .ok t →
        d.token = t ∧
        ∀ document m s, resolve document = .ok m → s ∈ document.colorSets → d ∈ s.colors →
          ∃ set, m.colorSet? s.name = some set ∧ set.color? c.name = some t := by
  refine ⟨⟨c.element, c.gives_element r, c.colorEntry_element⟩, ?_⟩
  intro scope e content he hleaf
  have hcolor := fun t => @color_ok_iff_readable r scope e content c _ he hleaf hc t
  have htoken := fun t => @ColorEntry.token_ok_iff c hc t
  refine ⟨?_, fun d t hd ht => ?_⟩
  · constructor
    · rintro ⟨d, hd⟩
      exact ⟨d.token, (htoken _).2 ((hcolor _).1 ⟨d, hd, rfl⟩)⟩
    · rintro ⟨t, ht⟩
      obtain ⟨d, hd, -⟩ := (hcolor t).2 ((htoken t).1 ht)
      exact ⟨d, hd⟩
  · have hd' : d.token = t := by
      rw [((hcolor _).1 ⟨d, hd, rfl⟩).2, ((htoken t).1 ht).2]
    have hname : d.name = c.name := by
      rw [show d.name = t.name from congrArg Token.name hd', ((htoken t).1 ht).2]
      rfl
    refine ⟨hd', fun document m s hm hs hmem => ?_⟩
    rw [← hname, ← hd']
    exact color?_of_resolve hm hs hmem

/-- A colour with a number for its `fontWeight`. -/
def keyword : ColorEntry where
  name := "Keyword"
  foreground := some " #102030 "
  fontWeight := some "+0700"
  underline := some "1"

theorem keyword_plain : keyword.Plain :=
  ⟨by decide, by simp [keyword], by decide, by decide, by decide, by decide, by decide⟩

/-- The token of the colour `keyword`. -/
def keywordToken : Token where
  name := "Keyword"
  foreground := some (.fixed (.rgb 0x10 0x20 0x30))
  fontWeight := some .bold
  underline := some true

/-- Under the schema, the colour `keyword` is read from its element, and resolved, with the token it
has in a grammar. -/
theorem color_agrees_keyword : keyword.Plain ∧ keyword.token = .ok keywordToken ∧
    ∃ e d m set, (Reader.mk [] true).Gives e keyword ∧
      (Reader.mk [] true).color .initial e none = .ok d ∧ d.token = keywordToken ∧
      resolve ⟨"Dusk", [.colorSet { name := "C#", colors := [d] }]⟩ = .ok m ∧
      m.colorSet? "C#" = some set ∧ set.color? "Keyword" = some keywordToken := by
  have ht : keyword.token = .ok keywordToken := by decide +kernel
  obtain ⟨⟨e, he, -⟩, hagree⟩ := color_agrees ⟨[], true⟩ keyword keyword_plain
  obtain ⟨hiff, hsame⟩ := hagree .initial e none he rfl
  obtain ⟨d, hd⟩ := hiff.2 ⟨_, ht⟩
  obtain ⟨htoken, hresolved⟩ := hsame d _ hd ht
  have hname : d.name = "Keyword" := congrArg Token.name htoken
  have hobj : (Document.mk "Dusk" [.colorSet { name := "C#", colors := [d] }]).objections = [] := by
    simp [Document.objections, Document.colorSets, walk, SetDeclaration.objections,
      SetDeclaration.nameObjections, ColorDeclaration.objections, hname]
  obtain ⟨m, hm⟩ := exists_resolve hobj
  obtain ⟨set, hset, hcolor⟩ := hresolved _ m { name := "C#", colors := [d] } hm
    (by simp [Document.colorSets]) (by simp)
  exact ⟨keyword_plain, ht, e, d, m, set, he, hd, htoken, hm, hset, hcolor⟩

/-- A blank flag is no flag in an overlay, and is refused in a grammar. -/
example (r : Reader) (e : Element) :
    r.optional e Underline.parse (fun _ => .style) (some " ") = .ok none ∧
      ({ name := "Keyword", underline := some " " } : ColorEntry).token =
        .error (.style "Keyword" (.underline "")) :=
  ⟨rfl, rfl⟩

end Overlay.Reader

end Livery
