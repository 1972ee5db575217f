import Livery.Grammar.Reading
import Livery.Proofs.Composition

/-!
# The colours a grammar gathers

A grammar is given colours one after the other, and may be given one name several times. The name
keeps the place where it came up first, and the colour is the one that came last.

* `replaceNamed?_eq`: replacing a colour where names are distinct.
* `Gathers`: the colours that some tokens leave. `Gathers.withColor` is for one more.
* `ColorEntry.defects`, `ColorEntry.style`: what is wrong with the colour of a definition, and the
  token it declares otherwise.
* `colors_gathered`: a definition is refused for the first defect in it, and otherwise the grammar
  gathers the tokens that it declares.
-/

namespace Livery

namespace Grammar

variable {g : Grammar} {tokens : List Token}

/-! ## Replacing a colour -/

/-- **`replaceNamed?` replaces a colour**, where no two have one name: it takes the place of the one
of its name, if there is one. -/
theorem replaceNamed?_eq {name : String} {token : Token} {l : List Token}
    (h : (l.map (·.name)).Nodup) : replaceNamed? name token l =
      if name ∈ l.map (·.name) then some (l.map fun c => if c.name = name then token else c)
      else none := by
  induction l with
  | nil => rfl
  | cons c l ih =>
    rw [List.map_cons, List.nodup_cons] at h
    rw [replaceNamed?, ih h.2]
    by_cases hc : c.name = name
    · -- the name does not come up again
      have hrest : (l.map fun d => if d.name = name then token else d) = l := by
        refine (List.map_congr_left fun d hd => ?_).trans (List.map_id l)
        have hne : d.name ≠ name := fun hd' => h.1 (hc ▸ hd' ▸ List.mem_map_of_mem hd)
        rw [if_neg hne, id]
      simp [hc, hrest]
    · have hiff : name ∈ (c :: l).map (·.name) ↔ name ∈ l.map (·.name) := by
        simp [Ne.symm hc]
      simp only [if_neg hc, hiff]
      split_ifs with hmem
      · simp [hc]
      · rfl

/-- Changing tokens under their names changes what is found under a name. -/
theorem color?_map {f : Token → Token} (hf : ∀ c, (f c).name = c.name) (g : Grammar)
    (name : String) :
    ({ g with colors := g.colors.map f } : Grammar).color? name = (g.color? name).map f := by
  unfold color?
  rw [List.find?_map]
  congr 2
  funext c
  simp [hf]

theorem withColor_of_mem {t : Token} (h : (g.colors.map (·.name)).Nodup)
    (hmem : t.name ∈ g.colors.map (·.name)) : g.withColor t =
      { g with colors := g.colors.map fun c => if c.name = t.name then t else c } := by
  rw [withColor, replaceNamed?_eq h, if_pos hmem]

theorem withColor_of_not_mem {t : Token} (h : (g.colors.map (·.name)).Nodup)
    (hmem : t.name ∉ g.colors.map (·.name)) :
    g.withColor t = { g with colors := g.colors ++ [t] } := by
  rw [withColor, replaceNamed?_eq h, if_neg hmem]

/-! ## Giving colours -/

/-- What `tokens`, given one after the other, leave as the colours of the grammar `g`: one colour
for each name, in the order in which the names came up first, and it is the last token of that
name. -/
structure Gathers (g : Grammar) (tokens : List Token) : Prop where
  distinct : (g.colors.map (·.name)).Nodup
  order : g.colors.map (·.name) = (tokens.map (·.name)).eraseDups
  last : ∀ n, g.color? n = tokens.reverse.find? (·.name == n)

theorem gathers_nil (name : String) (extensions : List String) :
    Gathers { name, extensions } [] :=
  ⟨.nil, rfl, fun _ => rfl⟩

namespace Gathers

theorem mem_names (h : g.Gathers tokens) (n : String) :
    n ∈ g.colors.map (·.name) ↔ n ∈ tokens.map (·.name) := by
  rw [h.order, List.mem_eraseDups]

/-- A name without a colour is a name that never came up. -/
theorem absent (h : g.Gathers tokens) (n : String) :
    g.color? n = none ↔ n ∉ tokens.map (·.name) := by
  rw [h.last, find?_key_eq_none_iff, List.map_reverse, List.mem_reverse]

/-- What stands under the name `n`, when one more colour is given. -/
theorem last_concat (h : g.Gathers tokens) (t : Token) (n : String) :
    (tokens ++ [t]).reverse.find? (·.name == n) = if n = t.name then some t else g.color? n := by
  rw [find?_key_concat, h.last n]

/-- **A colour of a name that came up** takes the place of that name. -/
theorem withColor_known (h : g.Gathers tokens) {t : Token}
    (hmem : t.name ∈ g.colors.map (·.name)) : (g.withColor t).Gathers (tokens ++ [t]) := by
  have hkeep : ∀ c : Token, (if c.name = t.name then t else c).name = c.name := by
    intro c
    split_ifs with hc
    · exact hc.symm
    · rfl
  have hnames : (g.colors.map fun c => if c.name = t.name then t else c).map (·.name) =
      g.colors.map (·.name) := by
    rw [List.map_map]
    exact List.map_congr_left fun c _ => hkeep c
  have hcame : t.name ∈ tokens.map (·.name) := (h.mem_names t.name).1 hmem
  rw [withColor_of_mem h.distinct hmem]
  refine ⟨hnames ▸ h.distinct, ?_, fun n => ?_⟩
  · rw [hnames, List.map_append, List.map_singleton, eraseDups_concat, if_pos hcame, h.order]
  · rw [h.last_concat, color?_map hkeep]
    cases hn : g.color? n with
    | none =>
      have hne : n ≠ t.name := fun heq => (h.absent n).1 hn (heq ▸ hcame)
      rw [if_neg hne, Option.map_none]
    | some c =>
      rw [Option.map_some, (of_find?_key hn).2]
      split_ifs <;> rfl

/-- **A colour of a new name** comes last. -/
theorem withColor_new (h : g.Gathers tokens) {t : Token}
    (hmem : t.name ∉ g.colors.map (·.name)) : (g.withColor t).Gathers (tokens ++ [t]) := by
  have hnew : t.name ∉ tokens.map (·.name) := mt (h.mem_names t.name).2 hmem
  rw [withColor_of_not_mem h.distinct hmem]
  refine ⟨?_, ?_, fun n => ?_⟩
  · rw [List.map_append, List.map_singleton, ← List.concat_eq_append]
    exact h.distinct.concat hmem
  · rw [List.map_append, List.map_append, List.map_singleton, eraseDups_concat, if_neg hnew,
      h.order]
  · rw [h.last_concat, color?, List.find?_append, ← color?]
    by_cases hn : n = t.name
    · have hnone : g.color? n = none := (h.absent n).2 (hn ▸ hnew)
      simp [hn ▸ hnone, hn]
    · simp [hn, Ne.symm hn]

/-- **One more colour.** -/
theorem withColor (h : g.Gathers tokens) (t : Token) :
    (g.withColor t).Gathers (tokens ++ [t]) := by
  by_cases hmem : t.name ∈ g.colors.map (·.name)
  · exact h.withColor_known hmem
  · exact h.withColor_new hmem

/-- **Any number of colours.** -/
theorem foldl_withColor (h : g.Gathers tokens) (more : List Token) :
    (more.foldl Grammar.withColor g).Gathers (tokens ++ more) := by
  induction more generalizing g tokens with
  | nil => simpa using h
  | cons t more ih =>
    have hnext := ih (h.withColor t)
    rwa [List.append_assoc] at hnext

end Gathers

/-- `withColor` gives colours to a grammar of the same name and extensions. -/
theorem withColor_eq (g : Grammar) (t : Token) :
    g.withColor t = { g with colors := (g.withColor t).colors } := by
  unfold Grammar.withColor
  split <;> rfl

theorem foldl_withColor_eq (g : Grammar) (tokens : List Token) :
    tokens.foldl Grammar.withColor g =
      { g with colors := (tokens.foldl Grammar.withColor g).colors } := by
  induction tokens generalizing g with
  | nil => rfl
  | cons t tokens ih =>
    rw [List.foldl_cons, ih, withColor_eq]

/-- What a grammar that `Gathers` some tokens shows. -/
structure Shows (g : Grammar) (tokens : List Token) : Prop extends g.Gathers tokens where
  listed : ∀ c ∈ g.colors, g.color? c.name = some c
  absent : ∀ n, g.color? n = none ↔ n ∉ tokens.map (·.name)

theorem Gathers.shows (h : g.Gathers tokens) : g.Shows tokens where
  toGathers := h
  listed := fun _ hc => (find?_key_eq_some_iff h.distinct).2 ⟨hc, rfl⟩
  absent := h.absent

/-- The tokens that a grammar gathers leave no choice of colours. -/
theorem Gathers.colors_eq (h : g.Gathers tokens) : g.colors =
    (tokens.map (·.name)).eraseDups.filterMap fun n => tokens.reverse.find? (·.name == n) := by
  calc g.colors = g.colors.filterMap some := List.filterMap_some.symm
    _ = g.colors.filterMap fun c => tokens.reverse.find? (·.name == c.name) :=
      List.filterMap_congr fun c hc => by rw [← h.last, h.shows.listed c hc]
    _ = (g.colors.map (·.name)).filterMap fun n => tokens.reverse.find? (·.name == n) := by
      rw [List.filterMap_map]
      rfl
    _ = _ := by rw [h.order]

end Grammar

/-! ## The colours of a definition -/

namespace Definition.ColorEntry

/-- What is wrong with `value`, if it is there and `parse` refuses it. -/
def defect? {α ε : Type} (parse : String → Except ε α) (cause : ε → GrammarError)
    (value : Option String) : Option GrammarError :=
  value.bind fun v =>
    match parse v with
    | .ok _ => none
    | .error e => some (cause e)

/-- What `value` says, if it is there and `parse` can read it. -/
def value? {α ε : Type} (parse : String → Except ε α) (value : Option String) : Option α :=
  value.bind fun v => (parse v).toOption

/-- Everything that is wrong with the colour `c`: its foreground, its background, its weight, its
slope and its underline, in this order. -/
def defects (c : ColorEntry) : List GrammarError :=
  [defect? Brush.parse (.brush c.name) c.foreground,
   defect? Brush.parse (.brush c.name) c.background,
   defect? FontWeight.parse (.style c.name) c.fontWeight,
   defect? FontStyle.parse (.style c.name) c.fontStyle,
   defect? Underline.parse (.style c.name) c.underline].filterMap id

/-- The token that the colour `c` declares. -/
def style (c : ColorEntry) : Token where
  name := c.name
  foreground := value? Brush.parse c.foreground
  background := value? Brush.parse c.background
  fontWeight := value? FontWeight.parse c.fontWeight
  fontStyle := value? FontStyle.parse c.fontStyle
  underline := value? Underline.parse c.underline

theorem optional_eq {α ε : Type} (parse : String → Except ε α) (cause : ε → GrammarError)
    (value : Option String) : optional parse cause value =
      match defect? parse cause value with
      | some e => .error e
      | none => .ok (value? parse value) := by
  cases value with
  | none => rfl
  | some v =>
    simp only [optional, defect?, value?, Option.bind_some]
    cases parse v with
    | ok a => rfl
    | error e => rfl

/-- **The token of a colour**, its `style`, or the first of its `defects`. -/
theorem token_eq (c : ColorEntry) : c.token =
    match c.defects with
    | e :: _ => .error e
    | [] => .ok c.style := by
  simp only [token, optional_eq, defects]
  cases defect? Brush.parse (.brush c.name) c.foreground with
  | some e => rfl
  | none =>
  cases defect? Brush.parse (.brush c.name) c.background with
  | some e => rfl
  | none =>
  cases defect? FontWeight.parse (.style c.name) c.fontWeight with
  | some e => rfl
  | none =>
  cases defect? FontStyle.parse (.style c.name) c.fontStyle with
  | some e => rfl
  | none =>
  cases defect? Underline.parse (.style c.name) c.underline with
  | some e => rfl
  | none => rfl

end Definition.ColorEntry

/-- How a definition is to be answered: with the first of the `defects` of its first defective
colour, or else with the grammar of its name and extensions that gathers the tokens of its
colours. -/
structure Definition.AnsweredBy (d : Definition) (result : Except GrammarError Grammar) : Prop where
  refused : ∀ e, result = .error e ↔ (d.colors.flatMap (·.defects)).head? = some e
  accepted : ∀ g, result = .ok g ↔ d.colors.flatMap (·.defects) = [] ∧ g.name = d.name ∧
    g.extensions = (d.extensions.map Extension.split).getD [] ∧
    g.Shows (d.colors.map (·.style))

namespace Grammar

/-- **`addEntry` refuses a colour** for its first defect, and otherwise gives its token. -/
theorem addEntry_cases (g : Grammar) (c : Definition.ColorEntry) :
    (∃ e more, c.defects = e :: more ∧ addEntry g c = .error e) ∨
      (c.defects = [] ∧ addEntry g c = .ok (g.withColor c.style)) := by
  rw [addEntry, c.token_eq]
  cases c.defects with
  | nil => exact .inr ⟨rfl, rfl⟩
  | cons e more => exact .inl ⟨e, more, rfl, rfl⟩

/-- `ofDefinition` refuses a definition for the first defect in it, and otherwise gives the tokens
of its colours in order. -/
theorem ofDefinition_eq (d : Definition) : ofDefinition d =
    match d.colors.flatMap (·.defects) with
    | e :: _ => .error e
    | [] => .ok ((d.colors.map (·.style)).foldl withColor
        { name := d.name, extensions := (d.extensions.map Extension.split).getD [] }) := by
  set start : Grammar :=
    { name := d.name, extensions := (d.extensions.map Extension.split).getD [] } with hstart
  have hcases := Overlay.foldlM_flatMap_cases (s := start) (·.defects)
    (fun g earlier => g = (earlier.map (·.style)).foldl withColor start)
    (fun g earlier c hg => (addEntry_cases g c).imp id fun ⟨hnone, hadd⟩ =>
      ⟨hnone, _, hadd, by rw [List.map_append, List.foldl_append, ← hg]; rfl⟩) rfl d.colors
  unfold ofDefinition
  rw [← hstart]
  rcases hcases with ⟨e, more, hdefects, hf⟩ | ⟨hdefects, g, hf, rfl⟩
  · rw [hdefects, hf]
  · rw [hdefects, hf]

/-- Grammars with the same name and extensions that gather the same tokens are the same. -/
theorem Gathers.unique {g' : Grammar} (h : g.Gathers tokens) (h' : g'.Gathers tokens)
    (hname : g'.name = g.name) (hextensions : g'.extensions = g.extensions) : g' = g := by
  have hcolors : g'.colors = g.colors := h'.colors_eq.trans h.colors_eq.symm
  obtain ⟨name, extensions, colors⟩ := g
  obtain ⟨name', extensions', colors'⟩ := g'
  obtain rfl : name' = name := hname
  obtain rfl : extensions' = extensions := hextensions
  obtain rfl : colors' = colors := hcolors
  rfl

/-- **A definition is read** as the grammar that gathers its tokens, or refused for its first
defect. -/
theorem ofDefinition_answers (d : Definition) : d.AnsweredBy (ofDefinition d) := by
  rw [ofDefinition_eq]
  cases hdefects : d.colors.flatMap (·.defects) with
  | cons e more => exact ⟨fun e' => by simp [hdefects], fun g => by simp [hdefects]⟩
  | nil =>
    have hgathers := (gathers_nil d.name
      ((d.extensions.map Extension.split).getD [])).foldl_withColor (d.colors.map (·.style))
    rw [List.nil_append, foldl_withColor_eq] at hgathers
    refine ⟨fun e => by simp [hdefects], fun g => ?_⟩
    rw [foldl_withColor_eq, Except.ok.injEq, hdefects]
    constructor
    · rintro rfl
      exact ⟨rfl, rfl, rfl, hgathers.shows⟩
    · rintro ⟨-, hname, hextensions, hshows⟩
      exact (hgathers.unique hshows.toGathers hname hextensions).symm

/-- **The colours of base grammars.** A text that can be decoded is answered as its definition is to
be, and one that cannot is refused for that. A grammar that is given any tokens one after the other
gathers them, and keeps its name and extensions. -/
theorem colors_gathered [Markup.Decoders] (d : Definition) (name : String)
    (extensions : List String) (tokens : List Token) :
    d.AnsweredBy (ofDefinition d) ∧
    (∀ s, match Definition.read s with
      | .error fault => read s = .error (.decode fault)
      | .ok d' => d'.AnsweredBy (read s)) ∧
    (tokens.foldl withColor { name, extensions }).Shows tokens ∧
    (tokens.foldl withColor { name, extensions }).name = name ∧
    (tokens.foldl withColor { name, extensions }).extensions = extensions := by
  have hgathers := (gathers_nil name extensions).foldl_withColor tokens
  refine ⟨ofDefinition_answers d, fun s => ?_, hgathers.shows, ?_, ?_⟩
  · unfold read
    cases hread : Definition.read s with
    | error fault => rfl
    | ok d' => exact ofDefinition_answers d'
  · rw [foldl_withColor_eq]
  · rw [foldl_withColor_eq]

end Grammar

end Livery
