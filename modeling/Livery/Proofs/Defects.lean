import Livery.Proofs.Failures
import Livery.Proofs.Isolation

/-!
# The defects of a catalog

What a usable catalog has to be like, and everything that is wrong with another one, in the order in
which it is looked through: the themes, the choice of the current one, the grammars. An entry is
held against those before it.

* `defect?_eq`: a catalog is refused for the first of its defects.
* `defects_eq_nil_iff`: a catalog without defects is a usable one.
* `Registry.starts_ofCatalog`: the registry that is made of it.
* `Registry.catalog_accepted`: which catalogs are accepted, and why the others are not.
-/

namespace Livery

open Overlay (walk)

/-! ## What is wrong -/

/-- The defect `d`, if something is wrong. -/
def Catalog.raise (wrong : Prop) [Decidable wrong] (d : Defect) : List Defect :=
  if wrong then [d] else []

/-- What is wrong with the theme `t` behind the `earlier` ones. -/
def ThemeEntry.defects (earlier : List ThemeEntry) (t : ThemeEntry) : List Catalog.Defect :=
  [Catalog.raise (t.key = "") .emptyKey,
   Catalog.raise (t.key ∈ earlier.map (·.key)) (.duplicateKey t.key),
   Catalog.raise (t.basePrefix = "") (.emptyBase t.key),
   Catalog.raise (∃ r ∈ t.overlay, r.base = "" ∨ r.name = "") (.incompleteOverlay t.key)].flatten

/-- What is wrong with the grammar `g` behind the `earlier` ones. -/
def BuiltinGrammar.defects (earlier : List BuiltinGrammar) (g : BuiltinGrammar) :
    List Catalog.Defect :=
  [Catalog.raise (g.name = "" ∨ g.resource = "") .incompleteGrammar,
   Catalog.raise (g.name ∈ earlier.map (·.name)) (.duplicateGrammar g.name)].flatten

namespace Catalog

/-- Everything that is wrong with the catalog `c`, in the order in which it is looked through. -/
def defects (c : Catalog) : List Defect :=
  [raise (c.themes = []) .noThemes,
   walk ThemeEntry.defects [] c.themes,
   raise (c.current ∉ c.themes.map (·.key)) (.unknownCurrent c.current),
   walk BuiltinGrammar.defects [] c.grammars].flatten

/-- The catalog `c` is one that a registry can be made of. -/
structure Usable (c : Catalog) : Prop where
  themes : c.themes ≠ []
  keyed : ∀ t ∈ c.themes, t.key ≠ ""
  keys : (c.themes.map (·.key)).Nodup
  based : ∀ t ∈ c.themes, t.basePrefix ≠ ""
  overlays : ∀ t ∈ c.themes, ∀ r ∈ t.overlay, r.base ≠ "" ∧ r.name ≠ ""
  current : c.current ∈ c.themes.map (·.key)
  grammars : ∀ g ∈ c.grammars, g.name ≠ "" ∧ g.resource ≠ ""
  names : (c.grammars.map (·.name)).Nodup

section Raise

variable (wrong : Prop) [Decidable wrong] (d : Defect)

@[simp] theorem raise_eq_nil_iff : raise wrong d = [] ↔ ¬ wrong := by
  simp [raise]

@[simp] theorem head?_raise : (raise wrong d).head? = if wrong then some d else none := by
  unfold raise
  split_ifs <;> rfl

end Raise

/-! ## The first defect -/

/-- **A search that remembers names** finds the first defect of a `walk`, if it finds that of each
entry behind entries of the names it remembers. -/
theorem search_eq_head? {α : Type} {name : α → String} {defects : List α → α → List Defect}
    {one : List String → α → Option Defect} {search : List String → List α → Option Defect}
    (hone : ∀ {seen earlier} a, (∀ n, n ∈ seen ↔ n ∈ earlier.map name) →
      one seen a = (defects earlier a).head?)
    (hnil : ∀ seen, search seen [] = none)
    (hcons : ∀ seen a l, search seen (a :: l) = (one seen a).or (search (name a :: seen) l))
    {seen : List String} {earlier : List α} (hseen : ∀ n, n ∈ seen ↔ n ∈ earlier.map name)
    (l : List α) : search seen l = (walk defects earlier l).head? := by
  induction l generalizing seen earlier with
  | nil => exact hnil seen
  | cons a l ih =>
    have hnext : ∀ n, n ∈ name a :: seen ↔ n ∈ (earlier ++ [a]).map name := by
      intro n
      simp [hseen n, or_comm]
    rw [hcons, walk, List.head?_append, hone a hseen, ih hnext]

theorem all_isComplete_iff (overlay : Option ResourceName) :
    overlay.all isComplete = true ↔ ¬ ∃ r ∈ overlay, r.base = "" ∨ r.name = "" := by
  cases overlay <;> simp [isComplete]

theorem themeDefect?_eq {seen : List String} {earlier : List ThemeEntry} (t : ThemeEntry)
    (hseen : ∀ n, n ∈ seen ↔ n ∈ earlier.map (·.key)) :
    themeDefect? seen t = (t.defects earlier).head? := by
  simp only [themeDefect?, ThemeEntry.defects, hseen, List.flatten_cons, List.flatten_nil,
    List.head?_append, head?_raise, all_isComplete_iff, ite_not, List.head?_nil]
  split_ifs <;> rfl

theorem grammarDefect?_eq {seen : List String} {earlier : List BuiltinGrammar} (g : BuiltinGrammar)
    (hseen : ∀ n, n ∈ seen ↔ n ∈ earlier.map (·.name)) :
    grammarDefect? seen g = (g.defects earlier).head? := by
  simp only [grammarDefect?, BuiltinGrammar.defects, hseen, List.flatten_cons, List.flatten_nil,
    List.head?_append, head?_raise, List.head?_nil]
  split_ifs <;> rfl

theorem themesDefect?_eq (ts : List ThemeEntry) :
    themesDefect? [] ts = (walk ThemeEntry.defects [] ts).head? := by
  refine search_eq_head? themeDefect?_eq (fun _ => rfl) (fun seen t ts => ?_) (by simp) ts
  rw [themesDefect?]
  cases themeDefect? seen t <;> rfl

theorem grammarsDefect?_eq (gs : List BuiltinGrammar) :
    grammarsDefect? [] gs = (walk BuiltinGrammar.defects [] gs).head? := by
  refine search_eq_head? grammarDefect?_eq (fun _ => rfl) (fun seen g gs => ?_) (by simp) gs
  rw [grammarsDefect?]
  cases grammarDefect? seen g <;> rfl

/-- **What `defect?` finds wrong is the first defect.** -/
theorem defect?_eq (c : Catalog) : c.defect? = c.defects.head? := by
  simp only [defect?, defects, themesDefect?_eq, grammarsDefect?_eq, currentDefect?,
    List.flatten_cons, List.flatten_nil, List.head?_append, head?_raise, ite_not,
    List.append_nil]
  cases (walk ThemeEntry.defects [] c.themes).head? <;> split_ifs <;> rfl

theorem validate_eq (c : Catalog) : c.validate =
    match c.defects with
    | [] => .ok ()
    | d :: _ => .error (.catalog d.message) := by
  rw [validate, defect?_eq]
  cases c.defects <;> rfl

/-! ## No defect -/

/-- **A `walk` raises nothing** exactly if every entry passes and their names are different. -/
theorem walk_eq_nil_iff {α β : Type} {visit : List α → α → List β} {name : α → String}
    {P : α → Prop} (hvisit : ∀ earlier a, visit earlier a = [] ↔ P a ∧ name a ∉ earlier.map name)
    (l : List α) : walk visit [] l = [] ↔ (∀ a ∈ l, P a) ∧ (l.map name).Nodup := by
  constructor
  · intro h
    obtain ⟨hall, hnames, -⟩ := Overlay.of_walk_eq_nil (fun earlier a => (hvisit earlier a).1) h
    exact ⟨hall, hnames⟩
  · rintro ⟨hall, hnames⟩
    refine List.eq_nil_iff_forall_not_mem.2 fun b hb => ?_
    -- where something is raised, an entry does not pass or its name comes up before it
    obtain ⟨before, a, after, rfl, hraised⟩ := Overlay.mem_walk hb
    have ha : visit before a = [] := by
      refine (hvisit before a).2 ⟨hall a (by simp), fun hmem => ?_⟩
      rw [List.map_append, List.nodup_append] at hnames
      exact hnames.2.2 _ hmem _ (by simp) rfl
    rw [List.nil_append, ha] at hraised
    cases hraised

theorem themes_eq_nil_iff (ts : List ThemeEntry) : walk ThemeEntry.defects [] ts = [] ↔
    (∀ t ∈ ts, t.key ≠ "" ∧ t.basePrefix ≠ "" ∧ ∀ r ∈ t.overlay, r.base ≠ "" ∧ r.name ≠ "") ∧
      (ts.map (·.key)).Nodup := by
  refine walk_eq_nil_iff (fun earlier t => ?_) ts
  simp only [ThemeEntry.defects, List.flatten_cons, List.flatten_nil, List.append_eq_nil_iff,
    raise_eq_nil_iff, not_exists, not_and, not_or, and_true]
  tauto

theorem grammars_eq_nil_iff (gs : List BuiltinGrammar) :
    walk BuiltinGrammar.defects [] gs = [] ↔
      (∀ g ∈ gs, g.name ≠ "" ∧ g.resource ≠ "") ∧ (gs.map (·.name)).Nodup := by
  refine walk_eq_nil_iff (fun earlier g => ?_) gs
  simp only [BuiltinGrammar.defects, List.flatten_cons, List.flatten_nil, List.append_eq_nil_iff,
    raise_eq_nil_iff, not_or, and_true, ne_eq]

/-- **A catalog without `defects` is a usable one.** -/
theorem defects_eq_nil_iff (c : Catalog) : c.defects = [] ↔ c.Usable := by
  simp only [defects, List.flatten_cons, List.flatten_nil, List.append_eq_nil_iff,
    raise_eq_nil_iff, themes_eq_nil_iff, grammars_eq_nil_iff, not_not, and_true]
  constructor
  · rintro ⟨hne, ⟨hthemes, hkeys⟩, hcurrent, hgrammars, hnames⟩
    exact ⟨hne, fun t ht => (hthemes t ht).1, hkeys, fun t ht => (hthemes t ht).2.1,
      fun t ht => (hthemes t ht).2.2, hcurrent, hgrammars, hnames⟩
  · intro h
    exact ⟨h.themes, ⟨fun t ht => ⟨h.keyed t ht, h.based t ht, h.overlays t ht⟩, h.keys⟩,
      h.current, h.grammars, h.names⟩

theorem validate_eq_ok_iff (c : Catalog) : c.validate = .ok () ↔ c.Usable := by
  rw [validate_eq, ← defects_eq_nil_iff]
  cases c.defects <;> simp

theorem validate_eq_error_iff (c : Catalog) (e : ThemeError) : c.validate = .error e ↔
    ∃ d, c.defects.head? = some d ∧ e = .catalog d.message := by
  rw [validate_eq]
  cases c.defects <;> simp [eq_comm]

end Catalog

namespace Registry

variable {c : Catalog}

/-- The registry `r` as it is made of the catalog `c`: the themes in order, the chosen one current.
That one has all the grammars, in order, with their extensions and none of them read so far, and the
others have nothing yet. -/
structure Starts (c : Catalog) (r : Registry) : Prop where
  currentKey : r.currentKey = c.current
  keys : r.keys = c.themes.map (·.key)
  theme : ∃ e g, c.theme? c.current = some e ∧
    r.theme = { Theme.ofEntry e with grammars := g } ∧ g.IsStock e.basePrefix c.grammars
  others : ∀ (i : Nat) e, c.themes[i]? = some e → e.key ≠ c.current →
    r.themes[i]? = some (Theme.ofEntry e)

/-- **A usable catalog has a registry.** -/
theorem starts_ofCatalog (h : c.Usable) : ∃ r, ofCatalog c = .ok r ∧ r.Starts c := by
  have hv := c.validate_eq_ok_iff.2 h
  obtain ⟨r, hr⟩ := exists_ofCatalog hv
  obtain ⟨-, r₀, rfl, hthemes, hframe⟩ := of_ofCatalog hr
  obtain ⟨e, he, hkey⟩ := hframe.entry
  have hcurrent : e.key = c.current := hkey
  -- before the grammars come in, the current theme is as its entry declares it
  have htheme : r₀.theme = Theme.ofEntry e := by
    have hget := getElem?_current r₀
    rw [hthemes, List.getElem?_map, he, Option.map_some] at hget
    exact (Option.some.inj hget).symm
  obtain ⟨g, hfold, hstock⟩ := @Theme.isStock_fill (Theme.ofEntry e) [] c.grammars
    (GrammarTable.isStock_empty e.basePrefix) h.names
  rw [List.nil_append] at hstock
  refine ⟨_, hr, ?_, hframe.addBuiltins.keys, ⟨e, g, ?_, ?_, hstock⟩, ?_⟩
  · exact hframe.addBuiltins.current
  · rw [← hcurrent]
    exact Catalog.theme?_of_getElem? h.keys he
  · rw [addBuiltins, theme_withTheme, htheme, hframe.builtins, hfold]
  · intro i e' he' hne
    have hi : i ≠ r₀.current := by
      rintro rfl
      obtain rfl := Option.some.inj (he.symm.trans he')
      exact hne hcurrent
    rw [addBuiltins, getElem?_withTheme, if_neg hi, hthemes, List.getElem?_map, he',
      Option.map_some]

/-- **The catalogs that are accepted.** A catalog passes exactly if it is usable: it has themes,
their keys and bases are not empty and no two keys are the same, their overlays are complete, the
current theme is one of them, and the grammars have names and files, no two names being the same.
Another one is refused for the first thing that is wrong with it. A registry is refused for the same
reason and for no other, never because the current theme is not found, and it is made of every
usable catalog, as it should start. -/
theorem catalog_accepted (c : Catalog) :
    (c.validate = .ok () ↔ c.Usable) ∧
    (∀ e, c.validate = .error e ↔ ∃ d, c.defects.head? = some d ∧ e = .catalog d.message) ∧
    (∀ e, ofCatalog c = .error e ↔ c.validate = .error e) ∧
    (∀ key, ofCatalog c ≠ .error (.keyNotFound key)) ∧
    (c.Usable → ∃ r, ofCatalog c = .ok r ∧ r.Starts c) := by
  have hrefused : ∀ e, ofCatalog c = .error e ↔ c.validate = .error e := by
    intro e
    cases hv : c.validate with
    | error e' => simp [ofCatalog, hv]
    | ok =>
      obtain ⟨r, hr⟩ := exists_ofCatalog hv
      simp [hr]
  refine ⟨c.validate_eq_ok_iff, c.validate_eq_error_iff, hrefused, fun key hkey => ?_,
    starts_ofCatalog⟩
  obtain ⟨d, -, hd⟩ := (c.validate_eq_error_iff _).1 ((hrefused _).1 hkey)
  cases hd

end Registry

/-- The second theme repeats the key and has an overlay without a name, and nothing is current. -/
example : (Catalog.defects ⟨"Night", [{ key := "Day" },
    { key := "Day", basePrefix := "", overlay := some ⟨"o", ""⟩ }], []⟩) =
      [.duplicateKey "Day", .emptyBase "Day", .incompleteOverlay "Day",
        .unknownCurrent "Night"] := by
  decide

end Livery
