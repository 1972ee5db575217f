import Livery.Catalog.Validation

/-!
# What a valid catalog has

* `keys_nodup`, `grammarNames_nodup`: the keys of the themes are different, and so are the names of
  the grammars.
-/

namespace Livery.Catalog

/-- A `search` for a defect that remembers the names it has seen, and finds none, has seen each name
once. -/
theorem nodup_of_search {α : Type} {name : α → String} {one : List String → α → Option Defect}
    {search : List String → List α → Option Defect}
    (hone : ∀ seen a, one seen a = none → name a ∉ seen)
    (hcons : ∀ seen a l, search seen (a :: l) = none →
      one seen a = none ∧ search (name a :: seen) l = none)
    {seen : List String} {l : List α} (h : search seen l = none) :
    (l.map name).Nodup ∧ ∀ a ∈ l, name a ∉ seen := by
  induction l generalizing seen with
  | nil => simp
  | cons a l ih =>
    obtain ⟨ha, hl⟩ := hcons seen a l h
    obtain ⟨hnd, hfresh⟩ := ih hl
    -- what is seen later is not the first name, since that was remembered
    simp only [List.mem_cons, not_or] at hfresh
    refine ⟨List.nodup_cons.2 ⟨fun hmem => ?_, hnd⟩,
      List.forall_mem_cons.2 ⟨hone seen a ha, fun b hb => (hfresh b hb).2⟩⟩
    obtain ⟨b, hb, heq⟩ := List.mem_map.1 hmem
    exact (hfresh b hb).1 heq

theorem fresh_of_themeDefect? (seen : List String) (t : ThemeEntry)
    (h : themeDefect? seen t = none) : t.key ∉ seen := by
  unfold themeDefect? at h
  split at h
  · cases h
  · split at h
    · cases h
    · assumption

theorem fresh_of_grammarDefect? (seen : List String) (g : BuiltinGrammar)
    (h : grammarDefect? seen g = none) : g.name ∉ seen := by
  unfold grammarDefect? at h
  split at h
  · cases h
  · split at h
    · cases h
    · assumption

theorem of_themesDefect?_cons (seen : List String) (t : ThemeEntry) (ts : List ThemeEntry)
    (h : themesDefect? seen (t :: ts) = none) :
    themeDefect? seen t = none ∧ themesDefect? (t.key :: seen) ts = none := by
  unfold themesDefect? at h
  split at h
  · cases h
  · exact ⟨by assumption, h⟩

theorem of_grammarsDefect?_cons (seen : List String) (g : BuiltinGrammar)
    (gs : List BuiltinGrammar) (h : grammarsDefect? seen (g :: gs) = none) :
    grammarDefect? seen g = none ∧ grammarsDefect? (g.name :: seen) gs = none := by
  unfold grammarsDefect? at h
  split at h
  · cases h
  · exact ⟨by assumption, h⟩

/-- The parts of a catalog that passes `validate` have no defect. -/
theorem of_validate {c : Catalog} (h : c.validate = .ok ()) :
    themesDefect? [] c.themes = none ∧ c.current ∈ c.themes.map (·.key) ∧
      grammarsDefect? [] c.grammars = none := by
  have hd : c.defect? = none := by
    unfold validate at h
    split at h
    · cases h
    · assumption
  unfold defect? at hd
  split at hd
  · cases hd
  · split at hd
    · cases hd
    · next ht =>
      split at hd
      · cases hd
      · next hc =>
        unfold currentDefect? at hc
        split at hc
        · exact ⟨ht, by assumption, hd⟩
        · cases hc

/-- A catalog whose parts have no defect passes `validate`. -/
theorem validate_of {c : Catalog} (hthemes : themesDefect? [] c.themes = none)
    (hcurrent : c.current ∈ c.themes.map (·.key))
    (hgrammars : grammarsDefect? [] c.grammars = none) : c.validate = .ok () := by
  have hne : c.themes ≠ [] := by
    intro hnil
    rw [hnil] at hcurrent
    cases hcurrent
  have hd : c.defect? = none := by
    simp only [defect?, if_neg hne, hthemes, currentDefect?, if_pos hcurrent, hgrammars]
  simp only [validate, hd]

/-- The themes of a catalog that passes `validate` have different keys. -/
theorem keys_nodup {c : Catalog} (h : c.validate = .ok ()) : (c.themes.map (·.key)).Nodup :=
  (nodup_of_search fresh_of_themeDefect? of_themesDefect?_cons (of_validate h).1).1

/-- The grammars of a catalog that passes `validate` have different names. -/
theorem grammarNames_nodup {c : Catalog} (h : c.validate = .ok ()) :
    (c.grammars.map (·.name)).Nodup :=
  (nodup_of_search fresh_of_grammarDefect? of_grammarsDefect?_cons (of_validate h).2.2).1

end Livery.Catalog
