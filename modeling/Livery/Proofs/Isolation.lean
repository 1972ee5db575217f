import Livery.Libraries
import Livery.Proofs.Once

/-!
# Themes do not touch each other

A call changes the theme that is current behind it and no other one. A theme gets the grammars of
the catalog when it first becomes current, and nothing when it becomes so again: until then it is as
its entry declares it, and from then on it knows them all.

* `Step.elsewhere`: what a call leaves alone.
* `shelved_run`: a theme that was never current.
* `spared_run`: a theme under which nothing is called, however often it is switched to and from.
* `themes_isolated`: all this for every run.
-/

namespace Livery

/-! ## The grammars of a catalog in a table -/

namespace GrammarTable

/-- The last of the grammars `bs` that lists an extension, given by its key `x`. -/
def lastWith (bs : List BuiltinGrammar) (x : String) : Option BuiltinGrammar :=
  bs.reverse.find? fun b => (b.extensions.map Extension.normalize).contains x

/-- The table `g` holds exactly the grammars `bs`, in this order. All of them are deferred, to be
read from `base`, and an extension belongs to the last one that lists it. -/
structure IsStock (base : String) (bs : List BuiltinGrammar) (g : GrammarTable) : Prop where
  order : g.order = bs.map (·.name)
  slots : ∀ i b, bs[i]? = some b →
    g.get? b.name = some ⟨i, .deferred (.resource ⟨base, b.resource⟩)⟩
  others : ∀ n, n ∉ bs.map (·.name) → g.get? n = none
  owners : ∀ x, g.owners.get? x = (lastWith bs x).map (·.name)
  nextTicket : g.nextTicket = bs.length

variable {base : String} {bs : List BuiltinGrammar} {g : GrammarTable}

theorem isStock_empty (base : String) : IsStock base [] {} := by
  refine ⟨rfl, fun i b hb => ?_, fun n _ => rfl, fun x => rfl, rfl⟩
  simp at hb

/-- One more grammar `b` of another name comes last. -/
theorem IsStock.register (h : g.IsStock base bs) {b : BuiltinGrammar}
    (hnew : b.name ∉ bs.map (·.name)) :
    (g.register b.name b.extensions (.deferred (.resource ⟨base, b.resource⟩))).IsStock base
      (bs ++ [b]) := by
  have hnone : g.get? b.name = none := h.others b.name hnew
  refine ⟨?_, fun i b' hb' => ?_, fun n hn => ?_, fun x => ?_, ?_⟩
  · have hunknown : g.contains b.name = false := by
      rw [contains, NameMap.contains, show g.registrations.get? b.name = none from hnone]
      rfl
    simp [GrammarTable.register, hunknown, h.order]
  · rw [get?_register]
    rcases Nat.lt_or_ge i bs.length with hi | hi
    · -- the names before it are other names
      rw [List.getElem?_append_left hi] at hb'
      have hne : b'.name ≠ b.name := fun heq =>
        hnew (List.mem_map.2 ⟨b', List.mem_of_getElem? hb', heq⟩)
      rw [if_neg hne, h.slots i b' hb']
    · have hlt : i < (bs ++ [b]).length := (List.getElem?_eq_some_iff.1 hb').1
      have hlen : i = bs.length := by
        rw [List.length_append, List.length_singleton] at hlt
        omega
      subst hlen
      obtain rfl : b = b' := by simpa using hb'
      rw [if_pos rfl, h.nextTicket]
  · rw [List.map_append, List.mem_append, not_or] at hn
    have hne : n ≠ b.name := by simpa using hn.2
    rw [get?_register, if_neg hne, h.others n hn.1]
  · have howners : (g.register b.name b.extensions
        (.deferred (.resource ⟨base, b.resource⟩))).owners =
          b.extensions.foldl (grant b.name) g.owners := rfl
    rw [howners, get?_foldl_grant, h.owners, lastWith, lastWith, List.reverse_append,
      List.reverse_singleton, List.singleton_append, List.find?_cons]
    by_cases hx : x ∈ b.extensions.map Extension.normalize
    · rw [if_pos hx,
        show (b.extensions.map Extension.normalize).contains x = true by simpa using hx]
      rfl
    · rw [if_neg hx,
        show (b.extensions.map Extension.normalize).contains x = false by simpa using hx]
  · simp [GrammarTable.register, h.nextTicket]

end GrammarTable

/-- **A theme that becomes current gets the grammars of the catalog**, behind those it has of them
already. -/
theorem Theme.isStock_fill {t : Theme} {stocked bs : List BuiltinGrammar}
    (h : t.grammars.IsStock t.basePrefix stocked) (hnd : ((stocked ++ bs).map (·.name)).Nodup) :
    ∃ g, bs.foldl Registry.addBuiltin t = { t with grammars := g } ∧
      g.IsStock t.basePrefix (stocked ++ bs) := by
  induction bs generalizing t stocked with
  | nil => exact ⟨t.grammars, rfl, by rwa [List.append_nil]⟩
  | cons b bs ih =>
    rw [List.append_cons] at hnd ⊢
    have hnew : b.name ∉ stocked.map (·.name) := by
      intro hmem
      rw [List.map_append, List.map_append, List.nodup_append, List.nodup_append] at hnd
      exact hnd.1.2.2 b.name hmem b.name (by simp) rfl
    have hunknown : t.contains b.name = false := by
      have hnone : t.grammars.registrations.get? b.name = none := h.others b.name hnew
      rw [Theme.contains, GrammarTable.contains, NameMap.contains, hnone]
      rfl
    rw [List.foldl_cons, Registry.addBuiltin, if_neg (by simp [hunknown])]
    obtain ⟨g, hfold, hstock⟩ := @ih
      (t.registerDeferred b.name b.extensions (.resource ⟨t.basePrefix, b.resource⟩)) _
      (h.register hnew) hnd
    exact ⟨g, hfold, hstock⟩

namespace Registry

variable {env : Environment} {c : Catalog} {calls : List Call} {call : Call} {r r' r₀ : Registry}
  {j j' : Journal}

/-! ## One call -/

/-- **A call changes no theme but the one that is `current` behind it.** -/
theorem Step.elsewhere [Markup.Decoders] (h : Step env r j call r' j') {i : Nat}
    (hi : i ≠ r'.current) : r'.themes[i]? = r.themes[i]? := by
  cases h with
  | look _ _ hm =>
    have hne : i ≠ r.current := hi
    rw [getElem?_withTheme, if_neg hne]
  | register =>
    have hne : i ≠ r.current := hi
    rw [getElem?_withTheme, if_neg hne]
  | @select key k hk =>
    have hne : i ≠ ({ r with current := k.1, current_lt := k.2 } : Registry).current := hi
    rw [addBuiltins, getElem?_withTheme, if_neg hne]
  | unknown => rfl

/-- Only a selection makes another theme `current`. -/
theorem Step.current_eq [Markup.Decoders] (h : Step env r j call r' j')
    (hsel : call.selects? = none) : r'.current = r.current := by
  cases h with
  | look => rfl
  | register => rfl
  | select => cases hsel
  | unknown => rfl

theorem Step.builtins_eq [Markup.Decoders] (h : Step env r j call r' j') :
    r'.builtins = r.builtins := by
  cases h <;> rfl

/-- A theme that knows the `builtins` becomes current as it is. -/
theorem addBuiltins_known (h : ∀ b ∈ r.builtins, r.theme.contains b.name = true) :
    addBuiltins r = r := by
  rw [addBuiltins, Theme.foldl_addBuiltin_known h, withTheme_theme]

/-! ## Themes that were never current -/

/-- The registry `r` behind `calls`: a theme that was never current is as its entry declares it. -/
structure Shelved (c : Catalog) (calls : List Call) (r : Registry) : Prop
    extends Frame c calls r where
  untouched : ∀ (i : Nat) e, c.themes[i]? = some e → c.visited calls e.key = false →
    r.themes[i]? = some (Theme.ofEntry e)

/-- A theme that is not `visited` is not the current one. -/
theorem Frame.unvisited_ne (h : Frame c calls r) {i : Nat} {e : ThemeEntry}
    (he : c.themes[i]? = some e) (hv : c.visited calls e.key = false) : i ≠ r.current := by
  rintro rfl
  obtain ⟨e', he', hkey⟩ := h.entry
  obtain rfl : e = e' := Option.some.inj (he.symm.trans he')
  rw [Catalog.visited_current hkey.symm] at hv
  cases hv

theorem Shelved.step [Markup.Decoders] (h : Shelved c calls r) (hstep : Step env r j call r' j') :
    Shelved c (calls ++ [call]) r' := by
  have hframe := h.toFrame.step hstep
  refine ⟨hframe, fun i e he hv => ?_⟩
  have hbefore : c.visited calls e.key = false := by
    rw [Catalog.visited_snoc, Bool.or_eq_false_iff] at hv
    exact hv.1
  rw [hstep.elsewhere (hframe.unvisited_ne he hv)]
  exact h.untouched i e he hbefore

/-- **A run leaves themes alone that never become current.** -/
theorem shelved_run [Markup.Decoders] (h : Shelved c calls r) (env : Environment) (j : Journal)
    (more : List Call) : Shelved c (calls ++ more) (run env r j more).1 := by
  induction more generalizing calls r j with
  | nil => rw [List.append_nil]; exact h
  | cons call more ih =>
    have := ih (h.step (step_cases env r j call)) (Registry.step env r j call).2.1
    rwa [List.append_assoc, List.singleton_append] at this

theorem shelved_ofCatalog (hc : ofCatalog c = .ok r) : Shelved c [] r := by
  obtain ⟨-, r₁, rfl, hthemes, hframe⟩ := of_ofCatalog hc
  refine ⟨hframe.addBuiltins, fun i e he hv => ?_⟩
  rw [addBuiltins, getElem?_withTheme, if_neg (hframe.unvisited_ne he hv), hthemes,
    List.getElem?_map, he, Option.map_some]

/-! ## Themes that were current before -/

/-- A theme that was `visited` knows the grammars of the catalog. -/
theorem Tracked.known (h : Tracked c calls r j) {i : Nat} {e : ThemeEntry} {t : Theme}
    (he : c.themes[i]? = some e) (ht : r.themes[i]? = some t)
    (hv : c.visited calls e.key = true) : ∀ b ∈ r.builtins, t.contains b.name = true := by
  intro b hb
  rw [h.builtins] at hb
  rw [(h.themes i e t he ht).known, Catalog.ledger_visited hv, List.map_append, List.mem_append,
    Catalog.stockOf, List.map_map]
  exact .inl (List.mem_map.2 ⟨b, hb, rfl⟩)

/-- To select a theme that was `visited` before is to make it current, and no more. -/
theorem Tracked.select_again (h : Tracked c calls r j) {e : ThemeEntry}
    {i : { i : Nat // i < r.themes.length }} (he : c.themes[i.1]? = some e)
    (hv : c.visited calls e.key = true) :
    addBuiltins { r with current := i.1, current_lt := i.2 } =
      { r with current := i.1, current_lt := i.2 } :=
  addBuiltins_known (h.known he (List.getElem?_eq_getElem i.2) hv)

/-- A call leaves a theme alone that was `visited` before, if it is made under another theme or
selects one. -/
theorem Tracked.spared [Markup.Decoders] (h : Tracked c calls r j)
    (hnd : (c.themes.map (·.key)).Nodup) {k : Nat}
    {e : ThemeEntry} (he : c.themes[k]? = some e) (hv : c.visited calls e.key = true)
    (hstep : Step env r j call r' j')
    (hspare : call.selects? = none → c.currentAfter calls ≠ e.key) :
    r'.themes[k]? = r.themes[k]? := by
  by_cases hk : k = r'.current
  · cases hsel : call.selects? with
    | none =>
      -- the call is made under this very theme
      have hcurrent : r.current = k := (hstep.current_eq hsel).symm.trans hk.symm
      have hkey := (h.toFrame.current_iff hnd he).1 hcurrent
      exact absurd (h.current.symm.trans hkey) (hspare hsel)
    | some key =>
      cases hstep with
      | look _ hsel' => rw [hsel] at hsel'; cases hsel'
      | register _ _ _ hsel' => rw [hsel] at hsel'; cases hsel'
      | @select key' i hi =>
        subst hk
        rw [h.select_again he hv]
      | unknown => rfl
  · exact hstep.elsewhere hk

/-- **A theme under which nothing is called stays as it is**, however often it is switched to and
from. -/
theorem spared_run [Markup.Decoders] (h : Tracked c calls r j) (hnd : (c.themes.map (·.key)).Nodup)
    (hnames : (c.grammars.map (·.name)).Nodup) {k : Nat} {e : ThemeEntry}
    (he : c.themes[k]? = some e) (hv : c.visited calls e.key = true) {more : List Call}
    (hspare : ∀ p call, p ++ [call] <+: more → call.selects? = none →
      c.currentAfter (calls ++ p) ≠ e.key) :
    (run env r j more).1.themes[k]? = r.themes[k]? := by
  induction more generalizing calls r j with
  | nil => rfl
  | cons call more ih =>
    have hfirst : call.selects? = none → c.currentAfter calls ≠ e.key := by
      intro hsel
      have := hspare [] call (by simp) hsel
      rwa [List.append_nil] at this
    have hv' : c.visited (calls ++ [call]) e.key = true := by
      rw [Catalog.visited_snoc, hv, Bool.true_or]
    have hrest := ih (h.step hnd hnames env call) hv' fun p call' hp hsel => by
      have := hspare (call :: p) call' (by simpa using hp) hsel
      rwa [List.append_assoc, List.singleton_append]
    exact hrest.trans (h.spared hnd he hv (step_cases env r j call) hfirst)

/-! ## Every run -/

/-- The place of a theme is found by its key. -/
theorem Frame.indexOf? (h : Frame c calls r) (hnd : (c.themes.map (·.key)).Nodup) {k : Nat}
    {e : ThemeEntry} (he : c.themes[k]? = some e) :
    ∃ hk : k < r.themes.length, Registry.indexOf? r.themes e.key = some ⟨k, hk⟩ := by
  cases hi : Registry.indexOf? r.themes e.key with
  | none =>
    have hmem : e.key ∈ r.themes.map (·.key) := by
      rw [h.keys]
      exact List.mem_map_of_mem (List.mem_of_getElem? he)
    exact absurd hmem (indexOf?_none hi)
  | some i =>
    have hget := List.getElem?_eq_getElem i.2
    obtain ⟨e', he', hentry⟩ := h.declared hget
    have hkey : e'.key = e.key := (congrArg Prod.fst hentry).symm.trans (indexOf?_some hi)
    obtain rfl : i.1 = k := Catalog.place_unique hnd he' he hkey
    exact ⟨i.2, rfl⟩

/-- What it is to `select` a theme: it becomes current, and that is noted. A theme that was current
before stays as it is, and so do all others. One that was not has had an empty table, and gets the
grammars of the catalog. -/
structure Selects (c : Catalog) (pre : List Call) (r r' : Registry) (k : Nat) (e : ThemeEntry) :
    Prop where
  current : r'.current = k
  currentKey : r'.currentKey = e.key
  again : c.visited pre e.key = true → r'.themes = r.themes
  first : c.visited pre e.key = false → ∃ t g, r.themes[k]? = some t ∧ t.grammars = {} ∧
    r'.theme = { t with grammars := g } ∧ g.IsStock e.basePrefix c.grammars

/-- To `select` a theme of the catalog is what `Selects` says. -/
theorem selects [Markup.Decoders] (h : Shelved c calls r) (ht : Tracked c calls r j)
    (hnd : (c.themes.map (·.key)).Nodup) (hnames : (c.grammars.map (·.name)).Nodup)
    (env : Environment) {k : Nat} {e : ThemeEntry} (he : c.themes[k]? = some e) :
    ∃ r', step env r j (.select e.key) =
        (r', j ++ [.noted (.themeChanged e.key)], ⟨.ok .done, []⟩) ∧
      Selects c calls r r' k e := by
  obtain ⟨hk, hi⟩ := h.toFrame.indexOf? hnd he
  refine ⟨addBuiltins { r with current := k, current_lt := hk }, ?_, rfl, ?_, fun hv => ?_,
    fun hv => ?_⟩
  · simp only [step, replying, select, hi]
    rfl
  · have hkey := ((h.toFrame.select hi).addBuiltins).current
    rw [Catalog.currentAfter_snoc, Catalog.currentBehind] at hkey
    rw [Registry.currentKey]
    simpa [Call.selects?, List.mem_map_of_mem (f := (·.key)) (List.mem_of_getElem? he)] using hkey
  · rw [ht.select_again (i := ⟨k, hk⟩) he hv]
  · have hget := h.untouched k e he hv
    have htheme : ({ r with current := k, current_lt := hk } : Registry).theme =
        Theme.ofEntry e := by
      rw [List.getElem?_eq_getElem hk] at hget
      exact Option.some.inj hget
    have hempty : (Theme.ofEntry e).grammars.IsStock e.basePrefix [] :=
      GrammarTable.isStock_empty e.basePrefix
    obtain ⟨g, hfold, hstock⟩ := @Theme.isStock_fill (Theme.ofEntry e) [] c.grammars hempty hnames
    rw [List.nil_append] at hstock
    refine ⟨Theme.ofEntry e, g, hget, rfl, ?_, hstock⟩
    rw [addBuiltins, theme_withTheme, htheme, ← hfold, h.builtins]

/-- **Themes do not touch each other.** Take the registry behind any calls on one of a catalog. Its
themes are those of the catalog, in order, and the one that was asked for last is current. A call
changes no theme but the one that is current behind it, and only a selection makes another one
current. To select an unknown key is refused, and changes and notes nothing; to select a known one
does what `Selects` says. A theme under which nothing is called is the same when it is switched back
to, whatever is called under the others. -/
theorem themes_isolated [Markup.Decoders] (hc : ofCatalog c = .ok r₀) (env : Environment)
    (pre : List Call) :
    let r := (run env r₀ [] pre).1
    let j := (run env r₀ [] pre).2.1
    r.keys = c.themes.map (·.key) ∧
    (∃ e, c.themes[r.current]? = some e ∧ e.key = c.currentAfter pre ∧ r.currentKey = e.key) ∧
    (∀ call, let r' := (step env r j call).1
      (∀ i, i ≠ r'.current → r'.themes[i]? = r.themes[i]?) ∧
      (call.selects? = none → r'.current = r.current) ∧ r'.builtins = r.builtins) ∧
    (∀ key ∉ c.themes.map (·.key),
      step env r j (.select key) = (r, j, ⟨.error (.keyNotFound key), []⟩)) ∧
    (∀ k e, c.themes[k]? = some e → ∃ r', step env r j (.select e.key) =
        (r', j ++ [.noted (.themeChanged e.key)], ⟨.ok .done, []⟩) ∧ Selects c pre r r' k e) ∧
    ∀ more, (∀ p call, p ++ [call] <+: more → call.selects? = none →
        c.currentAfter (pre ++ p) ≠ r.currentKey) →
      let back := (run env r j (more ++ [.select r.currentKey])).1
      back.current = r.current ∧ back.theme = r.theme := by
  intro r j
  obtain ⟨hv, htracked₀⟩ := tracked_ofCatalog hc
  have hnd := Catalog.keys_nodup hv
  have hnames := Catalog.grammarNames_nodup hv
  have hshelved : Shelved c pre r := shelved_run (shelved_ofCatalog hc) env [] pre
  have htracked : Tracked c pre r j := tracked_run htracked₀ hnd hnames env pre
  obtain ⟨e, he, hkey⟩ := hshelved.toFrame.entry
  have hcurrentKey : r.currentKey = e.key := hshelved.current.trans hkey.symm
  refine ⟨hshelved.toFrame.keys, ⟨e, he, hkey, hcurrentKey⟩, fun call => ?_, fun key hunknown => ?_,
    fun k e' he' => selects hshelved htracked hnd hnames env he', fun more hspare => ?_⟩
  · have hstep := step_cases env r j call
    exact ⟨fun i hi => hstep.elsewhere hi, hstep.current_eq, hstep.builtins_eq⟩
  · cases hi : Registry.indexOf? r.themes key with
    | none => simp only [step, replying, select, hi]; rfl
    | some i =>
      have hmem : key ∈ r.themes.map (·.key) :=
        List.mem_map.2 ⟨_, List.getElem_mem i.2, indexOf?_some hi⟩
      rw [hshelved.toFrame.keys] at hmem
      exact absurd hmem hunknown
  · intro back
    rw [hcurrentKey] at hspare
    have hvisited : c.visited pre e.key = true := Catalog.visited_current hkey.symm
    -- the way back is a selection, so it spares the theme as well
    have hspared : back.themes[r.current]? = r.themes[r.current]? := by
      refine spared_run htracked hnd hnames he hvisited fun p call hp hsel => ?_
      rcases List.prefix_concat_iff.1 hp with heq | hp'
      · obtain ⟨-, rfl⟩ := List.append_inj' heq rfl |>.imp id List.singleton_inj.1
        cases hsel
      · exact hspare p call hp' hsel
    have hframe := frame_run hshelved.toFrame env j (more ++ [.select r.currentKey])
    have hback : back.current = r.current := by
      refine (hframe.current_iff hnd he).2 ?_
      rw [hframe.current, ← List.append_assoc, Catalog.currentAfter_snoc, Catalog.currentBehind,
        hcurrentKey]
      simp [Call.selects?, List.mem_map_of_mem (f := (·.key)) (List.mem_of_getElem? he)]
    rw [← hback, getElem?_current, hback, getElem?_current] at hspared
    exact ⟨hback, Option.some.inj hspared⟩

/-- Json is taken over under Night, and stays so after some time under Day. There is no theme of the
name Dusk. -/
theorem themes_isolated_night :
    let c : Catalog := ⟨"Day", [⟨"Day", "", "day", none⟩, ⟨"Night", "", "night", some ⟨"o", "n"⟩⟩],
      [⟨"Json", [".json"], "Json.xshd"⟩]⟩
    let env : Environment := .ofStore fun r => .error (.resourceNotFound r)
    let pre : List Call :=
      [.select "Night", .registerDeferred "Json" [".js"] (.resource ⟨"own", "j"⟩)]
    let away : List Call := [.select "Day", .definition "Json"]
    ∃ r, ofCatalog c = .ok r ∧
      let night := (run env r [] pre).1
      let j := (run env r [] pre).2.1
      (run env night j (away ++ [.select night.currentKey])).1.theme = night.theme ∧
      step env night j (.select "Dusk") = (night, j, ⟨.error (.keyNotFound "Dusk"), []⟩) := by
  intro c env pre away
  have hv : c.validate = .ok () := by
    simp [c, Catalog.validate, Catalog.defect?, Catalog.themesDefect?, Catalog.themeDefect?,
      Catalog.isComplete, Catalog.currentDefect?, Catalog.grammarsDefect?, Catalog.grammarDefect?]
  obtain ⟨r, hc⟩ := exists_ofCatalog hv
  obtain ⟨-, ⟨e, -, hkey, hcurrent⟩, -, hrefused, -, hback⟩ := themes_isolated hc env pre
  have hnight : (run env r [] pre).1.currentKey = "Night" := by
    rw [hcurrent, hkey]
    decide
  refine ⟨r, hc, (hback away fun p call hp hsel => ?_).2, hrefused "Dusk" (by simp [c])⟩
  -- the only call that is no selection is made under Day
  rw [hnight]
  rcases p with _ | ⟨first, _ | ⟨second, p⟩⟩
  · obtain ⟨rfl, -⟩ := List.cons_prefix_cons.1 hp
    cases hsel
  · obtain ⟨rfl, -⟩ := List.cons_prefix_cons.1 hp
    decide
  · have hlen := hp.length_le
    simp [away] at hlen

end Registry

end Livery
