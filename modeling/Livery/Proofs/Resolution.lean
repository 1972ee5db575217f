import Livery.Overlay.Resolution
import Mathlib.Tactic.Set

/-!
# What resolving means

A document is read from front to back, each colour set with its own name first and then the names
of its colours. An **objection** is raised where a name is empty or was there before: among the
sets for a set, among the colours of the same set for a colour.

* `resolve_declares`: a document with an objection is refused with the first one, and every other
  document becomes the model that it declares.
-/

namespace Livery.Overlay

/-- Lets `visit` look at the entries of a list in order, each with those before it. -/
def walk {α β : Type} (visit : List α → α → List β) : List α → List α → List β
  | _, [] => []
  | earlier, a :: rest => visit earlier a ++ walk visit (earlier ++ [a]) rest

/-- What is wrong with the colour `c` behind the `earlier` ones of its set. -/
def ColorDeclaration.objections (earlier : List ColorDeclaration) (c : ColorDeclaration) :
    List Objection :=
  if c.name = "" then [⟨c.position, .emptyName⟩]
  else if c.name ∈ earlier.map (·.name) then [⟨c.position, .duplicateColor c.name⟩]
  else []

/-- What is wrong with the name of the set `s` behind the `earlier` sets. -/
def SetDeclaration.nameObjections (earlier : List SetDeclaration) (s : SetDeclaration) :
    List Objection :=
  if s.name = "" then [⟨s.position, .emptyName⟩]
  else if s.name ∈ earlier.map (·.name) then [⟨s.position, .duplicateSet s.name⟩]
  else []

/-- What is wrong with the set `s` behind the `earlier` ones: its name first, then its colours in
order. -/
def SetDeclaration.objections (earlier : List SetDeclaration) (s : SetDeclaration) :
    List Objection :=
  s.nameObjections earlier ++ walk ColorDeclaration.objections [] s.colors

/-- Everything that is wrong with the names of the document `d`, in the order of the text. -/
def Document.objections (d : Document) : List Objection :=
  walk SetDeclaration.objections [] d.colorSets

/-- The `ColorSet` holds what the declaration `s` says, no more and no less. -/
structure SetDeclaration.Declares (s : SetDeclaration) (set : ColorSet) : Prop where
  name : set.name = s.name
  extensions : set.extensions = s.extensions
  names : ∀ n, set.contains n = true ↔ n ∈ s.colors.map (·.name)
  colors : ∀ c ∈ s.colors, set.color? c.name = some
    { name := c.name, foreground := c.foreground, background := c.background,
      underline := c.underline, fontWeight := c.fontWeight, fontStyle := c.fontStyle }

/-- The `Model` holds what the document `d` says, no more and no less. -/
structure Document.Declares (d : Document) (m : Model) : Prop where
  name : m.name = d.name
  grammars : ∀ n, (m.colorSet? n).isSome = true ↔ n ∈ d.colorSets.map (·.name)
  sets : ∀ s ∈ d.colorSets, ∃ set, m.colorSet? s.name = some set ∧ s.Declares set
  styles : m.globalStyles = d.globalStyles.map fun s =>
    { typeName := s.typeName, foreground := s.foreground, background := s.background,
      border := s.border }
  properties : ∀ key, m.properties.get? key =
    (d.properties.reverse.find? (·.name == key)).map (·.value)

/-! ## The first pass -/

/-- **A fold stops at the first objection of a `walk`** if each `step` does, and otherwise keeps
what each step keeps. -/
theorem foldlM_walk {α σ ε : Type} {visit : List α → α → List ε} {step : σ → α → Except ε σ}
    {Keeps : σ → List α → Prop}
    (hstep : ∀ s earlier a, Keeps s earlier →
      (∃ o more, visit earlier a = o :: more ∧ step s a = .error o) ∨
        (visit earlier a = [] ∧ ∃ s', step s a = .ok s' ∧ Keeps s' (earlier ++ [a])))
    {s : σ} {earlier : List α} (h : Keeps s earlier) (l : List α) :
    (∃ o more, walk visit earlier l = o :: more ∧ l.foldlM step s = .error o) ∨
      (walk visit earlier l = [] ∧
        ∃ s', l.foldlM step s = .ok s' ∧ Keeps s' (earlier ++ l)) := by
  induction l generalizing s earlier with
  | nil => exact .inr ⟨rfl, s, rfl, by simpa using h⟩
  | cons a l ih =>
    simp only [walk, List.foldlM_cons]
    rcases hstep s earlier a h with ⟨o, more, ho, hs⟩ | ⟨ho, s₁, hs, h₁⟩
    · -- what is behind the first objection does not count
      exact .inl ⟨o, _, by rw [ho]; rfl, by rw [hs]; rfl⟩
    · rw [ho, hs]
      rcases ih h₁ with ⟨o, more, hw, hf⟩ | ⟨hw, s', hf, h'⟩
      · exact .inl ⟨o, more, hw, hf⟩
      · exact .inr ⟨hw, s', hf, by simpa using h'⟩

/-- The draft `draft` has the name `name` and exactly the names of the colours `cs`. -/
structure Names (name : String) (draft : ColorSet.Draft) (cs : List ColorDeclaration) : Prop where
  name : draft.set.name = name
  colors : ∀ n, draft.set.contains n = true ↔ n ∈ cs.map (·.name)

/-- `registerColor` refuses a colour if there is an objection to it, and otherwise adds its name. -/
theorem registerColor_cases {name : String} (draft : ColorSet.Draft)
    (earlier : List ColorDeclaration) (c : ColorDeclaration) (h : Names name draft earlier) :
    (∃ o more, c.objections earlier = o :: more ∧ registerColor draft c = .error o) ∨
      (c.objections earlier = [] ∧ ∃ draft', registerColor draft c = .ok draft' ∧
        Names name draft' (earlier ++ [c])) := by
  unfold registerColor ColorSet.Draft.register ColorDeclaration.objections
  by_cases he : c.name = ""
  · exact .inl ⟨_, [], if_pos he, by rw [if_pos he]; rfl⟩
  · rw [if_neg he, if_neg he]
    by_cases hd : c.name ∈ earlier.map (·.name)
    · rw [if_pos hd, if_pos ((h.colors c.name).2 hd)]
      exact .inl ⟨_, [], rfl, rfl⟩
    · rw [if_neg hd, if_neg (mt (h.colors c.name).1 hd)]
      refine .inr ⟨rfl, _, rfl, h.name, fun n => ?_⟩
      have hn := h.colors n
      simp only [ColorSet.contains, List.map_append, List.mem_append] at hn ⊢
      rw [NameMap.contains_insert, hn]
      simp [or_comm]

/-- The drafts of the sets `sets`: one for each of them, under its name, with the names of its
colours. -/
structure Registered (drafts : Drafts) (sets : List SetDeclaration) : Prop where
  names : ∀ n, drafts.contains n = true ↔ n ∈ sets.map (·.name)
  drafts : ∀ s ∈ sets, ∃ draft, drafts.get? s.name = some draft ∧ Names s.name draft s.colors

/-- `registerSet` refuses a set with the first objection to it, and otherwise adds a draft of it. -/
theorem registerSet_cases (drafts : Drafts) (earlier : List SetDeclaration) (s : SetDeclaration)
    (h : Registered drafts earlier) :
    (∃ o more, s.objections earlier = o :: more ∧ registerSet drafts s = .error o) ∨
      (s.objections earlier = [] ∧ ∃ drafts', registerSet drafts s = .ok drafts' ∧
        Registered drafts' (earlier ++ [s])) := by
  unfold registerSet SetDeclaration.objections SetDeclaration.nameObjections
  by_cases he : s.name = ""
  · exact .inl ⟨_, _, by rw [if_pos he]; rfl, if_pos he⟩
  rw [if_neg he, if_neg he]
  by_cases hd : s.name ∈ earlier.map (·.name)
  · rw [if_pos hd, if_pos ((h.names s.name).2 hd)]
    exact .inl ⟨_, _, rfl, rfl⟩
  rw [if_neg hd, if_neg (mt (h.names s.name).1 hd)]
  have hstart : ColorSet.Draft.start s.name = .ok ⟨{ name := s.name }⟩ := if_neg he
  have hempty : Names s.name ⟨{ name := s.name }⟩ [] := ⟨rfl, fun n => by
    simp [ColorSet.contains, NameMap.contains]⟩
  rw [hstart]
  rcases foldlM_walk registerColor_cases hempty s.colors with
    ⟨o, more, hw, hf⟩ | ⟨hw, draft, hf, hdraft⟩
  · exact .inl ⟨o, more, hw, by simp [blame, hf, bind, Except.bind]⟩
  · refine .inr ⟨hw, drafts.insert s.name draft, by simp [blame, hf, bind, Except.bind, pure,
      Except.pure], ⟨fun n => ?_, fun t ht => ?_⟩⟩
    · rw [NameMap.contains_insert, h.names n]
      simp [or_comm]
    · rcases List.mem_append.1 ht with ht | ht
      · have hne : t.name ≠ s.name := fun heq => hd (heq ▸ List.mem_map_of_mem ht)
        obtain ⟨draft', hg, hrest⟩ := h.drafts t ht
        exact ⟨draft', by rw [NameMap.get?_insert_of_ne _ hne]; exact hg, hrest⟩
      · obtain rfl := List.mem_singleton.1 ht
        exact ⟨draft, NameMap.get?_insert_self .., hdraft⟩

/-- **The first pass** stops at the first objection, and otherwise registers every name. -/
theorem register_cases (d : Document) :
    (∃ o more, d.objections = o :: more ∧ register d = .error o) ∨
      (d.objections = [] ∧ ∃ drafts, register d = .ok drafts ∧
        Registered drafts d.colorSets) := by
  have hempty : Registered .empty [] :=
    ⟨fun n => by simp [NameMap.contains], fun s hs => absurd hs List.not_mem_nil⟩
  exact foldlM_walk registerSet_cases hempty d.colorSets

/-! ## The second pass -/

/-- What a `walk` that raises nothing tells of the entries and their names. -/
theorem of_walk_eq_nil {α β : Type} {visit : List α → α → List β} {name : α → String}
    {P : α → Prop}
    (hv : ∀ earlier a, visit earlier a = [] → P a ∧ name a ∉ earlier.map name)
    {earlier l : List α} (h : walk visit earlier l = []) :
    (∀ a ∈ l, P a) ∧ (l.map name).Nodup ∧ ∀ a ∈ l, name a ∉ earlier.map name := by
  induction l generalizing earlier with
  | nil => simp
  | cons a l ih =>
    obtain ⟨ha, hl⟩ := List.append_eq_nil_iff.1 h
    obtain ⟨hP, hnd, hfresh⟩ := ih hl
    obtain ⟨hPa, hna⟩ := hv earlier a ha
    have hsplit : ∀ b ∈ l, name b ∉ earlier.map name ∧ name b ≠ name a := fun b hb => by
      have := hfresh b hb
      simp only [List.map_append, List.mem_append, not_or] at this
      exact ⟨this.1, by simpa using this.2⟩
    refine ⟨List.forall_mem_cons.2 ⟨hPa, hP⟩, List.nodup_cons.2 ⟨?_, hnd⟩,
      List.forall_mem_cons.2 ⟨hna, fun b hb => (hsplit b hb).1⟩⟩
    intro hmem
    obtain ⟨b, hb, heq⟩ := List.mem_map.1 hmem
    exact (hsplit b hb).2 heq

/-- The colours of the set `s` have names, all of them different. -/
structure SetDeclaration.WellNamed (s : SetDeclaration) : Prop where
  nonempty : ∀ c ∈ s.colors, c.name ≠ ""
  nodup : (s.colors.map (·.name)).Nodup

theorem ColorDeclaration.of_objections_eq_nil (earlier : List ColorDeclaration)
    (c : ColorDeclaration) (h : c.objections earlier = []) :
    c.name ≠ "" ∧ c.name ∉ earlier.map (·.name) := by
  unfold objections at h
  split at h
  · cases h
  · next he =>
    split at h
    · cases h
    · next hm => exact ⟨he, hm⟩

theorem SetDeclaration.of_objections_eq_nil (earlier : List SetDeclaration) (s : SetDeclaration)
    (h : s.objections earlier = []) : s.WellNamed ∧ s.name ∉ earlier.map (·.name) := by
  obtain ⟨hname, hcolors⟩ := List.append_eq_nil_iff.1 h
  obtain ⟨hne, hnd, -⟩ := of_walk_eq_nil ColorDeclaration.of_objections_eq_nil hcolors
  unfold nameObjections at hname
  split at hname
  · cases hname
  · split at hname
    · cases hname
    · next hm => exact ⟨⟨hne, hnd⟩, hm⟩

theorem wellNamed_of_objections {d : Document} (h : d.objections = []) :
    (∀ s ∈ d.colorSets, s.WellNamed) ∧ (d.colorSets.map (·.name)).Nodup := by
  obtain ⟨hwell, hnd, -⟩ := of_walk_eq_nil SetDeclaration.of_objections_eq_nil h
  exact ⟨hwell, hnd⟩

/-- `populateColor` fills in a colour of a registered name. -/
theorem populateColor_ok {draft : ColorSet.Draft} {c : ColorDeclaration} (hne : c.name ≠ "")
    (hmem : draft.set.contains c.name = true) :
    populateColor draft c =
      .ok ⟨{ draft.set with colors := draft.set.colors.insert c.name c.token }⟩ := by
  obtain ⟨t, ht⟩ := Option.isSome_iff_exists.1 hmem
  have htoken : c.token.name = c.name := rfl
  simp only [populateColor, if_neg hne, ColorSet.Draft.populate, ColorSet.replace, htoken, ht,
    blame]

/-- Filling in the colours `cs` of different names, all of them registered, gives each its token and
leaves everything else as it was. -/
theorem foldlM_populateColor (cs : List ColorDeclaration) {draft : ColorSet.Draft}
    (hne : ∀ c ∈ cs, c.name ≠ "") (hnd : (cs.map (·.name)).Nodup)
    (hmem : ∀ c ∈ cs, draft.set.contains c.name = true) :
    ∃ draft', cs.foldlM populateColor draft = .ok draft' ∧
      draft'.set.name = draft.set.name ∧ draft'.set.extensions = draft.set.extensions ∧
      (∀ n, draft'.set.contains n = draft.set.contains n) ∧
      (∀ c ∈ cs, draft'.set.color? c.name = some c.token) ∧
      ∀ n, n ∉ cs.map (·.name) → draft'.set.color? n = draft.set.color? n := by
  induction cs generalizing draft with
  | nil => exact ⟨draft, rfl, rfl, rfl, fun _ => rfl, by simp, fun _ _ => rfl⟩
  | cons c cs ih =>
    rw [List.forall_mem_cons] at hne hmem
    obtain ⟨hc, hnd⟩ := List.nodup_cons.1 hnd
    set draft₁ : ColorSet.Draft :=
      ⟨{ draft.set with colors := draft.set.colors.insert c.name c.token }⟩
    have hstep : populateColor draft c = .ok draft₁ := populateColor_ok hne.1 hmem.1
    have hnames : ∀ n, draft₁.set.contains n = draft.set.contains n := fun n =>
      NameMap.contains_insert_of_contains hmem.1 n _
    -- no other colour has this name, so its token stays
    obtain ⟨draft', hf, hname, hext, hnames', htokens, hother⟩ :=
      ih hne.2 hnd fun b hb => (hnames b.name).trans (hmem.2 b hb)
    refine ⟨draft', by rw [List.foldlM_cons, hstep]; exact hf, hname, hext,
      fun n => (hnames' n).trans (hnames n), List.forall_mem_cons.2 ⟨?_, htokens⟩, fun n hn => ?_⟩
    · exact (hother c.name hc).trans (NameMap.get?_insert_self ..)
    · simp only [List.map_cons, List.mem_cons, not_or] at hn
      exact (hother n hn.2).trans (NameMap.get?_insert_of_ne _ hn.1)

/-- The `drafts` of `sets` with everything filled in. -/
def Filled (drafts : Drafts) (sets : List SetDeclaration) : Prop :=
  ∀ s ∈ sets, ∃ draft, drafts.get? s.name = some draft ∧ s.Declares draft.set

/-- `populateSet` fills in a registered set. -/
theorem populateSet_ok {drafts : Drafts} {s : SetDeclaration} (hs : s.WellNamed)
    {draft : ColorSet.Draft} (hget : drafts.get? s.name = some draft)
    (hnames : Names s.name draft s.colors) :
    ∃ draft', populateSet drafts s = .ok (drafts.insert s.name draft') ∧
      s.Declares draft'.set := by
  have hmem : ∀ c ∈ s.colors, (draft.setExtensions s.extensions).set.contains c.name = true :=
    fun c hc => (hnames.colors c.name).2 (List.mem_map_of_mem hc)
  obtain ⟨draft', hf, hn, hext, hcontains, htokens, -⟩ :=
    foldlM_populateColor s.colors hs.nonempty hs.nodup hmem
  refine ⟨draft', ?_, hn.trans hnames.name, hext, fun n => ?_, htokens⟩
  · simp only [populateSet, hget, hf, bind, Except.bind, pure, Except.pure]
  · rw [hcontains]; exact hnames.colors n

/-- Filling in the sets `sets` of different names, all of them registered, gives each what its
declaration says and leaves the other drafts as they were. -/
theorem foldlM_populateSet (sets : List SetDeclaration) {drafts : Drafts}
    (hwell : ∀ s ∈ sets, s.WellNamed) (hnd : (sets.map (·.name)).Nodup)
    (hreg : ∀ s ∈ sets, ∃ draft, drafts.get? s.name = some draft ∧
      Names s.name draft s.colors) :
    ∃ drafts', sets.foldlM populateSet drafts = .ok drafts' ∧
      (∀ n, drafts'.contains n = drafts.contains n) ∧ Filled drafts' sets ∧
      ∀ n, n ∉ sets.map (·.name) → drafts'.get? n = drafts.get? n := by
  induction sets generalizing drafts with
  | nil => exact ⟨drafts, rfl, fun _ => rfl, fun s hs => absurd hs List.not_mem_nil, fun _ _ => rfl⟩
  | cons s sets ih =>
    rw [List.forall_mem_cons] at hwell hreg
    obtain ⟨hs, hnd⟩ := List.nodup_cons.1 hnd
    obtain ⟨⟨draft, hget, hnames⟩, hreg⟩ := hreg
    obtain ⟨draft', hstep, hdecl⟩ := populateSet_ok hwell.1 hget hnames
    set drafts₁ := drafts.insert s.name draft'
    -- the sets behind this one have other names, so their drafts are still there
    have hne : ∀ t ∈ sets, t.name ≠ s.name := fun t ht heq =>
      hs (List.mem_map.2 ⟨t, ht, heq⟩)
    have hreg₁ : ∀ t ∈ sets, ∃ draft, drafts₁.get? t.name = some draft ∧
        Names t.name draft t.colors := fun t ht => by
      rw [NameMap.get?_insert_of_ne _ (hne t ht)]; exact hreg t ht
    have hcontains : ∀ n, drafts₁.contains n = drafts.contains n := fun n =>
      NameMap.contains_insert_of_contains (by rw [NameMap.contains, hget]; rfl) n draft'
    obtain ⟨drafts', hf, hcontains', hfilled, hother⟩ := ih hwell.2 hnd hreg₁
    refine ⟨drafts', by rw [List.foldlM_cons, hstep]; exact hf,
      fun n => (hcontains' n).trans (hcontains n), List.forall_mem_cons.2 ⟨?_, hfilled⟩,
      fun n hn => ?_⟩
    · exact ⟨draft', (hother s.name hs).trans (NameMap.get?_insert_self ..), hdecl⟩
    · simp only [List.map_cons, List.mem_cons, not_or] at hn
      exact (hother n hn.2).trans (NameMap.get?_insert_of_ne _ hn.1)

/-! ## Finished sets and properties -/

/-- **The last value of a property counts.** -/
theorem get?_propertiesOf (d : Document) (key : String) :
    (propertiesOf d).get? key = (d.properties.reverse.find? (·.name == key)).map (·.value) := by
  unfold propertiesOf
  -- from behind, the first entry that is found is the one that was written last
  rw [← List.foldr_reverse]
  induction d.properties.reverse with
  | nil => rfl
  | cons p l ih =>
    rw [List.foldr_cons, NameMap.get?_insert, ih]
    by_cases h : key = p.name
    · simp [h]
    · have h' : (p.name == key) = false := by simpa using Ne.symm h
      simp [h, h']

/-! ## The whole -/

/-- The second pass fills in what the first one registered. -/
theorem populate_declares {d : Document} {drafts : Drafts} (hobj : d.objections = [])
    (hreg : Registered drafts d.colorSets) :
    ∃ sets, populate d drafts = .ok sets ∧
      (∀ n, (sets.get? n).isSome = true ↔ n ∈ d.colorSets.map (·.name)) ∧
      ∀ s ∈ d.colorSets, ∃ set, sets.get? s.name = some set ∧ s.Declares set := by
  obtain ⟨hwell, hnd⟩ := wellNamed_of_objections hobj
  obtain ⟨drafts', hf, hcontains, hfilled, -⟩ :=
    foldlM_populateSet d.colorSets hwell hnd hreg.drafts
  refine ⟨finish drafts', by simp only [populate, hf, bind, Except.bind, pure, Except.pure],
    fun n => ?_, fun s hs => ?_⟩
  · rw [finish, NameMap.get?_map, Option.isSome_map, ← hreg.names n, ← hcontains n]
    rfl
  · obtain ⟨draft, hget, hdecl⟩ := hfilled s hs
    exact ⟨draft.finish, by rw [finish, NameMap.get?_map, hget]; rfl, hdecl⟩

/-- A document without `objections` can be resolved. -/
theorem exists_resolve {document : Document} (h : document.objections = []) :
    ∃ m, resolve document = .ok m := by
  rcases register_cases document with ⟨o, more, hobj, -⟩ | ⟨-, drafts, hr, hreg⟩
  · rw [h] at hobj
    cases hobj
  · obtain ⟨sets, hp, -⟩ := populate_declares h hreg
    simp only [resolve, hr, hp, bind, Except.bind, pure, Except.pure]
    exact ⟨_, rfl⟩

/-- **Resolving is the declared mapping or the first objection.** With an objection, `register` and
the whole of `resolve` stop at the first one. Without, neither pass fails and the model is the one
that the document declares. -/
theorem resolve_declares (d : Document) :
    match d.objections with
    | o :: _ => register d = .error o ∧ resolve d = .error o
    | [] => ∃ drafts sets m, register d = .ok drafts ∧ populate d drafts = .ok sets ∧
        resolve d = .ok m ∧ d.Declares m := by
  rcases register_cases d with ⟨o, more, hobj, hr⟩ | ⟨hobj, drafts, hr, hreg⟩
  · rw [hobj]
    exact ⟨hr, by simp only [resolve, hr, bind, Except.bind]⟩
  · obtain ⟨sets, hp, hnames, hsets⟩ := populate_declares hobj hreg
    rw [hobj]
    have hres : resolve d = .ok
        ⟨d.name, sets, d.globalStyles.map StyleDeclaration.style, propertiesOf d⟩ := by
      simp only [resolve, hr, hp, bind, Except.bind, pure, Except.pure]
    exact ⟨drafts, sets, _, hr, hp, hres, rfl, hnames, hsets, rfl, get?_propertiesOf d⟩

/-- An empty colour name in the first set counts before the second set's repeated name. -/
example : (Document.objections ⟨"D", [.colorSet { name := "C#", colors := [{ name := "" }] },
    .colorSet { name := "C#" }]⟩).map (·.violation) = [.emptyName, .duplicateSet "C#"] := by
  decide

end Livery.Overlay
