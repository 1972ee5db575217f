import Livery.Proofs.LifeCycle
import Livery.Proofs.Resolution
import Mathlib.Data.List.Induction

/-!
# The two passes over different documents

The second pass may be given another document than the first. It objects to what the first document
does not name, and may come upon the same set and the same colour several times: what it comes upon
last counts.

* `Document.objectionsAgainst`: what a document names and another one does not.
* `register_composes`: the drafts behind the first pass.
* `populateColor_cases`, `populateSet_cases`: one colour, and one mention of a set.
* `populate_composes`: the second pass stops at the first objection, and otherwise gives the sets of
  the first document with the values of the second.
-/

namespace Livery.Overlay

/-! ## Two documents -/

/-- What is wrong with the colour `c` of a set that has the colour names `names`. -/
def ColorDeclaration.objectionsAgainst (names : List String) (c : ColorDeclaration) :
    List Objection :=
  if c.name = "" then [⟨c.position, .emptyName⟩]
  else if c.name ∈ names then []
  else [⟨c.position, .unknownColor c.name⟩]

/-- What is wrong with the mention `s` of one of the sets `known`: that there is none of its name,
or its colours in order. -/
def SetDeclaration.objectionsAgainst (known : List SetDeclaration) (s : SetDeclaration) :
    List Objection :=
  match known.find? (·.name == s.name) with
  | none => [⟨s.position, .unknownSet s.name⟩]
  | some k => s.colors.flatMap (·.objectionsAgainst (k.colors.map (·.name)))

/-- Everything that the document `d` names and `known` does not, in the order of the text. -/
def Document.objectionsAgainst (d known : Document) : List Objection :=
  d.colorSets.flatMap (·.objectionsAgainst known.colorSets)

/-- The extensions in the last mention of the set `name`, if there is one. -/
def lastExtensions (mentions : List SetDeclaration) (name : String) : List String :=
  ((mentions.reverse.find? (·.name == name)).map (·.extensions)).getD []

/-- The tokens in all `mentions` of the set `name`, in order. -/
def tokensUnder (mentions : List SetDeclaration) (name : String) : List Token :=
  (mentions.filter (·.name == name)).flatMap (·.colors.map (·.token))

/-- The sets of the document `known` with the values of `d`: exactly the colours that `known`
declares, each with its last token in `d` or its placeholder, and the extensions of the last mention
of the set in `d`. -/
structure Composed (known d : Document) (sets : NameMap ColorSet) : Prop where
  grammars : ∀ n, (sets.get? n).isSome = true ↔ n ∈ known.colorSets.map (·.name)
  sets : ∀ k ∈ known.colorSets, ∃ set, sets.get? k.name = some set ∧
    set.Consists k.name (lastExtensions d.colorSets k.name) (k.colors.map (·.name))
      (tokensUnder d.colorSets k.name)

theorem lastExtensions_concat (mentions : List SetDeclaration) (s : SetDeclaration)
    (name : String) : lastExtensions (mentions ++ [s]) name =
      if name = s.name then s.extensions else lastExtensions mentions name := by
  unfold lastExtensions
  rw [find?_key_concat]
  split_ifs <;> rfl

theorem tokensUnder_concat (mentions : List SetDeclaration) (s : SetDeclaration) (name : String) :
    tokensUnder (mentions ++ [s]) name =
      tokensUnder mentions name ++ if name = s.name then s.colors.map (·.token) else [] := by
  unfold tokensUnder
  rw [List.filter_append, List.flatMap_append]
  by_cases h : name = s.name
  · simp [h]
  · simp [h, Ne.symm h]

/-! ## Drafts between the passes -/

/-- The `drafts` of the sets `known` behind some `mentions` of them. -/
structure Composes (known mentions : List SetDeclaration) (drafts : Drafts) : Prop where
  distinct : (known.map (·.name)).Nodup
  names : ∀ n, drafts.contains n = true ↔ n ∈ known.map (·.name)
  drafts : ∀ k ∈ known, ∃ draft, drafts.get? k.name = some draft ∧
    draft.set.Holds k.name (lastExtensions mentions k.name) (k.colors.map (·.name))
      (tokensUnder mentions k.name)

/-- **A fold that gets to its end** keeps what each `step` keeps. -/
theorem foldlM_keeps {α σ ε : Type} {step : σ → α → Except ε σ} (Keeps : σ → List α → Prop)
    (hstep : ∀ {s earlier a s'}, Keeps s earlier → step s a = .ok s' → Keeps s' (earlier ++ [a]))
    {s s' : σ} {l : List α} (h : Keeps s []) (hok : l.foldlM step s = .ok s') : Keeps s' l := by
  induction l using List.reverseRecOn generalizing s' with
  | nil =>
    cases hok
    exact h
  | append_singleton l a ih =>
    rw [List.foldlM_append] at hok
    cases hfold : l.foldlM step s with
    | error e =>
      rw [hfold] at hok
      cases hok
    | ok s₁ =>
      rw [hfold] at hok
      have hlast : [a].foldlM step s₁ = .ok s' := hok
      exact hstep (ih hfold) (by simpa using hlast)

theorem registerColor_holds {name : String} {extensions names : List String} {tokens : List Token}
    {draft draft' : ColorSet.Draft} {c : ColorDeclaration}
    (h : draft.set.Holds name extensions names tokens)
    (hok : registerColor draft c = .ok draft') :
    draft'.set.Holds name extensions (names ++ [c.name]) tokens := by
  rw [registerColor, ColorSet.Draft.register_eq h] at hok
  split_ifs at hok with hempty hmem
  · cases hok
  · cases hok
  · cases hok
    exact h.register hempty hmem

/-- A set that `registerSet` takes has the names of its colours, without tokens and extensions. -/
theorem registerSet_composes {known : List SetDeclaration} {drafts drafts' : Drafts}
    {s : SetDeclaration} (h : Composes known [] drafts) (hok : registerSet drafts s = .ok drafts') :
    Composes (known ++ [s]) [] drafts' := by
  unfold registerSet ColorSet.Draft.start at hok
  split_ifs at hok with hempty hmem
  -- the name of the set is new
  have hnew : s.name ∉ known.map (·.name) := mt (h.names s.name).2 hmem
  cases hfold : s.colors.foldlM registerColor ⟨{ name := s.name }⟩ with
  | error o =>
    simp only [blame, bind, Except.bind, hfold] at hok
    cases hok
  | ok draft =>
    simp only [blame, bind, Except.bind, hfold, pure, Except.pure] at hok
    cases hok
    have hstart : ColorSet.Holds { name := s.name } s.name [] [] [] :=
      ColorSet.Draft.logged_start s.name
    have hdraft : draft.set.Holds s.name [] (s.colors.map (·.name)) [] := by
      refine foldlM_keeps (fun draft earlier =>
        draft.set.Holds s.name [] (earlier.map (·.name)) []) (fun hkeeps hstep => ?_) hstart hfold
      simpa using registerColor_holds hkeeps hstep
    refine ⟨?_, fun n => ?_, fun k hk => ?_⟩
    · rw [List.map_append, List.map_singleton, ← List.concat_eq_append]
      exact h.distinct.concat hnew
    · rw [NameMap.contains_insert, h.names n]
      simp [or_comm]
    · rcases List.mem_append.1 hk with hk | hk
      · have hne : k.name ≠ s.name := fun heq => hnew (heq ▸ List.mem_map_of_mem hk)
        rw [NameMap.get?_insert_of_ne _ hne]
        exact h.drafts k hk
      · obtain rfl := List.mem_singleton.1 hk
        exact ⟨draft, NameMap.get?_insert_self .., hdraft⟩

/-- **Behind the first pass**, `register`, there is a draft of every set, with its colours and
nothing else. -/
theorem register_composes {d : Document} {drafts : Drafts} (h : register d = .ok drafts) :
    Composes d.colorSets [] drafts := by
  have hempty : Composes [] [] .empty :=
    ⟨.nil, fun n => by simp [NameMap.contains], fun k hk => absurd hk List.not_mem_nil⟩
  exact foldlM_keeps (fun drafts earlier => Composes earlier [] drafts)
    (fun hkeeps hstep => registerSet_composes hkeeps hstep) hempty h

/-! ## The second pass -/

theorem walk_eq_flatMap {α β : Type} (visit : α → List β) (earlier l : List α) :
    walk (fun _ a => visit a) earlier l = l.flatMap visit := by
  induction l generalizing earlier with
  | nil => rfl
  | cons a l ih => rw [walk, ih, List.flatMap_cons]

/-- **A fold over what may be objected to** stops at the first objection, and otherwise keeps what
each `step` keeps. -/
theorem foldlM_flatMap_cases {α σ ε : Type} {step : σ → α → Except ε σ} (visit : α → List ε)
    (Keeps : σ → List α → Prop)
    (hstep : ∀ s earlier a, Keeps s earlier →
      (∃ o more, visit a = o :: more ∧ step s a = .error o) ∨
        (visit a = [] ∧ ∃ s', step s a = .ok s' ∧ Keeps s' (earlier ++ [a])))
    {s : σ} (h : Keeps s []) (l : List α) :
    (∃ o more, l.flatMap visit = o :: more ∧ l.foldlM step s = .error o) ∨
      (l.flatMap visit = [] ∧ ∃ s', l.foldlM step s = .ok s' ∧ Keeps s' l) := by
  have hwalk := foldlM_walk hstep h l
  rwa [walk_eq_flatMap, List.nil_append] at hwalk

/-- **`populateColor` refuses a colour** if there is an objection to it, and otherwise stores its
token. -/
theorem populateColor_cases {name : String} {extensions names : List String} {tokens : List Token}
    {draft : ColorSet.Draft} (h : draft.set.Holds name extensions names tokens)
    (c : ColorDeclaration) :
    (∃ o more, c.objectionsAgainst names = o :: more ∧ populateColor draft c = .error o) ∨
      (c.objectionsAgainst names = [] ∧ ∃ draft', populateColor draft c = .ok draft' ∧
        draft'.set.Holds name extensions names (tokens ++ [c.token])) := by
  unfold populateColor ColorDeclaration.objectionsAgainst
  rw [ColorSet.Draft.populate_eq h]
  by_cases hempty : c.name = ""
  · exact .inl ⟨_, [], if_pos hempty, if_pos hempty⟩
  rw [if_neg hempty, if_neg hempty]
  by_cases hmem : c.name ∈ names
  · rw [if_pos hmem, if_pos (show c.token.name ∈ names from hmem)]
    exact .inr ⟨rfl, _, rfl, h.store hmem⟩
  · rw [if_neg hmem, if_neg (show c.token.name ∉ names from hmem),
      if_neg (show c.token.name ≠ "" from hempty)]
    exact .inl ⟨_, [], rfl, rfl⟩

/-- The colours `cs` of a set are refused with the first objection to them. -/
theorem foldlM_populateColor_cases {name : String} {extensions names : List String}
    {tokens : List Token} {draft : ColorSet.Draft}
    (h : draft.set.Holds name extensions names tokens) (cs : List ColorDeclaration) :
    (∃ o more, cs.flatMap (·.objectionsAgainst names) = o :: more ∧
        cs.foldlM populateColor draft = .error o) ∨
      (cs.flatMap (·.objectionsAgainst names) = [] ∧
        ∃ draft', cs.foldlM populateColor draft = .ok draft' ∧
          draft'.set.Holds name extensions names (tokens ++ cs.map (·.token))) := by
  refine foldlM_flatMap_cases _ (fun (draft : ColorSet.Draft) earlier => draft.set.Holds name
    extensions names (tokens ++ earlier.map (·.token))) (fun draft earlier c hkeeps => ?_)
    (by simpa using h) cs
  simpa using populateColor_cases hkeeps c

/-- **`populateSet` refuses a mention of a set** with the first objection to it. Otherwise the set
has its extensions, and its tokens are stored behind those that were there. -/
theorem populateSet_cases {known mentions : List SetDeclaration} {drafts : Drafts}
    (h : Composes known mentions drafts) (s : SetDeclaration) :
    (∃ o more, s.objectionsAgainst known = o :: more ∧ populateSet drafts s = .error o) ∨
      (s.objectionsAgainst known = [] ∧ ∃ drafts', populateSet drafts s = .ok drafts' ∧
        Composes known (mentions ++ [s]) drafts') := by
  unfold populateSet SetDeclaration.objectionsAgainst
  cases hfind : known.find? (·.name == s.name) with
  | none =>
    have hget : drafts.get? s.name = none := by
      have hfree : s.name ∉ known.map (·.name) := find?_key_eq_none_iff.1 hfind
      simpa [NameMap.contains] using mt (h.names s.name).1 hfree
    rw [hget]
    exact .inl ⟨_, [], rfl, rfl⟩
  | some k =>
    obtain ⟨hk, hname⟩ := of_find?_key hfind
    obtain ⟨draft, hget, hdraft⟩ := h.drafts k hk
    rw [← hname, hget]
    have hset : (draft.setExtensions s.extensions).set.Holds k.name s.extensions
        (k.colors.map (·.name)) (tokensUnder mentions k.name) := hdraft.setExtensions s.extensions
    rcases foldlM_populateColor_cases hset s.colors with
      ⟨o, more, hobj, hf⟩ | ⟨hobj, draft', hf, hdraft'⟩
    · exact .inl ⟨o, more, hobj, by simp [hf, bind, Except.bind]⟩
    · refine .inr ⟨hobj, _, by simp only [hf, bind, Except.bind]; rfl, h.distinct, fun n => ?_,
        fun k' hk' => ?_⟩
      · rw [NameMap.contains_insert_of_contains (by rw [NameMap.contains, hget]; rfl)]
        exact h.names n
      · rw [lastExtensions_concat, tokensUnder_concat, ← hname]
        by_cases heq : k'.name = k.name
        · obtain rfl := List.inj_on_of_nodup_map h.distinct hk' hk heq
          rw [if_pos rfl, if_pos rfl]
          exact ⟨draft', NameMap.get?_insert_self .., by simpa using hdraft'⟩
        · rw [if_neg heq, if_neg heq, List.append_nil, NameMap.get?_insert_of_ne _ heq]
          exact h.drafts k' hk'

/-- Finished drafts are the sets that two documents compose to. -/
theorem Composes.composed {known d : Document} {drafts : Drafts}
    (h : Composes known.colorSets d.colorSets drafts) : Composed known d (finish drafts) := by
  refine ⟨fun n => ?_, fun k hk => ?_⟩
  · rw [finish, NameMap.get?_map, Option.isSome_map]
    exact h.names n
  · obtain ⟨draft, hget, hdraft⟩ := h.drafts k hk
    exact ⟨draft.finish, by rw [finish, NameMap.get?_map, hget]; rfl, hdraft.consists⟩

/-! ## What there is no objection to -/

theorem ColorDeclaration.objectionsAgainst_eq_nil_iff (names : List String)
    (c : ColorDeclaration) : c.objectionsAgainst names = [] ↔ c.name ≠ "" ∧ c.name ∈ names := by
  unfold objectionsAgainst
  split_ifs <;> simp_all

theorem SetDeclaration.objectionsAgainst_eq_nil_iff {known : List SetDeclaration}
    (hdistinct : (known.map (·.name)).Nodup) (s : SetDeclaration) :
    s.objectionsAgainst known = [] ↔ ∃ k ∈ known, k.name = s.name ∧
      ∀ c ∈ s.colors, c.name ≠ "" ∧ c.name ∈ k.colors.map (·.name) := by
  unfold objectionsAgainst
  cases hfind : known.find? (·.name == s.name) with
  | none =>
    refine iff_of_false (by simp) ?_
    rintro ⟨k, hk, hname, -⟩
    exact find?_key_eq_none_iff.1 hfind (hname ▸ List.mem_map_of_mem hk)
  | some k =>
    obtain ⟨hk, hname⟩ := of_find?_key hfind
    simp only [List.flatMap_eq_nil_iff, ColorDeclaration.objectionsAgainst_eq_nil_iff]
    refine ⟨fun hcolors => ⟨k, hk, hname, hcolors⟩, ?_⟩
    -- there is only one set of this name
    rintro ⟨k', hk', hname', hcolors⟩
    obtain rfl := List.inj_on_of_nodup_map hdistinct hk' hk (hname'.trans hname.symm)
    exact hcolors

/-- **The second pass over a document composes with the first over another.** It comes to its end
exactly if every set that is mentioned, and every colour in it, is there; if not, then it stops at
the first objection. -/
theorem populate_composes {known : Document} {drafts : Drafts} (h : register known = .ok drafts)
    (d : Document) :
    ((∃ sets, populate d drafts = .ok sets) ↔
      ∀ s ∈ d.colorSets, ∃ k ∈ known.colorSets, k.name = s.name ∧
        ∀ c ∈ s.colors, c.name ≠ "" ∧ c.name ∈ k.colors.map (·.name)) ∧
    match d.objectionsAgainst known with
    | o :: _ => populate d drafts = .error o
    | [] => ∃ sets, populate d drafts = .ok sets ∧ Composed known d sets := by
  have hstart := register_composes h
  have hnil : d.objectionsAgainst known = [] ↔ ∀ s ∈ d.colorSets, ∃ k ∈ known.colorSets,
      k.name = s.name ∧ ∀ c ∈ s.colors, c.name ≠ "" ∧ c.name ∈ k.colors.map (·.name) := by
    simp only [Document.objectionsAgainst, List.flatMap_eq_nil_iff,
      SetDeclaration.objectionsAgainst_eq_nil_iff hstart.distinct]
  have hcases := foldlM_flatMap_cases (·.objectionsAgainst known.colorSets)
    (fun drafts mentions => Composes known.colorSets mentions drafts)
    (fun _ _ s hkeeps => populateSet_cases hkeeps s) hstart d.colorSets
  rw [← hnil]
  rcases hcases with ⟨o, more, hobj, hf⟩ | ⟨hobj, drafts', hf, hdrafts'⟩
  · have hp : populate d drafts = .error o := by simp only [populate, hf, bind, Except.bind]
    have hobj : d.objectionsAgainst known = o :: more := hobj
    rw [hobj, hp]
    simp
  · have hp : populate d drafts = .ok (finish drafts') := by
      simp only [populate, hf, bind, Except.bind, pure, Except.pure]
    have hobj : d.objectionsAgainst known = [] := hobj
    rw [hobj, hp]
    exact ⟨⟨fun _ => rfl, fun _ => ⟨_, rfl⟩⟩, _, rfl, hdrafts'.composed⟩

/-- A document with one set of two colours. -/
def twoColors : Document :=
  ⟨"D", [.colorSet { name := "C#", colors := [{ name := "Comment" }, { name := "String" }] }]⟩

/-- A document that mentions the set of `twoColors` twice, and one of its colours three times. -/
def mentionsTwice : Document :=
  ⟨"E", [
    .colorSet { name := "C#", extensions := [".cs"],
                colors := [{ name := "Comment", underline := some true }, { name := "Comment" }] },
    .colorSet { name := "C#", extensions := [".csx"],
                colors := [{ name := "Comment", underline := some false }] }]⟩

/-- The document `mentionsTwice` composes with `twoColors`. -/
theorem populate_composes_twice :
    ∃ drafts sets, register twoColors = .ok drafts ∧
      populate mentionsTwice drafts = .ok sets ∧ Composed twoColors mentionsTwice sets := by
  obtain ⟨drafts, hreg⟩ : ∃ drafts, register twoColors = .ok drafts := ⟨_, rfl⟩
  obtain ⟨sets, hpop, hcomposed⟩ := (populate_composes hreg mentionsTwice).2
  exact ⟨drafts, sets, hreg, hpop, hcomposed⟩

end Livery.Overlay
