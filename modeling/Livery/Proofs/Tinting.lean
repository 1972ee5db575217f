import Livery.Libraries
import Livery.Proofs.Gathering

/-!
# Grammars in the colours of a theme

A theme takes the tokens of a grammar's colours for its own of the same names. Everything else about
the grammar stays, and what the theme has on top of it is reported.

* `tint_eq`: tinting is choosing a token for each colour.
* `recolored_recolored`: of two themes the later one has the first choice.
* `load_cases`: whether a grammar loads does not depend on the colours.
* `load_recolors`: a grammar that is loaded in the colours of a theme.
-/

namespace Livery

/-- An entry `e` is found under its name. -/
theorem NameMap.get?_of_mem {α : Type} (m : NameMap α) {e : String × α} (h : e ∈ m.entries) :
    m.get? e.1 = some e.2 := by
  obtain ⟨before, behind, hsplit⟩ := List.append_of_mem h
  refine List.lookup_eq_some_iff.2 ⟨before, behind, hsplit, fun p hp => ?_⟩
  have hsorted := m.sorted
  rw [hsplit, List.pairwise_append] at hsorted
  have hlt : p.1 < e.1 := hsorted.2.2 p hp e List.mem_cons_self
  simpa using (String.ne_of_lt hlt).symm

/-- The tokens of a set that `IsBuilt` stand under their names. -/
theorem ColorSet.IsBuilt.keyed {s : ColorSet} (h : s.IsBuilt) {n : String} {t : Token}
    (ht : s.color? n = some t) : t.name = n := by
  obtain ⟨name, start, calls, replacements, hstart, rfl⟩ := h
  unfold Draft.start at hstart
  split_ifs at hstart
  obtain rfl := Except.ok.inj hstart
  have hdraft := (Draft.logged_start name).run calls
  exact (Holds.run hdraft replacements).keyed ht

namespace Grammar

variable {g : Grammar} {choice choice' : String → Option Token}

/-! ## Choosing tokens -/

/-- The grammar `g` with the token that `choice` has for each colour whose name has one. -/
def recolored (g : Grammar) (choice : String → Option Token) : Grammar :=
  { g with colors := g.colors.map fun c => (choice c.name).getD c }

/-- What `choice` has for a name is a token of that name. -/
def Keyed (choice : String → Option Token) : Prop :=
  ∀ n t, choice n = some t → t.name = n

/-- The grammar `base` and what becomes of it when tokens are chosen for some names by `choice`: its
colours alone change, each of them to the token that is chosen for its name. -/
structure Recolors (base : Grammar) (choice : String → Option Token) (themed : Grammar) : Prop where
  name : themed.name = base.name
  extensions : themed.extensions = base.extensions
  names : themed.colors.map (·.name) = base.colors.map (·.name)
  colors : themed.colors = base.colors.map fun c => (choice c.name).getD c
  color : ∀ n, themed.color? n = (base.color? n).map fun c => (choice n).getD c

theorem Keyed.name_eq (h : Keyed choice) (c : Token) :
    ((choice c.name).getD c).name = c.name := by
  cases hc : choice c.name with
  | none => rfl
  | some t => exact h c.name t hc

theorem Keyed.names_recolored (h : Keyed choice) (g : Grammar) :
    (g.recolored choice).colors.map (·.name) = g.colors.map (·.name) := by
  rw [recolored, List.map_map]
  exact List.map_congr_left fun c _ => h.name_eq c

theorem Keyed.recolors (h : Keyed choice) (g : Grammar) :
    Recolors g choice (g.recolored choice) where
  name := rfl
  extensions := rfl
  names := h.names_recolored g
  colors := rfl
  color := fun n => by
    rw [recolored, color?_map h.name_eq]
    cases hn : g.color? n with
    | none => rfl
    | some c => rw [Option.map_some, Option.map_some, (of_find?_key hn).2]

/-- **Two choices one after the other**: the later one, `choice'`, counts first. -/
theorem Keyed.recolored_recolored (h : Keyed choice) (g : Grammar)
    (choice' : String → Option Token) : (g.recolored choice).recolored choice' =
      g.recolored fun n => (choice' n).or (choice n) := by
  unfold recolored
  rw [List.map_map]
  congr 1
  refine List.map_congr_left fun c _ => ?_
  rw [Function.comp_apply, h.name_eq]
  beta_reduce
  cases choice' c.name <;> rfl

/-! ## Tinting -/

/-- The choice of one token for one name, both in `entry`. -/
def only (entry : String × Token) (name : String) : Option Token :=
  if name = entry.1 then some entry.2 else none

theorem keyed_only {entry : String × Token} (h : entry.2.name = entry.1) : Keyed (only entry) := by
  intro n t ht
  unfold only at ht
  split_ifs at ht with hn
  obtain rfl := Option.some.inj ht
  rw [h, hn]

/-- `tintOne` chooses one colour of a theme for its name, or notes the name. -/
theorem tintOne_eq (hg : (g.colors.map (·.name)).Nodup) (ignored : List String)
    (entry : String × Token) : tintOne (g, ignored) entry =
      (g.recolored (only entry),
        ignored ++ [entry.1].filter (· ∉ g.colors.map (·.name))) := by
  have hchoice : ∀ c : Token,
      (only entry c.name).getD c = if c.name = entry.1 then entry.2 else c := by
    intro c
    unfold only
    split_ifs <;> rfl
  rw [tintOne, replaceNamed?_eq hg]
  simp only [recolored, hchoice]
  by_cases hmem : entry.1 ∈ g.colors.map (·.name)
  · rw [if_pos hmem, List.filter_cons_of_neg (by simpa using hmem), List.filter_nil,
      List.append_nil]
  · -- no colour has the name, and all are left as they are
    have hself : (g.colors.map fun c => if c.name = entry.1 then entry.2 else c) = g.colors := by
      refine (List.map_congr_left fun c hc => if_neg fun heq => ?_).trans (List.map_id' g.colors)
      exact hmem (heq ▸ List.mem_map_of_mem hc)
    rw [if_neg hmem, hself, List.filter_cons_of_pos (by simpa using hmem), List.filter_nil]

/-- **The colours of a theme one by one** amount to a choice of tokens, and the names that find none
are noted in order. -/
theorem foldl_tintOne {entries : List (String × Token)} (hkeys : (entries.map (·.1)).Nodup)
    (hkeyed : ∀ e ∈ entries, e.2.name = e.1) (hg : (g.colors.map (·.name)).Nodup)
    (ignored : List String) : entries.foldl tintOne (g, ignored) =
      (g.recolored fun n => entries.lookup n,
        ignored ++ (entries.map (·.1)).filter (· ∉ g.colors.map (·.name))) := by
  induction entries generalizing g ignored with
  | nil => simp [recolored]
  | cons e entries ih =>
    rw [List.map_cons, List.nodup_cons] at hkeys
    rw [List.forall_mem_cons] at hkeyed
    have honly : Keyed (only e) := keyed_only hkeyed.1
    have hnames := honly.names_recolored g
    -- the name of the first entry does not come up again
    have hchoice : ∀ n, (entries.lookup n).or (only e n) = (e :: entries).lookup n := by
      intro n
      unfold only
      rw [List.lookup_cons]
      by_cases hn : n = e.1
      · have hnone : entries.lookup n = none :=
          List.lookup_eq_none_iff.2 fun e' he' => by
            simpa [hn] using fun heq : e.1 = e'.1 => hkeys.1 (heq ▸ List.mem_map_of_mem he')
        rw [hnone, if_pos hn, hn, beq_self_eq_true]
        rfl
      · rw [if_neg hn, Option.or_none, beq_false_of_ne hn]
    rw [List.foldl_cons, tintOne_eq hg, ih hkeys.2 hkeyed.2 (hnames ▸ hg),
      honly.recolored_recolored, hnames]
    simp only [hchoice, List.append_assoc, ← List.filter_append, List.map_cons,
      List.singleton_append]

/-- **`tint` chooses the theme's token for each colour that the theme has.** What the theme has on
top of that is noted. -/
theorem tint_eq {t : ColorSet} (ht : Keyed t.color?) (hg : (g.colors.map (·.name)).Nodup) :
    g.tint t = (g.recolored t.color?, t.colorNames.filter (· ∉ g.colors.map (·.name))) := by
  have hkeys : (t.colors.entries.map (·.1)).Nodup :=
    t.colors.names_sorted.imp fun hlt => String.ne_of_lt hlt
  have hkeyed : ∀ e ∈ t.colors.entries, e.2.name = e.1 := by
    intro e he
    exact ht e.1 e.2 (t.colors.get?_of_mem he)
  rw [tint, foldl_tintOne hkeys hkeyed hg]
  rfl

/-- What is noted are the names of the theme `t` that the grammar `g` lacks, in increasing order. -/
theorem mem_ignored (g : Grammar) (t : ColorSet) (n : String) :
    n ∈ t.colorNames.filter (· ∉ g.colors.map (·.name)) ↔
      t.contains n = true ∧ g.color? n = none := by
  have hlisted : n ∈ t.colorNames ↔ t.contains n = true := t.colors.mem_names_iff n
  have habsent : g.color? n = none ↔ n ∉ g.colors.map (·.name) := find?_key_eq_none_iff
  rw [List.mem_filter, hlisted, habsent, decide_eq_true_iff]

/-! ## Loading -/

theorem dress_some (g : Grammar) (name : String) (t : ColorSet) : g.dress name (some t) =
    ((g.tint t).1, if (g.tint t).2 = [] then [] else [.colorsIgnored name (g.tint t).2]) := by
  rw [dress]
  cases g.tint t with
  | mk tinted ignored => cases ignored <;> rfl

/-- The names in a grammar that is read are distinct. -/
theorem read_distinct [Markup.Decoders] {s : String} (h : read s = .ok g) :
    (g.colors.map (·.name)).Nodup := by
  unfold read at h
  cases hread : Definition.read s with
  | error fault => simp [hread] at h
  | ok d =>
    rw [hread] at h
    obtain ⟨-, -, -, hshows⟩ := ((ofDefinition_answers d).accepted g).1 h
    exact hshows.distinct

/-- **Whether a grammar loads** does not depend on the colours, and neither does why it does not. -/
theorem load_cases [Markup.Decoders] [Wording Definition.Fault] (name : String) (source : Bytes) :
    (∃ e, ∀ colors, load name source colors = ⟨[], .error e⟩) ∨
      ∃ (g : Grammar) (notices : List Notice), (g.colors.map (·.name)).Nodup ∧
        ∀ colors, load name source colors =
          ⟨notices ++ (g.dress name colors).2, .ok (g.dress name colors).1⟩ := by
  unfold load
  cases Text.Utf8.decode? source with
  | none => exact .inl ⟨_, fun _ => rfl⟩
  | some s =>
    dsimp only
    cases hread : read (String.ofList (s.toList.dropWhile (· == '\ufeff'))) with
    | error e => exact .inl ⟨_, fun _ => rfl⟩
    | ok g => exact .inr ⟨g, _, read_distinct hread, fun _ => rfl⟩

/-- **Loading in the colours of a theme.** A grammar loads with a theme exactly if it loads without,
with the same failure otherwise. It differs in its tokens only: where the theme has one of the name,
it is the theme's. The names that the theme has and the grammar has not are given back in increasing
order, and noted if there are any. Tinting once more changes nothing, and the tokens of another
theme come before those of the first. -/
theorem load_recolors [Markup.Decoders] [Wording Definition.Fault] (name : String) (source : Bytes)
    {t t' : ColorSet} (ht : t.IsBuilt) (ht' : t'.IsBuilt) :
    match (load name source none).result with
    | .error e => (load name source (some t)).result = .error e
    | .ok base => ∃ themed ignored,
        (load name source (some t)).result = .ok themed ∧
        base.tint t = (themed, ignored) ∧
        Recolors base t.color? themed ∧
        (∀ n, n ∈ ignored ↔ t.contains n = true ∧ base.color? n = none) ∧
        ignored.Pairwise (· < ·) ∧
        (load name source (some t)).notices = (load name source none).notices ++
          (if ignored = [] then [] else [.colorsIgnored name ignored]) ∧
        themed.tint t = (themed, ignored) ∧
        Recolors base (fun n => (t'.color? n).or (t.color? n)) (themed.tint t').1 := by
  have hkeyed : Keyed t.color? := fun _ _ => ht.keyed
  have hkeyed' : Keyed t'.color? := fun _ _ => ht'.keyed
  rcases load_cases name source with ⟨e, hload⟩ | ⟨base, notices, hbase, hload⟩
  · rw [hload none, hload (some t)]
  · rw [hload none, hload (some t), dress_some]
    have hnames := hkeyed.names_recolored base
    have hthemed : ((base.recolored t.color?).colors.map (·.name)).Nodup := hnames ▸ hbase
    have hboth : Keyed fun n => (t'.color? n).or (t.color? n) := by
      intro n c hc
      rcases Option.or_eq_some_iff.1 hc with hc | ⟨-, hc⟩
      · exact hkeyed' n c hc
      · exact hkeyed n c hc
    refine ⟨(base.tint t).1, (base.tint t).2, rfl, rfl, ?_⟩
    rw [tint_eq hkeyed hbase]
    refine ⟨hkeyed.recolors base, mem_ignored base t, ?_, ?_, ?_, ?_⟩
    · exact t.colors.names_sorted.filter _
    · rw [dress, List.append_nil]
    · rw [tint_eq hkeyed hthemed, hkeyed.recolored_recolored, hnames]
      simp only [Option.or_self]
    · rw [tint_eq hkeyed' hthemed, hkeyed.recolored_recolored]
      exact hboth.recolors base

/-! ## A grammar of three colours -/

/-- The file of a grammar with three colours. -/
def threeLetters : Bytes := Text.Utf8.encode
  "<a name=\"G\"><Color name=\"A\"/><Color name=\"B\"/><Color name=\"C\"/></a>"

/-- The grammar in the file `threeLetters`. -/
def letters : Grammar :=
  { name := "G", colors := [{ name := "A" }, { name := "B" }, { name := "C" }] }

/-- Calls for a theme that underlines two of the colours of `letters`, and has another one. -/
def underlining : List ColorSet.Draft.Call :=
  [.register "D", .register "A", .populate { name := "A", underline := some true },
   .register "B", .populate { name := "B", underline := some true }]

/-- Calls for a theme that has the second colour of `letters` in italics. -/
def slanting : List ColorSet.Draft.Call :=
  [.register "B", .populate { name := "B", fontStyle := some .italic }]

/-- The colours that `calls` of a theme build. -/
def built (calls : List ColorSet.Draft.Call) : ColorSet :=
  (ColorSet.Draft.run ⟨{ name := "G" }⟩ calls).1.finish

theorem threeLetters_loads : (load "G" threeLetters none).result = .ok letters := by
  have hresult : (load "G" threeLetters none).result.toOption = some letters := by decide +kernel
  cases hload : (load "G" threeLetters none).result with
  | error e => simp [hload, Except.toOption] at hresult
  | ok g => simpa [hload, Except.toOption] using hresult

/-- The first theme underlines two colours and another one is noted. The second theme takes over the
colour that both have; the colour that neither has stays as it was. -/
theorem load_recolors_letters :
    let underlined : Token := { name := "A", underline := some true }
    (built underlining).IsBuilt ∧ (built slanting).IsBuilt ∧
      ∃ themed : Grammar, (load "G" threeLetters (some (built underlining))).result = .ok themed ∧
        themed.colors = [underlined, { underlined with name := "B" }, { name := "C" }] ∧
        (load "G" threeLetters (some (built underlining))).notices =
          (load "G" threeLetters none).notices ++ [.colorsIgnored "G" ["D"]] ∧
        (themed.tint (built slanting)).1.colors =
          [underlined, { name := "B", fontStyle := some .italic }, { name := "C" }] := by
  intro underlined
  have hunderlining : (built underlining).IsBuilt :=
    ⟨"G", ⟨{ name := "G" }⟩, underlining, [], rfl, rfl⟩
  have hslanting : (built slanting).IsBuilt := ⟨"G", ⟨{ name := "G" }⟩, slanting, [], rfl, rfl⟩
  have hload := load_recolors "G" threeLetters hunderlining hslanting
  rw [threeLetters_loads] at hload
  obtain ⟨themed, ignored, hresult, htint, hfirst, -, -, hnotices, -, hsecond⟩ := hload
  have hignored : ignored = ["D"] :=
    (congrArg Prod.snd htint).symm.trans (by decide +kernel)
  rw [hignored] at hnotices
  refine ⟨hunderlining, hslanting, themed, hresult, ?_, hnotices, ?_⟩
  · rw [hfirst.colors]
    decide +kernel
  · rw [hsecond.colors]
    decide +kernel

end Grammar

end Livery
