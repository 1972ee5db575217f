import Livery.Libraries
import Livery.Proofs.Blanks
import Livery.Proofs.Defects

/-!
# The keys of extensions

An extension is looked up by its key: without white space around it, without the dots at its front,
and in lower case, in this order and once. White space behind the dots comes to the front only when
they are gone, and is still in the key. An extension without it is steady: its key is a key of
itself, and may stand for it wherever it is registered or looked up.

* `normalize_normalize_iff`: the extensions whose keys are their own keys.
* `register_key`, `definitionFor_key`: the key of a steady extension stands for it.
* `extension_keys`: the steady extensions are the ones whose keys find the same in every registry.
-/

namespace Livery

namespace Extension

/-- What is left of the extension `s` without white space around it and without dots at its
front. -/
def bare (s : String) : List Char := (Text.trimmed s.toList).dropWhile (· == '.')

/-- Behind the dots at the front of the extension `s` there is no white space. -/
def IsSteady (s : String) : Prop := ∀ c ∈ (bare s).head?, Text.isBlank c = false

instance (s : String) : Decidable (IsSteady s) :=
  match h : (bare s).head? with
  | none => isTrue fun c hc => by rw [h] at hc; cases hc
  | some c => decidable_of_iff (Text.isBlank c = false) (by simp [IsSteady, h])

theorem normalize_toList (s : String) : (normalize s).toList = (bare s).map Char.toLower := by
  rw [normalize, Text.lower_toList, String.toList_ofList]
  rfl

/-- What the steps of `normalize` do to a key. -/
theorem bare_normalize (s : String) :
    bare (normalize s) = ((Text.trimmed (bare s)).dropWhile (· == '.')).map Char.toLower := by
  have hdot : ((· == '.') ∘ Char.toLower : Char → Bool) = (· == '.') := funext Text.toLower_beq_dot
  rw [bare, normalize_toList, Text.trimmed_map_toLower, List.dropWhile_map, hdot]

/-- There is no white space at the end of `bare s`, whatever stands at the front. -/
theorem IsSteady.isTight {s : String} (h : IsSteady s) : Text.IsTight (bare s) := by
  refine ⟨h, ?_⟩
  intro c hc
  obtain ⟨front, hfront⟩ := List.dropWhile_suffix (· == '.') (l := Text.trimmed s.toList)
  apply (Text.isTight_trimmed s.toList).last
  have hbare : front ++ bare s = Text.trimmed s.toList := hfront
  rw [← hbare, List.getLast?_append, Option.mem_def.1 hc]
  rfl

/-- **The extensions whose keys are their own keys** are those of which `IsSteady` holds. -/
theorem normalize_normalize_iff (s : String) :
    normalize (normalize s) = normalize s ↔ IsSteady s := by
  rw [← String.toList_inj, normalize_toList, normalize_toList, bare_normalize, List.map_map]
  constructor
  · intro h
    -- nothing is lost the second time, so there was no white space to be taken off
    have hlength := congrArg List.length h
    rw [List.length_map, List.length_map] at hlength
    have hdots := (List.dropWhile_sublist (· == '.') (l := Text.trimmed (bare s))).length_le
    have htrim := Text.trimmed_sublist (bare s)
    have hsame : Text.trimmed (bare s) = bare s := by
      apply htrim.eq_of_length
      have := htrim.length_le
      omega
    exact (Text.trimmed_eq_self_iff.1 hsame).head
  · intro h
    have hlower : Char.toLower ∘ Char.toLower = Char.toLower := funext Text.toLower_toLower
    rw [h.isTight.trimmed_eq, hlower, bare, List.dropWhile_idempotent]

end Extension

open Extension (normalize IsSteady)

/-- **The key of a steady extension is registered for it.** -/
theorem GrammarTable.register_key {s : String} (h : IsSteady s) (t : GrammarTable) (name : String)
    (before after : List String) (slot : GrammarSlot) :
    t.register name (before ++ normalize s :: after) slot =
      t.register name (before ++ s :: after) slot := by
  have hgrant : ∀ owners : NameMap String,
      grant name owners (normalize s) = grant name owners s := by
    intro owners
    rw [grant, grant, (Extension.normalize_normalize_iff s).2 h]
  simp only [register, List.foldl_append, List.foldl_cons, hgrant]

namespace Registry

variable {s : String}

/-- **The key of a steady extension is looked up for it.** -/
theorem definitionFor_key [Markup.Decoders] (h : IsSteady s) (env : Environment) (r : Registry)
    (j : Journal) : r.definitionFor env j (normalize s) = r.definitionFor env j s := by
  have howner : r.theme.grammars.owner? (normalize s) = r.theme.grammars.owner? s := by
    rw [GrammarTable.owner?, GrammarTable.owner?, (Extension.normalize_normalize_iff s).2 h]
  rw [definitionFor, definitionFor, Theme.definitionFor, Theme.definitionFor, howner]

/-- One theme, and no grammars. -/
def bareCatalog : Catalog := ⟨"Day", [⟨"Day", "", "day", none⟩], []⟩

theorem bareCatalog_usable : bareCatalog.Usable := by
  constructor <;> simp [bareCatalog]

/-- Where one grammar is registered, an extension is its owner's exactly if the keys are the
same. -/
theorem definitionFor_register [Markup.Decoders] {r : Registry} (hstarts : r.Starts bareCatalog)
    (env : Environment) (g : Grammar) (s x : String) :
    ((r.register "X" [s] g).definitionFor env [] x).result =
      .ok (if normalize x = normalize s then some ⟨"Day", 0, g⟩ else none) := by
  obtain ⟨e, table, he, htheme, hstock⟩ := hstarts.theme
  have hkey : r.theme.key = "Day" := hstarts.currentKey
  have htable : r.theme.grammars = table := by rw [htheme]
  have hticket : r.theme.grammars.nextTicket = 0 := by
    rw [htable]
    exact hstock.nextTicket
  have howner : (r.register "X" [s] g).theme.grammars.owner? x =
      if normalize x = normalize s then some "X" else none := by
    have hnone : r.theme.grammars.owners.get? (normalize x) = none := by
      rw [htable, hstock.owners]
      rfl
    rw [register, theme_withTheme, GrammarTable.owner?]
    have hgrant := GrammarTable.get?_foldl_grant "X" [s] r.theme.grammars.owners (normalize x)
    rw [hnone, List.map_singleton] at hgrant
    simp only [List.mem_singleton] at hgrant
    exact hgrant
  have hslot : (r.register "X" [s] g).theme.grammars.get? "X" = some ⟨0, .loaded g⟩ := by
    rw [register, theme_withTheme, Theme.register, GrammarTable.get?_register, if_pos rfl, hticket]
  have hname : (r.register "X" [s] g).theme.key = "Day" := by
    rw [register, theme_withTheme]
    exact hkey
  rw [definitionFor, onTheme, Outcome.within, Theme.definitionFor, howner]
  by_cases hkeys : normalize x = normalize s
  · simp only [if_pos hkeys, Theme.definition, hslot, hname]
  · simp only [if_neg hkeys]

/-- **Where keys stand for extensions.** The steady extensions are the ones whose keys are their own
keys, and the ones that find the same as their keys in every registry, whatever was called on it.
To register something for such an extension is to register it for the key. -/
theorem extension_keys [Markup.Decoders] [Wording Definition.Fault] (s : String) :
    (normalize (normalize s) = normalize s ↔ IsSteady s) ∧
    (IsSteady s ↔ ∀ (env : Environment) (c : Catalog) (r : Registry), ofCatalog c = .ok r →
      ∀ calls, (run env r [] calls).1.definitionFor env (run env r [] calls).2.1 (normalize s) =
        (run env r [] calls).1.definitionFor env (run env r [] calls).2.1 s) ∧
    (IsSteady s → ∀ (t : GrammarTable) name before after slot,
      t.register name (before ++ normalize s :: after) slot =
        t.register name (before ++ s :: after) slot) := by
  refine ⟨Extension.normalize_normalize_iff s, ⟨?_, ?_⟩, ?_⟩
  · intro h env c r _ calls
    exact definitionFor_key h env _ _
  · intro h
    -- a registry in which the extension has an owner
    obtain ⟨r, hr, hstarts⟩ := starts_ofCatalog bareCatalog_usable
    let env : Environment := .ofStore fun resource => .error (.resourceNotFound resource)
    have hsame := h env bareCatalog r hr [.register "X" [s] { name := "X" }]
    have hresult := congrArg Outcome.result hsame
    have hfound := definitionFor_register hstarts env { name := "X" } s s
    have hlost := definitionFor_register hstarts env { name := "X" } s (normalize s)
    have hanswers := hlost.symm.trans (hresult.trans hfound)
    rw [if_pos rfl, Except.ok.injEq] at hanswers
    rw [← Extension.normalize_normalize_iff]
    by_contra hne
    rw [if_neg hne] at hanswers
    cases hanswers
  · intro h t name before after slot
    exact GrammarTable.register_key h t name before after slot

/-- White space outside the dots: the key is `cs`, and `cs` is registered for it. -/
theorem extension_keys_upper :
    IsSteady " ..CS " ∧ normalize (normalize " ..CS ") = normalize " ..CS " ∧
      ∀ (t : GrammarTable) slot,
        t.register "C#" [normalize " ..CS "] slot = t.register "C#" [" ..CS "] slot := by
  have hsteady : IsSteady " ..CS " := by decide +kernel
  obtain ⟨hkey, -, hregister⟩ := extension_keys " ..CS "
  exact ⟨hsteady, hkey.2 hsteady, fun t slot => hregister hsteady t "C#" [] [] slot⟩

/-- White space behind the dots: the key has another key. What is registered for such an extension
is found for it, and for its key there is nothing. -/
theorem dotted_key_lost :
    normalize (normalize ". .cs") ≠ normalize ". .cs" ∧
      ∃ r, ofCatalog bareCatalog = .ok r ∧ ∀ env,
        let calls : List Call := [.register "X" [". .cs"] { name := "X" }]
        ((run env r [] calls).1.definitionFor env [] ". .cs").result =
          .ok (some ⟨"Day", 0, { name := "X" }⟩) ∧
        ((run env r [] calls).1.definitionFor env [] (normalize ". .cs")).result = .ok none := by
  have hlost : normalize (normalize ". .cs") ≠ normalize ". .cs" := by decide +kernel
  obtain ⟨r, hr, hstarts⟩ := starts_ofCatalog bareCatalog_usable
  refine ⟨hlost, r, hr, ?_⟩
  intro env calls
  have hfound := definitionFor_register hstarts env { name := "X" } ". .cs" ". .cs"
  have hmissed := definitionFor_register hstarts env { name := "X" } ". .cs" (normalize ". .cs")
  rw [if_pos rfl] at hfound
  rw [if_neg hlost] at hmissed
  exact ⟨hfound, hmissed⟩

end Registry

end Livery
