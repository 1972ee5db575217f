import Livery.Catalog.Encoding
import Livery.Proofs.JsonText

/-!
# Catalogs read back

* `list_readings`: a list of what reads back, one by one.
* `record_theme`, `record_grammar`, `record_catalog`: the fields of each record under the names they
  are written with, none of them twice and none missing.
* `ofJson_json`: a catalog from its own text.
-/

namespace Livery.Catalog

open Json

/-- A list reads back if `item` reads each of its items back. -/
theorem list_readings {α : Type} {item : Decoder α} {form : α → Json.Value}
    (h : ∀ a, item (form a).reading = .ok a) (as : List α) :
    list item (.array (Value.readings (as.map form))) = .ok as := by
  rw [list, Value.readings_eq, List.map_map]
  induction as with
  | nil => rfl
  | cons a as ih =>
    rw [List.map_cons, List.mapM_cons, Function.comp_apply, h, ih]
    rfl

/-- The theme `t` reads back from its `themeValue`. An overlay that is not there is not written, and
one that is not written is not there. -/
theorem record_theme (t : ThemeEntry) : record themeForm {} (themeValue t).reading = .ok t := by
  obtain ⟨key, displayName, basePrefix, overlay⟩ := t
  cases overlay with
  | none => rfl
  | some r => rfl

/-- Taking one more field leads on to the fields behind it. -/
theorem foldlM_takeMember {δ α : Type} {form : RecordForm δ α} {draft draft' : δ} {name : String}
    {r : Reading} (h : form.take draft name r = .ok draft') (ms : List (Option String × Reading)) :
    ((some name, r) :: ms).foldlM form.takeMember draft = ms.foldlM form.takeMember draft' := by
  rw [List.foldlM_cons, RecordForm.takeMember, h]
  rfl

/-- A field that was not there before holds what `item` reads of it. -/
theorem once_none {α : Type} {name : String} {item : Decoder α} {r : Reading} {a : α}
    (h : item r = .ok a) : once name none item r = .ok (some a) := by
  rw [once, h]
  rfl

theorem record_grammar (g : BuiltinGrammar) :
    record grammarForm {} (grammarValue g).reading = .ok g := by
  have hextensions : list text (.array (Value.readings (g.extensions.map .string))) =
      .ok g.extensions := list_readings (fun _ => rfl) _
  have hname : grammarForm.take {} "name" (.string (some g.name)) =
      .ok { name := some g.name } := rfl
  have htake : grammarForm.take { name := some g.name } "extensions"
      (.array (Value.readings (g.extensions.map .string))) =
      .ok { name := some g.name, extensions := some g.extensions } := by
    simp only [grammarForm, once_none hextensions]
    rfl
  rw [grammarValue, Value.reading, record]
  simp only [Value.memberReadings, textsValue, Value.reading]
  rw [foldlM_takeMember hname, foldlM_takeMember htake]
  rfl

theorem record_catalog (c : Catalog) : record catalogForm {} c.value.reading = .ok c := by
  have hcurrent : catalogForm.take {} "current" (.string (some c.current)) =
      .ok { current := some c.current } := rfl
  have hthemes : catalogForm.take { current := some c.current } "themes"
      (.array (Value.readings (c.themes.map themeValue))) =
      .ok { current := some c.current, themes := some c.themes } := by
    simp only [catalogForm, once_none (list_readings record_theme c.themes)]
    rfl
  have hgrammars : catalogForm.take { current := some c.current, themes := some c.themes }
      "grammars" (.array (Value.readings (c.grammars.map grammarValue))) =
      .ok { current := some c.current, themes := some c.themes, grammars := some c.grammars } := by
    simp only [catalogForm, once_none (list_readings record_grammar c.grammars)]
    rfl
  rw [value, Value.reading, record]
  simp only [Value.memberReadings, Value.reading]
  rw [foldlM_takeMember hcurrent, foldlM_takeMember hthemes, foldlM_takeMember hgrammars]
  rfl

/-- Every catalog is decoded from its own text `c.json`, usable or not. -/
theorem decode_json (c : Catalog) : decode c.json = .ok c := by
  simp only [decode, json, read_text, record_catalog]
  rfl

/-- **A catalog reads back from its own text.** Whatever its texts, themes and grammars are, the
text is decoded as this catalog and no other has it. So reading it gives the catalog if it is
usable, and otherwise the defect that validation finds in it. -/
theorem ofJson_json [Wording Json.Mismatch] (c : Catalog) :
    decode c.json = .ok c ∧ (ofJson c.json = c.validate.map fun _ => c) ∧
      ∀ c' : Catalog, c'.json = c.json ↔ c' = c := by
  refine ⟨decode_json c, ?_, fun c' => ⟨fun h => ?_, fun h => h ▸ rfl⟩⟩
  · simp only [ofJson, decode_json]
    cases c.validate with
    | ok => rfl
    | error e => rfl
  · have hdecode := decode_json c'
    rw [h, decode_json c] at hdecode
    exact (Except.ok.inj hdecode).symm

end Livery.Catalog
