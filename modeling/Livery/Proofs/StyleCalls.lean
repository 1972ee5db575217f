import Livery.Proofs.Search
import Livery.Proofs.Styles

/-!
# The calls that styles make

Whatever a sink does with a colour, applying styles calls it for the same slots with the same
colours: for the styles of known kinds up to the first of an unknown one, in order, and for the
slots of each kind, in order, as far as the style has a colour for them.

* `Sink.logging`: a sink beside a record of its calls.
* `exists_known`: the styles up to the first of an unknown kind, each with its kind.
* `applyStyles_calls`: the calls, and how it ends.
-/

namespace Livery

namespace StyleKind

/-- A kind is known by exactly its `name`. -/
theorem ofName?_eq_some_iff {name : String} {kind : StyleKind} :
    ofName? name = some kind ↔ kind.name = name := by
  constructor
  · exact fun h => (of_find?_key h).2
  · rintro rfl
    cases kind <;> rfl

theorem ofName?_eq_none_iff {name : String} :
    ofName? name = none ↔ ∀ kind : StyleKind, kind.name ≠ name := by
  rw [← not_iff_not, ← ne_eq, Option.ne_none_iff_exists']
  simp only [ofName?_eq_some_iff]
  push Not
  rfl

end StyleKind

namespace Overlay

variable {σ : Type}

/-- The sink `set` beside a record of the calls that it gets. -/
def Sink.logging (set : Sink σ) : Sink (σ × List (Slot × Color)) :=
  fun s slot color => (set s.1 slot color, s.2 ++ [(slot, color)])

theorem Sink.writeAll_logging (set : Sink σ) (sink : σ) (calls writes : List (Slot × Color)) :
    set.logging.writeAll (sink, calls) writes = (set.writeAll sink writes, calls ++ writes) := by
  induction writes generalizing sink calls with
  | nil => simp [writeAll]
  | cons w writes ih =>
    have hnext := ih (set sink w.1 w.2) (calls ++ [w])
    rw [List.append_assoc] at hnext
    exact hnext

/-- The styles up to the first of an unknown kind, each with its `StyleKind`. -/
theorem exists_known (styles : List GlobalStyle) :
    ∃ (known : List (GlobalStyle × StyleKind)) (rest : List GlobalStyle),
      styles = known.map (·.1) ++ rest ∧ (∀ s ∈ known, s.2.name = s.1.typeName) ∧
        ∀ s ∈ rest.head?, ∀ kind : StyleKind, kind.name ≠ s.typeName := by
  induction styles with
  | nil => exact ⟨[], [], rfl, by simp, by simp⟩
  | cons style styles ih =>
    cases hkind : StyleKind.ofName? style.typeName with
    | none =>
      refine ⟨[], style :: styles, rfl, by simp, fun s hs => ?_⟩
      obtain rfl := Option.some.inj hs
      exact StyleKind.ofName?_eq_none_iff.1 hkind
    | some kind =>
      obtain ⟨known, rest, rfl, hknown, hrest⟩ := ih
      exact ⟨(style, kind) :: known, rest, rfl,
        List.forall_mem_cons.2 ⟨StyleKind.ofName?_eq_some_iff.1 hkind, hknown⟩, hrest⟩

/-- **Styles of known kinds are written one after the other**, and then the rest is applied. -/
theorem applyFrom_known (set : Sink σ) (theme : String) {known : List (GlobalStyle × StyleKind)}
    (hknown : ∀ s ∈ known, s.2.name = s.1.typeName) (rest : List GlobalStyle)
    (acc : σ × List Notice) : ∃ notices, applyFrom set theme acc (known.map (·.1) ++ rest) =
      applyFrom set theme
        (set.writeAll acc.1 (known.flatMap fun s => s.2.targets.filterMap s.1.write?), notices)
        rest := by
  induction known generalizing acc with
  | nil => exact ⟨acc.2, rfl⟩
  | cons s known ih =>
    rw [List.forall_mem_cons] at hknown
    obtain ⟨notices, hrest⟩ := ih hknown.2 (s.2.targets.foldl (applyTarget set theme s.1) acc)
    refine ⟨notices, ?_⟩
    rw [List.map_cons, List.cons_append, applyFrom, StyleKind.ofName?_eq_some_iff.2 hknown.1]
    dsimp only
    rw [hrest, foldl_applyTarget, List.flatMap_cons, Sink.writeAll_append]

/-- How it ends if these styles are left, the first of them of an unknown kind. -/
def ending : List GlobalStyle → Except ThemeError Unit
  | [] => .ok ()
  | style :: _ => .error (.unsupportedStyle style.typeName)

theorem applyFrom_rest (set : Sink σ) (theme : String) {rest : List GlobalStyle}
    (hrest : ∀ s ∈ rest.head?, ∀ kind : StyleKind, kind.name ≠ s.typeName)
    (acc : σ × List Notice) : applyFrom set theme acc rest = ⟨acc.1, acc.2, ending rest⟩ := by
  cases rest with
  | nil => rfl
  | cons s rest =>
    rw [applyFrom, StyleKind.ofName?_eq_none_iff.2 (hrest s rfl)]
    rfl

/-- **Applying styles** writes those of `known` kinds, and ends with what is left of them. -/
theorem applyStyles_split (set : Sink σ) {m : Model} (sink : σ)
    {known : List (GlobalStyle × StyleKind)} {rest : List GlobalStyle}
    (hstyles : m.globalStyles = known.map (·.1) ++ rest)
    (hknown : ∀ s ∈ known, s.2.name = s.1.typeName)
    (hrest : ∀ s ∈ rest.head?, ∀ kind : StyleKind, kind.name ≠ s.typeName) :
    (applyStyles set m sink).sink =
        set.writeAll sink (known.flatMap fun s => s.2.targets.filterMap s.1.write?) ∧
      (applyStyles set m sink).result = ending rest := by
  obtain ⟨notices, happly⟩ := applyFrom_known set m.name hknown rest (sink, [])
  rw [applyStyles, hstyles, happly, applyFrom_rest set m.name hrest]
  exact ⟨rfl, rfl⟩

/-- **The calls on any sink.** Let some styles of a model be those before the first whose type name
is that of no kind. The sink is called for these styles in order, and for the slots of their kinds
in order, once for each colour that the style has for such a slot, and not at all otherwise. It
ends with the first name that is unknown, if there is one. -/
theorem applyStyles_calls (set : Sink σ) (m : Model) (sink : σ) :
    ∃ (known : List (GlobalStyle × StyleKind)) (rest : List GlobalStyle)
      (calls : List (Slot × Color)),
      m.globalStyles = known.map (·.1) ++ rest ∧
      (∀ s ∈ known, s.2.name = s.1.typeName) ∧
      (∀ s ∈ rest.head?, ∀ kind : StyleKind, kind.name ≠ s.typeName) ∧
      calls = (known.flatMap fun s => s.2.targets.filterMap fun target =>
        (s.1.brush? target.2).map fun brush => (target.1, brush.color)) ∧
      (applyStyles set.logging m (sink, [])).sink = (set.writeAll sink calls, calls) ∧
      (applyStyles set.logging m (sink, [])).result = ending rest ∧
      (applyStyles set m sink).sink = set.writeAll sink calls ∧
      (applyStyles set m sink).result = ending rest := by
  obtain ⟨known, rest, hstyles, hknown, hrest⟩ := exists_known m.globalStyles
  have hplain := applyStyles_split set sink hstyles hknown hrest
  have hlogged := applyStyles_split set.logging (sink, []) hstyles hknown hrest
  rw [Sink.writeAll_logging, List.nil_append] at hlogged
  exact ⟨known, rest, _, hstyles, hknown, hrest, rfl, hlogged.1, hlogged.2, hplain.1, hplain.2⟩

/-- A style of an unknown kind stands between two others. -/
example :
    (applyStyles recorded
      { name := "Dark",
        globalStyles :=
          [{ typeName := "LineNumbersForeground", foreground := some (.fixed .transparent) },
           { typeName := "Gutter", background := some (.fixed .transparent) },
           { typeName := "NonPrintableCharacter", foreground := some (.system .window) }] } []).sink
      = [(.lineNumbersForeground, .transparent)] := rfl

end Overlay

end Livery
