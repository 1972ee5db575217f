import Livery.Overlay.Loading
import Livery.Overlay.Styling
import Livery.Proofs.Places
import Mathlib.Data.List.TakeWhile

/-!
# What styles write

Applying styles is writing colours to a sink, style by style, up to the first style whose kind is
unknown. An overlay that is read under the schema has no such style, and neither has its model.

* `applyFrom_sink`, `applyFrom_result`: what a sink is given, and how it ends.
* `applyStyles_supported`: with known kinds only, everything is written.
* `load_styles`: the styles of a loaded overlay are those of its document, all of known kinds.
-/

namespace Livery.Overlay

/-! ## The colours of a style -/

/-- The `StyleKind` of the style is known. -/
def GlobalStyle.isSupported (s : GlobalStyle) : Bool := (StyleKind.ofName? s.typeName).isSome

/-- What the style `s` writes to one of its targets. -/
def GlobalStyle.write? (s : GlobalStyle) (target : Slot × Channel) : Option (Slot × Color) :=
  (s.brush? target.2).map fun brush => (target.1, brush.color)

/-- What the style `s` writes, in order: for every slot of its kind the colour it has for that. -/
def GlobalStyle.writes (s : GlobalStyle) : List (Slot × Color) :=
  match StyleKind.ofName? s.typeName with
  | none => []
  | some kind => kind.targets.filterMap s.write?

variable {σ : Type}

/-- The sink `sink` after some `writes`. -/
def Sink.writeAll (set : Sink σ) (sink : σ) (writes : List (Slot × Color)) : σ :=
  writes.foldl (fun s w => set s w.1 w.2) sink

@[simp] theorem Sink.writeAll_append (set : Sink σ) (sink : σ) (ws ws' : List (Slot × Color)) :
    set.writeAll sink (ws ++ ws') = set.writeAll (set.writeAll sink ws) ws' :=
  List.foldl_append

/-- Writing the `targets` of a style one by one is writing what the style has for them. -/
theorem foldl_applyTarget (set : Sink σ) (theme : String) (style : GlobalStyle)
    (acc : σ × List Notice) (targets : List (Slot × Channel)) :
    (targets.foldl (applyTarget set theme style) acc).1 =
      set.writeAll acc.1 (targets.filterMap style.write?) := by
  induction targets generalizing acc with
  | nil => rfl
  | cons target targets ih =>
    rw [List.foldl_cons, ih, List.filterMap_cons, applyTarget, GlobalStyle.write?]
    cases style.brush? target.2 with
    | none => rfl
    | some brush => rfl

/-- **A sink is given what the styles before the first unknown one write**, in order. -/
theorem applyFrom_sink (set : Sink σ) (theme : String) (acc : σ × List Notice)
    (styles : List GlobalStyle) : (applyFrom set theme acc styles).sink =
      set.writeAll acc.1 ((styles.takeWhile (·.isSupported)).flatMap (·.writes)) := by
  induction styles generalizing acc with
  | nil => rfl
  | cons style styles ih =>
    rw [applyFrom, List.takeWhile_cons, GlobalStyle.isSupported]
    cases hkind : StyleKind.ofName? style.typeName with
    | none => rfl
    | some kind =>
      have hwrites : style.writes = kind.targets.filterMap style.write? := by
        rw [GlobalStyle.writes, hkind]
      simp only [Option.isSome_some, if_true]
      rw [ih, foldl_applyTarget, List.flatMap_cons, Sink.writeAll_append, hwrites]

/-- It ends with the first unknown style, if there is one. -/
theorem applyFrom_result (set : Sink σ) (theme : String) (acc : σ × List Notice)
    (styles : List GlobalStyle) : (applyFrom set theme acc styles).result =
      match styles.find? (!·.isSupported) with
      | none => .ok ()
      | some style => .error (.unsupportedStyle style.typeName) := by
  induction styles generalizing acc with
  | nil => rfl
  | cons style styles ih =>
    rw [applyFrom, List.find?_cons, GlobalStyle.isSupported]
    cases StyleKind.ofName? style.typeName with
    | none => rfl
    | some kind => exact ih _

/-- **Styles of known kinds are written in full.** -/
theorem applyStyles_supported (set : Sink σ) {m : Model} (sink : σ)
    (h : ∀ s ∈ m.globalStyles, s.isSupported = true) :
    (applyStyles set m sink).result = .ok () ∧
      (applyStyles set m sink).sink = set.writeAll sink (m.globalStyles.flatMap (·.writes)) := by
  have hfind : m.globalStyles.find? (!·.isSupported) = none := by
    rw [List.find?_eq_none]
    intro s hs
    simp [h s hs]
  constructor
  · rw [applyStyles, applyFrom_result, hfind]
  · rw [applyStyles, applyFrom_sink, List.takeWhile_eq_self_iff.2 h]

/-! ## The styles of an overlay -/

/-- A style that is read under the schema is of a known `StyleKind`. -/
theorem Declares.isSupported [Markup.Decoders] {input : Bytes} {e : Markup.Element}
    {d : StyleDeclaration}
    (h : Declares ⟨input, true⟩ e (.globalStyle d)) : d.style.isSupported = true := by
  cases h with
  | globalStyle _ h =>
    simp only [Reader.globalStyle, Bool.true_and] at h
    split at h
    · cases h
    · next hkind =>
      simp only [bind_eq_ok, pure_eq_ok] at h
      obtain ⟨_, -, _, -, _, -, _, -, _, -, rfl⟩ := h
      rw [Option.isNone_iff_eq_none, ← ne_eq, Option.ne_none_iff_isSome] at hkind
      exact hkind

theorem Document.mem_items {document : Document} {d : StyleDeclaration}
    (h : d ∈ document.globalStyles) : .globalStyle d ∈ document.items := by
  unfold Document.globalStyles at h
  rw [List.mem_filterMap] at h
  obtain ⟨declaration, hmem, hd⟩ := h
  cases declaration with
  | globalStyle d' =>
    obtain rfl := Option.some.inj hd
    exact List.mem_flatMap.2 ⟨_, hmem, List.mem_singleton_self _⟩
  | _ => cases hd

/-- An overlay that is read under the schema has styles of known kinds only. -/
theorem read_supported [Markup.Decoders] {input : Bytes} {document : Document}
    (h : read input true = .ok document) :
    ∀ d ∈ document.globalStyles, d.style.isSupported = true := by
  intro d hd
  obtain ⟨e, -, he⟩ := (Reader.document_sourced h).declared (Document.mem_items hd)
  exact he.isSupported

/-- `resolve` keeps the styles. -/
theorem resolve_styles {document : Document} {m : Model} (h : resolve document = .ok m) :
    m.globalStyles = document.globalStyles.map StyleDeclaration.style := by
  simp only [resolve, bind_eq_ok, pure_eq_ok] at h
  obtain ⟨_, -, _, -, rfl⟩ := h
  rfl

/-- Positions do not count for the styles of `d`. -/
theorem Document.styles_unplaced (d : Document) :
    d.unplaced.globalStyles.map StyleDeclaration.style =
      d.globalStyles.map StyleDeclaration.style := by
  simp only [unplaced, globalStyles, List.filterMap_map, List.map_filterMap]
  congr 1
  funext e
  cases e <;> rfl

/-- Nor do they count for how many colour sets `d` has. -/
theorem Document.colorSets_unplaced (d : Document) :
    d.unplaced.colorSets.length = d.colorSets.length := by
  obtain ⟨name, declarations⟩ := d
  induction declarations with
  | nil => rfl
  | cons e more ih => cases e <;> simp_all [unplaced, colorSets, Declaration.unplaced]

/-- To `load` an overlay is to `read` it under the schema and to `resolve` it. -/
theorem load_ok_iff [Markup.Decoders] {data : Bytes} {m : Model} :
    (load data).result = .ok m ↔
      ∃ document, read data true = .ok document ∧ resolve document = .ok m := by
  simp only [load, readSource]
  cases hread : read data true with
  | error f => simp
  | ok document => cases hresolve : resolve document <;> simp [hresolve]

/-- **The styles of a loaded overlay are those of its document**, all of known kinds. -/
theorem load_styles [Markup.Decoders] {data : Bytes} {m : Model} (h : (load data).result = .ok m) :
    ∃ document, read data true = .ok document ∧ resolve document = .ok m ∧
      m.globalStyles = document.globalStyles.map StyleDeclaration.style ∧
      ∀ s ∈ m.globalStyles, s.isSupported = true := by
  obtain ⟨document, hread, hresolve⟩ := load_ok_iff.1 h
  have hstyles := resolve_styles hresolve
  refine ⟨document, hread, hresolve, hstyles, fun s hs => ?_⟩
  rw [hstyles, List.mem_map] at hs
  obtain ⟨d, hd, rfl⟩ := hs
  exact read_supported hread d hd

end Livery.Overlay
