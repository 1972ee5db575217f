import Livery.ResourceTable
import Livery.Proofs.Search
import Livery.Proofs.Styles
import Mathlib.Data.List.Induction

/-!
# Styles in a resource table

A table that takes the colours of styles ends up as if the calls that a recording sink gets were
made on it afterwards. Each slot with a colour has the one of the last call for it, and every other
slot is as it was.

* `get?_recolor`, `RecoloredBy.writeAll`: one call and any number of them.
* `styledAll_recolored`: any number of models, one after the other.
* `SameKinds`: what no call changes.
* `styles_replayed`: the table against the recording sink, and models that are applied again.
-/

namespace Livery

open Overlay (Model applyStyles)

/-- The value with `color` for its colour, if it is one. -/
def ResourceValue.recolored (color : Color) : ResourceValue → ResourceValue
  | .color _ => .color color
  | .opaqueText text => .opaqueText text

namespace ResourceTable

variable {t t' t'' : ResourceTable} {calls calls' : List (Slot × Color)}

/-! ## Calls -/

/-- **One call**: a colour in the slot gives way, and nothing else changes. -/
theorem get?_recolor (t : ResourceTable) (slot s : Slot) (color : Color) :
    (t.recolor slot color).get? s =
      if s = slot then (t.get? s).map (·.recolored color) else t.get? s := by
  by_cases hs : s = slot
  · subst hs
    rw [if_pos rfl]
    cases hheld : t.get? s with
    | none => simp [recolor, color?, hheld]
    | some value => cases value <;> simp [recolor, color?, hheld, ResourceValue.recolored]
  · rw [if_neg hs]
    unfold recolor
    split
    · rw [get?_insert, if_neg hs]
    · rfl

/-- The colour of the last of `calls` for `slot`, if there is one. -/
def lastColor? (calls : List (Slot × Color)) (slot : Slot) : Option Color :=
  (calls.reverse.find? (·.1 == slot)).map (·.2)

theorem lastColor?_concat (calls : List (Slot × Color)) (call : Slot × Color) (slot : Slot) :
    lastColor? (calls ++ [call]) slot =
      if slot = call.1 then some call.2 else lastColor? calls slot := by
  unfold lastColor?
  rw [find?_key_concat]
  split_ifs <;> rfl

/-- The table `t'` is `t` behind `calls`: each colour is that of the last call for its slot, or as
it was if there was none, and all else is as it was. -/
structure RecoloredBy (calls : List (Slot × Color)) (t t' : ResourceTable) : Prop where
  colored : ∀ slot old, t.get? slot = some (.color old) →
    t'.get? slot = some (.color ((lastColor? calls slot).getD old))
  opaqueText : ∀ slot text, t.get? slot = some (.opaqueText text) →
    t'.get? slot = some (.opaqueText text)
  missing : ∀ slot, t.get? slot = none → t'.get? slot = none

namespace RecoloredBy

theorem nil (t : ResourceTable) : RecoloredBy [] t t :=
  ⟨fun _ _ h => h, fun _ _ h => h, fun _ h => h⟩

theorem concat (h : RecoloredBy calls t t') (call : Slot × Color) :
    RecoloredBy (calls ++ [call]) t (t'.recolor call.1 call.2) where
  colored slot old hslot := by
    rw [get?_recolor, h.colored slot old hslot, lastColor?_concat]
    split_ifs <;> rfl
  opaqueText slot text hslot := by
    rw [get?_recolor, h.opaqueText slot text hslot]
    split_ifs <;> rfl
  missing slot hslot := by
    rw [get?_recolor, h.missing slot hslot]
    split_ifs <;> rfl

/-- **Any number of calls.** -/
theorem writeAll (t : ResourceTable) (calls : List (Slot × Color)) :
    RecoloredBy calls t (Overlay.Sink.writeAll recolor t calls) := by
  induction calls using List.reverseRecOn with
  | nil => exact nil t
  | append_singleton calls call ih =>
    rw [Overlay.Sink.writeAll_append]
    exact ih.concat call

/-- The calls leave no choice of a table. -/
theorem unique (h : RecoloredBy calls t t') (h' : RecoloredBy calls t t'') : t' = t'' := by
  ext1 slot
  cases hslot : t.get? slot with
  | none => rw [h.missing slot hslot, h'.missing slot hslot]
  | some value =>
    cases value with
    | color old => rw [h.colored slot old hslot, h'.colored slot old hslot]
    | opaqueText text => rw [h.opaqueText slot text hslot, h'.opaqueText slot text hslot]

/-- The same `calls`, made again, change nothing. -/
theorem again (h : RecoloredBy calls t t') : RecoloredBy calls t' t' where
  colored slot old hslot := by
    cases hbefore : t.get? slot with
    | none =>
      rw [h.missing slot hbefore] at hslot
      cases hslot
    | some value =>
      cases value with
      | opaqueText text =>
        rw [h.opaqueText slot text hbefore] at hslot
        cases hslot
      | color first =>
        rw [h.colored slot first hbefore] at hslot ⊢
        cases hslot
        -- the last call for the slot, if there is one, is the last one again
        cases lastColor? calls slot <;> rfl
  opaqueText _ _ hslot := hslot
  missing _ hslot := hslot

end RecoloredBy

/-! ## What no call changes -/

/-- The same slots are missing in `t` and `t'`, the same ones hold colours, and the others hold the
same. -/
structure SameKinds (t t' : ResourceTable) : Prop where
  missing : ∀ slot, t'.get? slot = none ↔ t.get? slot = none
  colored : ∀ slot, (t'.color? slot).isSome = true ↔ (t.color? slot).isSome = true
  opaqueText : ∀ slot text,
    t'.get? slot = some (.opaqueText text) ↔ t.get? slot = some (.opaqueText text)

theorem isSome_color? (t : ResourceTable) (slot : Slot) :
    (t.color? slot).isSome = true ↔ ∃ c, t.get? slot = some (.color c) := by
  unfold color?
  split
  · next c heq => simp [heq]
  · next hother =>
    simp only [Option.isSome_none, Bool.false_eq_true, false_iff, not_exists]
    exact hother

theorem RecoloredBy.sameKinds (h : RecoloredBy calls t t') : SameKinds t t' := by
  -- the three kinds of slots, one by one
  have hslot : ∀ slot, (t'.get? slot = none ↔ t.get? slot = none) ∧
      ((∃ c, t'.get? slot = some (.color c)) ↔ ∃ c, t.get? slot = some (.color c)) ∧
      ∀ text, t'.get? slot = some (.opaqueText text) ↔ t.get? slot = some (.opaqueText text) := by
    intro slot
    cases hbefore : t.get? slot with
    | none => simp [h.missing slot hbefore]
    | some value =>
      cases value with
      | color old => simp [h.colored slot old hbefore]
      | opaqueText text => simp [h.opaqueText slot text hbefore]
  refine ⟨fun slot => (hslot slot).1, fun slot => ?_, fun slot => (hslot slot).2.2⟩
  rw [isSome_color?, isSome_color?]
  exact (hslot slot).2.1

/-! ## Models -/

/-- The table `t` behind the styles of the model `m`, as far as they can be applied. -/
def styled (t : ResourceTable) (m : Model) : ResourceTable := (applyStyles recolor m t).sink

/-- What the sink `recorded` gets from the model `m`. -/
def callsOf (m : Model) : List (Slot × Color) := (applyStyles Overlay.recorded m []).sink

theorem writeAll_recorded (before calls : List (Slot × Color)) :
    Overlay.Sink.writeAll Overlay.recorded before calls = before ++ calls := by
  induction calls generalizing before with
  | nil => exact (List.append_nil before).symm
  | cons call calls ih =>
    have hrest := ih (before ++ [call])
    rwa [List.append_assoc] at hrest

/-- **Applying styles is replaying the record.** -/
theorem styled_eq (t : ResourceTable) (m : Model) :
    t.styled m = Overlay.Sink.writeAll recolor t (callsOf m) := by
  rw [styled, callsOf, applyStyles, applyStyles, Overlay.applyFrom_sink, Overlay.applyFrom_sink,
    writeAll_recorded, List.nil_append]

theorem styledAll_eq (t : ResourceTable) (models : List Model) :
    models.foldl styled t = Overlay.Sink.writeAll recolor t (models.flatMap callsOf) := by
  induction models generalizing t with
  | nil => rfl
  | cons m models ih =>
    rw [List.foldl_cons, ih, styled_eq, List.flatMap_cons, Overlay.Sink.writeAll_append]

/-- **Any number of `models`**, whether they can be applied in full or not. -/
theorem styledAll_recolored (t : ResourceTable) (models : List Model) :
    RecoloredBy (models.flatMap callsOf) t (models.foldl styled t) := by
  rw [styledAll_eq]
  exact .writeAll t _

/-- How applying the model `m` ends does not depend on the sink. -/
theorem result_eq {σ τ : Type} (set : Overlay.Sink σ) (set' : Overlay.Sink τ) (m : Model)
    (sink : σ) (sink' : τ) :
    (applyStyles set m sink).result = (applyStyles set' m sink').result := by
  rw [applyStyles, applyStyles, Overlay.applyFrom_result, Overlay.applyFrom_result]

/-- **A table against a recording sink.** Applying a model to a table ends as it does with a sink
that records the calls, and leaves the table as it is when these calls are made on it one by one:
each colour is that of the last call for its slot, or the old one if there was none, and all other
slots are as they were. No number of models changes which slots are missing, which hold colours and
what the others hold. A model that is applied again, though it may end half-way, ends alike and
leaves the table alone. -/
theorem styles_replayed (t : ResourceTable) (m : Model) (models : List Model) :
    let record := applyStyles Overlay.recorded m []
    let once := applyStyles recolor m t
    let twice := applyStyles recolor m once.sink
    once.result = record.result ∧
      once.sink = Overlay.Sink.writeAll recolor t record.sink ∧
      RecoloredBy record.sink t once.sink ∧
      RecoloredBy (models.flatMap callsOf) t (models.foldl styled t) ∧
      SameKinds t (models.foldl styled t) ∧
      twice.sink = once.sink ∧ twice.result = once.result := by
  intro record once twice
  have honce : RecoloredBy record.sink t once.sink := by
    have hall := styledAll_recolored t [m]
    rwa [List.flatMap_singleton] at hall
  have htwice : RecoloredBy record.sink once.sink twice.sink := by
    have hall := styledAll_recolored once.sink [m]
    rwa [List.flatMap_singleton] at hall
  have hmodels := styledAll_recolored t models
  exact ⟨result_eq .., styled_eq t m, honce, hmodels, hmodels.sameKinds,
    htwice.unique honce.again, result_eq ..⟩

/-- The second style is of an unknown kind, so that the third one does nothing, and the second slot
of the first one is missing. -/
example :
    let t := empty.insert .editorBackground (.color .transparent)
    let m : Model :=
      { name := "Dusk",
        globalStyles :=
          [{ typeName := "DefaultStyle", foreground := some (.fixed (.rgb 1 2 3)),
             background := some (.fixed (.rgb 4 5 6)) },
           { typeName := "Gutter" },
           { typeName := "DefaultStyle", background := some (.fixed (.rgb 7 8 9)) }] }
    (t.styled m).get? .editorBackground = some (.color (.rgb 4 5 6)) ∧
      (t.styled m).get? .editorForeground = none := by
  decide

end ResourceTable

end Livery
