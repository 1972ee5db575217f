import Livery.Libraries
import Livery.Proofs.Integrity
import Livery.Proofs.Isolation
import Livery.Proofs.LifeCycle

/-!
# Who has an extension

An extension belongs to the name of the latest registration that lists it, up to letter case, dots
and blanks. Look-ups do not change that. To register a name again puts something new in its slot,
whatever was there, and gives it the extensions that are listed; nothing else moves.

* `History.owner?`: the latest registration that lists an extension.
* `owned_after`: the extension table agrees with it behind every history.
* `Kept.after`: a deferred loader is there until it is run.
* `Awaits`: the next look-up of a name runs its loader, unless the overlay turns out to be broken.
* `ownership`: all this for every history of a theme.
-/

namespace Livery.Theme

variable {env : Environment} {t t' : Theme} {j j' : Journal}

/-! ## Registrations in a history -/

/-- A registration: a `name`, the extensions listed with it, and what goes into the slot. -/
structure Placement where
  name : String
  extensions : List String
  slot : GrammarSlot

/-- The `Extension.key`s of the extensions. -/
def Placement.keys (p : Placement) : List String := p.extensions.map Extension.normalize

/-- The theme behind the registration `p` in `t`. -/
def place (t : Theme) (p : Placement) : Theme :=
  { t with grammars := t.grammars.register p.name p.extensions p.slot }

/-- What a `Call` registers. -/
def Call.placement? : Call → Option Placement
  | .register name extensions grammar => some ⟨name, extensions, .loaded grammar⟩
  | .registerDeferred name extensions loader => some ⟨name, extensions, .deferred loader⟩
  | _ => none

/-- The registrations in the course of the history `h`, in order. -/
def History.placements (h : History) : List Placement := h.filterMap (·.2.placement?)

/-- The name in the latest of the registrations `ps` that list an extension, given by its key. -/
def lastListing (ps : List Placement) (key : String) : Option String :=
  (ps.reverse.find? (·.keys.contains key)).map (·.name)

/-- The name in the latest registration of `h` that lists `extension`. -/
def History.owner? (h : History) (extension : String) : Option String :=
  lastListing h.placements (Extension.normalize extension)

theorem lastListing_concat (ps : List Placement) (p : Placement) (key : String) :
    lastListing (ps ++ [p]) key = if key ∈ p.keys then some p.name else lastListing ps key := by
  unfold lastListing
  rw [find?_reverse_concat]
  by_cases h : key ∈ p.keys
  · rw [if_pos h, if_pos (List.contains_iff_mem.2 h)]
    rfl
  · rw [if_neg h, if_neg (mt List.contains_iff_mem.1 h)]

theorem registers?_eq (call : Call) : call.registers? = call.placement?.map (·.name) := by
  cases call <;> rfl

theorem names_eq (h : History) : h.names = h.placements.map (·.name) := by
  simp only [History.names, History.placements, List.map_filterMap, registers?_eq]

section Placements

variable [Markup.Decoders]

theorem step_placement {call : Call} {p : Placement} (h : call.placement? = some p)
    (env : Environment) (t : Theme) (j : Journal) : step env t j call = (t.place p, j) := by
  cases call with
  | register => cases h; rfl
  | registerDeferred => cases h; rfl
  | _ => cases h

theorem step_moves {call : Call} (h : call.placement? = none) (env : Environment) (t : Theme)
    (j : Journal) : Moves env t j (step env t j call).1 (step env t j call).2 := by
  rcases step_cases env t j call with ⟨-, hm⟩ | ⟨name, _, _, hreg, -⟩
  · exact hm
  · rw [registers?_eq, h] at hreg
    cases hreg

/-- **What holds behind every history** is kept by each `Move`, and goes on with each
registration. -/
theorem after_induction {motive : List Placement → Theme → Journal → Prop}
    (move : ∀ {env ps t j t' j'}, Move env t j t' j' → motive ps t j → motive ps t' j')
    (history : History)
    (place : ∀ {ps t j} p, p ∈ history.placements → motive ps t j →
      motive (ps ++ [p]) (t.place p) j)
    (ps : List Placement) (start : motive ps t j) :
    motive (ps ++ history.placements) (after t j history).1 (after t j history).2 := by
  induction history generalizing ps t j with
  | nil => simpa [after, History.placements] using start
  | cons c history ih =>
    obtain ⟨env, call⟩ := c
    rcases hcall : call.placement? with _ | p
    · have hps : History.placements ((env, call) :: history) = History.placements history := by
        simp [History.placements, hcall]
      rw [hps] at place ⊢
      exact ih place ps ((step_moves hcall env t j).keep (P := motive ps) move start)
    · have hps : History.placements ((env, call) :: history) = p :: History.placements history := by
        simp [History.placements, hcall]
      rw [hps] at place ⊢
      have hnext := place p List.mem_cons_self start
      rw [List.append_cons, after, step_placement hcall]
      exact ih (fun p' hp' => place p' (List.mem_cons_of_mem _ hp')) _ hnext

/-! ## Owners -/

/-- A `Move`, which comes to a model or loads something, leaves the extensions alone. -/
theorem Move.owners (h : Move env t j t' j') : t'.grammars.owners = t.grammars.owners := by
  cases h with
  | resolve => rw [resolve_grammars]
  | @load name ticket loader model =>
    rcases loadDeferred_cases env j t name ticket loader (model.bind (·.colorSet? name)) with
      ⟨_, -, he⟩ | ⟨_, -, he⟩
    all_goals rw [he]; rfl
  | note => rfl

/-- In the theme `t` every extension belongs to the latest registration of `ps` that lists it. -/
def Owned (ps : List Placement) (t : Theme) : Prop :=
  ∀ key, t.grammars.owners.get? key = lastListing ps key

omit [Markup.Decoders] in
theorem owners_place (t : Theme) (p : Placement) (key : String) :
    (t.place p).grammars.owners.get? key =
      if key ∈ p.keys then some p.name else t.grammars.owners.get? key :=
  GrammarTable.get?_foldl_grant p.name p.extensions t.grammars.owners key

theorem owned_after (ps : List Placement) (h : Owned ps t) (j : Journal) (history : History) :
    Owned (ps ++ history.placements) (after t j history).1 := by
  refine after_induction (motive := fun ps t _ => Owned ps t) (fun hm hown key => ?_) history
    (fun p _ hown key => ?_) ps (j := j) h
  · rw [hm.owners]
    exact hown key
  · rw [owners_place, lastListing_concat, hown key]

/-- **A look-up by extension** is the look-up of the latest name that lists it. -/
theorem Owned.definitionFor {history : History} (h : Owned history.placements t)
    (env : Environment) (j : Journal) (x : String) : t.definitionFor env j x =
      match history.owner? x with
      | some n => t.definition env j n
      | none => ⟨t, j, .ok none⟩ := by
  have howner : t.grammars.owner? x = history.owner? x := h _
  cases hx : history.owner? x with
  | none => simp only [Theme.definitionFor, howner, hx]
  | some n => simp only [Theme.definitionFor, howner, hx]

/-! ## Deferred loaders -/

/-- The loader `loader` that was deferred under `name` is still there, or it was run. -/
def Kept (name : String) (ticket : Nat) (loader : Loader) (t : Theme) (j : Journal) : Prop :=
  t.grammars.get? name = some ⟨ticket, .deferred loader⟩ ∨ 0 < j.runs t.key ticket

variable {name : String} {ticket : Nat} {loader : Loader}

omit [Markup.Decoders] in
/-- `loadDeferred` runs the loader. -/
theorem runs_loadDeferred (env : Environment) (j : Journal) (t : Theme) (name : String)
    (ticket : Nat) (loader : Loader) (colors : Option ColorSet) :
    0 < (t.loadDeferred env j name ticket loader colors).journal.runs t.key ticket := by
  obtain ⟨_, files, notices, -, -, hj, -⟩ :=
    loadDeferred_added env j t name ticket loader colors
  rw [hj, Journal.runs, List.countP_pos_iff]
  exact ⟨.ran t.key ticket name loader.isCustom colors, by simp, by simp [Incident.isRun]⟩

/-- What was run stays in the journal. -/
theorem Moves.runs_pos (hm : Moves env t j t' j') {key : String} (h : 0 < j.runs key ticket) :
    0 < j'.runs key ticket := by
  obtain ⟨added, rfl, -⟩ := hm.added
  rw [Journal.runs, List.countP_append]
  exact Nat.lt_of_lt_of_le h (Nat.le_add_right ..)

theorem Move.kept (hm : Move env t j t' j') (h : Kept name ticket loader t j) :
    Kept name ticket loader t' j' := by
  have hkey : t'.key = t.key := congrArg Prod.fst hm.entry_eq
  rcases h with hslot | hrun
  · cases hm with
    | resolve => exact .inl ((congrArg (·.get? name) (resolve_grammars env j t)).trans hslot)
    | @load other n other' model hother =>
      by_cases heq : name = other
      · -- it is this loader that is run
        subst heq
        rw [hslot] at hother
        cases hother
        exact .inr (hkey ▸ runs_loadDeferred ..)
      · obtain ⟨slot, _, _, -, hstate, -⟩ :=
          loadDeferred_added env j t other n other' (model.bind (·.colorSet? other))
        rw [hstate]
        exact .inl ((NameMap.get?_insert_of_ne _ heq).trans hslot)
    | note => exact .inl hslot
  · exact .inr (hkey ▸ hm.moves.runs_pos hrun)

/-- **A deferred loader is there until it is run**, if nothing else is registered under its name in
`later` calls. -/
theorem Kept.after (h : Kept name ticket loader t j) {later : History}
    (hfree : name ∉ later.names) :
    Kept name ticket loader (after t j later).1 (after t j later).2 := by
  refine after_induction (motive := fun _ => Kept name ticket loader) (fun hm => hm.kept) later
    (fun p hp hkept => ?_) [] h
  refine hkept.imp_left fun hslot => ?_
  have hne : name ≠ p.name := by
    rintro rfl
    exact hfree (names_eq later ▸ List.mem_map_of_mem hp)
  exact (NameMap.get?_insert_of_ne _ hne).trans hslot

/-- **A look-up runs the loader** that is deferred, unless it comes upon a broken overlay. Then it
only settles the theme. -/
theorem Kept.definition (h : Kept name ticket loader t j) (env : Environment) :
    0 < (t.definition env j name).journal.runs t.key ticket ∨
      t.resolution = .pending ∧ ∃ j₁ e, t.definition env j name =
        ⟨{ t with resolution := .settled none }, j₁, .error (.inTheme t.key e)⟩ := by
  rcases h with hslot | hrun
  · unfold Theme.definition
    rw [hslot]
    rcases resolve_cases env j t with
      ⟨m, -, he⟩ | ⟨-, -, he⟩ | ⟨r, hpending, -, ⟨m, -, he⟩ | ⟨e, -, he⟩⟩
    · rw [he]
      exact .inl (runs_loadDeferred ..)
    · rw [he]
      exact .inl (runs_loadDeferred ..)
    · rw [he]
      exact .inl (runs_loadDeferred ..)
    · rw [he]
      exact .inr ⟨hpending, _, e, rfl⟩
  · exact .inl ((definition_moves env j t name).runs_pos hrun)

/-! ## Registering a name again -/

/-- What the registration `p` changes in a theme: the slot of its name, which keeps its place in the
order of the definitions if it has one, and the owners of the extensions that are listed. -/
structure Renewed (t : Theme) (p : Placement) (t' : Theme) : Prop where
  slot : t'.grammars.get? p.name = some ⟨t.grammars.nextTicket, p.slot⟩
  others : ∀ n, n ≠ p.name → t'.grammars.get? n = t.grammars.get? n
  order : t'.grammars.order =
    if p.name ∈ t.grammars.order then t.grammars.order else t.grammars.order ++ [p.name]
  definitions : ∀ env j t₁ j₁ handles, t'.definitions env j = ⟨t₁, j₁, .ok handles⟩ →
    List.Forall₂ t₁.Stays t'.grammars.order handles
  owners : ∀ x, t'.grammars.owner? x =
    if Extension.normalize x ∈ p.keys then some p.name else t.grammars.owner? x

theorem renewed_place {names : List String} (h : t.grammars.Recorded names) (p : Placement) :
    t.Renewed p (t.place p) where
  slot := NameMap.get?_insert_self ..
  others := fun _ hn => NameMap.get?_insert_of_ne _ hn
  order := by
    have hknown : t.grammars.contains p.name = true ↔ p.name ∈ t.grammars.order :=
      (h.known p.name).trans (h.mem_order p.name).symm
    simp only [place, GrammarTable.register, hknown]
  definitions := fun env j t₁ j₁ handles hwalk => by
    have hplaced : (t.place p).grammars.Recorded (names ++ [p.name]) :=
      h.register p.name p.extensions p.slot
    have hcontains : ∀ n ∈ (t.place p).grammars.order, (t.place p).grammars.contains n = true :=
      fun n hn => (hplaced.known n).2 ((hplaced.mem_order n).1 hn)
    exact (definitionsOf_ok hcontains hwalk).imp fun _ _ hh => hh.stays
  owners := fun x => owners_place t p (Extension.normalize x)

/-- The loader `loader` waits for `name` to be looked up. It has not been run, and the first look-up
runs it, however late that comes; only a look-up that comes upon a broken overlay fails instead, and
leaves it for the next one. It is never run twice. -/
structure Awaits (t : Theme) (j : Journal) (name : String) (ticket : Nat) (loader : Loader) :
    Prop where
  unrun : j.runs t.key ticket = 0
  loads : ∀ env, t.definition env j name = (t.resolve env j).andThen fun t₁ j₁ model =>
    t₁.loadDeferred env j₁ name ticket loader (model.bind (·.colorSet? name))
  next : ∀ (later : History) (env : Environment), name ∉ later.names →
    match after t j later with
    | (t₁, j₁) => (t₁.definition env j₁ name).journal.runs t.key ticket = 1 ∨
        t₁.resolution = .pending ∧ ∃ j₂ e, t₁.definition env j₁ name =
          ⟨{ t₁ with resolution := .settled none }, j₂, .error (.inTheme t₁.key e)⟩

/-- The registrations as a ledger has them. -/
def Placement.entry (p : Placement) : String × GrammarSlot := (p.name, p.slot)

theorem tracked_after (ps : List Placement) (h : t.Tracked (ps.map Placement.entry) j)
    (history : History) :
    (after t j history).1.Tracked ((ps ++ history.placements).map Placement.entry)
      (after t j history).2 := by
  refine after_induction (motive := fun ps t j => t.Tracked (ps.map Placement.entry) j)
    (fun hm htracked => htracked.move hm) history (fun p _ htracked => ?_) ps h
  rw [List.map_append]
  exact htracked.register p.name p.extensions p.slot

theorem key_after (t : Theme) (j : Journal) (history : History) :
    (after t j history).1.key = t.key :=
  after_induction (motive := fun _ t' _ => t'.key = t.key)
    (fun hm hkey => (congrArg Prod.fst hm.entry_eq).trans hkey) history (fun _ _ hkey => hkey)
    [] rfl

/-- A deferred loader that has not been run `Awaits` the look-up of its name. -/
theorem Tracked.awaits (ps : List Placement) (h : t.Tracked (ps.map Placement.entry) j)
    (hslot : t.grammars.get? name = some ⟨ticket, .deferred loader⟩) :
    t.Awaits j name ticket loader where
  unrun := (h.deferred name ticket loader hslot).2
  loads := fun env => by
    unfold Theme.definition
    rw [hslot]
  next := fun later env hfree => by
    have hkept : Kept name ticket loader t j := .inl hslot
    have hmoves := definition_moves env (after t j later).2 (after t j later).1 name
    have hkey := key_after t j later
    have hmoved : ((after t j later).1.definition env (after t j later).2 name).state.key = t.key :=
      (congrArg Prod.fst hmoves.entry_eq).trans hkey
    have hle := ((tracked_after ps h later).moves hmoves).runs_le ticket
    rw [hmoved] at hle
    rcases (hkept.after hfree).definition env with hrun | ⟨hpending, j₁, e, he⟩
    · rw [hkey] at hrun
      exact .inl (Nat.le_antisymm hle hrun)
    · exact .inr ⟨hpending, j₁, e, he⟩

/-! ## Histories -/

/-- **An extension belongs to the latest registration that lists it**, behind every history of a
theme: to look the extension up is to look up the name of that registration, and finds nothing if
there is none. To register a name again, under some extensions, puts a grammar in its place that is
the answer from then on, or a loader that waits to be run; whatever was there is gone. -/
theorem ownership (e : ThemeEntry) (history : History) :
    let t := (after (ofEntry e) [] history).1
    let j := (after (ofEntry e) [] history).2
    (∀ env x, t.definitionFor env j x =
      match history.owner? x with
      | some n => t.definition env j n
      | none => ⟨t, j, .ok none⟩) ∧
    ∀ name extensions,
      (∀ grammar, t.Renewed ⟨name, extensions, .loaded grammar⟩
          (t.register name extensions grammar) ∧
        (t.register name extensions grammar).Stays name
          ⟨t.key, t.grammars.nextTicket, grammar⟩) ∧
      ∀ loader, t.Renewed ⟨name, extensions, .deferred loader⟩
          (t.registerDeferred name extensions loader) ∧
        (t.registerDeferred name extensions loader).Awaits j name t.grammars.nextTicket loader := by
  intro t j
  have howned : Owned history.placements t :=
    owned_after [] (fun key => rfl) [] history
  have hrec : t.grammars.Recorded history.names :=
    after_recorded (t := ofEntry e) GrammarTable.recorded_empty history
  have htracked : t.Tracked (history.placements.map Placement.entry) j :=
    tracked_after [] (tracked_ofEntry e) history
  refine ⟨fun env x => howned.definitionFor env j x, fun name extensions =>
    ⟨fun grammar => ?_, fun loader => ?_⟩⟩
  · have hrenewed := renewed_place hrec ⟨name, extensions, .loaded grammar⟩
    exact ⟨hrenewed, Holds.stays ⟨hrenewed.slot, rfl⟩⟩
  · have hrenewed := renewed_place hrec ⟨name, extensions, .deferred loader⟩
    have hnext := htracked.register name extensions (.deferred loader)
    exact ⟨hrenewed,
      Tracked.awaits (history.placements ++ [⟨name, extensions, .deferred loader⟩])
        (by rw [List.map_append]; exact hnext) hrenewed.slot⟩

end Placements

/-- Nothing can be opened in this environment: `fetch` fails. -/
def emptyWorld : Environment := .ofStore fun r => .error (.resourceNotFound r)

/-- A theme whose overlay is not there in `emptyWorld`. -/
def overcast : ThemeEntry := { key := "K", overlay := some ⟨"P", "missing"⟩ }

/-- The grammar `X` is registered and found, for which the overlay is not needed. -/
def findsX : History :=
  [(emptyWorld, .register "X" [".x"] { name := "X" }), (emptyWorld, .definition "X")]

/-- If a loader is registered under the name of the grammar of `findsX`, then the next look-up fails
because of the overlay and does not run the loader. -/
theorem overcast_not_run :
    let t := (after (ofEntry overcast) [] findsX).1
    let j := (after (ofEntry overcast) [] findsX).2
    let again := t.registerDeferred "X" [] (.custom fun _ _ => ⟨[], .ok { name := "X2" }⟩)
    (t.definition emptyWorld j "X").result = .ok (some ⟨"K", 0, { name := "X" }⟩) ∧
      (again.definition emptyWorld j "X").result =
        .error (.inTheme "K" (.resourceNotFound ⟨"P", "missing"⟩)) ∧
      (again.definition emptyWorld j "X").journal.runs "K" t.grammars.nextTicket = 0 :=
  ⟨rfl, rfl, rfl⟩

end Livery.Theme
