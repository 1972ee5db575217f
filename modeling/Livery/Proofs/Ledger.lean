import Livery.Proofs.Caches
import Livery.Proofs.Demand
import Livery.Proofs.Frame
import Mathlib.Data.List.Infix

/-!
# The ledger of a theme

What is loaded for a theme stands in the journal: its overlay, the loaders that are run and the
files that these open. What there is to be loaded is a matter of the calls: `Catalog.ledger` lists
the registrations of a theme. A theme is **tracked** if the two agree: what was run is accounted for
by a registration, and what is still pending or deferred was not loaded yet.

* `Theme.Tracked.moves`: look-ups keep a theme tracked, in every environment.
* `Theme.Tracked.register`, `Theme.Tracked.fill`: so do registrations.
-/

namespace Livery

/-! ## What stands in a journal -/

/-- The key of the theme that something is loaded for. -/
def Incident.theme? : Incident → Option String
  | .opened (.overlay key) _ _ => some key
  | .opened (.grammar key _) _ _ => some key
  | .ran key _ _ _ _ => some key
  | .noted _ => none

/-- The load of the overlay of the theme `key` is started. -/
def Incident.isOverlay (key : String) : Incident → Bool
  | .opened (.overlay k) _ _ => k == key
  | _ => false

/-- The loader of the registration `ticket` is run. -/
def Incident.isRun (key : String) (ticket : Nat) : Incident → Bool
  | .ran k n _ _ _ => k == key && n == ticket
  | _ => false

/-- A file is opened for the registration `ticket`. -/
def Incident.isFile (key : String) (ticket : Nat) : Incident → Bool
  | .opened (.grammar k n) _ _ => k == key && n == ticket
  | _ => false

/-- How often `j` has the load of the overlay of `key` start. -/
def Journal.overlayLoads (j : Journal) (key : String) : Nat := j.countP (·.isOverlay key)

/-- How often `j` has the loader of the registration `ticket` run. -/
def Journal.runs (j : Journal) (key : String) (ticket : Nat) : Nat := j.countP (·.isRun key ticket)

/-- How often `j` has a file opened for the registration `ticket`. -/
def Journal.files (j : Journal) (key : String) (ticket : Nat) : Nat :=
  j.countP (·.isFile key ticket)

theorem Incident.theme?_of_isOverlay {key : String} {x : Incident} (h : x.isOverlay key = true) :
    x.theme? = some key := by
  cases x with
  | opened purpose r ok => cases purpose <;> simp_all [isOverlay, theme?]
  | ran => cases h
  | noted => cases h

theorem Incident.theme?_of_isRun {key : String} {ticket : Nat} {x : Incident}
    (h : x.isRun key ticket = true) : x.theme? = some key := by
  cases x with
  | opened => cases h
  | ran => simp_all [isRun, theme?]
  | noted => cases h

theorem Incident.theme?_of_isFile {key : String} {ticket : Nat} {x : Incident}
    (h : x.isFile key ticket = true) : x.theme? = some key := by
  cases x with
  | opened purpose r ok => cases purpose <;> simp_all [isFile, theme?]
  | ran => cases h
  | noted => cases h

theorem Journal.runs_eq_zero {j : Journal} {key : String} {ticket : Nat}
    (h : ∀ name custom colors, .ran key ticket name custom colors ∉ j) : j.runs key ticket = 0 := by
  refine List.countP_eq_zero.2 fun x hx hrun => ?_
  cases x with
  | opened => cases hrun
  | ran k n name custom colors =>
    simp only [Incident.isRun, Bool.and_eq_true, beq_iff_eq] at hrun
    obtain ⟨rfl, rfl⟩ := hrun
    exact h name custom colors hx
  | noted => cases hrun

theorem Journal.overlayLoads_eq_zero {j : Journal} {key : String}
    (h : ∀ r ok, .opened (.overlay key) r ok ∉ j) : j.overlayLoads key = 0 := by
  refine List.countP_eq_zero.2 fun x hx hload => ?_
  cases x with
  | opened purpose r ok =>
    cases purpose with
    | overlay k =>
      obtain rfl := beq_iff_eq.1 hload
      exact h r ok hx
    | grammar k n => cases hload
  | ran => cases hload
  | noted => cases hload

/-! ## What is registered -/

/-- A loader that does not come from the catalog. -/
def Loader.isCustom : Loader → Bool
  | .resource _ => false
  | .custom _ => true

/-- What the theme of `e` gets when it first becomes current: a slot for each grammar of `c`. -/
def Catalog.stockOf (c : Catalog) (e : ThemeEntry) : List (String × GrammarSlot) :=
  c.grammars.map fun b => (b.name, .deferred (.resource ⟨e.basePrefix, b.resource⟩))

/-- The theme of `key` was current at some time in the course of `calls`. -/
def Catalog.visited (c : Catalog) (calls : List Registry.Call) (key : String) : Bool :=
  calls.inits.any (c.currentAfter · == key)

/-- What some calls register while the theme of `key` is current, in order. -/
def Catalog.placedFrom (c : Catalog) (key : String) :
    String → List Registry.Call → List (String × GrammarSlot)
  | _, [] => []
  | current, call :: calls =>
    (if current = key then call.slot?.toList else []) ++
      c.placedFrom key (c.currentBehind current call) calls

/-- The registrations of the theme of `e` behind `calls`, in order: those of `stockOf` once it was
current, and then what was registered under it. The number of a registration is its place. -/
def Catalog.ledger (c : Catalog) (e : ThemeEntry) (calls : List Registry.Call) :
    List (String × GrammarSlot) :=
  (if c.visited calls e.key then c.stockOf e else []) ++ c.placedFrom e.key c.current calls

namespace Catalog

variable {c : Catalog} {e : ThemeEntry} {calls : List Registry.Call} {call : Registry.Call}

theorem visited_snoc (c : Catalog) (calls : List Registry.Call) (call : Registry.Call)
    (key : String) :
    c.visited (calls ++ [call]) key =
      (c.visited calls key || c.currentAfter (calls ++ [call]) == key) := by
  simp [visited, List.inits_append]

theorem visited_current {key : String} (h : c.currentAfter calls = key) :
    c.visited calls key = true :=
  List.any_eq_true.2 ⟨calls, (List.mem_inits _ _).2 (List.prefix_refl _), by simp [h]⟩

theorem placedFrom_snoc (c : Catalog) (key current : String) (calls : List Registry.Call)
    (call : Registry.Call) :
    c.placedFrom key current (calls ++ [call]) = c.placedFrom key current calls ++
      if calls.foldl c.currentBehind current = key then call.slot?.toList else [] := by
  induction calls generalizing current with
  | nil => exact List.append_nil _
  | cons a calls ih =>
    rw [List.cons_append, placedFrom, ih, placedFrom, List.append_assoc]
    rfl

theorem placed_snoc (c : Catalog) (key : String) (calls : List Registry.Call)
    (call : Registry.Call) :
    c.placedFrom key c.current (calls ++ [call]) = c.placedFrom key c.current calls ++
      if c.currentAfter calls = key then call.slot?.toList else [] :=
  placedFrom_snoc c key c.current calls call

/-- Nothing is registered under a theme that was never `visited`. -/
theorem ledger_unvisited (h : c.visited calls e.key = false) : c.ledger e calls = [] := by
  have hplaced : c.placedFrom e.key c.current calls = [] := by
    induction calls using List.reverseRecOn with
    | nil => rfl
    | append_singleton calls call ih =>
      rw [visited_snoc, Bool.or_eq_false_iff] at h
      have hne : c.currentAfter calls ≠ e.key := fun heq => by
        rw [visited_current heq] at h
        cases h.1
      rw [placed_snoc, ih h.1, if_neg hne, List.append_nil]
  simp [ledger, h, hplaced]

theorem ledger_visited (h : c.visited calls e.key = true) :
    c.ledger e calls = c.stockOf e ++ c.placedFrom e.key c.current calls := by
  rw [ledger, if_pos h]

/-- A `call` that selects no theme registers at most one grammar, under the current theme. -/
theorem ledger_stay (hsel : call.selects? = none) (e : ThemeEntry)
    (calls : List Registry.Call) :
    c.ledger e (calls ++ [call]) = c.ledger e calls ++
      if c.currentAfter calls = e.key then call.slot?.toList else [] := by
  have hcurrent : c.currentAfter (calls ++ [call]) = c.currentAfter calls := by
    rw [currentAfter_snoc, currentBehind, hsel]
  have hvisited : c.visited (calls ++ [call]) e.key = c.visited calls e.key := by
    rw [visited_snoc, hcurrent, Bool.or_eq_left_iff_imp]
    intro heq
    exact visited_current (beq_iff_eq.1 heq)
  rw [ledger, ledger, hvisited, placed_snoc, List.append_assoc]

/-- A `call` that registers nothing makes a theme current. -/
theorem ledger_of_none (hslot : call.slot? = none) (e : ThemeEntry)
    (calls : List Registry.Call) :
    c.ledger e (calls ++ [call]) =
      if c.currentAfter (calls ++ [call]) = e.key ∧ c.visited calls e.key = false then c.stockOf e
      else c.ledger e calls := by
  have hplaced : c.placedFrom e.key c.current (calls ++ [call]) =
      c.placedFrom e.key c.current calls := by
    rw [placed_snoc, hslot]
    split
    · exact List.append_nil _
    · exact List.append_nil _
  cases hv : c.visited calls e.key with
  | true => simp [ledger, visited_snoc, hv, hplaced]
  | false =>
    have hempty := ledger_unvisited hv
    simp only [ledger, hv, Bool.false_eq_true, if_false, List.nil_append] at hempty
    simp [ledger, visited_snoc, hv, hplaced, hempty]

end Catalog

/-! ## What moves add to a journal -/

/-- A `Loader` gives the notice `n` of its own. -/
def Loader.gives (env : Environment) (name : String) (n : Notice) : Loader → Prop
  | .resource _ => ∃ j data colors, n ∈ (env.load j name data colors).notices
  | .custom make => ∃ j colors, n ∈ (make j colors).notices

namespace Theme

variable {env : Environment} {t t' : Theme} {j j' : Journal} {name : String} {ticket : Nat}
  {loader : Loader} {regs : List (String × GrammarSlot)}

/-- `loadOverlay` opens the overlay first. What is noted then is not yet that it failed. -/
theorem loadOverlay_added [Markup.Decoders] (env : Environment) (j : Journal) (key : String)
    (r : ResourceName) :
    ∃ ok notices, (loadOverlay env j key r).1 =
        j ++ .opened (.overlay key) r ok :: List.map .noted notices ∧
      ∀ k e, .overlayFailed k e ∉ notices := by
  unfold loadOverlay
  cases env.fetch j r with
  | error e => exact ⟨false, [], rfl, by simp⟩
  | ok data =>
    refine ⟨true, _, rfl, fun k e => ?_⟩
    simp only [Overlay.load, Overlay.readSource]
    rcases Overlay.read data true with f | d
    · simp
    · rcases hd : Overlay.resolve d with o | m
      all_goals simp [hd]

/-- `resolve` settles the theme. It does so without loading anything, or by loading the overlay for
the first time. -/
theorem resolve_added [Markup.Decoders] (env : Environment) (t : Theme) (j : Journal) :
    ∃ m, (t.resolve env j).state = { t with resolution := .settled m } ∧
      ((t.resolve env j).journal = j ∨
        ∃ r ok notices, t.resolution = .pending ∧ t.overlay = some r ∧
          (t.resolve env j).journal =
            j ++ .opened (.overlay t.key) r ok :: List.map .noted notices ∧
          ∀ k e, .overlayFailed k e ∈ notices → k = t.key) := by
  rcases resolve_cases env j t with
    ⟨m, hres, he⟩ | ⟨-, -, he⟩ | ⟨r, hp, ho, ⟨m, -, he⟩ | ⟨e, -, he⟩⟩
  · rw [he]
    exact ⟨m, by rw [← hres], .inl rfl⟩
  · rw [he]
    exact ⟨none, rfl, .inl rfl⟩
  · obtain ⟨ok, notices, hj, hnone⟩ := loadOverlay_added env j t.key r
    rw [he, hj]
    refine ⟨some m, rfl, .inr ⟨r, ok, notices ++ [.overlayReady t.key m.colorSets.size], hp, ho,
      by simp, fun k err hx => ?_⟩⟩
    rcases List.mem_append.1 hx with hx | hx
    · exact (hnone k err hx).elim
    · simp at hx
  · obtain ⟨ok, notices, hj, hnone⟩ := loadOverlay_added env j t.key r
    rw [he, hj]
    refine ⟨none, rfl, .inr ⟨r, ok, notices ++ [.overlayFailed t.key e], hp, ho, by simp,
      fun k err hx => ?_⟩⟩
    rcases List.mem_append.1 hx with hx | hx
    · exact (hnone k err hx).elim
    · simp only [List.mem_singleton, Notice.overlayFailed.injEq] at hx
      exact hx.1

/-- A loader that is run may open one file, and gives its notices. -/
theorem runLoader_added (env : Environment) (j : Journal) (key name : String) (ticket : Nat)
    (colors : Option ColorSet) (loader : Loader) :
    ∃ files notices,
      (runLoader env j key name ticket colors loader).1 =
        j ++ .ran key ticket name loader.isCustom colors :: (files ++ List.map .noted notices) ∧
      (files = [] ∨ ∃ r ok, files = [.opened (.grammar key ticket) r ok]) ∧
      ∀ n ∈ notices, loader.gives env name n := by
  cases loader with
  | custom make =>
    refine ⟨[], (make (j ++ [.ran key ticket name true colors]) colors).notices, ?_, .inl rfl,
      fun n hn => ⟨_, _, hn⟩⟩
    simp [runLoader, Loader.isCustom]
  | resource r =>
    simp only [runLoader, Loader.isCustom]
    cases env.fetch (j ++ [.ran key ticket name false colors]) r with
    | error e =>
      exact ⟨[.opened (.grammar key ticket) r false], [], by simp, .inr ⟨r, _, rfl⟩, by simp⟩
    | ok data =>
      exact ⟨[.opened (.grammar key ticket) r true], _, by simp; rfl, .inr ⟨r, _, rfl⟩,
        fun n hn => ⟨_, _, _, hn⟩⟩

/-- `loadDeferred` runs the loader of what is deferred, which may open one file, and settles the
slot. What is noted then is that the grammar was loaded, or what the loader gives. -/
theorem loadDeferred_added (env : Environment) (j : Journal) (t : Theme) (name : String)
    (ticket : Nat) (loader : Loader) (colors : Option ColorSet) :
    ∃ slot files notices, (∀ l, slot ≠ .deferred l) ∧
      (t.loadDeferred env j name ticket loader colors).state =
        { t with grammars := t.grammars.settle name ticket slot } ∧
      (t.loadDeferred env j name ticket loader colors).journal =
        j ++ .ran t.key ticket name loader.isCustom colors ::
          (files ++ List.map .noted notices) ∧
      (files = [] ∨ ∃ r ok, files = [.opened (.grammar t.key ticket) r ok]) ∧
      ∀ n ∈ notices, n = .grammarLoaded t.key name ∨ loader.gives env name n := by
  obtain ⟨files, notices, hj, hfiles, hgives⟩ :=
    runLoader_added env j t.key name ticket colors loader
  rcases loadDeferred_cases env j t name ticket loader colors with ⟨g, -, he⟩ | ⟨e, -, he⟩
  · rw [he, hj]
    refine ⟨.loaded g, files, notices ++ [.grammarLoaded t.key name], by simp, rfl, by simp, hfiles,
      fun n hn => ?_⟩
    rcases List.mem_append.1 hn with hn | hn
    · exact .inr (hgives n hn)
    · exact .inl (List.mem_singleton.1 hn)
  · rw [he, hj]
    exact ⟨.failed (.inGrammar name e), files, notices, by simp, rfl, rfl, hfiles,
      fun n hn => .inr (hgives n hn)⟩

theorem Move.added [Markup.Decoders] (h : Move env t j t' j') :
    ∃ added, j' = j ++ added ∧ ∀ x ∈ added, ∀ key, x.theme? = some key → key = t.key := by
  cases h with
  | resolve =>
    obtain ⟨m, -, hj | ⟨r, ok, notices, -, -, hj, -⟩⟩ := resolve_added env t j
    · exact ⟨[], by rw [hj, List.append_nil], by simp⟩
    · refine ⟨_, hj, fun x hx key hkey => ?_⟩
      rcases List.mem_cons.1 hx with rfl | hx
      · exact (Option.some.inj hkey).symm
      · obtain ⟨n, -, rfl⟩ := List.mem_map.1 hx
        cases hkey
  | @load name ticket loader model hslot hres =>
    obtain ⟨slot, files, notices, -, -, hj, hfiles, -⟩ :=
      loadDeferred_added env j t name ticket loader (model.bind (·.colorSet? name))
    refine ⟨_, hj, fun x hx key hkey => ?_⟩
    rcases List.mem_cons.1 hx with rfl | hx
    · exact (Option.some.inj hkey).symm
    rcases List.mem_append.1 hx with hx | hx
    · rcases hfiles with rfl | ⟨r, ok, rfl⟩
      · cases hx
      · obtain rfl := List.mem_singleton.1 hx
        exact (Option.some.inj hkey).symm
    · obtain ⟨n, -, rfl⟩ := List.mem_map.1 hx
      cases hkey
  | note notices =>
    refine ⟨_, rfl, fun x hx key hkey => ?_⟩
    obtain ⟨n, -, rfl⟩ := List.mem_map.1 hx
    cases hkey

/-- `Moves` of a theme only add to the journal, and load things for that theme only. -/
theorem Moves.added [Markup.Decoders] (h : Moves env t j t' j') :
    ∃ added, j' = j ++ added ∧ ∀ x ∈ added, ∀ key, x.theme? = some key → key = t.key := by
  induction h with
  | refl t j => exact ⟨[], (List.append_nil j).symm, by simp⟩
  | @head t₁ t₂ t₃ j₁ j₂ j₃ hm _ ih =>
    obtain ⟨first, rfl, hfirst⟩ := hm.added
    obtain ⟨rest, rfl, hrest⟩ := ih
    have hkey : t₂.key = t₁.key := congrArg Prod.fst hm.entry_eq
    refine ⟨first ++ rest, List.append_assoc .., fun x hx key hx' => ?_⟩
    rcases List.mem_append.1 hx with hx | hx
    · exact hfirst x hx key hx'
    · exact (hrest x hx key hx').trans hkey

/-! ## The ledger of a theme -/

/-- The ledger of the theme `t` with the registrations `regs`: its overlay was loaded at most once,
and not while that is pending; every loader was run at most once, and not while it is deferred; and
what was loaded was there to be loaded. -/
structure Tracked (regs : List (String × GrammarSlot)) (t : Theme) (j : Journal) : Prop where
  overlay_le : j.overlayLoads t.key ≤ 1
  overlay_pending : t.resolution = .pending → j.overlayLoads t.key = 0
  overlay_opened : ∀ r ok, .opened (.overlay t.key) r ok ∈ j → t.overlay = some r
  next : t.grammars.nextTicket = regs.length
  known : ∀ n, t.contains n = true ↔ n ∈ regs.map (·.1)
  deferred : ∀ n ticket loader, t.grammars.get? n = some ⟨ticket, .deferred loader⟩ →
    regs[ticket]? = some (n, .deferred loader) ∧ j.runs t.key ticket = 0
  runs_le : ∀ ticket, j.runs t.key ticket ≤ 1
  files_le : ∀ ticket, j.files t.key ticket ≤ j.runs t.key ticket
  ran : ∀ ticket n custom colors, .ran t.key ticket n custom colors ∈ j →
    ∃ loader, regs[ticket]? = some (n, .deferred loader) ∧ loader.isCustom = custom

theorem tracked_ofEntry (e : ThemeEntry) : (ofEntry e).Tracked [] [] := by
  refine ⟨Nat.zero_le 1, fun _ => rfl, by simp, rfl, fun n => ?_, fun n ticket loader h => ?_,
    fun ticket => Nat.zero_le 1, fun ticket => Nat.le_refl 0, by simp⟩
  · simp [ofEntry, contains, GrammarTable.contains, NameMap.contains]
  · simp [ofEntry, GrammarTable.get?] at h

/-- What is loaded for other themes does not count for the ledger of `t`. -/
theorem Tracked.of_foreign {added : Journal} (h : t.Tracked regs j)
    (hadded : ∀ x ∈ added, x.theme? ≠ some t.key) : t.Tracked regs (j ++ added) := by
  have hcount : ∀ p : Incident → Bool, (∀ x, p x = true → x.theme? = some t.key) →
      (j ++ added).countP p = j.countP p := by
    intro p hp
    have hzero : added.countP p = 0 := List.countP_eq_zero.2 fun x hx hpx => hadded x hx (hp x hpx)
    rw [List.countP_append, hzero, Nat.add_zero]
  have hoverlay : (j ++ added).overlayLoads t.key = j.overlayLoads t.key :=
    hcount _ fun x => Incident.theme?_of_isOverlay
  have hruns : ∀ ticket, (j ++ added).runs t.key ticket = j.runs t.key ticket :=
    fun ticket => hcount _ fun x => Incident.theme?_of_isRun
  have hfiles : ∀ ticket, (j ++ added).files t.key ticket = j.files t.key ticket :=
    fun ticket => hcount _ fun x => Incident.theme?_of_isFile
  have hmem : ∀ x : Incident, x.theme? = some t.key → x ∈ j ++ added → x ∈ j := by
    intro x hx hmem
    exact (List.mem_append.1 hmem).resolve_right fun hx' => hadded x hx' hx
  refine ⟨hoverlay ▸ h.overlay_le, fun hp => hoverlay ▸ h.overlay_pending hp,
    fun r ok hx => h.overlay_opened r ok (hmem _ rfl hx), h.next, h.known,
    fun n ticket loader hg => ?_, fun ticket => ?_, fun ticket => ?_,
    fun ticket n custom colors hx => h.ran ticket n custom colors (hmem _ rfl hx)⟩
  · rw [hruns]
    exact h.deferred n ticket loader hg
  · rw [hruns]
    exact h.runs_le ticket
  · rw [hruns, hfiles]
    exact h.files_le ticket

theorem Tracked.note (h : t.Tracked regs j) (notices : List Notice) :
    t.Tracked regs (j ++ List.map .noted notices) := by
  refine h.of_foreign fun x hx => ?_
  obtain ⟨n, -, rfl⟩ := List.mem_map.1 hx
  simp [Incident.theme?]

/-- A theme may be settled with any model `m` at any time. -/
theorem Tracked.settle (h : t.Tracked regs j) (m : Option Overlay.Model) :
    Tracked regs { t with resolution := .settled m } j :=
  { h with overlay_pending := by rintro ⟨⟩ }

/-- The overlay of a `pending` theme may be loaded, which settles it. -/
theorem Tracked.open (h : t.Tracked regs j) {r : ResourceName} (hp : t.resolution = .pending)
    (ho : t.overlay = some r) (ok : Bool) (m : Option Overlay.Model) :
    Tracked regs { t with resolution := .settled m } (j ++ [.opened (.overlay t.key) r ok]) := by
  have hloads := h.overlay_pending hp
  refine ⟨?_, by rintro ⟨⟩, fun r' ok' hx => ?_, h.next, h.known, fun n ticket loader hg => ?_,
    fun ticket => ?_, fun ticket => ?_, fun ticket n custom colors hx => ?_⟩
  · simp only [Journal.overlayLoads, List.countP_append] at hloads ⊢
    rw [hloads]
    simp [Incident.isOverlay]
  · rcases List.mem_append.1 hx with hx | hx
    · exact h.overlay_opened r' ok' hx
    · simp only [List.mem_singleton, Incident.opened.injEq] at hx
      rw [hx.2.1]
      exact ho
  · simpa [Journal.runs, Incident.isRun] using h.deferred n ticket loader hg
  · simpa [Journal.runs, Incident.isRun] using h.runs_le ticket
  · simpa [Journal.runs, Journal.files, Incident.isRun, Incident.isFile] using h.files_le ticket
  · exact h.ran ticket n custom colors (by simpa using hx)

/-- `resolve` keeps the ledger. -/
theorem Tracked.resolve [Markup.Decoders] (h : t.Tracked regs j) (env : Environment) :
    (t.resolve env j).state.Tracked regs (t.resolve env j).journal := by
  obtain ⟨m, hstate, hj | ⟨r, ok, notices, hp, ho, hj, -⟩⟩ := resolve_added env t j
  · rw [hstate, hj]
    exact h.settle m
  · have hopen := (h.open hp ho ok m).note notices
    rw [hstate, hj]
    simpa using hopen

section Counts

variable {key : String} {files : Journal} (j : Journal) (custom : Bool) (colors : Option ColorSet)
  (hfiles : files = [] ∨ ∃ r ok, files = [.opened (.grammar key ticket) r ok])
include hfiles

/-- Running a loader counts as a run of its registration. -/
theorem runs_ran (n : Nat) : (j ++ .ran key ticket name custom colors :: files).runs key n =
    j.runs key n + if ticket = n then 1 else 0 := by
  rcases hfiles with rfl | ⟨r, ok, rfl⟩
  all_goals simp [Journal.runs, List.countP_append, List.countP_cons, Incident.isRun]

/-- It opens one file at most. -/
theorem files_ran (n : Nat) : (j ++ .ran key ticket name custom colors :: files).files key n ≤
    j.files key n + if ticket = n then 1 else 0 := by
  rcases hfiles with rfl | ⟨r, ok, rfl⟩
  all_goals simp [Journal.files, List.countP_append, List.countP_cons, Incident.isFile]

/-- It loads no overlay. -/
theorem overlayLoads_ran : (j ++ .ran key ticket name custom colors :: files).overlayLoads key =
    j.overlayLoads key := by
  rcases hfiles with rfl | ⟨r, ok, rfl⟩
  all_goals simp [Journal.overlayLoads, List.countP_append, Incident.isOverlay]

end Counts

/-- `loadDeferred` keeps the ledger: the loader was not run before, and is deferred no more. -/
theorem Tracked.load (h : t.Tracked regs j) (env : Environment)
    (hslot : t.grammars.get? name = some ⟨ticket, .deferred loader⟩) (colors : Option ColorSet) :
    (t.loadDeferred env j name ticket loader colors).state.Tracked regs
      (t.loadDeferred env j name ticket loader colors).journal := by
  obtain ⟨slot, files, notices, hsettled, hstate, hj, hfiles, -⟩ :=
    loadDeferred_added env j t name ticket loader colors
  obtain ⟨hreg, hruns⟩ := h.deferred name ticket loader hslot
  have hcontains : t.contains name = true := GrammarTable.contains_of_get? hslot
  have hoverlay := @overlayLoads_ran name ticket t.key files j loader.isCustom colors hfiles
  have key : Tracked regs { t with grammars := t.grammars.settle name ticket slot }
      (j ++ .ran t.key ticket name loader.isCustom colors :: files) := by
    refine ⟨hoverlay ▸ h.overlay_le, fun hp => hoverlay ▸ h.overlay_pending hp, fun r ok hx => ?_,
      h.next, fun n => ?_, fun n n' loader' hg => ?_, fun n => ?_, fun n => ?_,
      fun n n' custom colors' hx => ?_⟩
    · refine h.overlay_opened r ok ?_
      rcases hfiles with rfl | ⟨r', ok', rfl⟩
      all_goals simpa using hx
    · rw [← h.known n]
      have hc : (t.grammars.settle name ticket slot).contains n = t.grammars.contains n :=
        NameMap.contains_insert_of_contains hcontains n _
      simp only [contains, hc]
    · rw [GrammarTable.get?_settle] at hg
      split at hg
      · next heq =>
        simp only [Option.some.injEq, Registration.mk.injEq] at hg
        exact absurd hg.2 (hsettled loader')
      · next hne =>
        obtain ⟨hreg', hruns'⟩ := h.deferred n n' loader' hg
        -- a registration has one name
        have hn : ticket ≠ n' := by
          rintro rfl
          rw [hreg] at hreg'
          simp only [Option.some.injEq, Prod.mk.injEq] at hreg'
          exact hne hreg'.1.symm
        exact ⟨hreg', by rw [runs_ran j _ _ hfiles, hruns', if_neg hn]⟩
    · rw [runs_ran j _ _ hfiles]
      split
      · next heq => rw [← heq, hruns]
      · exact h.runs_le n
    · refine (files_ran j _ _ hfiles n).trans ?_
      rw [runs_ran j _ _ hfiles]
      exact Nat.add_le_add_right (h.files_le n) _
    · rcases List.mem_append.1 hx with hx | hx
      · exact h.ran n n' custom colors' hx
      · have hx' : n = ticket ∧ n' = name ∧ custom = loader.isCustom ∧ colors' = colors := by
          rcases hfiles with rfl | ⟨r, ok, rfl⟩
          all_goals simpa using hx
        obtain ⟨rfl, rfl, rfl, rfl⟩ := hx'
        exact ⟨loader, hreg, rfl⟩
  rw [hstate, hj]
  simpa using key.note notices

theorem Tracked.move [Markup.Decoders] (h : t.Tracked regs j) (hm : Move env t j t' j') :
    t'.Tracked regs j' := by
  cases hm with
  | resolve => exact h.resolve env
  | load hslot hres => exact h.load env hslot _
  | note notices => exact h.note notices

/-- **Look-ups keep the ledger.** -/
theorem Tracked.moves [Markup.Decoders] (h : t.Tracked regs j) (hm : Moves env t j t' j') :
    t'.Tracked regs j' :=
  hm.keep (P := Tracked regs) (fun hm' ht => ht.move hm') h

/-- **A registration keeps the ledger**, and has a `ticket` of its own. -/
theorem Tracked.register (h : t.Tracked regs j) (name : String) (extensions : List String)
    (slot : GrammarSlot) :
    Tracked (regs ++ [(name, slot)])
      { t with grammars := t.grammars.register name extensions slot } j := by
  have hold : ∀ {ticket : Nat} {reg : String × GrammarSlot}, regs[ticket]? = some reg →
      (regs ++ [(name, slot)])[ticket]? = some reg := by
    intro ticket reg hreg
    rw [List.getElem?_append_left (List.getElem?_eq_some_iff.1 hreg).1, hreg]
  refine ⟨h.overlay_le, h.overlay_pending, h.overlay_opened, ?_, fun n => ?_,
    fun n ticket loader hg => ?_, h.runs_le, h.files_le, fun ticket n custom colors hx => ?_⟩
  · simp [GrammarTable.register, h.next]
  · rw [List.map_append, List.mem_append, ← h.known n, List.map_singleton, List.mem_singleton,
      or_comm]
    exact NameMap.contains_insert ..
  · rw [GrammarTable.get?_register] at hg
    split at hg
    · next heq =>
      simp only [Option.some.injEq, Registration.mk.injEq] at hg
      obtain ⟨rfl, rfl⟩ := hg
      refine ⟨by simp [h.next, heq], Journal.runs_eq_zero fun n' custom colors hx => ?_⟩
      -- what was run has a smaller number
      obtain ⟨loader', hreg, -⟩ := h.ran _ n' custom colors hx
      have hlt := (List.getElem?_eq_some_iff.1 hreg).1
      rw [h.next] at hlt
      exact absurd hlt (Nat.lt_irrefl _)
    · obtain ⟨hreg, hruns⟩ := h.deferred n ticket loader hg
      exact ⟨hold hreg, hruns⟩
  · obtain ⟨loader, hreg, hcustom⟩ := h.ran ticket n custom colors hx
    exact ⟨loader, hold hreg, hcustom⟩

/-- The new grammars `bs` of different names are registered in order. -/
theorem Tracked.fill {bs : List BuiltinGrammar} (h : t.Tracked regs j)
    (hnd : (bs.map (·.name)).Nodup) (hnew : ∀ b ∈ bs, b.name ∉ regs.map (·.1)) :
    Tracked (regs ++ bs.map fun b =>
      (b.name, .deferred (.resource ⟨t.basePrefix, b.resource⟩))) (bs.foldl Registry.addBuiltin t)
      j := by
  induction bs generalizing t regs with
  | nil => simpa using h
  | cons b bs ih =>
    obtain ⟨hb, hnd⟩ := List.nodup_cons.1 hnd
    obtain ⟨hnewb, hnew⟩ := List.forall_mem_cons.1 hnew
    have hunknown : ¬ t.contains b.name = true := mt (h.known b.name).1 hnewb
    have hreg := h.register b.name b.extensions (.deferred (.resource ⟨t.basePrefix, b.resource⟩))
    rw [List.foldl_cons, Registry.addBuiltin, if_neg hunknown]
    have hrest := ih hreg hnd fun b' hb' hmem => ?_
    · rw [List.append_assoc] at hrest
      exact hrest
    · -- a later grammar has another name than this one
      rw [List.map_append, List.mem_append] at hmem
      rcases hmem with hmem | hmem
      · exact hnew b' hb' hmem
      · exact hb (List.mem_map.2 ⟨b', hb', List.mem_singleton.1 hmem⟩)

end Theme

end Livery
