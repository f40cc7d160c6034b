import Mathlib.Tactic

/-!
# Catalogs that follow their file

`ReloadingCatalog::current` by any number of threads while another process replaces,
removes or corrupts the file.  A call reads the file's metadata, compares them with
the signature of the shared slot, opens the file and stores what it has opened, one
step at a time.
-/

namespace SeizaServer.Catalogs

/-! ## Signatures -/

/-- The length of the file and when it was modified, in nanoseconds since 1970. -/
structure CatalogSignature where
  len : ℕ
  modified : ℤ
  deriving DecidableEq

def CatalogSignature.version (signature : CatalogSignature) : String :=
  let modified := signature.modified.toNat
  let nanos := toString (modified % 10 ^ 9)
  toString signature.len ++ ":" ++ toString (modified / 10 ^ 9) ++ "." ++
    String.ofList (nanos.toList.leftpad 9 '0')

/-- The metadata of a content of the file, and what opening it gives. -/
structure FileFormat (Content Catalog : Type) where
  signature : Content → CatalogSignature
  openFile : Content → Except String Catalog

variable {Content Catalog : Type}

/-- A catalog and the content it was opened from. -/
structure Opened (format : FileFormat Content Catalog) where
  content : Content
  catalog : Catalog
  opens : format.openFile content = .ok catalog

structure LoadedCatalog (format : FileFormat Content Catalog) where
  signature : CatalogSignature
  catalog : Opened format

/-! ## Calls -/

/-- How far a call has come. -/
inductive Call (format : FileFormat Content Catalog) where
  | idle
  | examined (signature : CatalogSignature)
  | outdated (signature : CatalogSignature)
  | failed
  | opened (signature : CatalogSignature) (catalog : Opened format)
  | returned (result : Option (Opened format × String))

structure World (format : FileFormat Content Catalog) where
  file : Option Content
  state : Option (LoadedCatalog format)
  calls : ℕ → Call format

/-- Another process replaces or removes the file, or a call takes its next step. -/
inductive Action (Content : Type) where
  | replace (file : Option Content)
  | stat (call : ℕ)
  | compare (call : ℕ)
  | openFile (call : ℕ)
  | fallBack (call : ℕ)
  | store (call : ℕ)

variable {format : FileFormat Content Catalog}

/-- `ReloadingCatalog::new`, before any call. -/
def World.new (format : FileFormat Content Catalog) (file : Option Content) : World format :=
  ⟨file, none, fun _ => .idle⟩

namespace World

def setCall (w : World format) (call : ℕ) (progress : Call format) : World format :=
  { w with calls := Function.update w.calls call progress }

/-- The catalog of the slot with the version of its own signature. -/
def loaded (w : World format) : Option (Opened format × String) :=
  w.state.map fun loaded => (loaded.catalog, loaded.signature.version)

def step (w : World format) : Action Content → Option (World format)
  | .replace file => some { w with file := file }
  | .stat call =>
      match w.calls call, w.file with
      | .idle, some content => some (w.setCall call (.examined (format.signature content)))
      | .idle, none => some (w.setCall call (.returned none))
      | _, _ => none
  | .compare call =>
      match w.calls call, w.state with
      | .examined signature, some loaded =>
          if loaded.signature = signature then
            some (w.setCall call (.returned (some (loaded.catalog, signature.version))))
          else some (w.setCall call (.outdated signature))
      | .examined signature, none => some (w.setCall call (.outdated signature))
      | _, _ => none
  | .openFile call =>
      match w.calls call, w.file with
      | .outdated signature, some content =>
          match hopen : format.openFile content with
          | .ok catalog => some (w.setCall call (.opened signature ⟨content, catalog, hopen⟩))
          | .error _ => some (w.setCall call .failed)
      | .outdated _, none => some (w.setCall call .failed)
      | _, _ => none
  | .fallBack call =>
      match w.calls call with
      | .failed => some (w.setCall call (.returned w.loaded))
      | _ => none
  | .store call =>
      match w.calls call with
      | .opened signature catalog =>
          some { w.setCall call (.returned (some (catalog, signature.version))) with
            state := some ⟨signature, catalog⟩ }
      | _ => none

def run (w : World format) : List (Action Content) → Option (World format)
  | [] => some w
  | action :: actions => (w.step action).bind (·.run actions)

/-- Some call has returned a catalog. -/
def Served (w : World format) : Prop :=
  ∃ call served, w.calls call = .returned (some served)

/-- The version of a returned catalog is the signature of what it was opened from. -/
def Truthful (w : World format) : Prop :=
  ∀ call catalog version, w.calls call = .returned (some (catalog, version)) →
    version = (format.signature catalog.content).version

/-- Once a catalog has been returned the file is there whenever a call looks for
it; and a call opens the content it has examined, or one that does not open. -/
def Steady (w : World format) : Action Content → Prop
  | .stat _ => w.state.isSome → w.file.isSome
  | .openFile call =>
      match w.calls call, w.file with
      | .outdated signature, some content =>
          (∃ message, format.openFile content = .error message) ∨
            format.signature content = signature
      | _, _ => True
  | _ => True

/-- Every step of a run keeps the condition. -/
def SteadyRun (w : World format) : List (Action Content) → Prop
  | [] => True
  | action :: actions => w.Steady action ∧ ∀ after, w.step action = some after →
      after.SteadyRun actions

/-! ## What a step does -/

/-- The next step of a call under the condition, and the slot after it. -/
inductive Progress (w : World format) (call : ℕ) :
    Call format → Option (LoadedCatalog format) → Prop where
  | found (content : Content) (hidle : w.calls call = .idle) :
      w.Progress call (.examined (format.signature content)) w.state
  | missing (hidle : w.calls call = .idle) (hempty : w.state = none) :
      w.Progress call (.returned none) w.state
  | fresh (loaded : LoadedCatalog format) (hstate : w.state = some loaded) :
      w.Progress call (.returned (some (loaded.catalog, loaded.signature.version))) w.state
  | stale (signature : CatalogSignature) (hbusy : w.calls call ≠ .idle) :
      w.Progress call (.outdated signature) w.state
  | opens (signature : CatalogSignature) (catalog : Opened format) (hbusy : w.calls call ≠ .idle)
      (hsignature : signature = format.signature catalog.content) :
      w.Progress call (.opened signature catalog) w.state
  | fails (hbusy : w.calls call ≠ .idle) : w.Progress call .failed w.state
  | fallsBack (hbusy : w.calls call ≠ .idle) : w.Progress call (.returned w.loaded) w.state
  | stores (signature : CatalogSignature) (catalog : Opened format)
      (hopened : w.calls call = .opened signature catalog) :
      w.Progress call (.returned (some (catalog, signature.version))) (some ⟨signature, catalog⟩)

theorem step_cases {w after : World format} {action : Action Content}
    (hsteady : w.Steady action) (hstep : w.step action = some after) :
    (∃ file, after = { w with file := file }) ∨
      ∃ call progress state, w.Progress call progress state ∧
        after = ⟨w.file, state, Function.update w.calls call progress⟩ := by
  cases action with
  | replace file => exact .inl ⟨file, (Option.some.inj hstep).symm⟩
  | stat call =>
      right
      simp only [step] at hstep
      split at hstep
      next content hidle hfile =>
        exact ⟨call, _, _, .found content hidle, (Option.some.inj hstep).symm⟩
      next hidle hfile =>
        have hempty : w.state = none := by
          rw [← Option.not_isSome_iff_eq_none]
          intro hloaded
          have hpresent := hsteady hloaded
          rw [hfile] at hpresent
          cases hpresent
        exact ⟨call, _, _, .missing hidle hempty, (Option.some.inj hstep).symm⟩
      next => cases hstep
  | compare call =>
      right
      simp only [step] at hstep
      split at hstep
      next signature loaded hcall hstate =>
        have hbusy : w.calls call ≠ .idle := by rw [hcall]; nofun
        split_ifs at hstep with hsame
        · subst hsame
          exact ⟨call, _, _, .fresh loaded hstate, (Option.some.inj hstep).symm⟩
        · exact ⟨call, _, _, .stale signature hbusy, (Option.some.inj hstep).symm⟩
      next signature hcall hstate =>
        have hbusy : w.calls call ≠ .idle := by rw [hcall]; nofun
        exact ⟨call, _, _, .stale signature hbusy, (Option.some.inj hstep).symm⟩
      next => cases hstep
  | openFile call =>
      right
      simp only [step] at hstep
      split at hstep
      next signature content hcall hfile =>
        have hbusy : w.calls call ≠ .idle := by rw [hcall]; nofun
        simp only [Steady, hcall, hfile] at hsteady
        split at hstep
        next catalog hopen =>
          rcases hsteady with ⟨message, herror⟩ | hsame
          · rw [hopen] at herror
            cases herror
          · exact ⟨call, _, _, .opens signature ⟨content, catalog, hopen⟩ hbusy hsame.symm,
              (Option.some.inj hstep).symm⟩
        next => exact ⟨call, _, _, .fails hbusy, (Option.some.inj hstep).symm⟩
      next signature hcall hfile =>
        have hbusy : w.calls call ≠ .idle := by rw [hcall]; nofun
        exact ⟨call, _, _, .fails hbusy, (Option.some.inj hstep).symm⟩
      next => cases hstep
  | fallBack call =>
      right
      simp only [step] at hstep
      split at hstep
      next hcall =>
        have hbusy : w.calls call ≠ .idle := by rw [hcall]; nofun
        exact ⟨call, _, _, .fallsBack hbusy, (Option.some.inj hstep).symm⟩
      next => cases hstep
  | store call =>
      right
      simp only [step] at hstep
      split at hstep
      next signature catalog hcall =>
        exact ⟨call, _, _, .stores signature catalog hcall, (Option.some.inj hstep).symm⟩
      next => cases hstep

/-! ## Invariants -/

/-- Every signature goes with the content its catalog was opened from, and a
catalog that was returned has been stored. -/
structure Consistent (w : World format) : Prop where
  state : ∀ loaded, w.state = some loaded →
    loaded.signature = format.signature loaded.catalog.content
  opened : ∀ call signature catalog, w.calls call = .opened signature catalog →
    signature = format.signature catalog.content
  truthful : w.Truthful
  served : w.Served → w.state.isSome

theorem consistent_new (file : Option Content) : (World.new format file).Consistent where
  state := nofun
  opened := nofun
  truthful := nofun
  served := nofun

theorem Consistent.setCall {w : World format} (hw : w.Consistent) {call : ℕ}
    {progress : Call format} {state : Option (LoadedCatalog format)}
    (hstate : ∀ loaded, state = some loaded →
      loaded.signature = format.signature loaded.catalog.content)
    (hopened : ∀ signature catalog, progress = .opened signature catalog →
      signature = format.signature catalog.content)
    (htruthful : ∀ catalog version, progress = .returned (some (catalog, version)) →
      version = (format.signature catalog.content).version)
    (hkept : w.state.isSome → state.isSome)
    (hserved : ∀ served, progress = .returned (some served) → state.isSome) :
    Consistent ⟨w.file, state, Function.update w.calls call progress⟩ := by
  constructor
  · exact hstate
  · intro other signature catalog hother
    simp only [Function.update_apply] at hother
    split_ifs at hother
    · exact hopened signature catalog hother
    · exact hw.opened other signature catalog hother
  · intro other catalog version hother
    simp only [Function.update_apply] at hother
    split_ifs at hother
    · exact htruthful catalog version hother
    · exact hw.truthful other catalog version hother
  · rintro ⟨other, served, hother⟩
    simp only [Function.update_apply] at hother
    split_ifs at hother
    · exact hserved served hother
    · exact hkept (hw.served ⟨other, served, hother⟩)

theorem Consistent.progress {w : World format} (hw : w.Consistent) {call : ℕ}
    {progress : Call format} {state : Option (LoadedCatalog format)}
    (hprogress : w.Progress call progress state) :
    Consistent ⟨w.file, state, Function.update w.calls call progress⟩ := by
  cases hprogress with
  | found content hidle => exact hw.setCall hw.state nofun nofun id nofun
  | missing hidle hempty => exact hw.setCall hw.state nofun nofun id nofun
  | fresh loaded hstate =>
      refine hw.setCall hw.state nofun ?_ id fun _ _ => by rw [hstate]; rfl
      intro catalog version hreturned
      cases hreturned
      rw [hw.state loaded hstate]
  | stale signature hbusy => exact hw.setCall hw.state nofun nofun id nofun
  | opens signature catalog hbusy hsignature =>
      refine hw.setCall hw.state ?_ nofun id nofun
      intro other opened hsame
      cases hsame
      exact hsignature
  | fails hbusy => exact hw.setCall hw.state nofun nofun id nofun
  | fallsBack hbusy =>
      refine hw.setCall hw.state nofun ?_ id ?_
      · intro catalog version hreturned
        obtain ⟨loaded, hloaded, heq⟩ := Option.map_eq_some_iff.mp (Call.returned.inj hreturned)
        cases heq
        rw [hw.state loaded hloaded]
      · intro served hreturned
        have hloaded := congrArg Option.isSome (Call.returned.inj hreturned)
        rwa [loaded, Option.isSome_map] at hloaded
  | stores signature catalog hopened =>
      have hsignature := hw.opened call signature catalog hopened
      refine hw.setCall ?_ nofun ?_ (fun _ => rfl) fun _ _ => rfl
      · intro loaded hloaded
        cases hloaded
        exact hsignature
      · intro other version hreturned
        cases hreturned
        rw [hsignature]

theorem Consistent.step {w after : World format} (hw : w.Consistent) {action : Action Content}
    (hsteady : w.Steady action) (hstep : w.step action = some after) : after.Consistent := by
  rcases step_cases hsteady hstep with ⟨file, heq⟩ | ⟨call, progress, state, hprogress, heq⟩
  · rw [heq]
    exact ⟨hw.state, hw.opened, hw.truthful, hw.served⟩
  · rw [heq]
    exact hw.progress hprogress

/-- Since `before` the slot has held a catalog, and no call that started later has
returned without one. -/
structure Serving (before w : World format) : Prop where
  state : w.state.isSome
  later : ∀ call, before.calls call = .idle → w.calls call ≠ .returned none

theorem Consistent.serving {w : World format} (hw : w.Consistent) (hserved : w.Served) :
    Serving w w where
  state := hw.served hserved
  later call hidle := by rw [hidle]; nofun

theorem Serving.progress {before w : World format} (hserving : Serving before w) {call : ℕ}
    {progress : Call format} {state : Option (LoadedCatalog format)}
    (hprogress : w.Progress call progress state) :
    Serving before ⟨w.file, state, Function.update w.calls call progress⟩ := by
  obtain ⟨loaded, hloaded⟩ := Option.isSome_iff_exists.mp hserving.state
  constructor
  · cases hprogress with
    | stores signature catalog hopened => rfl
    | _ => exact hserving.state
  · intro other hother
    simp only [Function.update_apply]
    split_ifs
    · cases hprogress with
      | missing hidle hempty =>
          rw [hempty] at hloaded
          cases hloaded
      | fallsBack hbusy =>
          rw [World.loaded, hloaded]
          nofun
      | _ => nofun
    · exact hserving.later other hother

theorem Serving.step {before w after : World format} (hserving : Serving before w)
    {action : Action Content} (hsteady : w.Steady action) (hstep : w.step action = some after) :
    Serving before after := by
  rcases step_cases hsteady hstep with ⟨file, heq⟩ | ⟨call, progress, state, hprogress, heq⟩
  · rw [heq]
    exact ⟨hserving.state, hserving.later⟩
  · rw [heq]
    exact hserving.progress hprogress

/-- What steady steps keep, steady runs keep. -/
theorem SteadyRun.preserves (P : World format → Prop)
    (hstep : ∀ w action after, P w → w.Steady action → w.step action = some after → P after)
    {w finish : World format} {actions : List (Action Content)} (hw : P w)
    (hsteady : w.SteadyRun actions) (hrun : w.run actions = some finish) : P finish := by
  induction actions generalizing w with
  | nil => exact Option.some.inj hrun ▸ hw
  | cons action actions ih =>
      obtain ⟨after, hfirst, hrest⟩ := Option.bind_eq_some_iff.mp hrun
      exact ih (hstep w action after hw hsteady.1 hfirst) (hsteady.2 after hfirst) hrest

end World

/-- In every run of steady steps: a call that starts after some call has returned a
catalog returns one too, and the version of a returned catalog is the signature of
the content it was opened from. -/
theorem reloading_catalog {file : Option Content} {past rest : List (Action Content)}
    {middle finish : World format} (hpastSteady : (World.new format file).SteadyRun past)
    (hpast : (World.new format file).run past = some middle)
    (hrestSteady : middle.SteadyRun rest) (hrest : middle.run rest = some finish) :
    (middle.Served → ∀ call, middle.calls call = .idle → finish.calls call ≠ .returned none) ∧
      finish.Truthful := by
  have hmiddle : middle.Consistent :=
    hpastSteady.preserves World.Consistent (fun _ _ _ hw => hw.step)
      (World.consistent_new file) hpast
  have hfinish : finish.Consistent :=
    hrestSteady.preserves World.Consistent (fun _ _ _ hw => hw.step) hmiddle hrest
  refine ⟨fun hserved => ?_, hfinish.truthful⟩
  have hserving : World.Serving middle finish :=
    hrestSteady.preserves (World.Serving middle) (fun _ _ _ hw => hw.step)
      (hmiddle.serving hserved) hrest
  exact hserving.later

/-! ## Runs with a replacement -/

/-- Contents that are their own metadata and always open. -/
def plainFormat : FileFormat CatalogSignature CatalogSignature := ⟨id, .ok⟩

/-- One call that opens the file, from its start to its end. -/
def wholeCall (call : ℕ) : List (Action CatalogSignature) :=
  [.stat call, .compare call, .openFile call, .store call]

def firstContent : CatalogSignature := ⟨10, 1000000000⟩
def secondContent : CatalogSignature := ⟨20, 2000000000⟩

theorem World.SteadyRun.cons {w after : World format} {action : Action Content}
    {actions : List (Action Content)} (hstep : w.step action = some after)
    (hsteady : w.Steady action) (hrest : after.SteadyRun actions) :
    w.SteadyRun (action :: actions) := by
  refine ⟨hsteady, fun other hother => ?_⟩
  rw [hstep] at hother
  exact Option.some.inj hother ▸ hrest

theorem reloading_catalog_replaced :
    ∃ middle finish : World plainFormat,
      (World.new plainFormat (some firstContent)).run (wholeCall 0) = some middle ∧
      middle.run (.replace (some secondContent) :: wholeCall 1) = some finish ∧
      finish.calls 1 ≠ .returned none ∧ finish.Truthful := by
  have hpast : (World.new plainFormat (some firstContent)).SteadyRun (wholeCall 0) :=
    .cons rfl (fun _ => rfl) (.cons rfl trivial (.cons rfl (.inr rfl) (.cons rfl trivial trivial)))
  have hrest : ∀ middle, (World.new plainFormat (some firstContent)).run (wholeCall 0) =
      some middle → middle.SteadyRun (.replace (some secondContent) :: wholeCall 1) := by
    intro middle hmiddle
    obtain rfl := Option.some.inj hmiddle
    exact .cons rfl trivial (.cons rfl (fun _ => rfl) (.cons rfl trivial
      (.cons rfl (.inr rfl) (.cons rfl trivial trivial))))
  refine ⟨_, _, rfl, rfl, ?_⟩
  have hsafe := reloading_catalog hpast rfl (hrest _ rfl) rfl
  exact ⟨hsafe.1 ⟨0, _, rfl⟩ 1 rfl, hsafe.2⟩

/-- A file removed after a call that served it, and a file replaced between the
examination and the opening. -/
theorem reloading_catalog_counterexample :
    Function.Injective plainFormat.signature ∧
    (∃ middle finish : World plainFormat,
      (World.new plainFormat (some firstContent)).run (wholeCall 0) = some middle ∧
      middle.run [.replace none, .stat 1] = some finish ∧
      middle.Served ∧ middle.calls 1 = .idle ∧ finish.calls 1 = .returned none) ∧
    ∃ finish : World plainFormat,
      (World.new plainFormat (some firstContent)).run
        [.stat 0, .compare 0, .replace (some secondContent), .openFile 0, .store 0] =
          some finish ∧
      ¬ finish.Truthful := by
  refine ⟨Function.injective_id, ⟨_, _, rfl, rfl, ⟨0, _, rfl⟩, rfl, rfl⟩, _, rfl, ?_⟩
  intro htruthful
  have hversion := htruthful 0 ⟨secondContent, secondContent, rfl⟩ _ rfl
  revert hversion
  decide

end SeizaServer.Catalogs
