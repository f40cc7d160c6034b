import SeizaServer.Binary64
import SeizaServer.JobModel
import SeizaServer.LabelledRun
import SeizaServer.SolutionCodec

/-!
# Jobs stay readable

The text columns of a stored job over the life of the job: its options from the
submission, its solution from the completion that was accepted.  Both backends
write them with the same codec and decode them in every read.
-/

namespace SeizaServer.Solver

open JsonCodec Transition

variable {Time : Type}

/-! ## The checks of a worker's solution -/

/-- `seiza::Sip::forward_terms` and `inverse_terms`. -/
structure SipTerms where
  forward : UInt8 → List (UInt8 × UInt8)
  inverse : UInt8 → List (UInt8 × UInt8)

def validateCoefficients (order : UInt8) (name : String) (expected : List (UInt8 × UInt8))
    (values : List SipCoefficient) : Except String Unit := do
  if values.length ≠ expected.length then
    throw ("SIP " ++ name ++ " requires " ++ toString expected.length ++
      " coefficients for order " ++ toString order)
  for (p, q) in expected do
    let term := name ++ "_" ++ toString p ++ "_" ++ toString q
    match values.filter fun value => (value.1, value.2.1) == (p, q) with
    | [value] =>
        if !value.2.2.isFinite then throw ("SIP " ++ term ++ " must be finite")
    | _ => throw ("SIP " ++ name ++ " must contain coefficient " ++ term ++ " exactly once")

def SipResponse.validate (terms : SipTerms) (sip : SipResponse) : Except String Unit := do
  if sip.order < 2 || 5 < sip.order then throw "SIP order must be between 2 and 5"
  let forward := terms.forward sip.order
  let inverse := terms.inverse sip.order
  validateCoefficients sip.order "A" forward sip.a
  validateCoefficients sip.order "B" forward sip.b
  validateCoefficients sip.order "AP" inverse sip.ap
  validateCoefficients sip.order "BP" inverse sip.bp

def WcsResponse.validate (terms : SipTerms) (wcs : WcsResponse) : Except String Unit := do
  if [wcs.crval.1, wcs.crval.2, wcs.crpix.1, wcs.crpix.2, wcs.cd.1.1, wcs.cd.1.2, wcs.cd.2.1,
      wcs.cd.2.2].any fun value => !value.isFinite then
    throw "WCS coordinates and CD matrix must be finite"
  match wcs.sip with
  | some sip =>
      sip.validate terms
      if wcs.ctype ≠ ("RA---TAN-SIP", "DEC--TAN-SIP") then
        throw "a SIP solution requires RA---TAN-SIP / DEC--TAN-SIP axes"
  | none => return

def SolutionResponse.validate (terms : SipTerms) (solution : SolutionResponse Time) :
    Except String Unit :=
  solution.wcs.validate terms

/-! ## Valid options -/

theorem finite_of_positive {value : Float}
    (hpositive : (!(value.isFinite && decide (0 < value))) = false) : value.isFinite = true := by
  rw [Bool.not_eq_false', Bool.and_eq_true] at hpositive
  exact hpositive.1

theorem finite_of_any {value : Option Float} {invalid : Float → Bool}
    (hnone : value.any invalid = false)
    (hfinite : ∀ number, invalid number = false → number.isFinite = true) :
    FiniteOption value := by
  intro number hnumber
  rw [hnumber] at hnone
  exact hfinite number hnone

theorem finite_of_inRange {low high value : Float} (hlow : low.isFinite = true)
    (hhigh : high.isFinite = true) (hrange : (!inRange low high value) = false) :
    value.isFinite = true := by
  rw [Bool.not_eq_false', inRange, Bool.and_eq_true, decide_eq_true_eq, decide_eq_true_eq]
    at hrange
  exact Binary64.isFinite_of_between hlow hhigh hrange.1 hrange.2

theorem finite_of_bound {bound : Option Float} (hbound : SolveOptions.boundIsValid bound = true) :
    FiniteOption bound := by
  intro number hnumber
  unfold SolveOptions.boundIsValid at hbound
  rw [hnumber, Option.all_some, Bool.and_eq_true] at hbound
  exact hbound.1

/-- The numbers of an observer that passes the checks. -/
theorem SolveOptions.finite_observer {options : SolveOptions Time}
    (hvalid : options.validateObserver = .ok ()) :
    FiniteOption options.observerLatitudeDeg ∧ FiniteOption options.observerLongitudeDeg ∧
      FiniteOption options.observerAltitudeM ∧
      ∀ itrf, options.observerItrfM = some itrf →
        itrf.1.isFinite = true ∧ itrf.2.1.isFinite = true ∧ itrf.2.2.isFinite = true := by
  have hrest : ∀ first : Except String Unit, (do
        first
        refuse (options.observerAltitudeM.any fun altitude : Float => !altitude.isFinite)
          "observer_altitude_m must be finite"
        refuse (options.observerItrfM.any fun ((x, y, z) : Float × Float × Float) =>
            !x.isFinite || !y.isFinite || !z.isFinite || (x == 0 && y == 0 && z == 0))
          "observer_itrf_m must be finite and cannot be Earth's center") = .ok () →
      first = .ok () ∧ FiniteOption options.observerAltitudeM ∧
        ∀ itrf, options.observerItrfM = some itrf →
          itrf.1.isFinite = true ∧ itrf.2.1.isFinite = true ∧ itrf.2.2.isFinite = true := by
    intro first hfirst
    simp only [bind_eq_ok, refuse_eq_ok] at hfirst
    obtain ⟨hdone, haltitude, hitrf⟩ := hfirst
    refine ⟨hdone, finite_of_any haltitude fun number hinvalid => ?_, ?_⟩
    · rw [Bool.not_eq_false'] at hinvalid
      exact hinvalid
    · intro itrf hsome
      rw [hsome] at hitrf
      obtain ⟨x, y, z⟩ := itrf
      simp only [Option.any_some, Bool.or_eq_false_iff, Bool.not_eq_false'] at hitrf
      exact ⟨hitrf.1.1.1, hitrf.1.1.2, hitrf.1.2⟩
  unfold validateObserver at hvalid
  cases hlatitude : options.observerLatitudeDeg with
  | none =>
      cases hlongitude : options.observerLongitudeDeg with
      | none =>
          simp only [hlatitude, hlongitude] at hvalid
          exact ⟨nofun, nofun, (hrest _ hvalid).2⟩
      | some longitude =>
          simp only [hlatitude, hlongitude] at hvalid
          cases (hrest _ hvalid).1
  | some latitude =>
      cases hlongitude : options.observerLongitudeDeg with
      | none =>
          simp only [hlatitude, hlongitude] at hvalid
          cases (hrest _ hvalid).1
      | some longitude =>
          simp only [hlatitude, hlongitude, bind_eq_ok, refuse_eq_ok, Bool.or_eq_false_iff,
            Bool.not_eq_false'] at hvalid
          obtain ⟨hfirst, hsecond, hthird, haltitude, hitrf⟩ := hvalid
          have hfinite := (hrest (.ok ()) (by
            simp only [bind_eq_ok, refuse_eq_ok]
            exact ⟨trivial, haltitude, hitrf⟩)).2
          refine ⟨?_, ?_, hfinite⟩
          · intro number hnumber
            cases hnumber
            exact hfirst.1
          · intro number hnumber
            cases hnumber
            exact hsecond

/-- The check leaves one number open: the search radius. -/
theorem SolveOptions.finite_iff {options : SolveOptions Time} (hvalid : options.validate = .ok ()) :
    options.Finite ↔ FiniteOption options.radiusDeg := by
  refine ⟨fun hfinite => hfinite.radiusDeg, fun hradius => ?_⟩
  obtain ⟨hdetection, hhint, _, hexposure, hobserver⟩ := validate_eq_ok.mp hvalid
  simp only [validateDetection, bind_eq_ok, refuse_eq_ok, Bool.not_eq_false', Bool.and_eq_true]
    at hdetection
  simp only [validateHint, bind_eq_ok, refuse_eq_ok] at hhint
  obtain ⟨hsigma, htolerance, ⟨hmin, hmax⟩, _⟩ := hdetection
  obtain ⟨_, hra, hdec, hscale⟩ := hhint
  obtain ⟨hlatitude, hlongitude, haltitude, hitrf⟩ := finite_observer hobserver
  constructor
  · exact finite_of_any hra fun number => finite_of_inRange (by decide) (by decide)
  · exact finite_of_any hdec fun number => finite_of_inRange (by decide) (by decide)
  · exact hradius
  · exact finite_of_any hscale fun number => finite_of_positive
  · exact htolerance.1
  · exact finite_of_bound hmin
  · exact finite_of_bound hmax
  · exact hsigma.1
  · intro number hnumber
    exact (validateExposure_eq_ok.mp hexposure number hnumber).1
  · exact hlatitude
  · exact hlongitude
  · exact haltitude
  · exact hitrf

/-! ## The stored row -/

inductive Backend where
  | sqlx
  | dynamo

/-- The column `solution_json`: no attribute, `NULL`, or a text. -/
inductive SolutionColumn where
  | absent
  | null
  | text (json : Json)

/-- The columns of a job that hold JSON, and its status. -/
structure StoredRow where
  status : JobStatus
  optionsJson : Json
  solutionJson : SolutionColumn

/-- What `record_from_row` and `record_from_item` decode of the JSON columns. -/
def decodeSolution (instants : Codec.Lossless Time) :
    SolutionColumn → Option (Option (SolutionResponse Time))
  | .absent => some none
  | .null => some none
  | .text json => ((SolutionResponse.codec instants).read json).map some

/-- The two JSON columns of a row or item that is read. -/
def decodeJsonColumns (instants : Codec.Lossless Time) (row : StoredRow) :
    Option (SolveOptions Time × Option (SolutionResponse Time)) := do
  let options ← (SolveOptions.codec instants).read row.optionsJson
  let solution ← decodeSolution instants row.solutionJson
  return (options, solution)

/-- `claim(None)` decodes every queued row before it chooses one. -/
def claimCandidates (instants : Codec.Lossless Time) (rows : List StoredRow) :
    Option (List (SolveOptions Time × Option (SolutionResponse Time))) :=
  (rows.filter fun row => row.status = .queued).mapM (decodeJsonColumns instants)

def enqueuedRow (backend : Backend) (instants : Codec.Lossless Time) (options : SolveOptions Time) :
    StoredRow where
  status := .queued
  optionsJson := (SolveOptions.codec instants).write options
  solutionJson :=
    match backend with
    | .sqlx => .null
    | .dynamo => .absent

/-- The completion's `solution_json`; a failed job has none. -/
def completedRow (instants : Codec.Lossless Time) (solution : Option (SolutionResponse Time))
    (row : StoredRow) : StoredRow :=
  { row with
    status := completionStatus solution
    solutionJson :=
      match solution with
      | some solution => .text ((SolutionResponse.codec instants).write solution)
      | none => .null }

/-! ## Runs -/

/-- Who completes a job. -/
inductive CompletionPath where
  | worker
  | embedded

inductive JobEvent (Time : Type) where
  | submit (id : JobId) (options : SolveOptions Time)
  | complete (id : JobId) (path : CompletionPath) (solution : Option (SolutionResponse Time))
  /-- A claim, a reclaimed lease, a heartbeat, a donation or a notification. -/
  | touch (id : JobId) (status : JobStatus)

/-- A stored row beside the options and the solution that were accepted for it. -/
structure PersistedJob (Time : Type) where
  row : StoredRow
  options : SolveOptions Time
  solution : Option (SolutionResponse Time)

abbrev PersistedJobs (Time : Type) := JobId → Option (PersistedJob Time)

inductive JobStep (backend : Backend) (terms : SipTerms) (instants : Codec.Lossless Time) :
    PersistedJobs Time → JobEvent Time → PersistedJobs Time → Prop
  | submit {jobs : PersistedJobs Time} {id : JobId} {options : SolveOptions Time}
      (hvalid : options.validate = .ok ()) (hfresh : jobs id = none) :
      JobStep backend terms instants jobs (.submit id options)
        (Function.update jobs id (some ⟨enqueuedRow backend instants options, options, none⟩))
  | complete {jobs : PersistedJobs Time} {id : JobId} {path : CompletionPath}
      {solution : Option (SolutionResponse Time)} {job : PersistedJob Time}
      (hjob : jobs id = some job) (hsolving : job.row.status = .solving)
      (hworker : path = .worker → ∀ found, solution = some found → found.validate terms = .ok ()) :
      JobStep backend terms instants jobs (.complete id path solution)
        (Function.update jobs id
          (some ⟨completedRow instants solution job.row, job.options, solution⟩))
  | touch {jobs : PersistedJobs Time} {id : JobId} {status : JobStatus} {job : PersistedJob Time}
      (hjob : jobs id = some job) (hstatus : job.row.status.terminal = status.terminal) :
      JobStep backend terms instants jobs (.touch id status)
        (Function.update jobs id (some { job with row := { job.row with status := status } }))

/-- A read returns the options and the solution that were accepted. -/
def PersistedJob.Readable (instants : Codec.Lossless Time) (job : PersistedJob Time) : Prop :=
  decodeJsonColumns instants job.row = some (job.options, job.solution)

/-- The radius and the solution hold finite numbers only. -/
def PersistedJob.Finite (job : PersistedJob Time) : Prop :=
  FiniteOption job.options.radiusDeg ∧
    ∀ solution, job.solution = some solution → solution.Finite

def JobEvent.Finite : JobEvent Time → Prop
  | .submit _ options => FiniteOption options.radiusDeg
  | .complete _ _ solution => ∀ found, solution = some found → found.Finite
  | .touch _ _ => True

/-! ### Every row holds what was accepted -/

theorem forall_none {α : Type} {P : α → Prop} (value : α)
    (hnone : (none : Option α) = some value) : P value := by
  cases hnone

/-- The columns are what the codec writes for the accepted values. -/
structure Faithful (instants : Codec.Lossless Time) (job : PersistedJob Time) : Prop where
  valid : job.options.validate = .ok ()
  options : job.row.optionsJson = (SolveOptions.codec instants).write job.options
  solution : ∀ found, job.solution = some found →
    job.row.solutionJson = .text ((SolutionResponse.codec instants).write found)
  unsolved : job.solution = none →
    job.row.solutionJson = .absent ∨ job.row.solutionJson = .null

theorem Faithful.readable_iff {instants : Codec.Lossless Time} {job : PersistedJob Time}
    (hfaithful : Faithful instants job) : job.Readable instants ↔ job.Finite := by
  have hoptions : (SolveOptions.codec instants).read job.row.optionsJson = some job.options ↔
      FiniteOption job.options.radiusDeg := by
    rw [hfaithful.options, (SolveOptions.codec instants).read_write,
      SolveOptions.representable_iff, SolveOptions.finite_iff hfaithful.valid]
  have hsolution : decodeSolution instants job.row.solutionJson = some job.solution ↔
      ∀ solution, job.solution = some solution → solution.Finite := by
    cases hfound : job.solution with
    | none =>
        have hnone : decodeSolution instants job.row.solutionJson = some none := by
          cases hfaithful.unsolved hfound with
          | inl habsent =>
              rw [habsent]
              rfl
          | inr hnull =>
              rw [hnull]
              rfl
        exact ⟨fun _ => forall_none, fun _ => hnone⟩
    | some found =>
        rw [hfaithful.solution found hfound]
        have hread : decodeSolution instants
            (.text ((SolutionResponse.codec instants).write found)) = some (some found) ↔
              found.Finite := by
          have hdecode : decodeSolution instants
              (.text ((SolutionResponse.codec instants).write found)) =
                ((SolutionResponse.codec instants).read
                  ((SolutionResponse.codec instants).write found)).map some := rfl
          rw [hdecode, ← @SolutionResponse.representable_iff Time instants,
            ← (SolutionResponse.codec instants).read_write, Option.map_eq_some_iff]
          constructor
          · intro hmapped
            obtain ⟨other, hother, hsame⟩ := hmapped
            rw [hother, hsame]
          · intro hread
            exact ⟨found, hread, rfl⟩
        rw [hread]
        constructor
        · intro hfinite solution hsame
          cases hsame
          exact hfinite
        · intro hfinite
          exact hfinite found rfl
  unfold PersistedJob.Readable PersistedJob.Finite
  rw [← hoptions, ← hsolution]
  unfold decodeJsonColumns
  cases (SolveOptions.codec instants).read job.row.optionsJson with
  | none => simp
  | some options =>
      cases decodeSolution instants job.row.solutionJson with
      | none => simp
      | some solution => simp

section Runs

variable {backend : Backend} {terms : SipTerms} {instants : Codec.Lossless Time}
  {jobs : PersistedJobs Time}

/-- One step keeps the rows faithful. -/
theorem faithful_step {event : JobEvent Time} {next : PersistedJobs Time}
    (hjobs : ∀ id job, jobs id = some job → Faithful instants job)
    (hstep : JobStep backend terms instants jobs event next) :
    ∀ id job, next id = some job → Faithful instants job := by
  intro other stored hstored
  cases hstep with
  | @submit id options hvalid hfresh =>
      by_cases hsame : other = id
      · rw [hsame, Function.update_self] at hstored
        cases hstored
        refine ⟨hvalid, rfl, forall_none, fun _ => ?_⟩
        cases backend with
        | sqlx => exact .inr rfl
        | dynamo => exact .inl rfl
      · rw [Function.update_of_ne hsame] at hstored
        exact hjobs other stored hstored
  | @complete id path solution job hjob hsolving hworker =>
      by_cases hsame : other = id
      · rw [hsame, Function.update_self] at hstored
        cases hstored
        have hbefore := hjobs id job hjob
        refine ⟨hbefore.valid, hbefore.options, ?_, ?_⟩
        · intro found hfound
          change solution = some found at hfound
          rw [hfound]
          rfl
        · intro hnone
          change solution = none at hnone
          rw [hnone]
          exact .inr rfl
      · rw [Function.update_of_ne hsame] at hstored
        exact hjobs other stored hstored
  | @touch id status job hjob hstatus =>
      by_cases hsame : other = id
      · rw [hsame, Function.update_self] at hstored
        cases hstored
        have hbefore := hjobs id job hjob
        exact ⟨hbefore.valid, hbefore.options, hbefore.solution, hbefore.unsolved⟩
      · rw [Function.update_of_ne hsame] at hstored
        exact hjobs other stored hstored

/-- One step with finite numbers keeps the accepted values finite. -/
theorem finite_step {event : JobEvent Time} {next : PersistedJobs Time}
    (hjobs : ∀ id job, jobs id = some job → job.Finite) (hevent : event.Finite)
    (hstep : JobStep backend terms instants jobs event next) :
    ∀ id job, next id = some job → job.Finite := by
  intro other stored hstored
  cases hstep with
  | @submit id options hvalid hfresh =>
      by_cases hsame : other = id
      · rw [hsame, Function.update_self] at hstored
        cases hstored
        exact ⟨hevent, forall_none⟩
      · rw [Function.update_of_ne hsame] at hstored
        exact hjobs other stored hstored
  | @complete id path solution job hjob hsolving hworker =>
      by_cases hsame : other = id
      · rw [hsame, Function.update_self] at hstored
        cases hstored
        exact ⟨(hjobs id job hjob).1, hevent⟩
      · rw [Function.update_of_ne hsame] at hstored
        exact hjobs other stored hstored
  | @touch id status job hjob hstatus =>
      by_cases hsame : other = id
      · rw [hsame, Function.update_self] at hstored
        cases hstored
        exact hjobs id job hjob
      · rw [Function.update_of_ne hsame] at hstored
        exact hjobs other stored hstored

/-- The scan of a claim decodes rows that are all readable. -/
theorem claimCandidates_isSome {rows : List StoredRow}
    (hrows : ∀ row ∈ rows, (decodeJsonColumns instants row).isSome) :
    (claimCandidates instants rows).isSome := by
  unfold claimCandidates
  have hqueued : ∀ row ∈ rows.filter fun row => row.status = .queued,
      (decodeJsonColumns instants row).isSome :=
    fun row hmem => hrows row (List.mem_filter.mp hmem).1
  generalize rows.filter (fun row => row.status = .queued) = queued at hqueued
  induction queued with
  | nil => rfl
  | cons row rest ih =>
      have hfirst := hqueued row List.mem_cons_self
      have hrest := ih fun other hmem => hqueued other (List.mem_cons_of_mem _ hmem)
      obtain ⟨decoded, hdecoded⟩ := Option.isSome_iff_exists.mp hfirst
      obtain ⟨others, hothers⟩ := Option.isSome_iff_exists.mp hrest
      rw [List.mapM_cons, hdecoded, hothers]
      rfl

/-- In every run each stored job is read back as it was accepted exactly if its
radius and its solution hold finite numbers; a run that accepts only such
values leaves every row readable. -/
theorem persisted_jobs_readable {events : List (JobEvent Time)}
    (hrun : Run (JobStep backend terms instants) (fun _ => none) events jobs) :
    (∀ id job, jobs id = some job → (job.Readable instants ↔ job.Finite)) ∧
      ((∀ event ∈ events, event.Finite) →
        (∀ id job, jobs id = some job → job.Readable instants) ∧
          ∀ ids : List JobId, (claimCandidates instants
            (ids.filterMap fun id => (jobs id).map PersistedJob.row)).isSome) := by
  have hfaithful : ∀ id job, jobs id = some job → Faithful instants job :=
    hrun.preserves (fun state => ∀ id job, state id = some job → Faithful instants job)
      (fun _ => forall_none)
      fun state event next hstate hstep => faithful_step hstate hstep
  refine ⟨fun id job hjob => (hfaithful id job hjob).readable_iff, fun hevents => ?_⟩
  have hfinite : (∀ event ∈ events, event.Finite) → ∀ id job, jobs id = some job → job.Finite := by
    apply hrun.invariant (fun past state => (∀ event ∈ past, event.Finite) →
      ∀ id job, state id = some job → job.Finite)
    · exact fun _ _ => forall_none
    · intro past state event next hstate hstep hpast
      exact finite_step (hstate fun other hother => hpast other (List.mem_append_left _ hother))
        (hpast event (by simp)) hstep
  have hreadable : ∀ id job, jobs id = some job → job.Readable instants :=
    fun id job hjob => (hfaithful id job hjob).readable_iff.mpr (hfinite hevents id job hjob)
  refine ⟨hreadable, fun ids => claimCandidates_isSome fun row hmem => ?_⟩
  obtain ⟨id, _, hrow⟩ := List.mem_filterMap.mp hmem
  obtain ⟨job, hjob, heq⟩ := Option.map_eq_some_iff.mp hrow
  rw [← heq, hreadable id job hjob]
  rfl

end Runs

/-! ### A solution that is not read back -/

/-- Instants by their text. -/
def textInstants : Codec.Lossless String where
  toCodec := Codec.string
  representable _ := trivial

/-- A solution of the embedded solver with some pixel scale. -/
def solutionWithScale (scale : Float) : SolutionResponse String where
  centerRaDeg := 10
  centerDecDeg := 20
  pixelScaleArcsecPerPixel := scale
  matchedStars := 12
  rmsArcsec := 0.5
  imageWidth := 100
  imageHeight := 100
  wcs := ⟨(10, 20), (50, 50), ((1, 0), (0, 1)), defaultCtype, defaultCunit, defaultRadesys,
    defaultEquinox, none⟩
  footprint := zeroFootprint
  objects := []
  catalogVersion := none
  captureTime := none
  statistics := none
  pixelCoordinates := none
  contentRegion := none

/-- The events of one job: submitted, claimed, completed. -/
def solvedJob (scale : Float) : List (JobEvent String) :=
  [.submit 1 SolveOptions.default, .touch 1 .solving,
    .complete 1 .embedded (some (solutionWithScale scale))]

/-- The row of that job at the end. -/
def solvedRow (scale : Float) : PersistedJob String :=
  ⟨completedRow textInstants (some (solutionWithScale scale))
    { enqueuedRow .sqlx textInstants SolveOptions.default with status := .solving },
    SolveOptions.default, some (solutionWithScale scale)⟩

theorem run_solvedJob (terms : SipTerms) (scale : Float) :
    ∃ jobs, Run (JobStep .sqlx terms textInstants) (fun _ => none) (solvedJob scale) jobs ∧
      jobs 1 = some (solvedRow scale) := by
  refine ⟨_, ⟨_, .submit (by decide) rfl, _, .touch (Function.update_self ..) ?_, _,
    .complete (Function.update_self ..) rfl (fun hworker => nomatch hworker), rfl⟩, ?_⟩
  · rfl
  · rw [Function.update_self]
    rfl

theorem finite_solutionWithScale {scale : Float} (hscale : scale.isFinite = true) :
    (solutionWithScale scale).Finite := by
  have hzero : (0 : Float).isFinite = true := by decide
  have hone : (1 : Float).isFinite = true := by decide
  have hten : (10 : Float).isFinite = true := by decide
  have htwenty : (20 : Float).isFinite = true := by decide
  have hfifty : (50 : Float).isFinite = true := by decide
  have hhalf : (0.5 : Float).isFinite = true := by decide
  have hequinox : defaultEquinox.isFinite = true := by decide
  have hcorner : FinitePoint (0, 0) := ⟨hzero, hzero⟩
  constructor
  · exact hten
  · exact htwenty
  · exact hscale
  · exact hhalf
  · exact ⟨⟨hten, htwenty⟩, ⟨hfifty, hfifty⟩, ⟨⟨hone, hzero⟩, ⟨hzero, hone⟩⟩, hequinox,
      fun sip hsip => forall_none sip hsip⟩
  · exact ⟨hcorner, hcorner, hcorner, hcorner⟩
  · intro overlay hmem
    cases hmem
  · exact fun statistics hnone => forall_none statistics hnone

/-- A job solved with a pixel scale of 1.5 is read back. -/
theorem persisted_jobs_readable_solved :
    ∃ jobs, Run (JobStep .sqlx ⟨fun _ => [], fun _ => []⟩ textInstants) (fun _ => none)
      (solvedJob 1.5) jobs ∧ ∀ id job, jobs id = some job → job.Readable textInstants := by
  obtain ⟨jobs, hrun, _⟩ := run_solvedJob ⟨fun _ => [], fun _ => []⟩ 1.5
  refine ⟨jobs, hrun, ((persisted_jobs_readable hrun).2 ?_).1⟩
  intro event hmem
  simp only [solvedJob, List.mem_cons, List.not_mem_nil, or_false] at hmem
  rcases hmem with hsubmit | htouch | hcomplete
  · rw [hsubmit]
    intro radius hradius
    have heq : (2.0 : Float) = radius := Option.some.inj hradius
    rw [← heq]
    decide
  · rw [htouch]
    trivial
  · rw [hcomplete]
    intro found hfound
    rw [← Option.some.inj hfound]
    exact finite_solutionWithScale (by decide)

/-- A job that the embedded solver completes with a pixel scale that is not a
number. -/
theorem persisted_jobs_readable_counterexample :
    ¬ ∀ (backend : Backend) (terms : SipTerms) (Time : Type) (instants : Codec.Lossless Time)
      (events : List (JobEvent Time)) (jobs : PersistedJobs Time),
        Run (JobStep backend terms instants) (fun _ => none) events jobs →
          ∀ id job, jobs id = some job → job.Readable instants := by
  intro hclaim
  obtain ⟨jobs, hrun, hjob⟩ := run_solvedJob ⟨fun _ => [], fun _ => []⟩ (0 / 0)
  have hreadable := hclaim .sqlx _ String textInstants _ jobs hrun 1 _ hjob
  have hfaithful : Faithful textInstants (solvedRow (0 / 0)) :=
    ⟨by decide, rfl, fun found hfound => by rw [← Option.some.inj hfound]; rfl, nofun⟩
  have hfinite := (hfaithful.readable_iff.mp hreadable).2 _ rfl
  have hscale : (0 / 0 : Float).isFinite = true := hfinite.pixelScale
  exact absurd hscale (by decide)

end SeizaServer.Solver
