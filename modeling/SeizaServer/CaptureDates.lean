import SeizaServer.Annotations
import SeizaServer.HeaderPreparation
import SeizaServer.TimeText

/-!
# Date arithmetic on capture times

Which additions and subtractions of dates and instants a job goes through: those of
the preparation of its options from the headers of its image, and those of every
annotation of its solution.  An operation is listed where the code performs it.
-/

namespace SeizaServer.CaptureDates

open Solver Annotations

/-! ## What can be represented -/

def minDate : CivilDate.Day := ⟨-262143, 1, by decide, by decide⟩
def maxDate : CivilDate.Day := ⟨262142, 365, by decide, by decide⟩

/-- An instant of the calendar crate. -/
structure Instant extends Times.DateTime where
  year_low : minDate.year ≤ date.year
  year_high : date.year ≤ maxDate.year

/-- The most nanoseconds of a `TimeDelta`, of either sign: its milliseconds are 64 bits. -/
def maxDelta : ℤ := (2 ^ 63 - 1) * 1000000

/-- Nanoseconds from one time of day to another; a leap second counts once it is over. -/
def timeDifference (start finish : Times.NaiveTime) : ℤ :=
  let leap : ℤ :=
    if start.secs < finish.secs then (if 1000000000 ≤ start.frac then 1 else 0)
    else if finish.secs < start.secs then (if 1000000000 ≤ finish.frac then -1 else 0)
    else 0
  ((finish.secs : ℤ) - start.secs + leap) * 1000000000 + ((finish.frac : ℤ) - start.frac)

def nanoseconds (start finish : Instant) : ℤ :=
  (finish.date.number - start.date.number) * 86400000000000 +
    timeDifference start.time finish.time

/-- An operation of the calendar crate.  Days are numbered as `CivilDate.Day.number`. -/
inductive DateOp where
  | subDays (date days : ℤ)
  | addDays (date days : ℤ)
  | difference (start finish : Instant)
  | microseconds (count : Int64)
  | checkedSub (time : Instant) (microseconds : Int64)

/-- The result is out of range, so the operation panics.  A checked one answers
that it has no result instead. -/
def DateOp.Overflows : DateOp → Prop
  | subDays date days => ¬ (minDate.number ≤ date - days ∧ date - days ≤ maxDate.number)
  | addDays date days => ¬ (minDate.number ≤ date + days ∧ date + days ≤ maxDate.number)
  | difference start finish => ¬ |nanoseconds start finish| ≤ maxDelta
  | microseconds count => ¬ |count.toInt * 1000| ≤ maxDelta
  | checkedSub _ _ => False

/-! ## The headers -/

section Headers

variable {Value : Type} (dates : Solver.Crates Value Instant)

def subtractSecondsOps (time : Instant) (seconds : Float) : List DateOp :=
  if !seconds.isFinite || decide (seconds ≤ 0) ||
      decide (Float.ofModel (Float.Model.ofInt64 Int64.maxValue) / 1e6 < seconds) then []
  else
    [.microseconds (roundToInt64 (seconds * 1e6)),
      .checkedSub time (roundToInt64 (seconds * 1e6))]

def intervalDurationOps (headers : ImageHeaders Value) (options : SolveOptions Instant) :
    List DateOp :=
  match options.captureTime, options.exposureSeconds, fitsTime dates headers "DATE-BEG",
      fitsTime dates headers "DATE-END" with
  | some _, none, some start, some finish => [.difference start finish]
  | _, _, _, _ => []

def resolvedIntervalOps (headers : ImageHeaders Value) (duration : Option Float) : List DateOp :=
  let dateBeg := fitsTime dates headers "DATE-BEG"
  let dateEnd := fitsTime dates headers "DATE-END"
  let dateAvg := fitsTime dates headers "DATE-AVG"
  let dateObs := fitsTime dates headers "DATE-OBS"
  match dateBeg, dateEnd with
  | some start, some finish => [.difference start finish]
  | _, _ =>
      match dateAvg, duration with
      | some midpoint, some seconds => subtractSecondsOps midpoint (seconds / 2)
      | _, _ =>
          match dateObs <|> dateBeg, duration with
          | some _, some _ => []
          | _, _ =>
              match dateEnd, duration with
              | some finish, some seconds => subtractSecondsOps finish seconds
              | _, _ => []

def timeOps (headers : ImageHeaders Value) (options : SolveOptions Instant) : List DateOp :=
  if options.captureTime.isSome || !headerTimeIsUsable dates headers then []
  else resolvedIntervalOps dates headers options.exposureSeconds

/-- Those of `prepare_satellite_metadata`. -/
def satelliteMetadataOps (headers : ImageHeaders Value) (options : SolveOptions Instant) :
    List DateOp :=
  let lasting := prepareDuration dates headers options
  intervalDurationOps dates headers lasting ++
    timeOps dates headers (prepareIntervalDuration dates headers lasting)

/-- Those of `prepare_solve_options`; a photo's metadata need none. -/
def prepareOps (options : SolveOptions Instant) (bytes : List UInt8) (filename : String) :
    List DateOp :=
  if !looksLikeFits bytes filename && !looksLikeXisf bytes filename then []
  else
    match imageHeaders dates bytes filename bytes.length with
    | none => []
    | some (headers, _) => satelliteMetadataOps dates headers (resetProvenance options)

end Headers

/-! ## The annotation -/

section Annotation

variable (crates : Annotations.Crates Instant)

/-- Those of `transient_near_capture`: the second only if the first comparison holds. -/
def nearCaptureOps (discovered : Option String) (capture : Option Instant) : List DateOp :=
  match discovered, capture with
  | some discovered, some capture =>
      match crates.parseDate discovered with
      | some discovered =>
          .subDays capture.date.number 365 ::
            if capture.date.number - 365 ≤ discovered then [.addDays capture.date.number 30]
            else []
      | none => []
  | _, _ => []

/-- Whether `append_object_catalog` asks when an object was discovered. -/
def asksDiscovery (options : AnnotationOptions) (forceTransient : Bool) (placed : PlacedObject) :
    Bool :=
  let transient := forceTransient || placed.object.kind = .transient
  let namedStar := placed.object.kind = .star || placed.object.kind = .doubleStar
  transient && options.transients && (!namedStar || options.namedStars)

/-- The objects of a catalog whose discovery is asked for. -/
def askedIn (catalog : ObjectCatalog) (wcs : Wcs) (size : Dimensions)
    (options : AnnotationOptions) (forceTransient : Bool) : List PlacedObject :=
  match catalog.objectsInFootprint wcs size with
  | .error _ => []
  | .ok placedObjects => placedObjects.filter (asksDiscovery options forceTransient)

/-- The objects whose discovery `annotate` asks for: transients among the catalog
objects, and all objects of the catalog of transients. -/
def asked (engine : AnnotationEngine) (solution : SolutionResponse Instant)
    (options : AnnotationOptions) : List PlacedObject :=
  let framed := frame crates solution
  (match engine.objects.join with
    | none => []
    | some (catalog, _) => askedIn catalog framed.1 framed.2.1 options false) ++
  match engine.transients.join with
  | none => []
  | some (catalog, _) =>
      if options.transients then askedIn catalog framed.1 framed.2.1 options true else []

/-- Those of `annotate`; the times of minor bodies are not computed with dates. -/
def annotateOps (engine : AnnotationEngine) (solution : SolutionResponse Instant)
    (capture : Option Instant) (options : AnnotationOptions) : List DateOp :=
  (asked crates engine solution options).flatMap fun placed =>
    nearCaptureOps crates (transientDiscoveryDate crates placed.object.commonName) capture

/-- The day an object was discovered, as far as it is known. -/
def discoveryDay (placed : PlacedObject) : Option ℤ :=
  (transientDiscoveryDate crates placed.object.commonName).bind crates.parseDate

/-- The year before the capture can be represented, and the month after it unless the
discovery is older than that year. -/
def WindowFits (capture : Instant) (discovered : ℤ) : Prop :=
  minDate.number ≤ capture.date.number - 365 ∧
    (discovered < capture.date.number - 365 ∨ capture.date.number + 30 ≤ maxDate.number)

end Annotation

/-! ## What stays in range -/

theorem minDate_number : minDate.number = -95746129 := by decide

theorem maxDate_number : maxDate.number = 95745399 := by decide

theorem Instant.number_bounds (instant : Instant) :
    minDate.number ≤ instant.date.number ∧ instant.date.number ≤ maxDate.number := by
  have hlow := instant.year_low
  have hhigh := instant.year_high
  have hone := instant.date.one_le
  have hlast := instant.date.le_daysIn
  constructor
  · apply not_lt.mp
    rw [CivilDate.Day.number_lt_iff]
    change ¬ (instant.date.year < -262143 ∨ instant.date.year = -262143 ∧ instant.date.ordinal < 1)
    change -262143 ≤ instant.date.year at hlow
    omega
  · apply not_lt.mp
    rw [CivilDate.Day.number_lt_iff]
    change ¬ (262142 < instant.date.year ∨ 262142 = instant.date.year ∧ 365 < instant.date.ordinal)
    change instant.date.year ≤ 262142 at hhigh
    have hyear : 262142 = instant.date.year → instant.date.ordinal ≤ 365 := fun heq => by
      rwa [← heq] at hlast
    omega

theorem timeDifference_bounds (start finish : Times.NaiveTime) :
    |timeDifference start finish| ≤ 90000 * 1000000000 := by
  have hstart := start.secs_lt
  have hfinish := finish.secs_lt
  have hstartFrac := start.frac_lt
  have hfinishFrac := finish.frac_lt
  unfold timeDifference
  dsimp only
  rw [abs_le]
  split_ifs <;> omega

theorem difference_fits (start finish : Instant) :
    ¬ (DateOp.difference start finish).Overflows := by
  have hstart := start.number_bounds
  have hfinish := finish.number_bounds
  have htime := abs_le.mp (timeDifference_bounds start.time finish.time)
  rw [minDate_number, maxDate_number] at hstart hfinish
  unfold DateOp.Overflows maxDelta nanoseconds
  rw [not_not, abs_le]
  omega

theorem microseconds_fits (count : Int64) : ¬ (DateOp.microseconds count).Overflows := by
  have hlow := Int64.le_toInt count
  have hhigh := Int64.toInt_lt count
  unfold DateOp.Overflows maxDelta
  rw [not_not, abs_le]
  omega

/-! ## Which operations overflow -/

section Run

variable {Value : Type} {dates : Solver.Crates Value Instant}
  {crates : Annotations.Crates Instant}

theorem subtractSecondsOps_fit (time : Instant) (seconds : Float) :
    ∀ op ∈ subtractSecondsOps time seconds, ¬ op.Overflows := by
  intro op hmem
  unfold subtractSecondsOps at hmem
  split_ifs at hmem
  · cases hmem
  · rcases List.mem_pair.mp hmem with rfl | rfl
    · exact microseconds_fits _
    · exact not_false

theorem intervalDurationOps_fit (headers : ImageHeaders Value) (options : SolveOptions Instant) :
    ∀ op ∈ intervalDurationOps dates headers options, ¬ op.Overflows := by
  intro op hmem
  unfold intervalDurationOps at hmem
  split at hmem
  · obtain rfl := List.mem_singleton.mp hmem
    exact difference_fits _ _
  · cases hmem

theorem resolvedIntervalOps_fit (headers : ImageHeaders Value) (duration : Option Float) :
    ∀ op ∈ resolvedIntervalOps dates headers duration, ¬ op.Overflows := by
  intro op hmem
  unfold resolvedIntervalOps at hmem
  dsimp only at hmem
  split at hmem
  · obtain rfl := List.mem_singleton.mp hmem
    exact difference_fits _ _
  · split at hmem
    · exact subtractSecondsOps_fit _ _ op hmem
    · split at hmem
      · cases hmem
      · split at hmem
        · exact subtractSecondsOps_fit _ _ op hmem
        · cases hmem

/-- The preparation of the options never overflows. -/
theorem prepareOps_fit (options : SolveOptions Instant) (bytes : List UInt8) (filename : String) :
    ∀ op ∈ prepareOps dates options bytes filename, ¬ op.Overflows := by
  intro op hmem
  unfold prepareOps at hmem
  split_ifs at hmem
  · cases hmem
  · split at hmem
    · cases hmem
    · rcases List.mem_append.mp hmem with hinterval | htime
      · exact intervalDurationOps_fit _ _ op hinterval
      · unfold timeOps at htime
        split_ifs at htime
        · cases htime
        · exact resolvedIntervalOps_fit _ _ op htime

/-- The window around a capture: its start is asked for whenever the discovery is
known, its end if the discovery is not before the start. -/
theorem nearCaptureOps_fit_iff (discovered : Option String) (capture : Option Instant) :
    (∀ op ∈ nearCaptureOps crates discovered capture, ¬ op.Overflows) ↔
      ∀ instant, capture = some instant → ∀ day, discovered.bind crates.parseDate = some day →
        WindowFits instant day := by
  have hnone : ∀ op ∈ ([] : List DateOp), ¬ op.Overflows := fun op hmem => by cases hmem
  cases discovered with
  | none => exact iff_of_true hnone fun _ _ day hday => by cases hday
  | some discovered =>
      cases capture with
      | none => exact iff_of_true hnone fun instant hinstant => by cases hinstant
      | some capture =>
          unfold nearCaptureOps
          dsimp only [Option.bind_some]
          cases crates.parseDate discovered with
          | none => exact iff_of_true hnone fun _ _ day hday => by cases hday
          | some day =>
              have hbounds := capture.number_bounds
              simp only [Option.some.injEq, forall_eq', List.forall_mem_cons]
              unfold WindowFits
              rw [minDate_number, maxDate_number] at hbounds ⊢
              split_ifs with hrecent
              · simp only [List.mem_singleton, forall_eq, DateOp.Overflows, minDate_number,
                  maxDate_number]
                omega
              · simp only [List.not_mem_nil, false_imp_iff, implies_true, and_true,
                  DateOp.Overflows, minDate_number, maxDate_number]
                omega

end Run

/-- No date operation of a job overflows, from the preparation of its options to the
annotation of its solution, if and only if the window around the capture time fits
for every object whose discovery is asked for and known. -/
theorem capture_dates {Value : Type} (dates : Solver.Crates Value Instant)
    (crates : Annotations.Crates Instant) (engine : AnnotationEngine)
    (options : SolveOptions Instant) (bytes : List UInt8) (filename : String)
    (solution : SolutionResponse Instant) (wanted : AnnotationOptions) :
    let prepared := prepareSolveOptions dates options bytes filename
    (∀ op ∈ prepareOps dates options bytes filename ++
        annotateOps crates engine solution prepared.captureTime wanted, ¬ op.Overflows) ↔
      ∀ capture, prepared.captureTime = some capture →
        ∀ placed ∈ asked crates engine solution wanted,
          ∀ discovered, discoveryDay crates placed = some discovered →
            WindowFits capture discovered := by
  intro prepared
  rw [List.forall_mem_append, and_iff_right (prepareOps_fit options bytes filename)]
  unfold annotateOps
  rw [List.forall_mem_flatMap]
  constructor
  · intro hfit capture hcapture placed hplaced discovered hdiscovered
    exact (nearCaptureOps_fit_iff _ _).mp (hfit placed hplaced) capture hcapture discovered
      hdiscovered
  · intro hfits placed hplaced
    exact (nearCaptureOps_fit_iff _ _).mpr fun capture hcapture discovered hdiscovered =>
      hfits capture hcapture placed hplaced discovered hdiscovered

/-! ## A capture in the first year -/

/-- A crate that knows one date. -/
def oneDateCrates : Annotations.Crates Instant where
  worldToPixel := planeCrates.worldToPixel
  pixelToWorld := planeCrates.pixelToWorld
  footprint := planeCrates.footprint
  scaleArcsecPerPx := planeCrates.scaleArcsecPerPx
  forwardTerms := planeCrates.forwardTerms
  inverseTerms := planeCrates.inverseTerms
  projectFigures := planeCrates.projectFigures
  angularSeparationDeg := planeCrates.angularSeparationDeg
  hypot := planeCrates.hypot
  kindText := planeCrates.kindText
  fixed := planeCrates.fixed
  lowercase := planeCrates.lowercase
  fromYmd := fun year month day =>
    (CivilDate.Day.ofMonthDay year (month - 1) day).map CivilDate.Day.number
  dateText := fun _ => "2026-07-08"
  parseDate := fun _ => (CivilDate.Day.ofMonthDay 2026 6 8).map CivilDate.Day.number
  dateOf := fun instant => instant.date.number
  timestampMillis := fun _ => 0
  figureAttribution := "figures"

def noHeaders : Solver.Crates Unit Instant where
  parseHeaderValue := fun _ => ()
  asF64 := fun _ => none
  asStr := fun _ => none
  readXisfHeader := fun _ _ => none
  photoMetadata := fun _ => ⟨none, none, none, none, none⟩
  parseFromRfc3339 := fun _ => none
  parseNaiveDateTime := fun _ _ => none
  parseNaiveDate := fun _ _ => none
  numMicroseconds := fun _ _ => none
  checkedSubMicroseconds := fun _ _ => none

def nova : PlacedObject where
  object :=
    { kind := .transient
      ra := 10
      dec := 20
      mag := none
      majorArcmin := none
      name := "nova"
      commonName := "disc. 2026/7/8"
      metadata := ⟨"", "", [], [], [], []⟩ }
  x := 5
  y := 5
  semiMajorPx := 0
  semiMinorPx := 0
  angleDeg := none

def novaEngine : AnnotationEngine :=
  { bareEngine with
    transients := some (some (⟨fun _ _ => .ok [nova], fun _ => none⟩, "1:2.000000003")) }

/-- Noon on the first of June of the first year. -/
def firstJune : Instant where
  date := ⟨-262143, 152, by decide, by decide⟩
  time := ⟨43200, 0, by decide, by decide, by decide⟩
  year_low := by decide
  year_high := by decide

def firstYearOptions : SolveOptions Instant :=
  { (SolveOptions.default : SolveOptions Instant) with captureTime := some firstJune }

def picture : SolutionResponse Instant where
  centerRaDeg := barredSolution.centerRaDeg
  centerDecDeg := barredSolution.centerDecDeg
  pixelScaleArcsecPerPixel := barredSolution.pixelScaleArcsecPerPixel
  matchedStars := barredSolution.matchedStars
  rmsArcsec := barredSolution.rmsArcsec
  imageWidth := barredSolution.imageWidth
  imageHeight := barredSolution.imageHeight
  wcs := barredSolution.wcs
  footprint := barredSolution.footprint
  objects := []
  catalogVersion := none
  captureTime := some firstJune
  statistics := none
  pixelCoordinates := none
  contentRegion := none

theorem discoveryDay_nova : discoveryDay oneDateCrates nova = some 739805 := by
  have hparts : "disc. 2026/7/8".splitOn ", " = ["disc. 2026/7/8"] := by
    rw [String.splitOn, if_neg (by decide)]
    repeat
      rw [String.splitOnAux]
      simp +decide only [↓reduceIte]
  have hmarked : "disc. ".isPrefixOf "disc. 2026/7/8" = true := by simp [String.isPrefixOf]
  have hdate : ("disc. 2026/7/8".drop "disc. ".length).toString = "2026/7/8" := by rfl
  have hfields : "2026/7/8".splitOn "/" = ["2026", "7", "8"] := by
    rw [String.splitOn, if_neg (by decide)]
    repeat
      rw [String.splitOnAux]
      simp +decide only [↓reduceIte]
  have hraw : (["disc. 2026/7/8"].findSome? fun part =>
      if "disc. ".isPrefixOf part then some ((part.drop "disc. ".length).toString) else none) =
        some "2026/7/8" := by
    rw [List.findSome?_singleton, if_pos hmarked, hdate]
  change (transientDiscoveryDate oneDateCrates "disc. 2026/7/8").bind oneDateCrates.parseDate = _
  unfold transientDiscoveryDate
  rw [hparts, hraw, Option.bind_eq_bind, Option.bind_some]
  dsimp only
  rw [hfields]
  decide

theorem capture_dates_counterexample :
    firstYearOptions.validate = .ok () ∧
      (prepareSolveOptions noHeaders firstYearOptions [] "image.png").captureTime =
        some firstJune ∧
      ∃ op ∈ annotateOps oneDateCrates novaEngine picture (some firstJune) .default,
        op.Overflows := by
  refine ⟨by rfl, by rfl, ?_⟩
  by_contra hnone
  have hfit : ∀ op ∈ nearCaptureOps oneDateCrates
      (transientDiscoveryDate oneDateCrates nova.object.commonName) (some firstJune),
      ¬ op.Overflows := fun op hmem hoverflows =>
    hnone ⟨op, List.mem_flatMap.mpr ⟨nova, List.mem_singleton_self nova, hmem⟩, hoverflows⟩
  have hwindow := (nearCaptureOps_fit_iff _ _).mp hfit firstJune rfl _ discoveryDay_nova
  revert hwindow
  unfold WindowFits
  decide

end SeizaServer.CaptureDates
