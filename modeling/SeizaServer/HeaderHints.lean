import SeizaServer.Binary64
import SeizaServer.HeaderPreparation

/-!
# Explicit hints and header values

What the preparation does to the options a user supplied: which of them it
keeps, and whether valid options stay valid.
-/

namespace SeizaServer.Solver

variable {Value Time : Type} {crates : Crates Value Time} {headers : ImageHeaders Value}
  {options : SolveOptions Time} {bytes : List UInt8} {filename : String} {fileSize : ℕ}

/-! ## Microseconds as seconds -/

theorem isNormal_million : Binary64.IsNormal 1e6 .positive (-33) (-33) := by
  refine ⟨8589934592000000, -33, by norm_num, by rfl, ?_, le_rfl, le_rfl⟩
  decide

theorem isNormal_secondsOf {microseconds : Int64} (hne : microseconds.toInt ≠ 0) :
    Binary64.IsNormal (secondsOf microseconds)
      ((if 0 < microseconds.toInt then .positive else .negative) / .positive) (-72) (-5) :=
  (Binary64.isNormal_ofInt64 hne).div isNormal_million (by norm_num) (by norm_num)

theorem secondsOf_isFinite (microseconds : Int64) : (secondsOf microseconds).isFinite = true := by
  by_cases hzero : microseconds.toInt = 0
  · have hmicroseconds : microseconds = 0 := Int64.toInt_inj.mp hzero
    rw [hmicroseconds]
    decide
  · exact (isNormal_secondsOf hzero).isFinite

theorem secondsOf_positive {microseconds : Int64} (hpositive : 0 < microseconds) :
    (secondsOf microseconds).isFinite = true ∧ 0 < secondsOf microseconds := by
  have hint : 0 < microseconds.toInt := Int64.lt_iff_toInt_lt.mp hpositive
  have hnormal := isNormal_secondsOf (Int.ne_of_gt hint)
  rw [if_pos hint] at hnormal
  exact ⟨hnormal.isFinite, hnormal.pos⟩

/-! ## What one stage changes -/

/-- A duration is kept, or a missing one is filled with one that is valid. -/
def Fills (before after : Option Float) : Prop :=
  after = before ∨
    before = none ∧ ∃ seconds, after = some seconds ∧ seconds.isFinite = true ∧ 0 < seconds

theorem Fills.trans {first second third : Option Float} (hfirst : Fills first second)
    (hsecond : Fills second third) : Fills first third := by
  cases hsecond with
  | inl hsame =>
      rw [hsame]
      exact hfirst
  | inr hfilled =>
      cases hfirst with
      | inl hsame =>
          rw [hsame] at hfilled
          exact .inr hfilled
      | inr hbefore =>
          obtain ⟨_, seconds, hsome, _⟩ := hbefore
          rw [hsome] at hfilled
          cases hfilled.1

theorem headerDuration_valid {seconds : Float} {keyword : String}
    (hduration : headerDuration crates headers = some (seconds, keyword)) :
    seconds.isFinite = true ∧ 0 < seconds := by
  unfold headerDuration at hduration
  obtain ⟨key, _, hkey⟩ := List.exists_of_findSome?_eq_some hduration
  obtain ⟨value, hvalue, hpair⟩ := Option.map_eq_some_iff.mp hkey
  cases hpair
  have hpositive := (Option.filter_eq_some_iff.mp hvalue).2
  unfold positive at hpositive
  rw [Bool.and_eq_true, decide_eq_true_eq] at hpositive
  exact hpositive

theorem prepareDuration_eq : ∃ exposure keywords,
    prepareDuration crates headers options =
      { options with
        exposureSeconds := exposure
        satelliteMetadataKeywords := keywords } ∧ Fills options.exposureSeconds exposure := by
  unfold prepareDuration
  split
  · next seconds keyword hnone hduration =>
      exact ⟨some seconds, _, rfl, .inr ⟨hnone, seconds, rfl, headerDuration_valid hduration⟩⟩
  · exact ⟨options.exposureSeconds, options.satelliteMetadataKeywords, rfl, .inl rfl⟩

theorem prepareIntervalDuration_eq : ∃ exposure keywords,
    prepareIntervalDuration crates headers options =
      { options with
        exposureSeconds := exposure
        satelliteMetadataKeywords := keywords } ∧ Fills options.exposureSeconds exposure := by
  unfold prepareIntervalDuration
  split
  · next time microseconds _ hnone hinterval =>
      have hpositive := (Option.filter_eq_some_iff.mp hinterval).2
      rw [decide_eq_true_eq] at hpositive
      exact ⟨some (secondsOf microseconds), _, rfl,
        .inr ⟨hnone, _, rfl, secondsOf_positive hpositive⟩⟩
  · exact ⟨options.exposureSeconds, options.satelliteMetadataKeywords, rfl, .inl rfl⟩

/-- The length of the interval between `DATE-BEG` and `DATE-END`. -/
def intervalSeconds (crates : Crates Value Time) (headers : ImageHeaders Value) : Option Float :=
  ((headerInterval crates headers).map secondsOf).filter fun seconds => 0 < seconds

/-- The duration that the two ends of an interval put in place of any other. -/
def overridingSeconds (crates : Crates Value Time) (headers : ImageHeaders Value)
    (options : SolveOptions Time) : Option Float :=
  if options.captureTime.isNone && headerTimeIsUsable crates headers then
    intervalSeconds crates headers
  else none

/-- A resolved interval has the length between its two ends, or the duration
known before. -/
theorem resolvedInterval_seconds {duration : Option Float} {start : Time} {seconds : Float}
    {keywords : List String}
    (hresolved : resolvedInterval crates headers duration = some (start, seconds, keywords)) :
    some seconds = (intervalSeconds crates headers).or duration := by
  unfold resolvedInterval at hresolved
  unfold intervalSeconds headerInterval
  cases hbeg : fitsTime crates headers "DATE-BEG" with
  | none =>
      simp only [hbeg] at hresolved
      change some seconds = duration
      split at hresolved
      · obtain ⟨_, _, hpair⟩ := Option.map_eq_some_iff.mp hresolved
        cases hpair
        rfl
      · split at hresolved
        · cases hresolved
          rfl
        · split at hresolved
          · obtain ⟨_, _, hpair⟩ := Option.map_eq_some_iff.mp hresolved
            cases hpair
            rfl
          · cases hresolved
  | some first =>
      cases hend : fitsTime crates headers "DATE-END" with
      | none =>
          simp only [hbeg, hend] at hresolved
          change some seconds = duration
          split at hresolved
          · obtain ⟨_, _, hpair⟩ := Option.map_eq_some_iff.mp hresolved
            cases hpair
            rfl
          · split at hresolved
            · cases hresolved
              rfl
            · cases hresolved
      | some last =>
          simp only [hbeg, hend] at hresolved
          obtain ⟨length, hlength, hpair⟩ := Option.map_eq_some_iff.mp hresolved
          cases hpair
          change _ = (((crates.numMicroseconds _ last).map secondsOf).filter _).or duration
          rw [hlength]
          rfl

/-- Where the header's dates resolve to no interval, there is none between two
ends. -/
theorem intervalSeconds_of_unresolved {duration : Option Float}
    (hresolved : resolvedInterval crates headers duration = none) :
    intervalSeconds crates headers = none := by
  unfold resolvedInterval at hresolved
  unfold intervalSeconds headerInterval
  cases hbeg : fitsTime crates headers "DATE-BEG" with
  | none => rfl
  | some first =>
      cases hend : fitsTime crates headers "DATE-END" with
      | none => rfl
      | some last =>
          simp only [hbeg, hend, Option.map_eq_none_iff] at hresolved
          exact hresolved

theorem prepareTime_eq : ∃ captureTime keywords,
    prepareTime crates headers options =
      { options with
        captureTime := captureTime
        exposureSeconds := (overridingSeconds crates headers options).or options.exposureSeconds
        satelliteMetadataKeywords := keywords } ∧
      (options.captureTime = none ∨ captureTime = options.captureTime) := by
  unfold prepareTime overridingSeconds
  cases htime : options.captureTime with
  | some time =>
      refine ⟨some time, options.satelliteMetadataKeywords, ?_, .inr rfl⟩
      simp only [Option.isSome_some, Bool.true_or, if_true, Option.isNone_some, Bool.false_and,
        Bool.false_eq_true, if_false, Option.none_or]
      rw [← htime]
  | none =>
      cases husable : headerTimeIsUsable crates headers with
      | false =>
          refine ⟨none, options.satelliteMetadataKeywords, ?_, .inl rfl⟩
          simp only [Bool.not_false, Bool.or_true, if_true, Bool.and_false, Bool.false_eq_true,
            if_false, Option.none_or]
          rw [← htime]
      | true =>
          simp only [Option.isSome_none, Bool.not_true, Bool.or_false, Bool.false_eq_true, if_false,
            Option.isNone_none, Bool.and_true, if_true]
          cases hresolved : resolvedInterval crates headers options.exposureSeconds with
          | some resolved =>
              obtain ⟨start, seconds, found⟩ := resolved
              rw [← resolvedInterval_seconds hresolved]
              exact ⟨some start, _, rfl, .inl trivial⟩
          | none =>
              rw [intervalSeconds_of_unresolved hresolved, Option.none_or]
              cases hobs : fitsTime crates headers "DATE-OBS" with
              | some captureTime => exact ⟨some captureTime, _, rfl, .inl trivial⟩
              | none =>
                  refine ⟨none, options.satelliteMetadataKeywords, ?_, .inl trivial⟩
                  dsimp only
                  rw [← htime]

/-- The position of an observer in the options. -/
def placeObserver (options : SolveOptions Time) : Option HeaderObserver → SolveOptions Time
  | some (.itrf position) => { options with observerItrfM := some position }
  | some (.geodetic latitude longitude altitude _) =>
      { options with
        observerLatitudeDeg := some latitude
        observerLongitudeDeg := some longitude
        observerAltitudeM := some altitude }
  | none => options

/-- The observer that a header may fill in. -/
def missingObserver (crates : Crates Value Time) (headers : ImageHeaders Value)
    (options : SolveOptions Time) : Option HeaderObserver :=
  if explicitObserver options then none else headerObserver crates headers

theorem prepareObserver_eq : ∃ keywords,
    prepareObserver crates headers options =
      { placeObserver options (missingObserver crates headers options) with
        satelliteMetadataKeywords := keywords } := by
  unfold prepareObserver missingObserver
  split_ifs with hexplicit
  · exact ⟨options.satelliteMetadataKeywords, rfl⟩
  · cases headerObserver crates headers with
    | none => exact ⟨options.satelliteMetadataKeywords, rfl⟩
    | some observer =>
        cases observer with
        | itrf position => exact ⟨_, rfl⟩
        | geodetic latitude longitude altitude keywords => exact ⟨_, rfl⟩

theorem setSatelliteSource_eq {explicit : Bool} {source : SatelliteMetadataSource} :
    ∃ found, setSatelliteSource explicit source options =
      { options with satelliteMetadataSource := found } := by
  unfold setSatelliteSource
  split
  · exact ⟨options.satelliteMetadataSource, rfl⟩
  · exact ⟨_, rfl⟩

/-- The center and the scale are kept, or all of them are filled with valid
ones. -/
theorem prepareHint_eq {source : ImageHeaderSource} :
    prepareHint crates headers source options = options ∨
      options.centerRaDeg = none ∧ options.centerDecDeg = none ∧
        options.scaleArcsecPerPixel = none ∧ ∃ ra dec scale keywords,
          (inRange 0 360 ra = true ∧ inRange (-90) 90 dec = true ∧
            scale.isFinite = true ∧ 0 < scale) ∧
          prepareHint crates headers source options =
            { options with
              centerRaDeg := some ra
              centerDecDeg := some dec
              scaleArcsecPerPixel := some scale
              hintSource := some source.hintSource
              hintKeywords := keywords } := by
  unfold prepareHint
  split_ifs with hexplicit
  · exact .inl rfl
  · simp only [Bool.or_eq_true, not_or, Option.not_isSome_iff_eq_none] at hexplicit
    obtain ⟨⟨hra, hdec⟩, hscale⟩ := hexplicit
    cases fitsCenter crates headers with
    | none => exact .inl rfl
    | some center =>
        obtain ⟨ra, dec, centerKeywords⟩ := center
        cases fitsPixelScale crates headers with
        | none => exact .inl rfl
        | some found =>
            obtain ⟨scale, scaleKeywords⟩ := found
            dsimp only
            split_ifs with hrange
            · simp only [Bool.and_eq_true, decide_eq_true_eq] at hrange
              obtain ⟨⟨⟨⟨⟨_, hraRange⟩, _⟩, hdecRange⟩, hfinite⟩, hpositive⟩ := hrange
              exact .inr ⟨hra, hdec, hscale, ra, dec, scale, _,
                ⟨hraRange, hdecRange, hfinite, hpositive⟩, rfl⟩
            · exact .inl rfl

/-- The position of a photo in the options. -/
def placeGps (options : SolveOptions Time) : Option (Float × Float) → SolveOptions Time
  | some (latitude, longitude) =>
      { options with
        observerLatitudeDeg := some latitude
        observerLongitudeDeg := some longitude }
  | none => options

/-- The position that EXIF may fill in. -/
def missingGps (photo : PhotoMetadata) (options : SolveOptions Time) : Option (Float × Float) :=
  if explicitObserver options then none
  else
    match photo.gpsLatitudeDeg, photo.gpsLongitudeDeg with
    | some latitude, some longitude => some (latitude, longitude)
    | _, _ => none

/-! ## The whole preparation -/

/-- What a header changes: the time, the duration, the observer, and the texts
that name the sources. -/
theorem prepareSatelliteMetadata_eq {source : ImageHeaderSource} {explicit : Bool} :
    ∃ captureTime filled keywords found,
      prepareSatelliteMetadata crates headers source explicit options =
        { placeObserver options (missingObserver crates headers options) with
          captureTime := captureTime
          exposureSeconds := (overridingSeconds crates headers options).or filled
          satelliteMetadataKeywords := keywords
          satelliteMetadataSource := found } ∧
      (options.captureTime = none ∨ captureTime = options.captureTime) ∧
      Fills options.exposureSeconds filled := by
  unfold prepareSatelliteMetadata
  obtain ⟨first, firstKeywords, hfirst, hfillsFirst⟩ :=
    @prepareDuration_eq Value Time crates headers options
  rw [hfirst]
  obtain ⟨second, secondKeywords, hsecond, hfillsSecond⟩ :=
    @prepareIntervalDuration_eq Value Time crates headers
      { options with exposureSeconds := first, satelliteMetadataKeywords := firstKeywords }
  rw [hsecond]
  obtain ⟨captureTime, timeKeywords, htime, hkept⟩ := @prepareTime_eq Value Time crates headers
    { options with exposureSeconds := second, satelliteMetadataKeywords := secondKeywords }
  rw [htime]
  obtain ⟨keywords, hobserver⟩ := @prepareObserver_eq Value Time crates headers
    { options with
      captureTime := captureTime
      exposureSeconds := (overridingSeconds crates headers options).or second
      satelliteMetadataKeywords := timeKeywords }
  obtain ⟨found, hfound⟩ := @setSatelliteSource_eq Time
    { placeObserver options (missingObserver crates headers options) with
      captureTime := captureTime
      exposureSeconds := (overridingSeconds crates headers options).or second
      satelliteMetadataKeywords := keywords } explicit source.satelliteSource
  refine ⟨captureTime, second, keywords, found, ?_, hkept, hfillsFirst.trans hfillsSecond⟩
  rw [← hfound]
  congr 1
  refine hobserver.trans ?_
  unfold missingObserver
  change _ = { placeObserver options _ with
    captureTime := captureTime
    exposureSeconds := (overridingSeconds crates headers options).or second
    satelliteMetadataKeywords := keywords }
  have hexplicit : explicitObserver { options with
      captureTime := captureTime
      exposureSeconds := (overridingSeconds crates headers options).or second
      satelliteMetadataKeywords := timeKeywords } = explicitObserver options := rfl
  rw [hexplicit]
  split_ifs
  · rfl
  · cases headerObserver crates headers with
    | none => rfl
    | some observer =>
        cases observer with
        | itrf position => rfl
        | geodetic latitude longitude altitude observerKeywords => rfl

theorem prepareExifMetadata_eq {photo : PhotoMetadata} {explicit : Bool} :
    ∃ captureTime keywords found,
      prepareExifMetadata crates photo explicit options =
        { placeGps options (missingGps photo options) with
          captureTime := captureTime
          satelliteMetadataKeywords := keywords
          satelliteMetadataSource := found } ∧
      (options.captureTime = none ∨ captureTime = options.captureTime) := by
  unfold prepareExifMetadata
  have htime : ∃ captureTime keywords, prepareExifTime crates photo options =
      { options with
        captureTime := captureTime
        satelliteMetadataKeywords := keywords } ∧
      (options.captureTime = none ∨ captureTime = options.captureTime) := by
    unfold prepareExifTime
    split
    · next time hnone _ => exact ⟨some time, _, rfl, .inl hnone⟩
    · exact ⟨options.captureTime, options.satelliteMetadataKeywords, rfl, .inr rfl⟩
  obtain ⟨captureTime, timeKeywords, hprepared, hkept⟩ := htime
  rw [hprepared]
  have hobserver : ∃ keywords, prepareExifObserver photo
      { options with
        captureTime := captureTime
        satelliteMetadataKeywords := timeKeywords } =
      { placeGps options (missingGps photo options) with
        captureTime := captureTime
        satelliteMetadataKeywords := keywords } := by
    unfold prepareExifObserver missingGps
    have hexplicit : explicitObserver { options with
        captureTime := captureTime
        satelliteMetadataKeywords := timeKeywords } = explicitObserver options := rfl
    rw [hexplicit]
    split_ifs
    · exact ⟨timeKeywords, rfl⟩
    · cases photo.gpsLatitudeDeg with
      | none => exact ⟨timeKeywords, rfl⟩
      | some latitude =>
          cases photo.gpsLongitudeDeg with
          | none => exact ⟨timeKeywords, rfl⟩
          | some longitude => exact ⟨_, rfl⟩
  obtain ⟨keywords, hplaced⟩ := hobserver
  rw [hplaced]
  obtain ⟨found, hfound⟩ := @setSatelliteSource_eq Time
    { placeGps options (missingGps photo options) with
      captureTime := captureTime
      satelliteMetadataKeywords := keywords } explicit .exif
  exact ⟨captureTime, keywords, found, hfound, hkept⟩

theorem imageHeaders_raster
    (hraster : (!looksLikeFits bytes filename && !looksLikeXisf bytes filename) = true) :
    imageHeaders crates bytes filename fileSize = none := by
  rw [Bool.and_eq_true, Bool.not_eq_true', Bool.not_eq_true'] at hraster
  unfold imageHeaders
  rw [hraster.1, hraster.2]
  rfl

/-- The three ways a preparation goes: EXIF, no header, a header. -/
theorem prepare_raster
    (hraster : (!looksLikeFits bytes filename && !looksLikeXisf bytes filename) = true) :
    prepareSolveOptionsFromPrefix crates options bytes filename fileSize =
      prepareExifMetadata crates (crates.photoMetadata bytes) (satelliteMetadataPresent options)
        (resetProvenance options) := by
  unfold prepareSolveOptionsFromPrefix
  exact if_pos hraster

theorem prepare_without_header
    (himage : ¬(!looksLikeFits bytes filename && !looksLikeXisf bytes filename) = true)
    (hnone : imageHeaders crates bytes filename fileSize = none) :
    prepareSolveOptionsFromPrefix crates options bytes filename fileSize =
      resetProvenance options := by
  unfold prepareSolveOptionsFromPrefix
  dsimp only
  rw [if_neg himage, hnone]

theorem prepare_header {source : ImageHeaderSource}
    (hheaders : imageHeaders crates bytes filename fileSize = some (headers, source)) :
    prepareSolveOptionsFromPrefix crates options bytes filename fileSize =
      prepareHint crates headers source (prepareSatelliteMetadata crates headers source
        (satelliteMetadataPresent options) (resetProvenance options)) := by
  have himage : ¬(!looksLikeFits bytes filename && !looksLikeXisf bytes filename) = true := by
    intro hraster
    rw [imageHeaders_raster hraster] at hheaders
    cases hheaders
  unfold prepareSolveOptionsFromPrefix
  dsimp only
  rw [if_neg himage, hheaders]

/-! ## Explicit values -/

/-- A value that was supplied stays as it was. -/
def Keeps {α : Type} (before after : Option α) : Prop :=
  ∀ value, before = some value → after = some value

structure KeepsHints (before after : SolveOptions Time) : Prop where
  captureTime : Keeps before.captureTime after.captureTime
  exposureSeconds : Keeps before.exposureSeconds after.exposureSeconds
  observerLatitudeDeg : Keeps before.observerLatitudeDeg after.observerLatitudeDeg
  observerLongitudeDeg : Keeps before.observerLongitudeDeg after.observerLongitudeDeg
  observerAltitudeM : Keeps before.observerAltitudeM after.observerAltitudeM
  observerItrfM : Keeps before.observerItrfM after.observerItrfM
  centerRaDeg : Keeps before.centerRaDeg after.centerRaDeg
  centerDecDeg : Keeps before.centerDecDeg after.centerDecDeg
  scaleArcsecPerPixel : Keeps before.scaleArcsecPerPixel after.scaleArcsecPerPixel

/-- The header holds no other duration between its two ends beside an explicit
duration without a time, and no other altitude beside an explicit altitude
without a place. -/
structure HintsAgree (crates : Crates Value Time) (headers : ImageHeaders Value)
    (options : SolveOptions Time) : Prop where
  duration : ∀ explicit, options.exposureSeconds = some explicit →
    ∀ seconds, overridingSeconds crates headers options = some seconds → seconds = explicit
  altitude : ∀ explicit, options.observerAltitudeM = some explicit →
    ∀ latitude longitude altitude keywords,
      missingObserver crates headers options =
        some (.geodetic latitude longitude altitude keywords) → altitude = explicit

theorem Keeps.refl {α : Type} (value : Option α) : Keeps value value := fun _ hvalue => hvalue

theorem Keeps.of_kept {α : Type} {before after : Option α} (hkept : before = none ∨ after = before) :
    Keeps before after := by
  intro value hvalue
  cases hkept with
  | inl hnone =>
      rw [hnone] at hvalue
      cases hvalue
  | inr hsame => rw [hsame, hvalue]

/-- An observer is placed only where no coordinate is explicit. -/
theorem placeObserver_keeps :
    let placed := placeObserver options (missingObserver crates headers options)
    Keeps options.observerLatitudeDeg placed.observerLatitudeDeg ∧
      Keeps options.observerLongitudeDeg placed.observerLongitudeDeg ∧
        Keeps options.observerItrfM placed.observerItrfM := by
  unfold missingObserver
  by_cases hexplicit : explicitObserver options = true
  · rw [if_pos hexplicit]
    exact ⟨Keeps.refl _, Keeps.refl _, Keeps.refl _⟩
  · rw [if_neg hexplicit]
    simp only [explicitObserver, Bool.or_eq_true, not_or, Option.not_isSome_iff_eq_none]
      at hexplicit
    rw [hexplicit.1.1, hexplicit.1.2, hexplicit.2]
    exact ⟨nofun, nofun, nofun⟩

theorem placeObserver_center (options : SolveOptions Time) (observer : Option HeaderObserver) :
    (placeObserver options observer).centerRaDeg = options.centerRaDeg ∧
      (placeObserver options observer).centerDecDeg = options.centerDecDeg ∧
        (placeObserver options observer).scaleArcsecPerPixel = options.scaleArcsecPerPixel := by
  cases observer with
  | none => exact ⟨rfl, rfl, rfl⟩
  | some observer => cases observer <;> exact ⟨rfl, rfl, rfl⟩

theorem placeObserver_checks (options : SolveOptions Time) (observer : Option HeaderObserver) :
    (placeObserver options observer).validateDetection = options.validateDetection ∧
      (placeObserver options observer).validateHint = options.validateHint ∧
        (placeObserver options observer).validateSipOrder = options.validateSipOrder := by
  cases observer with
  | none => exact ⟨rfl, rfl, rfl⟩
  | some observer => cases observer <;> exact ⟨rfl, rfl, rfl⟩

theorem keeps_altitude_iff :
    Keeps options.observerAltitudeM
        (placeObserver options (missingObserver crates headers options)).observerAltitudeM ↔
      ∀ explicit, options.observerAltitudeM = some explicit →
        ∀ latitude longitude altitude keywords,
          missingObserver crates headers options =
            some (.geodetic latitude longitude altitude keywords) → altitude = explicit := by
  cases hmissing : missingObserver crates headers options with
  | none => exact ⟨fun _ _ _ _ _ _ _ hnone => (nomatch hnone), fun _ => Keeps.refl _⟩
  | some observer =>
      cases observer with
      | itrf position =>
          exact ⟨fun _ _ _ _ _ _ _ hother => (nomatch hother), fun _ => Keeps.refl _⟩
      | geodetic latitude longitude altitude keywords =>
          constructor
          · intro hkeeps explicit hexplicit _ _ other _ hplaced
            have hsame := hkeeps explicit hexplicit
            cases hplaced
            exact Option.some.inj hsame
          · intro hagree explicit hexplicit
            exact congrArg some (hagree explicit hexplicit _ _ _ _ rfl)

theorem keeps_exposure_iff {filled : Option Float}
    (hfills : Fills options.exposureSeconds filled) :
    Keeps options.exposureSeconds ((overridingSeconds crates headers options).or filled) ↔
      ∀ explicit, options.exposureSeconds = some explicit →
        ∀ seconds, overridingSeconds crates headers options = some seconds →
          seconds = explicit := by
  constructor
  · intro hkeeps explicit hexplicit seconds hseconds
    have hsame := hkeeps explicit hexplicit
    rw [hseconds, Option.some_or] at hsame
    exact Option.some.inj hsame
  · intro hagree explicit hexplicit
    cases hseconds : overridingSeconds crates headers options with
    | some seconds =>
        rw [hagree explicit hexplicit seconds hseconds]
        rfl
    | none =>
        rw [Option.none_or]
        cases hfills with
        | inl hsame => rw [hsame, hexplicit]
        | inr hbefore =>
            rw [hbefore.1] at hexplicit
            cases hexplicit

/-- Supplied values are kept exactly if the header of the image agrees with
them where it overrides. -/
theorem header_hints (crates : Crates Value Time) (options : SolveOptions Time)
    (bytes : List UInt8) (filename : String) (fileSize : ℕ) :
    KeepsHints options (prepareSolveOptionsFromPrefix crates options bytes filename fileSize) ↔
      ∀ headers source, imageHeaders crates bytes filename fileSize = some (headers, source) →
        HintsAgree crates headers options := by
  by_cases hraster : (!looksLikeFits bytes filename && !looksLikeXisf bytes filename) = true
  · rw [prepare_raster hraster, imageHeaders_raster hraster]
    obtain ⟨captureTime, keywords, found, hprepared, hkept⟩ :=
      @prepareExifMetadata_eq Value Time crates (resetProvenance options)
        (crates.photoMetadata bytes) (satelliteMetadataPresent options)
    rw [hprepared]
    refine ⟨fun _ _ _ hnone => (nomatch hnone), fun _ => ?_⟩
    unfold missingGps
    by_cases hexplicit : explicitObserver (resetProvenance options) = true
    · rw [if_pos hexplicit]
      exact ⟨Keeps.of_kept hkept, Keeps.refl _, Keeps.refl _, Keeps.refl _, Keeps.refl _,
        Keeps.refl _, Keeps.refl _, Keeps.refl _, Keeps.refl _⟩
    · rw [if_neg hexplicit]
      simp only [explicitObserver, Bool.or_eq_true, not_or, Option.not_isSome_iff_eq_none]
        at hexplicit
      obtain ⟨⟨_, hlatitude⟩, hlongitude⟩ := hexplicit
      change options.observerLatitudeDeg = none at hlatitude
      change options.observerLongitudeDeg = none at hlongitude
      have hplaced : ∀ position, KeepsHints options
          { placeGps (resetProvenance options) position with
            captureTime := captureTime
            satelliteMetadataKeywords := keywords
            satelliteMetadataSource := found } := by
        intro position
        have hnoLatitude : ∀ after, Keeps options.observerLatitudeDeg after := by
          rw [hlatitude]
          exact nofun
        have hnoLongitude : ∀ after, Keeps options.observerLongitudeDeg after := by
          rw [hlongitude]
          exact nofun
        cases position with
        | none =>
            exact ⟨Keeps.of_kept hkept, Keeps.refl _, hnoLatitude _, hnoLongitude _, Keeps.refl _,
              Keeps.refl _, Keeps.refl _, Keeps.refl _, Keeps.refl _⟩
        | some place =>
            exact ⟨Keeps.of_kept hkept, Keeps.refl _, hnoLatitude _, hnoLongitude _, Keeps.refl _,
              Keeps.refl _, Keeps.refl _, Keeps.refl _, Keeps.refl _⟩
      exact hplaced _
  · cases hheaders : imageHeaders crates bytes filename fileSize with
    | none =>
        rw [prepare_without_header hraster hheaders]
        refine ⟨fun _ _ _ hnone => (nomatch hnone), fun _ => ?_⟩
        exact ⟨Keeps.refl _, Keeps.refl _, Keeps.refl _, Keeps.refl _, Keeps.refl _,
          Keeps.refl _, Keeps.refl _, Keeps.refl _, Keeps.refl _⟩
    | some found =>
        obtain ⟨headers, source⟩ := found
        rw [prepare_header hheaders]
        obtain ⟨captureTime, filled, keywords, satelliteSource, hprepared, hkept, hfills⟩ :=
          @prepareSatelliteMetadata_eq Value Time crates headers (resetProvenance options) source
            (satelliteMetadataPresent options)
        rw [hprepared]
        have hplaced := @placeObserver_keeps Value Time crates headers (resetProvenance options)
        have haltitude := @keeps_altitude_iff Value Time crates headers (resetProvenance options)
        have hexposure := @keeps_exposure_iff Value Time crates headers (resetProvenance options)
          filled hfills
        constructor
        · intro hkeeps otherHeaders otherSource hsame
          cases hsame
          cases prepareHint_eq with
          | inl hhint =>
              rw [hhint] at hkeeps
              exact ⟨hexposure.mp hkeeps.exposureSeconds, haltitude.mp hkeeps.observerAltitudeM⟩
          | inr hhint =>
              obtain ⟨_, _, _, ra, dec, scale, hintKeywords, _, hhint⟩ := hhint
              rw [hhint] at hkeeps
              exact ⟨hexposure.mp hkeeps.exposureSeconds, haltitude.mp hkeeps.observerAltitudeM⟩
        · intro hagree
          have hagrees := hagree headers source rfl
          have hcenter : ∀ final, (∃ ra dec scale hintSource hintKeywords,
              (options.centerRaDeg = none ∨ ra = options.centerRaDeg) ∧
              (options.centerDecDeg = none ∨ dec = options.centerDecDeg) ∧
              (options.scaleArcsecPerPixel = none ∨ scale = options.scaleArcsecPerPixel) ∧
              final =
                { placeObserver (resetProvenance options)
                    (missingObserver crates headers (resetProvenance options)) with
                  captureTime := captureTime
                  exposureSeconds :=
                    (overridingSeconds crates headers (resetProvenance options)).or filled
                  satelliteMetadataKeywords := keywords
                  satelliteMetadataSource := satelliteSource
                  centerRaDeg := ra
                  centerDecDeg := dec
                  scaleArcsecPerPixel := scale
                  hintSource := hintSource
                  hintKeywords := hintKeywords }) → KeepsHints options final := by
            intro final hfinal
            obtain ⟨ra, dec, scale, hintSource, hintKeywords, hra, hdec, hscale, heq⟩ := hfinal
            rw [heq]
            exact ⟨Keeps.of_kept hkept, hexposure.mpr hagrees.duration, hplaced.1, hplaced.2.1,
              haltitude.mpr hagrees.altitude, hplaced.2.2, Keeps.of_kept hra, Keeps.of_kept hdec,
              Keeps.of_kept hscale⟩
          have hcenters := placeObserver_center (resetProvenance options)
            (missingObserver crates headers (resetProvenance options))
          apply hcenter
          cases prepareHint_eq with
          | inl hhint =>
              rw [hhint]
              exact ⟨_, _, _, _, _, .inr hcenters.1, .inr hcenters.2.1, .inr hcenters.2.2, rfl⟩
          | inr hhint =>
              obtain ⟨hra, hdec, hscale, ra, dec, scale, hintKeywords, _, hhint⟩ := hhint
              rw [hhint]
              exact ⟨_, _, _, _, _, .inl (hcenters.1.symm.trans hra),
                .inl (hcenters.2.1.symm.trans hdec), .inl (hcenters.2.2.symm.trans hscale), rfl⟩

/-! ### A duration that is replaced -/

/-- The value of a card: a text between quotes, a number or anything else. -/
inductive CardValue where
  | text (value : String)
  | number (value : Float)
  | other

def parseCardValue (raw : List Char) : CardValue :=
  match trimText raw with
  | [] => .other
  | first :: rest =>
      if first.toNat = 39 then .text (String.ofList (rest.takeWhile fun c => c.toNat ≠ 39))
      else
        match parseF64 (first :: rest) with
        | some value => .number value
        | none => .other

/-- Seconds for instants, and the texts of two of them. -/
def twoInstants : Crates CardValue ℤ where
  parseHeaderValue := parseCardValue
  asF64
    | .number value => some value
    | _ => none
  asStr
    | .text value => some value
    | _ => none
  readXisfHeader _ _ := none
  photoMetadata _ := ⟨none, none, none, none, none⟩
  parseFromRfc3339 _ := none
  parseNaiveDateTime text format :=
    if format = "%Y-%m-%dT%H:%M:%S%.f" then
      if text = "2026-01-01T00:00:00".toList then some 1767225600
      else if text = "2026-01-01T00:00:10".toList then some 1767225610
      else none
    else none
  parseNaiveDate _ _ := none
  numMicroseconds start finish := some (Int64.ofInt ((finish - start) * 1000000))
  checkedSubMicroseconds _ _ := none

/-- One card of 80 bytes. -/
def cardOf (text : String) : List UInt8 :=
  ascii text ++ List.replicate (80 - text.length) 32

def tenSeconds : List UInt8 :=
  ["SIMPLE  =                    T", "DATE-BEG= '2026-01-01T00:00:00'",
    "DATE-END= '2026-01-01T00:00:10'", "END"].flatMap cardOf

/-- Five seconds beside an interval of ten. -/
theorem header_hints_counterexample :
    ¬ ∀ (Value Time : Type) (crates : Crates Value Time) (options : SolveOptions Time)
      (bytes : List UInt8) (filename : String),
        KeepsHints options (prepareSolveOptions crates options bytes filename) := by
  intro hclaim
  let options : SolveOptions ℤ := { SolveOptions.default with exposureSeconds := some 5 }
  have hkeeps := hclaim CardValue ℤ twoInstants options tenSeconds "a.fits"
  have hreplaced : (prepareSolveOptions twoInstants options tenSeconds "a.fits").exposureSeconds =
      some 10 := by decide +kernel
  have hkept := hkeeps.exposureSeconds 5 rfl
  rw [hreplaced] at hkept
  exact absurd hkept (by decide)

/-! ## Valid options -/

/-- A position that the options' check accepts. -/
def HeaderObserver.InRange : HeaderObserver → Prop
  | .itrf position => SolveOptions.ItrfInRange position
  | .geodetic latitude longitude altitude _ =>
      SolveOptions.PlaceInRange latitude longitude (some altitude)

/-- The position that fills missing coordinates, from header cards or from
EXIF, is in range. -/
def FoundObserverInRange (crates : Crates Value Time) (options : SolveOptions Time)
    (bytes : List UInt8) (filename : String) (fileSize : ℕ) : Prop :=
  explicitObserver options = false →
    (∀ headers source, imageHeaders crates bytes filename fileSize = some (headers, source) →
      ∀ observer, headerObserver crates headers = some observer → observer.InRange) ∧
    ((!looksLikeFits bytes filename && !looksLikeXisf bytes filename) = true →
      ∀ latitude longitude, (crates.photoMetadata bytes).gpsLatitudeDeg = some latitude →
        (crates.photoMetadata bytes).gpsLongitudeDeg = some longitude →
          SolveOptions.PlaceInRange latitude longitude none)

theorem explicitObserver_eq_false : explicitObserver options = false ↔
    options.observerItrfM = none ∧ options.observerLatitudeDeg = none ∧
      options.observerLongitudeDeg = none := by
  unfold explicitObserver
  rw [Bool.or_eq_false_iff, Bool.or_eq_false_iff]
  simp [and_assoc]

theorem overridingSeconds_valid {seconds : Float}
    (hseconds : overridingSeconds crates headers options = some seconds) :
    seconds.isFinite = true ∧ 0 < seconds := by
  unfold overridingSeconds intervalSeconds at hseconds
  split_ifs at hseconds
  obtain ⟨hinterval, hpositive⟩ := Option.filter_eq_some_iff.mp hseconds
  obtain ⟨microseconds, _, heq⟩ := Option.map_eq_some_iff.mp hinterval
  rw [← heq] at hpositive ⊢
  exact ⟨secondsOf_isFinite microseconds, of_decide_eq_true hpositive⟩

theorem exposure_valid {filled : Option Float} (hvalid : options.validateExposure = .ok ())
    (hfills : Fills options.exposureSeconds filled) :
    ∀ seconds, (overridingSeconds crates headers options).or filled = some seconds →
      seconds.isFinite = true ∧ 0 < seconds := by
  intro seconds hseconds
  cases hoverriding : overridingSeconds crates headers options with
  | some overriding =>
      rw [hoverriding] at hseconds
      cases hseconds
      exact overridingSeconds_valid hoverriding
  | none =>
      rw [hoverriding, Option.none_or] at hseconds
      cases hfills with
      | inl hsame =>
          rw [hsame] at hseconds
          exact SolveOptions.validateExposure_eq_ok.mp hvalid seconds hseconds
      | inr hbefore =>
          obtain ⟨_, other, hother, hgood⟩ := hbefore
          rw [hother] at hseconds
          cases hseconds
          exact hgood

/-- A header's observer is checked as the options' own. -/
theorem validateObserver_place_iff (hvalid : options.validateObserver = .ok ()) :
    (placeObserver options (missingObserver crates headers options)).validateObserver = .ok () ↔
      (explicitObserver options = false → ∀ observer,
        headerObserver crates headers = some observer → observer.InRange) := by
  unfold missingObserver
  by_cases hexplicit : explicitObserver options = true
  · rw [if_pos hexplicit, hexplicit]
    exact ⟨nofun, fun _ => hvalid⟩
  · rw [if_neg hexplicit]
    rw [Bool.not_eq_true] at hexplicit
    obtain ⟨hitrf, hlatitude, hlongitude⟩ := explicitObserver_eq_false.mp hexplicit
    have haltitude := SolveOptions.observerAltitudeM_eq_none hvalid hlatitude hlongitude
    cases hfound : headerObserver crates headers with
    | none => exact ⟨fun _ _ _ hnone => (nomatch hnone), fun _ => hvalid⟩
    | some observer =>
        have hobserver : (placeObserver options (some observer)).validateObserver = .ok () ↔
            observer.InRange := by
          cases observer with
          | itrf position =>
              exact SolveOptions.validateObserver_itrf hlatitude hlongitude haltitude rfl
          | geodetic latitude longitude altitude keywords =>
              exact SolveOptions.validateObserver_place rfl rfl hitrf
        rw [hobserver]
        constructor
        · intro hrange _ other hsame
          cases hsame
          exact hrange
        · intro hrange
          exact hrange hexplicit observer rfl

/-- Valid options stay valid exactly if the position that is found for a
missing observer is in range. -/
theorem header_preparation_valid (crates : Crates Value Time) {options : SolveOptions Time}
    (hvalid : options.validate = .ok ()) (bytes : List UInt8) (filename : String)
    (fileSize : ℕ) :
    (prepareSolveOptionsFromPrefix crates options bytes filename fileSize).validate = .ok () ↔
      FoundObserverInRange crates options bytes filename fileSize := by
  obtain ⟨hdetection, hhint, hsip, hexposure, hobserver⟩ := SolveOptions.validate_eq_ok.mp hvalid
  unfold FoundObserverInRange
  by_cases hraster : (!looksLikeFits bytes filename && !looksLikeXisf bytes filename) = true
  · rw [prepare_raster hraster, imageHeaders_raster hraster]
    obtain ⟨captureTime, keywords, found, hprepared, _⟩ :=
      @prepareExifMetadata_eq Value Time crates (resetProvenance options)
        (crates.photoMetadata bytes) (satelliteMetadataPresent options)
    rw [hprepared, SolveOptions.validate_eq_ok]
    have hexplicitSame : explicitObserver (resetProvenance options) = explicitObserver options := rfl
    unfold missingGps
    rw [hexplicitSame]
    by_cases hexplicit : explicitObserver options = true
    · rw [if_pos hexplicit, hexplicit]
      exact ⟨fun _ => nofun, fun _ => ⟨hdetection, hhint, hsip, hexposure, hobserver⟩⟩
    · rw [if_neg hexplicit]
      rw [Bool.not_eq_true] at hexplicit
      obtain ⟨hitrf, hlatitude, hlongitude⟩ := explicitObserver_eq_false.mp hexplicit
      have haltitude := SolveOptions.observerAltitudeM_eq_none hobserver hlatitude hlongitude
      cases hgpsLatitude : (crates.photoMetadata bytes).gpsLatitudeDeg with
      | none =>
          exact ⟨fun _ _ => ⟨fun _ _ hnone => (nomatch hnone), fun _ _ _ hnone => (nomatch hnone)⟩,
            fun _ => ⟨hdetection, hhint, hsip, hexposure, hobserver⟩⟩
      | some latitude =>
          cases hgpsLongitude : (crates.photoMetadata bytes).gpsLongitudeDeg with
          | none =>
              exact ⟨fun _ _ => ⟨fun _ _ hnone => (nomatch hnone),
                fun _ _ _ _ hnone => (nomatch hnone)⟩,
                fun _ => ⟨hdetection, hhint, hsip, hexposure, hobserver⟩⟩
          | some longitude =>
              have hplace : SolveOptions.validateObserver
                  { placeGps (resetProvenance options) (some (latitude, longitude)) with
                    captureTime := captureTime
                    satelliteMetadataKeywords := keywords
                    satelliteMetadataSource := found } = .ok () ↔
                  SolveOptions.PlaceInRange latitude longitude none := by
                rw [← haltitude]
                exact SolveOptions.validateObserver_place rfl rfl hitrf
              constructor
              · intro hprepared _
                refine ⟨fun _ _ hnone => (nomatch hnone), fun _ first second hfirst hsecond => ?_⟩
                cases hfirst
                cases hsecond
                exact hplace.mp hprepared.2.2.2.2
              · intro hrange
                exact ⟨hdetection, hhint, hsip, hexposure,
                  hplace.mpr ((hrange hexplicit).2 hraster latitude longitude rfl rfl)⟩
  · cases hheaders : imageHeaders crates bytes filename fileSize with
    | none =>
        rw [prepare_without_header hraster hheaders]
        refine ⟨fun _ _ => ⟨fun _ _ hnone => (nomatch hnone), fun hother => absurd hother hraster⟩,
          fun _ => hvalid⟩
    | some image =>
        obtain ⟨headers, source⟩ := image
        rw [prepare_header hheaders]
        obtain ⟨captureTime, filled, keywords, found, hprepared, _, hfills⟩ :=
          @prepareSatelliteMetadata_eq Value Time crates headers (resetProvenance options) source
            (satelliteMetadataPresent options)
        have hplaced := @validateObserver_place_iff Value Time crates headers
          (resetProvenance options) hobserver
        have hseconds := @exposure_valid Value Time crates headers (resetProvenance options) filled
          hexposure hfills
        -- The checks that no stage touches, and those of what it fills in.
        have hchecks : ∀ final : SolveOptions Time, final.validateDetection = .ok () →
            final.validateHint = .ok () → final.validateSipOrder = .ok () →
            final.validateExposure = .ok () →
            final.validateObserver = (placeObserver (resetProvenance options)
              (missingObserver crates headers (resetProvenance options))).validateObserver →
            (final.validate = .ok () ↔ (explicitObserver options = false →
              (∀ otherHeaders otherSource, some (headers, source) = some (otherHeaders, otherSource) →
                ∀ observer, headerObserver crates otherHeaders = some observer →
                  observer.InRange) ∧
              ((!looksLikeFits bytes filename && !looksLikeXisf bytes filename) = true →
                ∀ latitude longitude, (crates.photoMetadata bytes).gpsLatitudeDeg = some latitude →
                  (crates.photoMetadata bytes).gpsLongitudeDeg = some longitude →
                    SolveOptions.PlaceInRange latitude longitude none))) := by
          intro final hfinalDetection hfinalHint hfinalSip hfinalExposure hfinalObserver
          rw [SolveOptions.validate_eq_ok, hfinalObserver, hplaced]
          constructor
          · intro hfinal hexplicit
            refine ⟨fun otherHeaders otherSource hsame => ?_, fun hother => absurd hother hraster⟩
            cases hsame
            exact hfinal.2.2.2.2 hexplicit
          · intro hrange
            exact ⟨hfinalDetection, hfinalHint, hfinalSip, hfinalExposure,
              fun hexplicit => (hrange hexplicit).1 headers source rfl⟩
        have hexposureCheck : ∀ final : SolveOptions Time, final.exposureSeconds =
            (overridingSeconds crates headers (resetProvenance options)).or filled →
              final.validateExposure = .ok () := by
          intro final hfinal
          rw [SolveOptions.validateExposure_eq_ok, hfinal]
          exact hseconds
        obtain ⟨hsameDetection, hsameHint, hsameSip⟩ := placeObserver_checks
          (resetProvenance options) (missingObserver crates headers (resetProvenance options))
        have hsameCenter := placeObserver_center
          (resetProvenance options) (missingObserver crates headers (resetProvenance options))
        rw [hprepared]
        cases prepareHint_eq with
        | inl hunchanged =>
            rw [hunchanged]
            apply hchecks
            · exact hsameDetection.trans hdetection
            · exact hsameHint.trans hhint
            · exact hsameSip.trans hsip
            · exact hexposureCheck _ rfl
            · rfl
        | inr hfilled =>
            obtain ⟨_, _, _, ra, dec, scale, hintKeywords, hrange, hset⟩ := hfilled
            rw [hset]
            apply hchecks
            · exact hsameDetection.trans hdetection
            · exact (SolveOptions.validateHint_set rfl rfl rfl).mpr hrange
            · exact hsameSip.trans hsip
            · exact hexposureCheck _ rfl
            · rfl

/-- A header with a site on a longitude of 10 degrees. -/
def siteCards (latitude : String) : List UInt8 :=
  ["SIMPLE  =                    T", "SITELAT = " ++ latitude, "SITELONG= 10", "END"].flatMap cardOf

/-- Default options beside a site in range. -/
theorem header_preparation_valid_site :
    (prepareSolveOptionsFromPrefix twoInstants SolveOptions.default (siteCards "45") "a.fits"
      320).validate = .ok () ↔
      FoundObserverInRange twoInstants SolveOptions.default (siteCards "45") "a.fits" 320 :=
  header_preparation_valid twoInstants (by decide) (siteCards "45") "a.fits" 320

/-- A latitude of 95 degrees in the header. -/
theorem header_preparation_counterexample :
    ¬ ∀ (Value Time : Type) (crates : Crates Value Time) (options : SolveOptions Time)
      (bytes : List UInt8) (filename : String) (fileSize : ℕ), options.validate = .ok () →
        (prepareSolveOptionsFromPrefix crates options bytes filename fileSize).validate =
          .ok () := by
  intro hclaim
  have hvalid := hclaim CardValue ℤ twoInstants SolveOptions.default (siteCards "95") "a.fits" 320
    (by decide)
  exact absurd hvalid (by decide +kernel)

end SeizaServer.Solver
