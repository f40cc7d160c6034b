import SeizaServer.Annotations
import SeizaServer.PredictionCache

/-!
# Satellite predictions and their cache

`SatelliteEngine::predict` for calls that overlap.  A call prepares its exposure and
loads the orbital elements, looks into the cache, waits for the prediction lock,
looks again, and computes and stores its result before it lets the lock go.  The
propagation, the alignment with the pixels and the decoding of the image are
parameters.
-/

namespace SeizaServer.Satellites

open Solver Annotations

/-! ## What the satellite crate provides -/

structure SatelliteIdentity where
  name : String
  noradId : Option UInt32
  cosparId : Option String

abbrev TrackSegment := (Float × Float) × Float × Float

inductive BrightTrailRiskLevel where
  | low | possible | high

structure BrightTrailRisk where
  level : BrightTrailRiskLevel
  score : Float
  maximumSunlightFraction : Float
  minimumRangeKm : Float
  maximumElevationDeg : Float
  clippedLengthPx : Float

inductive PixelTrailAlignmentStatus where
  | detected | notDetected | notEvaluated
  deriving DecidableEq

inductive PixelTrailNotEvaluatedReason where
  | emptyPath | tooShort | insufficientCoverage

structure PixelTrailAlignment where
  status : PixelTrailAlignmentStatus
  notEvaluatedReason : Option PixelTrailNotEvaluatedReason
  alignedSegments : List TrackSegment
  meanNormalOffsetPx : Float
  angleDeltaDeg : Float
  contrastAdu : Float
  contrastSigma : Float
  continuity : Float
  coverage : Float
  searchRadiusPx : Float

structure SatelliteTrackAnalysis (Timestamp : Type) where
  identity : SatelliteIdentity
  source : String
  elementEpochUtc : Timestamp
  elementAgeSeconds : Float
  sampleIntervalSeconds : Float
  maximumApparentRateArcsecPerSecond : Option Float
  clippedSegments : List TrackSegment
  brightTrailRisk : BrightTrailRisk
  pixelAlignment : Option PixelTrailAlignment

structure SatelliteAnalysis (Timestamp : Type) where
  tracks : List (SatelliteTrackAnalysis Timestamp)
  elementsConsidered : ℕ
  propagationFailures : ℕ
  staleElements : ℕ

inductive ExposureProvenance where
  | fitsBounds | fitsDateAvgAndExposure | fitsEndAndExposure | fitsDateObsAndExposure | explicit

/-- The frame of the pixels an image is decoded in. -/
inductive PixelFrame where
  | oriented | stored

structure MonochromeImage where
  width : ℕ
  height : ℕ
  pixels : List UInt16
  aduPerStoredUnit : Float

/-- The satellite crate, the decoding of images and the parts of an instant. -/
structure SatelliteCrates (Time : Type) where
  Timestamp : Type
  Observer : Type
  Exposure : Type
  Catalog : Type
  Search : Type
  Aligner : Type
  timestamp : Time → Int64
  timestampSubsecNanos : Time → UInt32
  geodetic : Float → Float → Float → Except String Observer
  itrfMeters : Float → Float → Float → Except String Observer
  fromUnixSeconds : Float → Except String Timestamp
  toRfc3339 : Timestamp → String
  fromStartAndDuration :
    Timestamp → Float → Observer → ExposureProvenance → Except String Exposure
  contentSha256 : Catalog → String
  source : Catalog → String
  tracksInFootprint : Catalog → (Float → Float → Option (Float × Float)) → Dimensions →
    Exposure → Except String Search
  decodeMonochromeU16 : List UInt8 → String → PixelFrame → Except String MonochromeImage
  fromU16 : ℕ → ℕ → List UInt16 → Float → Except String Aligner
  intoAnalysis : Search → Option Aligner → SatelliteAnalysis Timestamp
  displayLabel : SatelliteIdentity → String
  detected : PixelTrailAlignment → Bool
  pixelTrailAlignmentVersion : String

/-! ## Responses -/

structure SatelliteTrailRiskResponse where
  level : String
  score : Float
  maximumSunlightFraction : Float
  minimumRangeKm : Float
  maximumElevationDeg : Float
  clippedLengthPx : Float

structure SatellitePixelAlignmentResponse where
  status : String
  notEvaluatedReason : Option String
  segments : List TrackSegment
  meanNormalOffsetPx : Float
  angleDeltaDeg : Float
  contrastAdu : Float
  contrastSigma : Float
  continuity : Float
  coverage : Float
  searchRadiusPx : Float

structure SatelliteTrackResponse where
  stableId : String
  label : String
  name : String
  noradId : Option UInt32
  cosparId : Option String
  source : String
  elementEpochUtc : String
  elementAgeSeconds : Float
  sampleIntervalSeconds : Float
  maximumApparentRateArcsecPerSecond : Option Float
  segments : List TrackSegment
  risk : SatelliteTrailRiskResponse
  pixelAlignment : Option SatellitePixelAlignmentResponse

structure SatelliteSearchSummaryResponse where
  catalogSource : String
  catalogRetrievedAt : Option String
  elementsConsidered : ℕ
  propagationFailures : ℕ
  staleElements : ℕ
  pixelAlignmentAttempted : Bool
  pixelAligned : ℕ
  pixelAlignmentError : Option String

structure SatellitePredictionResult where
  catalogVersion : String
  tracks : List SatelliteTrackResponse
  summary : SatelliteSearchSummaryResponse

inductive SatellitePrediction where
  | unavailable (reason : String)
  | complete (result : SatellitePredictionResult)

def pixelAlignmentResponse (alignment : PixelTrailAlignment) :
    SatellitePixelAlignmentResponse where
  status :=
    match alignment.status with
    | .detected => "detected"
    | .notDetected => "not_detected"
    | .notEvaluated => "not_evaluated"
  notEvaluatedReason := alignment.notEvaluatedReason.map fun reason =>
    match reason with
    | .emptyPath => "empty_path"
    | .tooShort => "too_short"
    | .insufficientCoverage => "insufficient_coverage"
  segments := alignment.alignedSegments
  meanNormalOffsetPx := alignment.meanNormalOffsetPx
  angleDeltaDeg := alignment.angleDeltaDeg
  contrastAdu := alignment.contrastAdu
  contrastSigma := alignment.contrastSigma
  continuity := alignment.continuity
  coverage := alignment.coverage
  searchRadiusPx := alignment.searchRadiusPx

def stableId (index : ℕ) (identity : SatelliteIdentity) : String :=
  match identity.noradId, identity.cosparId with
  | some noradId, _ => "satellite:norad:" ++ toString noradId
  | none, some cosparId => "satellite:cospar:" ++ cosparId
  | none, none => "satellite:anonymous:" ++ toString index

section Prediction

variable {Time : Type} (crates : Crates Time) (satellites : SatelliteCrates Time)

def trackResponse (index : ℕ) (track : SatelliteTrackAnalysis satellites.Timestamp) :
    SatelliteTrackResponse where
  stableId := stableId index track.identity
  label := satellites.displayLabel track.identity
  name := track.identity.name
  noradId := track.identity.noradId
  cosparId := track.identity.cosparId
  source := track.source
  elementEpochUtc := satellites.toRfc3339 track.elementEpochUtc
  elementAgeSeconds := track.elementAgeSeconds
  sampleIntervalSeconds := track.sampleIntervalSeconds
  maximumApparentRateArcsecPerSecond := track.maximumApparentRateArcsecPerSecond
  segments := track.clippedSegments
  risk :=
    { level :=
        match track.brightTrailRisk.level with
        | .low => "low"
        | .possible => "possible"
        | .high => "high"
      score := track.brightTrailRisk.score
      maximumSunlightFraction := track.brightTrailRisk.maximumSunlightFraction
      minimumRangeKm := track.brightTrailRisk.minimumRangeKm
      maximumElevationDeg := track.brightTrailRisk.maximumElevationDeg
      clippedLengthPx := track.brightTrailRisk.clippedLengthPx }
  pixelAlignment := track.pixelAlignment.map pixelAlignmentResponse

/-! ## The exposure -/

def maxExposureSeconds : Float := 60.0 * 60.0

def observerLocation (options : SolveOptions Time) : Except String satellites.Observer :=
  match options.observerLatitudeDeg, options.observerLongitudeDeg, options.observerItrfM with
  | some latitude, some longitude, none =>
      satellites.geodetic latitude longitude (options.observerAltitudeM.getD 0.0)
  | none, none, some (x, y, z) => satellites.itrfMeters x y z
  | _, _, _ => .error <| "Satellite tracks require the observer latitude and longitude " ++
      "(or FITS/XISF OBSGEO coordinates, or photo GPS)."

def exposureProvenance (options : SolveOptions Time) : ExposureProvenance :=
  let keywords := options.satelliteMetadataKeywords
  match options.satelliteMetadataSource with
  | some .fitsHeader | some .xisfHeader =>
      if "DATE-BEG" ∈ keywords ∧ "DATE-END" ∈ keywords then .fitsBounds
      else if "DATE-AVG" ∈ keywords then .fitsDateAvgAndExposure
      else if "DATE-END" ∈ keywords then .fitsEndAndExposure
      else .fitsDateObsAndExposure
  | _ => .explicit

def singleExposure (options : SolveOptions Time) : Except String satellites.Exposure :=
  match options.captureTime, options.exposureSeconds with
  | none, _ =>
      .error "Satellite tracks require the shutter-open date and time for this image."
  | some _, none =>
      .error "Satellite tracks require the duration of one shutter-open exposure."
  | some start, some duration =>
      if maxExposureSeconds < duration then
        .error "Satellite tracks support a single shutter-open exposure of up to one hour."
      else do
        let observer ← observerLocation satellites options
        let timestamp ← satellites.fromUnixSeconds <|
          (satellites.timestamp start).toFloat +
            (satellites.timestampSubsecNanos start).toFloat / 1e9
        satellites.fromStartAndDuration timestamp duration observer (exposureProvenance options)

/-! ## Jobs and what their calls find -/

/-- What of a job stays as it is: the retained image is the uploaded one. -/
structure Job (Time : Type) where
  solution : SolutionResponse Time
  options : SolveOptions Time
  originalFilename : String
  image : List UInt8

structure LoadedCatalog where
  catalog : satellites.Catalog
  retrievedAt : satellites.Timestamp

inductive CatalogLookup where
  | loaded (load : LoadedCatalog satellites)
  | failed
  | timedOut

/-- Whether the image is still retained and can be read, and how the lookup of the
orbital elements ends. -/
structure Moment where
  inputAvailable : Bool
  imageReadable : Bool
  lookup : CatalogLookup satellites

/-- `AppState::satellite_pixel_source`: the image and its name, or why there is none. -/
def satellitePixelSource (job : Job Time) (moment : Moment satellites) :
    Option (List UInt8 × String) × Option String :=
  if !moment.inputAvailable then
    (none, some "The uploaded image has expired; pixel trail detection was not evaluated.")
  else if moment.imageReadable then (some (job.image, job.originalFilename), none)
  else (none, some "The retained image could not be loaded for pixel trail detection.")

def pixelFrame (solution : SolutionResponse Time) : PixelFrame :=
  if solution.pixelCoordinates.isNone then .stored else .oriented

def dimensions (solution : SolutionResponse Time) : Dimensions :=
  (solution.imageWidth, solution.imageHeight)

/-- The aligner for the pixels, or why there is none. -/
def pixelAligner (solution : SolutionResponse Time) :
    Option (List UInt8 × String) × Option String →
      Option satellites.Aligner × Option String
  | (none, reason) => (none, reason)
  | (some (bytes, filename), reason) =>
      match satellites.decodeMonochromeU16 bytes filename (pixelFrame solution) with
      | .ok frame =>
          if frame.width = solution.imageWidth.toNat ∧
              frame.height = solution.imageHeight.toNat then
            match satellites.fromU16 frame.width frame.height frame.pixels
                frame.aduPerStoredUnit with
            | .ok aligner => (some aligner, reason)
            | .error message =>
                (none, some ("Pixel trail detection could not initialize: " ++ message))
          else
            (none, some ("Pixel trail detection skipped an image-size mismatch: decoded " ++
              toString frame.width ++ "×" ++ toString frame.height ++ ", solved " ++
              toString solution.imageWidth ++ "×" ++ toString solution.imageHeight ++ "."))
      | .error message =>
          (none, some ("Pixel trail detection could not decode the image: " ++ message))

/-- The result of an analysis of loaded elements. -/
def predictionResult (load : LoadedCatalog satellites)
    (analysis : SatelliteAnalysis satellites.Timestamp) (attempted : Bool)
    (reason : Option String) : SatellitePredictionResult where
  catalogVersion :=
    if attempted then
      "satellites:" ++ satellites.contentSha256 load.catalog ++ ";pixel-trail:" ++
        satellites.pixelTrailAlignmentVersion
    else "satellites:" ++ satellites.contentSha256 load.catalog
  tracks := analysis.tracks.mapIdx (trackResponse satellites)
  summary :=
    { catalogSource := satellites.source load.catalog
      catalogRetrievedAt := some (satellites.toRfc3339 load.retrievedAt)
      elementsConsidered := analysis.elementsConsidered
      propagationFailures := analysis.propagationFailures
      staleElements := analysis.staleElements
      pixelAlignmentAttempted := attempted
      pixelAligned :=
        (analysis.tracks.filter fun track => track.pixelAlignment.any satellites.detected).length
      pixelAlignmentError := reason }

/-- The engine of a server with the solved jobs by their public ids. -/
structure Server (Time : Type) where
  enabled : Bool
  jobs : String → Job Time

/-- A call that has its exposure and the orbital elements. -/
structure Request (server : Server Time) where
  publicId : String
  moment : Moment satellites
  exposure : satellites.Exposure
  exposed : singleExposure satellites (server.jobs publicId).options = .ok exposure
  load : LoadedCatalog satellites

variable {server : Server Time}

/-- The start of `predict`: a request, or why there are no tracks. -/
def prepare (server : Server Time) (publicId : String) (moment : Moment satellites) :
    Except String (Request satellites server) :=
  if !server.enabled then
    .error "Satellite track prediction is disabled on this server."
  else
    match hexposure : singleExposure satellites (server.jobs publicId).options with
    | .error reason => .error reason
    | .ok exposure =>
        match moment.lookup with
        | .loaded load => .ok ⟨publicId, moment, exposure, hexposure, load⟩
        | .failed => .error "Satellite orbital elements are temporarily unavailable."
        | .timedOut =>
            .error <| "Satellite orbital element lookup timed out; " ++
              "try this overlay again shortly."

namespace Request

variable {satellites}

def job (request : Request satellites server) : Job Time := server.jobs request.publicId

def pixelSource (request : Request satellites server) :
    Option (List UInt8 × String) × Option String :=
  satellitePixelSource satellites request.job request.moment

def key (request : Request satellites server) : CacheKey :=
  (request.publicId, satellites.contentSha256 request.load.catalog, request.pixelSource.1.isSome)

def search (request : Request satellites server) : Except String satellites.Search :=
  let wcs := wcsToSeiza crates request.job.solution.wcs
  satellites.tracksInFootprint request.load.catalog (crates.worldToPixel wcs)
    (dimensions request.job.solution) request.exposure

def result (request : Request satellites server) (search : satellites.Search) :
    SatellitePredictionResult :=
  let aligner := pixelAligner satellites request.job.solution request.pixelSource
  predictionResult satellites request.load (satellites.intoAnalysis search aligner.1)
    aligner.1.isSome aligner.2

/-- What a call computes when it does not find its key. -/
def compute (request : Request satellites server) : SatellitePrediction :=
  match request.search crates with
  | .ok search => .complete (request.result search)
  | .error _ => .unavailable "Satellite tracks could not be propagated for this exposure."

end Request

/-! ## Overlapping calls -/

/-- How far a call has come.  `served` remembers its request. -/
inductive Progress (server : Server Time) where
  | idle
  | waiting (request : Request satellites server)
  | computing (request : Request satellites server)
  | unavailable (reason : String)
  | computed (result : SatellitePredictionResult)
  | served (request : Request satellites server) (result : SatellitePredictionResult)

/-- `storedBy` remembers the request whose result is in the cache. -/
structure World (server : Server Time) where
  cache : PredictionCache SatellitePredictionResult
  storedBy : CacheKey → Option (Request satellites server)
  lock : Option ℕ
  calls : ℕ → Progress satellites server

/-- A call starts and finds its moment; it takes the lock; it computes, unless its
task is interrupted. -/
inductive Action where
  | enter (call : ℕ) (publicId : String) (moment : Moment satellites)
  | acquire (call : ℕ)
  | finish (call : ℕ) (interrupted : Bool)

def World.new (server : Server Time) : World satellites server :=
  ⟨.empty, fun _ => none, none, fun _ => .idle⟩

namespace World

variable {satellites}

def setCall (w : World satellites server) (call : ℕ) (progress : Progress satellites server) :
    World satellites server :=
  { w with calls := Function.update w.calls call progress }

/-- A call looks for its key: it returns what it finds, or goes on. -/
def lookUp (w : World satellites server) (call : ℕ) (request : Request satellites server)
    (missed : World satellites server) : World satellites server :=
  match w.cache.get request.key with
  | (some result, cache) => { w.setCall call (.served request result) with cache := cache }
  | (none, _) => missed

/-- A call computes its result, stores it and lets the lock go. -/
def finish (w : World satellites server) (call : ℕ) (request : Request satellites server)
    (interrupted : Bool) : World satellites server :=
  if interrupted then
    { w.setCall call (.unavailable "Satellite track prediction was interrupted.") with
      lock := none }
  else
    match request.compute crates with
    | .unavailable reason => { w.setCall call (.unavailable reason) with lock := none }
    | .complete result =>
        { w.setCall call (.computed result) with
          cache := w.cache.insert request.key result
          storedBy := Function.update w.storedBy request.key (some request)
          lock := none }

def step (w : World satellites server) : Action satellites → Option (World satellites server)
  | .enter call publicId moment =>
      match w.calls call with
      | .idle =>
          match prepare satellites server publicId moment with
          | .ok request => some (w.lookUp call request (w.setCall call (.waiting request)))
          | .error reason => some (w.setCall call (.unavailable reason))
      | _ => none
  | .acquire call =>
      match w.calls call, w.lock with
      | .waiting request, none =>
          some (w.lookUp call request
            { w.setCall call (.computing request) with lock := some call })
      | _, _ => none
  | .finish call interrupted =>
      match w.calls call with
      | .computing request => some (w.finish crates call request interrupted)
      | _ => none

def run (w : World satellites server) :
    List (Action satellites) → Option (World satellites server)
  | [] => some w
  | action :: actions => (w.step crates action).bind (·.run actions)

/-- Every result from the cache is the one its call would compute. -/
def Transparent (w : World satellites server) : Prop :=
  ∀ call request result, w.calls call = .served request result →
    request.compute crates = .complete result

end World

/-! ## When the cache may answer -/

/-- What two requests of one key can still differ in. -/
structure Request.Agrees {satellites : SatelliteCrates Time} (request stored :
    Request satellites server) : Prop where
  source : satellites.source request.load.catalog = satellites.source stored.load.catalog
  retrievedAt : satellites.toRfc3339 request.load.retrievedAt =
    satellites.toRfc3339 stored.load.retrievedAt
  reason : request.pixelSource.2 = stored.pixelSource.2

namespace World

variable {satellites}

/-- If the cache holds the key of a request, the request that stored the entry
agrees with it. -/
def Fresh (w : World satellites server) (request : Request satellites server) : Prop :=
  ∀ stored, (w.cache.get request.key).1.isSome → w.storedBy request.key = some stored →
    request.Agrees stored

/-- The condition on a step: a call that looks for its key finds it only if it agrees
with the call that stored it. -/
def Agreeing (w : World satellites server) : Action satellites → Prop
  | .enter call publicId moment =>
      ∀ request, w.calls call = .idle → prepare satellites server publicId moment = .ok request →
        w.Fresh request
  | .acquire call =>
      ∀ request, w.calls call = .waiting request → w.lock = none → w.Fresh request
  | .finish _ _ => True

def AgreeingRun (w : World satellites server) : List (Action satellites) → Prop
  | [] => True
  | action :: actions => w.Agreeing action ∧ ∀ after, w.step crates action = some after →
      after.AgreeingRun actions

end World

/-! ## What a request computes -/

/-- Catalogs of one content hash give the same tracks. -/
def Identifying (satellites : SatelliteCrates Time) : Prop :=
  ∀ catalog other, satellites.contentSha256 catalog = satellites.contentSha256 other →
    ∀ project size exposure, satellites.tracksInFootprint catalog project size exposure =
      satellites.tracksInFootprint other project size exposure

variable {crates satellites}

/-- The image of a job is there with its name and no reason, or there is none. -/
theorem satellitePixelSource_cases (job : Job Time) (moment : Moment satellites) :
    satellitePixelSource satellites job moment = (some (job.image, job.originalFilename), none) ∨
      (satellitePixelSource satellites job moment).1 = none := by
  unfold satellitePixelSource
  split_ifs
  · exact .inr rfl
  · exact .inl rfl
  · exact .inr rfl

theorem pixelAligner_of_missing (solution : SolutionResponse Time)
    {source : Option (List UInt8 × String) × Option String} (hmissing : source.1 = none) :
    pixelAligner satellites solution source = (none, source.2) := by
  obtain ⟨pixels, reason⟩ := source
  subst hmissing
  rfl

namespace Request

/-- The aligners of two requests for one job that both have or both lack pixels. -/
theorem pixelAligner_of_same_pixels {request stored : Request satellites server}
    (hjob : request.publicId = stored.publicId)
    (hpixels : request.pixelSource.1.isSome = stored.pixelSource.1.isSome) :
    let aligner := pixelAligner satellites request.job.solution request.pixelSource
    let other := pixelAligner satellites stored.job.solution stored.pixelSource
    aligner.1 = other.1 ∧ (aligner.2 = other.2 ↔ request.pixelSource.2 = stored.pixelSource.2) := by
  have hsame : request.job = stored.job := congrArg server.jobs hjob
  rcases satellitePixelSource_cases request.job request.moment with hfound | hmissing
  · rcases satellitePixelSource_cases stored.job stored.moment with hother | hother
    · have hsources : request.pixelSource = stored.pixelSource := by
        rw [pixelSource, pixelSource, hfound, hother, hsame]
      dsimp only
      rw [hsources, hsame]
      exact ⟨rfl, iff_of_true rfl rfl⟩
    · rw [pixelSource, pixelSource, hfound, hother] at hpixels
      cases hpixels
  · have hnone : request.pixelSource.1 = none := hmissing
    have hother : stored.pixelSource.1 = none := by
      rw [← Option.not_isSome_iff_eq_none, ← hpixels, hnone]
      nofun
    dsimp only
    rw [pixelAligner_of_missing _ hnone, pixelAligner_of_missing _ hother]
    exact ⟨rfl, Iff.rfl⟩

theorem search_eq (hidentifying : Identifying satellites) {request stored :
    Request satellites server} (hjob : request.publicId = stored.publicId)
    (hcatalog : satellites.contentSha256 request.load.catalog =
      satellites.contentSha256 stored.load.catalog) :
    request.search crates = stored.search crates := by
  have hsame : request.job = stored.job := congrArg server.jobs hjob
  have hexposure : request.exposure = stored.exposure := by
    have heq := request.exposed.symm.trans (hjob ▸ stored.exposed)
    exact Except.ok.inj heq
  unfold search
  rw [hsame, hexposure]
  exact hidentifying _ _ hcatalog _ _ _

/-- Requests of one key differ in the catalog's source and its time, and in why
there are no pixels. -/
theorem result_eq_iff {request stored : Request satellites server}
    (hkey : request.key = stored.key) (search : satellites.Search) :
    request.result search = stored.result search ↔ request.Agrees stored := by
  obtain ⟨hjob, hcatalog, hpixels⟩ : request.publicId = stored.publicId ∧
      satellites.contentSha256 request.load.catalog =
        satellites.contentSha256 stored.load.catalog ∧
      request.pixelSource.1.isSome = stored.pixelSource.1.isSome := by
    simpa only [key, Prod.mk.injEq] using hkey
  obtain ⟨haligner, hreason⟩ := pixelAligner_of_same_pixels hjob hpixels
  unfold result predictionResult
  dsimp only
  rw [haligner, hcatalog]
  constructor
  · intro heq
    have hsummary := congrArg SatellitePredictionResult.summary heq
    have hretrieved := congrArg SatelliteSearchSummaryResponse.catalogRetrievedAt hsummary
    exact {
      source := congrArg SatelliteSearchSummaryResponse.catalogSource hsummary
      retrievedAt := Option.some.inj hretrieved
      reason := hreason.mp (congrArg SatelliteSearchSummaryResponse.pixelAlignmentError hsummary) }
  · intro hagrees
    rw [hagrees.source, hagrees.retrievedAt, hreason.mpr hagrees.reason]

theorem compute_eq_iff (hidentifying : Identifying satellites) {request stored :
    Request satellites server} (hkey : request.key = stored.key)
    {result : SatellitePredictionResult} (hstored : stored.compute crates = .complete result) :
    request.compute crates = .complete result ↔ request.Agrees stored := by
  have hsearch : request.search crates = stored.search crates :=
    search_eq hidentifying (congrArg Prod.fst hkey)
      (congrArg (fun key : CacheKey => key.2.1) hkey)
  unfold compute at hstored ⊢
  rw [hsearch]
  cases hfound : stored.search crates with
  | error message => rw [hfound] at hstored; cases hstored
  | ok search =>
      rw [hfound] at hstored
      rw [← hstored, ← result_eq_iff hkey search]
      exact ⟨SatellitePrediction.complete.inj, congrArg _⟩

end Request

/-! ## Overlapping calls -/

namespace World

/-- The call has not been answered from the cache. -/
def Pending (progress : Progress satellites server) : Prop :=
  match progress with
  | .served _ _ => False
  | _ => True

theorem Pending.ne_served {progress : Progress satellites server} (hpending : Pending progress)
    (request : Request satellites server) (result : SatellitePredictionResult) :
    progress ≠ .served request result := by
  rintro rfl
  exact hpending

/-- Every entry of the cache is what the request that stored it computes. -/
def Consistent (crates : Crates Time) (w : World satellites server) : Prop :=
  ∀ key entry, w.cache.entries.find? key = some entry →
    ∃ stored, w.storedBy key = some stored ∧ stored.key = key ∧
      stored.compute crates = .complete entry.2

theorem consistent_new : (World.new satellites server).Consistent crates := nofun

theorem transparent_new : (World.new satellites server).Transparent crates := by
  intro call request result heq
  cases heq

theorem Transparent.update {w after : World satellites server} {call : ℕ}
    {progress : Progress satellites server}
    (hcalls : after.calls = Function.update w.calls call progress)
    (hpending : Pending (w.calls call)) :
    after.Transparent crates ↔ w.Transparent crates ∧ ∀ request result,
      progress = .served request result → request.compute crates = .complete result := by
  unfold Transparent
  rw [hcalls]
  constructor
  · intro hafter
    constructor
    · intro other request result hother
      have hne : other ≠ call := fun heq => hpending.ne_served request result (heq ▸ hother)
      exact hafter other request result ((Function.update_of_ne hne _ _).trans hother)
    · intro request result hprogress
      exact hafter call request result ((Function.update_self ..).trans hprogress)
  · rintro ⟨hbefore, hprogress⟩ other request result hother
    rw [Function.update_apply] at hother
    split_ifs at hother
    · exact hprogress request result hother
    · exact hbefore other request result hother

theorem Transparent.pending {w after : World satellites server} {call : ℕ}
    {progress : Progress satellites server}
    (hcalls : after.calls = Function.update w.calls call progress)
    (hpending : Pending (w.calls call)) (hprogress : Pending progress) :
    after.Transparent crates ↔ w.Transparent crates := by
  refine (Transparent.update hcalls hpending).trans (and_iff_left ?_)
  intro request result heq
  exact absurd heq (hprogress.ne_served request result)

/-- A call that looks for its key keeps the cache's contents; its result is the one
it would compute exactly when it agrees with the request that stored the entry. -/
theorem lookUp_spec (hidentifying : Identifying satellites) {w missed : World satellites server}
    (hw : w.Consistent crates) {call : ℕ} (request : Request satellites server)
    {progress : Progress satellites server}
    (hpending : Pending (w.calls call))
    (hmissed : missed.Consistent crates)
    (hcalls : missed.calls = Function.update w.calls call progress)
    (hprogress : Pending progress) :
    (w.lookUp call request missed).Consistent crates ∧
      ((w.lookUp call request missed).Transparent crates ↔
        w.Transparent crates ∧ w.Fresh request) := by
  unfold lookUp Fresh PredictionCache.get
  cases hfind : w.cache.entries.find? request.key with
  | none =>
      refine ⟨hmissed, (Transparent.pending hcalls hpending hprogress).trans ?_⟩
      exact (and_iff_left fun _ hfound => absurd hfound Bool.false_ne_true).symm
  | some entry =>
      obtain ⟨stored, hstored, hkey, hcomputed⟩ := hw request.key entry hfind
      refine ⟨hw, (Transparent.update rfl hpending).trans (and_congr_right fun _ => ?_)⟩
      have hagrees := Request.compute_eq_iff hidentifying hkey.symm hcomputed
      constructor
      · intro hserved other _ hother
        obtain rfl := Option.some.inj (hstored.symm.trans hother)
        exact hagrees.mp (hserved request entry.2 rfl)
      · intro hfresh other result heq
        cases heq
        exact hagrees.mpr (hfresh stored rfl hstored)

theorem finish_spec {w : World satellites server} (hw : w.Consistent crates) {call : ℕ}
    (request : Request satellites server) (interrupted : Bool)
    (hpending : Pending (w.calls call)) :
    (w.finish crates call request interrupted).Consistent crates ∧
      ((w.finish crates call request interrupted).Transparent crates ↔
        w.Transparent crates) := by
  unfold finish
  split_ifs
  · exact ⟨hw, Transparent.pending rfl hpending trivial⟩
  · cases hcomputed : request.compute crates with
    | unavailable reason =>
        exact ⟨hw, Transparent.pending rfl hpending trivial⟩
    | complete result =>
        refine ⟨?_, Transparent.pending rfl hpending trivial⟩
        intro key entry hfind
        rcases PredictionCache.find?_insert hfind with ⟨hentry, hkey⟩ | ⟨hne, hold⟩
        · rw [hentry, hkey]
          exact ⟨request, Function.update_self .., rfl, hcomputed⟩
        · obtain ⟨stored, hstored, hkey, hresult⟩ := hw key entry hold
          exact ⟨stored, (Function.update_of_ne hne _ _).trans hstored, hkey, hresult⟩

theorem step_spec (hidentifying : Identifying satellites) {w after : World satellites server}
    (hw : w.Consistent crates) {action : Action satellites}
    (hstep : w.step crates action = some after) :
    after.Consistent crates ∧
      (after.Transparent crates ↔ w.Transparent crates ∧ w.Agreeing action) := by
  cases action with
  | enter call publicId moment =>
      simp only [step] at hstep
      split at hstep
      next hidle =>
        have hpending : Pending (w.calls call) := by
          rw [hidle]
          trivial
        split at hstep
        next request hprepare =>
          obtain rfl := Option.some.inj hstep
          have hmissed : (w.setCall call (.waiting request)).Consistent crates := hw
          have hspec := lookUp_spec hidentifying hw request hpending hmissed rfl trivial
          refine ⟨hspec.1, hspec.2.trans (and_congr_right fun _ => ?_)⟩
          constructor
          · intro hfresh other _ hother
            obtain rfl := Except.ok.inj (hprepare.symm.trans hother)
            exact hfresh
          · exact fun hagreeing => hagreeing request hidle hprepare
        next reason hprepare =>
          obtain rfl := Option.some.inj hstep
          refine ⟨hw, (Transparent.pending rfl hpending ?_).trans (and_iff_left ?_).symm⟩
          · trivial
          · intro request _ hother
            rw [hprepare] at hother
            cases hother
      next => cases hstep
  | acquire call =>
      simp only [step] at hstep
      split at hstep
      next request hwaiting hlock =>
        have hpending : Pending (w.calls call) := by
          rw [hwaiting]
          trivial
        obtain rfl := Option.some.inj hstep
        have hmissed : World.Consistent crates
            { w.setCall call (.computing request) with lock := some call } := hw
        have hspec := lookUp_spec hidentifying hw request hpending hmissed rfl trivial
        refine ⟨hspec.1, hspec.2.trans (and_congr_right fun _ => ?_)⟩
        constructor
        · intro hfresh other hother _
          obtain rfl := Progress.waiting.inj (hwaiting.symm.trans hother)
          exact hfresh
        · exact fun hagreeing => hagreeing request hwaiting hlock
      next => cases hstep
  | finish call interrupted =>
      simp only [step] at hstep
      split at hstep
      next request hcomputing =>
        have hpending : Pending (w.calls call) := by
          rw [hcomputing]
          trivial
        obtain rfl := Option.some.inj hstep
        have hspec := finish_spec hw request interrupted hpending
        exact ⟨hspec.1, hspec.2.trans (and_iff_left trivial).symm⟩
      next => cases hstep

/-- By induction on the run: the cache has been transparent exactly if every call
that was answered from it agreed with the one that stored the entry. -/
theorem run_spec (hidentifying : Identifying satellites) {w finish : World satellites server}
    (hw : w.Consistent crates) {actions : List (Action satellites)}
    (hrun : w.run crates actions = some finish) :
    finish.Transparent crates ↔ w.Transparent crates ∧ w.AgreeingRun crates actions := by
  induction actions generalizing w with
  | nil =>
      obtain rfl := Option.some.inj hrun
      exact (and_iff_left trivial).symm
  | cons action actions ih =>
      obtain ⟨after, hstep, hrest⟩ := Option.bind_eq_some_iff.mp hrun
      have hspec := step_spec hidentifying hw hstep
      rw [ih hspec.1 hrest, hspec.2, and_assoc]
      refine and_congr_right fun _ => and_congr_right fun _ => ?_
      constructor
      · intro hagreeing other hother
        obtain rfl := Option.some.inj (hstep.symm.trans hother)
        exact hagreeing
      · exact fun hagreeing => hagreeing after hstep

end World

/-- In every run of overlapping calls: each result from the cache is the one its
call would compute if and only if each call found its key with the catalog's source,
retrieval time and reason for missing pixels of the call that stored the entry. -/
theorem satellite_predictions_transparent (hidentifying : Identifying satellites)
    {actions : List (Action satellites)} {finish : World satellites server}
    (hrun : (World.new satellites server).run crates actions = some finish) :
    finish.Transparent crates ↔ (World.new satellites server).AgreeingRun crates actions := by
  rw [World.run_spec hidentifying World.consistent_new hrun]
  exact and_iff_right World.transparent_new

end Prediction

/-! ## A job asked for twice -/

/-- Catalogs that are their own hash and hold no elements. -/
def emptySatellites : SatelliteCrates Unit where
  Timestamp := String
  Observer := Unit
  Exposure := Unit
  Catalog := String
  Search := Unit
  Aligner := Unit
  timestamp := fun _ => 0
  timestampSubsecNanos := fun _ => 0
  geodetic := fun _ _ _ => .ok ()
  itrfMeters := fun _ _ _ => .ok ()
  fromUnixSeconds := fun _ => .ok "1970-01-01T00:00:00Z"
  toRfc3339 := id
  fromStartAndDuration := fun _ _ _ _ => .ok ()
  contentSha256 := id
  source := fun _ => "celestrak"
  tracksInFootprint := fun _ _ _ _ => .ok ()
  decodeMonochromeU16 := fun _ _ _ => .error "unknown format"
  fromU16 := fun _ _ _ _ => .ok ()
  intoAnalysis := fun _ _ => ⟨[], 0, 0, 0⟩
  displayLabel := SatelliteIdentity.name
  detected := fun alignment => alignment.status = .detected
  pixelTrailAlignmentVersion := "1"

def groundJob : Job Unit where
  solution := barredSolution
  options :=
    { (SolveOptions.default : SolveOptions Unit) with
      captureTime := some ()
      exposureSeconds := some 30
      observerItrfM := some (0, 0, 0) }
  originalFilename := "image.fits"
  image := []

def groundServer : Server Unit := ⟨true, fun _ => groundJob⟩

def emptyLoad : LoadedCatalog emptySatellites := ⟨"hash", "1970-01-01T00:00:00Z"⟩

/-- The image is retained but cannot be read. -/
def unreadable : Moment emptySatellites := ⟨true, false, .loaded emptyLoad⟩

/-- The image has expired. -/
def expired : Moment emptySatellites := ⟨false, false, .loaded emptyLoad⟩

/-- One call computes its result, the next finds it. -/
def askedTwice (first second : Moment emptySatellites) : List (Action emptySatellites) :=
  [.enter 0 "job" first, .acquire 0, .finish 0 false, .enter 1 "job" second]

theorem satellite_predictions_transparent_counterexample :
    Identifying emptySatellites ∧ ∃ finish : World emptySatellites groundServer,
      (World.new emptySatellites groundServer).run planeCrates (askedTwice unreadable expired) =
        some finish ∧ ¬ finish.Transparent planeCrates := by
  refine ⟨fun _ _ _ _ _ _ => rfl, _, rfl, ?_⟩
  intro htransparent
  have hcomputed := htransparent 1 _ _ rfl
  have hreason : some "The uploaded image has expired; pixel trail detection was not evaluated." =
      some "The retained image could not be loaded for pixel trail detection." :=
    congrArg (fun prediction : SatellitePrediction =>
      match prediction with
      | .complete result => result.summary.pixelAlignmentError
      | .unavailable _ => none) hcomputed
  revert hreason
  decide

theorem satellite_predictions_transparent_expired :
    ∃ finish : World emptySatellites groundServer,
      (World.new emptySatellites groundServer).run planeCrates (askedTwice expired expired) =
        some finish ∧
      (finish.Transparent planeCrates ↔ (World.new emptySatellites groundServer).AgreeingRun
        planeCrates (askedTwice expired expired)) :=
  ⟨_, rfl, satellite_predictions_transparent (fun _ _ _ _ _ _ => rfl) rfl⟩

end SeizaServer.Satellites
