import Mathlib.Tactic

/-!
# Solve options

The options of a solve as a submission carries them, and the check that both
submission paths make before a job is enqueued.  Doubles are Lean's own; the
type of instants is left open.
-/

namespace SeizaServer.Solver

inductive SolveHintSource where
  | explicit
  | fitsHeader
  | xisfHeader
  | exif
  deriving DecidableEq

inductive SatelliteMetadataSource where
  | explicit
  | fitsHeader
  | xisfHeader
  | exif
  deriving DecidableEq

structure SolveOptions (Time : Type) where
  centerRaDeg : Option Float
  centerDecDeg : Option Float
  radiusDeg : Option Float
  scaleArcsecPerPixel : Option Float
  scaleTolerance : Float
  minScaleArcsecPerPixel : Option Float
  maxScaleArcsecPerPixel : Option Float
  sigma : Float32
  ignoreBorder : UInt32
  maxStars : UInt64
  sipOrder : UInt8
  captureTime : Option Time
  exposureSeconds : Option Float
  observerLatitudeDeg : Option Float
  observerLongitudeDeg : Option Float
  observerAltitudeM : Option Float
  observerItrfM : Option (Float × Float × Float)
  satelliteMetadataSource : Option SatelliteMetadataSource
  satelliteMetadataKeywords : List String
  hintSource : Option SolveHintSource
  hintKeywords : List String

/-- `RangeInclusive::contains`. -/
def inRange (low high value : Float) : Bool :=
  decide (low ≤ value) && decide (value ≤ high)

namespace SolveOptions

variable {Time : Type}

/-- The defaults of a submission. -/
def default : SolveOptions Time where
  centerRaDeg := none
  centerDecDeg := none
  radiusDeg := some 2.0
  scaleArcsecPerPixel := none
  scaleTolerance := 0.2
  minScaleArcsecPerPixel := none
  maxScaleArcsecPerPixel := none
  sigma := 4.0
  ignoreBorder := 0
  maxStars := 500
  sipOrder := 0
  captureTime := none
  exposureSeconds := none
  observerLatitudeDeg := none
  observerLongitudeDeg := none
  observerAltitudeM := none
  observerItrfM := none
  satelliteMetadataSource := none
  satelliteMetadataKeywords := []
  hintSource := none
  hintKeywords := []

/-! ## The checks -/

def refuse (invalid : Bool) (message : String) : Except String Unit :=
  if invalid then .error message else .ok ()

/-- `bound_is_valid`. -/
def boundIsValid (bound : Option Float) : Bool :=
  bound.all fun b => b.isFinite && decide (0 < b)

def validateDetection (options : SolveOptions Time) : Except String Unit := do
  refuse (!(options.sigma.isFinite && decide (0 < options.sigma))) "sigma must be positive"
  refuse (!(options.scaleTolerance.isFinite && inRange 0.01 1.0 options.scaleTolerance))
    "scale_tolerance must be between 0.01 and 1.0"
  refuse (!(boundIsValid options.minScaleArcsecPerPixel &&
      boundIsValid options.maxScaleArcsecPerPixel &&
      options.minScaleArcsecPerPixel.all fun min =>
        options.maxScaleArcsecPerPixel.all fun max => decide (min ≤ max)))
    "blind scale bounds are invalid"

def validateHint (options : SolveOptions Time) : Except String Unit := do
  let hasCenter := options.centerRaDeg.isSome || options.centerDecDeg.isSome
  refuse (hasCenter && (options.centerRaDeg.isNone || options.centerDecDeg.isNone ||
      options.scaleArcsecPerPixel.isNone))
    "a hinted solve requires center_ra_deg, center_dec_deg, and scale_arcsec_per_pixel"
  refuse (options.centerRaDeg.any fun ra => !inRange 0 360 ra)
    "center_ra_deg must be between 0 and 360"
  refuse (options.centerDecDeg.any fun dec => !inRange (-90) 90 dec)
    "center_dec_deg must be between -90 and 90"
  refuse (options.scaleArcsecPerPixel.any fun scale => !(scale.isFinite && decide (0 < scale)))
    "scale_arcsec_per_pixel must be positive"

def validateSipOrder (options : SolveOptions Time) : Except String Unit :=
  refuse (5 < options.sipOrder) "sip_order must be between 0 and 5"

def validateExposure (options : SolveOptions Time) : Except String Unit :=
  refuse (options.exposureSeconds.any fun seconds => !(seconds.isFinite && decide (0 < seconds)))
    "exposure_seconds must be positive"

def validateObserver (options : SolveOptions Time) : Except String Unit := do
  match options.observerLatitudeDeg, options.observerLongitudeDeg with
  | some latitude, some longitude =>
      refuse (!latitude.isFinite || !inRange (-90) 90 latitude)
        "observer_latitude_deg must be between -90 and 90"
      refuse (!longitude.isFinite) "observer_longitude_deg must be finite"
      refuse options.observerItrfM.isSome
        "provide either geodetic observer coordinates or observer_itrf_m, not both"
  | some _, none | none, some _ =>
      refuse true "observer_latitude_deg and observer_longitude_deg must be supplied together"
  | none, none =>
      refuse options.observerAltitudeM.isSome
        "observer_altitude_m requires observer latitude and longitude"
  refuse (options.observerAltitudeM.any fun altitude => !altitude.isFinite)
    "observer_altitude_m must be finite"
  refuse (options.observerItrfM.any fun (x, y, z) =>
      !x.isFinite || !y.isFinite || !z.isFinite || (x == 0 && y == 0 && z == 0))
    "observer_itrf_m must be finite and cannot be Earth's center"

def validate (options : SolveOptions Time) : Except String Unit := do
  options.validateDetection
  options.validateHint
  options.validateSipOrder
  options.validateExposure
  options.validateObserver

/-! ## What the checks accept -/

theorem refuse_eq_ok {invalid : Bool} {message : String} :
    refuse invalid message = .ok () ↔ invalid = false := by
  unfold refuse
  cases invalid <;> simp

theorem bind_eq_ok {first second : Except String Unit} :
    (first >>= fun _ => second) = .ok () ↔ first = .ok () ∧ second = .ok () := by
  cases first with
  | error message => simp [bind, Except.bind]
  | ok _ => simp [bind, Except.bind]

/-- A position that the observer's checks accept, with an altitude or without. -/
def PlaceInRange (latitude longitude : Float) (altitude : Option Float) : Prop :=
  latitude.isFinite = true ∧ inRange (-90) 90 latitude = true ∧ longitude.isFinite = true ∧
    ∀ meters, altitude = some meters → meters.isFinite = true

def ItrfInRange (itrf : Float × Float × Float) : Prop :=
  itrf.1.isFinite = true ∧ itrf.2.1.isFinite = true ∧ itrf.2.2.isFinite = true ∧
    (itrf.1 == 0 && itrf.2.1 == 0 && itrf.2.2 == 0) = false

theorem validate_eq_ok {options : SolveOptions Time} :
    options.validate = .ok () ↔
      options.validateDetection = .ok () ∧ options.validateHint = .ok () ∧
        options.validateSipOrder = .ok () ∧ options.validateExposure = .ok () ∧
          options.validateObserver = .ok () := by
  unfold validate
  rw [bind_eq_ok, bind_eq_ok, bind_eq_ok, bind_eq_ok]

theorem validateExposure_eq_ok {options : SolveOptions Time} :
    options.validateExposure = .ok () ↔ ∀ seconds, options.exposureSeconds = some seconds →
      seconds.isFinite = true ∧ 0 < seconds := by
  unfold validateExposure
  rw [refuse_eq_ok]
  cases options.exposureSeconds with
  | none => simp
  | some seconds => simp

theorem validateObserver_place {options : SolveOptions Time} {latitude longitude : Float}
    (hlatitude : options.observerLatitudeDeg = some latitude)
    (hlongitude : options.observerLongitudeDeg = some longitude)
    (hitrf : options.observerItrfM = none) :
    options.validateObserver = .ok () ↔
      PlaceInRange latitude longitude options.observerAltitudeM := by
  unfold validateObserver PlaceInRange
  simp only [hlatitude, hlongitude, hitrf, bind_eq_ok, refuse_eq_ok]
  cases options.observerAltitudeM with
  | none => simp [and_assoc]
  | some altitude => simp [and_assoc]

theorem validateObserver_itrf {options : SolveOptions Time} {itrf : Float × Float × Float}
    (hlatitude : options.observerLatitudeDeg = none)
    (hlongitude : options.observerLongitudeDeg = none)
    (haltitude : options.observerAltitudeM = none) (hitrf : options.observerItrfM = some itrf) :
    options.validateObserver = .ok () ↔ ItrfInRange itrf := by
  unfold validateObserver ItrfInRange
  simp only [hlatitude, hlongitude, haltitude, hitrf, bind_eq_ok, refuse_eq_ok]
  simp [and_assoc]

/-- Without latitude and longitude there is no altitude either. -/
theorem observerAltitudeM_eq_none {options : SolveOptions Time}
    (hvalid : options.validateObserver = .ok ()) (hlatitude : options.observerLatitudeDeg = none)
    (hlongitude : options.observerLongitudeDeg = none) : options.observerAltitudeM = none := by
  unfold validateObserver at hvalid
  simp only [hlatitude, hlongitude, bind_eq_ok, refuse_eq_ok] at hvalid
  exact Option.isSome_eq_false_iff.mp hvalid.1 |> Option.isNone_iff_eq_none.mp

/-- The center and the scale of a header are set together. -/
theorem validateHint_set {options : SolveOptions Time} {ra dec scale : Float}
    (hra : options.centerRaDeg = some ra) (hdec : options.centerDecDeg = some dec)
    (hscale : options.scaleArcsecPerPixel = some scale) :
    options.validateHint = .ok () ↔ inRange 0 360 ra = true ∧ inRange (-90) 90 dec = true ∧
      scale.isFinite = true ∧ 0 < scale := by
  unfold validateHint
  simp only [hra, hdec, hscale, bind_eq_ok, refuse_eq_ok]
  simp

end SolveOptions

end SeizaServer.Solver
