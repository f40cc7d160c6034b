import SeizaServer.JsonCodec
import SeizaServer.SolveOptions

/-!
# Persisted solutions

The solution of a job and the types within it, with the attributes under which
each field is written as JSON and read back.
-/

namespace SeizaServer.Solver

open JsonCodec JsonCodec.Codec

/-! ## Enumerations -/

def SolveHintSource.codec : Codec SolveHintSource :=
  enumeration
    (fun
      | .explicit => "explicit"
      | .fitsHeader => "fits_header"
      | .xisfHeader => "xisf_header"
      | .exif => "exif")
    (fun text =>
      if text = "explicit" then some .explicit
      else if text = "fits_header" then some .fitsHeader
      else if text = "xisf_header" then some .xisfHeader
      else if text = "exif" then some .exif
      else none)
    (fun source => by cases source <;> rfl)

def SatelliteMetadataSource.codec : Codec SatelliteMetadataSource :=
  enumeration
    (fun
      | .explicit => "explicit"
      | .fitsHeader => "fits_header"
      | .xisfHeader => "xisf_header"
      | .exif => "exif")
    (fun text =>
      if text = "explicit" then some .explicit
      else if text = "fits_header" then some .fitsHeader
      else if text = "xisf_header" then some .xisfHeader
      else if text = "exif" then some .exif
      else none)
    (fun source => by cases source <;> rfl)

inductive SolveMode where
  | blind
  | hinted
  deriving DecidableEq

def SolveMode.codec : Codec SolveMode :=
  enumeration
    (fun
      | .blind => "blind"
      | .hinted => "hinted")
    (fun text =>
      if text = "blind" then some .blind else if text = "hinted" then some .hinted else none)
    (fun mode => by cases mode <;> rfl)

/-! ## The options -/

def SolveOptions.fields {Time : Type} (instants : Lossless Time) :=
  (Fields.nullableDefault "center_ra_deg" double none)
    |>.both (Fields.nullableDefault "center_dec_deg" double none) (by decide +kernel)
    |>.both (Fields.nullableDefault "radius_deg" double (some 2.0)) (by decide +kernel)
    |>.both (Fields.nullableDefault "scale_arcsec_per_pixel" double none) (by decide +kernel)
    |>.both (Fields.withDefault "scale_tolerance" double 0.2) (by decide +kernel)
    |>.both (Fields.optional "min_scale_arcsec_per_pixel" double) (by decide +kernel)
    |>.both (Fields.optional "max_scale_arcsec_per_pixel" double) (by decide +kernel)
    |>.both (Fields.withDefault "sigma" single 4.0) (by decide +kernel)
    |>.both (Fields.withDefault "ignore_border" uint32 0) (by decide +kernel)
    |>.both (Fields.withDefault "max_stars" uint64 500) (by decide +kernel)
    |>.both (Fields.withDefault "sip_order" uint8 0) (by decide +kernel)
    |>.both (Fields.nullableDefault "capture_time" instants.toCodec none) (by decide +kernel)
    |>.both (Fields.nullableDefault "exposure_seconds" double none) (by decide +kernel)
    |>.both (Fields.nullableDefault "observer_latitude_deg" double none) (by decide +kernel)
    |>.both (Fields.nullableDefault "observer_longitude_deg" double none) (by decide +kernel)
    |>.both (Fields.nullableDefault "observer_altitude_m" double none) (by decide +kernel)
    |>.both (Fields.nullableDefault "observer_itrf_m" (triple double double double) none) (by decide +kernel)
    |>.both (Fields.optional "satellite_metadata_source" SatelliteMetadataSource.codec) (by decide +kernel)
    |>.both (Fields.vector "satellite_metadata_keywords" (list string)) (by decide +kernel)
    |>.both (Fields.optional "hint_source" SolveHintSource.codec) (by decide +kernel)
    |>.both (Fields.vector "hint_keywords" (list string)) (by decide +kernel)

def SolveOptions.codec {Time : Type} (instants : Lossless Time) : Codec (SolveOptions Time) :=
  (SolveOptions.fields instants).record
    { toFun := fun ((((((((((((((((((((centerRaDeg, centerDecDeg), radiusDeg),
        scaleArcsecPerPixel), scaleTolerance), minScaleArcsecPerPixel), maxScaleArcsecPerPixel),
        sigma), ignoreBorder), maxStars), sipOrder), captureTime), exposureSeconds),
        observerLatitudeDeg), observerLongitudeDeg), observerAltitudeM), observerItrfM),
        satelliteMetadataSource), satelliteMetadataKeywords), hintSource), hintKeywords) =>
        ⟨centerRaDeg, centerDecDeg, radiusDeg, scaleArcsecPerPixel, scaleTolerance,
          minScaleArcsecPerPixel, maxScaleArcsecPerPixel, sigma, ignoreBorder, maxStars, sipOrder,
          captureTime, exposureSeconds, observerLatitudeDeg, observerLongitudeDeg,
          observerAltitudeM, observerItrfM, satelliteMetadataSource, satelliteMetadataKeywords,
          hintSource, hintKeywords⟩
      invFun := fun value => ((((((((((((((((((((value.centerRaDeg, value.centerDecDeg),
        value.radiusDeg), value.scaleArcsecPerPixel), value.scaleTolerance),
        value.minScaleArcsecPerPixel), value.maxScaleArcsecPerPixel), value.sigma),
        value.ignoreBorder), value.maxStars), value.sipOrder), value.captureTime),
        value.exposureSeconds), value.observerLatitudeDeg), value.observerLongitudeDeg),
        value.observerAltitudeM), value.observerItrfM), value.satelliteMetadataSource),
        value.satelliteMetadataKeywords), value.hintSource), value.hintKeywords)
      left_inv := fun _ => rfl
      right_inv := fun _ => rfl }

/-! ## The coordinate system -/

/-- The exponents of a term and its coefficient. -/
abbrev SipCoefficient := UInt8 × UInt8 × Float

def sipCoefficient : Codec SipCoefficient := triple uint8 uint8 double

structure SipResponse where
  order : UInt8
  a : List SipCoefficient
  b : List SipCoefficient
  ap : List SipCoefficient
  bp : List SipCoefficient

def SipResponse.fields :=
  (Fields.required "order" uint8)
    |>.both (Fields.required "a" (list sipCoefficient)) (by decide +kernel)
    |>.both (Fields.required "b" (list sipCoefficient)) (by decide +kernel)
    |>.both (Fields.required "ap" (list sipCoefficient)) (by decide +kernel)
    |>.both (Fields.required "bp" (list sipCoefficient)) (by decide +kernel)

def SipResponse.codec : Codec SipResponse :=
  SipResponse.fields.record
    { toFun := fun ((((order, a), b), ap), bp) =>
        ⟨order, a, b, ap, bp⟩
      invFun := fun value => ((((value.order, value.a), value.b), value.ap), value.bp)
      left_inv := fun _ => rfl
      right_inv := fun _ => rfl }

def defaultCtype : String × String := ("RA---TAN", "DEC--TAN")
def defaultCunit : String × String := ("deg", "deg")
def defaultRadesys : String := "ICRS"
def defaultEquinox : Float := 2000

structure WcsResponse where
  crval : Float × Float
  crpix : Float × Float
  cd : (Float × Float) × Float × Float
  ctype : String × String
  cunit : String × String
  radesys : String
  equinox : Float
  sip : Option SipResponse

def WcsResponse.fields :=
  (Fields.required "crval" (pair double double))
    |>.both (Fields.required "crpix" (pair double double)) (by decide +kernel)
    |>.both (Fields.required "cd" (pair (pair double double) (pair double double))) (by decide +kernel)
    |>.both (Fields.withDefault "ctype" (pair string string) defaultCtype) (by decide +kernel)
    |>.both (Fields.withDefault "cunit" (pair string string) defaultCunit) (by decide +kernel)
    |>.both (Fields.withDefault "radesys" string defaultRadesys) (by decide +kernel)
    |>.both (Fields.withDefault "equinox" double defaultEquinox) (by decide +kernel)
    |>.both (Fields.optional "sip" SipResponse.codec) (by decide +kernel)

def WcsResponse.codec : Codec WcsResponse :=
  WcsResponse.fields.record
    { toFun := fun (((((((crval, crpix), cd), ctype), cunit), radesys), equinox), sip) =>
        ⟨crval, crpix, cd, ctype, cunit, radesys, equinox, sip⟩
      invFun := fun value => (((((((value.crval, value.crpix), value.cd), value.ctype),
        value.cunit), value.radesys), value.equinox), value.sip)
      left_inv := fun _ => rfl
      right_inv := fun _ => rfl }

/-! ## Overlays -/

structure OverlayContour where
  closed : Bool
  points : List (Float × Float)

def OverlayContour.fields :=
  (Fields.required "closed" bool)
    |>.both (Fields.required "points" (list (pair double double))) (by decide +kernel)

def OverlayContour.codec : Codec OverlayContour :=
  OverlayContour.fields.record
    { toFun := fun (closed, points) =>
        ⟨closed, points⟩
      invFun := fun value => (value.closed, value.points)
      left_inv := fun _ => rfl
      right_inv := fun _ => rfl }

structure OverlayOutline where
  geometryId : String
  sourceRecordId : String
  role : String
  quality : String
  level : Option String
  contours : List OverlayContour

def OverlayOutline.fields :=
  (Fields.required "geometry_id" string)
    |>.both (Fields.required "source_record_id" string) (by decide +kernel)
    |>.both (Fields.required "role" string) (by decide +kernel)
    |>.both (Fields.required "quality" string) (by decide +kernel)
    |>.both (Fields.nullable "level" string) (by decide +kernel)
    |>.both (Fields.required "contours" (list OverlayContour.codec)) (by decide +kernel)

def OverlayOutline.codec : Codec OverlayOutline :=
  OverlayOutline.fields.record
    { toFun := fun (((((geometryId, sourceRecordId), role), quality), level), contours) =>
        ⟨geometryId, sourceRecordId, role, quality, level, contours⟩
      invFun := fun value => (((((value.geometryId, value.sourceRecordId), value.role),
        value.quality), value.level), value.contours)
      left_inv := fun _ => rfl
      right_inv := fun _ => rfl }

structure OverlayObject where
  stableId : Option String
  name : String
  commonName : String
  kind : String
  mag : Option Float32
  x : Float
  y : Float
  semiMajorPx : Float
  semiMinorPx : Float
  angleDeg : Option Float
  source : Option String
  catalogSource : Option String
  aliases : List String
  parentIds : List String
  alternateIds : List String
  alternateSources : List String
  raDeg : Option Float
  decDeg : Option Float
  discovered : Option String
  nearCapture : Option Bool
  distanceAu : Option Float
  motionArcsecPerHour : Option Float
  directionPaDeg : Option Float
  directionAngleDeg : Option Float
  outlines : List OverlayOutline
  sizeUnknown : Bool

def OverlayObject.fields :=
  (Fields.optional "stable_id" string)
    |>.both (Fields.required "name" string) (by decide +kernel)
    |>.both (Fields.required "common_name" string) (by decide +kernel)
    |>.both (Fields.required "kind" string) (by decide +kernel)
    |>.both (Fields.nullable "mag" single) (by decide +kernel)
    |>.both (Fields.required "x" double) (by decide +kernel)
    |>.both (Fields.required "y" double) (by decide +kernel)
    |>.both (Fields.required "semi_major_px" double) (by decide +kernel)
    |>.both (Fields.required "semi_minor_px" double) (by decide +kernel)
    |>.both (Fields.nullable "angle_deg" double) (by decide +kernel)
    |>.both (Fields.optional "source" string) (by decide +kernel)
    |>.both (Fields.optional "catalog_source" string) (by decide +kernel)
    |>.both (Fields.vector "aliases" (list string)) (by decide +kernel)
    |>.both (Fields.vector "parent_ids" (list string)) (by decide +kernel)
    |>.both (Fields.vector "alternate_ids" (list string)) (by decide +kernel)
    |>.both (Fields.vector "alternate_sources" (list string)) (by decide +kernel)
    |>.both (Fields.optional "ra_deg" double) (by decide +kernel)
    |>.both (Fields.optional "dec_deg" double) (by decide +kernel)
    |>.both (Fields.optional "discovered" string) (by decide +kernel)
    |>.both (Fields.optional "near_capture" bool) (by decide +kernel)
    |>.both (Fields.optional "distance_au" double) (by decide +kernel)
    |>.both (Fields.optional "motion_arcsec_per_hour" double) (by decide +kernel)
    |>.both (Fields.optional "direction_pa_deg" double) (by decide +kernel)
    |>.both (Fields.optional "direction_angle_deg" double) (by decide +kernel)
    |>.both (Fields.vector "outlines" (list OverlayOutline.codec)) (by decide +kernel)
    |>.both (Fields.flag "size_unknown") (by decide +kernel)

def OverlayObject.codec : Codec OverlayObject :=
  OverlayObject.fields.record
    { toFun := fun (((((((((((((((((((((((((stableId, name), commonName), kind), mag), x), y),
        semiMajorPx), semiMinorPx), angleDeg), source), catalogSource), aliases), parentIds),
        alternateIds), alternateSources), raDeg), decDeg), discovered), nearCapture), distanceAu),
        motionArcsecPerHour), directionPaDeg), directionAngleDeg), outlines), sizeUnknown) =>
        ⟨stableId, name, commonName, kind, mag, x, y, semiMajorPx, semiMinorPx, angleDeg, source,
          catalogSource, aliases, parentIds, alternateIds, alternateSources, raDeg, decDeg,
          discovered, nearCapture, distanceAu, motionArcsecPerHour, directionPaDeg,
          directionAngleDeg, outlines, sizeUnknown⟩
      invFun := fun value => (((((((((((((((((((((((((value.stableId, value.name),
        value.commonName), value.kind), value.mag), value.x), value.y), value.semiMajorPx),
        value.semiMinorPx), value.angleDeg), value.source), value.catalogSource), value.aliases),
        value.parentIds), value.alternateIds), value.alternateSources), value.raDeg),
        value.decDeg), value.discovered), value.nearCapture), value.distanceAu),
        value.motionArcsecPerHour), value.directionPaDeg), value.directionAngleDeg),
        value.outlines), value.sizeUnknown)
      left_inv := fun _ => rfl
      right_inv := fun _ => rfl }

/-! ## The solution -/

structure SolveStatistics where
  totalMs : Float
  decodeMs : Float
  detectionMs : Float
  searchMs : Float
  mode : SolveMode
  detectedStars : UInt64
  catalogStars : UInt64
  blindIndexPatterns : Option UInt64
  hintSource : Option SolveHintSource
  hintKeywords : List String
  blindScaleRange : Option (Float × Float)

def SolveStatistics.fields :=
  (Fields.required "total_ms" double)
    |>.both (Fields.required "decode_ms" double) (by decide +kernel)
    |>.both (Fields.required "detection_ms" double) (by decide +kernel)
    |>.both (Fields.required "search_ms" double) (by decide +kernel)
    |>.both (Fields.required "mode" SolveMode.codec) (by decide +kernel)
    |>.both (Fields.required "detected_stars" uint64) (by decide +kernel)
    |>.both (Fields.required "catalog_stars" uint64) (by decide +kernel)
    |>.both (Fields.optional "blind_index_patterns" uint64) (by decide +kernel)
    |>.both (Fields.optional "hint_source" SolveHintSource.codec) (by decide +kernel)
    |>.both (Fields.vector "hint_keywords" (list string)) (by decide +kernel)
    |>.both (Fields.optional "blind_scale_range" (pair double double)) (by decide +kernel)

def SolveStatistics.codec : Codec SolveStatistics :=
  SolveStatistics.fields.record
    { toFun := fun ((((((((((totalMs, decodeMs), detectionMs), searchMs), mode), detectedStars),
        catalogStars), blindIndexPatterns), hintSource), hintKeywords), blindScaleRange) =>
        ⟨totalMs, decodeMs, detectionMs, searchMs, mode, detectedStars, catalogStars,
          blindIndexPatterns, hintSource, hintKeywords, blindScaleRange⟩
      invFun := fun value => ((((((((((value.totalMs, value.decodeMs), value.detectionMs),
        value.searchMs), value.mode), value.detectedStars), value.catalogStars),
        value.blindIndexPatterns), value.hintSource), value.hintKeywords), value.blindScaleRange)
      left_inv := fun _ => rfl
      right_inv := fun _ => rfl }

structure PixelCoordinatesResponse where
  originalDimensions : UInt32 × UInt32
  orientedDimensions : UInt32 × UInt32
  orientationApplied : UInt8
  convention : String

def PixelCoordinatesResponse.fields :=
  (Fields.required "original_dimensions" (pair uint32 uint32))
    |>.both (Fields.required "oriented_dimensions" (pair uint32 uint32)) (by decide +kernel)
    |>.both (Fields.required "orientation_applied" uint8) (by decide +kernel)
    |>.both (Fields.required "convention" string) (by decide +kernel)

def PixelCoordinatesResponse.codec : Codec PixelCoordinatesResponse :=
  PixelCoordinatesResponse.fields.record
    { toFun := fun (((originalDimensions, orientedDimensions), orientationApplied), convention) =>
        ⟨originalDimensions, orientedDimensions, orientationApplied, convention⟩
      invFun := fun value => (((value.originalDimensions, value.orientedDimensions),
        value.orientationApplied), value.convention)
      left_inv := fun _ => rfl
      right_inv := fun _ => rfl }

structure ContentRegion where
  x : UInt32
  y : UInt32
  width : UInt32
  height : UInt32

def ContentRegion.fields :=
  (Fields.required "x" uint32)
    |>.both (Fields.required "y" uint32) (by decide +kernel)
    |>.both (Fields.required "width" uint32) (by decide +kernel)
    |>.both (Fields.required "height" uint32) (by decide +kernel)

def ContentRegion.codec : Codec ContentRegion :=
  ContentRegion.fields.record
    { toFun := fun (((x, y), width), height) =>
        ⟨x, y, width, height⟩
      invFun := fun value => (((value.x, value.y), value.width), value.height)
      left_inv := fun _ => rfl
      right_inv := fun _ => rfl }

/-- The four corners of the image. -/
abbrev Footprint := (Float × Float) × (Float × Float) × (Float × Float) × (Float × Float)

def zeroFootprint : Footprint := ((0, 0), (0, 0), (0, 0), (0, 0))

def footprintCodec : Codec Footprint := quadruple (pair double double)

structure SolutionResponse (Time : Type) where
  centerRaDeg : Float
  centerDecDeg : Float
  pixelScaleArcsecPerPixel : Float
  matchedStars : UInt64
  rmsArcsec : Float
  imageWidth : UInt32
  imageHeight : UInt32
  wcs : WcsResponse
  footprint : Footprint
  objects : List OverlayObject
  catalogVersion : Option String
  captureTime : Option Time
  statistics : Option SolveStatistics
  pixelCoordinates : Option PixelCoordinatesResponse
  contentRegion : Option ContentRegion

def SolutionResponse.fields {Time : Type} (instants : Lossless Time) :=
  (Fields.required "center_ra_deg" double)
    |>.both (Fields.required "center_dec_deg" double) (by decide +kernel)
    |>.both (Fields.required "pixel_scale_arcsec_per_pixel" double) (by decide +kernel)
    |>.both (Fields.required "matched_stars" uint64) (by decide +kernel)
    |>.both (Fields.required "rms_arcsec" double) (by decide +kernel)
    |>.both (Fields.required "image_width" uint32) (by decide +kernel)
    |>.both (Fields.required "image_height" uint32) (by decide +kernel)
    |>.both (Fields.required "wcs" WcsResponse.codec) (by decide +kernel)
    |>.both (Fields.withDefault "footprint" footprintCodec zeroFootprint) (by decide +kernel)
    |>.both (Fields.withDefault "objects" (list OverlayObject.codec) []) (by decide +kernel)
    |>.both (Fields.optional "catalog_version" string) (by decide +kernel)
    |>.both (Fields.optional "capture_time" instants.toCodec) (by decide +kernel)
    |>.both (Fields.optional "statistics" SolveStatistics.codec) (by decide +kernel)
    |>.both (Fields.optional "pixel_coordinates" PixelCoordinatesResponse.codec) (by decide +kernel)
    |>.both (Fields.optional "content_region" ContentRegion.codec) (by decide +kernel)

def SolutionResponse.codec {Time : Type} (instants : Lossless Time) : Codec (SolutionResponse Time) :=
  (SolutionResponse.fields instants).record
    { toFun := fun ((((((((((((((centerRaDeg, centerDecDeg), pixelScaleArcsecPerPixel),
        matchedStars), rmsArcsec), imageWidth), imageHeight), wcs), footprint), objects),
        catalogVersion), captureTime), statistics), pixelCoordinates), contentRegion) =>
        ⟨centerRaDeg, centerDecDeg, pixelScaleArcsecPerPixel, matchedStars, rmsArcsec, imageWidth,
          imageHeight, wcs, footprint, objects, catalogVersion, captureTime, statistics,
          pixelCoordinates, contentRegion⟩
      invFun := fun value => ((((((((((((((value.centerRaDeg, value.centerDecDeg),
        value.pixelScaleArcsecPerPixel), value.matchedStars), value.rmsArcsec), value.imageWidth),
        value.imageHeight), value.wcs), value.footprint), value.objects), value.catalogVersion),
        value.captureTime), value.statistics), value.pixelCoordinates), value.contentRegion)
      left_inv := fun _ => rfl
      right_inv := fun _ => rfl }

/-! ## Finite values -/

def FinitePoint (point : Float × Float) : Prop :=
  point.1.isFinite = true ∧ point.2.isFinite = true

/-- An optional number is finite where there is one. -/
def FiniteOption (value : Option Float) : Prop :=
  ∀ number, value = some number → number.isFinite = true

def FiniteTerms (terms : List SipCoefficient) : Prop :=
  ∀ term ∈ terms, term.2.2.isFinite = true

structure SipResponse.Finite (sip : SipResponse) : Prop where
  a : FiniteTerms sip.a
  b : FiniteTerms sip.b
  ap : FiniteTerms sip.ap
  bp : FiniteTerms sip.bp

structure WcsResponse.Finite (wcs : WcsResponse) : Prop where
  crval : FinitePoint wcs.crval
  crpix : FinitePoint wcs.crpix
  cd : FinitePoint wcs.cd.1 ∧ FinitePoint wcs.cd.2
  equinox : wcs.equinox.isFinite = true
  sip : ∀ sip, wcs.sip = some sip → sip.Finite

def OverlayOutline.Finite (outline : OverlayOutline) : Prop :=
  ∀ contour ∈ outline.contours, ∀ point ∈ contour.points, FinitePoint point

structure OverlayObject.Finite (overlay : OverlayObject) : Prop where
  mag : ∀ number, overlay.mag = some number → number.isFinite = true
  x : overlay.x.isFinite = true
  y : overlay.y.isFinite = true
  semiMajorPx : overlay.semiMajorPx.isFinite = true
  semiMinorPx : overlay.semiMinorPx.isFinite = true
  angleDeg : FiniteOption overlay.angleDeg
  raDeg : FiniteOption overlay.raDeg
  decDeg : FiniteOption overlay.decDeg
  distanceAu : FiniteOption overlay.distanceAu
  motionArcsecPerHour : FiniteOption overlay.motionArcsecPerHour
  directionPaDeg : FiniteOption overlay.directionPaDeg
  directionAngleDeg : FiniteOption overlay.directionAngleDeg
  outlines : ∀ outline ∈ overlay.outlines, outline.Finite

structure SolveStatistics.Finite (statistics : SolveStatistics) : Prop where
  totalMs : statistics.totalMs.isFinite = true
  decodeMs : statistics.decodeMs.isFinite = true
  detectionMs : statistics.detectionMs.isFinite = true
  searchMs : statistics.searchMs.isFinite = true
  blindScaleRange : ∀ range, statistics.blindScaleRange = some range → FinitePoint range

/-- Every number of the solution is finite. -/
structure SolutionResponse.Finite {Time : Type} (solution : SolutionResponse Time) : Prop where
  centerRaDeg : solution.centerRaDeg.isFinite = true
  centerDecDeg : solution.centerDecDeg.isFinite = true
  pixelScale : solution.pixelScaleArcsecPerPixel.isFinite = true
  rmsArcsec : solution.rmsArcsec.isFinite = true
  wcs : solution.wcs.Finite
  footprint : FinitePoint solution.footprint.1 ∧ FinitePoint solution.footprint.2.1 ∧
    FinitePoint solution.footprint.2.2.1 ∧ FinitePoint solution.footprint.2.2.2
  objects : ∀ overlay ∈ solution.objects, overlay.Finite
  statistics : ∀ statistics, solution.statistics = some statistics → statistics.Finite

theorem SipResponse.representable_iff {sip : SipResponse} :
    SipResponse.codec.Representable sip ↔ sip.Finite := by
  constructor
  · intro hrepresentable
    obtain ⟨⟨⟨⟨_, ha⟩, hb⟩, hap⟩, hbp⟩ := hrepresentable
    exact ⟨fun term hmem => (ha term hmem).2.2, fun term hmem => (hb term hmem).2.2,
      fun term hmem => (hap term hmem).2.2, fun term hmem => (hbp term hmem).2.2⟩
  · intro hfinite
    exact ⟨⟨⟨⟨trivial, fun term hmem => ⟨trivial, trivial, hfinite.a term hmem⟩⟩,
      fun term hmem => ⟨trivial, trivial, hfinite.b term hmem⟩⟩,
      fun term hmem => ⟨trivial, trivial, hfinite.ap term hmem⟩⟩,
      fun term hmem => ⟨trivial, trivial, hfinite.bp term hmem⟩⟩

theorem WcsResponse.representable_iff {wcs : WcsResponse} :
    WcsResponse.codec.Representable wcs ↔ wcs.Finite := by
  constructor
  · intro hrepresentable
    obtain ⟨⟨⟨⟨⟨⟨⟨hcrval, hcrpix⟩, hcd⟩, _⟩, _⟩, _⟩, hequinox⟩, hsip⟩ := hrepresentable
    exact ⟨hcrval, hcrpix, hcd, hequinox rfl,
      fun sip hsome => SipResponse.representable_iff.mp (hsip sip hsome)⟩
  · intro hfinite
    exact ⟨⟨⟨⟨⟨⟨⟨hfinite.crval, hfinite.crpix⟩, hfinite.cd⟩, fun _ => ⟨trivial, trivial⟩⟩,
      fun _ => ⟨trivial, trivial⟩⟩, fun _ => trivial⟩, fun _ => hfinite.equinox⟩,
      fun sip hsome => SipResponse.representable_iff.mpr (hfinite.sip sip hsome)⟩

theorem OverlayOutline.representable_iff {outline : OverlayOutline} :
    OverlayOutline.codec.Representable outline ↔ outline.Finite := by
  constructor
  · intro hrepresentable contour hmem
    exact (hrepresentable.2 contour hmem).2
  · intro hfinite
    exact ⟨⟨⟨⟨⟨trivial, trivial⟩, trivial⟩, trivial⟩, fun _ _ => trivial⟩,
      fun contour hmem => ⟨trivial, hfinite contour hmem⟩⟩

theorem vector_representable {α : Type} {codec : Codec α} {name : String} {values : List α} :
    (Fields.vector name (list codec)).Representable values ↔
      ∀ value ∈ values, codec.Representable value := by
  constructor
  · intro hrepresentable value hmem
    have hfull : values.isEmpty = false := by
      rw [List.isEmpty_eq_false_iff]
      exact List.ne_nil_of_mem hmem
    exact hrepresentable hfull value hmem
  · intro hvalues _
    exact hvalues

theorem OverlayObject.representable_iff {overlay : OverlayObject} :
    OverlayObject.codec.Representable overlay ↔ overlay.Finite := by
  constructor
  · intro hrepresentable
    obtain ⟨⟨⟨⟨⟨⟨⟨⟨⟨⟨⟨⟨⟨⟨⟨⟨⟨⟨⟨⟨⟨⟨⟨⟨⟨_, _⟩, _⟩, _⟩, hmag⟩, hx⟩, hy⟩, hsemiMajorPx⟩, hsemiMinorPx⟩,
      hangleDeg⟩, _⟩, _⟩, _⟩, _⟩, _⟩, _⟩, hraDeg⟩, hdecDeg⟩, _⟩, _⟩, hdistanceAu⟩,
      hmotionArcsecPerHour⟩, hdirectionPaDeg⟩, hdirectionAngleDeg⟩, houtlines⟩, _⟩ :=
      hrepresentable
    exact ⟨hmag, hx, hy, hsemiMajorPx, hsemiMinorPx, hangleDeg, hraDeg, hdecDeg, hdistanceAu,
      hmotionArcsecPerHour, hdirectionPaDeg, hdirectionAngleDeg, fun outline hmem =>
      OverlayOutline.representable_iff.mp (vector_representable.mp houtlines outline hmem)⟩
  · intro hfinite
    have houtlines := (@vector_representable _ OverlayOutline.codec "outlines" overlay.outlines).mpr
      fun outline hmem => OverlayOutline.representable_iff.mpr (hfinite.outlines outline hmem)
    exact ⟨⟨⟨⟨⟨⟨⟨⟨⟨⟨⟨⟨⟨⟨⟨⟨⟨⟨⟨⟨⟨⟨⟨⟨⟨fun _ _ => trivial, trivial⟩, trivial⟩, trivial⟩, hfinite.mag⟩,
      hfinite.x⟩, hfinite.y⟩, hfinite.semiMajorPx⟩, hfinite.semiMinorPx⟩, hfinite.angleDeg⟩, fun _
      _ => trivial⟩, fun _ _ => trivial⟩, fun _ _ _ => trivial⟩, fun _ _ _ => trivial⟩, fun _ _ _
      => trivial⟩, fun _ _ _ => trivial⟩, hfinite.raDeg⟩, hfinite.decDeg⟩, fun _ _ => trivial⟩,
      fun _ _ => trivial⟩, hfinite.distanceAu⟩, hfinite.motionArcsecPerHour⟩,
      hfinite.directionPaDeg⟩, hfinite.directionAngleDeg⟩, houtlines⟩, fun _ => trivial⟩

theorem SolveStatistics.representable_iff {statistics : SolveStatistics} :
    SolveStatistics.codec.Representable statistics ↔ statistics.Finite := by
  constructor
  · intro hrepresentable
    obtain ⟨⟨⟨⟨⟨⟨⟨⟨⟨⟨htotalMs, hdecodeMs⟩, hdetectionMs⟩, hsearchMs⟩, _⟩, _⟩, _⟩, _⟩, _⟩, _⟩,
      hblindScaleRange⟩ := hrepresentable
    exact ⟨htotalMs, hdecodeMs, hdetectionMs, hsearchMs, hblindScaleRange⟩
  · intro hfinite
    exact ⟨⟨⟨⟨⟨⟨⟨⟨⟨⟨hfinite.totalMs, hfinite.decodeMs⟩, hfinite.detectionMs⟩, hfinite.searchMs⟩,
      trivial⟩, trivial⟩, trivial⟩, fun _ _ => trivial⟩, fun _ _ => trivial⟩, fun _ _ _ =>
      trivial⟩, hfinite.blindScaleRange⟩

theorem SolutionResponse.representable_iff {Time : Type} {instants : Lossless Time}
    {solution : SolutionResponse Time} :
    (SolutionResponse.codec instants).Representable solution ↔ solution.Finite := by
  constructor
  · intro hrepresentable
    obtain ⟨⟨⟨⟨⟨⟨⟨⟨⟨⟨⟨⟨⟨⟨hcenterRaDeg, hcenterDecDeg⟩, hpixelScale⟩, _⟩, hrmsArcsec⟩, _⟩, _⟩,
      hwcs⟩, hfootprint⟩, hobjects⟩, _⟩, _⟩, hstatistics⟩, _⟩, _⟩ := hrepresentable
    exact ⟨hcenterRaDeg, hcenterDecDeg, hpixelScale, hrmsArcsec,
      WcsResponse.representable_iff.mp hwcs, hfootprint rfl,
      fun overlay hmem => OverlayObject.representable_iff.mp (hobjects rfl overlay hmem),
      fun statistics hsome => SolveStatistics.representable_iff.mp (hstatistics statistics hsome)⟩
  · intro hfinite
    have hobjects : ∀ overlay ∈ solution.objects, OverlayObject.codec.Representable overlay :=
      fun overlay hmem => OverlayObject.representable_iff.mpr (hfinite.objects overlay hmem)
    have hstatistics : ∀ statistics, solution.statistics = some statistics →
        SolveStatistics.codec.Representable statistics :=
      fun statistics hsome =>
        SolveStatistics.representable_iff.mpr (hfinite.statistics statistics hsome)
    exact ⟨⟨⟨⟨⟨⟨⟨⟨⟨⟨⟨⟨⟨⟨hfinite.centerRaDeg, hfinite.centerDecDeg⟩, hfinite.pixelScale⟩, trivial⟩,
      hfinite.rmsArcsec⟩, trivial⟩, trivial⟩, WcsResponse.representable_iff.mpr hfinite.wcs⟩, fun
      _ => hfinite.footprint⟩, fun _ => hobjects⟩, fun _ _ => trivial⟩, fun time _ =>
      instants.representable time⟩, hstatistics⟩, fun _ _ => ⟨⟨⟨⟨trivial, trivial⟩, trivial,
      trivial⟩, trivial⟩, trivial⟩⟩, fun _ _ => ⟨⟨⟨trivial, trivial⟩, trivial⟩, trivial⟩⟩

/-- The numbers of the options are finite. -/
structure SolveOptions.Finite {Time : Type} (options : SolveOptions Time) : Prop where
  centerRaDeg : FiniteOption options.centerRaDeg
  centerDecDeg : FiniteOption options.centerDecDeg
  radiusDeg : FiniteOption options.radiusDeg
  scale : FiniteOption options.scaleArcsecPerPixel
  scaleTolerance : options.scaleTolerance.isFinite = true
  minScale : FiniteOption options.minScaleArcsecPerPixel
  maxScale : FiniteOption options.maxScaleArcsecPerPixel
  sigma : options.sigma.isFinite = true
  exposureSeconds : FiniteOption options.exposureSeconds
  observerLatitudeDeg : FiniteOption options.observerLatitudeDeg
  observerLongitudeDeg : FiniteOption options.observerLongitudeDeg
  observerAltitudeM : FiniteOption options.observerAltitudeM
  observerItrfM : ∀ itrf, options.observerItrfM = some itrf →
    itrf.1.isFinite = true ∧ itrf.2.1.isFinite = true ∧ itrf.2.2.isFinite = true

theorem SolveOptions.representable_iff {Time : Type} {instants : Lossless Time}
    {options : SolveOptions Time} :
    (SolveOptions.codec instants).Representable options ↔ options.Finite := by
  constructor
  · intro hrepresentable
    obtain ⟨⟨⟨⟨⟨⟨⟨⟨⟨⟨⟨⟨⟨⟨⟨⟨⟨⟨⟨⟨hcenterRaDeg, hcenterDecDeg⟩, hradiusDeg⟩, hscale⟩,
      hscaleTolerance⟩, hminScale⟩, hmaxScale⟩, hsigma⟩, _⟩, _⟩, _⟩, _⟩, hexposureSeconds⟩,
      hobserverLatitudeDeg⟩, hobserverLongitudeDeg⟩, hobserverAltitudeM⟩, hobserverItrfM⟩, _⟩, _⟩,
      _⟩, _⟩ := hrepresentable
    exact ⟨hcenterRaDeg, hcenterDecDeg, hradiusDeg, hscale, hscaleTolerance rfl, hminScale,
      hmaxScale, hsigma rfl, hexposureSeconds, hobserverLatitudeDeg, hobserverLongitudeDeg,
      hobserverAltitudeM, hobserverItrfM⟩
  · intro hfinite
    exact ⟨⟨⟨⟨⟨⟨⟨⟨⟨⟨⟨⟨⟨⟨⟨⟨⟨⟨⟨⟨hfinite.centerRaDeg, hfinite.centerDecDeg⟩, hfinite.radiusDeg⟩,
      hfinite.scale⟩, fun _ => hfinite.scaleTolerance⟩, hfinite.minScale⟩, hfinite.maxScale⟩, fun
      _ => hfinite.sigma⟩, fun _ => trivial⟩, fun _ => trivial⟩, fun _ => trivial⟩, fun time _ =>
      instants.representable time⟩, hfinite.exposureSeconds⟩, hfinite.observerLatitudeDeg⟩,
      hfinite.observerLongitudeDeg⟩, hfinite.observerAltitudeM⟩, hfinite.observerItrfM⟩, fun _ _
      => trivial⟩, fun _ _ _ => trivial⟩, fun _ _ => trivial⟩, fun _ _ _ => trivial⟩

-- Later proofs use what the codecs represent, not how they are put together.
attribute [irreducible] SolveOptions.codec SolutionResponse.codec

end SeizaServer.Solver
