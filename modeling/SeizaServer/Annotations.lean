import SeizaServer.Binary64
import SeizaServer.DisplaySelection
import SeizaServer.KeyedTable
import SeizaServer.SolutionCodec

/-!
# Annotation of a solved image

The catalogs are asked with the frame of the content region, and what they
place is moved by its corner once, at the end.  The catalogs and the
projections of the solver's crate are parameters, as are calendar dates and
the letters' lower case.
-/

namespace SeizaServer.Annotations

open Solver

/-! ## What the crates provide -/

structure Sip where
  order : UInt8
  a : List Float
  b : List Float
  ap : List Float
  bp : List Float

structure Wcs where
  crval : Float × Float
  crpix : Float × Float
  cd : (Float × Float) × Float × Float
  sip : Option Sip

abbrev Dimensions := UInt32 × UInt32

structure Figure where
  abbr : String
  name : String
  polylines : List (List (Float × Float))
  label : Option (Float × Float)

/-- Functions of the crates, and of the standard library on numbers and
text. -/
structure Crates (Time : Type) where
  worldToPixel : Wcs → Float → Float → Option (Float × Float)
  pixelToWorld : Wcs → Float → Float → Float × Float
  footprint : Wcs → UInt32 → UInt32 → List (Float × Float)
  scaleArcsecPerPx : Wcs → Float
  forwardTerms : UInt8 → List (UInt8 × UInt8)
  inverseTerms : UInt8 → List (UInt8 × UInt8)
  projectFigures : Wcs → Dimensions → List Figure
  angularSeparationDeg : Float → Float → Float → Float → Float
  hypot : Float → Float → Float
  kindText : ObjectKind → String
  /-- A number with so many decimal places. -/
  fixed : ℕ → Float → String
  lowercase : Char → List Char
  fromYmd : ℤ → ℕ → ℕ → Option ℤ
  dateText : ℤ → String
  parseDate : String → Option ℤ
  dateOf : Time → ℤ
  timestampMillis : Time → Float
  figureAttribution : String

inductive GeometryRole where
  | catalogExtent | preferredRender | fallbackExtent | brightnessLevel | component

inductive GeometryQuality where
  | catalog | curated | estimated | derived

structure Contour where
  closed : Bool
  vertices : List (Float × Float)

inductive GeometryData where
  | outlineSet (level : Option String) (contours : List Contour)
  | other

structure Geometry where
  id : String
  sourceRecordId : String
  role : GeometryRole
  quality : GeometryQuality
  data : GeometryData

/-- What is asked of an object catalog. -/
structure ObjectCatalog where
  objectsInFootprint : Wcs → Dimensions → Except String (List PlacedObject)
  geometries : String → Option (List Geometry)

structure StarLabel where
  designation : String
  catalog : String
  detail : String
  ra : Float
  dec : Float
  mag : Option Float32

structure StarIdentifierLayer where
  labelsInFootprint : Wcs → Dimensions → Float32 → ℕ → List StarLabel

structure Star where
  ra : Float
  dec : Float
  mag : Float32

structure TileCatalog where
  coneSearch : Float → Float → Float → ℕ → List Star

inductive MinorBodyKind where
  | comet | asteroid

structure PlacedBody where
  kind : MinorBodyKind
  name : String
  mag : Float
  deltaAu : Float
  x : Float
  y : Float
  ra : Float
  dec : Float
  motionArcsecPerHour : Option Float
  directionPaDeg : Option Float

structure MinorBodyCatalog where
  objectsInFootprint : Wcs → Dimensions → Float → Float → List PlacedBody

/-! ## Responses -/

structure ConstellationResponse where
  abbreviation : String
  name : String
  lines : List (List (Float × Float))
  label : Option (Float × Float)

/-- A map from layers, or counts and flags by layer. -/
abbrev Layers (α : Type) := KeyedTable (String × α) String Prod.fst

structure AnnotationResponse (Time : Type) where
  jobId : String
  catalogVersion : String
  captureTime : Option Time
  available : Layers Bool
  counts : Layers ℕ
  totals : Layers ℕ
  objects : List OverlayObject
  constellations : List ConstellationResponse
  constellationAttribution : Option String

namespace Layers

variable {α : Type}

def ofList (entries : List (String × α)) : Layers α := entries.foldl .put .empty

def insert (layers : Layers α) (layer : String) (value : α) : Layers α := layers.put (layer, value)

/-- `*entry(layer).or_insert(0) += count`. -/
def add (layers : Layers ℕ) (layer : String) (count : ℕ) : Layers ℕ :=
  layers.put (layer, ((layers.find? layer).elim 0 Prod.snd) + count)

def merge (layers more : Layers ℕ) : Layers ℕ :=
  more.rows.foldl (fun layers entry => layers.add entry.1 entry.2) layers

end Layers

/-! ## The frame -/

section Frame

variable {Time : Type} (crates : Crates Time)

def sipValues (terms : List (UInt8 × UInt8)) (coefficients : List SipCoefficient) : List Float :=
  terms.map fun term =>
    ((coefficients.find? fun coefficient => (coefficient.1, coefficient.2.1) = term).map
      fun coefficient => coefficient.2.2).getD 0

def sipToSeiza (sip : SipResponse) : Sip where
  order := sip.order
  a := sipValues (crates.forwardTerms sip.order) sip.a
  b := sipValues (crates.forwardTerms sip.order) sip.b
  ap := sipValues (crates.inverseTerms sip.order) sip.ap
  bp := sipValues (crates.inverseTerms sip.order) sip.bp

def wcsToSeiza (wcs : WcsResponse) : Wcs :=
  ⟨wcs.crval, wcs.crpix, wcs.cd, wcs.sip.map (sipToSeiza crates)⟩

/-- The projection, the dimensions and the corner of the picture. -/
def frame (solution : SolutionResponse Time) : Wcs × Dimensions × Float × Float :=
  let wcs := wcsToSeiza crates solution.wcs
  match solution.contentRegion with
  | some region =>
      ({ wcs with crpix := (wcs.crpix.1 - region.x.toFloat, wcs.crpix.2 - region.y.toFloat) },
        (region.width, region.height), region.x.toFloat, region.y.toFloat)
  | none => (wcs, (solution.imageWidth, solution.imageHeight), 0, 0)

end Frame

/-! ## Catalog objects -/

section Objects

variable {Time : Type} (crates : Crates Time)

def normalizeDesignation (text : String) : List Char :=
  (text.toList.filter fun c => !isWhiteSpace c).flatMap crates.lowercase

def requestedObjects (requests : List String) : List (List Char) :=
  (requests.map (normalizeDesignation crates)).filter fun request => !request.isEmpty

def matchesRequest (requested : List (List Char)) (object : SkyObject) : Bool :=
  !requested.isEmpty &&
    (([object.name, object.commonName, object.metadata.id] ++ object.metadata.aliases ++
      object.metadata.alternateIds).map (normalizeDesignation crates)).any
        fun name => !name.isEmpty && requested.contains name

/-- `str::parse` of a decimal integer in a range. -/
def parseInteger (low high : ℤ) (text : List Char) : Option ℤ :=
  let read := fun (digits : List Char) =>
    if !digits.isEmpty && digits.all Char.isDigit then some (digitsValue digits : ℤ) else none
  let value :=
    match text with
    | '-' :: digits => if low < 0 then (read digits).map fun value => -value else none
    | '+' :: digits => read digits
    | digits => read digits
  value.filter fun value => low ≤ value && value ≤ high

def transientDiscoveryDate (details : String) : Option String := do
  let raw ← (details.splitOn ", ").findSome? fun part =>
    if "disc. ".isPrefixOf part then some ((part.drop "disc. ".length).toString) else none
  let parts := (raw.splitOn "/").map fun part => trimText part.toList
  let year ← parts[0]?.bind (parseInteger (-2 ^ 31) (2 ^ 31 - 1))
  let month ← parts[1]?.bind (parseInteger 0 (2 ^ 32 - 1))
  let day ← parts[2]?.bind (parseInteger 0 (2 ^ 32 - 1))
  (crates.fromYmd year month.toNat day.toNat).map crates.dateText

def transientNearCapture (discovered : Option String) (capture : Option Time) : Bool :=
  match discovered, capture with
  | some discovered, some capture =>
      match crates.parseDate discovered with
      | some discovered =>
          crates.dateOf capture - 365 ≤ discovered && discovered ≤ crates.dateOf capture + 30
      | none => true
  | _, _ => true

def DisplayGroup.layer : DisplayGroup → String
  | .deepSky => "deep_sky"
  | .namedStar => "named_stars"
  | .transient => "transients"

def fieldDiagonalDeg (wcs : Wcs) (dimensions : Dimensions) : Float :=
  crates.hypot dimensions.1.toFloat dimensions.2.toFloat * crates.scaleArcsecPerPx wcs / 3600

def geometryRoleName : GeometryRole → String
  | .catalogExtent => "catalog-extent"
  | .preferredRender => "preferred-render"
  | .fallbackExtent => "fallback-extent"
  | .brightnessLevel => "brightness-level"
  | .component => "component"

def geometryQualityName : GeometryQuality → String
  | .catalog => "catalog"
  | .curated => "curated"
  | .estimated => "estimated"
  | .derived => "derived"

def projectedContour (wcs : Wcs) (contour : Contour) : Option OverlayContour := do
  let points ← contour.vertices.mapM fun vertex => crates.worldToPixel wcs vertex.1 vertex.2
  let minimumPoints := if contour.closed then 3 else 2
  if minimumPoints ≤ points.length then some ⟨contour.closed, points⟩ else none

def projectedOutline (wcs : Wcs) (geometry : Geometry) : Option OverlayOutline :=
  match geometry.data with
  | .other => none
  | .outlineSet level contours =>
      let projected := contours.filterMap (projectedContour crates wcs)
      if projected.isEmpty then none
      else
        some ⟨geometry.id, geometry.sourceRecordId, geometryRoleName geometry.role,
          geometryQualityName geometry.quality, level, projected⟩

def projectedOutlines (catalog : ObjectCatalog) (canonicalId : String) (wcs : Wcs) :
    List OverlayOutline :=
  ((catalog.geometries canonicalId).getD []).filterMap (projectedOutline crates wcs)

/-- The candidate a placed object becomes, if its layer is wanted. -/
def candidateOf (options : AnnotationOptions) (requested : List (List Char))
    (captureTime : Option Time) (forceTransient : Bool) (placed : PlacedObject) :
    Option Candidate :=
  let transient := forceTransient || placed.object.kind = .transient
  let namedStar := placed.object.kind = .star || placed.object.kind = .doubleStar
  if (transient && !options.transients) || (namedStar && !options.namedStars) ||
      (!transient && !namedStar && !options.deepSky) then none
  else
    let discovered :=
      if transient then transientDiscoveryDate crates placed.object.commonName else none
    let nearCapture :=
      if transient then some (transientNearCapture crates discovered captureTime) else none
    if transient && nearCapture = some false && !options.historicalTransients then none
    else
      some
        { group := if transient then .transient else if namedStar then .namedStar else .deepSky
          requested := matchesRequest crates requested placed.object
          sizeUnknown := false
          placed := placed
          discovered := discovered
          nearCapture := nearCapture }

/-- A candidate is counted in its layer. -/
def countCandidate (totals : Layers ℕ) (candidate : Candidate) : Layers ℕ :=
  let counted := totals.add candidate.group.layer 1
  if candidate.group = .deepSky && isUnsized candidate.placed.object then
    counted.add "unsized_deep_sky" 1
  else counted

def overlayOf (catalog : ObjectCatalog) (wcs : Wcs) (forceTransient : Bool)
    (candidate : Candidate) : OverlayObject :=
  let object := candidate.placed.object
  let stableId := if object.metadata.id.isEmpty then none else some object.metadata.id
  { stableId := stableId
    name := object.name
    commonName := object.commonName
    kind := if forceTransient then "transient" else crates.kindText object.kind
    mag := object.mag
    x := candidate.placed.x
    y := candidate.placed.y
    semiMajorPx := candidate.placed.semiMajorPx
    semiMinorPx := candidate.placed.semiMinorPx
    angleDeg := candidate.placed.angleDeg
    source := some (if candidate.group = .transient then "transient" else "deep_sky")
    catalogSource := if object.metadata.source.isEmpty then none else some object.metadata.source
    aliases := object.metadata.aliases
    parentIds := object.metadata.parentIds
    alternateIds := object.metadata.alternateIds
    alternateSources := object.metadata.alternateSources
    raDeg := some object.ra
    decDeg := some object.dec
    discovered := candidate.discovered
    nearCapture := candidate.nearCapture
    distanceAu := none
    motionArcsecPerHour := none
    directionPaDeg := none
    directionAngleDeg := none
    outlines := (stableId.map fun id => projectedOutlines crates catalog id wcs).getD []
    sizeUnknown := candidate.sizeUnknown }

/-- The objects appended to the output, and the totals. -/
def appendObjectCatalog (output : List OverlayObject) (catalog : ObjectCatalog) (wcs : Wcs)
    (dimensions : Dimensions) (captureTime : Option Time) (options : AnnotationOptions)
    (forceTransient : Bool) : List OverlayObject × Layers ℕ :=
  match catalog.objectsInFootprint wcs dimensions with
  | .error _ => (output, .empty)
  | .ok placedObjects =>
      let wideField := fieldDiagonalDeg crates wcs dimensions > wideFieldDiagonalDeg
      let requested := requestedObjects crates options.requestedObjects
      let candidates := placedObjects.filterMap
        (candidateOf crates options requested captureTime forceTransient)
      (output ++ (selectForDisplay candidates options wideField).map
          (overlayOf crates catalog wcs forceTransient),
        candidates.foldl countCandidate .empty)

end Objects

/-! ## The other layers -/

section Layers

variable {Time : Type} (crates : Crates Time)

def pi : Float := 3.141592653589793
def toRadians (degrees : Float) : Float := degrees * (pi / 180)
def toDegrees (radians : Float) : Float := radians * (180 / pi)

/-- A marker without catalog data. -/
def marker (name commonName kind source : String) (mag : Option Float32) (place : Float × Float)
    (raDeg decDeg : Float) : OverlayObject where
  stableId := none
  name := name
  commonName := commonName
  kind := kind
  mag := mag
  x := place.1
  y := place.2
  semiMajorPx := 0
  semiMinorPx := 0
  angleDeg := some 0
  source := some source
  catalogSource := none
  aliases := []
  parentIds := []
  alternateIds := []
  alternateSources := []
  raDeg := some raDeg
  decDeg := some decDeg
  discovered := none
  nearCapture := none
  distanceAu := none
  motionArcsecPerHour := none
  directionPaDeg := none
  directionAngleDeg := none
  outlines := []
  sizeUnknown := false

/-- A star of the output stands where the label does. -/
def alreadyLabeled (output : List OverlayObject) (label : StarLabel) : Bool :=
  output.any fun object =>
    (object.kind = "star" || object.kind = "double-star") &&
      match object.raDeg, object.decDeg with
      | some ra, some dec => crates.angularSeparationDeg ra dec label.ra label.dec ≤ 3 / 3600
      | _, _ => false

def appendLabels (wcs : Wcs) (most : ℕ) :
    ℕ → List OverlayObject → List StarLabel → List OverlayObject
  | _, output, [] => output
  | added, output, label :: rest =>
      if alreadyLabeled crates output label then appendLabels wcs most added output rest
      else
        match crates.worldToPixel wcs label.ra label.dec with
        | none => appendLabels wcs most added output rest
        | some place =>
            let pushed := output ++ [marker label.designation label.detail "identified-star"
              ("star_identifiers:" ++ label.catalog) label.mag place label.ra label.dec]
            if most ≤ added + 1 then pushed else appendLabels wcs most (added + 1) pushed rest

def appendStarIdentifierCatalog (output : List OverlayObject) (catalog : StarIdentifierLayer)
    (wcs : Wcs) (dimensions : Dimensions) (options : AnnotationOptions) : List OverlayObject :=
  appendLabels crates wcs options.maxStarIdentifiers 0 output
    (catalog.labelsInFootprint wcs dimensions options.starIdentifierMagLimit
      (min (options.maxStarIdentifiers * 8) (2 ^ 64 - 1)))

def appendStars (wcs : Wcs) (dimensions : Dimensions) (magLimit : Float32) (limit : ℕ) :
    ℕ → List OverlayObject → List Star → List OverlayObject
  | _, output, [] => output
  | count, output, star :: rest =>
      if star.mag > magLimit then appendStars wcs dimensions magLimit limit count output rest
      else
        match crates.worldToPixel wcs star.ra star.dec with
        | none => appendStars wcs dimensions magLimit limit count output rest
        | some (x, y) =>
            if x < 0 || y < 0 || x ≥ dimensions.1.toFloat || y ≥ dimensions.2.toFloat then
              appendStars wcs dimensions magLimit limit count output rest
            else
              let pushed := output ++ [marker "" "" "field-star" "star_catalog" (some star.mag)
                (x, y) star.ra star.dec]
              if limit ≤ count + 1 then pushed
              else appendStars wcs dimensions magLimit limit (count + 1) pushed rest

def appendFieldStars (output : List OverlayObject) (catalog : Option TileCatalog) (wcs : Wcs)
    (dimensions : Dimensions) (options : AnnotationOptions) : List OverlayObject :=
  match catalog with
  | none => output
  | some catalog =>
      let center := crates.pixelToWorld wcs (dimensions.1.toFloat / 2) (dimensions.2.toFloat / 2)
      let radius := ((crates.footprint wcs dimensions.1 dimensions.2).map fun point =>
        crates.angularSeparationDeg center.1 center.2 point.1 point.2).foldl maxNumber 0 * 1.05
      let limit := min (max options.maxFieldStars 1) 2000
      appendStars crates wcs dimensions options.fieldStarMagLimit limit 0 output
        (catalog.coneSearch center.1 center.2 radius (limit * 3))

def directionImageAngle (wcs : Wcs) (ra dec paDeg : Float) : Option Float := do
  let (x, y) ← crates.worldToPixel wcs ra dec
  let epsilon := 1 / 60
  let north ← crates.worldToPixel wcs ra (-maxNumber (-(dec + epsilon)) (-90))
  let east ← crates.worldToPixel wcs
    (ra + epsilon / maxNumber (toRadians dec).cos.abs 1e-6) dec
  let normalize := fun (point : Float × Float) =>
    let vector := (point.1 - x, point.2 - y)
    let length := maxNumber (crates.hypot vector.1 vector.2) 1e-12
    (vector.1 / length, vector.2 / length)
  let north := normalize north
  let east := normalize east
  let sin := (toRadians paDeg).sin
  let cos := (toRadians paDeg).cos
  some (toDegrees ((north.2 * cos + east.2 * sin).atan2 (north.1 * cos + east.1 * sin)))

def bodyOverlay (wcs : Wcs) (placed : PlacedBody) : OverlayObject :=
  let text := "V~" ++ crates.fixed 1 placed.mag ++ ", " ++ crates.fixed 2 placed.deltaAu ++ " AU"
  let kind := match placed.kind with
    | .comet => "comet"
    | .asteroid => "asteroid"
  { marker placed.name text kind "minor_body" (some placed.mag.toFloat32) (placed.x, placed.y)
      placed.ra placed.dec with
    nearCapture := some true
    distanceAu := some placed.deltaAu
    motionArcsecPerHour := placed.motionArcsecPerHour
    directionPaDeg := placed.directionPaDeg
    directionAngleDeg := placed.directionPaDeg.bind fun angle =>
      directionImageAngle crates wcs placed.ra placed.dec angle }

/-- The bodies appended, brightest first, and how many are in the field. -/
def appendMinorBodies (output : List OverlayObject) (totals : Layers ℕ)
    (catalog : MinorBodyCatalog) (wcs : Wcs) (dimensions : Dimensions) (captureTime : Time)
    (limit : ℕ) : List OverlayObject × Layers ℕ :=
  let jd := 2440587.5 + crates.timestampMillis captureTime / 86400000
  let placedBodies := catalog.objectsInFootprint wcs dimensions jd 18
  let brightest := (RankedLists.rank (fun placed => totalKey placed.mag) placedBodies).take limit
  (output ++ brightest.map (bodyOverlay crates wcs),
    totals.insert "minor_bodies" placedBodies.length)

def projectConstellations (wcs : Wcs) (dimensions : Dimensions) : List ConstellationResponse :=
  let round := fun (point : Float × Float) =>
    ((point.1 * 10).round / 10, (point.2 * 10).round / 10)
  (crates.projectFigures wcs dimensions).map fun figure =>
    { abbreviation := figure.abbr
      name := figure.name
      lines := figure.polylines.map fun line => line.map round
      label := figure.label.map round }

end Layers

/-! ## Moving back -/

def shiftPoint (offset point : Float × Float) : Float × Float :=
  (point.1 + offset.1, point.2 + offset.2)

def shiftContour (offset : Float × Float) (contour : OverlayContour) : OverlayContour :=
  { contour with points := contour.points.map (shiftPoint offset) }

def shiftOutline (offset : Float × Float) (outline : OverlayOutline) : OverlayOutline :=
  { outline with contours := outline.contours.map (shiftContour offset) }

def shiftObject (offset : Float × Float) (object : OverlayObject) : OverlayObject :=
  { object with
    x := object.x + offset.1
    y := object.y + offset.2
    outlines := object.outlines.map (shiftOutline offset) }

def shiftConstellation (offset : Float × Float) (figure : ConstellationResponse) :
    ConstellationResponse :=
  { figure with
    lines := figure.lines.map fun line => line.map (shiftPoint offset)
    label := figure.label.map (shiftPoint offset) }

def shiftToImage (objects : List OverlayObject) (constellations : List ConstellationResponse)
    (offset : Float × Float) : List OverlayObject × List ConstellationResponse :=
  if offset.1 == 0 && offset.2 == 0 then (objects, constellations)
  else (objects.map (shiftObject offset), constellations.map (shiftConstellation offset))

/-! ## The engine -/

/-- The catalogs that are configured, each with what `current` returns. -/
structure AnnotationEngine where
  stars : Option TileCatalog
  starVersion : Option String
  objects : Option (Option (ObjectCatalog × String))
  starIdentifiers : Option (Option (StarIdentifierLayer × String))
  transients : Option (Option (ObjectCatalog × String))
  minorBodies : Option (Option (MinorBodyCatalog × String))

/-- What is gathered from the catalogs one after another. -/
structure Gathered where
  objects : List OverlayObject
  versions : List String
  totals : Layers ℕ
  available : Layers Bool

def layerName (kind : String) : String :=
  if kind = "identified-star" then "star_identifiers"
  else if kind = "field-star" then "field_stars"
  else if kind = "star" || kind = "double-star" then "named_stars"
  else if kind = "transient" then "transients"
  else if kind = "comet" || kind = "asteroid" then "minor_bodies"
  else "deep_sky"

namespace AnnotationEngine

variable {Time : Type} (crates : Crates Time) (engine : AnnotationEngine)

def isConfigured : Bool :=
  engine.objects.isSome || engine.starIdentifiers.isSome || engine.transients.isSome ||
    engine.minorBodies.isSome

def start : Gathered where
  objects := []
  versions := engine.starVersion.toList.map fun version => "stars:" ++ version
  totals := .empty
  available := .ofList [("deep_sky", false), ("named_stars", false), ("star_identifiers", false),
    ("field_stars", engine.stars.isSome), ("transients", false),
    ("historical_transients", false), ("minor_bodies", false), ("satellite_tracks", false),
    ("grid", true), ("constellations", true)]

def gatherObjects (wcs : Wcs) (dimensions : Dimensions) (captureTime : Option Time)
    (options : AnnotationOptions) (found : Gathered) : Gathered :=
  match engine.objects.join with
  | none => found
  | some (catalog, version) =>
      let (objects, totals) := appendObjectCatalog crates found.objects catalog wcs dimensions
        captureTime options false
      { objects := objects
        versions := found.versions ++ ["objects:" ++ version]
        totals := found.totals.merge totals
        available := (found.available.insert "deep_sky" true).insert "named_stars" true }

def gatherStarIdentifiers (wcs : Wcs) (dimensions : Dimensions) (options : AnnotationOptions)
    (found : Gathered) : Gathered :=
  match engine.starIdentifiers.join with
  | none => found
  | some (catalog, version) =>
      { found with
        objects :=
          if options.starIdentifiers then
            appendStarIdentifierCatalog crates found.objects catalog wcs dimensions options
          else found.objects
        versions := found.versions ++ ["star-identifiers:" ++ version]
        available := found.available.insert "star_identifiers" true }

def gatherTransients (wcs : Wcs) (dimensions : Dimensions) (captureTime : Option Time)
    (options : AnnotationOptions) (found : Gathered) : Gathered :=
  match engine.transients.join with
  | none => found
  | some (catalog, version) =>
      let listed :=
        { found with
          versions := found.versions ++ ["transients:" ++ version]
          available := (found.available.insert "transients" true).insert
            "historical_transients" true }
      if options.transients then
        let (objects, totals) := appendObjectCatalog crates found.objects catalog wcs dimensions
          captureTime options true
        { listed with objects := objects, totals := found.totals.merge totals }
      else listed

def gatherFieldStars (wcs : Wcs) (dimensions : Dimensions) (options : AnnotationOptions)
    (found : Gathered) : Gathered :=
  if options.fieldStars then
    { found with
      objects := appendFieldStars crates found.objects engine.stars wcs dimensions options }
  else found

def gatherMinorBodies (wcs : Wcs) (dimensions : Dimensions) (captureTime : Option Time)
    (options : AnnotationOptions) (found : Gathered) : Gathered :=
  match engine.minorBodies.join with
  | none => found
  | some (catalog, version) =>
      let listed := { found with versions := found.versions ++ ["minor-bodies:" ++ version] }
      match captureTime with
      | none => listed
      | some captureTime =>
          if options.minorBodies then
            let (objects, totals) := appendMinorBodies crates found.objects found.totals catalog
              wcs dimensions captureTime options.maxMinorBodies
            { listed with
              objects := objects
              totals := totals
              available := found.available.insert "minor_bodies" true }
          else listed

/-- Everything in the picture's own frame. -/
def gather (wcs : Wcs) (dimensions : Dimensions) (captureTime : Option Time)
    (options : AnnotationOptions) : Gathered :=
  engine.gatherMinorBodies crates wcs dimensions captureTime options
    (engine.gatherFieldStars crates wcs dimensions options
      (engine.gatherTransients crates wcs dimensions captureTime options
        (engine.gatherStarIdentifiers crates wcs dimensions options
          (engine.gatherObjects crates wcs dimensions captureTime options engine.start))))

/-- One object in the flags and the counts. -/
def tallyObject (tally : Layers Bool × Layers ℕ) (object : OverlayObject) :
    Layers Bool × Layers ℕ :=
  -- Objects of unknown size have their own count.
  if object.sizeUnknown then (tally.1, tally.2.add "unsized_deep_sky" 1)
  else
    let counts := tally.2.add (layerName object.kind) 1
    (tally.1.insert (layerName object.kind) true,
      if object.kind = "transient" && object.nearCapture = some false then
        counts.add "historical_transients" 1
      else counts)

def tally (options : AnnotationOptions) (available : Layers Bool) (objects : List OverlayObject) :
    Layers Bool × Layers ℕ :=
  let counts : Layers ℕ := .ofList [("deep_sky", 0), ("named_stars", 0), ("star_identifiers", 0),
    ("field_stars", 0), ("transients", 0), ("historical_transients", 0), ("minor_bodies", 0),
    ("satellite_tracks", 0)]
  let deepSky := (available.find? "deep_sky").elim false Prod.snd
  let begun :=
    if options.unsizedDeepSky then
      (available.insert "unsized_deep_sky" deepSky, counts.insert "unsized_deep_sky" 0)
    else (available, counts)
  objects.foldl tallyObject begun

/-- The response once all objects are in the image's frame. -/
def respond (jobId : String) (captureTime : Option Time) (options : AnnotationOptions)
    (found : Gathered) (objects : List OverlayObject)
    (constellations : List ConstellationResponse) : AnnotationResponse Time :=
  let tallied := tally options found.available objects
  { jobId := jobId
    catalogVersion :=
      if found.versions.isEmpty then "unconfigured" else String.intercalate ";" found.versions
    captureTime := captureTime
    available := tallied.1
    counts := tallied.2.insert "constellations" constellations.length
    totals := found.totals
    objects := objects
    constellations := constellations
    constellationAttribution :=
      if constellations.isEmpty then none else some crates.figureAttribution }

def annotate (jobId : String) (solution : SolutionResponse Time) (captureTime : Option Time)
    (options : AnnotationOptions) : AnnotationResponse Time :=
  let framed := frame crates solution
  let found := engine.gather crates framed.1 framed.2.1 captureTime options
  let figures :=
    if options.constellations then projectConstellations crates framed.1 framed.2.1 else []
  let shifted := shiftToImage found.objects figures framed.2.2
  -- Without catalogs, the solution's own objects stand in.
  let objects := if engine.isConfigured then shifted.1 else solution.objects ++ shifted.1
  respond crates jobId captureTime options found objects shifted.2

end AnnotationEngine

/-! ## Cropping -/

/-- The solution of the picture inside a region. -/
def cropped {Time : Type} (solution : SolutionResponse Time) (region : ContentRegion) :
    SolutionResponse Time :=
  { solution with
    imageWidth := region.width
    imageHeight := region.height
    wcs := { solution.wcs with
      crpix := (solution.wcs.crpix.1 - region.x.toFloat, solution.wcs.crpix.2 - region.y.toFloat) }
    contentRegion := none }

/-- A point of the picture, as a point of the image. -/
def translate (x y : UInt32) (point : Float × Float) : Float × Float :=
  if x = 0 ∧ y = 0 then point else (point.1 + x.toFloat, point.2 + y.toFloat)

/-- Every coordinate of an object is translated, and nothing else. -/
structure ObjectTranslated (x y : UInt32) (before after : OverlayObject) : Prop where
  place : (after.x, after.y) = translate x y (before.x, before.y)
  outlines : after.outlines = before.outlines.map fun outline =>
    { outline with contours := outline.contours.map fun contour =>
        { contour with points := contour.points.map (translate x y) } }
  others : { after with x := before.x, y := before.y, outlines := before.outlines } = before

structure FigureTranslated (x y : UInt32) (before after : ConstellationResponse) : Prop where
  lines : after.lines = before.lines.map fun line => line.map (translate x y)
  label : after.label = before.label.map (translate x y)
  others : { after with lines := before.lines, label := before.label } = before

section Moving

variable {x y : UInt32}

theorem shiftPoint_eq_translate (hmoved : ¬ (x = 0 ∧ y = 0)) :
    shiftPoint (x.toFloat, y.toFloat) = translate x y := by
  funext point
  unfold shiftPoint translate
  rw [if_neg hmoved]

theorem translate_zero (hzero : x = 0 ∧ y = 0) : translate x y = id := by
  funext point
  exact if_pos hzero

theorem objectTranslated_shiftObject (hmoved : ¬ (x = 0 ∧ y = 0)) (object : OverlayObject) :
    ObjectTranslated x y object (shiftObject (x.toFloat, y.toFloat) object) := by
  have hpoint := shiftPoint_eq_translate hmoved
  constructor
  · exact congrFun hpoint (object.x, object.y)
  · unfold shiftObject shiftOutline shiftContour
    dsimp only
    rw [hpoint]
  · rfl

theorem figureTranslated_shiftConstellation (hmoved : ¬ (x = 0 ∧ y = 0))
    (figure : ConstellationResponse) :
    FigureTranslated x y figure (shiftConstellation (x.toFloat, y.toFloat) figure) := by
  have hpoint := shiftPoint_eq_translate hmoved
  constructor
  · unfold shiftConstellation
    dsimp only
    rw [hpoint]
  · unfold shiftConstellation
    dsimp only
    rw [hpoint]
  · rfl

theorem objectTranslated_zero (hzero : x = 0 ∧ y = 0) (object : OverlayObject) :
    ObjectTranslated x y object object := by
  have hpoint := translate_zero hzero
  constructor
  · rw [hpoint]
    rfl
  · rw [hpoint]
    simp only [List.map_id, List.map_id']
  · rfl

theorem figureTranslated_zero (hzero : x = 0 ∧ y = 0) (figure : ConstellationResponse) :
    FigureTranslated x y figure figure := by
  have hpoint := translate_zero hzero
  constructor
  · rw [hpoint]
    simp only [List.map_id, List.map_id']
  · rw [hpoint, Option.map_id]
    rfl
  · rfl

/-- `shift_to_image` translates every coordinate by the corner of the region. -/
theorem shiftToImage_translated (objects : List OverlayObject)
    (constellations : List ConstellationResponse) :
    List.Forall₂ (ObjectTranslated x y) objects
        (shiftToImage objects constellations (x.toFloat, y.toFloat)).1 ∧
      List.Forall₂ (FigureTranslated x y) constellations
        (shiftToImage objects constellations (x.toFloat, y.toFloat)).2 := by
  unfold shiftToImage
  rw [Binary64.ofUInt32_beq_zero, Binary64.ofUInt32_beq_zero]
  by_cases hzero : x = 0 ∧ y = 0
  · rw [if_pos (by rw [decide_eq_true hzero.1, decide_eq_true hzero.2]; rfl)]
    exact ⟨List.forall₂_same.mpr fun object _ => objectTranslated_zero hzero object,
      List.forall₂_same.mpr fun figure _ => figureTranslated_zero hzero figure⟩
  · have hmoved : ¬ (decide (x = 0) && decide (y = 0)) = true := by
      rw [Bool.and_eq_true, decide_eq_true_iff, decide_eq_true_iff]
      exact hzero
    rw [if_neg hmoved]
    exact ⟨List.forall₂_map_right_iff.mpr (List.forall₂_same.mpr fun object _ =>
        objectTranslated_shiftObject hzero object),
      List.forall₂_map_right_iff.mpr (List.forall₂_same.mpr fun figure _ =>
        figureTranslated_shiftConstellation hzero figure)⟩

/-- Flags and counts do not look at coordinates. -/
theorem tallyObject_translated {before after : OverlayObject}
    (htranslated : ObjectTranslated x y before after) (tally : Layers Bool × Layers ℕ) :
    AnnotationEngine.tallyObject tally after = AnnotationEngine.tallyObject tally before := by
  have hothers := htranslated.others
  have hkind := congrArg OverlayObject.kind hothers
  have hnear := congrArg OverlayObject.nearCapture hothers
  have hsize := congrArg OverlayObject.sizeUnknown hothers
  dsimp only at hkind hnear hsize
  unfold AnnotationEngine.tallyObject
  rw [hkind, hnear, hsize]

theorem foldl_tallyObject_translated {before after : List OverlayObject}
    (htranslated : List.Forall₂ (ObjectTranslated x y) before after)
    (tally : Layers Bool × Layers ℕ) :
    after.foldl AnnotationEngine.tallyObject tally =
      before.foldl AnnotationEngine.tallyObject tally := by
  induction htranslated generalizing tally with
  | nil => rfl
  | cons hfirst _ ih => rw [List.foldl_cons, List.foldl_cons, tallyObject_translated hfirst, ih]

theorem tally_translated {before after : List OverlayObject} (own : List OverlayObject)
    (htranslated : List.Forall₂ (ObjectTranslated x y) before after)
    (options : AnnotationOptions) (available : Layers Bool) :
    AnnotationEngine.tally options available (own ++ after) =
      AnnotationEngine.tally options available (own ++ before) := by
  unfold AnnotationEngine.tally
  dsimp only
  rw [List.foldl_append, List.foldl_append, foldl_tallyObject_translated htranslated]

end Moving

/-- A region and the cropped picture are gathered in one frame. -/
theorem frame_region {Time : Type} (crates : Crates Time) {solution : SolutionResponse Time}
    {region : ContentRegion} (hregion : solution.contentRegion = some region) :
    frame crates solution = ((frame crates (cropped solution region)).1,
        (frame crates (cropped solution region)).2.1, region.x.toFloat, region.y.toFloat) ∧
      (frame crates (cropped solution region)).2.2 = (0, 0) := by
  unfold frame cropped
  rw [hregion]
  exact ⟨rfl, rfl⟩

/-- The annotation of a region is that of the cropped picture, moved to its
place; the solution's own objects stay where they are. -/
theorem annotate_region {Time : Type} (crates : Crates Time) (engine : AnnotationEngine)
    (jobId : String) (solution : SolutionResponse Time) (captureTime : Option Time)
    (options : AnnotationOptions) (region : ContentRegion)
    (hregion : solution.contentRegion = some region) :
    let inside := engine.annotate crates jobId (cropped solution region) captureTime options
    let whole := engine.annotate crates jobId solution captureTime options
    (engine.isConfigured = true →
      List.Forall₂ (ObjectTranslated region.x region.y) inside.objects whole.objects) ∧
    (engine.isConfigured = false → ∃ before after,
      inside.objects = solution.objects ++ before ∧ whole.objects = solution.objects ++ after ∧
        List.Forall₂ (ObjectTranslated region.x region.y) before after) ∧
    List.Forall₂ (FigureTranslated region.x region.y) inside.constellations
      whole.constellations ∧
    { whole with objects := inside.objects, constellations := inside.constellations } =
      inside := by
  intro inside whole
  obtain ⟨hframe, hcorner⟩ := frame_region crates hregion
  let wcs := (frame crates (cropped solution region)).1
  let dimensions := (frame crates (cropped solution region)).2.1
  let found := engine.gather crates wcs dimensions captureTime options
  let figures :=
    if options.constellations then projectConstellations crates wcs dimensions else []
  let shifted := shiftToImage found.objects figures (region.x.toFloat, region.y.toFloat)
  let own := if engine.isConfigured then [] else solution.objects
  have hown : ∀ placed : List OverlayObject,
      (if engine.isConfigured then placed else solution.objects ++ placed) = own ++ placed := by
    intro placed
    dsimp only [own]
    split_ifs
    · rfl
    · rfl
  have hstill : shiftToImage found.objects figures (0, 0) = (found.objects, figures) := by
    unfold shiftToImage
    rw [if_pos (by decide)]
  have hinside : inside = AnnotationEngine.respond crates jobId captureTime options found
      (own ++ found.objects) figures := by
    dsimp only [inside, AnnotationEngine.annotate]
    rw [hcorner, hstill, ← hown]
    rfl
  have hwhole : whole = AnnotationEngine.respond crates jobId captureTime options found
      (own ++ shifted.1) shifted.2 := by
    dsimp only [whole, AnnotationEngine.annotate]
    rw [hframe, ← hown]
  obtain ⟨hobjects, hfigures⟩ := @shiftToImage_translated region.x region.y found.objects figures
  have hlength : shifted.2.length = figures.length := hfigures.length_eq.symm
  have hempty : shifted.2.isEmpty = figures.isEmpty := by
    rw [Bool.eq_iff_iff, List.isEmpty_iff_length_eq_zero, List.isEmpty_iff_length_eq_zero, hlength]
  rw [hinside, hwhole]
  refine ⟨?_, ?_, hfigures, ?_⟩
  · intro hconfigured
    have hnone : own = [] := if_pos hconfigured
    rw [hnone]
    exact hobjects
  · intro hbare
    have hall : own = solution.objects := if_neg (by rw [hbare]; exact Bool.false_ne_true)
    rw [hall]
    exact ⟨found.objects, shifted.1, rfl, rfl, hobjects⟩
  · unfold AnnotationEngine.respond
    dsimp only
    rw [tally_translated own hobjects, hlength, hempty]

/-- A solution of an image of ten by ten pixels with a region. -/
def barredSolution : SolutionResponse Unit where
  centerRaDeg := 10
  centerDecDeg := 20
  pixelScaleArcsecPerPixel := 1
  matchedStars := 8
  rmsArcsec := 1
  imageWidth := 10
  imageHeight := 10
  wcs := ⟨(10, 20), (5, 5), ((1, 0), 0, 1), ("RA---TAN", "DEC--TAN"), ("deg", "deg"), "ICRS",
    2000, none⟩
  footprint := zeroFootprint
  objects := []
  catalogVersion := none
  captureTime := none
  statistics := none
  pixelCoordinates := none
  contentRegion := some ⟨0, 2, 10, 8⟩

def bareEngine : AnnotationEngine where
  stars := none
  starVersion := none
  objects := none
  starIdentifiers := none
  transients := none
  minorBodies := none

/-- A plane seen straight on. -/
def planeCrates : Crates Unit where
  worldToPixel := fun wcs ra dec =>
    some (ra - wcs.crval.1 + wcs.crpix.1, dec - wcs.crval.2 + wcs.crpix.2)
  pixelToWorld := fun wcs x y => (x - wcs.crpix.1 + wcs.crval.1, y - wcs.crpix.2 + wcs.crval.2)
  footprint := fun _ _ _ => []
  scaleArcsecPerPx := fun _ => 3600
  forwardTerms := fun _ => []
  inverseTerms := fun _ => []
  projectFigures := fun wcs _ => [⟨"Tst", "Test", [[wcs.crpix]], some wcs.crpix⟩]
  angularSeparationDeg := fun ra dec otherRa otherDec => (ra - otherRa).abs + (dec - otherDec).abs
  hypot := fun width height => (width * width + height * height).sqrt
  kindText := fun _ => "other"
  fixed := fun _ _ => ""
  lowercase := fun c => [c.toLower]
  fromYmd := fun _ _ _ => none
  dateText := fun _ => ""
  parseDate := fun _ => none
  dateOf := fun _ => 0
  timestampMillis := fun _ => 0
  figureAttribution := "figures"

/-- A galaxy with an outline. -/
def galaxyCatalog : ObjectCatalog where
  objectsInFootprint := fun _ _ =>
    let placed :=
      (catalogCandidate .deepSky false .galaxy "M 31" "Andromeda Galaxy" (some 3) 80).placed
    .ok [{ placed with
      object := { placed.object with metadata := ⟨"m31", "messier", [], [], [], []⟩ } }]
  geometries := fun _ =>
    some [⟨"m31-d25", "m31", .catalogExtent, .catalog,
      .outlineSet none [⟨true, [(9, 19), (11, 19), (10, 21)]⟩]⟩]

def galaxyEngine : AnnotationEngine :=
  { bareEngine with objects := some (some (galaxyCatalog, "1")) }

def galaxyOptions : AnnotationOptions :=
  { AnnotationOptions.default with constellations := true, requestedObjects := ["M31"] }

/-- One object, with its outline, and one figure. -/
theorem annotate_region_galaxy :
    let inside := galaxyEngine.annotate planeCrates "job" (cropped barredSolution ⟨0, 2, 10, 8⟩)
      none galaxyOptions
    let whole := galaxyEngine.annotate planeCrates "job" barredSolution none galaxyOptions
    (inside.objects.map fun object => object.outlines.length) = [1] ∧
      inside.constellations.length = 1 ∧
      List.Forall₂ (ObjectTranslated 0 2) inside.objects whole.objects ∧
      List.Forall₂ (FigureTranslated 0 2) inside.constellations whole.constellations := by
  intro inside whole
  have hregion := annotate_region planeCrates galaxyEngine "job" barredSolution none galaxyOptions
    ⟨0, 2, 10, 8⟩ rfl
  exact ⟨by decide +kernel, by decide +kernel, hregion.1 rfl, hregion.2.2.1⟩

end SeizaServer.Annotations
