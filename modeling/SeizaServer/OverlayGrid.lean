import SeizaServer.ObjectOverlay

/-!
# The coordinate grid

`render_grid` over any kind of number.  Its two loops run on fuel; the panic of
a clamp and the end of the fuel are different failures.
-/

namespace SeizaServer.Overlay

open Solver

/-- The two methods of the coordinate system of the solver. -/
structure Wcs (K : Type) where
  pixelToWorld : K → K → K × K
  worldToPixel : K → K → Option (K × K)

inductive Failure where
  | panicked
  | outOfFuel

structure GridMarkup where
  lines : List Char
  labels : List Char

inductive GridAxis where
  | ra | dec

structure GridGeometry (K : Type) where
  width : K
  height : K
  fontSize : K

/-- `String::len`. -/
def byteLength (text : List Char) : ℕ :=
  (text.map Char.utf8Size).sum

section Loops

variable {K : Type} [Add K] {State : Type}

/-- A loop over the multiples of a step, as long as a condition holds. -/
def sweep (more : K → State → Bool) (body : K → State → Option State) (step : K) :
    ℕ → K → State → Except Failure State
  | 0, _, _ => .error .outOfFuel
  | fuel + 1, position, state =>
      if more position state then
        match body position state with
        | some next => sweep more body step fuel (position + step) next
        | none => .error .panicked
      else .ok state

end Loops

variable {K : Type} [Add K] [Sub K] [Mul K] [Div K] [Neg K] [Min K] [Max K] [LE K] [DecidableLE K]
  [LT K] [DecidableLT K] [OfScientific K] [NatCast K]

variable (numbers : NumberText K) (floats : FloatFunctions K)

def normalizeRa (ra : K) : K :=
  floats.remEuclid ra 360.0

def unwrapRa (ra centerRa : K) : K :=
  centerRa + floats.remEuclid (ra - centerRa + 540.0) 360.0 - 180.0

/-- The least and the greatest right ascension and declination on a lattice of
81 points. -/
def skyBounds (wcs : Wcs K) (width height : K) : K × K × K × K :=
  let centerRa := (wcs.pixelToWorld (width / 2.0) (height / 2.0)).1
  let points := (List.range 9).flatMap fun xIndex => (List.range 9).map fun yIndex =>
    let (ra, dec) := wcs.pixelToWorld (width * (xIndex : K) / 8.0) (height * (yIndex : K) / 8.0)
    (unwrapRa floats ra centerRa, dec)
  let ras := points.map Prod.fst
  let decs := points.map Prod.snd
  (ras.min?.getD 0.0, ras.max?.getD 0.0, decs.min?.getD 0.0, decs.max?.getD 0.0)

/-- The samples of a curve; a projection may panic. -/
def sampleCurve (samples : ℕ) (start stop : K) (project : K → Option (Option (K × K))) :
    Option (List (Option (K × K))) :=
  (List.range (samples + 1)).mapM fun index =>
    (project (start + (stop - start) * (index : K) / (samples : K))).map
      (Option.filter fun point => floats.isFinite point.1 && floats.isFinite point.2)

def clampOrCenter (value minimum maximum center : K) : Option K :=
  if minimum ≤ maximum then clamp value minimum maximum else some center

def gridLabelFontSize (width displayScale : K) : K :=
  let displayWidth := width * displayScale
  max (min (max (displayWidth / 60.0) 18.0) (displayWidth / 18.0)) 6.0 / displayScale

def gridSteps : List K :=
  [ 1.0 / 3600.0, 2.0 / 3600.0, 5.0 / 3600.0, 10.0 / 3600.0, 15.0 / 3600.0, 30.0 / 3600.0,
    1.0 / 60.0, 2.0 / 60.0, 5.0 / 60.0, 10.0 / 60.0, 15.0 / 60.0, 30.0 / 60.0, 1.0, 2.0, 5.0, 10.0,
    15.0, 30.0, 45.0, 90.0 ]

def niceGridStep (targetDegrees : K) : K :=
  (gridSteps.find? fun step => targetDegrees ≤ step).getD 90.0

/-- `{:02}`. -/
def twoDigits (value : ℕ) : List Char :=
  (Nat.toDigits 10 value).leftpad 2 '0'

def formatRa (raDegrees : K) : List Char :=
  let totalTenths :=
    floats.toU64 (floats.round (normalizeRa floats raDegrees / 15.0 * 36000.0)) % 864000
  let seconds := totalTenths % 600
  "RA ".toList ++ twoDigits (totalTenths / 36000) ++ "h".toList ++
    twoDigits (totalTenths % 36000 / 600) ++ "m".toList ++ twoDigits (seconds / 10) ++ ".".toList ++
    Nat.toDigits 10 (seconds % 10) ++ "s".toList

def formatDec (decDegrees : K) : List Char :=
  let sign := if floats.isSignNegative decDegrees then "−" else "+"
  let totalTenths := floats.toU64 (floats.round (floats.abs decDegrees * 36000.0))
  let seconds := totalTenths % 600
  "Dec ".toList ++ sign.toList ++ twoDigits (totalTenths / 36000) ++ "°".toList ++
    twoDigits (totalTenths % 36000 / 600) ++ "′".toList ++ twoDigits (seconds / 10) ++ ".".toList ++
    Nat.toDigits 10 (seconds % 10) ++ "″".toList

/-- The path of a curve and its points inside the frame, sample by sample. -/
structure CurveTrace (K : Type) where
  path : List Char
  penDown : Bool
  pointsInFrame : List (K × K)

def traceSample (geometry : GridGeometry K) (trace : CurveTrace K) (sample : Option (K × K)) :
    CurveTrace K :=
  match sample with
  | none => { trace with penDown := false }
  | some (x, y) =>
      if x < -4.0 * geometry.width || 5.0 * geometry.width < x || y < -4.0 * geometry.height ||
          5.0 * geometry.height < y then
        { trace with penDown := false }
      else
        let command := if trace.penDown then "L" else "M"
        { path := trace.path ++ command.toList ++ numbers.fixed 2 x ++ ",".toList ++
            numbers.fixed 2 y ++ " ".toList
          penDown := true
          pointsInFrame :=
            if 4.0 ≤ x && x ≤ geometry.width - 4.0 && 4.0 ≤ y && y ≤ geometry.height - 4.0 then
              trace.pointsInFrame ++ [(x, y)]
            else trace.pointsInFrame }

/-- `Iterator::min_by`: the first of the least points. -/
def leastBy (key : K × K → K) (first : K × K) (rest : List (K × K)) : K × K :=
  rest.foldl (fun best point => if key point < key best then point else best) first

/-- The place of a label and its anchor. -/
def labelPlace (label : List Char) (axis : GridAxis) (geometry : GridGeometry K) (point : K × K) :
    Option (K × K × String) :=
  let fontSize := geometry.fontSize
  let padding := max (fontSize * 0.45) 6.0
  let labelWidth := (label.length : K) * fontSize * 0.7
  let minimumBaseline := padding + fontSize * 1.08
  let maximumBaseline := geometry.height - padding - fontSize * 0.25
  match axis with
  | .ra => do
      let y ← clampOrCenter (point.2 + fontSize * 1.35) minimumBaseline maximumBaseline
        (geometry.height / 2.0)
      let x ← clampOrCenter point.1 (padding + labelWidth / 2.0)
        (geometry.width - padding - labelWidth / 2.0) (geometry.width / 2.0)
      return (x, y, "middle")
  | .dec => do
      let y ← clampOrCenter (point.2 - padding) minimumBaseline maximumBaseline
        (geometry.height / 2.0)
      let x ← clampOrCenter (point.1 + padding) padding (geometry.width - padding - labelWidth)
        (geometry.width / 2.0)
      return (x, y, if labelWidth + padding * 2.0 ≤ geometry.width then "start" else "middle")

def renderGridCurve (output : GridMarkup) (samples : List (Option (K × K))) (label : List Char)
    (axis : GridAxis) (geometry : GridGeometry K) : Option GridMarkup :=
  let trace := samples.foldl (traceSample numbers geometry) ⟨[], false, []⟩
  match trace.pointsInFrame with
  | [] => some output
  | first :: rest =>
      if trace.path.countP (fun c => c = 'M' || c = 'L') < 2 then some output
      else
        let key : K × K → K := match axis with
          | .ra => Prod.snd
          | .dec => Prod.fst
        (labelPlace label axis geometry (leastBy key first rest)).map fun (x, y, anchor) =>
          { lines := output.lines ++ emptyTag "path" [("class", "grid-line".toList), ("d", trace.path)]
            labels := output.labels ++ textTag "text"
              [ ("class", "grid-label".toList), ("x", numbers.fixed 2 x),
                ("y", numbers.fixed 2 y), ("text-anchor", anchor.toList) ] label }

/-- A point of the sky on the image, its declination kept off the poles. -/
def projectClamped (wcs : Wcs K) (ra dec : K) : Option (Option (K × K)) :=
  (clamp dec (-89.999999) 89.999999).map fun dec => wcs.worldToPixel (normalizeRa floats ra) dec

/-- The bounds, the steps and the geometry of a grid. -/
structure GridPlan (K : Type) where
  raMin : K
  raMax : K
  decMin : K
  decMax : K
  raStep : K
  decStep : K
  geometry : GridGeometry K

def gridPlan (wcs : Wcs K) (width height centerDecDeg pixelScale displayScale : K) : GridPlan K :=
  let (raMin, raMax, decMin, decMax) := skyBounds floats wcs width height
  let centerDecCos := max (floats.abs (floats.cos (floats.toRadians centerDecDeg))) 0.05
  let angularSpan :=
    max (max (decMax - decMin) ((raMax - raMin) * centerDecCos)) (pixelScale / 3600.0)
  { raMin, raMax, decMin, decMax
    decStep := niceGridStep (angularSpan / 5.0)
    raStep := niceGridStep (angularSpan / centerDecCos / 5.0)
    geometry := ⟨width, height, gridLabelFontSize width displayScale⟩ }

def raCurve (wcs : Wcs K) (plan : GridPlan K) (ra : K) (output : GridMarkup) :
    Option GridMarkup := do
  let samples ← sampleCurve floats 96 (plan.decMin - plan.decStep) (plan.decMax + plan.decStep)
    fun dec => projectClamped floats wcs ra dec
  renderGridCurve numbers output samples (formatRa floats (normalizeRa floats ra)) .ra plan.geometry

def decCurve (wcs : Wcs K) (plan : GridPlan K) (dec : K) (output : GridMarkup) :
    Option GridMarkup :=
  if -90.0 ≤ dec then do
    let samples ← sampleCurve floats 96 (plan.raMin - plan.raStep) (plan.raMax + plan.raStep)
      fun ra => projectClamped floats wcs ra dec
    renderGridCurve numbers output samples (formatDec floats dec) .dec plan.geometry
  else some output

def renderGrid (fuel : ℕ) (wcs : Wcs K)
    (width height centerDecDeg pixelScale displayScale : K) : Except Failure GridMarkup := do
  let plan := gridPlan floats wcs width height centerDecDeg pixelScale displayScale
  let output ← sweep
    (fun ra output => ra ≤ plan.raMax + plan.raStep && byteLength output.lines < 250000)
    (raCurve numbers floats wcs plan) plan.raStep fuel
    (floats.floor (plan.raMin / plan.raStep) * plan.raStep) ⟨[], []⟩
  sweep
    (fun dec output => dec ≤ plan.decMax + plan.decStep && dec ≤ 90.0 &&
      byteLength output.lines < 500000)
    (decCurve numbers floats wcs plan) plan.decStep fuel
    (floats.floor (plan.decMin / plan.decStep) * plan.decStep) output

end SeizaServer.Overlay
