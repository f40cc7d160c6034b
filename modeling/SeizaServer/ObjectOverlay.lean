import Mathlib.Algebra.Order.Floor.Ring
import SeizaServer.HeaderPreparation
import SeizaServer.MarkupText

/-!
# Overlay markup of catalog objects

`render_object` and what it calls, over any kind of number.  A result of `none`
is the panic of `f64::clamp` when its lower bound exceeds the upper one.
-/

namespace SeizaServer.Overlay

open Solver MarkupText

/-! ## Objects -/

structure DrawnContour (K : Type) where
  closed : Bool
  points : List (K × K)

structure DrawnOutline (K : Type) where
  geometryId : String
  role : String
  quality : String
  level : Option String
  contours : List (DrawnContour K)

/-- What the renderer reads of an `OverlayObject`, in any kind of number. -/
structure DrawnObject (K : Type) where
  name : String
  commonName : String
  kind : String
  mag : Option K
  x : K
  y : K
  semiMajorPx : K
  semiMinorPx : K
  angleDeg : Option K
  motionArcsecPerHour : Option K
  directionAngleDeg : Option K
  outlines : List (DrawnOutline K)

/-! ## Numbers -/

scoped instance atLeastTwo_two : Nat.AtLeastTwo 2 := ⟨le_rfl⟩
scoped instance atLeastTwo_ten : Nat.AtLeastTwo 10 := ⟨by omega⟩
scoped instance atLeastTwo_halfTurn : Nat.AtLeastTwo 180 := ⟨by omega⟩

/-- How Rust prints a number with some decimals (`{:.n}`): digits, a sign and a
point, or `inf` and `NaN`. -/
structure NumberText (K : Type) where
  fixed : ℕ → K → List Char
  plain : ∀ decimals value, ∀ c ∈ fixed decimals value, ¬ IsMarkup c
  admitted : ∀ decimals value, Admitted (fixed decimals value)

/-- The functions on `f64` that are not arithmetic. -/
structure FloatFunctions (K : Type) where
  epsilon : K
  abs : K → K
  sin : K → K
  cos : K → K
  toRadians : K → K
  isFinite : K → Bool
  isSignNegative : K → Bool
  floor : K → K
  round : K → K
  remEuclid : K → K → K
  /-- `as u32`. -/
  toU32 : K → UInt32
  /-- `as u64`. -/
  toU64 : K → ℕ

variable {K : Type} [Add K] [Sub K] [Mul K] [Div K] [Neg K] [Min K] [Max K] [LE K] [DecidableLE K]
  [LT K] [DecidableLT K] [OfScientific K]

/-- `f64::clamp`. -/
def clamp (value lower upper : K) : Option K :=
  if lower ≤ upper then
    let raised := if value < lower then lower else value
    some (if upper < raised then upper else raised)
  else none

/-! ## Tags -/

/-- Attributes in a format string; the values are inserted as they are. -/
def attrs (pairs : List (String × List Char)) : List Char :=
  pairs.flatMap fun pair =>
    ' ' :: (pair.1.toList ++ ("=\"".toList ++ (pair.2 ++ "\"".toList)))

/-- `<name … />`. -/
def emptyTag (name : String) (pairs : List (String × List Char)) : List Char :=
  '<' :: (name.toList ++ (attrs pairs ++ " />".toList))

/-- `<name …>body</name>`. -/
def textTag (name : String) (pairs : List (String × List Char)) (body : List Char) : List Char :=
  '<' :: (name.toList ++ (attrs pairs ++ '>' :: (body ++ ("</".toList ++ (name.toList ++ ">".toList)))))

/-! ## Text -/

/-- `str::replace` of one character. -/
def replace (c : Char) (replacement : String) (text : List Char) : List Char :=
  text.flatMap fun d => if d = c then replacement.toList else [d]

def xmlEscape (value : String) : List Char :=
  replace '\'' "&apos;" (replace '"' "&quot;" (replace '>' "&gt;" (replace '<' "&lt;"
    (replace '&' "&amp;" value.toList))))

def stripPrefix (start : String) (text : List Char) : Option (List Char) :=
  if start.toList.isPrefixOf text then some (text.drop start.toList.length) else none

def isAsciiWhitespace (c : Char) : Bool :=
  c = ' ' || c = '\t' || c = '\n' || c = '\x0c' || c = '\r'

def catalogPrefix (name : List Char) (start : String) : Bool :=
  (stripPrefix start name).any fun rest => rest.isEmpty || rest.head?.any isAsciiWhitespace

def numberedDesignation (name : List Char) (start : String) : Bool :=
  (stripPrefix start name).any fun rest => (rest.dropWhile isWhiteSpace).head?.any Char.isDigit

def sharplessDesignation (name : List Char) : Bool :=
  (stripPrefix "SH" name).any fun rest =>
    (stripPrefix "2" (rest.dropWhile isWhiteSpace)).any fun rest =>
      rest.head?.any fun c => c = '-' || isAsciiWhitespace c

def deepSkyCatalogColor (name : String) : String :=
  let name := (trimText name.toList).map Char.toUpper
  if catalogPrefix name "PGC" then "#a1aed8"
  else if catalogPrefix name "UGC" then "#79aff5"
  else if catalogPrefix name "LBN" then "#a2d96f"
  else if catalogPrefix name "CED" || catalogPrefix name "CEDERBLAD" then "#70d7d0"
  else if catalogPrefix name "LDN" || numberedDesignation name "B" then "#b4a3f0"
  else if catalogPrefix name "SNR" then "#f18782"
  else if sharplessDesignation name || catalogPrefix name "VDB" then "#ee9a78"
  else if numberedDesignation name "M" then "#f2ca72"
  else if numberedDesignation name "NGC" then "#55cfff"
  else if numberedDesignation name "IC" then "#72dfb9"
  else "#c1d1d3"

def satelliteColor (object : DrawnObject K) : String :=
  match (object.outlines.find? fun outline => outline.role = "predicted-track").bind
      DrawnOutline.level with
  | some "high" => "#ff4d5a"
  | some "possible" => "#ffd166"
  | _ => "#43d9e6"

def objectColor (object : DrawnObject K) : String :=
  if object.kind = "star" || object.kind = "double-star" then "#ffe45e"
  else if object.kind = "identified-star" then "#b7a6ff"
  else if object.kind = "transient" then "#ff4fd8"
  else if object.kind = "comet" then "#6df2a2"
  else if object.kind = "asteroid" then "#ffad5c"
  else if object.kind = "satellite" then satelliteColor object
  else deepSkyCatalogColor object.name

variable (numbers : NumberText K)

def magnitudeText (mag : Option K) : List Char :=
  mag.elim [] fun mag => " · mag ".toList ++ numbers.fixed 1 mag

def displayLabel (object : DrawnObject K) : List Char :=
  let label := xmlEscape
    (if trimText object.commonName.toList = [] then object.name else object.commonName)
  let designation := xmlEscape object.name
  let magnitude := magnitudeText numbers object.mag
  if label = designation then designation ++ magnitude
  else label ++ " (".toList ++ designation ++ ")".toList ++ magnitude

/-! ## Outlines -/

def outlineClass (object : DrawnObject K) (outline : DrawnOutline K) (color : String) :
    String × String :=
  if object.kind = "satellite" && outline.role = "predicted-track" then
    ("marker object-outline satellite-predicted", color)
  else if object.kind = "satellite" && outline.role = "pixel-aligned-track" then
    ("marker object-outline satellite-pixel-aligned", "#7cff6b")
  else ("marker object-outline", color)

/-- A command of a path and its point. -/
def pathPoint (command : String) (point : K × K) : List Char :=
  command.toList ++ numbers.fixed 2 point.1 ++ " ".toList ++ numbers.fixed 2 point.2

def contourPath (closed : Bool) (first : K × K) (rest : List (K × K)) : List Char :=
  pathPoint numbers "M " first ++ rest.flatMap (pathPoint numbers " L ") ++
    if closed then " Z".toList else []

def renderContour (object : DrawnObject K) (outline : DrawnOutline K) (color : String)
    (contour : DrawnContour K) : List Char :=
  let (className, outlineColor) := outlineClass object outline color
  match contour.points with
  | [] => []
  | first :: rest =>
      emptyTag "path"
        [ ("class", className.toList), ("data-geometry-id", xmlEscape outline.geometryId),
          ("data-outline-level", xmlEscape (outline.level.getD "")),
          ("data-outline-role", xmlEscape outline.role),
          ("data-outline-quality", xmlEscape outline.quality), ("stroke", outlineColor.toList),
          ("d", contourPath numbers contour.closed first rest) ]

def renderOutlines (object : DrawnObject K) (color : String) : List Char :=
  object.outlines.flatMap fun outline =>
    outline.contours.flatMap (renderContour numbers object outline color)

/-! ## Moving bodies -/

variable (floats : FloatFunctions K)

def movingBodyVectorLength (markerSize : K) (motionArcsecPerHour : Option K)
    (pixelScaleArcsecPerPixel : K) : Option (Option K) :=
  match motionArcsecPerHour with
  | none => some none
  | some motion =>
      if !floats.isFinite motion || motion < 0.0 || pixelScaleArcsecPerPixel ≤ 0.0 then some none
      else
        let size := max (floats.abs markerSize) floats.epsilon
        let threeHourTrack := motion * 3.0 / pixelScaleArcsecPerPixel
        (clamp threeHourTrack (size * 3.0) (size * 9.0)).map some

def tipDistance (object : DrawnObject K) (size : K) (vectorLengthPixels : Option K) : K :=
  match vectorLengthPixels.filter floats.isFinite with
  | some length => max (floats.abs length / max (floats.abs size) floats.epsilon) 1.5
  | none => if object.kind = "comet" then 4.0 else 4.5

/-- A point on the axis of the tail, in marker sizes. -/
def along (object : DrawnObject K) (size radians distance : K) : K × K :=
  (object.x + floats.cos radians * size * distance,
    object.y + floats.sin radians * size * distance)

/-- A point beside the axis. -/
def offset (size radians : K) (point : K × K) (distance : K) : K × K :=
  (point.1 - floats.sin radians * size * distance, point.2 + floats.cos radians * size * distance)

def tailPath (object : DrawnObject K) (size radians tip : K) : Option (List Char × String) :=
  let along := along floats object size radians
  let offset := offset floats size radians
  let tipPoint := along tip
  if object.kind = "comet" then
    let root := along 1.15
    let span := tip - 1.15
    let shoulder := along (1.15 + span * 0.75)
    (clamp (span * 0.18) 0.35 0.85).map fun flare =>
      (pathPoint numbers "M " root ++ pathPoint numbers " L " tipPoint ++
        pathPoint numbers " M " root ++ pathPoint numbers " L " (offset shoulder flare) ++
        pathPoint numbers " M " root ++ pathPoint numbers " L " (offset shoulder (-flare)),
        "comet-tail")
  else
    let root := along 1.2
    let span := tip - 1.2
    let arrowRoot := along (1.2 + span * 0.73)
    (clamp (span * 0.2) 0.45 0.9).map fun arrowWidth =>
      (pathPoint numbers "M " root ++ pathPoint numbers " L " tipPoint ++
        pathPoint numbers " M " (offset arrowRoot arrowWidth) ++
        pathPoint numbers " L " tipPoint ++
        pathPoint numbers " L " (offset arrowRoot (-arrowWidth)),
        "asteroid-tail")

def motionAttributes (motionArcsecPerHour vectorLengthPixels : Option K) :
    List (String × List Char) :=
  motionArcsecPerHour.elim [] fun speed =>
    ("data-motion-arcsec-per-hour", numbers.fixed 4 speed) ::
      vectorLengthPixels.elim [] fun length =>
        [("data-motion-vector-length", numbers.fixed 2 length)]

def renderDirectionTail (object : DrawnObject K) (size angleDegrees : K)
    (vectorLengthPixels : Option K) (color : String) : Option (List Char) :=
  let tip := tipDistance floats object size vectorLengthPixels
  (tailPath numbers floats object size (floats.toRadians angleDegrees) tip).map
    fun (path, className) =>
      emptyTag "path"
        ([ ("class", "marker direction-tail ".toList ++ className.toList),
            ("data-direction-angle", numbers.fixed 2 angleDegrees) ] ++
          motionAttributes numbers object.motionArcsecPerHour vectorLengthPixels ++
          [("stroke", color.toList), ("d", path)])

/-! ## Objects on the frame -/

def encompassesFrame (object : DrawnObject K) (width height : K) : Bool :=
  if object.semiMajorPx ≤ 0.0 then false
  else
    let radians := floats.toRadians (object.angleDeg.getD 0.0)
    let sin := floats.sin radians
    let cos := floats.cos radians
    let semiMinorPx :=
      if object.angleDeg.isNone then object.semiMajorPx else max object.semiMinorPx 1.0
    [((0.0 : K), (0.0 : K)), (width, 0.0), (width, height), (0.0, height)].all fun (x, y) =>
      let dx := x - object.x
      let dy := y - object.y
      let u := (dx * cos + dy * sin) / object.semiMajorPx
      let v := (-dx * sin + dy * cos) / semiMinorPx
      u * u + v * v ≤ 1.0

variable (width height : K) (showOutlines : Bool) (pixelScaleArcsecPerPixel displayScale : K)

def renderFieldStar (object : DrawnObject K) (displayUnit : K) : List Char :=
  emptyTag "circle"
    [ ("class", "marker".toList), ("stroke", "#eef7ff".toList), ("opacity", ".78".toList),
      ("cx", numbers.fixed 2 object.x), ("cy", numbers.fixed 2 object.y),
      ("r", numbers.fixed 2 (3.5 * displayUnit)) ]

def crossPath (object : DrawnObject K) (displayUnit : K) : List Char :=
  pathPoint numbers "M " (object.x - 16.0 * displayUnit, object.y) ++
    " H ".toList ++ numbers.fixed 2 (object.x - 4.0 * displayUnit) ++
    pathPoint numbers " M " (object.x + 4.0 * displayUnit, object.y) ++
    " H ".toList ++ numbers.fixed 2 (object.x + 16.0 * displayUnit)

def renderCross (object : DrawnObject K) (displayUnit : K) (color : String) : List Char :=
  emptyTag "path"
    [ ("class", "marker".toList), ("stroke", color.toList),
      ("d", crossPath numbers object displayUnit) ]

def diamondPath (object : DrawnObject K) (size : K) : List Char :=
  pathPoint numbers "M " (object.x, object.y - size) ++
    pathPoint numbers " L " (object.x + size, object.y) ++
    pathPoint numbers " L " (object.x, object.y + size) ++
    pathPoint numbers " L " (object.x - size, object.y) ++ " Z".toList

def renderDiamond (object : DrawnObject K) (size : K) (color : String) : List Char :=
  emptyTag "path"
    [ ("class", "marker".toList), ("stroke", color.toList),
      ("d", diamondPath numbers object size) ]

def renderMovingBody (object : DrawnObject K) (displayUnit : K) (color : String) :
    Option (List Char) :=
  let size := max (width / 75.0) (14.0 * displayUnit)
  let diamond := renderDiamond numbers object size color
  match object.directionAngleDeg with
  | some angle =>
      if object.kind = "comet" || object.kind = "asteroid" then do
        let vectorLength ← movingBodyVectorLength floats size object.motionArcsecPerHour
          pixelScaleArcsecPerPixel
        let tail ← renderDirectionTail numbers floats object size angle vectorLength color
        return diamond ++ tail
      else some diamond
  | none => some diamond

def renderEllipse (object : DrawnObject K) (displayUnit : K) (color : String) : List Char :=
  let radiusX := min (max object.semiMajorPx (10.0 * displayUnit)) (width * 2.0)
  let radiusY :=
    if object.angleDeg.isNone then radiusX
    else min (max object.semiMinorPx (10.0 * displayUnit)) (height * 2.0)
  let x := numbers.fixed 2 object.x
  let y := numbers.fixed 2 object.y
  let angle := numbers.fixed 2 (object.angleDeg.getD 0.0)
  emptyTag "ellipse"
    [ ("class", "marker".toList), ("stroke", color.toList), ("cx", x), ("cy", y),
      ("rx", numbers.fixed 2 radiusX), ("ry", numbers.fixed 2 radiusY),
      ("transform", "rotate(".toList ++ angle ++ " ".toList ++ x ++ " ".toList ++ y ++
        ")".toList) ]

def renderMarker (object : DrawnObject K) (displayUnit : K) (color : String) :
    Option (List Char) :=
  if object.kind = "star" || object.kind = "double-star" || object.kind = "identified-star" then
    some (renderCross numbers object displayUnit color)
  else if object.kind = "transient" || object.kind = "comet" || object.kind = "asteroid" then
    renderMovingBody numbers floats width pixelScaleArcsecPerPixel object displayUnit color
  else if object.kind = "satellite" then some (renderOutlines numbers object color)
  else if object.outlines.isEmpty || !showOutlines then
    some (renderEllipse numbers width height object displayUnit color)
  else some (renderOutlines numbers object color)

/-- The label of an object around the whole frame. -/
def renderFrameLabel (object : DrawnObject K) (displayUnit : K) (color : String) :
    Option (List Char) := do
  let x ← clamp object.x (16.0 * displayUnit) (width - 16.0 * displayUnit)
  let y ← clamp object.y (68.0 * displayUnit) (height - 16.0 * displayUnit)
  return textTag "text"
    [ ("class", "label".toList), ("x", numbers.fixed 2 x), ("y", numbers.fixed 2 y),
      ("fill", color.toList) ] (displayLabel numbers object)

/-- The label beside a marker. -/
def renderLabel (object : DrawnObject K) (displayUnit : K) : Option (List Char) := do
  let x ← clamp (object.x + 14.0 * displayUnit) (8.0 * displayUnit) (width - 8.0 * displayUnit)
  let y ← clamp (object.y - 14.0 * displayUnit) (18.0 * displayUnit) (height - 8.0 * displayUnit)
  return textTag "text"
    [("class", "label".toList), ("x", numbers.fixed 2 x), ("y", numbers.fixed 2 y)]
    (displayLabel numbers object)

def renderObject (object : DrawnObject K) : Option (List Char) :=
  let displayUnit := 1.0 / displayScale
  let color := objectColor object
  if object.kind = "field-star" then some (renderFieldStar numbers object displayUnit)
  else if encompassesFrame floats object width height then
    renderFrameLabel numbers width height object displayUnit color
  else do
    let marker ← renderMarker numbers floats width height showOutlines pixelScaleArcsecPerPixel
      object displayUnit color
    let label ← renderLabel numbers width height object displayUnit
    return marker ++ label

/-- The objects in their order, on one output. -/
def renderObjects (objects : List (DrawnObject K)) : Option (List Char) :=
  (objects.mapM (renderObject numbers floats width height showOutlines pixelScaleArcsecPerPixel
    displayScale)).map List.flatten

/-! ## Exact numbers -/

section Exact

variable {F : Type} [Field F] [LinearOrder F] [FloorRing F]

/-- The nearest natural number, a half to the even one. -/
def roundHalfEven (value : F) : ℕ :=
  let whole := ⌊value⌋.toNat
  let rest := value - whole
  if rest < 1 / 2 || (rest = 1 / 2 && whole % 2 = 0) then whole else whole + 1

def decimalDigits (decimals : ℕ) (value : F) : List Char :=
  (Nat.toDigits 10 (roundHalfEven (|value| * 10 ^ decimals))).leftpad (decimals + 1) '0'

def decimal (decimals : ℕ) (value : F) : List Char :=
  let digits := decimalDigits decimals value
  let whole := digits.length - decimals
  (if value < 0 then ['-'] else []) ++ digits.take whole ++
    if decimals = 0 then [] else '.' :: digits.drop whole

theorem not_isMarkup_of_isDigit {c : Char} (hc : c.isDigit = true) : ¬ IsMarkup c := by
  rintro (rfl | rfl | rfl | rfl | rfl) <;> cases hc

theorem isDigit_of_mem_decimalDigits {decimals : ℕ} {value : F} {c : Char}
    (hc : c ∈ decimalDigits decimals value) : c.isDigit = true := by
  rw [decimalDigits, List.leftpad, List.mem_append] at hc
  cases hc with
  | inl hc => rw [List.eq_of_mem_replicate hc]; rfl
  | inr hc => exact Nat.isDigit_of_mem_toDigits (by decide) (by decide) hc

theorem not_isMarkup_of_mem_decimal {decimals : ℕ} {value : F} {c : Char}
    (hc : c ∈ decimal decimals value) : ¬ IsMarkup c := by
  simp only [decimal, List.mem_append] at hc
  rcases hc with (hsign | hwhole) | hrest
  · split_ifs at hsign
    · rw [List.mem_singleton.mp hsign]
      simp [IsMarkup]
    · cases hsign
  · exact not_isMarkup_of_isDigit (isDigit_of_mem_decimalDigits (List.mem_of_mem_take hwhole))
  · split_ifs at hrest
    · cases hrest
    · cases List.mem_cons.mp hrest with
      | inl hpoint => rw [hpoint]; simp [IsMarkup]
      | inr hdigit =>
          exact not_isMarkup_of_isDigit (isDigit_of_mem_decimalDigits (List.mem_of_mem_drop hdigit))

theorem isChar_of_isDigit {c : Char} (hc : c.isDigit = true) : isChar c = true :=
  isChar_of_isNameChar (by simp [isNameChar, Char.isAlphanum, hc])

theorem admitted_decimal (decimals : ℕ) (value : F) : Admitted (decimal decimals value) := by
  have hdigit : ∀ c ∈ decimalDigits decimals value, isChar c = true := fun c hc =>
    isChar_of_isDigit (isDigit_of_mem_decimalDigits hc)
  have hsign : isChar '-' = true := by decide
  have hpoint : isChar '.' = true := by decide
  have htake : Admitted ((decimalDigits decimals value).take
      ((decimalDigits decimals value).length - decimals)) :=
    List.all_eq_true.mpr fun c hc => hdigit c (List.mem_of_mem_take hc)
  have hdrop : Admitted ((decimalDigits decimals value).drop
      ((decimalDigits decimals value).length - decimals)) :=
    List.all_eq_true.mpr fun c hc => hdigit c (List.mem_of_mem_drop hc)
  unfold decimal
  split_ifs <;> simp [hsign, hpoint, htake, hdrop]

/-- Exact numbers, printed like `f64`. -/
def exactText (F : Type) [Field F] [LinearOrder F] [FloorRing F] : NumberText F where
  fixed := decimal
  plain _ _ _ := not_isMarkup_of_mem_decimal
  admitted := admitted_decimal

end Exact

end SeizaServer.Overlay
