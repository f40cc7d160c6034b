import Mathlib
import SeizaServer.OverlayGrid
import SeizaServer.SolutionCodec

/-!
# Clamps of the overlay

`render_svg`, `render_svg_for_viewport` and `opengraph_dimensions`, and when a
rendering gets to its end over the real numbers.
-/

namespace SeizaServer.Overlay

open Solver

/-! ## The page -/

structure OverlayOptions where
  objects : Bool
  grid : Bool
  outlines : Bool

/-- What an overlay shows of a solution. -/
structure Solution (K : Type) where
  centerRaDeg : K
  centerDecDeg : K
  pixelScaleArcsecPerPixel : K
  matchedStars : UInt64
  rmsArcsec : K
  imageWidth : UInt32
  imageHeight : UInt32
  wcs : Wcs K
  hasSip : Bool
  objects : List (DrawnObject K)
  contentRegion : Option ContentRegion

/-- The values that are inserted into the page. -/
structure OverlayPage (K : Type) where
  width : UInt32
  height : UInt32
  preview : List UInt8
  frame : ContentRegion
  objects : List Char
  grid : GridMarkup
  gridFontSize : K
  gridLabelStroke : K
  labelFontSize : K
  detailFontSize : K
  textStrokeWidth : K
  center : K × K
  centerRadius : K
  left : K
  right : K
  top : K
  bottom : K
  detailX : K
  detailFirstY : K
  detailSecondY : K
  projection : String
  ra : K
  dec : K
  scale : K
  stars : UInt64
  rms : K

section Rendering

variable {K : Type} [Add K] [Sub K] [Mul K] [Div K] [Neg K] [Min K] [Max K] [LE K] [DecidableLE K]
  [LT K] [DecidableLT K] [OfScientific K] [NatCast K]

variable (numbers : NumberText K) (floats : FloatFunctions K) (fuel : ℕ)

def renderPageObjects (solution : Solution K) (options : OverlayOptions) (displayScale : K) :
    Except Failure (List Char) :=
  if options.objects then
    match renderObjects numbers floats (solution.imageWidth.toNat : K)
        (solution.imageHeight.toNat : K) options.outlines solution.pixelScaleArcsecPerPixel
        displayScale solution.objects with
    | some objects => .ok objects
    | none => .error .panicked
  else .ok []

def renderPageGrid (solution : Solution K) (options : OverlayOptions) (displayScale : K) :
    Except Failure GridMarkup :=
  if options.grid then
    renderGrid numbers floats fuel solution.wcs (solution.imageWidth.toNat : K)
      (solution.imageHeight.toNat : K) solution.centerDecDeg solution.pixelScaleArcsecPerPixel
      displayScale
  else .ok ⟨[], []⟩

def renderSvgWithDisplayScale (solution : Solution K) (preview : List UInt8)
    (options : OverlayOptions) (displayScale : K) : Except Failure (OverlayPage K) := do
  let width : K := (solution.imageWidth.toNat : K)
  let height : K := (solution.imageHeight.toNat : K)
  let displayScale := max displayScale floats.epsilon
  let displayUnit := 1.0 / displayScale
  let objects ← renderPageObjects numbers floats solution options displayScale
  let grid ← renderPageGrid numbers floats fuel solution options displayScale
  let gridFontSize := gridLabelFontSize width displayScale
  let centerX := width / 2.0
  let centerY := height / 2.0
  let centerArm := 30.0 * displayUnit
  return {
    width := solution.imageWidth
    height := solution.imageHeight
    preview
    frame := solution.contentRegion.getD ⟨0, 0, solution.imageWidth, solution.imageHeight⟩
    objects
    grid
    gridFontSize
    gridLabelStroke := gridFontSize * 0.12
    labelFontSize := 15.0 * displayUnit
    detailFontSize := 13.0 * displayUnit
    textStrokeWidth := 4.0 * displayUnit
    center := (centerX, centerY)
    centerRadius := 18.0 * displayUnit
    left := centerX - centerArm
    right := centerX + centerArm
    top := centerY - centerArm
    bottom := centerY + centerArm
    detailX := 18.0 * displayUnit
    detailFirstY := 26.0 * displayUnit
    detailSecondY := 47.0 * displayUnit
    projection := if solution.hasSip then "TAN-SIP" else "TAN"
    ra := solution.centerRaDeg
    dec := solution.centerDecDeg
    scale := solution.pixelScaleArcsecPerPixel
    stars := solution.matchedStars
    rms := solution.rmsArcsec }

def renderSvg (solution : Solution K) (preview : List UInt8) (options : OverlayOptions) :
    Except Failure (OverlayPage K) :=
  renderSvgWithDisplayScale numbers floats fuel solution preview options 1.0

def viewportScale (solution : Solution K) (viewportWidth viewportHeight : UInt32) : K :=
  min ((viewportWidth.toNat : K) / (solution.imageWidth.toNat : K))
    ((viewportHeight.toNat : K) / (solution.imageHeight.toNat : K))

def renderSvgForViewport (solution : Solution K) (preview : List UInt8) (options : OverlayOptions)
    (viewportWidth viewportHeight : UInt32) : Except Failure (OverlayPage K) :=
  renderSvgWithDisplayScale numbers floats fuel solution preview options
    (viewportScale solution viewportWidth viewportHeight)

def opengraphWidth : UInt32 := 1200
def opengraphHeight : UInt32 := 630

/-- `Ord::clamp` panics like the clamp of `f64`. -/
def opengraphDimensions (sourceWidth sourceHeight : UInt32) : Option (UInt32 × UInt32) := do
  let sourceWidth := max sourceWidth 1
  let sourceHeight := max sourceHeight 1
  let scale : K := min (min ((opengraphWidth.toNat : K) / (sourceWidth.toNat : K))
    ((opengraphHeight.toNat : K) / (sourceHeight.toNat : K))) 1.0
  let width := floats.toU32 (floats.round ((sourceWidth.toNat : K) * scale))
  let height := floats.toU32 (floats.round ((sourceHeight.toNat : K) * scale))
  let width ← clamp width 1 (min opengraphWidth sourceWidth)
  let height ← clamp height 1 (min opengraphHeight sourceHeight)
  return (width, height)

/-- The overlay of the social preview. -/
def renderSocialPreview (solution : Solution K) (preview : List UInt8) (options : OverlayOptions) :
    Except Failure (OverlayPage K) :=
  match opengraphDimensions floats solution.imageWidth solution.imageHeight with
  | some (width, height) =>
      renderSvgForViewport numbers floats fuel solution preview options width height
  | none => .error .panicked

end Rendering

/-! ## Loops that end -/

/-- A rendering gets to its end, whatever fuel is left. -/
def Completes {Result : Type} (render : ℕ → Except Failure Result) : Prop :=
  ∃ result enough, ∀ fuel, enough ≤ fuel → render fuel = .ok result

section Sweeps

variable {K State : Type} [Field K] [LinearOrder K]

/-- A loop whose body never panics ends when its condition bounds the position. -/
theorem sweep_completes {more : K → State → Bool} {body : K → State → Option State} {step bound : K}
    (hbound : ∀ position state, more position state = true → position ≤ bound)
    (hbody : ∀ position state, (body position state).isSome) (count : ℕ) (position : K)
    (hcount : bound < position + count * step) (state : State) :
    ∃ result, ∀ fuel, count < fuel → sweep more body step fuel position state = .ok result := by
  induction count generalizing position state with
  | zero =>
      refine ⟨state, ?_⟩
      intro fuel hfuel
      obtain ⟨rest, rfl⟩ := Nat.exists_eq_succ_of_ne_zero (Nat.ne_of_gt hfuel)
      have hstop : more position state = false := by
        rw [Bool.eq_false_iff]
        intro hmore
        have hle := hbound position state hmore
        rw [Nat.cast_zero, zero_mul, add_zero] at hcount
        exact absurd hle (not_le.mpr hcount)
      rw [sweep, hstop, if_neg Bool.false_ne_true]
  | succ count ih =>
      cases hmore : more position state with
      | false =>
          refine ⟨state, ?_⟩
          intro fuel hfuel
          obtain ⟨rest, rfl⟩ := Nat.exists_eq_succ_of_ne_zero (by omega : fuel ≠ 0)
          rw [sweep, hmore, if_neg Bool.false_ne_true]
      | true =>
          obtain ⟨next, hnext⟩ := Option.isSome_iff_exists.mp (hbody position state)
          have hrest : bound < position + step + count * step := by
            have hsplit : position + step + count * step =
                position + ((count + 1 : ℕ) : K) * step := by
              push_cast
              ring
            rw [hsplit]
            exact hcount
          obtain ⟨result, hresult⟩ := ih (position + step) hrest next
          refine ⟨result, ?_⟩
          intro fuel hfuel
          obtain ⟨rest, rfl⟩ := Nat.exists_eq_succ_of_ne_zero (by omega : fuel ≠ 0)
          rw [sweep, hmore, if_pos rfl, hnext]
          exact hresult rest (by omega)

theorem sweep_ends [IsStrictOrderedRing K] [Archimedean K] {more : K → State → Bool}
    {body : K → State → Option State} {step bound : K}
    (hstep : 0 < step)
    (hbound : ∀ position state, more position state = true → position ≤ bound)
    (hbody : ∀ position state, (body position state).isSome) (position : K) (state : State) :
    Completes fun fuel => sweep more body step fuel position state := by
  obtain ⟨count, hcount⟩ := exists_nat_gt ((bound - position) / step)
  have hpast : bound < position + count * step := by
    rw [div_lt_iff₀ hstep] at hcount
    linarith
  obtain ⟨result, hresult⟩ := sweep_completes hbound hbody count position hpast state
  exact ⟨result, count + 1, fun fuel hfuel => hresult fuel hfuel⟩

end Sweeps

/-! ## Real numbers -/

noncomputable section

def realFunctions : FloatFunctions ℝ where
  epsilon := 1 / 2 ^ 52
  abs value := |value|
  sin := Real.sin
  cos := Real.cos
  toRadians value := value * Real.pi / 180
  isFinite _ := true
  isSignNegative value := decide (value < 0)
  floor value := ⌊value⌋
  round value := if 0 ≤ value then ⌊value + 1 / 2⌋ else -⌊1 / 2 - value⌋
  remEuclid value divisor := value - divisor * ⌊value / divisor⌋
  toU32 value := .ofNat (min ⌊value⌋.toNat (2 ^ 32 - 1))
  toU64 value := min ⌊value⌋.toNat (2 ^ 64 - 1)

theorem clamp_isSome {K : Type} [LE K] [DecidableLE K] [LT K] [DecidableLT K]
    {value lower upper : K} : (clamp value lower upper).isSome ↔ lower ≤ upper := by
  unfold clamp
  by_cases hle : lower ≤ upper
  · rw [if_pos hle]
    exact iff_of_true rfl hle
  · rw [if_neg hle]
    exact iff_of_false Bool.false_ne_true hle

theorem isSome_bind {α β : Type} {value : Option α} {next : α → Option β} (hvalue : value.isSome)
    (hnext : ∀ x, (next x).isSome) : (value.bind next).isSome := by
  obtain ⟨x, rfl⟩ := Option.isSome_iff_exists.mp hvalue
  exact hnext x

section Objects

variable (numbers : NumberText ℝ) {object : DrawnObject ℝ}

theorem tailPath_isSome (size radians tip : ℝ) :
    (tailPath numbers realFunctions object size radians tip).isSome := by
  unfold tailPath
  dsimp only
  split_ifs
  · rw [Option.isSome_map, clamp_isSome]
    norm_num
  · rw [Option.isSome_map, clamp_isSome]
    norm_num

theorem movingBodyVectorLength_isSome (markerSize : ℝ) (motion : Option ℝ) (pixelScale : ℝ) :
    (movingBodyVectorLength realFunctions markerSize motion pixelScale).isSome := by
  cases motion with
  | none => rfl
  | some motion =>
      unfold movingBodyVectorLength
      dsimp only
      split_ifs
      · rfl
      · have hepsilon : 0 < realFunctions.epsilon := by
          change (0 : ℝ) < 1 / 2 ^ 52
          positivity
        have hsize : 0 < max (realFunctions.abs markerSize) realFunctions.epsilon :=
          lt_max_of_lt_right hepsilon
        rw [Option.isSome_map, clamp_isSome]
        norm_num
        linarith

theorem renderMovingBody_isSome (width pixelScale displayUnit : ℝ) (color : String) :
    (renderMovingBody numbers realFunctions width pixelScale object displayUnit color).isSome := by
  unfold renderMovingBody
  dsimp only
  cases object.directionAngleDeg with
  | none => rfl
  | some angle =>
      dsimp only
      split_ifs
      · apply isSome_bind (movingBodyVectorLength_isSome _ _ _)
        intro vectorLength
        have htail : (renderDirectionTail numbers realFunctions object
            (max (width / 75.0) (14.0 * displayUnit)) angle vectorLength color).isSome := by
          rw [renderDirectionTail, Option.isSome_map]
          exact tailPath_isSome numbers _ _ _
        exact isSome_bind htail fun tail => rfl
      · rfl

theorem renderMarker_isSome (width height : ℝ) (showOutlines : Bool)
    (pixelScale displayUnit : ℝ) (color : String) :
    (renderMarker numbers realFunctions width height showOutlines pixelScale object displayUnit
      color).isSome := by
  unfold renderMarker
  split_ifs
  · rfl
  · exact renderMovingBody_isSome numbers width pixelScale displayUnit color
  · rfl
  · rfl
  · rfl

/-- There is room for the label of an object, in units of the display. -/
def Labelled (object : DrawnObject ℝ) (width height displayUnit : ℝ) : Prop :=
  object.kind = "field-star" ∨
    if encompassesFrame realFunctions object width height then
      32 * displayUnit ≤ width ∧ 84 * displayUnit ≤ height
    else 16 * displayUnit ≤ width ∧ 26 * displayUnit ≤ height

theorem renderFrameLabel_isSome (width height displayUnit : ℝ) (color : String) :
    (renderFrameLabel numbers width height object displayUnit color).isSome ↔
      32 * displayUnit ≤ width ∧ 84 * displayUnit ≤ height := by
  have hx : (16.0 : ℝ) * displayUnit ≤ width - 16.0 * displayUnit ↔ 32 * displayUnit ≤ width := by
    norm_num
    constructor <;> intro h <;> linarith
  have hy : (68.0 : ℝ) * displayUnit ≤ height - 16.0 * displayUnit ↔
      84 * displayUnit ≤ height := by
    norm_num
    constructor <;> intro h <;> linarith
  rw [← hx, ← hy, ← @clamp_isSome ℝ _ _ _ _ object.x, ← @clamp_isSome ℝ _ _ _ _ object.y]
  unfold renderFrameLabel
  cases clamp object.x (16.0 * displayUnit) (width - 16.0 * displayUnit) <;>
    cases clamp object.y (68.0 * displayUnit) (height - 16.0 * displayUnit) <;> simp

theorem renderLabel_isSome (width height displayUnit : ℝ) :
    (renderLabel numbers width height object displayUnit).isSome ↔
      16 * displayUnit ≤ width ∧ 26 * displayUnit ≤ height := by
  have hx : (8.0 : ℝ) * displayUnit ≤ width - 8.0 * displayUnit ↔ 16 * displayUnit ≤ width := by
    norm_num
    constructor <;> intro h <;> linarith
  have hy : (18.0 : ℝ) * displayUnit ≤ height - 8.0 * displayUnit ↔
      26 * displayUnit ≤ height := by
    norm_num
    constructor <;> intro h <;> linarith
  rw [← hx, ← hy, ← @clamp_isSome ℝ _ _ _ _ (object.x + 14.0 * displayUnit),
    ← @clamp_isSome ℝ _ _ _ _ (object.y - 14.0 * displayUnit)]
  unfold renderLabel
  cases clamp (object.x + 14.0 * displayUnit) (8.0 * displayUnit) (width - 8.0 * displayUnit) <;>
    cases clamp (object.y - 14.0 * displayUnit) (18.0 * displayUnit)
      (height - 8.0 * displayUnit) <;> simp

theorem renderObject_isSome (width height : ℝ) (showOutlines : Bool)
    (pixelScale displayScale : ℝ) :
    (renderObject numbers realFunctions width height showOutlines pixelScale displayScale
      object).isSome ↔ Labelled object width height (1.0 / displayScale) := by
  unfold renderObject Labelled
  dsimp only
  by_cases hstar : object.kind = "field-star"
  · simp [hstar]
  · rw [if_neg hstar, or_iff_right hstar]
    split_ifs
    · exact renderFrameLabel_isSome numbers width height _ _
    · obtain ⟨marker, hmarker⟩ := Option.isSome_iff_exists.mp
        (renderMarker_isSome numbers width height showOutlines pixelScale (1.0 / displayScale)
          (objectColor object))
      rw [hmarker, ← renderLabel_isSome numbers width height]
      cases renderLabel numbers width height object (1.0 / displayScale) <;> simp

theorem renderObjects_isSome (width height : ℝ) (showOutlines : Bool)
    (pixelScale displayScale : ℝ) (objects : List (DrawnObject ℝ)) :
    (renderObjects numbers realFunctions width height showOutlines pixelScale displayScale
      objects).isSome ↔
        ∀ object ∈ objects, Labelled object width height (1.0 / displayScale) := by
  rw [renderObjects, Option.isSome_map]
  induction objects with
  | nil => simp
  | cons object objects ih =>
      rw [List.forall_mem_cons, ← ih, ← renderObject_isSome numbers width height showOutlines
        pixelScale displayScale, List.mapM_cons]
      cases renderObject numbers realFunctions width height showOutlines pixelScale displayScale
          object <;>
        cases objects.mapM (renderObject numbers realFunctions width height showOutlines pixelScale
          displayScale) <;> simp

end Objects

section Grid

variable (numbers : NumberText ℝ)

theorem clampOrCenter_isSome (value minimum maximum center : ℝ) :
    (clampOrCenter value minimum maximum center).isSome := by
  unfold clampOrCenter
  split_ifs with hle
  · exact clamp_isSome.mpr hle
  · rfl

theorem labelPlace_isSome (label : List Char) (axis : GridAxis) (geometry : GridGeometry ℝ)
    (point : ℝ × ℝ) : (labelPlace label axis geometry point).isSome := by
  unfold labelPlace
  dsimp only
  cases axis with
  | ra =>
      exact isSome_bind (clampOrCenter_isSome ..) fun y =>
        isSome_bind (clampOrCenter_isSome ..) fun x => rfl
  | dec =>
      exact isSome_bind (clampOrCenter_isSome ..) fun y =>
        isSome_bind (clampOrCenter_isSome ..) fun x => rfl

theorem renderGridCurve_isSome (output : GridMarkup) (samples : List (Option (ℝ × ℝ)))
    (label : List Char) (axis : GridAxis) (geometry : GridGeometry ℝ) :
    (renderGridCurve numbers output samples label axis geometry).isSome := by
  unfold renderGridCurve
  dsimp only
  cases (samples.foldl (traceSample numbers geometry) ⟨[], false, []⟩).pointsInFrame with
  | nil => rfl
  | cons first rest =>
      dsimp only
      split_ifs
      · rfl
      · rw [Option.isSome_map]
        exact labelPlace_isSome ..

theorem projectClamped_isSome (wcs : Wcs ℝ) (ra dec : ℝ) :
    (projectClamped realFunctions wcs ra dec).isSome := by
  rw [projectClamped, Option.isSome_map, clamp_isSome]
  norm_num

theorem isSome_mapM {α β : Type} {f : α → Option β} (hf : ∀ x, (f x).isSome) (values : List α) :
    (values.mapM f).isSome := by
  induction values with
  | nil => rfl
  | cons value values ih =>
      obtain ⟨first, hfirst⟩ := Option.isSome_iff_exists.mp (hf value)
      obtain ⟨rest, hrest⟩ := Option.isSome_iff_exists.mp ih
      simp [List.mapM_cons, hfirst, hrest]

theorem sampleCurve_isSome {samples : ℕ} {start stop : ℝ} {project : ℝ → Option (Option (ℝ × ℝ))}
    (hproject : ∀ position, (project position).isSome) :
    (sampleCurve realFunctions samples start stop project).isSome := by
  apply isSome_mapM
  intro index
  rw [Option.isSome_map]
  exact hproject _

theorem raCurve_isSome (wcs : Wcs ℝ) (plan : GridPlan ℝ) (ra : ℝ) (output : GridMarkup) :
    (raCurve numbers realFunctions wcs plan ra output).isSome := by
  exact isSome_bind (sampleCurve_isSome (projectClamped_isSome wcs ra)) fun samples =>
    renderGridCurve_isSome ..

theorem decCurve_isSome (wcs : Wcs ℝ) (plan : GridPlan ℝ) (dec : ℝ) (output : GridMarkup) :
    (decCurve numbers realFunctions wcs plan dec output).isSome := by
  unfold decCurve
  split_ifs
  · exact isSome_bind (sampleCurve_isSome fun ra => projectClamped_isSome wcs ra dec) fun samples =>
      renderGridCurve_isSome ..
  · rfl

theorem gridSteps_pos : ∀ step ∈ (gridSteps : List ℝ), 0 < step := by
  simp only [gridSteps, List.forall_mem_cons]
  norm_num

theorem niceGridStep_pos (target : ℝ) : 0 < niceGridStep target := by
  unfold niceGridStep
  cases hfound : gridSteps.find? fun step => decide (target ≤ step) with
  | none =>
      rw [Option.getD_none]
      norm_num
  | some step => exact gridSteps_pos step (List.mem_of_find?_eq_some hfound)

theorem renderGrid_completes (wcs : Wcs ℝ)
    (width height centerDecDeg pixelScale displayScale : ℝ) :
    Completes fun fuel => renderGrid numbers realFunctions fuel wcs width height centerDecDeg
      pixelScale displayScale := by
  obtain ⟨plan, hplan⟩ : ∃ plan,
      gridPlan realFunctions wcs width height centerDecDeg pixelScale displayScale = plan :=
    ⟨_, rfl⟩
  have hra : 0 < plan.raStep := by
    rw [← hplan]
    exact niceGridStep_pos _
  have hdec : 0 < plan.decStep := by
    rw [← hplan]
    exact niceGridStep_pos _
  have hmeridians : ∀ (ra : ℝ) (output : GridMarkup), (decide (ra ≤ plan.raMax + plan.raStep) &&
      decide (byteLength output.lines < 250000)) = true → ra ≤ plan.raMax + plan.raStep := by
    intro ra output hmore
    exact of_decide_eq_true (Bool.and_eq_true_iff.mp hmore).1
  have hparallels : ∀ (dec : ℝ) (output : GridMarkup),
      (decide (dec ≤ plan.decMax + plan.decStep) && decide (dec ≤ 90.0) &&
        decide (byteLength output.lines < 500000)) = true → dec ≤ plan.decMax + plan.decStep := by
    intro dec output hmore
    exact of_decide_eq_true (Bool.and_eq_true_iff.mp (Bool.and_eq_true_iff.mp hmore).1).1
  obtain ⟨middle, first, hmiddle⟩ := sweep_ends hra hmeridians (raCurve_isSome numbers wcs plan)
    (realFunctions.floor (plan.raMin / plan.raStep) * plan.raStep) ⟨[], []⟩
  obtain ⟨result, second, hresult⟩ := sweep_ends hdec hparallels
    (decCurve_isSome numbers wcs plan)
    (realFunctions.floor (plan.decMin / plan.decStep) * plan.decStep) middle
  refine ⟨result, max first second, ?_⟩
  intro fuel hfuel
  unfold renderGrid
  rw [hplan]
  dsimp only at hmiddle hresult ⊢
  rw [hmiddle fuel (le_trans (le_max_left ..) hfuel)]
  exact hresult fuel (le_trans (le_max_right ..) hfuel)

end Grid

/-! ## The whole page -/

section Pages

variable (numbers : NumberText ℝ) (solution : Solution ℝ) (preview : List UInt8)
  (options : OverlayOptions)

/-- The size of a display pixel in pixels of the image. -/
def displayUnit (displayScale : ℝ) : ℝ :=
  1 / max displayScale realFunctions.epsilon

/-- Every object that is drawn has room for its label. -/
def ObjectsLabelled (unit : ℝ) : Prop :=
  options.objects = true → ∀ object ∈ solution.objects,
    Labelled object (solution.imageWidth.toNat : ℝ) (solution.imageHeight.toNat : ℝ) unit

theorem renderPageObjects_eq_ok (displayScale : ℝ) :
    (∃ objects, renderPageObjects numbers realFunctions solution options
      (max displayScale realFunctions.epsilon) = .ok objects) ↔
        ObjectsLabelled solution options (displayUnit displayScale) := by
  have hone : (1.0 : ℝ) = 1 := by norm_num
  have hunit : displayUnit displayScale = 1.0 / max displayScale realFunctions.epsilon := by
    rw [hone, displayUnit]
  rw [ObjectsLabelled, hunit, ← renderObjects_isSome numbers _ _ options.outlines
    solution.pixelScaleArcsecPerPixel]
  unfold renderPageObjects
  cases options.objects with
  | false => simp
  | true =>
      cases renderObjects numbers realFunctions (solution.imageWidth.toNat : ℝ)
          (solution.imageHeight.toNat : ℝ) options.outlines solution.pixelScaleArcsecPerPixel
          (max displayScale realFunctions.epsilon) solution.objects with
      | none => simp
      | some objects => simp

theorem renderPageGrid_completes (displayScale : ℝ) :
    Completes fun fuel => renderPageGrid numbers realFunctions fuel solution options
      displayScale := by
  unfold renderPageGrid
  cases options.grid with
  | false => exact ⟨_, 0, fun _ _ => rfl⟩
  | true => exact renderGrid_completes numbers solution.wcs _ _ _ _ _

theorem renderSvgWithDisplayScale_completes (displayScale : ℝ) :
    (Completes fun fuel => renderSvgWithDisplayScale numbers realFunctions fuel solution preview
      options displayScale) ↔ ObjectsLabelled solution options (displayUnit displayScale) := by
  rw [← renderPageObjects_eq_ok numbers]
  obtain ⟨grid, enough, hgrid⟩ := renderPageGrid_completes numbers solution options
    (max displayScale realFunctions.epsilon)
  dsimp only at hgrid
  unfold renderSvgWithDisplayScale
  dsimp only
  cases hobjects : renderPageObjects numbers realFunctions solution options
      (max displayScale realFunctions.epsilon) with
  | error failure =>
      refine iff_of_false ?_ ?_
      · rintro ⟨page, enough, hpage⟩
        cases hpage enough le_rfl
      · rintro ⟨objects, hok⟩
        cases hok
  | ok objects =>
      apply iff_of_true _ ⟨objects, rfl⟩
      refine ⟨?page, enough, ?_⟩
      rotate_left
      · intro fuel hfuel
        dsimp only
        rw [hgrid fuel hfuel]
        exact rfl

theorem renderSvg_completes :
    (Completes fun fuel => renderSvg numbers realFunctions fuel solution preview options) ↔
      ObjectsLabelled solution options 1 := by
  have hunit : displayUnit 1.0 = 1 := by
    have hepsilon : realFunctions.epsilon ≤ 1.0 := by
      change (1 : ℝ) / 2 ^ 52 ≤ 1.0
      norm_num
    rw [displayUnit, max_eq_left hepsilon]
    norm_num
  have hscale := renderSvgWithDisplayScale_completes numbers solution preview options 1.0
  rw [hunit] at hscale
  exact hscale

/-- The bounds of the preview's dimensions never cross. -/
theorem opengraphDimensions_isSome (sourceWidth sourceHeight : UInt32) :
    (opengraphDimensions realFunctions sourceWidth sourceHeight).isSome := by
  have hbounds : ∀ bound source : UInt32, 1 ≤ bound → 1 ≤ min bound (max source 1) := by
    intro bound source hbound
    have hsource : 1 ≤ max source 1 := by
      change 1 ≤ if source ≤ 1 then 1 else source
      split_ifs with hle
      · exact UInt32.le_refl 1
      · exact UInt32.le_of_lt (UInt32.not_le.mp hle)
    change 1 ≤ if bound ≤ max source 1 then bound else max source 1
    split_ifs
    · exact hbound
    · exact hsource
  unfold opengraphDimensions
  exact isSome_bind (clamp_isSome.mpr (hbounds _ _ (by decide))) fun width =>
    isSome_bind (clamp_isSome.mpr (hbounds _ _ (by decide))) fun height => rfl

/-- Both renderings get to their end exactly when every object drawn has room
for its label, at full size and on the social preview. -/
theorem overlay_completes_iff :
    ((Completes fun fuel => renderSvg numbers realFunctions fuel solution preview options) ∧
      Completes fun fuel => renderSocialPreview numbers realFunctions fuel solution preview
        options) ↔
      ObjectsLabelled solution options 1 ∧
        ∀ width height, opengraphDimensions realFunctions solution.imageWidth
            solution.imageHeight = some (width, height) →
          ObjectsLabelled solution options (displayUnit (viewportScale solution width height)) := by
  rw [renderSvg_completes]
  apply and_congr_right
  intro _
  obtain ⟨⟨width, height⟩, hdimensions⟩ := Option.isSome_iff_exists.mp
    (opengraphDimensions_isSome solution.imageWidth solution.imageHeight)
  have hsocial := renderSvgWithDisplayScale_completes numbers solution preview options
    (viewportScale solution width height)
  unfold renderSocialPreview
  simp only [hdimensions, Option.some.injEq, Prod.mk.injEq]
  constructor
  · rintro hcompletes other rest ⟨rfl, rfl⟩
    exact hsocial.mp hcompletes
  · intro hlabelled
    exact hsocial.mpr (hlabelled width height ⟨rfl, rfl⟩)

end Pages

/-- A galaxy in the middle of an image of 10 by 10 pixels. -/
def thumbnailGalaxy : DrawnObject ℝ where
  name := "M 31"
  commonName := ""
  kind := "galaxy"
  mag := none
  x := 5
  y := 5
  semiMajorPx := 0
  semiMinorPx := 0
  angleDeg := none
  motionArcsecPerHour := none
  directionAngleDeg := none
  outlines := []

def thumbnail : Solution ℝ where
  centerRaDeg := 10
  centerDecDeg := 41
  pixelScaleArcsecPerPixel := 1
  matchedStars := 12
  rmsArcsec := 0
  imageWidth := 10
  imageHeight := 10
  wcs := ⟨fun x y => (10 + x / 3600, 41 + y / 3600), fun ra dec =>
    some ((ra - 10) * 3600, (dec - 41) * 3600)⟩
  hasSip := false
  objects := [thumbnailGalaxy]
  contentRegion := none

theorem overlay_completes_counterexample :
    ¬ ∀ (numbers : NumberText ℝ) (solution : Solution ℝ) (preview : List UInt8)
      (options : OverlayOptions), 0 < solution.imageWidth → 0 < solution.imageHeight →
      (Completes fun fuel => renderSvg numbers realFunctions fuel solution preview options) ∧
        Completes fun fuel => renderSocialPreview numbers realFunctions fuel solution preview
          options := by
  intro hcompletes
  have hthumbnail := (hcompletes (exactText ℝ) thumbnail [] ⟨true, false, true⟩ (by decide)
    (by decide)).1
  rw [renderSvg_completes] at hthumbnail
  have hlabelled := hthumbnail rfl thumbnailGalaxy List.mem_cons_self
  have hkind : thumbnailGalaxy.kind ≠ "field-star" := by decide
  have hframe : encompassesFrame realFunctions thumbnailGalaxy
      (thumbnail.imageWidth.toNat : ℝ) (thumbnail.imageHeight.toNat : ℝ) = false := by
    have hsize : thumbnailGalaxy.semiMajorPx ≤ 0.0 := by
      change (0 : ℝ) ≤ 0.0
      norm_num
    rw [encompassesFrame, if_pos hsize]
  rw [Labelled, or_iff_right hkind, hframe, if_neg Bool.false_ne_true] at hlabelled
  have hwidth : (thumbnail.imageWidth.toNat : ℝ) = 10 := by
    change ((10 : ℕ) : ℝ) = 10
    norm_num
  rw [hwidth] at hlabelled
  linarith [hlabelled.1]

end

end SeizaServer.Overlay
