import Mathlib.Algebra.Order.Field.Rat
import Mathlib.Data.Rat.Floor
import SeizaServer.ObjectOverlay

/-!
# Catalog text in the overlay

The markup of an object as elements whose values are the strings themselves:
the renderer writes these elements, a reader of markup finds them again, and
names, roles and qualities decide nothing but values.
-/

set_option linter.unusedSectionVars false

namespace SeizaServer.Overlay

open Solver MarkupText

/-! ## Escaping -/

theorem replace_append (c : Char) (replacement : String) (first second : List Char) :
    replace c replacement (first ++ second) =
      replace c replacement first ++ replace c replacement second :=
  List.flatMap_append

/-- The five replacements, one after the other. -/
def replaceAll (text : List Char) : List Char :=
  replace '\'' "&apos;" (replace '"' "&quot;" (replace '>' "&gt;" (replace '<' "&lt;"
    (replace '&' "&amp;" text))))

theorem replaceAll_append (first second : List Char) :
    replaceAll (first ++ second) = replaceAll first ++ replaceAll second := by
  simp only [replaceAll, replace_append]

theorem replace_singleton {c d : Char} (hd : d ≠ c) (replacement : String) :
    replace c replacement [d] = [d] := by
  rw [replace, List.flatMap_singleton, if_neg hd]

/-- The ampersands that one replacement writes are not replaced by another. -/
theorem replaceAll_singleton (c : Char) : replaceAll [c] = entity c := by
  by_cases hc : IsMarkup c
  · rcases hc with rfl | rfl | rfl | rfl | rfl <;> rfl
  · rw [entity_of_not_isMarkup hc]
    simp only [IsMarkup, not_or] at hc
    obtain ⟨hand, hless, hgreater, hquote, hsingle⟩ := hc
    rw [replaceAll, replace_singleton hand, replace_singleton hless, replace_singleton hgreater,
      replace_singleton hquote, replace_singleton hsingle]

theorem xmlEscape_eq (value : String) : xmlEscape value = escape value.toList := by
  change replaceAll value.toList = escape value.toList
  induction value.toList with
  | nil => rfl
  | cons c text ih =>
      rw [escape_cons, ← ih, ← replaceAll_singleton, ← replaceAll_append, List.singleton_append]

/-! ## Values that need no entity -/

variable {K : Type} (numbers : NumberText K)

@[simp] theorem escape_fixed (decimals : ℕ) (value : K) :
    escape (numbers.fixed decimals value) = numbers.fixed decimals value :=
  escape_of_plain (numbers.plain decimals value)

@[simp] theorem admitted_fixed (decimals : ℕ) (value : K) :
    Admitted (numbers.fixed decimals value) :=
  numbers.admitted decimals value

/-- A constant that stands in an attribute as it is. -/
structure Plain (text : String) : Prop where
  escape_eq : escape text.toList = text.toList
  admitted : Admitted text.toList

instance (text : String) : Decidable (Plain text) :=
  decidable_of_iff (escape text.toList = text.toList ∧ Admitted text.toList)
    ⟨fun h => ⟨h.1, h.2⟩, fun h => ⟨h.escape_eq, h.admitted⟩⟩

theorem escape_pathPoint {command : String} (hcommand : Plain command)
    (point : K × K) : escape (pathPoint numbers command point) = pathPoint numbers command point := by
  simp [pathPoint, hcommand.escape_eq, entity]

theorem admitted_pathPoint {command : String} (hcommand : Plain command) (point : K × K) :
    Admitted (pathPoint numbers command point) := by
  have hspace : Plain " " := by decide
  simp only [pathPoint, admitted_append, hcommand.admitted, hspace.admitted, admitted_fixed,
    and_self]

theorem escape_flatMap {α : Type} {write : α → List Char} (hwrite : ∀ x, escape (write x) = write x)
    (values : List α) : escape (values.flatMap write) = values.flatMap write := by
  induction values with
  | nil => rfl
  | cons value values ih => rw [List.flatMap_cons, escape_append, hwrite, ih]

theorem escape_contourPath (closed : Bool) (first : K × K) (rest : List (K × K)) :
    escape (contourPath numbers closed first rest) = contourPath numbers closed first rest := by
  have hline : Plain " L " := by decide
  have hmove : Plain "M " := by decide
  unfold contourPath
  rw [escape_append, escape_append, escape_pathPoint numbers hmove,
    escape_flatMap (escape_pathPoint numbers hline)]
  cases closed <;> rfl

theorem admitted_contourPath (closed : Bool) (first : K × K) (rest : List (K × K)) :
    Admitted (contourPath numbers closed first rest) := by
  have hline : Plain " L " := by decide
  have hmove : Plain "M " := by decide
  have hclose : Plain " Z" := by decide
  have hrest : Admitted (rest.flatMap (pathPoint numbers " L ")) :=
    admitted_flatMap fun point _ => admitted_pathPoint numbers hline point
  unfold contourPath
  split_ifs <;>
    simp only [admitted_append, admitted_pathPoint numbers hmove, hrest, hclose.admitted,
      admitted_nil, and_self]

theorem plain_ite {condition : Prop} [Decidable condition] {first second : String}
    (hfirst : Plain first) (hsecond : Plain second) :
    Plain (if condition then first else second) := by
  split_ifs
  · exact hfirst
  · exact hsecond

theorem plain_deepSkyCatalogColor (name : String) : Plain (deepSkyCatalogColor name) := by
  have hlast : Plain "#c1d1d3" := by decide
  unfold deepSkyCatalogColor
  iterate 10 refine plain_ite (by decide) ?_
  exact hlast

theorem plain_satelliteColor (object : DrawnObject K) : Plain (satelliteColor object) := by
  unfold satelliteColor
  split <;> decide

theorem plain_objectColor (object : DrawnObject K) : Plain (objectColor object) := by
  unfold objectColor
  split_ifs
  · decide
  · decide
  · decide
  · decide
  · decide
  · exact plain_satelliteColor object
  · exact plain_deepSkyCatalogColor object.name

/-! ## Elements -/

/-- An element whose names are given as strings. -/
def element (name : String) (pairs : List (String × List Char)) (body : Option (List Char)) : Leaf where
  name := name.toList
  attributes := pairs.map fun pair => (pair.1.toList, pair.2)
  body := body

/-- Attributes whose values were escaped before they were inserted. -/
theorem attrs_escape (pairs : List (String × List Char)) :
    attrs (pairs.map fun pair => (pair.1, escape pair.2)) =
      (pairs.map fun pair => (pair.1.toList, pair.2)).flatMap writeAttribute := by
  rw [attrs, List.flatMap_map, List.flatMap_map]
  rfl

theorem emptyTag_escape {name : String} {pairs inserted : List (String × List Char)}
    (hinserted : pairs.map (fun pair => (pair.1, escape pair.2)) = inserted) :
    emptyTag name inserted = (element name pairs none).write := by
  rw [← hinserted, emptyTag, attrs_escape]
  rfl

theorem textTag_escape {name : String} {pairs inserted : List (String × List Char)}
    {text body : List Char} (hinserted : pairs.map (fun pair => (pair.1, escape pair.2)) = inserted)
    (hbody : escape text = body) :
    textTag name inserted body = (element name pairs (some text)).write := by
  rw [← hinserted, ← hbody, textTag, attrs_escape]
  rfl

theorem clean_element {name : String} {pairs : List (String × List Char)} {body : Option (List Char)}
    (keys : List String) (hkeys : pairs.map Prod.fst = keys)
    (hnames : ((name :: keys).all fun key => isName key.toList) = true)
    (hvalues : ∀ pair ∈ pairs, Admitted pair.2) (hbody : ∀ text ∈ body, Admitted text) :
    (element name pairs body).Clean where
  name := by
    rw [List.all_cons, Bool.and_eq_true, isName_iff] at hnames
    exact hnames.1
  keys := by
    rw [List.all_cons, Bool.and_eq_true] at hnames
    intro pair hpair
    obtain ⟨source, hsource, rfl⟩ := List.mem_map.mp hpair
    have hkey : source.1 ∈ keys := hkeys ▸ List.mem_map_of_mem hsource
    exact isName_iff.mp (List.all_eq_true.mp hnames.2 source.1 hkey)
  values := by
    intro pair hpair
    obtain ⟨source, hsource, rfl⟩ := List.mem_map.mp hpair
    exact hvalues source hsource
  text := hbody

theorem outline_element (name : String) (pairs : List (String × List Char))
    (body : Option (List Char)) : (element name pairs body).outline =
      (name.toList, pairs.map fun pair => pair.1.toList, body.isSome) := by
  simp [Leaf.outline, element]

variable [Add K] [Sub K] [Mul K] [Div K] [Neg K] [Min K] [Max K] [LE K] [DecidableLE K]
  [LT K] [DecidableLT K] [OfScientific K] (floats : FloatFunctions K)

def fieldStarElement (object : DrawnObject K) (displayUnit : K) : Leaf :=
  element "circle"
    [ ("class", "marker".toList), ("stroke", "#eef7ff".toList), ("opacity", ".78".toList),
      ("cx", numbers.fixed 2 object.x), ("cy", numbers.fixed 2 object.y),
      ("r", numbers.fixed 2 (3.5 * displayUnit)) ] none

theorem renderFieldStar_eq (object : DrawnObject K) (displayUnit : K) :
    renderFieldStar numbers object displayUnit =
      (fieldStarElement numbers object displayUnit).write := by
  apply emptyTag_escape
  simp only [List.map_cons, List.map_nil, escape_fixed]
  rfl

theorem plain_marker : Plain "marker" := by decide

theorem plain_label : Plain "label" := by decide

def contourElements (object : DrawnObject K) (outline : DrawnOutline K) (color : String)
    (contour : DrawnContour K) : List Leaf :=
  let (className, outlineColor) := outlineClass object outline color
  match contour.points with
  | [] => []
  | first :: rest =>
      [ element "path"
          [ ("class", className.toList), ("data-geometry-id", outline.geometryId.toList),
            ("data-outline-level", (outline.level.getD "").toList),
            ("data-outline-role", outline.role.toList),
            ("data-outline-quality", outline.quality.toList), ("stroke", outlineColor.toList),
            ("d", contourPath numbers contour.closed first rest) ] none ]

theorem plain_outlineClass (object : DrawnObject K) (outline : DrawnOutline K) {color : String}
    (hcolor : Plain color) : Plain (outlineClass object outline color).1 ∧
      Plain (outlineClass object outline color).2 := by
  have hpredicted : Plain "marker object-outline satellite-predicted" := by decide
  have haligned : Plain "marker object-outline satellite-pixel-aligned" := by decide
  have hstroke : Plain "#7cff6b" := by decide
  have hother : Plain "marker object-outline" := by decide
  unfold outlineClass
  split_ifs
  · exact ⟨hpredicted, hcolor⟩
  · exact ⟨haligned, hstroke⟩
  · exact ⟨hother, hcolor⟩

theorem renderContour_eq (object : DrawnObject K) (outline : DrawnOutline K) {color : String}
    (hcolor : Plain color) (contour : DrawnContour K) :
    renderContour numbers object outline color contour =
      (contourElements numbers object outline color contour).flatMap Leaf.write := by
  obtain ⟨hclass, hstroke⟩ := plain_outlineClass object outline hcolor
  unfold renderContour contourElements
  dsimp only
  cases contour.points with
  | nil => rfl
  | cons first rest =>
      rw [List.flatMap_singleton]
      apply emptyTag_escape
      simp only [List.map_cons, List.map_nil, xmlEscape_eq, escape_contourPath, hclass.escape_eq,
        hstroke.escape_eq]

def outlineElements (object : DrawnObject K) (color : String) : List Leaf :=
  object.outlines.flatMap fun outline =>
    outline.contours.flatMap (contourElements numbers object outline color)

theorem renderOutlines_eq (object : DrawnObject K) {color : String} (hcolor : Plain color) :
    renderOutlines numbers object color =
      (outlineElements numbers object color).flatMap Leaf.write := by
  simp only [renderOutlines, outlineElements, List.flatMap_assoc]
  refine List.flatMap_congr fun outline _ => List.flatMap_congr fun contour _ => ?_
  exact renderContour_eq numbers object outline hcolor contour

/-! ### Tails -/

theorem plain_tailPath {object : DrawnObject K} {size radians tip : K} {path : List Char}
    {className : String} (htail : tailPath numbers floats object size radians tip =
      some (path, className)) : (escape path = path ∧ Admitted path) ∧ Plain className := by
  have hmove : Plain "M " := by decide
  have hnext : Plain " M " := by decide
  have hline : Plain " L " := by decide
  have hcomet : Plain "comet-tail" := by decide
  have hasteroid : Plain "asteroid-tail" := by decide
  unfold tailPath at htail
  dsimp only at htail
  split_ifs at htail
  · obtain ⟨flare, _, hresult⟩ := Option.map_eq_some_iff.mp htail
    rw [Prod.mk.injEq] at hresult
    rw [← hresult.1, ← hresult.2]
    refine ⟨?_, hcomet⟩
    simp only [escape_append, escape_pathPoint numbers hmove, escape_pathPoint numbers hnext,
      escape_pathPoint numbers hline, admitted_append, admitted_pathPoint numbers hmove,
      admitted_pathPoint numbers hnext, admitted_pathPoint numbers hline, and_self]
  · obtain ⟨arrowWidth, _, hresult⟩ := Option.map_eq_some_iff.mp htail
    rw [Prod.mk.injEq] at hresult
    rw [← hresult.1, ← hresult.2]
    refine ⟨?_, hasteroid⟩
    simp only [escape_append, escape_pathPoint numbers hmove, escape_pathPoint numbers hnext,
      escape_pathPoint numbers hline, admitted_append, admitted_pathPoint numbers hmove,
      admitted_pathPoint numbers hnext, admitted_pathPoint numbers hline, and_self]

def tailElement (object : DrawnObject K) (size angleDegrees : K) (vectorLengthPixels : Option K)
    (color : String) : Option Leaf :=
  let tip := tipDistance floats object size vectorLengthPixels
  (tailPath numbers floats object size (floats.toRadians angleDegrees) tip).map
    fun (path, className) =>
      element "path"
        ([ ("class", "marker direction-tail ".toList ++ className.toList),
            ("data-direction-angle", numbers.fixed 2 angleDegrees) ] ++
          motionAttributes numbers object.motionArcsecPerHour vectorLengthPixels ++
          [("stroke", color.toList), ("d", path)]) none

theorem escape_motionAttributes (motion vectorLength : Option K) :
    (motionAttributes numbers motion vectorLength).map (fun pair => (pair.1, escape pair.2)) =
      motionAttributes numbers motion vectorLength := by
  cases motion with
  | none => rfl
  | some speed =>
      cases vectorLength with
      | none => simp [motionAttributes]
      | some length => simp [motionAttributes]

theorem renderDirectionTail_eq (object : DrawnObject K) (size angleDegrees : K)
    (vectorLength : Option K) {color : String} (hcolor : Plain color) :
    renderDirectionTail numbers floats object size angleDegrees vectorLength color =
      (tailElement numbers floats object size angleDegrees vectorLength color).map Leaf.write := by
  unfold renderDirectionTail tailElement
  dsimp only
  rw [Option.map_map]
  apply Option.map_congr
  rintro ⟨path, className⟩ htail
  obtain ⟨⟨hpath, _⟩, hclass⟩ := plain_tailPath numbers floats htail
  have hbegin : escape "marker direction-tail ".toList = "marker direction-tail ".toList := by decide
  apply emptyTag_escape
  rw [List.map_append, List.map_append, escape_motionAttributes]
  simp only [List.map_cons, List.map_nil, escape_append, hbegin, hclass.escape_eq, escape_fixed,
    hcolor.escape_eq, hpath]

/-! ### Markers and labels -/

def movingBodyElements (width pixelScale : K) (object : DrawnObject K) (displayUnit : K)
    (color : String) : Option (List Leaf) :=
  let size := max (width / 75.0) (14.0 * displayUnit)
  let diamond := element "path"
    [ ("class", "marker".toList), ("stroke", color.toList),
      ("d", diamondPath numbers object size) ] none
  match object.directionAngleDeg with
  | some angle =>
      if object.kind = "comet" || object.kind = "asteroid" then do
        let vectorLength ← movingBodyVectorLength floats size object.motionArcsecPerHour pixelScale
        let tail ← tailElement numbers floats object size angle vectorLength color
        return [diamond, tail]
      else some [diamond]
  | none => some [diamond]

theorem renderDiamond_eq (object : DrawnObject K) (size : K) {color : String}
    (hcolor : Plain color) :
    renderDiamond numbers object size color =
      (element "path"
        [ ("class", "marker".toList), ("stroke", color.toList),
          ("d", diamondPath numbers object size) ] none).write := by
  have hmove : Plain "M " := by decide
  have hline : Plain " L " := by decide
  have hclose : Plain " Z" := by decide
  apply emptyTag_escape
  simp only [List.map_cons, List.map_nil, plain_marker.escape_eq, hcolor.escape_eq, diamondPath,
    escape_append, escape_pathPoint numbers hmove, escape_pathPoint numbers hline, hclose.escape_eq]

theorem renderMovingBody_eq (width pixelScale : K) (object : DrawnObject K) (displayUnit : K)
    {color : String} (hcolor : Plain color) :
    renderMovingBody numbers floats width pixelScale object displayUnit color =
      (movingBodyElements numbers floats width pixelScale object displayUnit color).map
        (List.flatMap Leaf.write) := by
  unfold renderMovingBody movingBodyElements
  dsimp only
  rw [renderDiamond_eq numbers object _ hcolor]
  cases object.directionAngleDeg with
  | none => simp only [Option.map_some, List.flatMap_singleton]
  | some angle =>
      dsimp only
      split_ifs
      · cases movingBodyVectorLength floats (max (width / 75.0) (14.0 * displayUnit))
            object.motionArcsecPerHour pixelScale with
        | none => rfl
        | some vectorLength =>
            simp only [Option.bind_eq_bind, Option.bind_some]
            rw [renderDirectionTail_eq numbers floats object _ _ _ hcolor]
            cases tailElement numbers floats object (max (width / 75.0) (14.0 * displayUnit)) angle
              vectorLength color with
            | none => rfl
            | some tail =>
                simp only [Option.map_some, Option.bind_some, Option.pure_def, List.flatMap_cons,
                  List.flatMap_nil, List.append_nil]
      · simp only [Option.map_some, List.flatMap_singleton]

def crossElement (object : DrawnObject K) (displayUnit : K) (color : String) : Leaf :=
  element "path"
    [ ("class", "marker".toList), ("stroke", color.toList),
      ("d", crossPath numbers object displayUnit) ] none

theorem renderCross_eq (object : DrawnObject K) (displayUnit : K) {color : String}
    (hcolor : Plain color) :
    renderCross numbers object displayUnit color =
      (crossElement numbers object displayUnit color).write := by
  have hmove : Plain "M " := by decide
  have hnext : Plain " M " := by decide
  have hacross : Plain " H " := by decide
  apply emptyTag_escape
  simp only [List.map_cons, List.map_nil, plain_marker.escape_eq, hcolor.escape_eq, crossPath,
    escape_append, escape_pathPoint numbers hmove, escape_pathPoint numbers hnext, hacross.escape_eq,
    escape_fixed]

def ellipseElement (width height : K) (object : DrawnObject K) (displayUnit : K)
    (color : String) : Leaf :=
  let radiusX := min (max object.semiMajorPx (10.0 * displayUnit)) (width * 2.0)
  let radiusY :=
    if object.angleDeg.isNone then radiusX
    else min (max object.semiMinorPx (10.0 * displayUnit)) (height * 2.0)
  let x := numbers.fixed 2 object.x
  let y := numbers.fixed 2 object.y
  let angle := numbers.fixed 2 (object.angleDeg.getD 0.0)
  element "ellipse"
    [ ("class", "marker".toList), ("stroke", color.toList), ("cx", x), ("cy", y),
      ("rx", numbers.fixed 2 radiusX), ("ry", numbers.fixed 2 radiusY),
      ("transform", "rotate(".toList ++ angle ++ " ".toList ++ x ++ " ".toList ++ y ++
        ")".toList) ] none

theorem renderEllipse_eq (width height : K) (object : DrawnObject K) (displayUnit : K)
    {color : String} (hcolor : Plain color) :
    renderEllipse numbers width height object displayUnit color =
      (ellipseElement numbers width height object displayUnit color).write := by
  have hrotate : Plain "rotate(" := by decide
  have hspace : Plain " " := by decide
  have hclose : Plain ")" := by decide
  apply emptyTag_escape
  simp only [List.map_cons, List.map_nil, plain_marker.escape_eq, hcolor.escape_eq, escape_append,
    hrotate.escape_eq, hspace.escape_eq, hclose.escape_eq, escape_fixed]

variable (width height : K) (showOutlines : Bool) (pixelScale displayScale : K)

def markerElements (object : DrawnObject K) (displayUnit : K) (color : String) :
    Option (List Leaf) :=
  if object.kind = "star" || object.kind = "double-star" || object.kind = "identified-star" then
    some [crossElement numbers object displayUnit color]
  else if object.kind = "transient" || object.kind = "comet" || object.kind = "asteroid" then
    movingBodyElements numbers floats width pixelScale object displayUnit color
  else if object.kind = "satellite" then some (outlineElements numbers object color)
  else if object.outlines.isEmpty || !showOutlines then
    some [ellipseElement numbers width height object displayUnit color]
  else some (outlineElements numbers object color)

theorem renderMarker_eq (object : DrawnObject K) (displayUnit : K) {color : String}
    (hcolor : Plain color) :
    renderMarker numbers floats width height showOutlines pixelScale object displayUnit color =
      (markerElements numbers floats width height showOutlines pixelScale object displayUnit
        color).map (List.flatMap Leaf.write) := by
  unfold renderMarker markerElements
  rw [renderCross_eq numbers object displayUnit hcolor, renderOutlines_eq numbers object hcolor,
    renderEllipse_eq numbers width height object displayUnit hcolor,
    renderMovingBody_eq numbers floats width pixelScale object displayUnit hcolor]
  split_ifs <;> simp

/-- What a label says, before it is escaped. -/
def labelText (object : DrawnObject K) : List Char :=
  let label := if trimText object.commonName.toList = [] then object.name else object.commonName
  let magnitude := magnitudeText numbers object.mag
  if label = object.name then object.name.toList ++ magnitude
  else label.toList ++ " (".toList ++ object.name.toList ++ ")".toList ++ magnitude

theorem escape_magnitudeText (mag : Option K) :
    escape (magnitudeText numbers mag) = magnitudeText numbers mag := by
  have hbegin : Plain " · mag " := by decide
  cases mag with
  | none => rfl
  | some mag =>
      simp only [magnitudeText, Option.elim_some, escape_append, hbegin.escape_eq, escape_fixed]

theorem displayLabel_eq (object : DrawnObject K) :
    displayLabel numbers object = escape (labelText numbers object) := by
  have hopen : Plain " (" := by decide
  have hclose : Plain ")" := by decide
  unfold displayLabel labelText
  dsimp only
  simp only [xmlEscape_eq, escape_injective.eq_iff, String.toList_inj]
  split_ifs <;>
    simp only [escape_append, hopen.escape_eq, hclose.escape_eq, escape_magnitudeText]

def frameLabelElement (object : DrawnObject K) (displayUnit : K) (color : String) :
    Option Leaf := do
  let x ← clamp object.x (16.0 * displayUnit) (width - 16.0 * displayUnit)
  let y ← clamp object.y (68.0 * displayUnit) (height - 16.0 * displayUnit)
  return element "text"
    [ ("class", "label".toList), ("x", numbers.fixed 2 x), ("y", numbers.fixed 2 y),
      ("fill", color.toList) ] (some (labelText numbers object))

def labelElement (object : DrawnObject K) (displayUnit : K) : Option Leaf := do
  let x ← clamp (object.x + 14.0 * displayUnit) (8.0 * displayUnit) (width - 8.0 * displayUnit)
  let y ← clamp (object.y - 14.0 * displayUnit) (18.0 * displayUnit) (height - 8.0 * displayUnit)
  return element "text"
    [("class", "label".toList), ("x", numbers.fixed 2 x), ("y", numbers.fixed 2 y)]
    (some (labelText numbers object))

theorem renderFrameLabel_eq (object : DrawnObject K) (displayUnit : K) {color : String}
    (hcolor : Plain color) :
    renderFrameLabel numbers width height object displayUnit color =
      (frameLabelElement numbers width height object displayUnit color).map Leaf.write := by
  unfold renderFrameLabel frameLabelElement
  cases clamp object.x (16.0 * displayUnit) (width - 16.0 * displayUnit) with
  | none => rfl
  | some x =>
      cases clamp object.y (68.0 * displayUnit) (height - 16.0 * displayUnit) with
      | none => rfl
      | some y =>
          simp only [Option.bind_eq_bind, Option.bind_some, Option.pure_def, Option.map_some,
            Option.some.injEq]
          apply textTag_escape _ (displayLabel_eq numbers object).symm
          simp only [List.map_cons, List.map_nil, plain_label.escape_eq, hcolor.escape_eq,
            escape_fixed]

theorem renderLabel_eq (object : DrawnObject K) (displayUnit : K) :
    renderLabel numbers width height object displayUnit =
      (labelElement numbers width height object displayUnit).map Leaf.write := by
  unfold renderLabel labelElement
  cases clamp (object.x + 14.0 * displayUnit) (8.0 * displayUnit) (width - 8.0 * displayUnit) with
  | none => rfl
  | some x =>
      cases clamp (object.y - 14.0 * displayUnit) (18.0 * displayUnit)
        (height - 8.0 * displayUnit) with
      | none => rfl
      | some y =>
          simp only [Option.bind_eq_bind, Option.bind_some, Option.pure_def, Option.map_some,
            Option.some.injEq]
          apply textTag_escape _ (displayLabel_eq numbers object).symm
          simp only [List.map_cons, List.map_nil, plain_label.escape_eq, escape_fixed]

/-- The elements of an object, their values as they are in the data. -/
def objectElements (object : DrawnObject K) : Option (List Leaf) :=
  let displayUnit := 1.0 / displayScale
  let color := objectColor object
  if object.kind = "field-star" then some [fieldStarElement numbers object displayUnit]
  else if encompassesFrame floats object width height then
    (frameLabelElement numbers width height object displayUnit color).map ([·])
  else do
    let marker ← markerElements numbers floats width height showOutlines pixelScale object
      displayUnit color
    let label ← labelElement numbers width height object displayUnit
    return marker ++ [label]

theorem renderObject_eq (object : DrawnObject K) :
    renderObject numbers floats width height showOutlines pixelScale displayScale object =
      (objectElements numbers floats width height showOutlines pixelScale displayScale object).map
        (List.flatMap Leaf.write) := by
  have hcolor := plain_objectColor object
  unfold renderObject objectElements
  dsimp only
  rw [renderFieldStar_eq, renderFrameLabel_eq numbers width height object _ hcolor,
    renderMarker_eq numbers floats width height showOutlines pixelScale object _ hcolor,
    renderLabel_eq]
  split_ifs
  · simp
  · simp [Function.comp_def]
  · cases markerElements numbers floats width height showOutlines pixelScale object
        (1.0 / displayScale) (objectColor object) with
    | none => rfl
    | some marker =>
        cases labelElement numbers width height object (1.0 / displayScale) with
        | none => rfl
        | some label => simp

def objectsElements (objects : List (DrawnObject K)) : Option (List Leaf) :=
  (objects.mapM (objectElements numbers floats width height showOutlines pixelScale
    displayScale)).map List.flatten

theorem renderObjects_eq (objects : List (DrawnObject K)) :
    renderObjects numbers floats width height showOutlines pixelScale displayScale objects =
      (objectsElements numbers floats width height showOutlines pixelScale displayScale
        objects).map (List.flatMap Leaf.write) := by
  unfold renderObjects objectsElements
  induction objects with
  | nil => rfl
  | cons object objects ih =>
      rw [Option.map_map] at ih
      rw [List.mapM_cons, List.mapM_cons, renderObject_eq, Option.map_map]
      cases objectElements numbers floats width height showOutlines pixelScale displayScale
          object with
      | none => rfl
      | some elements =>
          cases hrest : objects.mapM (objectElements numbers floats width height showOutlines
            pixelScale displayScale) with
          | none =>
              rw [hrest, Option.map_none, Option.map_eq_none_iff] at ih
              simp [ih]
          | some rest =>
              rw [hrest, Option.map_some, Option.map_eq_some_iff] at ih
              obtain ⟨written, hwritten, hflat⟩ := ih
              simp [hwritten, hflat]

/-! ## The texts in the tags -/

/-- The texts of an outline, in characters that XML admits. -/
structure DrawnOutline.AdmittedText (outline : DrawnOutline K) : Prop where
  geometryId : Admitted outline.geometryId.toList
  level : Admitted (outline.level.getD "").toList
  role : Admitted outline.role.toList
  quality : Admitted outline.quality.toList

structure DrawnObject.AdmittedText (object : DrawnObject K) : Prop where
  name : Admitted object.name.toList
  commonName : Admitted object.commonName.toList
  outlines : ∀ outline ∈ object.outlines, outline.AdmittedText

theorem clean_contourElements {object : DrawnObject K} {outline : DrawnOutline K}
    (htext : outline.AdmittedText) {color : String} (hcolor : Plain color)
    (contour : DrawnContour K) :
    ∀ leaf ∈ contourElements numbers object outline color contour, leaf.Clean := by
  obtain ⟨hclass, hstroke⟩ := plain_outlineClass object outline hcolor
  unfold contourElements
  dsimp only
  cases contour.points with
  | nil => exact List.forall_mem_nil _
  | cons first rest =>
      rw [List.forall_mem_singleton]
      apply clean_element
        [ "class", "data-geometry-id", "data-outline-level", "data-outline-role",
          "data-outline-quality", "stroke", "d" ] rfl (by decide)
      · simp only [List.forall_mem_cons, hclass.admitted, htext.geometryId, htext.level, htext.role,
          htext.quality, hstroke.admitted, admitted_contourPath, List.not_mem_nil, false_implies,
          implies_true, and_self]
      · simp

theorem clean_outlineElements {object : DrawnObject K} (htext : object.AdmittedText)
    {color : String} (hcolor : Plain color) :
    ∀ leaf ∈ outlineElements numbers object color, leaf.Clean := by
  intro leaf hleaf
  obtain ⟨outline, houtline, hmem⟩ := List.mem_flatMap.mp hleaf
  obtain ⟨contour, _, hmem⟩ := List.mem_flatMap.mp hmem
  exact clean_contourElements numbers (htext.outlines outline houtline) hcolor contour leaf hmem

theorem admitted_motionAttributes (motion vectorLength : Option K) :
    ∀ pair ∈ motionAttributes numbers motion vectorLength, Admitted pair.2 := by
  cases motion with
  | none => simp [motionAttributes]
  | some speed =>
      cases vectorLength with
      | none => simp [motionAttributes]
      | some length => simp [motionAttributes]

theorem clean_tailElement {object : DrawnObject K} {size angle : K} {vectorLength : Option K}
    {color : String} (hcolor : Plain color) {leaf : Leaf}
    (hleaf : tailElement numbers floats object size angle vectorLength color = some leaf) :
    leaf.Clean := by
  obtain ⟨⟨path, className⟩, htail, rfl⟩ := Option.map_eq_some_iff.mp hleaf
  obtain ⟨⟨_, hpath⟩, hclass⟩ := plain_tailPath numbers floats htail
  have hbegin : Plain "marker direction-tail " := by decide
  have hvalues : ∀ pair ∈ [ ("class", "marker direction-tail ".toList ++ className.toList),
        ("data-direction-angle", numbers.fixed 2 angle) ] ++
      motionAttributes numbers object.motionArcsecPerHour vectorLength ++
      [("stroke", color.toList), ("d", path)], Admitted pair.2 := by
    simp only [List.forall_mem_append, List.forall_mem_cons, admitted_append, hbegin.admitted,
      hclass.admitted, admitted_fixed, hcolor.admitted, hpath, List.not_mem_nil, false_implies,
      implies_true, and_self, true_and, and_true]
    exact admitted_motionAttributes numbers object.motionArcsecPerHour vectorLength
  have hbody : ∀ text ∈ (none : Option (List Char)), Admitted text := by simp
  dsimp only
  cases hmotion : object.motionArcsecPerHour with
  | none =>
      rw [hmotion] at hvalues
      exact clean_element ["class", "data-direction-angle", "stroke", "d"] rfl (by decide) hvalues
        hbody
  | some speed =>
      rw [hmotion] at hvalues
      cases vectorLength with
      | none =>
          exact clean_element
            ["class", "data-direction-angle", "data-motion-arcsec-per-hour", "stroke", "d"] rfl
            (by decide) hvalues hbody
      | some length =>
          exact clean_element
            [ "class", "data-direction-angle", "data-motion-arcsec-per-hour",
              "data-motion-vector-length", "stroke", "d" ] rfl (by decide) hvalues hbody

theorem clean_markerPath {color : String} (hcolor : Plain color) {path : List Char}
    (hpath : Admitted path) :
    (element "path" [("class", "marker".toList), ("stroke", color.toList), ("d", path)]
      none).Clean := by
  apply clean_element ["class", "stroke", "d"] rfl (by decide)
  · simp only [List.forall_mem_cons, plain_marker.admitted, hcolor.admitted, hpath,
      List.not_mem_nil, false_implies, implies_true, and_self]
  · simp

theorem admitted_diamondPath (object : DrawnObject K) (size : K) :
    Admitted (diamondPath numbers object size) := by
  have hmove : Plain "M " := by decide
  have hline : Plain " L " := by decide
  have hclose : Plain " Z" := by decide
  simp only [diamondPath, admitted_append, admitted_pathPoint numbers hmove,
    admitted_pathPoint numbers hline, hclose.admitted, and_self]

theorem admitted_crossPath (object : DrawnObject K) (displayUnit : K) :
    Admitted (crossPath numbers object displayUnit) := by
  have hmove : Plain "M " := by decide
  have hnext : Plain " M " := by decide
  have hacross : Plain " H " := by decide
  simp only [crossPath, admitted_append, admitted_pathPoint numbers hmove,
    admitted_pathPoint numbers hnext, hacross.admitted, admitted_fixed, and_self]

theorem clean_movingBodyElements {object : DrawnObject K} {displayUnit : K} {color : String}
    (hcolor : Plain color) {elements : List Leaf} (helements : movingBodyElements numbers floats
      width pixelScale object displayUnit color = some elements) :
    ∀ leaf ∈ elements, leaf.Clean := by
  have hdiamond := clean_markerPath hcolor (admitted_diamondPath numbers object
    (max (width / 75.0) (14.0 * displayUnit)))
  unfold movingBodyElements at helements
  dsimp only at helements
  cases hangle : object.directionAngleDeg with
  | none =>
      rw [hangle] at helements
      cases helements
      exact List.forall_mem_singleton.mpr hdiamond
  | some angle =>
      rw [hangle] at helements
      dsimp only at helements
      split_ifs at helements
      · simp only [Option.bind_eq_bind, Option.bind_eq_some_iff, Option.pure_def,
          Option.some.injEq] at helements
        obtain ⟨vectorLength, _, tail, htail, rfl⟩ := helements
        rw [List.forall_mem_cons, List.forall_mem_singleton]
        exact ⟨hdiamond, clean_tailElement numbers floats hcolor htail⟩
      · cases helements
        exact List.forall_mem_singleton.mpr hdiamond

theorem clean_ellipseElement (object : DrawnObject K) (displayUnit : K) {color : String}
    (hcolor : Plain color) :
    (ellipseElement numbers width height object displayUnit color).Clean := by
  have hrotate : Plain "rotate(" := by decide
  have hspace : Plain " " := by decide
  have hclose : Plain ")" := by decide
  apply clean_element ["class", "stroke", "cx", "cy", "rx", "ry", "transform"] rfl (by decide)
  · simp only [List.forall_mem_cons, plain_marker.admitted, hcolor.admitted, admitted_append,
      hrotate.admitted, hspace.admitted, hclose.admitted, admitted_fixed, List.not_mem_nil,
      false_implies, implies_true, and_self]
  · simp

theorem clean_markerElements {object : DrawnObject K} (htext : object.AdmittedText)
    {displayUnit : K} {color : String} (hcolor : Plain color) {elements : List Leaf}
    (helements : markerElements numbers floats width height showOutlines pixelScale object
      displayUnit color = some elements) : ∀ leaf ∈ elements, leaf.Clean := by
  unfold markerElements at helements
  split_ifs at helements
  · cases helements
    exact List.forall_mem_singleton.mpr
      (clean_markerPath hcolor (admitted_crossPath numbers object displayUnit))
  · exact clean_movingBodyElements numbers floats width pixelScale hcolor helements
  · cases helements
    exact clean_outlineElements numbers htext hcolor
  · cases helements
    exact List.forall_mem_singleton.mpr
      (clean_ellipseElement numbers width height object displayUnit hcolor)
  · cases helements
    exact clean_outlineElements numbers htext hcolor

theorem admitted_labelText {object : DrawnObject K} (htext : object.AdmittedText) :
    Admitted (labelText numbers object) := by
  have hbegin : Plain " · mag " := by decide
  have hopen : Plain " (" := by decide
  have hclose : Plain ")" := by decide
  have hmagnitude : Admitted (magnitudeText numbers object.mag) := by
    cases object.mag with
    | none => rfl
    | some mag =>
        simp only [magnitudeText, Option.elim_some, admitted_append, hbegin.admitted,
          admitted_fixed, and_self]
  unfold labelText
  dsimp only
  split_ifs <;>
    simp only [admitted_append, htext.name, htext.commonName, hopen.admitted, hclose.admitted,
      hmagnitude, and_self]

theorem clean_labelElement {object : DrawnObject K} (htext : object.AdmittedText)
    {displayUnit : K} {leaf : Leaf}
    (hleaf : labelElement numbers width height object displayUnit = some leaf) : leaf.Clean := by
  simp only [labelElement, Option.bind_eq_bind, Option.bind_eq_some_iff, Option.pure_def,
    Option.some.injEq] at hleaf
  obtain ⟨x, _, y, _, rfl⟩ := hleaf
  apply clean_element ["class", "x", "y"] rfl (by decide)
  · simp only [List.forall_mem_cons, plain_label.admitted, admitted_fixed, List.not_mem_nil,
      false_implies, implies_true, and_self]
  · simp [admitted_labelText numbers htext]

theorem clean_frameLabelElement {object : DrawnObject K} (htext : object.AdmittedText)
    {displayUnit : K} {color : String} (hcolor : Plain color) {leaf : Leaf}
    (hleaf : frameLabelElement numbers width height object displayUnit color = some leaf) :
    leaf.Clean := by
  simp only [frameLabelElement, Option.bind_eq_bind, Option.bind_eq_some_iff, Option.pure_def,
    Option.some.injEq] at hleaf
  obtain ⟨x, _, y, _, rfl⟩ := hleaf
  apply clean_element ["class", "x", "y", "fill"] rfl (by decide)
  · simp only [List.forall_mem_cons, plain_label.admitted, hcolor.admitted, admitted_fixed,
      List.not_mem_nil, false_implies, implies_true, and_self]
  · simp [admitted_labelText numbers htext]

theorem clean_fieldStarElement (object : DrawnObject K) (displayUnit : K) :
    (fieldStarElement numbers object displayUnit).Clean := by
  have hstroke : Plain "#eef7ff" := by decide
  have hopacity : Plain ".78" := by decide
  apply clean_element ["class", "stroke", "opacity", "cx", "cy", "r"] rfl (by decide)
  · simp only [List.forall_mem_cons, plain_marker.admitted, hstroke.admitted, hopacity.admitted,
      admitted_fixed, List.not_mem_nil, false_implies, implies_true, and_self]
  · simp

theorem clean_objectElements {object : DrawnObject K} (htext : object.AdmittedText)
    {elements : List Leaf} (helements : objectElements numbers floats width height showOutlines
      pixelScale displayScale object = some elements) : ∀ leaf ∈ elements, leaf.Clean := by
  have hcolor := plain_objectColor object
  unfold objectElements at helements
  dsimp only at helements
  split_ifs at helements
  · cases helements
    exact List.forall_mem_singleton.mpr (clean_fieldStarElement numbers object _)
  · obtain ⟨leaf, hleaf, rfl⟩ := Option.map_eq_some_iff.mp helements
    exact List.forall_mem_singleton.mpr
      (clean_frameLabelElement numbers width height htext hcolor hleaf)
  · simp only [Option.bind_eq_bind, Option.bind_eq_some_iff, Option.pure_def,
      Option.some.injEq] at helements
    obtain ⟨marker, hmarker, label, hlabel, rfl⟩ := helements
    rw [List.forall_mem_append, List.forall_mem_singleton]
    exact ⟨clean_markerElements numbers floats width height showOutlines pixelScale htext hcolor
      hmarker, clean_labelElement numbers width height htext hlabel⟩

theorem clean_objectsElements {objects : List (DrawnObject K)}
    (htexts : ∀ object ∈ objects, object.AdmittedText) {elements : List Leaf}
    (helements : objectsElements numbers floats width height showOutlines pixelScale displayScale
      objects = some elements) : ∀ leaf ∈ elements, leaf.Clean := by
  obtain ⟨lists, hlists, rfl⟩ := Option.map_eq_some_iff.mp helements
  clear helements
  induction objects generalizing lists with
  | nil => simp_all
  | cons object objects ih =>
      rw [List.forall_mem_cons] at htexts
      simp only [List.mapM_cons, Option.bind_eq_bind, Option.bind_eq_some_iff, Option.pure_def,
        Option.some.injEq] at hlists
      obtain ⟨first, hfirst, rest, hrest, rfl⟩ := hlists
      rw [List.flatten_cons, List.forall_mem_append]
      exact ⟨clean_objectElements numbers floats width height showOutlines pixelScale displayScale
        htexts.1 hfirst, ih htexts.2 rest hrest⟩

/-! ## Two catalogs -/

/-- Equal but for the names and the texts of the outlines. -/
structure DrawnObject.SameButText (first second : DrawnObject K) : Prop where
  kind : first.kind = second.kind
  mag : first.mag = second.mag
  x : first.x = second.x
  y : first.y = second.y
  semiMajorPx : first.semiMajorPx = second.semiMajorPx
  semiMinorPx : first.semiMinorPx = second.semiMinorPx
  angleDeg : first.angleDeg = second.angleDeg
  motionArcsecPerHour : first.motionArcsecPerHour = second.motionArcsecPerHour
  directionAngleDeg : first.directionAngleDeg = second.directionAngleDeg
  contours : first.outlines.map DrawnOutline.contours =
    second.outlines.map DrawnOutline.contours

/-- The outline of the elements of a contour. -/
def contourOutline (contour : DrawnContour K) : List (List Char × List (List Char) × Bool) :=
  if contour.points.isEmpty then []
  else
    [("path".toList, [ "class", "data-geometry-id", "data-outline-level", "data-outline-role",
      "data-outline-quality", "stroke", "d" ].map String.toList, false)]

theorem contourElements_outline (object : DrawnObject K) (outline : DrawnOutline K)
    (color : String) (contour : DrawnContour K) :
    (contourElements numbers object outline color contour).map Leaf.outline =
      contourOutline contour := by
  unfold contourElements contourOutline
  dsimp only
  cases contour.points with
  | nil => rfl
  | cons first rest =>
      simp only [List.isEmpty_cons, Bool.false_eq_true, if_false, List.map_cons, List.map_nil,
        outline_element, Option.isSome_none]

theorem outlineElements_outline (object : DrawnObject K) (color : String) :
    (outlineElements numbers object color).map Leaf.outline =
      (object.outlines.map DrawnOutline.contours).flatMap (List.flatMap contourOutline) := by
  simp only [outlineElements, List.map_flatMap, contourElements_outline, List.flatMap_map]

variable {first second : DrawnObject K}

theorem outlineElements_same (hsame : first.SameButText second) (color other : String) :
    (outlineElements numbers first color).map Leaf.outline =
      (outlineElements numbers second other).map Leaf.outline := by
  rw [outlineElements_outline, outlineElements_outline, hsame.contours]

theorem tailElement_same (hsame : first.SameButText second) (size angle : K)
    (vectorLength : Option K) (color other : String) :
    (tailElement numbers floats first size angle vectorLength color).map Leaf.outline =
      (tailElement numbers floats second size angle vectorLength other).map Leaf.outline := by
  have htip : tipDistance floats first size vectorLength =
      tipDistance floats second size vectorLength := by
    simp only [tipDistance, hsame.kind]
  have hpath : tailPath numbers floats first size = tailPath numbers floats second size := by
    funext radians tip
    simp only [tailPath, along, hsame.kind, hsame.x, hsame.y]
  simp only [tailElement, htip, hpath, hsame.motionArcsecPerHour, Option.map_map]
  congr 1
  funext pair
  simp only [Function.comp_apply, outline_element, List.map_append, List.map_cons, List.map_nil]

theorem movingBodyElements_same (hsame : first.SameButText second) (displayUnit : K)
    (color other : String) :
    (movingBodyElements numbers floats width pixelScale first displayUnit color).map
        (List.map Leaf.outline) =
      (movingBodyElements numbers floats width pixelScale second displayUnit other).map
        (List.map Leaf.outline) := by
  unfold movingBodyElements
  dsimp only
  rw [hsame.directionAngleDeg, hsame.kind, hsame.motionArcsecPerHour]
  cases second.directionAngleDeg with
  | none => rfl
  | some angle =>
      dsimp only
      split_ifs
      · cases movingBodyVectorLength floats (max (width / 75.0) (14.0 * displayUnit))
            second.motionArcsecPerHour pixelScale with
        | none => rfl
        | some vectorLength =>
            have htail := tailElement_same numbers floats hsame
              (max (width / 75.0) (14.0 * displayUnit)) angle vectorLength color other
            simp only [Option.bind_eq_bind, Option.bind_some]
            generalize tailElement numbers floats first _ angle vectorLength color = tail at htail ⊢
            generalize tailElement numbers floats second _ angle vectorLength other = rest at htail ⊢
            cases tail with
            | none => cases rest with
              | none => rfl
              | some rest => cases htail
            | some tail => cases rest with
              | none => cases htail
              | some rest =>
                  rw [Option.map_some, Option.map_some, Option.some.injEq] at htail
                  simp only [Option.bind_some, Option.pure_def, Option.map_some, List.map_cons,
                    List.map_nil, htail]
                  rfl
      · rfl

theorem outlines_isEmpty (hsame : first.SameButText second) :
    first.outlines.isEmpty = second.outlines.isEmpty := by
  have hlength := congrArg List.length hsame.contours
  simp only [List.length_map] at hlength
  rw [Bool.eq_iff_iff, List.isEmpty_iff_length_eq_zero, List.isEmpty_iff_length_eq_zero, hlength]

theorem markerElements_same (hsame : first.SameButText second) (displayUnit : K)
    (color other : String) :
    (markerElements numbers floats width height showOutlines pixelScale first displayUnit
        color).map (List.map Leaf.outline) =
      (markerElements numbers floats width height showOutlines pixelScale second displayUnit
        other).map (List.map Leaf.outline) := by
  unfold markerElements
  rw [hsame.kind, outlines_isEmpty hsame]
  split_ifs
  · rfl
  · exact movingBodyElements_same numbers floats width pixelScale hsame displayUnit color other
  · rw [Option.map_some, Option.map_some, outlineElements_same numbers hsame]
  · rfl
  · rw [Option.map_some, Option.map_some, outlineElements_same numbers hsame]

theorem frameLabelElement_same (hsame : first.SameButText second) (displayUnit : K)
    (color other : String) :
    (frameLabelElement numbers width height first displayUnit color).map Leaf.outline =
      (frameLabelElement numbers width height second displayUnit other).map Leaf.outline := by
  unfold frameLabelElement
  rw [hsame.x, hsame.y]
  cases clamp second.x (16.0 * displayUnit) (width - 16.0 * displayUnit) with
  | none => rfl
  | some x =>
      cases clamp second.y (68.0 * displayUnit) (height - 16.0 * displayUnit) with
      | none => rfl
      | some y => rfl

theorem labelElement_same (hsame : first.SameButText second) (displayUnit : K) :
    (labelElement numbers width height first displayUnit).map Leaf.outline =
      (labelElement numbers width height second displayUnit).map Leaf.outline := by
  unfold labelElement
  rw [hsame.x, hsame.y]
  cases clamp (second.x + 14.0 * displayUnit) (8.0 * displayUnit) (width - 8.0 * displayUnit) with
  | none => rfl
  | some x =>
      cases clamp (second.y - 14.0 * displayUnit) (18.0 * displayUnit)
        (height - 8.0 * displayUnit) with
      | none => rfl
      | some y => rfl

theorem encompassesFrame_same (hsame : first.SameButText second) :
    encompassesFrame floats first width height = encompassesFrame floats second width height := by
  simp only [encompassesFrame, hsame.semiMajorPx, hsame.semiMinorPx, hsame.angleDeg, hsame.x,
    hsame.y]

/-- A last element has the outline of its part. -/
theorem outline_append {marker other : Option (List Leaf)} {label text : Option Leaf}
    (hmarker : marker.map (List.map Leaf.outline) = other.map (List.map Leaf.outline))
    (hlabel : label.map Leaf.outline = text.map Leaf.outline) :
    (marker.bind fun elements => label.bind fun leaf => some (elements ++ [leaf])).map
        (List.map Leaf.outline) =
      (other.bind fun elements => text.bind fun leaf => some (elements ++ [leaf])).map
        (List.map Leaf.outline) := by
  cases marker with
  | none =>
      rw [Option.map_none, eq_comm, Option.map_eq_none_iff] at hmarker
      rw [hmarker]
      rfl
  | some elements =>
      rw [Option.map_some, eq_comm, Option.map_eq_some_iff] at hmarker
      obtain ⟨others, rfl, hmarker⟩ := hmarker
      cases label with
      | none =>
          rw [Option.map_none, eq_comm, Option.map_eq_none_iff] at hlabel
          rw [hlabel]
          rfl
      | some leaf =>
          rw [Option.map_some, eq_comm, Option.map_eq_some_iff] at hlabel
          obtain ⟨last, rfl, hlabel⟩ := hlabel
          simp [hmarker, hlabel]

/-- The elements of a list of objects, one object after the other. -/
theorem outline_flatten {first second : Option (List Leaf)} {rest others : Option (List (List Leaf))}
    (hfirst : first.map (List.map Leaf.outline) = second.map (List.map Leaf.outline))
    (hrest : (rest.map List.flatten).map (List.map Leaf.outline) =
      (others.map List.flatten).map (List.map Leaf.outline)) :
    ((first.bind fun elements => rest.bind fun remaining => some (elements :: remaining)).map
        List.flatten).map (List.map Leaf.outline) =
      ((second.bind fun elements => others.bind fun remaining => some (elements :: remaining)).map
        List.flatten).map (List.map Leaf.outline) := by
  rw [Option.map_map] at hrest
  cases first with
  | none =>
      rw [Option.map_none, eq_comm, Option.map_eq_none_iff] at hfirst
      rw [hfirst]
      rfl
  | some elements =>
      rw [Option.map_some, eq_comm, Option.map_eq_some_iff] at hfirst
      obtain ⟨same, rfl, hfirst⟩ := hfirst
      cases rest with
      | none =>
          rw [Option.map_none, eq_comm, Option.map_map, Option.map_eq_none_iff] at hrest
          rw [hrest]
          rfl
      | some rest =>
          rw [Option.map_some, eq_comm, Option.map_map, Option.map_eq_some_iff] at hrest
          obtain ⟨remaining, rfl, hrest⟩ := hrest
          simp only [Function.comp_apply] at hrest
          simp [hfirst, hrest]

theorem objectElements_same (hsame : first.SameButText second) :
    (objectElements numbers floats width height showOutlines pixelScale displayScale first).map
        (List.map Leaf.outline) =
      (objectElements numbers floats width height showOutlines pixelScale displayScale second).map
        (List.map Leaf.outline) := by
  unfold objectElements
  dsimp only
  rw [hsame.kind, encompassesFrame_same floats width height hsame]
  split_ifs
  · rfl
  · have hlabel := congrArg (Option.map ([·])) (frameLabelElement_same numbers width height hsame
      (1.0 / displayScale) (objectColor first) (objectColor second))
    rw [Option.map_map, Option.map_map] at hlabel
    rw [Option.map_map, Option.map_map]
    exact hlabel
  · have hmarker := markerElements_same numbers floats width height showOutlines pixelScale hsame
      (1.0 / displayScale) (objectColor first) (objectColor second)
    have hlabel := labelElement_same numbers width height hsame (1.0 / displayScale)
    exact outline_append hmarker hlabel

theorem objectsElements_same {objects others : List (DrawnObject K)}
    (hsame : List.Forall₂ DrawnObject.SameButText objects others) :
    (objectsElements numbers floats width height showOutlines pixelScale displayScale objects).map
        (List.map Leaf.outline) =
      (objectsElements numbers floats width height showOutlines pixelScale displayScale others).map
        (List.map Leaf.outline) := by
  unfold objectsElements
  induction hsame with
  | nil => rfl
  | @cons object other objects others hhead _ ih =>
      have hobject := objectElements_same numbers floats width height showOutlines pixelScale
        displayScale hhead
      rw [List.mapM_cons, List.mapM_cons]
      exact outline_flatten hobject ih

/-! ## Markup and catalog text -/

theorem read_of_rendered {objects : List (DrawnObject K)}
    (htexts : ∀ object ∈ objects, object.AdmittedText) {markup : List Char}
    (hrender : renderObjects numbers floats width height showOutlines pixelScale displayScale
      objects = some markup) :
    ∃ elements, objectsElements numbers floats width height showOutlines pixelScale displayScale
        objects = some elements ∧ markup = elements.flatMap Leaf.write ∧
      read markup = some (elements.flatMap Leaf.tokens) := by
  rw [renderObjects_eq] at hrender
  obtain ⟨elements, helements, rfl⟩ := Option.map_eq_some_iff.mp hrender
  have hclean := clean_objectsElements numbers floats width height showOutlines pixelScale
    displayScale htexts helements
  exact ⟨elements, helements, rfl, read_writes hclean⟩

/-- Objects that differ in their texts alone are drawn with one structure or not
drawn at all, the elements read back carry the texts themselves, and escaping
loses nothing. -/
theorem catalog_text_inert {objects others : List (DrawnObject K)}
    (hsame : List.Forall₂ DrawnObject.SameButText objects others)
    (htexts : ∀ object ∈ objects, object.AdmittedText)
    (hothers : ∀ object ∈ others, object.AdmittedText) :
    ((renderObjects numbers floats width height showOutlines pixelScale displayScale objects =
          none ∧
        renderObjects numbers floats width height showOutlines pixelScale displayScale others =
          none) ∨
      ∃ markup other shapes,
        renderObjects numbers floats width height showOutlines pixelScale displayScale objects =
          some markup ∧
        renderObjects numbers floats width height showOutlines pixelScale displayScale others =
          some other ∧
        structureOf markup = some shapes ∧ structureOf other = some shapes) ∧
    (∀ markup, renderObjects numbers floats width height showOutlines pixelScale displayScale
        objects = some markup →
      ∃ elements, objectsElements numbers floats width height showOutlines pixelScale displayScale
          objects = some elements ∧ markup = elements.flatMap Leaf.write ∧
        read markup = some (elements.flatMap Leaf.tokens)) ∧
    (∀ value : String, xmlEscape value = value.toList.flatMap entity ∧
      unescape (xmlEscape value) = some value.toList) ∧
    Function.Injective xmlEscape := by
  have helements := objectsElements_same numbers floats width height showOutlines pixelScale
    displayScale hsame
  refine ⟨?_, ?_, ?_, ?_⟩
  · rw [renderObjects_eq, renderObjects_eq]
    cases hwritten : objectsElements numbers floats width height showOutlines pixelScale
        displayScale objects with
    | none =>
        rw [hwritten, Option.map_none, eq_comm, Option.map_eq_none_iff] at helements
        exact .inl ⟨rfl, by rw [helements, Option.map_none]⟩
    | some written =>
        rw [hwritten, Option.map_some, eq_comm, Option.map_eq_some_iff] at helements
        obtain ⟨second, hsecond, houtline⟩ := helements
        have hclean := clean_objectsElements numbers floats width height showOutlines pixelScale
          displayScale htexts hwritten
        have hother := clean_objectsElements numbers floats width height showOutlines pixelScale
          displayScale hothers hsecond
        have hstructure : structureOf (written.flatMap Leaf.write) =
            some ((written.flatMap Leaf.tokens).filterMap Token.shape) := by
          rw [structureOf, read_writes hclean, Option.map_some]
        rw [hsecond, Option.map_some, Option.map_some]
        exact .inr ⟨_, _, _, rfl, rfl, hstructure,
          (structureOf_writes hother hclean houtline).trans hstructure⟩
  · intro markup hmarkup
    exact read_of_rendered numbers floats width height showOutlines pixelScale displayScale htexts
      hmarkup
  · intro value
    rw [xmlEscape_eq]
    exact ⟨rfl, unescape_escape value.toList⟩
  · intro value other heq
    rw [xmlEscape_eq, xmlEscape_eq] at heq
    exact String.toList_inj.mp (escape_injective heq)

/-- The functions at an angle of zero. -/
def straight : FloatFunctions ℚ where
  epsilon := 1 / 2 ^ 52
  abs := fun value => |value|
  sin _ := 0
  cos _ := 1
  toRadians _ := 0
  isFinite _ := true
  isSignNegative value := value < 0
  floor value := ⌊value⌋
  round value := if 0 ≤ value then ⌊value + 1 / 2⌋ else -⌊1 / 2 - value⌋
  remEuclid value divisor := value - divisor * ⌊value / divisor⌋
  toU32 value := .ofNat (min ⌊value⌋.toNat (2 ^ 32 - 1))
  toU64 value := min ⌊value⌋.toNat (2 ^ 64 - 1)

def namedGalaxy (name commonName role : String) : DrawnObject ℚ where
  name
  commonName
  kind := "galaxy"
  mag := some (17 / 2)
  x := 50
  y := 40
  semiMajorPx := 10
  semiMinorPx := 5
  angleDeg := some 0
  motionArcsecPerHour := none
  directionAngleDeg := none
  outlines := [⟨name, role, commonName, some role, [⟨true, [(45, 40), (55, 40), (50, 45)]⟩]⟩]

theorem namedGalaxy_same (name other common second role label : String) :
    (namedGalaxy name common role).SameButText (namedGalaxy other second label) where
  kind := rfl
  mag := rfl
  x := rfl
  y := rfl
  semiMajorPx := rfl
  semiMinorPx := rfl
  angleDeg := rfl
  motionArcsecPerHour := rfl
  directionAngleDeg := rfl
  contours := rfl

theorem namedGalaxy_admitted {name commonName role : String} (hname : Admitted name.toList)
    (hcommon : Admitted commonName.toList) (hrole : Admitted role.toList) :
    (namedGalaxy name commonName role).AdmittedText where
  name := hname
  commonName := hcommon
  outlines := List.forall_mem_singleton.mpr ⟨hname, hrole, hrole, hcommon⟩

theorem catalog_text_inert_markup :
    List.Forall₂ DrawnObject.SameButText
        [namedGalaxy "A&B" "<target>" "\"/><script>"] [namedGalaxy "M 31" " " "component"] ∧
      ∃ markup other shapes,
        renderObjects (exactText ℚ) straight 100 80 true 1 1
          [namedGalaxy "A&B" "<target>" "\"/><script>"] = some markup ∧
        renderObjects (exactText ℚ) straight 100 80 true 1 1
          [namedGalaxy "M 31" " " "component"] = some other ∧
        structureOf markup = some shapes ∧ structureOf other = some shapes := by
  have hsame : List.Forall₂ DrawnObject.SameButText
      [namedGalaxy "A&B" "<target>" "\"/><script>"] [namedGalaxy "M 31" " " "component"] :=
    .cons (namedGalaxy_same ..) .nil
  have hfirst : (renderObjects (exactText ℚ) straight 100 80 true 1 1
      [namedGalaxy "A&B" "<target>" "\"/><script>"]).isSome = true := by decide +kernel
  have htexts := catalog_text_inert (exactText ℚ) straight 100 80 true 1 1 hsame
    (List.forall_mem_singleton.mpr (namedGalaxy_admitted (by decide) (by decide) (by decide)))
    (List.forall_mem_singleton.mpr (namedGalaxy_admitted (by decide) (by decide) (by decide)))
  refine ⟨hsame, htexts.1.resolve_left ?_⟩
  rintro ⟨hnone, _⟩
  rw [hnone] at hfirst
  cases hfirst

/-- A control character of a name reaches the document, which is then none. -/
theorem catalog_text_inert_counterexample :
    ¬ ∀ objects others : List (DrawnObject ℚ),
      List.Forall₂ DrawnObject.SameButText objects others →
      ∀ markup other,
        renderObjects (exactText ℚ) straight 100 80 true 1 1 objects = some markup →
        renderObjects (exactText ℚ) straight 100 80 true 1 1 others = some other →
        ∃ shapes, structureOf markup = some shapes ∧ structureOf other = some shapes := by
  intro hclaim
  have hsame : List.Forall₂ DrawnObject.SameButText
      [namedGalaxy "\x01" "" ""] [namedGalaxy "M 31" "" ""] :=
    .cons (namedGalaxy_same ..) .nil
  have hfirst : ∃ markup, renderObjects (exactText ℚ) straight 100 80 true 1 1
      [namedGalaxy "\x01" "" ""] = some markup ∧ read markup = none := by
    have hdrawn : ((renderObjects (exactText ℚ) straight 100 80 true 1 1
        [namedGalaxy "\x01" "" ""]).any fun markup => !decide (Admitted markup)) = true := by
      decide +kernel
    obtain ⟨markup, hmarkup, hrefused⟩ := (Option.any_eq_true ..).mp hdrawn
    exact ⟨markup, hmarkup, if_neg (by simpa using hrefused)⟩
  have hsecond : ∃ markup, renderObjects (exactText ℚ) straight 100 80 true 1 1
      [namedGalaxy "M 31" "" ""] = some markup :=
    Option.isSome_iff_exists.mp (by decide +kernel)
  obtain ⟨markup, hmarkup, hrefused⟩ := hfirst
  obtain ⟨other, hother⟩ := hsecond
  obtain ⟨shapes, hshapes, _⟩ := hclaim _ _ hsame markup other hmarkup hother
  rw [structureOf, hrefused] at hshapes
  cases hshapes

end SeizaServer.Overlay
