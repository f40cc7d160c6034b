import SeizaServer.SolutionCodec

/-!
# The picture inside flat bands

Four bands are measured one after another, each from its own edge inward and
within what the bands before it left.  Subtractions of `u32` values and reads of
pixels are checked here, so a result shows that none of them panics.
-/

namespace SeizaServer.FlatBands

open Solver

structure Rgb where
  red : UInt8
  green : UInt8
  blue : UInt8
  deriving DecidableEq

/-- A decoded image. -/
structure DynamicImage where
  width : ℕ
  height : ℕ
  pixel : ℕ → ℕ → Rgb
  width_lt : width < 2 ^ 32
  height_lt : height < 2 ^ 32
  /-- The pixels are in memory, of which a process has far less. -/
  pixels_lt : width * height < 2 ^ 62

def tolerance : UInt8 := 10

def minBandPx : ℕ := 2

/-- `u8::abs_diff`. -/
def absDiff (first second : UInt8) : UInt8 :=
  if first < second then second - first else first - second

/-- A subtraction that panics below zero. -/
def checkedSub (first second : ℕ) : Option ℕ :=
  if second ≤ first then some (first - second) else none

def near (colour pixel : Rgb) : Bool :=
  absDiff pixel.red colour.red ≤ tolerance && (absDiff pixel.green colour.green ≤ tolerance &&
    absDiff pixel.blue colour.blue ≤ tolerance)

/-- The flat lines from an index on, of at most so many. -/
def flatLines (colour : Rgb) (line : ℕ → Option (List Rgb)) : ℕ → ℕ → Option ℕ
  | _, 0 => some 0
  | index, remaining + 1 => do
      let pixels ← line index
      if pixels.all (near colour) then
        let rest ← flatLines colour line (index + 1) remaining
        some (rest + 1)
      else some 0

def band (lines : ℕ) (line : ℕ → Option (List Rgb)) : Option ℕ := do
  let first ← line 0
  first.head?.elim (some 0) fun colour => flatLines colour line 0 lines

/-- Thin bands are dropped. -/
def trim (lines : ℕ) : ℕ := if lines < minBandPx then 0 else lines

/-- At least a quarter of the side; the products are exact. -/
def enough (part whole : ℕ) : Bool := whole ≤ 4 * part

namespace DynamicImage

variable (image : DynamicImage)

def getPixel (x y : ℕ) : Option Rgb :=
  if x < image.width ∧ y < image.height then some (image.pixel x y) else none

/-- The pixels of a row. -/
def row (y : ℕ) : Option (List Rgb) := (List.range image.width).mapM fun x => image.getPixel x y

/-- The pixels of a column, between two rows. -/
def column (start stop x : ℕ) : Option (List Rgb) :=
  (List.range' start (stop - start)).mapM fun y => image.getPixel x y

def region (top bottom left right : ℕ) : Option (Option ContentRegion) := do
  -- A sum of `u32` values wraps.
  if (top + bottom + left + right) % 2 ^ 32 = 0 then some none
  else
    let inner ← checkedSub image.width left
    let width ← checkedSub inner right
    let below ← checkedSub image.height top
    let height ← checkedSub below bottom
    some (if enough width image.width && enough height image.height then
      some ⟨UInt32.ofNat left, UInt32.ofNat top, UInt32.ofNat width, UInt32.ofNat height⟩
    else none)

/-- `content_region::find`; the outer `none` is a panic. -/
def find : Option (Option ContentRegion) := do
  if image.width < 4 * minBandPx ∨ image.height < 4 * minBandPx then some none
  else
    let top ← band image.height image.row
    let rows ← checkedSub image.height top
    let bottom ← band rows fun line => do
      let last ← checkedSub image.height 1
      let y ← checkedSub last line
      image.row y
    let stop ← checkedSub image.height bottom
    let left ← band image.width fun line => image.column top stop line
    let columns ← checkedSub image.width left
    let right ← band columns fun line => do
      let last ← checkedSub image.width 1
      let x ← checkedSub last line
      image.column top stop x
    image.region (trim top) (trim bottom) (trim left) (trim right)

end DynamicImage

/-! ## What a band is -/

/-- Both colours agree up to the tolerance in every channel. -/
structure Within (colour pixel : Rgb) : Prop where
  red : pixel.red.toNat ≤ colour.red.toNat + 10 ∧ colour.red.toNat ≤ pixel.red.toNat + 10
  green : pixel.green.toNat ≤ colour.green.toNat + 10 ∧
    colour.green.toNat ≤ pixel.green.toNat + 10
  blue : pixel.blue.toNat ≤ colour.blue.toNat + 10 ∧ colour.blue.toNat ≤ pixel.blue.toNat + 10

theorem absDiff_le_iff (first second : UInt8) :
    absDiff first second ≤ tolerance ↔
      first.toNat ≤ second.toNat + 10 ∧ second.toNat ≤ first.toNat + 10 := by
  have hten : tolerance.toNat = 10 := rfl
  unfold absDiff
  rw [UInt8.le_iff_toNat_le, hten]
  split_ifs with hless
  · rw [UInt8.toNat_sub_of_le _ _ (UInt8.le_of_lt hless)]
    rw [UInt8.lt_iff_toNat_lt] at hless
    omega
  · rw [UInt8.not_lt] at hless
    rw [UInt8.toNat_sub_of_le _ _ hless]
    rw [UInt8.le_iff_toNat_le] at hless
    omega

theorem near_iff (colour pixel : Rgb) : near colour pixel = true ↔ Within colour pixel := by
  unfold near
  rw [Bool.and_eq_true, Bool.and_eq_true, decide_eq_true_iff, decide_eq_true_iff,
    decide_eq_true_iff, absDiff_le_iff, absDiff_le_iff, absDiff_le_iff]
  constructor
  · intro hall
    exact ⟨hall.1, hall.2.1, hall.2.2⟩
  · intro hwithin
    exact ⟨hwithin.red, hwithin.green, hwithin.blue⟩

/-- So many lines are flat, and the next one, if there is one, is not. -/
structure Measures (lines : ℕ) (flat : ℕ → Prop) (count : ℕ) : Prop where
  le : count ≤ lines
  all : ∀ index < count, flat index
  stops : count < lines → ¬ flat count

theorem flatLines_eq {colour : Rgb} {line : ℕ → Option (List Rgb)} {pixels : ℕ → List Rgb}
    {start lines : ℕ} (hline : ∀ index < start + lines, line index = some (pixels index)) :
    ∃ count, flatLines colour line start lines = some count ∧
      Measures lines (fun index => ∀ pixel ∈ pixels (start + index), Within colour pixel) count := by
  induction lines generalizing start with
  | zero =>
      refine ⟨0, rfl, le_rfl, ?_, ?_⟩
      · intro index hindex
        omega
      · intro hless
        omega
  | succ lines ih =>
      have hall : (pixels start).all (near colour) = true ↔
          ∀ pixel ∈ pixels start, Within colour pixel := by
        rw [List.all_eq_true]
        exact forall₂_congr fun pixel _ => near_iff colour pixel
      unfold flatLines
      rw [hline start (by omega)]
      dsimp only [bind, Option.bind]
      by_cases hflat : (pixels start).all (near colour) = true
      · obtain ⟨count, hcount, hmeasures⟩ := @ih (start + 1) fun index hindex =>
          hline index (by omega)
        rw [if_pos hflat, hcount]
        refine ⟨count + 1, rfl, Nat.succ_le_succ hmeasures.le, ?_, ?_⟩
        · intro index hindex
          cases index with
          | zero => exact hall.mp hflat
          | succ index =>
              have hlater := hmeasures.all index (by omega)
              rw [Nat.add_assoc, Nat.add_comm 1] at hlater
              exact hlater
        · intro hless
          have hlater := hmeasures.stops (by omega)
          rw [Nat.add_assoc, Nat.add_comm 1] at hlater
          exact hlater
      · rw [if_neg hflat]
        refine ⟨0, rfl, Nat.zero_le _, ?_, ?_⟩
        · intro index hindex
          omega
        · intro _ hcontra
          exact hflat (hall.mpr hcontra)

/-- A band of lines with a first pixel. -/
theorem band_eq {line : ℕ → Option (List Rgb)} {pixels : ℕ → List Rgb} {lines : ℕ} {colour : Rgb}
    (hline : ∀ index < max lines 1, line index = some (pixels index))
    (hcolour : (pixels 0).head? = some colour) :
    ∃ count, band lines line = some count ∧
      Measures lines (fun index => ∀ pixel ∈ pixels index, Within colour pixel) count := by
  obtain ⟨count, hcount, hmeasures⟩ := @flatLines_eq colour line pixels 0 lines
    fun index hindex => hline index (by omega)
  refine ⟨count, ?_, ?_⟩
  · unfold band
    rw [hline 0 (by omega)]
    dsimp only [bind, Option.bind]
    rw [hcolour]
    exact hcount
  · simp only [Nat.zero_add] at hmeasures
    exact hmeasures

/-- Lines without pixels are no band. -/
theorem band_of_empty {line : ℕ → Option (List Rgb)} {lines : ℕ} (hline : line 0 = some []) :
    band lines line = some 0 := by
  unfold band
  rw [hline]
  rfl

theorem mapM_eq_some {α β : Type} {f : α → Option β} {g : α → β} {values : List α}
    (hvalues : ∀ value ∈ values, f value = some (g value)) :
    values.mapM f = some (values.map g) := by
  induction values with
  | nil => rfl
  | cons value rest ih =>
      rw [List.mapM_cons, hvalues value List.mem_cons_self,
        ih fun later hmem => hvalues later (List.mem_cons_of_mem _ hmem)]
      rfl

theorem checkedSub_eq {first second : ℕ} (hle : second ≤ first) :
    checkedSub first second = some (first - second) := if_pos hle

theorem trim_le (lines : ℕ) : trim lines ≤ lines := by
  unfold trim
  split_ifs
  · exact Nat.zero_le _
  · exact le_rfl

/-- A band is kept as it is, or it is one line thin at most. -/
theorem trim_cases (lines : ℕ) : trim lines = lines ∨ trim lines = 0 ∧ lines = 1 := by
  unfold trim minBandPx
  split_ifs with hthin
  · omega
  · exact .inl rfl

/-! ## The four bands -/

namespace DynamicImage

variable (image : DynamicImage)

/-- A row near the first pixel of an edge row. -/
def RowFlat (edge y : ℕ) : Prop :=
  ∀ x < image.width, Within (image.pixel 0 edge) (image.pixel x y)

/-- A column near the first pixel of an edge column, between two rows. -/
def ColumnFlat (start stop edge x : ℕ) : Prop :=
  ∀ y, start ≤ y → y < stop → Within (image.pixel edge start) (image.pixel x y)

/-- The bands before thin ones are dropped.  Where the rows are all flat, no
columns are measured. -/
structure Bands (top bottom left right : ℕ) : Prop where
  topBand : Measures image.height (image.RowFlat 0) top
  bottomBand : Measures (image.height - top)
    (fun line => image.RowFlat (image.height - 1) (image.height - 1 - line)) bottom
  leftBand : top + bottom < image.height → Measures image.width
    (image.ColumnFlat top (image.height - bottom) 0) left
  rightBand : top + bottom < image.height → Measures (image.width - left)
    (fun line => image.ColumnFlat top (image.height - bottom) (image.width - 1)
      (image.width - 1 - line)) right
  noRows : image.height ≤ top + bottom → left = 0 ∧ right = 0

variable {image : DynamicImage} {top bottom left right : ℕ}

theorem row_eq {y : ℕ} (hy : y < image.height) :
    image.row y = some ((List.range image.width).map fun x => image.pixel x y) := by
  unfold row
  apply mapM_eq_some
  intro x hmem
  exact if_pos ⟨List.mem_range.mp hmem, hy⟩

theorem column_eq {start stop x : ℕ} (hx : x < image.width) (hstop : stop ≤ image.height) :
    image.column start stop x =
      some ((List.range' start (stop - start)).map fun y => image.pixel x y) := by
  unfold column
  apply mapM_eq_some
  intro y hmem
  rw [List.mem_range'_1] at hmem
  exact if_pos ⟨hx, by omega⟩

theorem forall_mem_row {y : ℕ} {colour : Rgb} :
    (∀ pixel ∈ (List.range image.width).map fun x => image.pixel x y, Within colour pixel) ↔
      ∀ x < image.width, Within colour (image.pixel x y) := by
  rw [List.forall_mem_map]
  exact forall_congr' fun x => by rw [List.mem_range]

theorem forall_mem_column {start stop x : ℕ} {colour : Rgb} :
    (∀ pixel ∈ (List.range' start (stop - start)).map fun y => image.pixel x y,
        Within colour pixel) ↔
      ∀ y, start ≤ y → y < stop → Within colour (image.pixel x y) := by
  rw [List.forall_mem_map]
  constructor
  · intro hall y hstart hstop
    exact hall y (List.mem_range'_1.mpr ⟨hstart, by omega⟩)
  · intro hall y hmem
    rw [List.mem_range'_1] at hmem
    exact hall y hmem.1 (by omega)

/-- A band of rows, read in any order. -/
theorem band_row {lines : ℕ} {place : ℕ → ℕ} {line : ℕ → Option (List Rgb)}
    (hwidth : 0 < image.width)
    (hline : ∀ index < max lines 1, line index = image.row (place index))
    (hplace : ∀ index < max lines 1, place index < image.height) :
    ∃ count, band lines line = some count ∧
      Measures lines (fun index => image.RowFlat (place 0) (place index)) count := by
  obtain ⟨count, hcount, hmeasures⟩ := @band_eq line
    (fun index => (List.range image.width).map fun x => image.pixel x (place index)) lines
    (image.pixel 0 (place 0))
    (fun index hindex => (hline index hindex).trans (row_eq (hplace index hindex)))
    (by rw [List.head?_map, List.head?_range, if_neg (Nat.ne_of_gt hwidth)]; rfl)
  refine ⟨count, hcount, ?_⟩
  simp only [forall_mem_row] at hmeasures
  exact hmeasures

/-- A band of columns between two rows. -/
theorem band_column {lines start stop : ℕ} {place : ℕ → ℕ} {line : ℕ → Option (List Rgb)}
    (hrows : start < stop) (hstop : stop ≤ image.height)
    (hline : ∀ index < max lines 1, line index = image.column start stop (place index))
    (hplace : ∀ index < max lines 1, place index < image.width) :
    ∃ count, band lines line = some count ∧
      Measures lines (fun index => image.ColumnFlat start stop (place 0) (place index)) count := by
  obtain ⟨count, hcount, hmeasures⟩ := @band_eq line
    (fun index => (List.range' start (stop - start)).map fun y => image.pixel (place index) y) lines
    (image.pixel (place 0) start)
    (fun index hindex => (hline index hindex).trans (column_eq (hplace index hindex) hstop))
    (by
      obtain ⟨count, hcount⟩ := Nat.exists_eq_add_of_lt hrows
      have hlength : stop - start = count + 1 := by omega
      rw [hlength]
      rfl)
  refine ⟨count, hcount, ?_⟩
  simp only [forall_mem_column] at hmeasures
  exact hmeasures

/-- No subtraction and no read panics while the bands are measured. -/
theorem find_eq_region (hwidth : 8 ≤ image.width) (hheight : 8 ≤ image.height) :
    ∃ top bottom left right, image.Bands top bottom left right ∧
      image.find = image.region (trim top) (trim bottom) (trim left) (trim right) := by
  obtain ⟨top, htop, htopMeasures⟩ := @band_row image image.height id image.row (by omega)
    (fun _ _ => rfl) fun index hindex => by
      change index < _
      omega
  let upward : ℕ → Option (List Rgb) := fun line => do
    let last ← checkedSub image.height 1
    let y ← checkedSub last line
    image.row y
  have hupward : ∀ index < max (image.height - top) 1,
      upward index = image.row (image.height - 1 - index) := by
    intro index hindex
    dsimp only [upward]
    rw [checkedSub_eq (by omega)]
    dsimp only [bind, Option.bind]
    rw [checkedSub_eq (by omega)]
  obtain ⟨bottom, hbottom, hbottomMeasures⟩ := @band_row image (image.height - top)
    (fun line => image.height - 1 - line) upward (by omega) hupward
    fun index _ => by omega
  have htopLe := htopMeasures.le
  have hbottomLe := hbottomMeasures.le
  let leftward : ℕ → Option (List Rgb) := fun line => image.column top (image.height - bottom) line
  -- Without rows between the bands there are no pixels to compare.
  have hleft : ∃ left, band image.width leftward = some left ∧
      (top + bottom < image.height → Measures image.width
        (image.ColumnFlat top (image.height - bottom) 0) left) ∧
      (image.height ≤ top + bottom → left = 0) := by
    by_cases hrows : top + bottom < image.height
    · obtain ⟨left, hband, hmeasures⟩ := @band_column image image.width top
        (image.height - bottom) id leftward (by omega) (Nat.sub_le _ _) (fun _ _ => rfl)
        fun index hindex => by
          change index < _
          omega
      exact ⟨left, hband, fun _ => hmeasures, fun hnone => absurd hrows (Nat.not_lt.mpr hnone)⟩
    · have hempty : leftward 0 = some [] := by
        dsimp only [leftward]
        rw [column_eq (by omega) (Nat.sub_le _ _), show image.height - bottom - top = 0 by omega]
        rfl
      exact ⟨0, band_of_empty hempty, fun hcontra => absurd hcontra hrows, fun _ => rfl⟩
  obtain ⟨left, hleftBand, hleftMeasures, hleftNone⟩ := hleft
  have hleftLe : left ≤ image.width := by
    by_cases hrows : top + bottom < image.height
    · exact (hleftMeasures hrows).le
    · rw [hleftNone (by omega)]
      exact Nat.zero_le _
  let rightward : ℕ → Option (List Rgb) := fun line => do
    let last ← checkedSub image.width 1
    let x ← checkedSub last line
    image.column top (image.height - bottom) x
  have hrightward : ∀ index < max (image.width - left) 1,
      rightward index = image.column top (image.height - bottom) (image.width - 1 - index) := by
    intro index hindex
    dsimp only [rightward]
    rw [checkedSub_eq (by omega)]
    dsimp only [bind, Option.bind]
    rw [checkedSub_eq (by omega)]
  have hright : ∃ right, band (image.width - left) rightward = some right ∧
      (top + bottom < image.height → Measures (image.width - left)
        (fun line => image.ColumnFlat top (image.height - bottom) (image.width - 1)
          (image.width - 1 - line)) right) ∧
      (image.height ≤ top + bottom → right = 0) := by
    by_cases hrows : top + bottom < image.height
    · obtain ⟨right, hband, hmeasures⟩ := @band_column image (image.width - left) top
        (image.height - bottom) (fun line => image.width - 1 - line) rightward (by omega)
        (Nat.sub_le _ _) hrightward fun index _ => by omega
      exact ⟨right, hband, fun _ => hmeasures, fun hnone => absurd hrows (Nat.not_lt.mpr hnone)⟩
    · have hempty : rightward 0 = some [] := by
        rw [hrightward 0 (by omega), column_eq (by omega) (Nat.sub_le _ _),
          show image.height - bottom - top = 0 by omega]
        rfl
      exact ⟨0, band_of_empty hempty, fun hcontra => absurd hcontra hrows, fun _ => rfl⟩
  obtain ⟨right, hrightBand, hrightMeasures, hrightNone⟩ := hright
  refine ⟨top, bottom, left, right, ⟨htopMeasures, hbottomMeasures, hleftMeasures, hrightMeasures,
    fun hnone => ⟨hleftNone hnone, hrightNone hnone⟩⟩, ?_⟩
  have hlarge : ¬ (image.width < 4 * minBandPx ∨ image.height < 4 * minBandPx) := by
    unfold minBandPx
    omega
  unfold find
  rw [if_neg hlarge, htop]
  dsimp only [bind, Option.bind]
  rw [checkedSub_eq htopLe]
  dsimp only
  change Option.bind (band (image.height - top) upward) _ = _
  rw [hbottom]
  dsimp only [Option.bind]
  rw [checkedSub_eq (show bottom ≤ image.height by omega)]
  dsimp only
  change Option.bind (band image.width leftward) _ = _
  rw [hleftBand]
  dsimp only [Option.bind]
  rw [checkedSub_eq hleftLe]
  dsimp only
  change Option.bind (band (image.width - left) rightward) _ = _
  rw [hrightBand]
  rfl

theorem Bands.le (hbands : image.Bands top bottom left right) :
    top + bottom ≤ image.height ∧ left + right ≤ image.width := by
  have htop := hbands.topBand.le
  have hbottom := hbands.bottomBand.le
  refine ⟨by omega, ?_⟩
  by_cases hrows : top + bottom < image.height
  · have hleft := (hbands.leftBand hrows).le
    have hright := (hbands.rightBand hrows).le
    omega
  · obtain ⟨hleft, hright⟩ := hbands.noRows (by omega)
    omega

/-- Nor does a subtraction afterwards. -/
theorem region_eq {top bottom left right : ℕ} (hrows : top + bottom ≤ image.height)
    (hcolumns : left + right ≤ image.width) :
    image.region top bottom left right =
      some (if (top + bottom + left + right) % 2 ^ 32 ≠ 0 ∧
          image.width ≤ 4 * (image.width - left - right) ∧
          image.height ≤ 4 * (image.height - top - bottom) then
        some ⟨UInt32.ofNat left, UInt32.ofNat top, UInt32.ofNat (image.width - left - right),
          UInt32.ofNat (image.height - top - bottom)⟩
      else none) := by
  unfold region
  by_cases hzero : (top + bottom + left + right) % 2 ^ 32 = 0
  · rw [if_pos hzero, if_neg (fun hall => hall.1 hzero)]
  · rw [if_neg hzero, checkedSub_eq (show left ≤ image.width by omega)]
    dsimp only [bind, Option.bind]
    rw [checkedSub_eq (show right ≤ image.width - left by omega),
      checkedSub_eq (show top ≤ image.height by omega)]
    dsimp only
    rw [checkedSub_eq (show bottom ≤ image.height - top by omega)]
    dsimp only
    congr 1
    unfold enough
    simp only [Bool.and_eq_true, decide_eq_true_eq, ne_eq, hzero, not_false_eq_true, true_and]

end DynamicImage

/-! ## The picture -/

/-- The rectangle, whose bands before trimming are given. -/
structure Picture (image : DynamicImage) (region : ContentRegion) (top bottom left right : ℕ) :
    Prop where
  inside : region.x.toNat + region.width.toNat ≤ image.width ∧
    region.y.toNat + region.height.toNat ≤ image.height
  differs : ¬ (region.width.toNat = image.width ∧ region.height.toNat = image.height)
  keeps : image.width ≤ 4 * region.width.toNat ∧ image.height ≤ 4 * region.height.toNat
  above : ∀ y < region.y.toNat, image.RowFlat 0 y
  below : ∀ y, region.y.toNat + region.height.toNat ≤ y → y < image.height →
    image.RowFlat (image.height - 1) y
  leftOf : ∀ x < region.x.toNat, image.ColumnFlat top (image.height - bottom) 0 x
  rightOf : ∀ x, region.x.toNat + region.width.toNat ≤ x → x < image.width →
    image.ColumnFlat top (image.height - bottom) (image.width - 1) x
  topMaximal : region.y.toNat = top ∧ ¬ image.RowFlat 0 region.y.toNat ∨
    region.y.toNat = 0 ∧ top = 1
  bottomMaximal : image.height - (region.y.toNat + region.height.toNat) = bottom ∧
      ¬ image.RowFlat (image.height - 1) (region.y.toNat + region.height.toNat - 1) ∨
    region.y.toNat + region.height.toNat = image.height ∧ bottom = 1
  leftMaximal : region.x.toNat = left ∧
      ¬ image.ColumnFlat top (image.height - bottom) 0 region.x.toNat ∨
    region.x.toNat = 0 ∧ left = 1
  rightMaximal : image.width - (region.x.toNat + region.width.toNat) = right ∧
      ¬ image.ColumnFlat top (image.height - bottom) (image.width - 1)
        (region.x.toNat + region.width.toNat - 1) ∨
    region.x.toNat + region.width.toNat = image.width ∧ right = 1

/-- Why there is no rectangle in a large image. -/
def NoPicture (image : DynamicImage) (top bottom left right : ℕ) : Prop :=
  (top < 2 ∧ bottom < 2 ∧ left < 2 ∧ right < 2) ∨
    4 * (image.width - trim left - trim right) < image.width ∨
    4 * (image.height - trim top - trim bottom) < image.height

variable {image : DynamicImage} {top bottom left right : ℕ}

/-- The bands of a rectangle leave a line between them. -/
theorem bands_lt {lines first second : ℕ} (hlines : 8 ≤ lines) (hle : first + second ≤ lines)
    (hkeeps : lines ≤ 4 * (lines - trim first - trim second)) : first + second < lines := by
  have hfirst := trim_cases first
  have hsecond := trim_cases second
  omega

theorem picture_of_bands (hbands : image.Bands top bottom left right)
    (hwidth : 8 ≤ image.width) (hheight : 8 ≤ image.height)
    (hsome : (trim top + trim bottom + trim left + trim right) % 2 ^ 32 ≠ 0)
    (hcolumns : image.width ≤ 4 * (image.width - trim left - trim right))
    (hrows : image.height ≤ 4 * (image.height - trim top - trim bottom)) :
    Picture image ⟨UInt32.ofNat (trim left), UInt32.ofNat (trim top),
      UInt32.ofNat (image.width - trim left - trim right),
      UInt32.ofNat (image.height - trim top - trim bottom)⟩ top bottom left right := by
  have hsmall := image.width_lt
  have hshort := image.height_lt
  obtain ⟨hheightLe, hwidthLe⟩ := hbands.le
  have htopLe := trim_le top
  have hbottomLe := trim_le bottom
  have hleftLe := trim_le left
  have hrightLe := trim_le right
  have hbetween := bands_lt hheight hheightLe hrows
  have hacross := bands_lt hwidth hwidthLe hcolumns
  have hleft := hbands.leftBand hbetween
  have hright := hbands.rightBand hbetween
  have hx : (UInt32.ofNat (trim left)).toNat = trim left := by
    rw [UInt32.toNat_ofNat', Nat.mod_eq_of_lt (by omega)]
  have hy : (UInt32.ofNat (trim top)).toNat = trim top := by
    rw [UInt32.toNat_ofNat', Nat.mod_eq_of_lt (by omega)]
  have hregionWidth : (UInt32.ofNat (image.width - trim left - trim right)).toNat =
      image.width - trim left - trim right := by
    rw [UInt32.toNat_ofNat', Nat.mod_eq_of_lt (by omega)]
  have hregionHeight : (UInt32.ofNat (image.height - trim top - trim bottom)).toNat =
      image.height - trim top - trim bottom := by
    rw [UInt32.toNat_ofNat', Nat.mod_eq_of_lt (by omega)]
  constructor
  · rw [hx, hy, hregionWidth, hregionHeight]
    omega
  · rw [hregionWidth, hregionHeight]
    intro hfull
    apply hsome
    have hzero : trim top + trim bottom + trim left + trim right = 0 := by omega
    rw [hzero, Nat.zero_mod]
  · rw [hregionWidth, hregionHeight]
    exact ⟨hcolumns, hrows⟩
  · intro y hless
    rw [hy] at hless
    exact hbands.topBand.all y (by omega)
  · intro y hbelow hless
    rw [hy, hregionHeight] at hbelow
    have hline := hbands.bottomBand.all (image.height - 1 - y) (by omega)
    rw [show image.height - 1 - (image.height - 1 - y) = y by omega] at hline
    exact hline
  · intro x hless
    rw [hx] at hless
    exact hleft.all x (by omega)
  · intro x hbeyond hless
    rw [hx, hregionWidth] at hbeyond
    have hline := hright.all (image.width - 1 - x) (by omega)
    rw [show image.width - 1 - (image.width - 1 - x) = x by omega] at hline
    exact hline
  · rw [hy]
    rcases trim_cases top with hkept | hdropped
    · rw [hkept]
      exact .inl ⟨rfl, hbands.topBand.stops (by omega)⟩
    · exact .inr hdropped
  · rw [hy, hregionHeight]
    rcases trim_cases bottom with hkept | hdropped
    · refine .inl ⟨by omega, ?_⟩
      rw [show trim top + (image.height - trim top - trim bottom) - 1 =
        image.height - 1 - bottom by omega]
      exact hbands.bottomBand.stops (by omega)
    · exact .inr ⟨by omega, hdropped.2⟩
  · rw [hx]
    rcases trim_cases left with hkept | hdropped
    · rw [hkept]
      exact .inl ⟨rfl, hleft.stops (by omega)⟩
    · exact .inr hdropped
  · rw [hx, hregionWidth]
    rcases trim_cases right with hkept | hdropped
    · refine .inl ⟨by omega, ?_⟩
      rw [show trim left + (image.width - trim left - trim right) - 1 =
        image.width - 1 - right by omega]
      exact hright.stops (by omega)
    · exact .inr ⟨by omega, hdropped.2⟩

/-- A sum of kept bands that wraps to zero would need more pixels than fit in
memory. -/
theorem noPicture_of_bands (hbands : image.Bands top bottom left right)
    (hnone : ¬ ((trim top + trim bottom + trim left + trim right) % 2 ^ 32 ≠ 0 ∧
      image.width ≤ 4 * (image.width - trim left - trim right) ∧
      image.height ≤ 4 * (image.height - trim top - trim bottom))) :
    NoPicture image top bottom left right := by
  have hsmall := image.width_lt
  have hshort := image.height_lt
  have hpixels := image.pixels_lt
  obtain ⟨hheightLe, hwidthLe⟩ := hbands.le
  have htopLe := trim_le top
  have hbottomLe := trim_le bottom
  have hleftLe := trim_le left
  have hrightLe := trim_le right
  unfold NoPicture
  by_cases hcolumns : image.width ≤ 4 * (image.width - trim left - trim right)
  · by_cases hrows : image.height ≤ 4 * (image.height - trim top - trim bottom)
    · have hzero : (trim top + trim bottom + trim left + trim right) % 2 ^ 32 = 0 := by
        by_contra hne
        exact hnone ⟨hne, hcolumns, hrows⟩
      have hthin : trim top + trim bottom + trim left + trim right = 0 := by
        by_contra hne
        have hlarge : 2 ^ 32 * 4 ≤ 3 * (image.width + image.height) := by omega
        have hproduct : 2 ^ 32 * (image.width + image.height) ≤
            image.width * image.height + 2 ^ 64 := by
          nlinarith [mul_nonneg (sub_nonneg.mpr (Int.ofNat_le.mpr hsmall.le))
            (sub_nonneg.mpr (Int.ofNat_le.mpr hshort.le))]
        omega
      have htop := trim_cases top
      have hbottom := trim_cases bottom
      have hleft := trim_cases left
      have hright := trim_cases right
      exact .inl (by omega)
    · exact .inr (.inr (by omega))
  · exact .inr (.inl (by omega))

/-- `find` never panics; its rectangle is the picture inside the bands, and it
has none only for one of the reasons. -/
theorem find_spec (image : DynamicImage) :
    ∃ result, image.find = some result ∧
      (∀ region, result = some region → ∃ top bottom left right,
        image.Bands top bottom left right ∧ Picture image region top bottom left right) ∧
      (result = none → image.width < 8 ∨ image.height < 8 ∨ ∃ top bottom left right,
        image.Bands top bottom left right ∧ NoPicture image top bottom left right) := by
  by_cases hsmall : image.width < 4 * minBandPx ∨ image.height < 4 * minBandPx
  · refine ⟨none, if_pos hsmall, ?_, ?_⟩
    · intro region hregion
      cases hregion
    · intro _
      unfold minBandPx at hsmall
      omega
  · unfold minBandPx at hsmall
    obtain ⟨top, bottom, left, right, hbands, hfind⟩ :=
      @DynamicImage.find_eq_region image (by omega) (by omega)
    obtain ⟨hrows, hcolumns⟩ := hbands.le
    have htopLe := trim_le top
    have hbottomLe := trim_le bottom
    have hleftLe := trim_le left
    have hrightLe := trim_le right
    rw [hfind, DynamicImage.region_eq (by omega) (by omega)]
    refine ⟨_, rfl, ?_, ?_⟩
    · intro region hregion
      split_ifs at hregion with hall
      · injection hregion with hregion
        rw [← hregion]
        exact ⟨top, bottom, left, right, hbands,
          picture_of_bands hbands (by omega) (by omega) hall.1 hall.2.1 hall.2.2⟩
    · intro hnone
      split_ifs at hnone with hall
      · exact .inr (.inr ⟨top, bottom, left, right, hbands, noPicture_of_bands hbands hall⟩)

end SeizaServer.FlatBands
