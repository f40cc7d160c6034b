import Mathlib
import SeizaServer.CircularDistance
import SeizaServer.KeyedTable
import SeizaServer.RankedLists

/-!
# The tiles of star labels

Labels are stored in tiles of five degrees by their position, and the labels of
a picture are looked for in the tiles near its centre only.  Arithmetic is
exact; the projections of the picture, angular separations and the names in the
catalog are parameters.
-/

namespace SeizaServer.StarIdentifiers

open CircularDistance RankedLists

def raBins : ℕ := 72
def decBins : ℕ := 36

inductive StarNameKind where
  | properName | bayerFlamsteed | variableStar | doubleStar
  deriving DecidableEq

structure StarLabel (K : Type) where
  designation : String
  catalog : String
  kind : StarNameKind
  detail : String
  ra : K
  dec : K
  mag : Option K
  deriving DecidableEq

/-- What a picture and the sky are asked: places in pixels and in degrees, the
cosine of degrees, and whole-sky separations. -/
structure Sky (K : Type) where
  pixelToWorld : K → K → K × K
  worldToPixel : K → K → Option (K × K)
  angularSeparationDeg : K → K → K → K → K
  cosDeg : K → K

/-- The values of a hash map in the order it happens to return them. -/
structure MapOrder (K : Type) where
  intoValues : List (StarLabel K) → List (StarLabel K)
  perm : ∀ labels, (intoValues labels).Perm labels

/-! ## Ranks -/

def StarNameKind.rank : StarNameKind → ℕ
  | .properName => 0
  | .bayerFlamsteed => 1
  | .variableStar => 2
  | .doubleStar => 3

abbrev Rank := ℕ ×ₗ Bool ×ₗ ℕ ×ₗ String

def labelRank {K : Type} (label : StarLabel K) : Rank :=
  toLex (label.kind.rank, toLex (label.mag.isNone,
    toLex (label.designation.utf8ByteSize, label.designation)))

/-- An unknown magnitude comes after every other. -/
def magKey {K : Type} (label : StarLabel K) : WithTop K := label.mag.elim ⊤ fun mag => mag

section Layer

variable {K : Type} [Field K] [LinearOrder K] [IsStrictOrderedRing K] [FloorRing K]

def tileKey (label : StarLabel K) : WithTop K ×ₗ String := toLex (magKey label, label.designation)

def labelKey (label : StarLabel K) : WithTop K ×ₗ Rank ×ₗ String :=
  toLex (magKey label, toLex (labelRank label, label.designation))

/-! ## Tiles -/

def clamp (number low high : K) : K := max low (min number high)

def decBin (dec : K) : ℕ :=
  min ⌊(clamp dec (-90) 90 + 90) / 180 * decBins⌋.toNat (decBins - 1)

def raBin (ra : K) : ℕ := min ⌊remEuclid ra 360 / 360 * raBins⌋.toNat (raBins - 1)

def tileIndex (ra dec : K) : ℕ := decBin dec * raBins + raBin ra

def wrappedRaDistance (left right : K) : K := distance 360 left right

/-- Labels pushed to the tiles of their positions. -/
def fill (labels : List (StarLabel K)) : ℕ → List (StarLabel K) :=
  labels.foldl
    (fun tiles label =>
      let tile := tileIndex label.ra label.dec
      Function.update tiles tile (tiles tile ++ [label]))
    fun _ => []

structure StarIdentifierLayer (K : Type) where
  tiles : ℕ → List (StarLabel K)
  labelCount : ℕ

abbrev Preferred (K : Type) := KeyedTable (String × StarLabel K) String Prod.fst

/-- Keep the label with the smaller rank. -/
def prefer (preferred : Preferred K) (star : String × StarLabel K) : Preferred K :=
  match preferred.find? star.1 with
  | none => preferred.put star
  | some kept => if labelRank star.2 < labelRank kept.2 then preferred.put star else preferred

/-- The first characters the names are looked up by. -/
def prefixes : List Char := "0123456789ABCDEFGHIJKLMNOPQRSTUVWXYZ".toList

def preferredLabels (searchNames : Char → Except String (List (String × StarLabel K))) :
    Except String (Preferred K) :=
  prefixes.foldlM (fun preferred first => do
    let stars ← searchNames first
    return stars.foldl prefer preferred) .empty

/-- `StarIdentifierLayer::open`. -/
def openLayer (order : MapOrder K)
    (searchNames : Char → Except String (List (String × StarLabel K))) :
    Except String (StarIdentifierLayer K) := do
  let preferred ← preferredLabels searchNames
  let labels := order.intoValues (preferred.rows.map Prod.snd)
  return ⟨fun tile => rank tileKey (fill labels tile), preferred.rows.length⟩

/-! ## The search -/

def decStart (center : K × K) (radius : K) : ℕ := decBin (clamp (center.2 - radius) (-90) 90)
def decEnd (center : K × K) (radius : K) : ℕ := decBin (clamp (center.2 + radius) (-90) 90)

def raHalfSpan (sky : Sky K) (center : K × K) (radius : K) : K :=
  let decMin := clamp (center.2 - radius) (-90) 90
  let decMax := clamp (center.2 + radius) (-90) 90
  let reachesPole := decMin ≤ -90 ∨ 90 ≤ decMax
  let edgeCos := |sky.cosDeg (max |decMin| |decMax|)|
  if reachesPole ∨ edgeCos < 1 / 20 then 180 else min (radius / edgeCos) 180

/-- The right ascension of the middle of a tile. -/
def tileCenterRa (raIndex : ℕ) : K := (raIndex + 1 / 2) * 360 / raBins

/-- The tiles that are not skipped, in order. -/
def visited (sky : Sky K) (center : K × K) (radius : K) : List ℕ :=
  (List.range' (decStart center radius) (decEnd center radius + 1 - decStart center radius)).flatMap
    fun decIndex => ((List.range raBins).filter fun raIndex =>
      ¬ raHalfSpan sky center radius + 180 / raBins <
        wrappedRaDistance (tileCenterRa raIndex) center.1).map
      fun raIndex => decIndex * raBins + raIndex

/-- A label that may be shown: bright enough, near enough and in the image. -/
def shows (sky : Sky K) (center : K × K) (radius width height magLimit : K)
    (label : StarLabel K) : Bool :=
  !(label.mag.any fun mag => magLimit < mag) &&
    (!decide (radius * (21 / 20) <
        sky.angularSeparationDeg center.1 center.2 label.ra label.dec) &&
      (sky.worldToPixel label.ra label.dec).any fun place =>
        0 ≤ place.1 && place.1 ≤ width && 0 ≤ place.2 && place.2 ≤ height)

/-- The centre of a picture. -/
def centerOf (sky : Sky K) (width height : K) : K × K := sky.pixelToWorld (width / 2) (height / 2)

def radiusOf (sky : Sky K) (width height : K) : K :=
  let center := centerOf sky width height
  min (([((0 : K), (0 : K)), (width, 0), (width, height), (0, height)].map fun corner =>
    let world := sky.pixelToWorld corner.1 corner.2
    sky.angularSeparationDeg center.1 center.2 world.1 world.2).foldl max 0) 180

def StarIdentifierLayer.labelsInFootprint (layer : StarIdentifierLayer K) (sky : Sky K)
    (dimensions : UInt32 × UInt32) (magLimit : K) (limit : ℕ) : List (StarLabel K) :=
  if limit = 0 then []
  else
    let width : K := dimensions.1.toNat
    let height : K := dimensions.2.toNat
    let center := centerOf sky width height
    let radius := radiusOf sky width height
    let labels := (visited sky center radius).flatMap fun tile =>
      (layer.tiles tile).filter (shows sky center radius width height magLimit)
    (rank labelKey labels).take limit

/-! ## Where a label is stored -/

variable {sky : Sky K} {center : K × K} {radius : K}

omit [IsStrictOrderedRing K] in
theorem fill_eq (labels : List (StarLabel K)) (tile : ℕ) :
    fill labels tile = labels.filter fun label => tileIndex label.ra label.dec = tile := by
  have hfrom : ∀ tiles : ℕ → List (StarLabel K),
      labels.foldl (fun tiles label =>
        let tile := tileIndex label.ra label.dec
        Function.update tiles tile (tiles tile ++ [label])) tiles tile =
      tiles tile ++ labels.filter fun label => tileIndex label.ra label.dec = tile := by
    induction labels with
    | nil =>
        intro tiles
        rw [List.filter_nil, List.append_nil]
        rfl
    | cons label rest ih =>
        intro tiles
        rw [List.foldl_cons, ih, List.filter_cons]
        by_cases hsame : tileIndex label.ra label.dec = tile
        · rw [← hsame, Function.update_self, if_pos (decide_eq_true rfl), List.append_assoc]
          rfl
        · rw [Function.update_of_ne (Ne.symm hsame), if_neg (by simpa using hsame)]
  exact hfrom fun _ => []

omit [IsStrictOrderedRing K] in
theorem decBin_lt (dec : K) : decBin dec < decBins := by
  unfold decBin decBins
  omega

omit [IsStrictOrderedRing K] in
theorem raBin_lt (ra : K) : raBin ra < raBins := by
  unfold raBin raBins
  omega

omit [IsStrictOrderedRing K] in
theorem tileIndex_lt (ra dec : K) : tileIndex ra dec < decBins * raBins := by
  have hdec := decBin_lt dec
  have hra := raBin_lt ra
  unfold tileIndex raBins decBins at *
  omega

omit [FloorRing K] in
theorem clamp_clamp (number : K) : clamp (clamp number (-90) 90) (-90) 90 = clamp number (-90) 90 := by
  unfold clamp
  have hlow : (-90 : K) ≤ max (-90) (min number 90) := le_max_left _ _
  have hhigh : max (-90) (min number 90) ≤ (90 : K) := max_le (by norm_num) (min_le_right _ _)
  rw [min_eq_left hhigh, max_eq_right hlow]

theorem decBin_clamp (dec : K) : decBin (clamp dec (-90) 90) = decBin dec := by
  unfold decBin
  rw [clamp_clamp]

theorem decBin_mono {low high : K} (hle : low ≤ high) : decBin low ≤ decBin high := by
  unfold decBin
  apply min_le_min_right
  apply Int.toNat_le_toNat
  apply Int.floor_mono
  apply mul_le_mul_of_nonneg_right _ (Nat.cast_nonneg _)
  apply div_le_div_of_nonneg_right _ (by norm_num)
  have hclamp : clamp low (-90) 90 ≤ clamp high (-90) 90 :=
    max_le_max_left _ (min_le_min_right _ hle)
  linarith

/-- A position is half a tile from the middle of its own at most. -/
theorem wrappedRaDistance_tileCenterRa (ra : K) :
    wrappedRaDistance (tileCenterRa (raBin ra)) ra ≤ 180 / raBins := by
  have hturn : (0 : K) < 360 := by norm_num
  have hnonneg := @remEuclid_nonneg K _ _ _ _ 360 ra hturn
  have hlt := @remEuclid_lt K _ _ _ _ 360 ra hturn
  have hbins : ((raBins : ℕ) : K) = 72 := by
    unfold raBins
    norm_num
  refine (distance_remEuclid_le hturn).trans ?_
  unfold tileCenterRa raBin
  rw [hbins]
  generalize remEuclid ra 360 = rest at hnonneg hlt ⊢
  let bin := ⌊rest / 360 * 72⌋
  have hbin : bin = ⌊rest / 360 * 72⌋ := rfl
  have hfloor : (bin : K) ≤ rest / 360 * 72 := Int.floor_le _
  have hceil : rest / 360 * 72 < bin + 1 := Int.lt_floor_add_one _
  have hzero : 0 ≤ bin := Int.floor_nonneg.mpr (by positivity)
  have hmost : bin ≤ 71 := by
    have hless : bin < 72 := Int.floor_lt.mpr (by push_cast; linarith)
    omega
  have hkept : min bin.toNat (raBins - 1) = bin.toNat := by
    unfold raBins
    omega
  have hcast : ((bin.toNat : ℕ) : K) = bin := by
    have hint : ((bin.toNat : ℕ) : ℤ) = bin := Int.toNat_of_nonneg hzero
    exact_mod_cast congrArg (fun number : ℤ => (number : K)) hint
  rw [← hbin, hkept, hcast, abs_le]
  constructor
  · linarith
  · linarith

/-! ## Which tiles are visited -/

theorem range_mul (rows columns : ℕ) :
    ((List.range rows).flatMap fun row =>
        (List.range columns).map fun column => row * columns + column) =
      List.range (rows * columns) := by
  induction rows with
  | zero => simp
  | succ rows ih =>
      rw [List.range_succ, List.flatMap_append, ih, List.flatMap_cons, List.flatMap_nil,
        List.append_nil, Nat.succ_mul, List.range_add]

omit [IsStrictOrderedRing K] in
/-- The visited tiles come in order, each once. -/
theorem visited_sublist : (visited sky center radius).Sublist (List.range (decBins * raBins)) := by
  rw [← range_mul]
  apply flatMap_sublist
  · have hstart := decBin_lt (clamp (center.2 - radius) (-90) 90)
    have hend := decBin_lt (clamp (center.2 + radius) (-90) 90)
    unfold decStart decEnd
    generalize decBin (clamp (center.2 - radius) (-90) 90) = first at hstart ⊢
    generalize decBin (clamp (center.2 + radius) (-90) 90) = last at hend ⊢
    have hall : List.range decBins =
        List.range first ++ (List.range (decBins - first)).map (first + ·) := by
      rw [← List.range_add, Nat.add_sub_cancel' hstart.le]
    rw [List.range'_eq_map_range, hall]
    exact ((List.range_sublist.mpr (by omega)).map _).trans (List.sublist_append_right _ _)
  · intro decIndex
    exact List.filter_sublist.map _

/-- The tile of a label near the centre is visited. -/
theorem tileIndex_mem_visited {ra dec : K} (hdec : |dec - center.2| ≤ radius)
    (hra : wrappedRaDistance ra center.1 ≤ raHalfSpan sky center radius) :
    tileIndex ra dec ∈ visited sky center radius := by
  have hbounds := abs_le.mp hdec
  have hstart : decStart center radius ≤ decBin dec := by
    unfold decStart
    rw [decBin_clamp]
    exact decBin_mono (by linarith)
  have hend : decBin dec ≤ decEnd center radius := by
    unfold decEnd
    rw [decBin_clamp]
    exact decBin_mono (by linarith)
  have hmiddle := @wrappedRaDistance_tileCenterRa K _ _ _ _ ra
  have htriangle : wrappedRaDistance (tileCenterRa (raBin ra)) center.1 ≤
      wrappedRaDistance (tileCenterRa (raBin ra)) ra + wrappedRaDistance ra center.1 :=
    distance_triangle (by norm_num)
  unfold visited
  rw [List.mem_flatMap]
  refine ⟨decBin dec, List.mem_range'_1.mpr ⟨hstart, by omega⟩, List.mem_map.mpr
    ⟨raBin ra, List.mem_filter.mpr ⟨List.mem_range.mpr (raBin_lt ra), ?_⟩, rfl⟩⟩
  rw [decide_eq_true_iff, not_lt]
  linarith

/-! ## The preferred labels -/

/-- What is kept of the names seen so far. -/
structure Prefers (names : List (String × StarLabel K)) (preferred : Preferred K) : Prop where
  kept : ∀ id star, preferred.find? id = some star →
    star ∈ names ∧ ∀ other ∈ names, other.1 = star.1 → labelRank star.2 ≤ labelRank other.2
  all : ∀ star ∈ names, (preferred.find? star.1).isSome

omit [Field K] [LinearOrder K] [IsStrictOrderedRing K] [FloorRing K] in
theorem Prefers.snoc {names : List (String × StarLabel K)} {preferred : Preferred K}
    (hprefers : Prefers names preferred) (star : String × StarLabel K) :
    Prefers (names ++ [star]) (prefer preferred star) := by
  have hput : (∀ kept, preferred.find? star.1 = some kept → labelRank star.2 < labelRank kept.2) →
      Prefers (names ++ [star]) (preferred.put star) := by
    intro hless
    constructor
    · intro id found hfind
      rw [KeyedTable.find?_put] at hfind
      split_ifs at hfind with hsame
      · injection hfind with hfind
        rw [← hfind]
        refine ⟨List.mem_append_right _ List.mem_cons_self, ?_⟩
        intro other hmem hother
        rw [List.mem_append, List.mem_singleton] at hmem
        cases hmem with
        | inl hold =>
            -- An earlier name of the star has at least the rank of the one kept.
            obtain ⟨kept, hkept⟩ := Option.isSome_iff_exists.mp (hprefers.all other hold)
            have hleast := (hprefers.kept _ kept hkept).2 other hold
              (KeyedTable.key_of_find? hkept).symm
            rw [hother] at hkept
            exact (hless kept hkept).le.trans hleast
        | inr hlast => rw [hlast]
      · have hne : found.1 ≠ star.1 := by
          rw [KeyedTable.key_of_find? hfind]
          exact Ne.symm hsame
        obtain ⟨hmem, hleast⟩ := hprefers.kept id found hfind
        refine ⟨List.mem_append_left _ hmem, ?_⟩
        intro other hother hid
        rw [List.mem_append, List.mem_singleton] at hother
        cases hother with
        | inl hold => exact hleast other hold hid
        | inr hlast =>
            rw [hlast] at hid
            exact absurd hid.symm hne
    · intro other hmem
      rw [List.mem_append, List.mem_singleton] at hmem
      rw [KeyedTable.find?_put]
      split_ifs with hsame
      · rfl
      · cases hmem with
        | inl hold => exact hprefers.all other hold
        | inr hlast =>
            rw [hlast] at hsame
            exact absurd rfl hsame
  unfold prefer
  cases hfind : preferred.find? star.1 with
  | none =>
      apply hput
      intro kept hkept
      rw [hfind] at hkept
      cases hkept
  | some kept =>
      dsimp only
      by_cases hless : labelRank star.2 < labelRank kept.2
      · rw [if_pos hless]
        apply hput
        intro other hother
        rw [hfind] at hother
        injection hother with hother
        rw [← hother]
        exact hless
      · rw [if_neg hless]
        constructor
        · intro id found hfound
          obtain ⟨hmem, hleast⟩ := hprefers.kept id found hfound
          refine ⟨List.mem_append_left _ hmem, ?_⟩
          intro other hother hid
          rw [List.mem_append, List.mem_singleton] at hother
          cases hother with
          | inl hold => exact hleast other hold hid
          | inr hlast =>
              have hsame : found = kept := by
                have hfoundId := KeyedTable.key_of_find? hfound
                rw [hlast, hfoundId] at hid
                rw [hid, hfound] at hfind
                injection hfind
              rw [hlast, hsame]
              exact not_lt.mp hless
        · intro other hmem
          rw [List.mem_append, List.mem_singleton] at hmem
          cases hmem with
          | inl hold => exact hprefers.all other hold
          | inr hlast =>
              rw [hlast, hfind]
              rfl

omit [Field K] [LinearOrder K] [IsStrictOrderedRing K] [FloorRing K] in
theorem prefers_foldl {names stars : List (String × StarLabel K)} {preferred : Preferred K}
    (hprefers : Prefers names preferred) :
    Prefers (names ++ stars) (stars.foldl prefer preferred) := by
  induction stars generalizing names preferred with
  | nil =>
      rw [List.append_nil]
      exact hprefers
  | cons star rest ih =>
      have hnext := ih (hprefers.snoc star)
      rw [List.append_assoc] at hnext
      exact hnext

omit [Field K] [LinearOrder K] [IsStrictOrderedRing K] [FloorRing K] in
/-- The walk over the first characters sees all names that are found. -/
theorem prefers_walk {searchNames : Char → Except String (List (String × StarLabel K))}
    {firsts : List Char} {names : List (String × StarLabel K)} {before after : Preferred K}
    (hprefers : Prefers names before)
    (hwalk : firsts.foldlM (fun preferred first => do
      let stars ← searchNames first
      return stars.foldl prefer preferred) before = .ok after) :
    ∃ found, firsts.mapM searchNames = .ok found ∧ Prefers (names ++ found.flatten) after := by
  induction firsts generalizing names before with
  | nil =>
      injection hwalk with hsame
      refine ⟨[], rfl, ?_⟩
      rw [List.flatten_nil, List.append_nil, ← hsame]
      exact hprefers
  | cons first rest ih =>
      rw [List.foldlM_cons] at hwalk
      cases hstars : searchNames first with
      | error message =>
          rw [hstars] at hwalk
          cases hwalk
      | ok stars =>
          rw [hstars] at hwalk
          obtain ⟨found, hfound, hafter⟩ := ih (prefers_foldl hprefers) hwalk
          refine ⟨stars :: found, ?_, ?_⟩
          · rw [List.mapM_cons, hstars, hfound]
            rfl
          · rw [List.flatten_cons, ← List.append_assoc]
            exact hafter

/-! ## The index -/

/-- All labels, tile by tile. -/
def StarIdentifierLayer.labels (layer : StarIdentifierLayer K) : List (StarLabel K) :=
  (List.range (decBins * raBins)).flatMap layer.tiles

/-- Whatever is shown lies within the bounds of the search. -/
def WithinBounds (sky : Sky K) (dimensions : UInt32 × UInt32) (magLimit : K)
    (labels : List (StarLabel K)) : Prop :=
  let width : K := dimensions.1.toNat
  let height : K := dimensions.2.toNat
  let center := centerOf sky width height
  let radius := radiusOf sky width height
  ∀ label ∈ labels, shows sky center radius width height magLimit label = true →
    |label.dec - center.2| ≤ radius ∧
      wrappedRaDistance label.ra center.1 ≤ raHalfSpan sky center radius

/-- The search without an index. -/
def searchAll (sky : Sky K) (dimensions : UInt32 × UInt32) (magLimit : K) (limit : ℕ)
    (labels : List (StarLabel K)) : List (StarLabel K) :=
  let width : K := dimensions.1.toNat
  let height : K := dimensions.2.toNat
  let center := centerOf sky width height
  let radius := radiusOf sky width height
  (rank labelKey (labels.filter (shows sky center radius width height magLimit))).take limit

/-- Every label is stored in its own tile. -/
def Stores (layer : StarIdentifierLayer K) (labels : List (StarLabel K)) : Prop :=
  ∀ tile, (layer.tiles tile).Perm
    (labels.filter fun label => tileIndex label.ra label.dec = tile)

variable {layer : StarIdentifierLayer K} {labels : List (StarLabel K)}

omit [IsStrictOrderedRing K] in
theorem Stores.perm (hstores : Stores layer labels) : layer.labels.Perm labels := by
  have hall : (labels.filter fun label =>
      tileIndex label.ra label.dec < decBins * raBins) = labels := by
    rw [List.filter_eq_self]
    intro label _
    exact decide_eq_true (tileIndex_lt _ _)
  have hnumbers := flatMap_filter_perm (fun label : StarLabel K =>
    tileIndex label.ra label.dec) labels (decBins * raBins)
  rw [hall] at hnumbers
  exact (List.Perm.flatMap_left _ fun tile _ => hstores tile).trans hnumbers

/-- Within the bounds the index misses nothing. -/
theorem Stores.labelsInFootprint_eq (hstores : Stores layer labels)
    {dimensions : UInt32 × UInt32} {magLimit : K} {limit : ℕ}
    (hbounds : WithinBounds sky dimensions magLimit labels) :
    layer.labelsInFootprint sky dimensions magLimit limit =
      searchAll sky dimensions magLimit limit layer.labels := by
  have hvisited : ∀ center radius (p : StarLabel K → Bool),
      (∀ label ∈ labels, p label = true →
        tileIndex label.ra label.dec ∈ visited sky center radius) →
      ((visited sky center radius).flatMap fun tile => (layer.tiles tile).filter p) =
        layer.labels.filter p := by
    intro center radius p hin
    unfold StarIdentifierLayer.labels
    rw [List.filter_flatMap]
    apply flatMap_of_sublist visited_sublist List.nodup_range
    intro tile _ hout
    rw [List.filter_eq_nil_iff]
    intro label hmem hshows
    have hstored := List.mem_filter.mp ((hstores tile).mem_iff.mp hmem)
    have htile := hin label hstored.1 hshows
    rw [of_decide_eq_true hstored.2] at htile
    exact hout htile
  unfold StarIdentifierLayer.labelsInFootprint searchAll
  dsimp only
  split_ifs with hzero
  · rw [hzero, List.take_zero]
  · rw [hvisited]
    intro label hmem hshows
    obtain ⟨hdec, hra⟩ := hbounds label hmem hshows
    exact tileIndex_mem_visited hdec hra

omit [IsStrictOrderedRing K] [FloorRing K] in
theorem searchAll_of_perm {others : List (StarLabel K)} (hperm : others.Perm labels)
    {dimensions : UInt32 × UInt32} {magLimit : K} {limit : ℕ} :
    (searchAll sky dimensions magLimit limit others).map labelKey =
        (searchAll sky dimensions magLimit limit labels).map labelKey ∧
      ((∀ first ∈ labels, ∀ second ∈ labels, labelKey first = labelKey second → first = second) →
        searchAll sky dimensions magLimit limit others =
          searchAll sky dimensions magLimit limit labels) := by
  unfold searchAll
  dsimp only
  constructor
  · rw [List.map_take, List.map_take, map_rank_of_perm (hperm.filter _)]
  · intro hdistinct
    rw [rank_of_perm (hperm.filter _)]
    intro first hfirst second hsecond
    exact hdistinct first (hperm.mem_iff.mp (List.mem_of_mem_filter hfirst)) second
      (hperm.mem_iff.mp (List.mem_of_mem_filter hsecond))

/-- The index of a layer misses nothing: every label is stored in one tile, the
tiles of all labels within the bounds are visited, and the result is that of a
search through all labels. -/
theorem star_label_index (sky : Sky K) (order : MapOrder K)
    (searchNames : Char → Except String (List (String × StarLabel K)))
    (layer : StarIdentifierLayer K) (hopen : openLayer order searchNames = .ok layer) :
    ∃ (found : List (List (String × StarLabel K))) (preferred : Preferred K)
        (labels : List (StarLabel K)),
      prefixes.mapM searchNames = .ok found ∧
      (∀ star ∈ found.flatten, (preferred.find? star.1).isSome) ∧
      (∀ star ∈ preferred.rows, star ∈ found.flatten ∧
        ∀ other ∈ found.flatten, other.1 = star.1 → labelRank star.2 ≤ labelRank other.2) ∧
      labels.Perm (preferred.rows.map Prod.snd) ∧
      Stores layer labels ∧
      (∀ ra dec : K, tileIndex ra dec < decBins * raBins) ∧
      (∀ center radius, (visited sky center radius).Nodup ∧ ∀ ra dec : K,
        |dec - center.2| ≤ radius →
        wrappedRaDistance ra center.1 ≤ raHalfSpan sky center radius →
        tileIndex ra dec ∈ visited sky center radius) ∧
      ∀ dimensions magLimit limit, WithinBounds sky dimensions magLimit labels →
        (∃ all, all.Perm labels ∧ layer.labelsInFootprint sky dimensions magLimit limit =
          searchAll sky dimensions magLimit limit all) ∧
        ∀ all, all.Perm labels →
          (layer.labelsInFootprint sky dimensions magLimit limit).map labelKey =
              (searchAll sky dimensions magLimit limit all).map labelKey ∧
            ((∀ first ∈ all, ∀ second ∈ all, labelKey first = labelKey second →
                first = second) →
              layer.labelsInFootprint sky dimensions magLimit limit =
                searchAll sky dimensions magLimit limit all) := by
  unfold openLayer at hopen
  cases hpreferred : preferredLabels searchNames with
  | error message =>
      rw [hpreferred] at hopen
      cases hopen
  | ok preferred =>
      rw [hpreferred] at hopen
      injection hopen with hlayer
      have hnone : Prefers ([] : List (String × StarLabel K)) .empty := by
        constructor
        · intro id star hfind
          rw [KeyedTable.find?_empty] at hfind
          cases hfind
        · intro star hmem
          cases hmem
      obtain ⟨found, hfound, hprefers⟩ := prefers_walk hnone hpreferred
      rw [List.nil_append] at hprefers
      let labels := order.intoValues (preferred.rows.map Prod.snd)
      have hstores : Stores layer labels := by
        intro tile
        rw [← hlayer, ← fill_eq]
        exact (ranks_rank tileKey (fill labels tile)).perm
      refine ⟨found, preferred, labels, hfound, hprefers.all, ?_, order.perm _, hstores,
        tileIndex_lt, ?_, ?_⟩
      · intro star hmem
        exact hprefers.kept star.1 star (KeyedTable.find?_of_mem hmem)
      · intro center radius
        exact ⟨visited_sublist.nodup List.nodup_range,
          fun ra dec hdec hra => tileIndex_mem_visited hdec hra⟩
      · intro dimensions magLimit limit hbounds
        rw [hstores.labelsInFootprint_eq hbounds]
        refine ⟨⟨layer.labels, hstores.perm, rfl⟩, ?_⟩
        intro all hall
        exact searchAll_of_perm (hstores.perm.trans hall.symm)

/-- The plane as a sky. -/
def flatSky : Sky ℚ where
  pixelToWorld := fun x y => (x, y)
  worldToPixel := fun ra dec => some (ra, dec)
  angularSeparationDeg := fun ra dec otherRa otherDec => |ra - otherRa| + |dec - otherDec|
  cosDeg := fun _ => 1

def insertionOrder : MapOrder ℚ := ⟨id, List.Perm.refl⟩

def vega : StarLabel ℚ := ⟨"Vega", "IAU", .properName, "", 2, 2, some 0⟩
def deneb : StarLabel ℚ := ⟨"Deneb", "IAU", .properName, "", 7, 3, some 1⟩
def ruchba : StarLabel ℚ := ⟨"omega 2 Cyg", "BSC", .bayerFlamsteed, "", 1, 8, some 5⟩
def faint : StarLabel ℚ := ⟨"V1500 Cyg", "GCVS", .variableStar, "", 9, 9, some 12⟩
def wrapped : StarLabel ℚ := ⟨"39 Cyg", "BSC", .bayerFlamsteed, "", 367, 3, none⟩

/-- Five stars in five tiles, one of them under two names. -/
def nameCatalog (first : Char) : Except String (List (String × StarLabel ℚ)) :=
  .ok (if first = 'A' then
      [("hr:7001", ⟨"Alpha Lyr", "BSC", .bayerFlamsteed, "", 2, 2, some 0⟩), ("hr:7001", vega)]
    else if first = 'D' then [("hr:7924", deneb)]
    else if first = 'O' then [("hr:7844", ruchba)]
    else if first = 'V' then [("gcvs:1500", faint), ("hr:7806", wrapped)]
    else [])

def fieldLabels : List (StarLabel ℚ) := [vega, deneb, ruchba, faint, wrapped]

theorem openLayer_nameCatalog : openLayer insertionOrder nameCatalog =
    .ok ⟨fun tile => rank tileKey (fill fieldLabels tile), 5⟩ := by
  rfl

theorem stores_fieldLabels :
    Stores ⟨fun tile => rank tileKey (fill fieldLabels tile), 5⟩ fieldLabels := by
  intro tile
  rw [← fill_eq]
  exact (ranks_rank tileKey (fill fieldLabels tile)).perm

theorem withinBounds_fieldLabels : WithinBounds flatSky (10, 10) 10 fieldLabels := by
  unfold WithinBounds
  decide +kernel

theorem searchAll_fieldLabels :
    searchAll flatSky (10, 10) 10 2 fieldLabels = [vega, deneb] := by
  have hshown : fieldLabels.filter (shows flatSky (5, 5) 10 10 10 10) = [vega, deneb, ruchba] := by
    decide +kernel
  have hsorted : rank labelKey [vega, deneb, ruchba] = [vega, deneb, ruchba] := by
    apply List.mergeSort_of_pairwise
    decide +kernel
  have hcenter : centerOf flatSky ((10 : UInt32).toNat : ℚ) ((10 : UInt32).toNat : ℚ) = (5, 5) := by
    decide +kernel
  have hradius : radiusOf flatSky ((10 : UInt32).toNat : ℚ) ((10 : UInt32).toNat : ℚ) = 10 := by
    decide +kernel
  have hside : ((10 : UInt32).toNat : ℚ) = 10 := by decide +kernel
  unfold searchAll
  dsimp only
  rw [hcenter, hradius, hside, hshown, hsorted]
  rfl

/-- The two brightest of the stars in the image, the first by its proper name. -/
theorem star_label_index_field :
    ∃ layer : StarIdentifierLayer ℚ, openLayer insertionOrder nameCatalog = .ok layer ∧
      WithinBounds flatSky (10, 10) 10 fieldLabels ∧
      layer.labelsInFootprint flatSky (10, 10) 10 2 = [vega, deneb] := by
  obtain ⟨_, _, labels, _, _, _, _, hstores, _, _, hsearch⟩ :=
    star_label_index flatSky insertionOrder nameCatalog _ openLayer_nameCatalog
  have hperm : fieldLabels.Perm labels := stores_fieldLabels.perm.symm.trans hstores.perm
  have hbounds : WithinBounds flatSky (10, 10) 10 labels := fun label hmem =>
    withinBounds_fieldLabels label (hperm.mem_iff.mpr hmem)
  have hdistinct : ∀ first ∈ fieldLabels, ∀ second ∈ fieldLabels,
      labelKey first = labelKey second → first = second := by
    decide +kernel
  have hfound := (((hsearch (10, 10) 10 2 hbounds).2 fieldLabels hperm).2 hdistinct)
  exact ⟨_, openLayer_nameCatalog, withinBounds_fieldLabels, hfound.trans searchAll_fieldLabels⟩

end Layer

end SeizaServer.StarIdentifiers
