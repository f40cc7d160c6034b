import Mathlib.Data.List.Infix
import SeizaServer.HeaderPreparation
import SeizaServer.RankedLists

/-!
# Which catalog objects are drawn

Candidates are routed to four groups, each of which is sorted by its own score
and cut to its own cap.  Scores are doubles in the total order of their bits.
-/

namespace SeizaServer.Annotations

open Solver RankedLists

/-! ## Catalog objects -/

inductive ObjectKind where
  | galaxy | openCluster | globularCluster | nebula | planetaryNebula | hiiRegion
  | supernovaRemnant | darkNebula | clusterWithNebula | star | doubleStar | association | other
  | transient
  deriving DecidableEq

structure ObjectMetadata where
  id : String
  source : String
  aliases : List String
  parentIds : List String
  alternateIds : List String
  alternateSources : List String

structure SkyObject where
  kind : ObjectKind
  ra : Float
  dec : Float
  mag : Option Float32
  majorArcmin : Option Float32
  name : String
  commonName : String
  metadata : ObjectMetadata

/-- An object with its place in an image. -/
structure PlacedObject where
  object : SkyObject
  x : Float
  y : Float
  semiMajorPx : Float
  semiMinorPx : Float
  angleDeg : Option Float

structure AnnotationOptions where
  deepSky : Bool
  constellations : Bool
  namedStars : Bool
  starIdentifiers : Bool
  fieldStars : Bool
  transients : Bool
  minorBodies : Bool
  historicalTransients : Bool
  fieldStarMagLimit : Float32
  maxFieldStars : ℕ
  starIdentifierMagLimit : Float32
  maxStarIdentifiers : ℕ
  maxDeepSky : ℕ
  deepSkyMinSizePx : Float
  unsizedDeepSky : Bool
  maxUnsizedDeepSky : ℕ
  deepSkyMaxMag : Option Float32
  maxNamedStars : ℕ
  namedStarMagLimit : Option Float32
  maxTransients : ℕ
  transientMagLimit : Option Float32
  maxMinorBodies : ℕ
  requestedObjects : List String

def AnnotationOptions.default : AnnotationOptions where
  deepSky := true
  constellations := false
  namedStars := true
  starIdentifiers := false
  fieldStars := false
  transients := true
  minorBodies := true
  historicalTransients := false
  fieldStarMagLimit := 10
  maxFieldStars := 300
  starIdentifierMagLimit := 10
  maxStarIdentifiers := 150
  maxDeepSky := 200
  deepSkyMinSizePx := 1.5
  unsizedDeepSky := false
  maxUnsizedDeepSky := 100
  deepSkyMaxMag := none
  maxNamedStars := 60
  namedStarMagLimit := none
  maxTransients := 60
  transientMagLimit := none
  maxMinorBodies := 100
  requestedObjects := []

def wideFieldDiagonalDeg : Float := 10
def wideFieldTransientMagLimit : Float32 := 13

inductive DisplayGroup where
  | deepSky
  | namedStar
  | transient
  deriving DecidableEq

structure Candidate where
  group : DisplayGroup
  requested : Bool
  sizeUnknown : Bool
  placed : PlacedObject
  discovered : Option String
  nearCapture : Option Bool

/-! ## Scores -/

/-- `f64::total_cmp` compares these keys.  Here there is one NaN, above every number,
while `total_cmp` puts one whose sign is set below them. -/
def totalKey (number : Float) : ℤ :=
  let bits := number.toBits.toNat
  if bits < 2 ^ 63 then bits else 2 ^ 63 - 1 - bits

/-- `f64::max`, which passes over a NaN. -/
def maxNumber (first second : Float) : Float :=
  if first.isNaN then second
  else if second.isNaN then first
  else if first < second then second else first

/-- `f64::clamp`. -/
def clamp (number low high : Float) : Float :=
  if number < low then low else if high < number then high else number

def messierName (name : List Char) : Bool :=
  match name with
  | 'M' :: rest =>
      let digits := rest.dropWhile isWhiteSpace
      !digits.isEmpty && digits.all Char.isDigit
  | _ => false

def isMessier (object : SkyObject) : Bool :=
  messierName object.name.toList ||
    object.metadata.aliases.any fun name => messierName name.toList

/-- No catalog gives the extent of the object. -/
def isUnsized (object : SkyObject) : Bool :=
  object.majorArcmin.elim true fun major => major ≤ 0

def deepSkyScore (placed : PlacedObject) : Float :=
  let object := placed.object
  let size := (maxNumber placed.semiMajorPx 0.05).log
  let brightness := object.mag.elim 0 fun mag => clamp (14 - mag.toFloat) 0 14 * 0.4
  let named := if object.commonName.isEmpty then 0 else 2
  let messier := if isMessier object then 4 else 0
  size + brightness + named + messier

def namedStarScore (object : SkyObject) : Float :=
  -- IAU proper names first, then brighter stars.
  let proper := if "IAU".toList <:+: object.metadata.source.toList then 1 else 0
  proper * 100 - (object.mag.getD 20).toFloat

def transientScore (object : SkyObject) : Float := -(object.mag.getD 30).toFloat

/-! ## The selection -/

/-- The four groups, in the order they are returned. -/
inductive Slot where
  | deepSky
  | namedStars
  | transients
  | unsizedDeepSky
  deriving DecidableEq

def slots : List Slot := [.deepSky, .namedStars, .transients, .unsizedDeepSky]

abbrev Groups := Slot → List (Float × Candidate)

/-- `groups[slot].push(..)`. -/
def Groups.push (groups : Groups) (slot : Slot) (score : Float) (candidate : Candidate) : Groups :=
  Function.update groups slot (groups slot ++ [(score, candidate)])

/-- Whether a magnitude is within a limit; one that is not known is in no
limit. -/
def within (limit mag : Option Float32) : Bool :=
  match limit, mag with
  | none, _ => true
  | some limit, some mag => mag ≤ limit
  | some _, none => false

def transientLimit (options : AnnotationOptions) (wideField : Bool) : Option Float32 :=
  options.transientMagLimit.or (if wideField then some wideFieldTransientMagLimit else none)

/-- One turn of the loop, for a candidate that was not requested. -/
def route (options : AnnotationOptions) (wideField : Bool) (groups : Groups)
    (candidate : Candidate) : Groups :=
  let object := candidate.placed.object
  match candidate.group with
  | .deepSky =>
      let named := !object.commonName.isEmpty || isMessier object
      if !within options.deepSkyMaxMag object.mag then groups
      else if candidate.placed.semiMajorPx < options.deepSkyMinSizePx && !named then
        -- An unknown size is not a small one.
        if !(options.unsizedDeepSky && isUnsized object) then groups
        else
          groups.push .unsizedDeepSky (deepSkyScore candidate.placed)
            { candidate with sizeUnknown := true }
      else groups.push .deepSky (deepSkyScore candidate.placed) candidate
  | .namedStar =>
      if !within options.namedStarMagLimit object.mag then groups
      else groups.push .namedStars (namedStarScore object) candidate
  | .transient =>
      if !within (transientLimit options wideField) object.mag then groups
      else groups.push .transients (transientScore object) candidate

def step (options : AnnotationOptions) (wideField : Bool) (found : List Candidate × Groups)
    (candidate : Candidate) : List Candidate × Groups :=
  if candidate.requested then (found.1 ++ [candidate], found.2)
  else (found.1, route options wideField found.2 candidate)

def collect (candidates : List Candidate) (options : AnnotationOptions) (wideField : Bool) :
    List Candidate × Groups :=
  candidates.foldl (step options wideField) ([], fun _ => [])

def cap (options : AnnotationOptions) : Slot → ℕ
  | .deepSky => options.maxDeepSky
  | .namedStars => options.maxNamedStars
  | .transients => options.maxTransients
  | .unsizedDeepSky => options.maxUnsizedDeepSky

/-- A group sorted by descending score and cut to its cap. -/
def displayed (candidates : List Candidate) (options : AnnotationOptions) (wideField : Bool)
    (slot : Slot) : List Candidate :=
  ((rank (fun scored => -totalKey scored.1)
    ((collect candidates options wideField).2 slot)).take (cap options slot)).map Prod.snd

def selectForDisplay (candidates : List Candidate) (options : AnnotationOptions)
    (wideField : Bool) : List Candidate :=
  (collect candidates options wideField).1 ++
    slots.flatMap (displayed candidates options wideField)

/-! ## What is documented -/

/-- An object that is drawn however small it is. -/
def isNamed (object : SkyObject) : Bool := !object.commonName.isEmpty || isMessier object

/-- The filters of a group. -/
def passes (options : AnnotationOptions) (wideField : Bool) (slot : Slot)
    (candidate : Candidate) : Bool :=
  let object := candidate.placed.object
  let small : Bool := candidate.placed.semiMajorPx < options.deepSkyMinSizePx
  match slot with
  | .deepSky => candidate.group = .deepSky && (within options.deepSkyMaxMag object.mag &&
      (!small || isNamed object))
  | .namedStars => candidate.group = .namedStar && within options.namedStarMagLimit object.mag
  | .transients => candidate.group = .transient &&
      within (transientLimit options wideField) object.mag
  | .unsizedDeepSky => candidate.group = .deepSky && (within options.deepSkyMaxMag object.mag &&
      (small && (!isNamed object && (options.unsizedDeepSky && isUnsized object))))

/-- The score within a group. -/
def score (slot : Slot) (candidate : Candidate) : Float :=
  match slot with
  | .namedStars => namedStarScore candidate.placed.object
  | .transients => transientScore candidate.placed.object
  | _ => deepSkyScore candidate.placed

/-- Objects of the last group are marked. -/
def mark (slot : Slot) (candidate : Candidate) : Candidate :=
  if slot = .unsizedDeepSky then { candidate with sizeUnknown := true } else candidate

/-- The candidates of a group. -/
def members (candidates : List Candidate) (options : AnnotationOptions) (wideField : Bool)
    (slot : Slot) : List Candidate :=
  candidates.filter fun candidate => !candidate.requested && passes options wideField slot candidate

section Collecting

variable {candidates : List Candidate} {options : AnnotationOptions} {wideField : Bool}

/-- A turn pushes a candidate to the group whose filters it passes. -/
theorem route_eq (groups : Groups) (candidate : Candidate) (slot : Slot) :
    route options wideField groups candidate slot = groups slot ++
      if passes options wideField slot candidate then
        [(score slot candidate, mark slot candidate)]
      else [] := by
  unfold route passes Groups.push
  have hnamed : (!candidate.placed.object.commonName.isEmpty ||
      isMessier candidate.placed.object) = isNamed candidate.placed.object := rfl
  dsimp only
  rw [hnamed]
  cases hgroup : candidate.group with
  | deepSky =>
      by_cases hin : within options.deepSkyMaxMag candidate.placed.object.mag = true
      · by_cases hsmall : candidate.placed.semiMajorPx < options.deepSkyMinSizePx
        · by_cases hkept : isNamed candidate.placed.object = true
          · cases slot <;> simp [hin, hsmall, hkept, score, mark]
          · by_cases hwanted : (options.unsizedDeepSky && isUnsized candidate.placed.object) = true
            · cases slot <;> simp [hgroup, hin, hsmall, hkept, hwanted, score, mark]
            · cases slot <;> simp [hin, hsmall, hkept, hwanted]
        · cases slot <;> simp [hin, hsmall, score, mark]
      · cases slot <;> simp [hin]
  | namedStar =>
      by_cases hin : within options.namedStarMagLimit candidate.placed.object.mag = true
      · cases slot <;> simp [hin, score, mark]
      · cases slot <;> simp [hin]
  | transient =>
      by_cases hin : within (transientLimit options wideField) candidate.placed.object.mag = true
      · cases slot <;> simp [hin, score, mark]
      · cases slot <;> simp [hin]

theorem foldl_step (found : List Candidate × Groups) :
    (candidates.foldl (step options wideField) found).1 =
        found.1 ++ candidates.filter Candidate.requested ∧
      ∀ slot, (candidates.foldl (step options wideField) found).2 slot = found.2 slot ++
        (members candidates options wideField slot).map
          fun candidate => (score slot candidate, mark slot candidate) := by
  induction candidates generalizing found with
  | nil => simp [members]
  | cons candidate rest ih =>
      obtain ⟨hrequested, hgroups⟩ := ih (step options wideField found candidate)
      rw [List.foldl_cons, hrequested]
      cases hcandidate : candidate.requested with
      | true =>
          have hstep : step options wideField found candidate =
              (found.1 ++ [candidate], found.2) := if_pos hcandidate
          rw [hstep]
          constructor
          · simp [hcandidate]
          · intro slot
            rw [← hstep, hgroups slot, hstep]
            simp [members, hcandidate]
      | false =>
          have hstep : step options wideField found candidate =
              (found.1, route options wideField found.2 candidate) :=
            if_neg (by rw [hcandidate]; exact Bool.false_ne_true)
          rw [hstep]
          constructor
          · simp [hcandidate]
          · intro slot
            rw [← hstep, hgroups slot, hstep]
            dsimp only
            rw [route_eq]
            cases hpasses : passes options wideField slot candidate with
            | true => simp [members, hcandidate, hpasses]
            | false => simp [members, hcandidate, hpasses]

theorem collect_eq :
    (collect candidates options wideField).1 = candidates.filter Candidate.requested ∧
      ∀ slot, (collect candidates options wideField).2 slot =
        (members candidates options wideField slot).map
          fun candidate => (score slot candidate, mark slot candidate) :=
  foldl_step ([], fun _ => [])

/-- The members of a group by descending score, those of one score in input
order. -/
def ranked (candidates : List Candidate) (options : AnnotationOptions) (wideField : Bool)
    (slot : Slot) : List Candidate :=
  rank (fun candidate => -totalKey (score slot candidate))
    (members candidates options wideField slot)

theorem displayed_eq (slot : Slot) : displayed candidates options wideField slot =
    ((ranked candidates options wideField slot).take (cap options slot)).map (mark slot) := by
  unfold displayed ranked
  rw [collect_eq.2, rank_map, ← List.map_take, List.map_map]
  rfl

theorem selectForDisplay_eq : selectForDisplay candidates options wideField =
    candidates.filter Candidate.requested ++
      slots.flatMap (displayed candidates options wideField) := by
  unfold selectForDisplay
  rw [collect_eq.1]

theorem ranks_ranked (slot : Slot) :
    Ranks (fun candidate => -totalKey (score slot candidate))
      (members candidates options wideField slot)
      (ranked candidates options wideField slot) :=
  ranks_rank _ _

theorem mem_of_mem_ranked {slot : Slot} {candidate : Candidate} {most : ℕ}
    (hmem : candidate ∈ (ranked candidates options wideField slot).take most) :
    candidate ∈ candidates :=
  List.mem_of_mem_filter ((ranks_ranked slot).mem_iff.mp (List.mem_of_mem_take hmem))

/-! ## Marks -/

/-- A candidate as it was before the selection. -/
def unmarked (candidate : Candidate) : Candidate := { candidate with sizeUnknown := false }

theorem unmarked_mark {slot : Slot} {candidate : Candidate}
    (hknown : candidate.sizeUnknown = false) : unmarked (mark slot candidate) = candidate := by
  unfold unmarked mark
  split_ifs
  · rw [← hknown]
  · rw [← hknown]

/-- The last group is marked, the others are not. -/
theorem filter_displayed (hknown : ∀ candidate ∈ candidates, candidate.sizeUnknown = false)
    (slot : Slot) :
    (displayed candidates options wideField slot).filter Candidate.sizeUnknown =
        (if slot = .unsizedDeepSky then displayed candidates options wideField slot else []) ∧
      ((displayed candidates options wideField slot).filter fun candidate =>
          !candidate.sizeUnknown) =
        if slot = .unsizedDeepSky then [] else displayed candidates options wideField slot := by
  have hmarks : ∀ candidate ∈ displayed candidates options wideField slot,
      candidate.sizeUnknown = decide (slot = .unsizedDeepSky) := by
    intro candidate hmem
    rw [displayed_eq, List.mem_map] at hmem
    obtain ⟨original, horiginal, hsame⟩ := hmem
    rw [← hsame]
    unfold mark
    split_ifs with hslot
    · rw [decide_eq_true hslot]
    · rw [hknown original (mem_of_mem_ranked horiginal), decide_eq_false hslot]
  split_ifs with hslot
  · constructor
    · rw [List.filter_eq_self]
      intro candidate hmem
      rw [hmarks candidate hmem, decide_eq_true hslot]
    · rw [List.filter_eq_nil_iff]
      intro candidate hmem
      rw [hmarks candidate hmem, decide_eq_true hslot]
      exact Bool.false_ne_true
  · constructor
    · rw [List.filter_eq_nil_iff]
      intro candidate hmem
      rw [hmarks candidate hmem, decide_eq_false hslot]
      exact Bool.false_ne_true
    · rw [List.filter_eq_self]
      intro candidate hmem
      rw [hmarks candidate hmem, decide_eq_false hslot]
      rfl

theorem filter_requested (hknown : ∀ candidate ∈ candidates, candidate.sizeUnknown = false) :
    (candidates.filter Candidate.requested).filter Candidate.sizeUnknown = [] ∧
      ((candidates.filter Candidate.requested).filter fun candidate => !candidate.sizeUnknown) =
        candidates.filter Candidate.requested := by
  constructor
  · rw [List.filter_eq_nil_iff]
    intro candidate hmem
    rw [hknown candidate (List.mem_of_mem_filter hmem)]
    exact Bool.false_ne_true
  · rw [List.filter_eq_self]
    intro candidate hmem
    rw [hknown candidate (List.mem_of_mem_filter hmem)]
    rfl

theorem filter_unknown (hknown : ∀ candidate ∈ candidates, candidate.sizeUnknown = false) :
    (selectForDisplay candidates options wideField).filter Candidate.sizeUnknown =
      displayed candidates options wideField .unsizedDeepSky := by
  rw [selectForDisplay_eq, List.filter_append, (filter_requested hknown).1]
  simp [slots, (filter_displayed hknown _).1]

theorem filter_known (hknown : ∀ candidate ∈ candidates, candidate.sizeUnknown = false) :
    ((selectForDisplay candidates options wideField).filter fun candidate =>
        !candidate.sizeUnknown) =
      candidates.filter Candidate.requested ++
        [Slot.deepSky, .namedStars, .transients].flatMap
          (displayed candidates options wideField) := by
  rw [selectForDisplay_eq, List.filter_append, (filter_requested hknown).2]
  simp [slots, (filter_displayed hknown _).2]

/-! ## Nothing is invented -/

/-- A candidate passes the filters of one group at most. -/
theorem passes_disjoint {first second : Slot} (hne : first ≠ second) {candidate : Candidate}
    (hfirst : passes options wideField first candidate = true) :
    passes options wideField second candidate = false := by
  unfold passes at hfirst ⊢
  dsimp only at hfirst ⊢
  cases first with
  | deepSky =>
      cases second with
      | deepSky => exact absurd rfl hne
      | unsizedDeepSky =>
          simp only [Bool.and_eq_true, Bool.or_eq_true, Bool.not_eq_true', decide_eq_true_eq,
            decide_eq_false_iff_not] at hfirst
          rcases hfirst.2.2 with hlarge | hnamed
          · simp [hlarge]
          · simp [hnamed]
      | namedStars => simp_all
      | transients => simp_all
  | unsizedDeepSky =>
      cases second with
      | unsizedDeepSky => exact absurd rfl hne
      | deepSky => simp_all
      | namedStars => simp_all
      | transients => simp_all
  | namedStars =>
      cases second with
      | namedStars => exact absurd rfl hne
      | deepSky => simp_all
      | unsizedDeepSky => simp_all
      | transients => simp_all
  | transients =>
      cases second with
      | transients => exact absurd rfl hne
      | deepSky => simp_all
      | unsizedDeepSky => simp_all
      | namedStars => simp_all

theorem subperm_select (hknown : ∀ candidate ∈ candidates, candidate.sizeUnknown = false) :
    ((selectForDisplay candidates options wideField).map unmarked).Subperm candidates := by
  have hrequested : (candidates.filter Candidate.requested).map unmarked =
      candidates.filter Candidate.requested := by
    apply List.map_congr_left _ |>.trans (List.map_id _)
    intro candidate hmem
    have hcandidate := hknown candidate (List.mem_of_mem_filter hmem)
    unfold unmarked
    rw [← hcandidate]
    rfl
  have hslot : ∀ slot, ((displayed candidates options wideField slot).map unmarked).Subperm
      (members candidates options wideField slot) := by
    intro slot
    have horiginal : (displayed candidates options wideField slot).map unmarked =
        (ranked candidates options wideField slot).take (cap options slot) := by
      rw [displayed_eq, List.map_map]
      apply (List.map_congr_left _).trans (List.map_id _)
      intro candidate hmem
      exact unmarked_mark (hknown candidate (mem_of_mem_ranked hmem))
    rw [horiginal]
    exact (List.take_sublist _ _).subperm.trans (ranks_ranked slot).perm.subperm
  have hdivided := @flatMap_filter_subperm Candidate (Candidate.requested ::
    slots.map fun slot candidate => !candidate.requested && passes options wideField slot candidate)
    (by
      rw [List.pairwise_cons]
      constructor
      · intro condition hmem candidate hcandidate
        obtain ⟨slot, _, hsame⟩ := List.mem_map.mp hmem
        rw [← hsame]
        dsimp only
        rw [hcandidate, Bool.not_true, Bool.false_and]
      · rw [List.pairwise_map]
        have hslots : slots.Pairwise (· ≠ ·) := by decide
        apply hslots.imp
        intro first second hne candidate hcandidate
        rw [Bool.and_eq_true] at hcandidate
        dsimp only
        rw [passes_disjoint hne hcandidate.2, Bool.and_false]) candidates
  have hparts : ((selectForDisplay candidates options wideField).map unmarked).Subperm
      (candidates.filter Candidate.requested ++
        slots.flatMap (members candidates options wideField)) := by
    rw [selectForDisplay_eq, List.map_append, hrequested]
    simp only [slots, List.flatMap_cons, List.flatMap_nil, List.map_append]
    exact (List.Subperm.refl _).append ((hslot _).append ((hslot _).append ((hslot _).append
      ((hslot _).append (List.Subperm.refl _)))))
  exact hparts.trans hdivided

end Collecting

/-! ## The specification -/

/-- Another cap for one group. -/
def withCap (options : AnnotationOptions) (most : ℕ) : Slot → AnnotationOptions
  | .deepSky => { options with maxDeepSky := most }
  | .namedStars => { options with maxNamedStars := most }
  | .transients => { options with maxTransients := most }
  | .unsizedDeepSky => { options with maxUnsizedDeepSky := most }

theorem ranked_withCap (candidates : List Candidate) (options : AnnotationOptions)
    (wideField : Bool) (most : ℕ) (lowered slot : Slot) :
    ranked candidates (withCap options most lowered) wideField slot =
      ranked candidates options wideField slot := by
  cases lowered <;> cases slot <;> rfl

theorem cap_withCap (options : AnnotationOptions) (most : ℕ) (lowered slot : Slot) :
    cap (withCap options most lowered) slot = if slot = lowered then most else cap options slot := by
  cases lowered <;> cases slot <;> rfl

theorem displayed_unsized {candidates : List Candidate} {options : AnnotationOptions}
    {wideField : Bool} {slot : Slot} (hslot : slot ≠ .unsizedDeepSky) (wanted : Bool)
    (most : ℕ) :
    displayed candidates
        { options with unsizedDeepSky := wanted, maxUnsizedDeepSky := most } wideField slot =
      displayed candidates options wideField slot := by
  rw [displayed_eq, displayed_eq]
  cases slot with
  | unsizedDeepSky => exact absurd rfl hslot
  | deepSky => rfl
  | namedStars => rfl
  | transients => rfl

/-- The result is that of its specification; changing one part of the input
changes its own part of the result only. -/
theorem select_for_display (candidates : List Candidate) (options : AnnotationOptions)
    (wideField : Bool) (hknown : ∀ candidate ∈ candidates, candidate.sizeUnknown = false) :
    selectForDisplay candidates options wideField =
        candidates.filter Candidate.requested ++
          slots.flatMap (displayed candidates options wideField) ∧
      (∀ slot, ∃ ranked,
        Ranks (fun candidate => -totalKey (score slot candidate))
          (members candidates options wideField slot) ranked ∧
        displayed candidates options wideField slot =
          (ranked.take (cap options slot)).map (mark slot)) ∧
      ((selectForDisplay candidates options wideField).map unmarked).Subperm candidates ∧
      (selectForDisplay candidates options wideField).filter Candidate.sizeUnknown =
        displayed candidates options wideField .unsizedDeepSky ∧
      (∀ wanted most,
        ((selectForDisplay candidates
            { options with unsizedDeepSky := wanted, maxUnsizedDeepSky := most }
            wideField).filter fun candidate => !candidate.sizeUnknown) =
          (selectForDisplay candidates options wideField).filter
            fun candidate => !candidate.sizeUnknown) ∧
      (∀ slot most, most ≤ cap options slot →
        displayed candidates (withCap options most slot) wideField slot <+:
          displayed candidates options wideField slot ∧
        ∀ other, other ≠ slot → displayed candidates (withCap options most slot) wideField other =
          displayed candidates options wideField other) ∧
      ∀ slot others, members others options wideField slot =
          members candidates options wideField slot →
        displayed others options wideField slot =
          displayed candidates options wideField slot := by
  refine ⟨selectForDisplay_eq, ?_, subperm_select hknown, filter_unknown hknown, ?_, ?_, ?_⟩
  · intro slot
    exact ⟨_, ranks_ranked slot, displayed_eq slot⟩
  · intro wanted most
    rw [filter_known hknown, filter_known hknown]
    congr 1
    apply List.flatMap_congr
    intro slot hmem
    apply displayed_unsized
    intro hunsized
    rw [hunsized] at hmem
    exact absurd hmem (by decide)
  · intro slot most hmost
    constructor
    · rw [displayed_eq, displayed_eq, ranked_withCap, cap_withCap, if_pos rfl]
      exact ((List.take_prefix_take_left hmost)).map _
    · intro other hother
      rw [displayed_eq, displayed_eq, ranked_withCap, cap_withCap, if_neg hother]
  · intro slot others hmembers
    rw [displayed_eq, displayed_eq]
    unfold ranked
    rw [hmembers]

/-- An object of a catalog near the middle of an image. -/
def catalogCandidate (group : DisplayGroup) (requested : Bool) (kind : ObjectKind) (name : String)
    (commonName : String) (mag : Option Float32) (semiMajorPx : Float) : Candidate where
  group
  requested
  sizeUnknown := false
  placed :=
    { object :=
        { kind
          ra := 10
          dec := 20
          mag
          majorArcmin := none
          name
          commonName
          metadata := ⟨"", "", [], [], [], []⟩ }
      x := 10
      y := 10
      semiMajorPx
      semiMinorPx := semiMajorPx
      angleDeg := none }
  discovered := none
  nearCapture := none

/-- Requested objects, and two of each group. -/
def survey : List Candidate :=
  [ catalogCandidate .deepSky true .galaxy "PGC 7" "" none 0,
    catalogCandidate .deepSky false .galaxy "M 31" "Andromeda Galaxy" (some 3) 80,
    catalogCandidate .namedStar false .star "HR 7001" "Vega" (some 0) 0,
    catalogCandidate .deepSky false .galaxy "PGC 1" "" none 0,
    catalogCandidate .transient false .transient "SN 2023ixf" "" (some 11) 0,
    catalogCandidate .deepSky false .galaxy "M 32" "Le Gentil" (some 8) 1,
    catalogCandidate .namedStar true .star "HR 7557" "Altair" (some 1) 0,
    catalogCandidate .deepSky false .galaxy "PGC 2" "" none 0,
    catalogCandidate .namedStar false .star "HR 7924" "Deneb" (some 1) 0,
    catalogCandidate .transient false .transient "SN 2011fe" "" (some 10) 0 ]

/-- One object of each group, those of unknown size among them. -/
def crowded : AnnotationOptions :=
  { AnnotationOptions.default with
    maxDeepSky := 1
    maxNamedStars := 1
    maxTransients := 1
    unsizedDeepSky := true
    maxUnsizedDeepSky := 1 }

/-- The named objects of a group pass its filters. -/
theorem two_le_members {slot : Slot} (hslot : slot ≠ .unsizedDeepSky) :
    2 ≤ (members survey crowded false slot).length := by
  unfold members
  rw [← List.countP_eq_length_filter]
  cases slot with
  | unsizedDeepSky => exact absurd rfl hslot
  | deepSky =>
      simp [survey, catalogCandidate, List.countP_cons, passes, isNamed, within, crowded,
        AnnotationOptions.default]
      omega
  | namedStars => decide
  | transients => decide

/-- Two of each group and a cap of one; the requested objects are all shown. -/
theorem select_for_display_survey :
    selectForDisplay survey crowded false =
        [ catalogCandidate .deepSky true .galaxy "PGC 7" "" none 0,
          catalogCandidate .namedStar true .star "HR 7557" "Altair" (some 1) 0 ] ++
          slots.flatMap (displayed survey crowded false) ∧
      (∀ slot ≠ Slot.unsizedDeepSky, 2 ≤ (members survey crowded false slot).length ∧
        (displayed survey crowded false slot).length = 1) ∧
      (selectForDisplay survey crowded false).filter Candidate.sizeUnknown =
        displayed survey crowded false .unsizedDeepSky ∧
      (selectForDisplay survey { crowded with unsizedDeepSky := false, maxUnsizedDeepSky := 0 }
          false).filter (fun candidate => !candidate.sizeUnknown) =
        (selectForDisplay survey crowded false).filter (fun candidate => !candidate.sizeUnknown) ∧
      displayed survey (withCap crowded 0 .transients) false .namedStars =
        displayed survey crowded false .namedStars := by
  have hknown : ∀ candidate ∈ survey, candidate.sizeUnknown = false := by
    simp [survey, catalogCandidate]
  obtain ⟨hselected, hranked, _, hunknown, hothers, hcaps, _⟩ :=
    select_for_display survey crowded false hknown
  refine ⟨hselected, ?_, hunknown, hothers false 0, ?_⟩
  · intro slot hslot
    have hmembers := two_le_members hslot
    have hcap : cap crowded slot = 1 := by
      cases slot <;> rfl
    obtain ⟨ranked, hranks, hdisplayed⟩ := hranked slot
    refine ⟨hmembers, ?_⟩
    rw [hdisplayed, List.length_map, List.length_take, hranks.perm.length_eq, hcap]
    omega
  · exact (hcaps .transients 0 (by decide)).2 .namedStars (by decide)

end SeizaServer.Annotations
