import SeizaServer.HeaderPreparation
import SeizaServer.PersistedJobs

/-!
# The downloadable coordinate header

The cards that `fits_wcs_header` writes, and what the rule by which the server
reads a card makes of them.  How numbers are printed is a parameter.
-/

namespace SeizaServer.WcsHeader

open Solver

variable {Time : Type}

/-! ## Writing the header -/

/-- How Rust prints an `f64` with some decimals. -/
structure FloatText where
  /-- `{:.n}`. -/
  fixed : ℕ → Float → String
  /-- `{:.nE}`. -/
  scientific : ℕ → Float → String

/-- `{:>20}`. -/
def alignedRight (value : String) : List Char :=
  value.toList.leftpad 20 ' '

/-- `'{:<18}'`. -/
def quoted (value : String) : List Char :=
  '\'' :: value.toList.rightpad 18 ' ' ++ ['\'']

/-- A card whose first columns are spelled out. -/
def card (columns : String) (value : List Char) (comment : String) : List Char :=
  columns.toList ++ (value ++ (" / " ++ comment).toList)

/-- `{:<8}= `, the value and the comment. -/
def sipCard (keyword : String) (value : List Char) (comment : String) : List Char :=
  keyword.toList.rightpad 8 ' ' ++ ("= ".toList ++ (value ++ (" / " ++ comment).toList))

def sipKeyword (name : String) (p q : UInt8) : String :=
  name ++ "_" ++ toString p ++ "_" ++ toString q

variable (numbers : FloatText)

/-- The cards before the distortion, after the two fixed ones. -/
def coordinateCards (solution : SolutionResponse Time) : List (List Char) :=
  let wcs := solution.wcs
  [ card "NAXIS1   = " (alignedRight (toString solution.imageWidth)) "Image width",
    card "NAXIS2   = " (alignedRight (toString solution.imageHeight)) "Image height",
    card "CTYPE1   = " (quoted wcs.ctype.1) "Axis 1 projection",
    card "CTYPE2   = " (quoted wcs.ctype.2) "Axis 2 projection",
    card "CUNIT1   = " (quoted wcs.cunit.1) "Axis 1 unit",
    card "CUNIT2   = " (quoted wcs.cunit.2) "Axis 2 unit",
    card "CRVAL1   = " (alignedRight (numbers.fixed 12 wcs.crval.1)) "Reference right ascension",
    card "CRVAL2   = " (alignedRight (numbers.fixed 12 wcs.crval.2)) "Reference declination",
    card "CRPIX1   = " (alignedRight (numbers.fixed 12 (wcs.crpix.1 + 1)))
      "Reference pixel, FITS convention",
    card "CRPIX2   = " (alignedRight (numbers.fixed 12 (wcs.crpix.2 + 1)))
      "Reference pixel, FITS convention",
    card "CD1_1    = " (alignedRight (numbers.scientific 12 wcs.cd.1.1)) "Degrees per pixel",
    card "CD1_2    = " (alignedRight (numbers.scientific 12 wcs.cd.1.2)) "Degrees per pixel",
    card "CD2_1    = " (alignedRight (numbers.scientific 12 wcs.cd.2.1)) "Degrees per pixel",
    card "CD2_2    = " (alignedRight (numbers.scientific 12 wcs.cd.2.2)) "Degrees per pixel" ]

def orderCard (keyword : String) (sip : SipResponse) (direction : String) : List Char :=
  sipCard keyword (alignedRight (toString sip.order)) ("SIP " ++ direction ++ " polynomial order")

def coefficientCard (name comment : String) (coefficient : SipCoefficient) : List Char :=
  sipCard (sipKeyword name coefficient.1 coefficient.2.1)
    (alignedRight (numbers.scientific 12 coefficient.2.2)) comment

def sipCards (sip : SipResponse) : List (List Char) :=
  [orderCard "A_ORDER" sip "forward", orderCard "B_ORDER" sip "forward"] ++
    (sip.a.map (coefficientCard numbers "A" "SIP coefficient") ++
    sip.b.map (coefficientCard numbers "B" "SIP coefficient")) ++
    [orderCard "AP_ORDER" sip "inverse", orderCard "BP_ORDER" sip "inverse"] ++
    (sip.ap.map (coefficientCard numbers "AP" "SIP inverse coefficient") ++
    sip.bp.map (coefficientCard numbers "BP" "SIP inverse coefficient"))

def referenceCards (wcs : WcsResponse) : List (List Char) :=
  [ card "RADESYS  = " (quoted wcs.radesys) "Celestial reference frame",
    card "EQUINOX  = " (alignedRight (numbers.fixed 8 wcs.equinox)) "Equinox of coordinates" ]

def wcsCards (solution : SolutionResponse Time) : List (List Char) :=
  [ "WCSAXES =                    2 / Number of WCS axes".toList,
    "NAXIS    =                    2 / Number of image axes".toList ] ++
    coordinateCards numbers solution ++
    (solution.wcs.sip.elim [] (sipCards numbers)) ++
    referenceCards numbers solution.wcs ++
    ["END".toList]

/-- `String::truncate`: `none` is the panic inside a character. -/
def truncate : ℕ → List Char → Option (List Char)
  | _, [] => some []
  | 0, _ :: _ => some []
  | bytes + 1, c :: rest =>
      if c.utf8Size ≤ bytes + 1 then (truncate (bytes + 1 - c.utf8Size) rest).map (c :: ·)
      else none

/-- A card cut at 80 bytes and filled up to 80 characters. -/
def formatCard (card : List Char) : Option (List Char) :=
  (truncate 80 card).map (·.rightpad 80 ' ')

def wcsLines (solution : SolutionResponse Time) : Option (List (List Char)) :=
  (wcsCards numbers solution).mapM formatCard

def joinLines (lines : List (List Char)) : List Char :=
  lines.flatMap (· ++ ['\n'])

def fitsWcsHeader (solution : SolutionResponse Time) : Option (List Char) :=
  (wcsLines numbers solution).map joinLines

/-! ## Reading a card -/

/-- The rule of `image_headers` for a card other than `END`. -/
def readCard (line : List Char) : Option (String × List Char) :=
  let keyword := trimText (line.take 8)
  if keyword = [] || (line.drop 8).take 2 != "= ".toList then none
  else some (String.ofList keyword, trimText ((line.drop 10).takeWhile (· ≠ '/')))

def coefficientFields (name : String) (coefficients : List SipCoefficient) :
    List (String × List Char) :=
  coefficients.map fun (p, q, value) =>
    (sipKeyword name p q, trimText (numbers.scientific 12 value).toList)

/-- What a reader has to find in the header. -/
def headerFields (solution : SolutionResponse Time) : List (String × List Char) :=
  let wcs := solution.wcs
  [ ("NAXIS1", (toString solution.imageWidth).toList),
    ("NAXIS2", (toString solution.imageHeight).toList),
    ("CTYPE1", quoted wcs.ctype.1), ("CTYPE2", quoted wcs.ctype.2),
    ("CUNIT1", quoted wcs.cunit.1), ("CUNIT2", quoted wcs.cunit.2),
    ("CRVAL1", trimText (numbers.fixed 12 wcs.crval.1).toList),
    ("CRVAL2", trimText (numbers.fixed 12 wcs.crval.2).toList),
    ("CRPIX1", trimText (numbers.fixed 12 (wcs.crpix.1 + 1)).toList),
    ("CRPIX2", trimText (numbers.fixed 12 (wcs.crpix.2 + 1)).toList),
    ("CD1_1", trimText (numbers.scientific 12 wcs.cd.1.1).toList),
    ("CD1_2", trimText (numbers.scientific 12 wcs.cd.1.2).toList),
    ("CD2_1", trimText (numbers.scientific 12 wcs.cd.2.1).toList),
    ("CD2_2", trimText (numbers.scientific 12 wcs.cd.2.2).toList),
    ("RADESYS", quoted wcs.radesys) ] ++
    wcs.sip.elim [] fun sip =>
      [ ("A_ORDER", (toString sip.order).toList), ("B_ORDER", (toString sip.order).toList),
        ("AP_ORDER", (toString sip.order).toList), ("BP_ORDER", (toString sip.order).toList) ] ++
        coefficientFields numbers "A" sip.a ++ coefficientFields numbers "B" sip.b ++
        coefficientFields numbers "AP" sip.ap ++ coefficientFields numbers "BP" sip.bp

/-- The header is written, in lines of 80 ASCII characters, and every field is
read back from one of them. -/
def HeaderReadable (solution : SolutionResponse Time) : Prop :=
  ∃ lines, fitsWcsHeader numbers solution = some (joinLines lines) ∧
    (∀ line ∈ lines, line.length = 80 ∧ ∀ c ∈ line, c.toNat < 128) ∧
    ∀ field ∈ headerFields numbers solution, field ∈ lines.filterMap readCard

/-! ## Columns -/

theorem truncate_append {columns : List Char} (hascii : ∀ c ∈ columns, c.utf8Size = 1) (bytes : ℕ)
    (rest : List Char) :
    truncate (columns.length + bytes) (columns ++ rest) =
      (truncate bytes rest).map (columns ++ ·) := by
  induction columns with
  | nil => simp
  | cons c columns ih =>
      have hsize : c.utf8Size = 1 := hascii c List.mem_cons_self
      have hrest := ih fun d hd => hascii d (List.mem_cons_of_mem c hd)
      have hlength : (c :: columns).length + bytes = columns.length + bytes + 1 := by
        simp only [List.length_cons]
        omega
      rw [hlength, List.cons_append, truncate, hsize, if_pos (by omega), Nat.add_sub_cancel, hrest]
      simp [Function.comp_def]

theorem length_truncate_le {bytes : ℕ} {text cut : List Char} (hcut : truncate bytes text = some cut) :
    cut.length ≤ bytes := by
  fun_induction truncate bytes text generalizing cut with
  | case1 => simp_all
  | case2 => simp_all
  | case3 bytes c rest hsize ih =>
      obtain ⟨tail, htail, rfl⟩ := Option.map_eq_some_iff.mp hcut
      have := ih htail
      have := Char.utf8Size_pos c
      simp only [List.length_cons]
      omega
  | case4 => cases hcut

theorem length_formatCard {card line : List Char} (hline : formatCard card = some line) :
    line.length = 80 := by
  obtain ⟨cut, hcut, rfl⟩ := Option.map_eq_some_iff.mp hline
  have := length_truncate_le hcut
  simp only [List.rightpad, List.length_append, List.length_replicate]
  omega

theorem take_formatCard {columns rest line : List Char} (hascii : ∀ c ∈ columns, c.utf8Size = 1)
    (hlength : columns.length ≤ 80) (hline : formatCard (columns ++ rest) = some line) :
    columns <+: line := by
  obtain ⟨cut, hcut, rfl⟩ := Option.map_eq_some_iff.mp hline
  rw [← Nat.add_sub_cancel' hlength, truncate_append hascii] at hcut
  obtain ⟨tail, _, rfl⟩ := Option.map_eq_some_iff.mp hcut
  simp [List.rightpad, List.append_assoc]

/-- No line that the card becomes is read as a value of the keyword. -/
def Avoids (keyword : String) (card : List Char) : Prop :=
  ∀ line value, formatCard card = some line → readCard line ≠ some (keyword, value)

/-- The value indicator has to stand in columns 9 and 10. -/
theorem avoids_of_columns {columns : List Char} (hascii : ∀ c ∈ columns, c.utf8Size = 1)
    (hshort : 10 ≤ columns.length) (hlong : columns.length ≤ 80)
    (hshifted : (columns.drop 8).take 2 ≠ "= ".toList) (keyword : String) (rest : List Char) :
    Avoids keyword (columns ++ rest) := by
  intro line value hline
  obtain ⟨tail, rfl⟩ := take_formatCard hascii hlong hline
  have hcolumns : ((columns ++ tail).drop 8).take 2 = (columns.drop 8).take 2 := by
    have hdrop : 2 ≤ (columns.drop 8).length := by
      rw [List.length_drop]
      omega
    rw [List.drop_append_of_le_length (by omega), List.take_append_of_le_length hdrop]
  unfold readCard
  dsimp only
  rw [hcolumns, bne_iff_ne.mpr hshifted, Bool.or_true, if_pos rfl]
  exact nofun

theorem avoids_card {columns : String} (hascii : columns.toList.all fun c => c.utf8Size == 1)
    (hshort : 10 ≤ columns.toList.length) (hlong : columns.toList.length ≤ 80)
    (hshifted : (columns.toList.drop 8).take 2 ≠ "= ".toList) (keyword : String)
    (value : List Char) (comment : String) : Avoids keyword (card columns value comment) := by
  have hsizes : ∀ c ∈ columns.toList, c.utf8Size = 1 := by
    intro c hc
    simpa using List.all_eq_true.mp hascii c hc
  exact avoids_of_columns hsizes hshort hlong hshifted keyword _

theorem head_trimText {c : Char} (hc : isWhiteSpace c = false) (rest : List Char) :
    (trimText (c :: rest)).head? = some c := by
  have hdrop : (c :: rest).dropWhile isWhiteSpace = c :: rest := by simp [hc]
  obtain ⟨tail, htail⟩ := List.rdropWhile_prefix isWhiteSpace (l := c :: rest)
  rw [trimText, hdrop]
  cases hkept : (c :: rest).rdropWhile isWhiteSpace with
  | nil =>
      have hall := List.rdropWhile_eq_nil_iff.mp hkept c List.mem_cons_self
      simp [hc] at hall
  | cons d kept =>
      rw [hkept, List.cons_append, List.cons.injEq] at htail
      rw [List.head?_cons, htail.1]

/-- A keyword begins like its card. -/
theorem avoids_of_head {c : Char} (hc : isWhiteSpace c = false) (hascii : c.utf8Size = 1)
    {keyword : String} (hkeyword : keyword.toList.head? ≠ some c) (rest : List Char) :
    Avoids keyword (c :: rest) := by
  intro line value hline hread
  have hcolumn : ∀ d ∈ [c], d.utf8Size = 1 := by simpa using hascii
  obtain ⟨tail, rfl⟩ := take_formatCard hcolumn (by simp) hline
  apply hkeyword
  have hhead : (trimText (([c] ++ tail).take 8)).head? = some c := head_trimText hc (tail.take 7)
  unfold readCard at hread
  dsimp only at hread
  rw [Option.ite_none_left_eq_some, Option.some.injEq, Prod.mk.injEq] at hread
  rw [← hread.2.1, String.toList_ofList]
  exact hhead

/-! ## The cards of a solution -/

/-- The keywords whose cards have the equals sign one column too late. -/
def shiftedKeywords : List String :=
  ["NAXIS", "NAXIS1", "NAXIS2", "CTYPE1", "CTYPE2", "CUNIT1", "CUNIT2", "CRVAL1", "CRVAL2",
    "CRPIX1", "CRPIX2", "CD1_1", "CD1_2", "CD2_1", "CD2_2", "RADESYS", "EQUINOX"]

variable {keyword : String}

theorem head_shifted (hkeyword : keyword ∈ shiftedKeywords) :
    keyword.toList.head? ≠ some 'A' ∧ keyword.toList.head? ≠ some 'B' ∧
      keyword.toList.head? ≠ some 'W' := by
  have hall : shiftedKeywords.all fun keyword =>
      keyword.toList.head? != some 'A' && keyword.toList.head? != some 'B' &&
        keyword.toList.head? != some 'W' := by decide
  have hhead := List.all_eq_true.mp hall keyword hkeyword
  simpa [and_assoc] using hhead

theorem coordinateCards_avoid (solution : SolutionResponse Time) (keyword : String) :
    ∀ card ∈ coordinateCards numbers solution, Avoids keyword card := by
  simp only [coordinateCards, List.forall_mem_cons]
  refine ⟨?_, ?_, ?_, ?_, ?_, ?_, ?_, ?_, ?_, ?_, ?_, ?_, ?_, ?_, List.forall_mem_nil _⟩
  all_goals apply avoids_card <;> decide

theorem referenceCards_avoid (wcs : WcsResponse) (keyword : String) :
    ∀ card ∈ referenceCards numbers wcs, Avoids keyword card := by
  simp only [referenceCards, List.forall_mem_cons]
  refine ⟨?_, ?_, List.forall_mem_nil _⟩
  all_goals apply avoids_card <;> decide

/-- The keyword of a distortion card begins with `A` or `B`. -/
theorem avoids_sipCard {first : Char} {rest : List Char} {name : String}
    (hname : name.toList = first :: rest) (hfirst : first = 'A' ∨ first = 'B')
    (hkeyword : keyword ∈ shiftedKeywords) (value : List Char) (comment : String) :
    Avoids keyword (sipCard name value comment) := by
  obtain ⟨hA, hB, _⟩ := head_shifted hkeyword
  unfold sipCard
  rw [hname, List.rightpad, List.append_assoc, List.cons_append]
  cases hfirst with
  | inl hfirst => subst hfirst; exact avoids_of_head (by decide) (by decide) hA _
  | inr hfirst => subst hfirst; exact avoids_of_head (by decide) (by decide) hB _

theorem avoids_coefficientCard {first : Char} {rest : List Char} {name : String}
    (hname : name.toList = first :: rest) (hfirst : first = 'A' ∨ first = 'B')
    (hkeyword : keyword ∈ shiftedKeywords) (comment : String) (coefficient : SipCoefficient) :
    Avoids keyword (coefficientCard numbers name comment coefficient) := by
  apply avoids_sipCard _ hfirst hkeyword
  · exact rest ++ (("_" ++ toString coefficient.1) ++ ("_" ++ toString coefficient.2.1)).toList
  · simp [sipKeyword, hname]

theorem sipCards_avoid (hkeyword : keyword ∈ shiftedKeywords) (sip : SipResponse) :
    ∀ card ∈ sipCards numbers sip, Avoids keyword card := by
  have hcoefficients : ∀ (name : String) (first : Char) (rest : List Char) (comment : String)
      (coefficients : List SipCoefficient), name.toList = first :: rest →
      (first = 'A' ∨ first = 'B') →
      ∀ card ∈ coefficients.map (coefficientCard numbers name comment), Avoids keyword card := by
    intro name first rest comment coefficients hname hfirst
    rw [List.forall_mem_map]
    exact fun coefficient _ => avoids_coefficientCard numbers hname hfirst hkeyword comment coefficient
  simp only [sipCards, List.forall_mem_append, List.forall_mem_cons]
  refine ⟨⟨⟨⟨?_, ?_, List.forall_mem_nil _⟩, ?_, ?_⟩, ?_, ?_, List.forall_mem_nil _⟩, ?_, ?_⟩
  · exact avoids_sipCard (by rfl) (.inl rfl) hkeyword _ _
  · exact avoids_sipCard (by rfl) (.inr rfl) hkeyword _ _
  · exact hcoefficients "A" _ _ _ _ rfl (.inl rfl)
  · exact hcoefficients "B" _ _ _ _ rfl (.inr rfl)
  · exact avoids_sipCard (by rfl) (.inl rfl) hkeyword _ _
  · exact avoids_sipCard (by rfl) (.inr rfl) hkeyword _ _
  · exact hcoefficients "AP" _ _ _ _ rfl (.inl rfl)
  · exact hcoefficients "BP" _ _ _ _ rfl (.inr rfl)

theorem wcsCards_avoid (hkeyword : keyword ∈ shiftedKeywords) (solution : SolutionResponse Time) :
    ∀ card ∈ wcsCards numbers solution, Avoids keyword card := by
  simp only [wcsCards, List.forall_mem_append, List.forall_mem_cons]
  refine ⟨⟨⟨⟨⟨?_, ?_, List.forall_mem_nil _⟩, coordinateCards_avoid numbers solution keyword⟩, ?_⟩,
    referenceCards_avoid numbers solution.wcs keyword⟩, ?_, List.forall_mem_nil _⟩
  · exact avoids_of_head (by decide) (by decide) (head_shifted hkeyword).2.2 _
  · have haxes : "NAXIS    =                    2 / Number of image axes".toList =
        card "NAXIS    =" "                    2".toList "Number of image axes" := by decide
    rw [haxes]
    apply avoids_card <;> decide
  · cases solution.wcs.sip with
    | none => exact List.forall_mem_nil _
    | some sip => exact sipCards_avoid numbers hkeyword sip
  · intro line value hline
    have hend : formatCard "END".toList = some ("END".toList ++ List.replicate 77 ' ') := by decide
    rw [hend, Option.some.injEq] at hline
    rw [← hline]
    have hnone : readCard ("END".toList ++ List.replicate 77 ' ') = none := by decide
    rw [hnone]
    exact nofun

theorem mem_of_mapM {α β : Type} {f : α → Option β} {inputs : List α} {outputs : List β}
    (hmap : inputs.mapM f = some outputs) {output : β} (hmem : output ∈ outputs) :
    ∃ input ∈ inputs, f input = some output := by
  induction inputs generalizing outputs with
  | nil => simp_all
  | cons input inputs ih =>
      rw [List.mapM_cons] at hmap
      simp only [Option.bind_eq_bind, Option.bind_eq_some_iff, Option.pure_def,
        Option.some.injEq] at hmap
      obtain ⟨first, hfirst, rest, hrest, rfl⟩ := hmap
      cases List.mem_cons.mp hmem with
      | inl heq => exact ⟨input, List.mem_cons_self, heq ▸ hfirst⟩
      | inr hmem =>
          obtain ⟨found, hfound, hvalue⟩ := ih hrest hmem
          exact ⟨found, List.mem_cons_of_mem input hfound, hvalue⟩

/-- None of the shifted cards is read. -/
theorem shifted_unread (hkeyword : keyword ∈ shiftedKeywords) {solution : SolutionResponse Time}
    {lines : List (List Char)} (hlines : wcsLines numbers solution = some lines)
    (value : List Char) : (keyword, value) ∉ lines.filterMap readCard := by
  intro hmem
  obtain ⟨line, hline, hread⟩ := List.mem_filterMap.mp hmem
  obtain ⟨card, hcard, hformat⟩ := mem_of_mapM hlines hline
  exact wcsCards_avoid numbers hkeyword solution card hcard line value hformat hread

/-- Lines of one length are determined by their text. -/
theorem joinLines_injective {width : ℕ} {first second : List (List Char)}
    (hfirst : ∀ line ∈ first, line.length = width) (hsecond : ∀ line ∈ second, line.length = width)
    (hjoin : joinLines first = joinLines second) : first = second := by
  induction first generalizing second with
  | nil =>
      cases second with
      | nil => rfl
      | cons line second => simp [joinLines] at hjoin
  | cons line first ih =>
      cases second with
      | nil => simp [joinLines] at hjoin
      | cons other second =>
          rw [List.forall_mem_cons] at hfirst hsecond
          simp only [joinLines, List.flatMap_cons] at hjoin
          have hlength : (line ++ ['\n']).length = (other ++ ['\n']).length := by
            simp [hfirst.1, hsecond.1]
          obtain ⟨hline, hrest⟩ := List.append_inj hjoin hlength
          rw [List.append_cancel_right hline, ih hfirst.2 hsecond.2 hrest]

/-- The lines of a readable header are those written. -/
theorem wcsLines_of_readable {solution : SolutionResponse Time}
    (hreadable : HeaderReadable numbers solution) :
    ∃ lines, wcsLines numbers solution = some lines ∧
      ∀ field ∈ headerFields numbers solution, field ∈ lines.filterMap readCard := by
  obtain ⟨lines, hheader, hascii, hfields⟩ := hreadable
  obtain ⟨written, hwritten, hjoin⟩ := Option.map_eq_some_iff.mp hheader
  have hlengths : ∀ line ∈ written, line.length = 80 := by
    intro line hline
    obtain ⟨card, _, hformat⟩ := mem_of_mapM hwritten hline
    exact length_formatCard hformat
  have heq := joinLines_injective hlengths (fun line hline => (hascii line hline).1) hjoin
  rw [heq] at hwritten
  exact ⟨lines, hwritten, hfields⟩

/-- The dimensions are not found in the header of any solution. -/
theorem wcs_header_unreadable (solution : SolutionResponse Time) :
    ¬ HeaderReadable numbers solution := by
  intro hreadable
  obtain ⟨lines, hlines, hfields⟩ := wcsLines_of_readable numbers hreadable
  have hwidth : "NAXIS1" ∈ shiftedKeywords := by decide
  exact shifted_unread numbers hwidth hlines _ (hfields _ List.mem_cons_self)

/-- How zero is printed. -/
def zeroText : FloatText where
  fixed decimals _ := "0." ++ String.ofList (List.replicate decimals '0')
  scientific decimals _ := "0." ++ String.ofList (List.replicate decimals '0') ++ "E0"

/-- All coordinates are zero; a reference pixel of -1 is printed as zero. -/
def zeroSolution : SolutionResponse ℤ where
  centerRaDeg := 0
  centerDecDeg := 0
  pixelScaleArcsecPerPixel := 1
  matchedStars := 12
  rmsArcsec := 0
  imageWidth := 100
  imageHeight := 80
  wcs :=
    { crval := (0, 0), crpix := (-1, -1), cd := ((0, 0), (0, 0)), ctype := defaultCtype,
      cunit := defaultCunit, radesys := defaultRadesys, equinox := 0, sip := none }
  footprint := zeroFootprint
  objects := []
  catalogVersion := none
  captureTime := none
  statistics := none
  pixelCoordinates := none
  contentRegion := none

theorem wcs_header_unreadable_counterexample :
    ¬ ∀ (numbers : FloatText) (terms : SipTerms) (solution : SolutionResponse ℤ),
      solution.validate terms = .ok () → HeaderReadable numbers solution := by
  intro hreadable
  have hvalid : zeroSolution.validate ⟨fun _ => [], fun _ => []⟩ = .ok () := by decide +kernel
  obtain ⟨lines, hlines, hfields⟩ :=
    wcsLines_of_readable zeroText (hreadable zeroText _ zeroSolution hvalid)
  have hwidth : "NAXIS1" ∈ shiftedKeywords := by decide
  exact shifted_unread zeroText hwidth hlines _ (hfields _ List.mem_cons_self)

end SeizaServer.WcsHeader
