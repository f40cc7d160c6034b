import Mathlib.Data.List.DropRight
import SeizaServer.SolveOptions

/-!
# Preparation of solve options from an image

What `prepare_solve_options_from_prefix` reads from the header cards of a FITS
file, from an XISF header or from EXIF, and how it fills the options.  The
crates that parse header values, XISF headers, EXIF and calendar times are
parameters.
-/

namespace SeizaServer.Solver

/-! ## Text -/

/-- The Unicode property `White_Space`. -/
def isWhiteSpace (c : Char) : Bool :=
  (0x09 ≤ c.toNat && c.toNat ≤ 0x0d) || c.toNat = 0x20 || c.toNat = 0x85 || c.toNat = 0xa0 ||
    c.toNat = 0x1680 || (0x2000 ≤ c.toNat && c.toNat ≤ 0x200a) || c.toNat = 0x2028 ||
    c.toNat = 0x2029 || c.toNat = 0x202f || c.toNat = 0x205f || c.toNat = 0x3000

/-- `str::trim`. -/
def trimText (text : List Char) : List Char :=
  (text.dropWhile isWhiteSpace).rdropWhile isWhiteSpace

def isContinuation (byte : UInt8) : Bool :=
  0x80 ≤ byte && byte < 0xc0

/-- The code point of a sequence whose first byte carries some bits. -/
def codePoint (lead : ℕ) (tail : List UInt8) : ℕ :=
  tail.foldl (fun value byte => value * 64 + byte.toNat % 64) lead

/-- `std::str::from_utf8`. -/
def fromUtf8 : List UInt8 → Option (List Char)
  | [] => some []
  | a :: rest =>
      if a < 0x80 then (fromUtf8 rest).map (Char.ofNat a.toNat :: ·)
      else
        match rest with
        | b :: rest =>
            if 0xc2 ≤ a && a < 0xe0 && isContinuation b then
              (fromUtf8 rest).map (Char.ofNat (codePoint (a.toNat % 32) [b]) :: ·)
            else
              match rest with
              | c :: rest =>
                  if 0xe0 ≤ a && a < 0xf0 && isContinuation b && isContinuation c &&
                      !(a == 0xe0 && b < 0xa0) && !(a == 0xed && 0xa0 ≤ b) then
                    (fromUtf8 rest).map (Char.ofNat (codePoint (a.toNat % 16) [b, c]) :: ·)
                  else
                    match rest with
                    | d :: rest =>
                        if 0xf0 ≤ a && a < 0xf5 && isContinuation b && isContinuation c &&
                            isContinuation d && !(a == 0xf0 && b < 0x90) &&
                            !(a == 0xf4 && 0x90 ≤ b) then
                          (fromUtf8 rest).map
                            (Char.ofNat (codePoint (a.toNat % 8) [b, c, d]) :: ·)
                        else none
                    | [] => none
              | [] => none
        | [] => none

/-- The text after the last dot, all of it without one. -/
def extensionIs (filename : String) (extension : String) : Bool :=
  ((filename.toList.splitOn '.').getLast?.getD []).map Char.toLower == extension.toList

def digitsValue (digits : List Char) : ℕ :=
  digits.foldl (fun value digit => value * 10 + (digit.toNat - '0'.toNat)) 0

/-- The number after the `e` of a decimal. -/
def parseExponent (text : List Char) : Option ℤ :=
  let (negative, digits) :=
    match text with
    | '-' :: digits => (true, digits)
    | '+' :: digits => (false, digits)
    | digits => (false, digits)
  if digits.isEmpty || !digits.all Char.isDigit then none
  else if negative then some (-(digitsValue digits : ℤ))
  else some (digitsValue digits)

def parseDecimal (text : List Char) : Option Float := do
  let mantissa := text.takeWhile (· ≠ 'e')
  let whole := mantissa.takeWhile Char.isDigit
  let fraction ←
    match mantissa.dropWhile Char.isDigit with
    | [] => some []
    | '.' :: digits => if digits.all Char.isDigit then some digits else none
    | _ => none
  let exponent ←
    match text.dropWhile (· ≠ 'e') with
    | [] => some 0
    | _ :: digits => parseExponent digits
  if whole.isEmpty && fraction.isEmpty then none
  else
    some (Float.ofModel (Float.Model.ofScientific (digitsValue (whole ++ fraction))
      (exponent - fraction.length)))

/-- `str::parse::<f64>`. -/
def parseF64 (text : List Char) : Option Float :=
  let (negative, rest) :=
    match text with
    | '-' :: rest => (true, rest)
    | '+' :: rest => (false, rest)
    | rest => (false, rest)
  let lower := rest.map Char.toLower
  let magnitude :=
    if lower = "inf".toList || lower = "infinity".toList then some (1 / 0)
    else if lower = "nan".toList then some (0 / 0)
    else parseDecimal lower
  magnitude.map fun value => if negative then -value else value

def ascii (text : String) : List UInt8 :=
  text.toList.map fun c => UInt8.ofNat c.toNat

def startsWith (bytes : List UInt8) (magic : String) : Bool :=
  (ascii magic).isPrefixOf bytes

/-! ## Other crates -/

inductive CaptureTimeSource where
  | dateTimeOriginal
  | gps

/-- The fields of `PhotoMetadata` that are read here. -/
structure PhotoMetadata where
  captureTimeUtc : Option String
  captureTimeSource : Option CaptureTimeSource
  subSecTimeOriginal : Option String
  gpsLatitudeDeg : Option Float
  gpsLongitudeDeg : Option Float

/-- A map from keywords to header values. -/
abbrev ImageHeaders (Value : Type) := List (String × Value)

/-- The code of other crates that the preparation calls. -/
structure Crates (Value Time : Type) where
  /-- `seiza_fits::parse_header_value`. -/
  parseHeaderValue : List Char → Value
  asF64 : Value → Option Float
  asStr : Value → Option String
  /-- `seiza_xisf::read_header` on a file of these bytes, filled with zeros up to
  a length; writing the temporary file may fail as well. -/
  readXisfHeader : List UInt8 → ℕ → Option (ImageHeaders Value)
  /-- `PhotoMetadata::from_bytes`. -/
  photoMetadata : List UInt8 → PhotoMetadata
  /-- `DateTime::parse_from_rfc3339`, as UTC. -/
  parseFromRfc3339 : List Char → Option Time
  /-- `NaiveDateTime::parse_from_str`, as UTC. -/
  parseNaiveDateTime : List Char → String → Option Time
  /-- `NaiveDate::parse_from_str` at midnight, as UTC. -/
  parseNaiveDate : List Char → String → Option Time
  /-- `(end - start).num_microseconds()`, of the start and the end. -/
  numMicroseconds : Time → Time → Option Int64
  /-- `checked_sub_signed`, of microseconds. -/
  checkedSubMicroseconds : Time → Int64 → Option Time

variable {Value Time : Type} (crates : Crates Value Time)

def parseCaptureTime (value : String) : Option Time :=
  let value := trimText value.toList
  let naive := value.rdropWhile (· = 'Z')
  crates.parseFromRfc3339 value
    <|> crates.parseNaiveDateTime naive "%Y-%m-%dT%H:%M:%S%.f"
    <|> crates.parseNaiveDateTime naive "%Y-%m-%d %H:%M:%S%.f"
    <|> crates.parseNaiveDate value "%Y-%m-%d"

/-! ## Header cards -/

inductive ImageHeaderSource where
  | fits
  | xisf

def ImageHeaderSource.hintSource : ImageHeaderSource → SolveHintSource
  | .fits => .fitsHeader
  | .xisf => .xisfHeader

def ImageHeaderSource.satelliteSource : ImageHeaderSource → SatelliteMetadataSource
  | .fits => .fitsHeader
  | .xisf => .xisfHeader

def fitsHeaderProbeBytes : ℕ := 80 * 1440
def xisfPreambleBytes : ℕ := 16
def xisfMaxHeaderBytes : ℕ := 16 * 1024 * 1024

def looksLikeFits (bytes : List UInt8) (filename : String) : Bool :=
  extensionIs filename "fits" || extensionIs filename "fit" || extensionIs filename "fts" ||
    startsWith bytes "SIMPLE  "

def looksLikeXisf (bytes : List UInt8) (filename : String) : Bool :=
  extensionIs filename "xisf" || startsWith bytes "XISF0100"

def xisfHeaderPrefixBytes (bytes : List UInt8) : Option ℕ :=
  if bytes.length < xisfPreambleBytes || !startsWith bytes "XISF0100" then none
  else
    let headerBytes := ((bytes.drop 8).take 4).foldr (fun byte value => byte.toNat + 256 * value) 0
    if headerBytes = 0 || xisfMaxHeaderBytes < headerBytes then none
    else some (xisfPreambleBytes + headerBytes)

/-- The cards up to `END`; without one there is no header. -/
def readCards : ImageHeaders Value → List (List UInt8) → Option (ImageHeaders Value)
  | _, [] => none
  | headers, card :: cards => do
      let keyword := String.ofList (trimText (← fromUtf8 (card.take 8)))
      if keyword = "END" then
        return headers
      else if keyword = "" || (card.drop 8).take 2 != ascii "= " then
        readCards headers cards
      else
        let raw ← fromUtf8 (card.drop 10)
        readCards ((keyword, crates.parseHeaderValue raw) :: headers) cards

/-- `chunks_exact`: a last piece that is too short is dropped. -/
def cardsOf : ℕ → List UInt8 → List (List UInt8)
  | 0, _ => []
  | count + 1, bytes =>
      if bytes.length < 80 then [] else bytes.take 80 :: cardsOf count (bytes.drop 80)

def imageHeaders (bytes : List UInt8) (filename : String) (fileSize : ℕ) :
    Option (ImageHeaders Value × ImageHeaderSource) :=
  if looksLikeXisf bytes filename then do
    let headerBytes ← xisfHeaderPrefixBytes bytes
    if bytes.length < headerBytes || fileSize < headerBytes then none
    else
      let headers ← crates.readXisfHeader (bytes.take headerBytes) fileSize
      return (headers, .xisf)
  else if !looksLikeFits bytes filename || !startsWith bytes "SIMPLE  " then none
  else do
    let headers ← readCards crates [] (cardsOf (fitsHeaderProbeBytes / 80) bytes)
    return (headers, .fits)

/-! ### Values of a header -/

def headerF64 (headers : ImageHeaders Value) (key : String) : Option Float :=
  (headers.lookup key).bind crates.asF64

def fitsTime (headers : ImageHeaders Value) (key : String) : Option Time :=
  ((headers.lookup key).bind crates.asStr).bind (parseCaptureTime crates)

/-- Whether angles are split into components here. -/
def isAngleSeparator (c : Char) : Bool :=
  ":hHdDmMsS".toList.contains c

def parseFitsAngle (value : Value) (rightAscension : Bool) : Option Float :=
  match crates.asF64 value with
  | some value => some value
  | none => do
      let raw := trimText (← crates.asStr value).toList
      let normalized := raw.map fun c => if isAngleSeparator c then ' ' else c
      let words := (normalized.splitOnP isWhiteSpace).filter fun word => !word.isEmpty
      let components ← words.mapM parseF64
      match components with
      | first :: second :: rest =>
          if 1 < rest.length then none
          else
            let angle := first.abs + second.abs / 60 + (rest.head?.getD 0).abs / 3600
            if rightAscension then some (angle * 15)
            else some (angle * (if raw.head? = some '-' then -1 else 1))
      | _ => none

def fitsCenter (headers : ImageHeaders Value) : Option (Float × Float × List String) :=
  [("CRVAL1", "CRVAL2"), ("RA", "DEC"), ("OBJCTRA", "OBJCTDEC")].findSome? fun (raKey, decKey) =>
    do
      let ra ← (headers.lookup raKey).bind fun value => parseFitsAngle crates value true
      let dec ← (headers.lookup decKey).bind fun value => parseFitsAngle crates value false
      if inRange 0 360 ra && inRange (-90) 90 dec then some (ra, dec, [raKey, decKey]) else none

def positive (scale : Float) : Bool :=
  scale.isFinite && decide (0 < scale)

def fitsPixelScale (headers : ImageHeaders Value) : Option (Float × List String) :=
  let direct := ["PIXSCALE", "SECPIX"].findSome? fun key =>
    ((headerF64 crates headers key).filter positive).map fun scale => (scale, [key])
  let matrix := do
    let cd11 ← headerF64 crates headers "CD1_1"
    let cd22 ← headerF64 crates headers "CD2_2"
    let cd12 := (headerF64 crates headers "CD1_2").getD 0
    let cd21 := (headerF64 crates headers "CD2_1").getD 0
    let scale := (cd11 * cd22 - cd12 * cd21).abs.sqrt * 3600
    if positive scale then
      some (scale, ["CD1_1", "CD1_2", "CD2_1", "CD2_2"].filter
        fun key => (headers.lookup key).isSome)
    else none
  let increments := do
    let cdelt1 ← headerF64 crates headers "CDELT1"
    let cdelt2 ← headerF64 crates headers "CDELT2"
    let scale := (cdelt1 * cdelt2).abs.sqrt * 3600
    if positive scale then some (scale, ["CDELT1", "CDELT2"]) else none
  let optics := do
    let pixelSizeUm ← headerF64 crates headers "XPIXSZ"
    let focalLengthMm ← headerF64 crates headers "FOCALLEN"
    let scale := 206.264806247 * pixelSizeUm / focalLengthMm
    if positive scale then some (scale, ["XPIXSZ", "FOCALLEN"]) else none
  direct <|> matrix <|> increments <|> optics

/-! ## Preparation -/

def pushKeyword (keywords : List String) (keyword : String) : List String :=
  if keywords.contains keyword then keywords else keywords ++ [keyword]

/-- Microseconds as seconds. -/
def secondsOf (microseconds : Int64) : Float :=
  Float.ofModel (Float.Model.ofInt64 microseconds) / 1e6

/-- `x.round() as i64`: half away from zero. -/
def roundToInt64 (x : Float) : Int64 :=
  let whole := x.toModel.toInt64
  let rest := x - Float.ofModel (Float.Model.ofInt64 whole)
  -- From 2^52 on every double is whole.
  if !decide (x.abs < 4503599627370496) then whole
  else if 0.5 ≤ rest then whole + 1
  else if rest ≤ -0.5 then whole - 1
  else whole

def subtractSeconds (time : Time) (seconds : Float) : Option Time :=
  if !seconds.isFinite || decide (seconds ≤ 0) ||
      decide (Float.ofModel (Float.Model.ofInt64 Int64.maxValue) / 1e6 < seconds) then none
  else crates.checkedSubMicroseconds time (roundToInt64 (seconds * 1e6))

def satelliteMetadataPresent (options : SolveOptions Time) : Bool :=
  options.captureTime.isSome || options.exposureSeconds.isSome ||
    options.observerLatitudeDeg.isSome || options.observerLongitudeDeg.isSome ||
    options.observerAltitudeM.isSome || options.observerItrfM.isSome

def explicitObserver (options : SolveOptions Time) : Bool :=
  options.observerItrfM.isSome || options.observerLatitudeDeg.isSome ||
    options.observerLongitudeDeg.isSome

def headerDuration (headers : ImageHeaders Value) : Option (Float × String) :=
  ["XPOSURE", "EXPTIME", "EXPOSURE"].findSome? fun key =>
    ((headerF64 crates headers key).filter positive).map fun seconds => (seconds, key)

def headerTimeIsUsable (headers : ImageHeaders Value) : Bool :=
  (((headers.lookup "TIMESYS").bind crates.asStr).all fun value =>
    value.toList.map Char.toLower == "utc".toList) &&
  (((headers.lookup "TREFPOS").bind crates.asStr).all fun value =>
    "TOP".toList.isPrefixOf (value.toList.map Char.toUpper))

/-- The microseconds from `DATE-BEG` to `DATE-END`. -/
def headerInterval (headers : ImageHeaders Value) : Option Int64 := do
  let start ← fitsTime crates headers "DATE-BEG"
  let finish ← fitsTime crates headers "DATE-END"
  crates.numMicroseconds start finish

/-- The duration cards. -/
def prepareDuration (headers : ImageHeaders Value) (options : SolveOptions Time) :
    SolveOptions Time :=
  match options.exposureSeconds, headerDuration crates headers with
  | none, some (seconds, keyword) =>
      { options with
        exposureSeconds := some seconds
        satelliteMetadataKeywords := options.satelliteMetadataKeywords ++ [keyword] }
  | _, _ => options

/-- The duration from the two ends, beside an explicit time. -/
def prepareIntervalDuration (headers : ImageHeaders Value) (options : SolveOptions Time) :
    SolveOptions Time :=
  match options.captureTime, options.exposureSeconds,
      (headerInterval crates headers).filter fun microseconds => 0 < microseconds with
  | some _, none, some microseconds =>
      { options with
        exposureSeconds := some (secondsOf microseconds)
        satelliteMetadataKeywords :=
          options.satelliteMetadataKeywords ++ ["DATE-BEG", "DATE-END"] }
  | _, _, _ => options

/-- The start, the duration and the keywords that the header's dates resolve. -/
def resolvedInterval (headers : ImageHeaders Value) (duration : Option Float) :
    Option (Time × Float × List String) :=
  let dateBeg := fitsTime crates headers "DATE-BEG"
  let dateEnd := fitsTime crates headers "DATE-END"
  let dateAvg := fitsTime crates headers "DATE-AVG"
  let dateObs := fitsTime crates headers "DATE-OBS"
  match dateBeg, dateEnd with
  | some start, some finish =>
      let seconds := (crates.numMicroseconds start finish).map secondsOf
      (seconds.filter fun seconds => 0 < seconds).map fun seconds =>
        (start, seconds, ["DATE-BEG", "DATE-END"])
  | _, _ =>
      match dateAvg, duration with
      | some midpoint, some seconds =>
          (subtractSeconds crates midpoint (seconds / 2)).map fun start =>
            (start, seconds, ["DATE-AVG"])
      | _, _ =>
          match dateObs <|> dateBeg, duration with
          | some start, some seconds =>
              some (start, seconds, [if dateObs.isSome then "DATE-OBS" else "DATE-BEG"])
          | _, _ =>
              match dateEnd, duration with
              | some finish, some seconds =>
                  (subtractSeconds crates finish seconds).map fun start =>
                    (start, seconds, ["DATE-END"])
              | _, _ => none

/-- The time cards, where no time is explicit. -/
def prepareTime (headers : ImageHeaders Value) (options : SolveOptions Time) :
    SolveOptions Time :=
  if options.captureTime.isSome || !headerTimeIsUsable crates headers then options
  else
    match resolvedInterval crates headers options.exposureSeconds with
    | some (start, seconds, keywords) =>
        { options with
          captureTime := some start
          exposureSeconds := some seconds
          satelliteMetadataKeywords := keywords.foldl pushKeyword options.satelliteMetadataKeywords }
    | none =>
        match fitsTime crates headers "DATE-OBS" with
        | some captureTime =>
            { options with
              captureTime := some captureTime
              satelliteMetadataKeywords :=
                pushKeyword options.satelliteMetadataKeywords "DATE-OBS" }
        | none => options

/-- Where the header says the observer was. -/
inductive HeaderObserver where
  | itrf (position : Float × Float × Float)
  | geodetic (latitude longitude altitude : Float) (keywords : List String)

def headerObserver (headers : ImageHeaders Value) : Option HeaderObserver :=
  let itrf := do
    let x ← headerF64 crates headers "OBSGEO-X"
    let y ← headerF64 crates headers "OBSGEO-Y"
    let z ← headerF64 crates headers "OBSGEO-Z"
    return HeaderObserver.itrf (x, y, z)
  let geodetic := do
    let latitude ← headerF64 crates headers "OBSGEO-B"
    let longitude ← headerF64 crates headers "OBSGEO-L"
    let altitude ← headerF64 crates headers "OBSGEO-H"
    return HeaderObserver.geodetic latitude longitude altitude ["OBSGEO-B", "OBSGEO-L", "OBSGEO-H"]
  let site := do
    let latitude ← headerF64 crates headers "SITELAT"
    let longitude ← headerF64 crates headers "SITELONG"
    return HeaderObserver.geodetic latitude longitude ((headerF64 crates headers "SITEALT").getD 0)
      (["SITELAT", "SITELONG"] ++ if (headers.lookup "SITEALT").isSome then ["SITEALT"] else [])
  itrf <|> geodetic <|> site

def prepareObserver (headers : ImageHeaders Value) (options : SolveOptions Time) :
    SolveOptions Time :=
  if explicitObserver options then options
  else
    match headerObserver crates headers with
    | some (.itrf position) =>
        { options with
          observerItrfM := some position
          satelliteMetadataKeywords :=
            options.satelliteMetadataKeywords ++ ["OBSGEO-X", "OBSGEO-Y", "OBSGEO-Z"] }
    | some (.geodetic latitude longitude altitude keywords) =>
        { options with
          observerLatitudeDeg := some latitude
          observerLongitudeDeg := some longitude
          observerAltitudeM := some altitude
          satelliteMetadataKeywords := options.satelliteMetadataKeywords ++ keywords }
    | none => options

/-- The source of what the preparation found, if it found anything. -/
def setSatelliteSource (explicit : Bool) (source : SatelliteMetadataSource)
    (options : SolveOptions Time) : SolveOptions Time :=
  if options.satelliteMetadataKeywords.isEmpty then options
  else { options with satelliteMetadataSource := some (if explicit then .explicit else source) }

/-- Whether a time is explicit is asked before the duration cards, which leave it
as it is. -/
def prepareSatelliteMetadata (headers : ImageHeaders Value) (source : ImageHeaderSource)
    (explicit : Bool) (options : SolveOptions Time) : SolveOptions Time :=
  setSatelliteSource explicit source.satelliteSource
    (prepareObserver crates headers (prepareTime crates headers
      (prepareIntervalDuration crates headers (prepareDuration crates headers options))))

def exifTags (photo : PhotoMetadata) : List String :=
  match photo.captureTimeSource with
  | some .dateTimeOriginal =>
      if photo.subSecTimeOriginal.isSome then
        ["DateTimeOriginal", "SubSecTimeOriginal", "OffsetTimeOriginal"]
      else ["DateTimeOriginal", "OffsetTimeOriginal"]
  | some .gps | none => ["GPSDateStamp", "GPSTimeStamp"]

def prepareExifTime (photo : PhotoMetadata) (options : SolveOptions Time) : SolveOptions Time :=
  match options.captureTime, photo.captureTimeUtc.bind (parseCaptureTime crates) with
  | none, some time =>
      { options with
        captureTime := some time
        satelliteMetadataKeywords :=
          (exifTags photo).foldl pushKeyword options.satelliteMetadataKeywords }
  | _, _ => options

def prepareExifObserver (photo : PhotoMetadata) (options : SolveOptions Time) :
    SolveOptions Time :=
  if explicitObserver options then options
  else
    match photo.gpsLatitudeDeg, photo.gpsLongitudeDeg with
    | some latitude, some longitude =>
        { options with
          observerLatitudeDeg := some latitude
          observerLongitudeDeg := some longitude
          satelliteMetadataKeywords :=
            ["GPSLatitude", "GPSLatitudeRef", "GPSLongitude", "GPSLongitudeRef"].foldl pushKeyword
              options.satelliteMetadataKeywords }
    | _, _ => options

def prepareExifMetadata (photo : PhotoMetadata) (explicit : Bool) (options : SolveOptions Time) :
    SolveOptions Time :=
  setSatelliteSource explicit .exif (prepareExifObserver photo (prepareExifTime crates photo options))

/-- What the preparation resets first. -/
def resetProvenance (options : SolveOptions Time) : SolveOptions Time :=
  { options with
    hintKeywords := []
    satelliteMetadataKeywords := []
    satelliteMetadataSource :=
      if satelliteMetadataPresent options then some .explicit else none
    hintSource :=
      if options.centerRaDeg.isSome && options.centerDecDeg.isSome &&
        options.scaleArcsecPerPixel.isSome then some .explicit else none }

/-- The center and the scale, where none of them is explicit. -/
def prepareHint (headers : ImageHeaders Value) (source : ImageHeaderSource)
    (options : SolveOptions Time) : SolveOptions Time :=
  if options.centerRaDeg.isSome || options.centerDecDeg.isSome ||
      options.scaleArcsecPerPixel.isSome then options
  else
    match fitsCenter crates headers, fitsPixelScale crates headers with
    | some (ra, dec, centerKeywords), some (scale, scaleKeywords) =>
        if ra.isFinite && inRange 0 360 ra && dec.isFinite && inRange (-90) 90 dec &&
            scale.isFinite && decide (0 < scale) then
          { options with
            centerRaDeg := some ra
            centerDecDeg := some dec
            scaleArcsecPerPixel := some scale
            hintSource := some source.hintSource
            hintKeywords := centerKeywords ++ scaleKeywords }
        else options
    | _, _ => options

def prepareSolveOptionsFromPrefix (options : SolveOptions Time) (bytes : List UInt8)
    (filename : String) (fileSize : ℕ) : SolveOptions Time :=
  let explicit := satelliteMetadataPresent options
  let reset := resetProvenance options
  if !looksLikeFits bytes filename && !looksLikeXisf bytes filename then
    prepareExifMetadata crates (crates.photoMetadata bytes) explicit reset
  else
    match imageHeaders crates bytes filename fileSize with
    | none => reset
    | some (headers, source) =>
        prepareHint crates headers source
          (prepareSatelliteMetadata crates headers source explicit reset)

def prepareSolveOptions (options : SolveOptions Time) (bytes : List UInt8) (filename : String) :
    SolveOptions Time :=
  prepareSolveOptionsFromPrefix crates options bytes filename bytes.length

end SeizaServer.Solver
