import SeizaServer.Base64Text
import SeizaServer.KeyedLists
import SeizaServer.ObjectKeys
import SeizaServer.RequestSource
import SeizaServer.SolveOptions

/-!
# Upload metadata

The `Upload-Metadata` header of a new upload: pairs of a key and a value in base64,
separated by commas.  The file name, the content type and the options of the upload
are taken from it.
-/

namespace SeizaServer.Metadata

open Solver

/-- `headers.get(name)` and `to_str`. -/
def headerText (headers : HeaderMap) (name : String) : Option (List Char) :=
  (headers.getAll name).head?.bind HeaderValue.toStr

/-- `String::from_utf8`. -/
def fromUtf8 (bytes : List UInt8) : Option String :=
  String.fromUTF8? ⟨bytes.toArray⟩

/-- `split_once(' ')`, the whole pair without a value if there is no space. -/
def splitOnce (pair : List Char) : List Char × List Char :=
  match pair.dropWhile fun c => c ≠ ' ' with
  | [] => (pair, [])
  | _ :: encoded => (pair.takeWhile fun c => c ≠ ' ', encoded)

def readPair (pair : List Char) : Except String (String × String) :=
  match Base64.decode (splitOnce pair).2 with
  | none => .error "invalid base64 Upload-Metadata value"
  | some bytes =>
      match fromUtf8 bytes with
      | none => .error "Upload-Metadata value is not UTF-8"
      | some value => .ok (String.ofList (splitOnce pair).1, value)

def pairs (raw : List Char) : List (List Char) :=
  ((raw.splitOn ',').map trim).filter fun pair => !pair.isEmpty

/-- The entries in order; later ones replace earlier ones of their key. -/
def parseUploadMetadata (headers : HeaderMap) : Except String (List (String × String)) :=
  match headerText headers "upload-metadata" with
  | none => .ok []
  | some raw => (pairs raw).mapM readPair

def get (metadata : List (String × String)) (key : String) : Option String :=
  ((metadata.filter fun entry => entry.1 = key).getLast?).map Prod.snd

def isSafeChar (c : Char) : Bool :=
  c.isAlphanum || c = '.' || c = '_' || c = '-'

def trimDots (text : List Char) : List Char :=
  (text.dropWhile (· == '.')).rdropWhile (· == '.')

def safeFilename (filename : String) : String :=
  let name := filename.toList.rtakeWhile fun c => c ≠ Images.slash && c ≠ Images.backslash
  let filename := trimDots ((name.filter isSafeChar).take 160)
  if filename.isEmpty then "upload" else String.ofList filename

def originalFilename (metadata : List (String × String)) : Except String String :=
  match ((get metadata "filename").map safeFilename).filter fun name => !name.isEmpty with
  | some filename => .ok filename
  | none => .error "Upload-Metadata must include filename"

def contentType (metadata : List (String × String)) : Option String :=
  (get metadata "filetype").filter fun value => !value.isEmpty && value.utf8ByteSize ≤ 255

def solveOptions {Time : Type} (fromStr : String → Except String (SolveOptions Time))
    (metadata : List (String × String)) : Except String (SolveOptions Time) :=
  match get metadata "options" with
  | none => .ok SolveOptions.default
  | some raw =>
      match fromStr raw with
      | .ok options => .ok options
      | .error error => .error s!"invalid options JSON: {error}"

/-- The file name, the content type and the options; `fromStr` reads their JSON. -/
def uploadMetadata {Time : Type} (fromStr : String → Except String (SolveOptions Time))
    (headers : HeaderMap) : Except String (String × Option String × SolveOptions Time) := do
  let metadata ← parseUploadMetadata headers
  let filename ← originalFilename metadata
  let options ← solveOptions fromStr metadata
  options.validate
  return (filename, contentType metadata, options)

/-! ## Pairs -/

def utf8 (text : String) : List UInt8 := text.toByteArray.data.toList

theorem fromUtf8_eq_some {bytes : List UInt8} {text : String} :
    fromUtf8 bytes = some text ↔ bytes = utf8 text := by
  unfold fromUtf8 utf8 String.fromUTF8?
  constructor
  · intro hread
    split_ifs at hread with hvalid
    cases hread
    rfl
  · rintro rfl
    rw [dif_pos text.isValidUTF8]
    rfl

/-- The pair is of this key and this value. -/
def Reads (pair : List Char) (entry : String × String) : Prop :=
  ' ' ∉ entry.1.toList ∧
    (pair = entry.1.toList ++ ' ' :: Base64.encode (utf8 entry.2) ∨
      pair = entry.1.toList ∧ entry.2 = "")

theorem splitOnce_plain {pair : List Char} (hplain : ' ' ∉ pair) : splitOnce pair = (pair, []) := by
  have hall : ∀ c ∈ pair, (decide (c ≠ ' ')) = true := by
    intro c hmem
    have hne : c ≠ ' ' := fun hc => hplain (hc ▸ hmem)
    simpa using hne
  unfold splitOnce
  rw [List.dropWhile_eq_nil_iff.mpr hall]

theorem splitOnce_append {key : List Char} (hplain : ' ' ∉ key) (encoded : List Char) :
    splitOnce (key ++ ' ' :: encoded) = (key, encoded) := by
  unfold splitOnce
  rw [KeyedLists.dropWhile_append_separator hplain, KeyedLists.takeWhile_append_separator hplain]

theorem splitOnce_cases (pair : List Char) :
    ' ' ∉ (splitOnce pair).1 ∧
      (pair = (splitOnce pair).1 ++ ' ' :: (splitOnce pair).2 ∨
        pair = (splitOnce pair).1 ∧ (splitOnce pair).2 = []) := by
  unfold splitOnce
  split
  next hdrop =>
    refine ⟨?_, .inr ⟨rfl, rfl⟩⟩
    intro hspace
    have hkept := List.dropWhile_eq_nil_iff.mp hdrop ' ' hspace
    simp at hkept
  next head encoded hdrop =>
    have hfirst := KeyedLists.eq_append_of_dropWhile hdrop
    exact ⟨hfirst.1, .inl hfirst.2⟩

theorem utf8_empty : utf8 "" = [] := by rfl

theorem utf8_injective {first second : String} (hsame : utf8 first = utf8 second) :
    first = second := by
  have hread := fromUtf8_eq_some.mpr hsame
  rw [fromUtf8_eq_some.mpr rfl] at hread
  exact Option.some.inj hread

theorem readPair_eq_ok {pair : List Char} {entry : String × String} :
    readPair pair = .ok entry ↔ Reads pair entry := by
  have hcases := splitOnce_cases pair
  constructor
  · intro hread
    unfold readPair at hread
    split at hread
    next => cases hread
    next bytes hbytes =>
      split at hread
      next => cases hread
      next value hvalue =>
        cases hread
        rw [fromUtf8_eq_some] at hvalue
        unfold Reads
        rw [String.toList_ofList]
        refine ⟨hcases.1, ?_⟩
        cases hcases.2 with
        | inl hpair =>
            left
            rw [← hvalue, ← Base64.decode_eq_some.mp hbytes]
            exact hpair
        | inr hpair =>
            right
            rw [hpair.2] at hbytes
            cases hbytes
            exact ⟨hpair.1, utf8_injective (hvalue.symm.trans utf8_empty.symm)⟩
  · rintro ⟨hplain, hpair⟩
    have hsplit : splitOnce pair = (entry.1.toList, Base64.encode (utf8 entry.2)) := by
      rcases hpair with rfl | ⟨rfl, hempty⟩
      · exact splitOnce_append hplain _
      · rw [splitOnce_plain hplain, hempty]
        rfl
    unfold readPair
    rw [hsplit, Base64.decode_encode]
    simp [fromUtf8_eq_some.mpr rfl]

/-! ## Headers -/

/-- Keys that a client may send. -/
structure IsKey (key : String) : Prop where
  nonempty : key ≠ ""
  plain : ∀ c ∈ key.toList, c ≠ ',' ∧ c.isWhitespace = false

def writePair (entry : String × String) : List Char :=
  entry.1.toList ++ ' ' :: Base64.encode (utf8 entry.2)

def writeMetadata (entries : List (String × String)) : List Char :=
  [','].intercalate (entries.map writePair)

theorem encode_plain {bytes : List UInt8} {c : Char} (hmem : c ∈ Base64.encode bytes) :
    c ≠ ',' ∧ c.isWhitespace = false := by
  have hall : (('=' :: Base64.alphabet).all fun c => decide
      (c ≠ ',' ∧ c.isWhitespace = false)) = true := by decide
  exact of_decide_eq_true (List.all_eq_true.mp hall c (Base64.mem_encode hmem))

theorem trim_writePair {entry : String × String} (hkey : IsKey entry.1) :
    Reads (trim (writePair entry)) entry ∧ trim (writePair entry) ≠ [] := by
  have hchars : entry.1.toList ≠ [] := by simpa using hkey.nonempty
  have hspace : ' ' ∉ entry.1.toList := by
    intro hmem
    exact absurd (hkey.plain ' ' hmem).2 (by decide)
  have hfront : (writePair entry).dropWhile Char.isWhitespace = writePair entry := by
    unfold writePair
    cases hkeyChars : entry.1.toList with
    | nil => exact absurd hkeyChars hchars
    | cons c rest =>
        have hc := (hkey.plain c (by simp [hkeyChars])).2
        exact List.dropWhile_cons_of_neg (by simp [hc])
  unfold trim
  rw [hfront]
  unfold writePair
  rcases List.eq_nil_or_concat (Base64.encode (utf8 entry.2)) with hempty | ⟨front, last, hlast⟩
  · have hbytes := Option.some.inj (Base64.decode_eq_some.mpr hempty.symm)
    have hvalue : entry.2 = "" := utf8_injective (hbytes.symm.trans utf8_empty.symm)
    have hself : entry.1.toList.rdropWhile Char.isWhitespace = entry.1.toList := by
      rw [List.rdropWhile_eq_self_iff]
      intro hne
      simp [(hkey.plain _ (List.getLast_mem hne)).2]
    rw [hempty, List.rdropWhile_concat_pos _ _ _ (by decide), hself]
    exact ⟨⟨hspace, .inr ⟨rfl, hvalue⟩⟩, hchars⟩
  · have hwhite : last.isWhitespace = false := by
      have hmem : last ∈ Base64.encode (utf8 entry.2) := by simp [hlast]
      exact (encode_plain hmem).2
    have hself : (entry.1.toList ++ ' ' :: Base64.encode (utf8 entry.2)).rdropWhile
        Char.isWhitespace = entry.1.toList ++ ' ' :: Base64.encode (utf8 entry.2) := by
      rw [List.rdropWhile_eq_self_iff]
      intro hne
      simp [hlast, hwhite]
    rw [hself]
    exact ⟨⟨hspace, .inl rfl⟩, by simp⟩

/-- The pairs of a written header are of the entries. -/
theorem reads_write {entries : List (String × String)} (hkeys : ∀ entry ∈ entries, IsKey entry.1) :
    List.Forall₂ Reads (pairs (writeMetadata entries)) entries := by
  have hpairs : pairs (writeMetadata entries) =
      entries.map fun entry => trim (writePair entry) := by
    cases hentries : entries with
    | nil => decide
    | cons first rest =>
        rw [← hentries]
        have hplain : ∀ pair ∈ entries.map writePair, ',' ∉ pair := by
          intro pair hpair hcomma
          obtain ⟨entry, hmem, rfl⟩ := List.mem_map.mp hpair
          unfold writePair at hcomma
          rw [List.mem_append, List.mem_cons] at hcomma
          rcases hcomma with hkey | hspace | hvalue
          · exact ((hkeys entry hmem).plain ',' hkey).1 rfl
          · exact absurd hspace (by decide)
          · exact (encode_plain hvalue).1 rfl
        unfold pairs writeMetadata
        rw [List.splitOn_intercalate ',' hplain (by simp [hentries]), List.map_map]
        apply List.filter_eq_self.mpr
        intro pair hpair
        obtain ⟨entry, hmem, rfl⟩ := List.mem_map.mp hpair
        simpa using (trim_writePair (hkeys entry hmem)).2
  rw [hpairs, List.forall₂_map_left_iff, List.forall₂_same]
  exact fun entry hmem => (trim_writePair (hkeys entry hmem)).1

theorem parseUploadMetadata_eq_ok {headers : HeaderMap} {raw : List Char}
    (hraw : headerText headers "upload-metadata" = some raw) {entries : List (String × String)} :
    parseUploadMetadata headers = .ok entries ↔ List.Forall₂ Reads (pairs raw) entries := by
  unfold parseUploadMetadata
  rw [hraw]
  constructor
  · intro hread
    exact (KeyedLists.mapM_of_eq_ok hread).imp fun _ _ => readPair_eq_ok.mp
  · intro hreads
    exact KeyedLists.mapM_eq_ok_of_forall₂ (hreads.imp fun _ _ => readPair_eq_ok.mpr)

/-! ## File names -/

/-- A name without directories that is not hidden. -/
structure IsSafe (name : String) : Prop where
  chars : ∀ c ∈ name.toList, isSafeChar c = true
  length : 0 < name.toList.length ∧ name.toList.length ≤ 160
  dots : name.toList.head? ≠ some '.' ∧ name.toList.getLast? ≠ some '.'

theorem trimDots_sublist (text : List Char) : (trimDots text).Sublist text :=
  ((List.rdropWhile_prefix _ _).sublist).trans (List.dropWhile_suffix _).sublist

theorem trimDots_ends (text : List Char) :
    (trimDots text).head? ≠ some '.' ∧ (trimDots text).getLast? ≠ some '.' := by
  unfold trimDots
  constructor
  · intro hhead
    obtain ⟨tail, htail⟩ := List.rdropWhile_prefix (· == '.') (text.dropWhile (· == '.'))
    have hfirst := List.head?_dropWhile_not (· == '.') text
    rw [← htail, List.head?_append, hhead] at hfirst
    simp at hfirst
  · intro hlast
    obtain ⟨hne, hdot⟩ := List.mem_getLast?_eq_getLast hlast
    have hkept := List.rdropWhile_last_not (· == '.') (text.dropWhile (· == '.')) hne
    rw [← hdot] at hkept
    simp at hkept

theorem isSafe_safeFilename (filename : String) : IsSafe (safeFilename filename) := by
  unfold safeFilename
  dsimp only
  generalize filename.toList.rtakeWhile (fun c => c ≠ Images.slash && c ≠ Images.backslash) =
    directoryless
  generalize hkept : directoryless.filter isSafeChar = kept
  have hsub := (trimDots_sublist (kept.take 160)).trans (List.take_sublist 160 kept)
  split_ifs with hempty
  · exact ⟨List.all_eq_true.mp (by decide), by decide, by decide⟩
  · constructor
    · intro c hmem
      rw [String.toList_ofList] at hmem
      have hchar := hsub.subset hmem
      rw [← hkept] at hchar
      exact (List.mem_filter.mp hchar).2
    · rw [String.toList_ofList]
      have hlength := (trimDots_sublist (kept.take 160)).length_le
      rw [List.length_take] at hlength
      rw [List.isEmpty_iff] at hempty
      exact ⟨List.length_pos_iff.mpr hempty, by omega⟩
    · rw [String.toList_ofList]
      exact trimDots_ends _

/-- A safe name is kept as it is. -/
theorem IsSafe.safeFilename_eq {name : String} (hsafe : IsSafe name) :
    safeFilename name = name := by
  have hdirectory : (name.toList.rtakeWhile fun c => c ≠ Images.slash && c ≠ Images.backslash) =
      name.toList := by
    rw [List.rtakeWhile_eq_self_iff]
    intro c hmem
    have hchar := hsafe.chars c hmem
    have hslash : c ≠ Images.slash := by
      rintro rfl
      exact absurd hchar (by decide)
    have hbackslash : c ≠ Images.backslash := by
      rintro rfl
      exact absurd hchar (by decide)
    simp [hslash, hbackslash]
  have hchars : name.toList.filter isSafeChar = name.toList := List.filter_eq_self.mpr hsafe.chars
  have htrim : trimDots name.toList = name.toList := by
    have hfront : name.toList.dropWhile (· == '.') = name.toList := by
      have hdots := hsafe.dots.1
      cases hname : name.toList with
      | nil => rfl
      | cons c rest =>
          rw [hname] at hdots
          exact List.dropWhile_cons_of_neg (by simpa using hdots)
    unfold trimDots
    rw [hfront, List.rdropWhile_eq_self_iff]
    intro hne hdot
    apply hsafe.dots.2
    rw [List.getLast?_eq_some_getLast hne]
    simpa using hdot
  unfold safeFilename
  dsimp only
  rw [hdirectory, hchars, List.take_of_length_le hsafe.length.2, htrim]
  have hne : name.toList.isEmpty = false := by
    rw [List.isEmpty_eq_false_iff]
    exact List.length_pos_iff.mp hsafe.length.1
  rw [hne]
  simp

/-! ## Uploads -/

theorem mapM_eq_error {α β ε : Type} {read : α → Except ε β} {rows : List α} {error : ε} :
    rows.mapM read = .error error ↔
      ∃ front row back, rows = front ++ row :: back ∧
        (∀ earlier ∈ front, ∃ value, read earlier = .ok value) ∧ read row = .error error := by
  induction rows with
  | nil => simp [pure, Except.pure]
  | cons first rest ih =>
      rw [List.mapM_cons]
      cases hfirst : read first with
      | error cause =>
          change Except.error cause = .error error ↔ _
          constructor
          · intro hcause
            cases hcause
            exact ⟨[], first, rest, rfl, by simp, hfirst⟩
          · rintro ⟨front, row, back, hrows, hfront, hrow⟩
            cases front with
            | nil =>
                cases hrows
                rw [hfirst] at hrow
                cases hrow
                rfl
            | cons head front =>
                cases hrows
                obtain ⟨value, hvalue⟩ := hfront _ List.mem_cons_self
                rw [hfirst] at hvalue
                cases hvalue
      | ok value =>
          have hbind : (Except.ok value >>= fun result => do
              let results ← rest.mapM read
              pure (result :: results)) = (.error error : Except ε (List β)) ↔
                rest.mapM read = .error error := by
            cases rest.mapM read with
            | ok results => simp [bind, Except.bind, pure, Except.pure]
            | error cause => simp [bind, Except.bind]
          rw [hbind, ih]
          constructor
          · rintro ⟨front, row, back, rfl, hfront, hrow⟩
            refine ⟨first :: front, row, back, rfl, ?_, hrow⟩
            intro earlier hmem
            cases List.mem_cons.mp hmem with
            | inl hhead => exact ⟨value, hhead ▸ hfirst⟩
            | inr htail => exact hfront earlier htail
          · rintro ⟨front, row, back, hrows, hfront, hrow⟩
            cases front with
            | nil =>
                cases hrows
                rw [hfirst] at hrow
                cases hrow
            | cons head front =>
                cases hrows
                exact ⟨front, row, back, rfl,
                  fun earlier hmem => hfront earlier (List.mem_cons_of_mem _ hmem), hrow⟩

theorem originalFilename_eq_ok {metadata : List (String × String)} {name : String} :
    originalFilename metadata = .ok name ↔
      ∃ filename, get metadata "filename" = some filename ∧ safeFilename filename = name := by
  have hnonempty : ∀ filename, (safeFilename filename).isEmpty = false := by
    intro filename
    have hlength := (isSafe_safeFilename filename).length.1
    have hne : safeFilename filename ≠ "" := by
      intro hempty
      simp [hempty] at hlength
    simpa using hne
  unfold originalFilename
  cases get metadata "filename" with
  | none => simp
  | some filename => simp [Option.filter, hnonempty]

/-- What an upload is created with. -/
structure Accepted {Time : Type} (entries : List (String × String)) (name : String)
    (filetype : Option String) (options : SolveOptions Time) : Prop where
  filename : ∃ filename, get entries "filename" = some filename ∧ safeFilename filename = name
  safe : IsSafe name ∧ safeFilename name = name
  filetype : ∀ value ∈ filetype, get entries "filetype" = some value ∧ value ≠ "" ∧
    value.utf8ByteSize ≤ 255
  valid : options.validate = .ok ()

theorem accepted_of_uploadMetadata {Time : Type}
    {fromStr : String → Except String (SolveOptions Time)} {headers : HeaderMap} {name : String}
    {filetype : Option String} {options : SolveOptions Time}
    (hupload : uploadMetadata fromStr headers = .ok (name, filetype, options)) :
    ∃ entries, parseUploadMetadata headers = .ok entries ∧
      Accepted entries name filetype options := by
  unfold uploadMetadata at hupload
  rw [KeyedLists.bind_eq_ok] at hupload
  obtain ⟨entries, hentries, hupload⟩ := hupload
  rw [KeyedLists.bind_eq_ok] at hupload
  obtain ⟨filename, hfilename, hupload⟩ := hupload
  rw [KeyedLists.bind_eq_ok] at hupload
  obtain ⟨parsed, hparsed, hupload⟩ := hupload
  rw [KeyedLists.bind_eq_ok] at hupload
  obtain ⟨⟨⟩, hvalid, hupload⟩ := hupload
  cases hupload
  refine ⟨entries, hentries, ?_⟩
  have hname := originalFilename_eq_ok.mp hfilename
  constructor
  · exact hname
  · obtain ⟨sent, -, rfl⟩ := hname
    have hsafe := isSafe_safeFilename sent
    exact ⟨hsafe, hsafe.safeFilename_eq⟩
  · intro value hvalue
    unfold contentType at hvalue
    rw [Option.mem_def, Option.filter_eq_some_iff] at hvalue
    simpa using hvalue
  · exact hvalid

/-- A header that a client writes is read back, what is read spells the header, the
first pair that is not read gives the error, and an upload that is created has a safe
name, a content type of admitted length and valid options. -/
theorem upload_metadata {Time : Type} (fromStr : String → Except String (SolveOptions Time))
    (headers : HeaderMap) :
    (∀ raw, headerText headers "upload-metadata" = some raw →
      (∀ entries, (∀ entry ∈ entries, IsKey entry.1) → raw = writeMetadata entries →
        parseUploadMetadata headers = .ok entries) ∧
      (∀ entries, parseUploadMetadata headers = .ok entries ↔
        List.Forall₂ Reads (pairs raw) entries) ∧
      ∀ message, parseUploadMetadata headers = .error message ↔
        ∃ front pair back, pairs raw = front ++ pair :: back ∧
          (∀ earlier ∈ front, ∃ entry, Reads earlier entry) ∧ readPair pair = .error message) ∧
    ∀ name filetype options, uploadMetadata fromStr headers = .ok (name, filetype, options) →
      ∃ entries, parseUploadMetadata headers = .ok entries ∧
        Accepted entries name filetype options := by
  constructor
  · intro raw hraw
    refine ⟨?_, fun _ => parseUploadMetadata_eq_ok hraw, ?_⟩
    · rintro entries hkeys rfl
      exact (parseUploadMetadata_eq_ok hraw).mpr (reads_write hkeys)
    · intro message
      unfold parseUploadMetadata
      rw [hraw]
      simp only [mapM_eq_error, readPair_eq_ok]
  · intro name filetype options hupload
    exact accepted_of_uploadMetadata hupload

def sampleText : List Char := "filename bTMxLmZpdHM=, note 4oiA,".toList

def sampleHeaders : HeaderMap :=
  [("upload-metadata", ⟨sampleText.map fun c => UInt8.ofNat c.toNat, by decide +kernel⟩)]

/-- A file name and a note that is not ASCII. -/
theorem upload_metadata_sample :
    parseUploadMetadata sampleHeaders = .ok [("filename", "m31.fits"), ("note", "∀")] ∧
      ∃ name options, uploadMetadata (fun _ => .ok (@SolveOptions.default ℤ)) sampleHeaders =
          .ok (name, none, options) ∧
        Accepted [("filename", "m31.fits"), ("note", "∀")] name none options := by
  have hmetadata := upload_metadata (fun _ => .ok (@SolveOptions.default ℤ)) sampleHeaders
  have hread := (hmetadata.1 sampleText (by decide +kernel)).2.1
  have hpairs : pairs sampleText = ["filename bTMxLmZpdHM=".toList, "note 4oiA".toList] := by
    decide +kernel
  have hparsed : parseUploadMetadata sampleHeaders =
      .ok [("filename", "m31.fits"), ("note", "∀")] := by
    rw [hread, hpairs]
    exact .cons ⟨by decide, .inl (by decide +kernel)⟩
      (.cons ⟨by decide, .inl (by decide +kernel)⟩ .nil)
  refine ⟨hparsed, ?_⟩
  have hupload : ∃ name options, uploadMetadata (fun _ => .ok (@SolveOptions.default ℤ))
      sampleHeaders = .ok (name, none, options) := by
    unfold uploadMetadata
    rw [hparsed]
    exact ⟨_, _, rfl⟩
  obtain ⟨name, options, hupload⟩ := hupload
  obtain ⟨entries, hentries, haccepted⟩ := hmetadata.2 name none options hupload
  cases hparsed.symm.trans hentries
  exact ⟨name, options, hupload, haccepted⟩

end SeizaServer.Metadata
