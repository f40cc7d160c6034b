import Mathlib.Data.List.DropRight
import SeizaServer.JobModel

/-!
# Object keys and their paths

The keys under which uploads and contributed images are stored, the paths the
local object store gives them, and what its retention sweep protects.
-/

namespace SeizaServer.Images

abbrev Text := List Char

def slash : Char := '/'
def backslash : Char := Char.ofNat 92

/-- `trim_matches('/')`. -/
def trimSlashes (text : Text) : Text :=
  (text.dropWhile (· = slash)).rdropWhile (· = slash)

/-! ## Configuration -/

/-- `starts_with` of a prefix and a slash. -/
def isBelow (key prefixed : Text) : Bool :=
  (prefixed ++ [slash]).isPrefixOf key

def isSafeComponent (component : Text) : Bool :=
  !component.isEmpty && component ≠ ['.'] && component ≠ ['.', '.']

/-- The prefix checks of `from_env`, on trimmed values. -/
def prefixesValid (s3Prefix validationPrefix : Text) : Bool :=
  !validationPrefix.isEmpty && (validationPrefix.splitOn slash).all isSafeComponent &&
    !(s3Prefix == validationPrefix || (!s3Prefix.isEmpty && isBelow s3Prefix validationPrefix) ||
      (!s3Prefix.isEmpty && isBelow validationPrefix s3Prefix))

structure Prefixes where
  s3Prefix : Text
  validationPrefix : Text
  valid : prefixesValid s3Prefix validationPrefix = true

/-- `SEIZA_S3_PREFIX` and `SEIZA_VALIDATION_PREFIX`, if they are accepted. -/
def Prefixes.fromEnv (s3Prefix validationPrefix : Text) : Option Prefixes :=
  if hvalid : prefixesValid (trimSlashes s3Prefix) (trimSlashes validationPrefix) = true then
    some ⟨_, _, hvalid⟩
  else none

/-! ## Keys -/

def safeExtension (filename : Text) : Text :=
  let extension := String.ofList (((filename.splitOn '.').getLast?.getD []).map Char.toLower)
  if extension = "fit" || extension = "fits" || extension = "fts" then "fits".toList
  else if extension = "xisf" then "xisf".toList
  else if extension = "jpg" || extension = "jpeg" then "jpg".toList
  else if extension = "png" then "png".toList
  else if extension = "tif" || extension = "tiff" then "tiff".toList
  else if extension = "webp" then "webp".toList
  else "bin".toList

/-- The directory of a job. -/
def jobTag (id : JobId) : Text :=
  "public-".toList ++ (uuidText id).toList

def storedName (token : JobId) (filename : Text) : Text :=
  (uuidText token).toList ++ '.' :: safeExtension filename

def newObjectKey (s3Prefix : Text) (id token : JobId) (filename : Text) : Text :=
  let trimmed := trimSlashes s3Prefix
  if trimmed.isEmpty then jobTag id ++ slash :: storedName token filename
  else trimmed ++ slash :: (jobTag id ++ slash :: storedName token filename)

/-- The last component of the job's key under the directory of the job in the
validation set. -/
def validationObjectKey (validationPrefix : Text) (id : JobId) (objectKey : Text) : Text :=
  validationPrefix ++ slash :: (jobTag id ++ slash :: (objectKey.splitOn slash).getLast?.getD [])

/-! ## Paths -/

/-- Empty components and dots do not change a path. -/
def components (key : Text) : List Text :=
  (key.splitOn slash).filter fun component => !component.isEmpty && component ≠ ['.']

def pathFor (key : Text) : Option (List Text) :=
  if key.head? = some slash || (key.splitOn slash).contains ['.', '.'] then none
  else some (components key)

/-! ## Protection -/

def keyIsProtected (key : Text) (protectedPrefixes : List Text) : Bool :=
  protectedPrefixes.any fun protectedPrefix =>
    let trimmed := trimSlashes protectedPrefix
    !trimmed.isEmpty && (key == trimmed || isBelow key trimmed)

/-- The text of a path below the root, with slashes for backslashes. -/
def pathText (path : List Text) : Text :=
  ([slash].intercalate path).map fun c => if c = backslash then slash else c

def pathIsProtected (path : List Text) (protectedPrefixes : List Text) : Bool :=
  keyIsProtected (pathText path) protectedPrefixes

/-- The sweep comes to a file through directories that are not protected, and
deletes it if it is not protected either and not newer than the cutoff. -/
def sweeps (protectedPrefixes : List Text) (cutoff : ℤ) (path : List Text) (modified : ℤ) : Bool :=
  (path.inits.all fun front => front.isEmpty || !pathIsProtected front protectedPrefixes) &&
    decide (modified ≤ cutoff)

/-! ### Slashes in texts -/

theorem splitOn_slash (front back : Text) :
    (front ++ slash :: back).splitOn slash = front.splitOn slash ++ back.splitOn slash :=
  List.splitOn_append_cons_self ..

theorem splitOn_plain {text : Text} (hplain : slash ∉ text) : text.splitOn slash = [text] := by
  induction text with
  | nil => rfl
  | cons c text ih =>
      rw [List.mem_cons, not_or] at hplain
      rw [List.splitOn_cons_eq_if_modifyHead, ih hplain.2]
      have hne : (c == slash) = false := beq_eq_false_iff_ne.mpr (Ne.symm hplain.1)
      rw [hne]
      rfl


/-! ### The texts of job ids -/

theorem notMem_hexDigits {c : Char} (hc : ∀ digit < 16, Nat.digitChar digit ≠ c)
    (value count : ℕ) : c ∉ hexDigits value count := by
  induction count generalizing value with
  | zero => exact List.not_mem_nil
  | succ count ih =>
      unfold hexDigits
      rw [List.mem_append, not_or, List.mem_singleton]
      exact ⟨ih _, Ne.symm (hc _ (Nat.mod_lt _ (by norm_num)))⟩

theorem length_hexDigits (value count : ℕ) : (hexDigits value count).length = count := by
  induction count generalizing value with
  | zero => rfl
  | succ count ih =>
      unfold hexDigits
      rw [List.length_append, ih, List.length_singleton]

theorem hexDigits_injective {left right count : ℕ} (hleft : left < 16 ^ count)
    (hright : right < 16 ^ count) (hsame : hexDigits left count = hexDigits right count) :
    left = right := by
  induction count generalizing left right with
  | zero =>
      rw [pow_zero] at hleft hright
      omega
  | succ count ih =>
      have hdigit : ∀ a < 16, ∀ b < 16, Nat.digitChar a = Nat.digitChar b → a = b := by decide
      unfold hexDigits at hsame
      have hsplit := List.append_inj' hsame rfl
      have hhigh : left / 16 = right / 16 := by
        apply ih _ _ hsplit.1
        · rw [pow_succ] at hleft
          omega
        · rw [pow_succ] at hright
          omega
      have hlow : left % 16 = right % 16 :=
        hdigit _ (Nat.mod_lt _ (by norm_num)) _ (Nat.mod_lt _ (by norm_num))
          (List.cons.inj hsplit.2).1
      omega

theorem notMem_uuidText {c : Char} (hc : ∀ digit < 16, Nat.digitChar digit ≠ c)
    (hdash : c ≠ '-') (id : JobId) : c ∉ (uuidText id).toList := by
  have hdigits := notMem_hexDigits hc id.toNat 32
  have htake : ∀ count, c ∉ (hexDigits id.toNat 32).take count :=
    fun count hmem => hdigits (List.mem_of_mem_take hmem)
  have hdrop : ∀ count, c ∉ (hexDigits id.toNat 32).drop count :=
    fun count hmem => hdigits (List.mem_of_mem_drop hmem)
  have hslice : ∀ start count, c ∉ ((hexDigits id.toNat 32).drop start).take count :=
    fun start count hmem => hdrop start (List.mem_of_mem_take hmem)
  unfold uuidText
  rw [String.toList_ofList]
  simp only [List.mem_append, List.mem_cons, not_or]
  exact ⟨⟨⟨⟨htake 8, hdash, hslice 8 4⟩, hdash, hslice 12 4⟩, hdash, hslice 16 4⟩, hdash, hdrop 20⟩

/-- Without its dashes the text of a UUID is its digits. -/
theorem filter_uuidText (id : JobId) :
    (uuidText id).toList.filter (· ≠ '-') = hexDigits id.toNat 32 := by
  have hdigits := notMem_hexDigits (c := '-') (by decide) id.toNat 32
  have hlength := length_hexDigits id.toNat 32
  unfold uuidText
  generalize hexDigits id.toNat 32 = digits at hdigits hlength
  have hplain : ∀ part : Text, part ⊆ digits → part.filter (· ≠ '-') = part := by
    intro part hpart
    apply List.filter_eq_self.mpr
    intro c hmem
    have hne : c ≠ '-' := by
      intro heq
      exact hdigits (heq ▸ hpart hmem)
    exact decide_eq_true hne
  have htake : ∀ start count, ((digits.drop start).take count).filter (· ≠ '-') =
      (digits.drop start).take count :=
    fun start count => hplain _ fun c hmem => List.mem_of_mem_drop (List.mem_of_mem_take hmem)
  have hfirst := hplain (digits.take 8) (List.take_subset _ _)
  have hlast := hplain (digits.drop 20) (List.drop_subset _ _)
  have hskip : ∀ part : Text, ('-' :: part).filter (· ≠ '-') = part.filter (· ≠ '-') :=
    fun part => List.filter_cons_of_neg (by decide)
  rw [String.toList_ofList]
  simp only [List.filter_append, hskip, htake, hfirst, hlast]
  have hrest : ∀ start count, (digits.drop start).take count ++ digits.drop (start + count) =
      digits.drop start := by
    intro start count
    rw [← List.drop_drop, List.take_append_drop]
  rw [List.append_assoc, hrest 16 4, List.append_assoc, hrest 12 4, List.append_assoc, hrest 8 4,
    List.take_append_drop]

theorem uuidText_injective : Function.Injective uuidText := by
  intro left right hsame
  have hdigits : hexDigits left.toNat 32 = hexDigits right.toNat 32 := by
    rw [← filter_uuidText, hsame, filter_uuidText]
  have hbound : ∀ id : JobId, id.toNat < 16 ^ 32 := fun id => id.isLt
  exact BitVec.eq_of_toNat_eq (hexDigits_injective (hbound left) (hbound right) hdigits)

theorem jobTag_injective : Function.Injective jobTag := by
  intro left right hsame
  unfold jobTag at hsame
  exact uuidText_injective (String.toList_inj.mp (List.append_cancel_left hsame))

/-- Neither kind of slash is written into the part of a key that names a job. -/
theorem notMem_jobTag {c : Char} (hc : c = slash ∨ c = backslash) (id : JobId) :
    c ∉ jobTag id := by
  have hpublic : c ∉ "public-".toList := by
    cases hc with
    | inl hslash => subst hslash; decide
    | inr hback => subst hback; decide
  have hdigit : ∀ digit < 16, Nat.digitChar digit ≠ c := by
    cases hc with
    | inl hslash => subst hslash; decide
    | inr hback => subst hback; decide
  have hdash : c ≠ '-' := by
    cases hc with
    | inl hslash => subst hslash; decide
    | inr hback => subst hback; decide
  unfold jobTag
  rw [List.mem_append, not_or]
  exact ⟨hpublic, notMem_uuidText hdigit hdash id⟩

theorem notMem_storedName {c : Char} (hc : c = slash ∨ c = backslash) (token : JobId)
    (filename : Text) : c ∉ storedName token filename := by
  have hdigit : ∀ digit < 16, Nat.digitChar digit ≠ c := by
    cases hc with
    | inl hslash => subst hslash; decide
    | inr hback => subst hback; decide
  have hseparators : c ≠ '-' ∧ c ≠ '.' := by
    cases hc with
    | inl hslash => subst hslash; decide
    | inr hback => subst hback; decide
  have hextension : c ∉ safeExtension filename := by
    unfold safeExtension
    dsimp only
    cases hc with
    | inl hslash => subst hslash; split_ifs <;> decide
    | inr hback => subst hback; split_ifs <;> decide
  unfold storedName
  rw [List.mem_append, List.mem_cons, not_or, not_or]
  exact ⟨notMem_uuidText hdigit hseparators.1 token, hseparators.2, hextension⟩

/-! ### The paths of keys -/

namespace Prefixes

variable (c : Prefixes)

theorem safe_component {component : Text}
    (hmem : component ∈ c.validationPrefix.splitOn slash) : isSafeComponent component = true := by
  have hvalid := c.valid
  unfold prefixesValid at hvalid
  rw [Bool.and_eq_true, Bool.and_eq_true] at hvalid
  exact List.all_eq_true.mp hvalid.1.2 component hmem

theorem validationPrefix_ne_nil : c.validationPrefix ≠ [] := by
  have hvalid := c.valid
  unfold prefixesValid at hvalid
  rw [Bool.and_eq_true, Bool.and_eq_true] at hvalid
  intro hnil
  rw [hnil] at hvalid
  exact absurd hvalid.1.1 (by decide)

theorem nil_notMem_components : [] ∉ c.validationPrefix.splitOn slash :=
  fun hmem => absurd (c.safe_component hmem) (by decide)

theorem head_validationPrefix : c.validationPrefix.head? ≠ some slash := by
  intro hhead
  apply c.nil_notMem_components
  obtain ⟨rest, hrest⟩ := List.head?_eq_some_iff.mp hhead
  have hsplit : c.validationPrefix.splitOn slash = [[]] ++ rest.splitOn slash := by
    rw [hrest]
    exact splitOn_slash [] rest
  rw [hsplit]
  exact List.mem_append_left _ (List.mem_singleton.mpr rfl)

/-- An accepted prefix has no slash at either end. -/
theorem trimSlashes_validationPrefix : trimSlashes c.validationPrefix = c.validationPrefix := by
  have hfront : c.validationPrefix.dropWhile (· = slash) = c.validationPrefix := by
    apply List.dropWhile_eq_self_iff.mpr
    intro hlength hslash
    apply c.head_validationPrefix
    rw [List.head?_eq_getElem?, List.getElem?_eq_getElem hlength, of_decide_eq_true hslash]
  unfold trimSlashes
  rw [hfront]
  apply List.rdropWhile_eq_self_iff.mpr
  intro hne hslash
  apply c.nil_notMem_components
  have hlast : c.validationPrefix = c.validationPrefix.dropLast ++ [slash] := by
    rw [← of_decide_eq_true hslash, List.dropLast_append_getLast]
  have hsplit : c.validationPrefix.splitOn slash =
      c.validationPrefix.dropLast.splitOn slash ++ [[]] := by
    rw [hlast, splitOn_slash, List.dropLast_concat]
    rfl
  rw [hsplit]
  exact List.mem_append_right _ (List.mem_singleton.mpr rfl)

end Prefixes

theorem getLast_newObjectKey (s3Prefix : Text) (id token : JobId) (filename : Text) :
    ((newObjectKey s3Prefix id token filename).splitOn slash).getLast?.getD [] =
      storedName token filename := by
  have hname := splitOn_plain (notMem_storedName (Or.inl rfl) token filename)
  unfold newObjectKey
  dsimp only
  split_ifs
  · rw [splitOn_slash, hname, List.getLast?_concat]
    rfl
  · rw [splitOn_slash, splitOn_slash, hname, ← List.append_assoc, List.getLast?_concat]
    rfl

/-- A component with something else than dots in it is safe. -/
theorem safe_of_mem {name : Text} {c : Char} (hmem : c ∈ name) (hdot : c ≠ '.') :
    isSafeComponent name = true := by
  have hempty : name.isEmpty = false := by
    rw [List.isEmpty_eq_false_iff]
    exact List.ne_nil_of_mem hmem
  have hdots : ∀ count, name ≠ List.replicate count '.' := by
    intro count heq
    rw [heq] at hmem
    exact hdot (List.eq_of_mem_replicate hmem)
  have hone : name ≠ ['.'] := hdots 1
  have htwo : name ≠ ['.', '.'] := hdots 2
  unfold isSafeComponent
  rw [hempty, decide_eq_true hone, decide_eq_true htwo]
  rfl

theorem safe_jobTag (id : JobId) : isSafeComponent (jobTag id) = true := by
  have hmem : 'p' ∈ jobTag id := List.mem_append_left _ (by decide)
  exact safe_of_mem hmem (by decide)

theorem safe_storedName (token : JobId) (filename : Text) :
    isSafeComponent (storedName token filename) = true := by
  have hdash : '-' ∈ (uuidText token).toList := by
    unfold uuidText
    rw [String.toList_ofList]
    simp only [List.mem_append, List.mem_cons, true_or, or_true]
  exact safe_of_mem (List.mem_append_left _ hdash) (by decide)

theorem components_append (front back : Text) :
    components (front ++ slash :: back) = components front ++ components back := by
  unfold components
  rw [splitOn_slash, List.filter_append]

theorem components_plain {name : Text} (hplain : slash ∉ name)
    (hsafe : isSafeComponent name = true) : components name = [name] := by
  unfold isSafeComponent at hsafe
  rw [Bool.and_eq_true] at hsafe
  unfold components
  rw [splitOn_plain hplain, List.filter_singleton, hsafe.1]
  rfl

/-- The directory of the job and the name of the file are the end of a path. -/
theorem components_jobKey (front : Text) (id token : JobId) (filename : Text) :
    components (front ++ slash :: (jobTag id ++ slash :: storedName token filename)) =
      components front ++ [jobTag id, storedName token filename] := by
  rw [components_append, components_append,
    components_plain (notMem_jobTag (Or.inl rfl) id) (safe_jobTag id),
    components_plain (notMem_storedName (Or.inl rfl) token filename)
      (safe_storedName token filename)]
  rfl

/-- A path tells the job whose directory it ends in. -/
theorem jobTag_of_paths {front front' : List Text} {id id' : JobId} {name name' : Text}
    (hsame : front ++ [jobTag id, name] = front' ++ [jobTag id', name']) : id = id' := by
  have hlength : [jobTag id, name].length = [jobTag id', name'].length := by
    simp only [List.length_cons, List.length_nil]
  have htail := (List.append_inj' hsame hlength).2
  exact jobTag_injective (List.cons.inj htail).1

theorem components_newObjectKey (s3Prefix : Text) (id token : JobId) (filename : Text) :
    ∃ front, components (newObjectKey s3Prefix id token filename) =
      front ++ [jobTag id, storedName token filename] := by
  unfold newObjectKey
  dsimp only
  split_ifs
  · refine ⟨[], ?_⟩
    rw [components_append,
      components_plain (notMem_jobTag (Or.inl rfl) id) (safe_jobTag id),
      components_plain (notMem_storedName (Or.inl rfl) token filename)
        (safe_storedName token filename)]
    rfl
  · exact ⟨_, components_jobKey _ id token filename⟩

theorem pathFor_newObjectKey {s3Prefix : Text} {id token : JobId} {filename : Text}
    {path : List Text} (hpath : pathFor (newObjectKey s3Prefix id token filename) = some path) :
    ∃ front, path = front ++ [jobTag id, storedName token filename] := by
  unfold pathFor at hpath
  split_ifs at hpath
  obtain ⟨front, hfront⟩ := components_newObjectKey s3Prefix id token filename
  exact ⟨front, (Option.some.inj hpath).symm.trans hfront⟩

theorem head_trimSlashes (text : Text) : (trimSlashes text).head? ≠ some slash := by
  intro hhead
  have hprefix : trimSlashes text <+: text.dropWhile (· = slash) :=
    List.rdropWhile_prefix (· = slash) (l := text.dropWhile (· = slash))
  obtain ⟨back, hback⟩ := hprefix
  have hkept : (text.dropWhile (· = slash)).head? = some slash := by
    rw [← hback, List.head?_append, hhead]
    rfl
  have hstop := List.head?_dropWhile_not (· = slash) text
  rw [hkept] at hstop
  exact absurd hstop (by decide)

/-- A parent directory in the prefix is all that keeps uploads from being stored. -/
theorem pathFor_newObjectKey_eq_none_iff (s3Prefix : Text) (id token : JobId) (filename : Text) :
    pathFor (newObjectKey s3Prefix id token filename) = none ↔
      ['.', '.'] ∈ (trimSlashes s3Prefix).splitOn slash := by
  have hhead : (newObjectKey s3Prefix id token filename).head? ≠ some slash := by
    unfold newObjectKey
    dsimp only
    split_ifs with hempty
    · exact (by decide : some 'p' ≠ some slash)
    · rw [List.head?_append_of_ne_nil _ (fun hnil => hempty (List.isEmpty_iff.mpr hnil))]
      exact head_trimSlashes s3Prefix
  have hparent : ['.', '.'] ∈ (newObjectKey s3Prefix id token filename).splitOn slash ↔
      ['.', '.'] ∈ (trimSlashes s3Prefix).splitOn slash := by
    have htag : ['.', '.'] ≠ jobTag id := by
      intro heq
      exact absurd (heq ▸ safe_jobTag id) (by decide)
    have hname : ['.', '.'] ≠ storedName token filename := by
      intro heq
      exact absurd (heq ▸ safe_storedName token filename) (by decide)
    have hjob : ['.', '.'] ∉ (jobTag id ++ slash :: storedName token filename).splitOn slash := by
      rw [splitOn_slash, splitOn_plain (notMem_jobTag (Or.inl rfl) id),
        splitOn_plain (notMem_storedName (Or.inl rfl) token filename), List.singleton_append,
        List.mem_cons, List.mem_singleton, not_or]
      exact ⟨htag, hname⟩
    unfold newObjectKey
    dsimp only
    split_ifs with hempty
    · rw [List.isEmpty_iff.mp hempty]
      constructor
      · intro hmem
        exact absurd hmem hjob
      · intro hmem
        exact absurd hmem (by decide)
    · rw [splitOn_slash, List.mem_append]
      constructor
      · intro hmem
        exact hmem.resolve_right hjob
      · intro hmem
        exact Or.inl hmem
  unfold pathFor
  rw [← hparent, decide_eq_false hhead, Bool.false_or]
  rw [← List.contains_iff_mem]
  split_ifs with hcontains
  · exact ⟨fun _ => hcontains, fun _ => rfl⟩
  · constructor
    · intro hnone
      cases hnone
    · intro hmem
      exact absurd hmem hcontains

namespace Prefixes

variable (c : Prefixes)

theorem components_validationPrefix :
    components c.validationPrefix = c.validationPrefix.splitOn slash := by
  unfold components
  apply List.filter_eq_self.mpr
  intro component hmem
  have hsafe := c.safe_component hmem
  unfold isSafeComponent at hsafe
  rw [Bool.and_eq_true] at hsafe
  exact hsafe.1

/-- Where the image of a job is kept once it is contributed. -/
def validationPath (id token : JobId) (filename : Text) : List Text :=
  c.validationPrefix.splitOn slash ++ [jobTag id, storedName token filename]

theorem validationObjectKey_eq (id token : JobId) (filename : Text) :
    validationObjectKey c.validationPrefix id (newObjectKey c.s3Prefix id token filename) =
      c.validationPrefix ++ slash :: (jobTag id ++ slash :: storedName token filename) := by
  unfold validationObjectKey
  rw [getLast_newObjectKey]

theorem pathFor_validationObjectKey (id token : JobId) (filename : Text) :
    pathFor (validationObjectKey c.validationPrefix id
      (newObjectKey c.s3Prefix id token filename)) = some (c.validationPath id token filename) := by
  have hhead : (c.validationPrefix ++
      slash :: (jobTag id ++ slash :: storedName token filename)).head? ≠ some slash := by
    have hne := c.validationPrefix_ne_nil
    have hfirst := c.head_validationPrefix
    rw [List.head?_append_of_ne_nil _ hne]
    exact hfirst
  have hsafe : ∀ component ∈ c.validationPath id token filename,
      isSafeComponent component = true := by
    intro component hmem
    unfold validationPath at hmem
    rw [List.mem_append, List.mem_cons, List.mem_singleton] at hmem
    rcases hmem with hprefix | htag | hname
    · exact c.safe_component hprefix
    · rw [htag]
      exact safe_jobTag id
    · rw [hname]
      exact safe_storedName token filename
  have hparent : ((c.validationPrefix ++
      slash :: (jobTag id ++ slash :: storedName token filename)).splitOn slash).contains
        ['.', '.'] = false := by
    rw [splitOn_slash, splitOn_slash, splitOn_plain (notMem_jobTag (Or.inl rfl) id),
      splitOn_plain (notMem_storedName (Or.inl rfl) token filename)]
    rw [Bool.eq_false_iff]
    intro hcontains
    exact absurd (hsafe _ (List.contains_iff_mem.mp hcontains)) (by decide)
  have haccepts : ¬ ((decide ((c.validationPrefix ++
      slash :: (jobTag id ++ slash :: storedName token filename)).head? = some slash) || false) =
        true) := by
    rw [decide_eq_false hhead]
    decide
  rw [validationObjectKey_eq]
  unfold pathFor
  rw [hparent, if_neg haccepts, components_jobKey, components_validationPrefix]
  rfl

/-! ### What is protected -/

theorem keyIsProtected_iff (key : Text) :
    keyIsProtected key [c.validationPrefix] = true ↔
      key = c.validationPrefix ∨ (c.validationPrefix ++ [slash]) <+: key := by
  have hnonempty : (trimSlashes c.validationPrefix).isEmpty = false := by
    rw [c.trimSlashes_validationPrefix, List.isEmpty_eq_false_iff]
    exact c.validationPrefix_ne_nil
  unfold keyIsProtected isBelow
  rw [List.any_cons, List.any_nil, Bool.or_false]
  dsimp only
  rw [hnonempty, c.trimSlashes_validationPrefix, Bool.not_false, Bool.true_and, Bool.or_eq_true,
    beq_iff_eq, List.isPrefixOf_iff_prefix]

theorem backslash_notMem_pathText (path : List Text) : backslash ∉ pathText path := by
  intro hmem
  unfold pathText at hmem
  obtain ⟨c, -, hc⟩ := List.mem_map.mp hmem
  split_ifs at hc with hback
  · exact absurd hc (by decide)
  · exact hback hc

/-- No path is under a prefix that has a backslash. -/
theorem not_pathIsProtected (hback : backslash ∈ c.validationPrefix) (path : List Text) :
    pathIsProtected path [c.validationPrefix] = false := by
  rw [Bool.eq_false_iff]
  intro hprotected
  apply backslash_notMem_pathText path
  cases (c.keyIsProtected_iff _).mp hprotected with
  | inl heq => exact heq ▸ hback
  | inr hbelow => exact hbelow.subset (List.mem_append_left _ hback)

/-- Without a backslash in the prefix the contributed images are protected. -/
theorem validationPath_protected (hplain : backslash ∉ c.validationPrefix) (id token : JobId)
    (filename : Text) :
    pathIsProtected (c.validationPath id token filename) [c.validationPrefix] = true := by
  have htext : pathText (c.validationPath id token filename) =
      c.validationPrefix ++ slash :: (jobTag id ++ slash :: storedName token filename) := by
    have hjoined : [slash].intercalate (c.validationPath id token filename) =
        c.validationPrefix ++ slash :: (jobTag id ++ slash :: storedName token filename) := by
      have hpath : c.validationPath id token filename =
          (c.validationPrefix ++
            slash :: (jobTag id ++ slash :: storedName token filename)).splitOn slash := by
        rw [splitOn_slash, splitOn_slash, splitOn_plain (notMem_jobTag (Or.inl rfl) id),
          splitOn_plain (notMem_storedName (Or.inl rfl) token filename)]
        rfl
      rw [hpath, List.intercalate_splitOn]
    have hkeeps : ∀ d ∈ c.validationPrefix ++
        slash :: (jobTag id ++ slash :: storedName token filename),
        (if d = backslash then slash else d) = d := by
      intro d hmem
      apply if_neg
      intro heq
      subst heq
      rw [List.mem_append, List.mem_cons, List.mem_append, List.mem_cons] at hmem
      rcases hmem with hprefix | hslash | htag | hslash | hname
      · exact hplain hprefix
      · exact absurd hslash (by decide)
      · exact notMem_jobTag (Or.inr rfl) id htag
      · exact absurd hslash (by decide)
      · exact notMem_storedName (Or.inr rfl) token filename hname
    unfold pathText
    rw [hjoined]
    rw [List.map_congr_left hkeeps, List.map_id']
  unfold pathIsProtected
  rw [htext, c.keyIsProtected_iff]
  right
  exact ⟨jobTag id ++ slash :: storedName token filename, (List.append_cons ..).symm⟩

theorem not_sweeps (hplain : backslash ∉ c.validationPrefix) (id token : JobId)
    (filename : Text) (cutoff modified : ℤ) :
    sweeps [c.validationPrefix] cutoff (c.validationPath id token filename) modified = false := by
  have hprotected := c.validationPath_protected hplain id token filename
  rw [Bool.eq_false_iff]
  intro hsweeps
  unfold sweeps at hsweeps
  rw [Bool.and_eq_true, List.all_eq_true] at hsweeps
  have hself := hsweeps.1 (c.validationPath id token filename)
    ((List.mem_inits _ _).mpr (List.prefix_refl _))
  have hne : (c.validationPath id token filename).isEmpty = false := by
    rw [List.isEmpty_eq_false_iff]
    exact List.append_ne_nil_of_right_ne_nil _ (List.cons_ne_nil _ _)
  rw [hprotected, hne] at hself
  exact absurd hself (by decide)

/-- A prefix with a backslash leaves everything that is old enough to the sweep. -/
theorem sweeps_of_backslash (hback : backslash ∈ c.validationPrefix) (path : List Text)
    {cutoff modified : ℤ} (hold : modified ≤ cutoff) :
    sweeps [c.validationPrefix] cutoff path modified = true := by
  unfold sweeps
  rw [Bool.and_eq_true, List.all_eq_true]
  constructor
  · intro front _
    rw [c.not_pathIsProtected hback front]
    exact Bool.or_true _
  · exact decide_eq_true hold

end Prefixes

end SeizaServer.Images
