import SeizaServer.KeyedLists
import SeizaServer.StoreSnapshot

/-!
# Parts of a concatenation

The `Upload-Concat` header of a final upload lists the locations of its partial
uploads, separated by blanks.
-/

namespace SeizaServer.ConcatParts

open Images

def isAsciiWhitespace (c : Char) : Bool :=
  c = ' ' || c.toNat = 0x09 || c.toNat = 0x0a || c.toNat = 0x0c || c.toNat = 0x0d

/-- `split_ascii_whitespace`. -/
def words (text : Text) : List Text :=
  (text.splitOnP isAsciiWhitespace).filter fun word => !word.isEmpty

/-- `strip_prefix`. -/
def stripPrefix (front text : Text) : Option Text :=
  if front.isPrefixOf text then some (text.drop front.length) else none

section Parsing

-- The path of an `http::Uri`, and `Uuid::parse_str`.
variable (uriPath : Text → Option Text) (parseStr : Text → Option JobId)

def partId (raw : Text) : Except String Text :=
  match uriPath raw with
  | none => .error "Upload-Concat contains an invalid upload URL"
  | some path =>
      match (stripPrefix "/api/v1/uploads/".toList path).filter fun id =>
          !id.isEmpty && !id.contains slash with
      | none => .error "Upload-Concat may only reference this server's uploads"
      | some id => .ok id

def addPart (ids : List Text) (raw : Text) : Except String (List Text) := do
  let id ← partId uriPath raw
  if (parseStr id).isNone || ids.contains id then
    .error "Upload-Concat contains an invalid or duplicate upload URL"
  else .ok (ids ++ [id])

def parseConcatPartIds (value : Text) : Except String (List Text) :=
  match stripPrefix "final;".toList value with
  | none => .error "invalid Upload-Concat header"
  | some rawParts => do
      let ids ← (words rawParts).foldlM (addPart uriPath parseStr) []
      if ids.isEmpty then .error "Upload-Concat must reference at least one partial upload"
      else .ok ids

/-- The URL of an upload of this server. -/
structure Locates (raw id : Text) : Prop where
  path : uriPath raw = some ("/api/v1/uploads/".toList ++ id)
  nonempty : id ≠ []
  plain : slash ∉ id
  parsed : (parseStr id).isSome

end Parsing

variable {uriPath : Text → Option Text} {parseStr : Text → Option JobId}

theorem stripPrefix_eq_some {front text rest : Text} :
    stripPrefix front text = some rest ↔ text = front ++ rest := by
  unfold stripPrefix
  constructor
  · intro hstrip
    split_ifs at hstrip with hfront
    cases hstrip
    obtain ⟨back, rfl⟩ := List.isPrefixOf_iff_prefix.mp hfront
    rw [List.drop_left]
  · rintro rfl
    rw [if_pos (List.isPrefixOf_iff_prefix.mpr (List.prefix_append front rest)), List.drop_left]

theorem partId_eq_ok {raw id : Text} :
    partId uriPath raw = .ok id ↔
      uriPath raw = some ("/api/v1/uploads/".toList ++ id) ∧ id ≠ [] ∧ slash ∉ id := by
  unfold partId
  cases uriPath raw with
  | none => simp
  | some path =>
      have hfilter : (stripPrefix "/api/v1/uploads/".toList path).filter (fun id =>
          !id.isEmpty && !id.contains slash) = some id ↔
          path = "/api/v1/uploads/".toList ++ id ∧ id ≠ [] ∧ slash ∉ id := by
        rw [Option.filter_eq_some_iff, stripPrefix_eq_some]
        simp
      rw [Option.some.injEq, ← hfilter]
      clear hfilter
      dsimp only
      split
      next hnone =>
        rw [hnone]
        simp
      next found hfound =>
        rw [hfound]
        simp

/-- A part is added if it locates an upload that is not listed yet. -/
theorem addPart_eq_ok {ids after : List Text} {raw : Text} :
    addPart uriPath parseStr ids raw = .ok after ↔
      ∃ id, Locates uriPath parseStr raw id ∧ id ∉ ids ∧ after = ids ++ [id] := by
  unfold addPart
  rw [KeyedLists.bind_eq_ok]
  constructor
  · rintro ⟨id, hid, hadd⟩
    rw [partId_eq_ok] at hid
    split_ifs at hadd with hrefused
    cases hadd
    simp only [Bool.or_eq_true, not_or, List.contains_iff_mem, Bool.not_eq_true] at hrefused
    refine ⟨id, ⟨hid.1, hid.2.1, hid.2.2, ?_⟩, hrefused.2, rfl⟩
    simpa using hrefused.1
  · rintro ⟨id, hlocates, hnew, rfl⟩
    refine ⟨id, partId_eq_ok.mpr ⟨hlocates.path, hlocates.nonempty, hlocates.plain⟩, ?_⟩
    rw [if_neg]
    simp [hnew, Option.isSome_iff_ne_none.mp hlocates.parsed]

/-- The parts are added one after the other, each of them once. -/
theorem foldlM_addPart {raws : List Text} {ids after : List Text}
    (hids : ids.Nodup) :
    raws.foldlM (addPart uriPath parseStr) ids = .ok after ↔
      ∃ added, List.Forall₂ (Locates uriPath parseStr) raws added ∧ after = ids ++ added ∧
        after.Nodup := by
  induction raws generalizing ids with
  | nil =>
      rw [List.foldlM_nil]
      constructor
      · intro hafter
        cases hafter
        exact ⟨[], .nil, (List.append_nil _).symm, hids⟩
      · rintro ⟨added, hadded, rfl, -⟩
        cases hadded
        rw [List.append_nil]
        rfl
  | cons raw raws ih =>
      rw [List.foldlM_cons, KeyedLists.bind_eq_ok]
      constructor
      · rintro ⟨middle, hmiddle, hafter⟩
        obtain ⟨id, hlocates, hnew, rfl⟩ := addPart_eq_ok.mp hmiddle
        have hmore : (ids ++ [id]).Nodup := by
          rw [List.nodup_append_comm, List.singleton_append, List.nodup_cons]
          exact ⟨hnew, hids⟩
        obtain ⟨added, hadded, rfl, hnodup⟩ := (ih hmore).mp hafter
        exact ⟨id :: added, .cons hlocates hadded, by simp, hnodup⟩
      · rintro ⟨added, hadded, rfl, hnodup⟩
        cases hadded with
        | cons hlocates hrest =>
            rename_i id added
            have hsplit : (ids ++ [id] ++ added).Nodup := by simpa using hnodup
            have hmore := (List.nodup_append.mp hsplit).1
            have hnew : id ∉ ids := by
              rw [List.nodup_append_comm, List.singleton_append, List.nodup_cons] at hmore
              exact hmore.1
            refine ⟨ids ++ [id], addPart_eq_ok.mpr ⟨id, hlocates, hnew, rfl⟩, ?_⟩
            exact (ih hmore).mpr ⟨added, hrest, by simp, hnodup⟩

/-! ## Headers -/

def location (id : JobId) : Text := "/api/v1/uploads/".toList ++ (uuidText id).toList

def writeConcat (ids : List JobId) : Text :=
  "final;".toList ++ [' '].intercalate (ids.map location)

theorem words_intercalate {texts : List Text}
    (hplain : ∀ text ∈ texts, text ≠ [] ∧ ∀ c ∈ text, isAsciiWhitespace c = false) :
    words ([' '].intercalate texts) = texts := by
  induction texts with
  | nil => rfl
  | cons text texts ih =>
      rw [List.forall_mem_cons] at hplain
      have hrest := ih hplain.2
      cases htexts : texts with
      | nil =>
          unfold words
          rw [List.intercalate_singleton, List.splitOnP_eq_singleton hplain.1.2,
            List.filter_cons_of_pos (by simpa using hplain.1.1), List.filter_nil]
      | cons second later =>
          rw [← htexts, List.intercalate_cons_of_ne_nil (by simp [htexts])]
          unfold words at hrest ⊢
          rw [List.append_assoc, List.singleton_append,
            List.splitOnP_append_cons_of_forall_mem hplain.1.2 ' ' (by decide),
            List.filter_cons_of_pos (by simpa using hplain.1.1), hrest]

theorem parseConcatPartIds_eq_ok {value : Text} {ids : List Text} :
    parseConcatPartIds uriPath parseStr value = .ok ids ↔
      ∃ rawParts, value = "final;".toList ++ rawParts ∧
        List.Forall₂ (Locates uriPath parseStr) (words rawParts) ids ∧ ids ≠ [] ∧ ids.Nodup := by
  have hlisted : ∀ rawParts after,
      (words rawParts).foldlM (addPart uriPath parseStr) [] = .ok after ↔
        List.Forall₂ (Locates uriPath parseStr) (words rawParts) after ∧ after.Nodup := by
    intro rawParts after
    rw [foldlM_addPart List.nodup_nil]
    simp only [List.nil_append]
    constructor
    · rintro ⟨added, hadded, rfl, hnodup⟩
      exact ⟨hadded, hnodup⟩
    · rintro ⟨hafter, hnodup⟩
      exact ⟨after, hafter, rfl, hnodup⟩
  unfold parseConcatPartIds
  constructor
  · intro hparsed
    split at hparsed
    next => cases hparsed
    next rawParts hraw =>
      rw [KeyedLists.bind_eq_ok] at hparsed
      obtain ⟨after, hafter, hparsed⟩ := hparsed
      split_ifs at hparsed with hnone
      cases hparsed
      have hids := (hlisted rawParts ids).mp hafter
      exact ⟨rawParts, stripPrefix_eq_some.mp hraw, hids.1, by simpa using hnone, hids.2⟩
  · rintro ⟨rawParts, hvalue, hlocated, hnonempty, hnodup⟩
    rw [stripPrefix_eq_some.mpr hvalue]
    dsimp only
    rw [KeyedLists.bind_eq_ok]
    refine ⟨ids, (hlisted rawParts ids).mpr ⟨hlocated, hnodup⟩, ?_⟩
    rw [if_neg (by simpa using hnonempty)]

theorem location_plain (id : JobId) :
    location id ≠ [] ∧ ∀ c ∈ location id, isAsciiWhitespace c = false := by
  constructor
  · exact List.append_ne_nil_of_left_ne_nil (by decide) _
  · intro c hmem
    unfold location at hmem
    cases List.mem_append.mp hmem with
    | inl hfront =>
        have hall : ("/api/v1/uploads/".toList.all fun c => !isAsciiWhitespace c) = true := by
          decide
        simpa using List.all_eq_true.mp hall c hfront
    | inr hid =>
        by_contra hwhite
        rw [Bool.not_eq_false] at hwhite
        have hdigits : ∀ digit < 16, isAsciiWhitespace (Nat.digitChar digit) = false := by
          decide +kernel
        refine notMem_uuidText ?_ ?_ id hid
        · intro digit hdigit hsame
          rw [← hsame, hdigits digit hdigit] at hwhite
          cases hwhite
        · rintro rfl
          exact absurd hwhite (by decide)

/-- The header is accepted exactly if it lists the locations of distinct uploads, and
one that is written from distinct uploads is read back. -/
theorem concat_parts :
    (∀ value ids, parseConcatPartIds uriPath parseStr value = .ok ids ↔
      ∃ rawParts, value = "final;".toList ++ rawParts ∧
        List.Forall₂ (Locates uriPath parseStr) (words rawParts) ids ∧ ids ≠ [] ∧ ids.Nodup) ∧
    ((∀ id, parseStr (uuidText id).toList = some id) →
      (∀ id, uriPath (location id) = some (location id)) →
      ∀ ids, ids ≠ [] → ids.Nodup →
        parseConcatPartIds uriPath parseStr (writeConcat ids) =
          .ok (ids.map fun id => (uuidText id).toList)) := by
  refine ⟨fun _ _ => parseConcatPartIds_eq_ok, ?_⟩
  intro hparse hpath ids hnonempty hnodup
  rw [parseConcatPartIds_eq_ok]
  refine ⟨[' '].intercalate (ids.map location), rfl, ?_, by simpa using hnonempty, ?_⟩
  · rw [words_intercalate, List.forall₂_map_left_iff, List.forall₂_map_right_iff,
      List.forall₂_same]
    · intro id _
      have hnonempty : (uuidText id).toList ≠ [] := by simp [uuidText]
      refine ⟨hpath id, hnonempty, notMem_uuidText (by decide) (by decide) id, ?_⟩
      rw [hparse]
      rfl
    · intro text hmem
      obtain ⟨id, -, rfl⟩ := List.mem_map.mp hmem
      exact location_plain id
  · apply hnodup.map
    intro first second hsame
    exact uuidText_injective (String.toList_injective hsame)

/-- Two parts, and one that is listed twice. -/
theorem concat_parts_sample :
    parseConcatPartIds some (fun id => Migration.parseHyphenated (String.ofList id))
        (writeConcat [1, 2]) = .ok [(uuidText 1).toList, (uuidText 2).toList] ∧
      parseConcatPartIds some (fun id => Migration.parseHyphenated (String.ofList id))
        (writeConcat [1, 1]) ≠ .ok [(uuidText 1).toList, (uuidText 1).toList] := by
  have hparts := @concat_parts some fun id => Migration.parseHyphenated (String.ofList id)
  constructor
  · apply hparts.2 _ (fun _ => rfl) [1, 2] (by decide) (by decide)
    intro id
    rw [String.ofList_toList]
    exact Migration.parseHyphenated_uuidText id
  · intro hparsed
    obtain ⟨_, -, -, -, hnodup⟩ := (hparts.1 _ _).mp hparsed
    simp at hnodup

end SeizaServer.ConcatParts
