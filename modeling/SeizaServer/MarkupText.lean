import Mathlib.Data.List.Basic

/-!
# Text inside markup

Writing text and attribute values with the five predefined entities, and a
reader of markup: tags, quoted attributes, references and the nesting of the
elements.  Whatever the text is, the reader finds the elements that were
written and the text in them.
-/

namespace MarkupText

/-! ## Entities -/

def entity (c : Char) : List Char :=
  if c = '&' then "&amp;".toList
  else if c = '<' then "&lt;".toList
  else if c = '>' then "&gt;".toList
  else if c = '"' then "&quot;".toList
  else if c = '\'' then "&apos;".toList
  else [c]

def escape (text : List Char) : List Char :=
  text.flatMap entity

@[simp] theorem escape_nil : escape [] = [] := rfl

@[simp] theorem escape_cons (c : Char) (text : List Char) :
    escape (c :: text) = entity c ++ escape text := List.flatMap_cons

@[simp] theorem escape_append (first second : List Char) :
    escape (first ++ second) = escape first ++ escape second := List.flatMap_append

/-- The characters that are never text. -/
def IsMarkup (c : Char) : Prop :=
  c = '&' ∨ c = '<' ∨ c = '>' ∨ c = '"' ∨ c = '\''

theorem entity_of_not_isMarkup {c : Char} (hc : ¬ IsMarkup c) : entity c = [c] := by
  simp only [IsMarkup, not_or] at hc
  simp [entity, hc]

theorem escape_of_plain {text : List Char} (hplain : ∀ c ∈ text, ¬ IsMarkup c) :
    escape text = text := by
  induction text with
  | nil => rfl
  | cons c text ih =>
      rw [List.forall_mem_cons] at hplain
      rw [escape_cons, entity_of_not_isMarkup hplain.1, ih hplain.2, List.singleton_append]

/-! ## Characters -/

/-- The characters that a document of XML 1.0 may contain, written out or by a
reference. -/
def isChar (c : Char) : Bool :=
  c = '\t' || c = '\n' || c = '\r' ||
    (decide (32 ≤ c.toNat) && !(c.toNat = 0xFFFE || c.toNat = 0xFFFF))

def Admitted (text : List Char) : Prop :=
  text.all isChar = true

instance (text : List Char) : Decidable (Admitted text) :=
  inferInstanceAs (Decidable (_ = _))

@[simp] theorem admitted_nil : Admitted [] := rfl

@[simp] theorem admitted_cons {c : Char} {text : List Char} :
    Admitted (c :: text) ↔ isChar c = true ∧ Admitted text := by
  simp [Admitted]

@[simp] theorem admitted_append {first second : List Char} :
    Admitted (first ++ second) ↔ Admitted first ∧ Admitted second := by
  simp [Admitted]

theorem admitted_flatMap {α : Type} {write : α → List Char} {values : List α}
    (hwrite : ∀ x ∈ values, Admitted (write x)) : Admitted (values.flatMap write) := by
  induction values with
  | nil => rfl
  | cons value values ih =>
      rw [List.forall_mem_cons] at hwrite
      rw [List.flatMap_cons, admitted_append]
      exact ⟨hwrite.1, ih hwrite.2⟩

theorem admitted_entity {c : Char} (hc : isChar c = true) : Admitted (entity c) := by
  by_cases hmarkup : IsMarkup c
  · rcases hmarkup with rfl | rfl | rfl | rfl | rfl <;> decide
  · simp [entity_of_not_isMarkup hmarkup, hc]

theorem admitted_escape {text : List Char} (htext : Admitted text) : Admitted (escape text) :=
  admitted_flatMap fun c hc => admitted_entity (List.all_eq_true.mp htext c hc)

/-! ## The reader -/

inductive Token where
  | character (c : Char)
  | start (name : List Char) (attributes : List (List Char × List Char))
  | empty (name : List Char) (attributes : List (List Char × List Char))
  | stop (name : List Char)

/-- Where the reader stands: between tags, in a tag or in a reference. -/
inductive Mode where
  | content
  | reference (entity : List Char)
  | tagName (name : List Char)
  | stopName (name : List Char)
  | attributes (name : List Char) (read : List (List Char × List Char))
  | attributeName (name : List Char) (read : List (List Char × List Char)) (key : List Char)
  | equals (name : List Char) (read : List (List Char × List Char)) (key : List Char)
  | value (name : List Char) (read : List (List Char × List Char)) (key text : List Char)
      (quote : Char)
  | valueReference (name : List Char) (read : List (List Char × List Char)) (key text : List Char)
      (quote : Char) (entity : List Char)
  | closing (name : List Char) (read : List (List Char × List Char))

structure Reader where
  tokens : List Token
  /-- The elements not yet closed, the innermost first. -/
  opened : List (List Char)
  mode : Mode

def isNameChar (c : Char) : Bool :=
  c.isAlphanum || c = '-' || c = '_' || c = ':' || c = '.'

def isSpace (c : Char) : Bool :=
  c = ' ' || c = '\t' || c = '\n' || c = '\r'

def decode (name : List Char) : Option Char :=
  if name = "amp".toList then some '&'
  else if name = "lt".toList then some '<'
  else if name = "gt".toList then some '>'
  else if name = "quot".toList then some '"'
  else if name = "apos".toList then some '\''
  else none

namespace Reader

def enter (reader : Reader) (mode : Mode) : Reader :=
  { reader with mode }

/-- Back between tags, one token further. -/
def push (reader : Reader) (token : Token) : Reader :=
  { reader with tokens := reader.tokens ++ [token], mode := .content }

def openElement (reader : Reader) (name : List Char) (read : List (List Char × List Char)) : Reader :=
  { reader.push (.start name read) with opened := name :: reader.opened }

/-- An end tag has to name the innermost element. -/
def closeElement (reader : Reader) (name : List Char) : Option Reader :=
  match reader.opened with
  | innermost :: rest =>
      if innermost = name then some { reader.push (.stop name) with opened := rest } else none
  | [] => none

def step (reader : Reader) (c : Char) : Option Reader :=
  match reader.mode with
  | .content =>
      if c = '<' then some (reader.enter (.tagName []))
      else if c = '&' then some (reader.enter (.reference []))
      else some (reader.push (.character c))
  | .reference entity =>
      if c = ';' then (decode entity).map fun d => reader.push (.character d)
      else some (reader.enter (.reference (entity ++ [c])))
  | .tagName name =>
      if isNameChar c then some (reader.enter (.tagName (name ++ [c])))
      else if c = '/' then
        some (reader.enter (if name = [] then .stopName [] else .closing name []))
      else if name = [] then none
      else if c = '>' then some (reader.openElement name [])
      else if isSpace c then some (reader.enter (.attributes name []))
      else none
  | .stopName name =>
      if isNameChar c then some (reader.enter (.stopName (name ++ [c])))
      else if c = '>' then reader.closeElement name
      else none
  | .attributes name read =>
      if isSpace c then some reader
      else if c = '/' then some (reader.enter (.closing name read))
      else if c = '>' then some (reader.openElement name read)
      else if isNameChar c then some (reader.enter (.attributeName name read [c]))
      else none
  | .attributeName name read key =>
      if isNameChar c then some (reader.enter (.attributeName name read (key ++ [c])))
      else if c = '=' then some (reader.enter (.equals name read key))
      else none
  | .equals name read key =>
      if c = '"' || c = '\'' then some (reader.enter (.value name read key [] c)) else none
  | .value name read key text quote =>
      if c = quote then some (reader.enter (.attributes name (read ++ [(key, text)])))
      else if c = '<' then none
      else if c = '&' then some (reader.enter (.valueReference name read key text quote []))
      else some (reader.enter (.value name read key (text ++ [c]) quote))
  | .valueReference name read key text quote entity =>
      if c = ';' then
        (decode entity).map fun d => reader.enter (.value name read key (text ++ [d]) quote)
      else some (reader.enter (.valueReference name read key text quote (entity ++ [c])))
  | .closing name read => if c = '>' then some (reader.push (.empty name read)) else none

def run (reader : Reader) (text : List Char) : Option Reader :=
  text.foldlM step reader

end Reader

/-- The tokens of a text in which every element is closed. -/
def scan (text : List Char) : Option (List Token) :=
  match Reader.run ⟨[], [], .content⟩ text with
  | some ⟨tokens, [], .content⟩ => some tokens
  | _ => none

/-- A document with a character that XML does not admit is not read at all. -/
def read (text : List Char) : Option (List Token) :=
  if Admitted text then scan text else none

def Token.character? : Token → Option Char
  | .character c => some c
  | _ => none

/-- The text between the tags, its references replaced. -/
def unescape (text : List Char) : Option (List Char) :=
  (scan text).map (·.filterMap Token.character?)

/-! ## Elements without children -/

/-- An element with text, or one that closes itself. -/
structure Leaf where
  name : List Char
  attributes : List (List Char × List Char)
  body : Option (List Char)

/-- Names that can stand in a tag. -/
def IsName (name : List Char) : Prop :=
  name ≠ [] ∧ ∀ c ∈ name, isNameChar c = true

def isName (name : List Char) : Bool :=
  !name.isEmpty && name.all isNameChar

theorem isName_iff {name : List Char} : isName name = true ↔ IsName name := by
  simp [isName, IsName]

structure Leaf.Clean (leaf : Leaf) : Prop where
  name : IsName leaf.name
  keys : ∀ pair ∈ leaf.attributes, IsName pair.1
  values : ∀ pair ∈ leaf.attributes, Admitted pair.2
  text : ∀ text ∈ leaf.body, Admitted text

def writeAttribute (pair : List Char × List Char) : List Char :=
  ' ' :: (pair.1 ++ ("=\"".toList ++ (escape pair.2 ++ ['"'])))

def Leaf.write (leaf : Leaf) : List Char :=
  '<' :: (leaf.name ++ (leaf.attributes.flatMap writeAttribute ++
    match leaf.body with
    | none => " />".toList
    | some text => '>' :: (escape text ++ ("</".toList ++ (leaf.name ++ ['>'])))))

def Leaf.tokens (leaf : Leaf) : List Token :=
  match leaf.body with
  | none => [.empty leaf.name leaf.attributes]
  | some text =>
      .start leaf.name leaf.attributes :: (text.map .character ++ [.stop leaf.name])

/-- What remains of a tag without its values. -/
inductive Shape where
  | start (name : List Char) (keys : List (List Char))
  | empty (name : List Char) (keys : List (List Char))
  | stop (name : List Char)

def Token.shape : Token → Option Shape
  | .character _ => none
  | .start name attributes => some (.start name (attributes.map Prod.fst))
  | .empty name attributes => some (.empty name (attributes.map Prod.fst))
  | .stop name => some (.stop name)

/-- The elements of a text in their nesting, with the names of their attributes. -/
def structureOf (text : List Char) : Option (List Shape) :=
  (read text).map (·.filterMap Token.shape)

/-! ## Reading what was written -/

namespace Reader

variable {tokens : List Token} {opened : List (List Char)}

theorem run_append (reader : Reader) (first second : List Char) :
    reader.run (first ++ second) = (reader.run first).bind fun next => next.run second :=
  List.foldlM_append

theorem run_cons (reader : Reader) (c : Char) (text : List Char) :
    reader.run (c :: text) = (reader.step c).bind fun next => next.run text := by
  simp [run]

@[simp] theorem run_nil (reader : Reader) : reader.run [] = some reader := rfl

/-- Text is read as it was before it was written. -/
theorem run_escape (text rest : List Char) :
    run ⟨tokens, opened, .content⟩ (escape text ++ rest) =
      run ⟨tokens ++ text.map .character, opened, .content⟩ rest := by
  induction text generalizing tokens with
  | nil => simp
  | cons c text ih =>
      have hentity : run ⟨tokens, opened, .content⟩ (entity c) =
          some ⟨tokens ++ [.character c], opened, .content⟩ := by
        by_cases hc : IsMarkup c
        · rcases hc with rfl | rfl | rfl | rfl | rfl <;> rfl
        · rw [entity_of_not_isMarkup hc, run_cons]
          simp only [IsMarkup, not_or] at hc
          simp [step, hc, push]
      rw [escape_cons, List.append_assoc, run_append, hentity, Option.bind_some, ih, List.map_cons,
        List.append_assoc, List.singleton_append]

theorem run_tagName {name : List Char} (hname : ∀ c ∈ name, isNameChar c = true)
    (before rest : List Char) :
    run ⟨tokens, opened, .tagName before⟩ (name ++ rest) =
      run ⟨tokens, opened, .tagName (before ++ name)⟩ rest := by
  induction name generalizing before with
  | nil => simp
  | cons c name ih =>
      rw [List.forall_mem_cons] at hname
      rw [List.cons_append, run_cons, step]
      simp only [hname.1, if_true, enter, Option.bind_some]
      rw [ih hname.2, List.append_assoc, List.singleton_append]

theorem run_stopName {name : List Char} (hname : ∀ c ∈ name, isNameChar c = true)
    (before rest : List Char) :
    run ⟨tokens, opened, .stopName before⟩ (name ++ rest) =
      run ⟨tokens, opened, .stopName (before ++ name)⟩ rest := by
  induction name generalizing before with
  | nil => simp
  | cons c name ih =>
      rw [List.forall_mem_cons] at hname
      rw [List.cons_append, run_cons, step]
      simp only [hname.1, if_true, enter, Option.bind_some]
      rw [ih hname.2, List.append_assoc, List.singleton_append]

section Attributes

variable {name : List Char} {read : List (List Char × List Char)}

theorem run_attributeName {key : List Char} (hkey : ∀ c ∈ key, isNameChar c = true)
    (before rest : List Char) :
    run ⟨tokens, opened, .attributeName name read before⟩ (key ++ rest) =
      run ⟨tokens, opened, .attributeName name read (before ++ key)⟩ rest := by
  induction key generalizing before with
  | nil => simp
  | cons c key ih =>
      rw [List.forall_mem_cons] at hkey
      rw [List.cons_append, run_cons, step]
      simp only [hkey.1, if_true, enter, Option.bind_some]
      rw [ih hkey.2, List.append_assoc, List.singleton_append]

/-- A value is read as it was before it was written. -/
theorem run_value {key : List Char} (text before rest : List Char) :
    run ⟨tokens, opened, .value name read key before '"'⟩ (escape text ++ rest) =
      run ⟨tokens, opened, .value name read key (before ++ text) '"'⟩ rest := by
  induction text generalizing before with
  | nil => simp
  | cons c text ih =>
      have hentity : run ⟨tokens, opened, .value name read key before '"'⟩ (entity c) =
          some ⟨tokens, opened, .value name read key (before ++ [c]) '"'⟩ := by
        by_cases hc : IsMarkup c
        · rcases hc with rfl | rfl | rfl | rfl | rfl <;> rfl
        · rw [entity_of_not_isMarkup hc, run_cons]
          simp only [IsMarkup, not_or] at hc
          simp [step, hc, enter]
      rw [escape_cons, List.append_assoc, run_append, hentity, Option.bind_some, ih,
        List.append_assoc, List.singleton_append]

theorem isNameChar_ne {c d : Char} (hc : isNameChar c = true) (hd : isNameChar d = false) :
    c ≠ d := by
  rintro rfl
  rw [hc] at hd
  cases hd

theorem not_isSpace {c : Char} (hc : isNameChar c = true) : isSpace c = false := by
  have htab := isNameChar_ne hc (d := '\t') (by decide)
  have hspace := isNameChar_ne hc (d := ' ') (by decide)
  have hline := isNameChar_ne hc (d := '\n') (by decide)
  have hreturn := isNameChar_ne hc (d := '\r') (by decide)
  simp [isSpace, *]

theorem run_writeAttribute {pair : List Char × List Char} (hkey : IsName pair.1)
    (rest : List Char) :
    run ⟨tokens, opened, .attributes name read⟩ (writeAttribute pair ++ rest) =
      run ⟨tokens, opened, .attributes name (read ++ [pair])⟩ rest := by
  obtain ⟨key, text⟩ := pair
  cases key with
  | nil => exact absurd rfl hkey.1
  | cons c key =>
      have hnames : isNameChar c = true ∧ ∀ d ∈ key, isNameChar d = true :=
        List.forall_mem_cons.mp hkey.2
      have hslash := isNameChar_ne hnames.1 (d := '/') (by decide)
      have hangle := isNameChar_ne hnames.1 (d := '>') (by decide)
      have hspace : step ⟨tokens, opened, .attributes name read⟩ ' ' =
          some ⟨tokens, opened, .attributes name read⟩ := rfl
      have hfirst : step ⟨tokens, opened, .attributes name read⟩ c =
          some ⟨tokens, opened, .attributeName name read [c]⟩ := by
        simp [step, not_isSpace hnames.1, hslash, hangle, hnames.1, enter]
      have hopen : run ⟨tokens, opened, .attributeName name read (c :: key)⟩ "=\"".toList =
          some ⟨tokens, opened, .value name read (c :: key) [] '"'⟩ := rfl
      have hclose : step ⟨tokens, opened, .value name read (c :: key) text '"'⟩ '"' =
          some ⟨tokens, opened, .attributes name (read ++ [(c :: key, text)])⟩ := rfl
      unfold writeAttribute
      simp only [List.cons_append, List.append_assoc]
      rw [run_cons, hspace, Option.bind_some, run_cons, hfirst, Option.bind_some,
        run_attributeName hnames.2, List.singleton_append, run_append, hopen, Option.bind_some,
        run_value, List.nil_append, run_cons, hclose, Option.bind_some, List.nil_append]

theorem run_writeAttributes {pairs : List (List Char × List Char)}
    (hkeys : ∀ pair ∈ pairs, IsName pair.1) (rest : List Char) :
    run ⟨tokens, opened, .attributes name read⟩ (pairs.flatMap writeAttribute ++ rest) =
      run ⟨tokens, opened, .attributes name (read ++ pairs)⟩ rest := by
  induction pairs generalizing read with
  | nil => simp
  | cons pair pairs ih =>
      rw [List.forall_mem_cons] at hkeys
      rw [List.flatMap_cons, List.append_assoc, run_writeAttribute hkeys.1, ih hkeys.2,
        List.append_assoc, List.singleton_append]

/-- After a name the attributes begin with a space. -/
theorem run_space (hname : name ≠ []) (rest : List Char) :
    run ⟨tokens, opened, .tagName name⟩ (' ' :: rest) =
      run ⟨tokens, opened, .attributes name []⟩ (' ' :: rest) := by
  have hnameChar : isNameChar ' ' = false := by decide
  have hspace : isSpace ' ' = true := by decide
  simp [run_cons, step, hnameChar, hspace, hname, enter]

theorem run_attributes {pair : List Char × List Char} {pairs : List (List Char × List Char)}
    (hname : name ≠ []) (hkeys : ∀ other ∈ pair :: pairs, IsName other.1) (rest : List Char) :
    run ⟨tokens, opened, .tagName name⟩ ((pair :: pairs).flatMap writeAttribute ++ rest) =
      run ⟨tokens, opened, .attributes name (pair :: pairs)⟩ rest := by
  have hread : run ⟨tokens, opened, .attributes name []⟩
        ((pair :: pairs).flatMap writeAttribute ++ rest) =
      run ⟨tokens, opened, .attributes name ([] ++ pair :: pairs)⟩ rest :=
    run_writeAttributes hkeys rest
  rw [List.nil_append] at hread
  rw [← hread]
  exact run_space hname _

theorem run_start {pairs : List (List Char × List Char)} (hname : name ≠ [])
    (hkeys : ∀ pair ∈ pairs, IsName pair.1) (rest : List Char) :
    run ⟨tokens, opened, .tagName name⟩ (pairs.flatMap writeAttribute ++ '>' :: rest) =
      run ⟨tokens ++ [.start name pairs], name :: opened, .content⟩ rest := by
  have hangle : isNameChar '>' = false := by decide
  cases pairs with
  | nil => simp [run_cons, step, hangle, hname, openElement, push]
  | cons pair pairs =>
      rw [run_attributes hname hkeys, run_cons]
      simp [step, isSpace, openElement, push]

theorem run_empty {pairs : List (List Char × List Char)} (hname : name ≠ [])
    (hkeys : ∀ pair ∈ pairs, IsName pair.1) (rest : List Char) :
    run ⟨tokens, opened, .tagName name⟩ (pairs.flatMap writeAttribute ++ (" />".toList ++ rest)) =
      run ⟨tokens ++ [.empty name pairs], opened, .content⟩ rest := by
  have hclose : run ⟨tokens, opened, .attributes name pairs⟩ " />".toList =
      some ⟨tokens ++ [.empty name pairs], opened, .content⟩ := rfl
  have hspaced : run ⟨tokens, opened, .tagName name⟩
        (pairs.flatMap writeAttribute ++ (" />".toList ++ rest)) =
      run ⟨tokens, opened, .attributes name pairs⟩ (" />".toList ++ rest) := by
    cases pairs with
    | nil => exact run_space hname _
    | cons pair pairs => exact run_attributes hname hkeys _
  rw [hspaced, run_append, hclose, Option.bind_some]

end Attributes

theorem run_stop {name : List Char} (hname : ∀ c ∈ name, isNameChar c = true) (rest : List Char) :
    run ⟨tokens, name :: opened, .content⟩ ("</".toList ++ (name ++ '>' :: rest)) =
      run ⟨tokens ++ [.stop name], opened, .content⟩ rest := by
  have hbegin : run ⟨tokens, name :: opened, .content⟩ "</".toList =
      some ⟨tokens, name :: opened, .stopName []⟩ := rfl
  have hangle : isNameChar '>' = false := by decide
  rw [run_append, hbegin, Option.bind_some, run_stopName hname, run_cons]
  simp [step, hangle, closeElement, push]

theorem run_write {leaf : Leaf} (hclean : leaf.Clean) (rest : List Char) :
    run ⟨tokens, opened, .content⟩ (leaf.write ++ rest) =
      run ⟨tokens ++ leaf.tokens, opened, .content⟩ rest := by
  obtain ⟨hname, hkeys, _, _⟩ := hclean
  have hbegin : step ⟨tokens, opened, .content⟩ '<' = some ⟨tokens, opened, .tagName []⟩ := rfl
  cases hbody : leaf.body with
  | none =>
      simp only [Leaf.write, Leaf.tokens, hbody, List.cons_append, List.append_assoc]
      rw [run_cons, hbegin, Option.bind_some, run_tagName hname.2, List.nil_append,
        run_empty hname.1 hkeys]
  | some text =>
      simp only [Leaf.write, Leaf.tokens, hbody, List.cons_append, List.append_assoc]
      rw [run_cons, hbegin, Option.bind_some, run_tagName hname.2, List.nil_append,
        run_start hname.1 hkeys, run_escape, List.nil_append, run_stop hname.2]
      simp

theorem run_writes {leaves : List Leaf} (hclean : ∀ leaf ∈ leaves, leaf.Clean) :
    run ⟨tokens, opened, .content⟩ (leaves.flatMap Leaf.write) =
      some ⟨tokens ++ leaves.flatMap Leaf.tokens, opened, .content⟩ := by
  induction leaves generalizing tokens with
  | nil => simp
  | cons leaf leaves ih =>
      rw [List.forall_mem_cons] at hclean
      rw [List.flatMap_cons, run_write hclean.1, ih hclean.2, List.flatMap_cons, List.append_assoc]

end Reader

theorem isChar_of_isNameChar {c : Char} (hc : isNameChar c = true) : isChar c = true := by
  simp only [isNameChar, Bool.or_eq_true, decide_eq_true_eq] at hc
  rcases hc with (((hc | rfl) | rfl) | rfl) | rfl
  · have hbounds : 48 ≤ c.toNat ∧ c.toNat ≤ 122 := by
      change ((decide (65 ≤ c.val ∧ c.val ≤ 90) || (decide (97 ≤ c.val) && decide (c.val ≤ 122))) ||
        (decide (48 ≤ c.val) && decide (c.val ≤ 57))) = true at hc
      simp only [Bool.or_eq_true, Bool.and_eq_true, decide_eq_true_eq, UInt32.le_iff_toNat_le,
        UInt32.reduceToNat] at hc
      change 48 ≤ c.val.toNat ∧ c.val.toNat ≤ 122
      omega
    have hspace : 32 ≤ c.toNat := by omega
    have hnonchar : c.toNat ≠ 0xFFFE := by omega
    have hlast : c.toNat ≠ 0xFFFF := by omega
    simp [isChar, hspace, hnonchar, hlast]
  all_goals decide

theorem IsName.admitted {name : List Char} (hname : IsName name) : Admitted name :=
  List.all_eq_true.mpr fun c hc => isChar_of_isNameChar (hname.2 c hc)

/-- What stands around names and values. -/
theorem isChar_delimiters : isChar ' ' = true ∧ isChar '=' = true ∧ isChar '"' = true ∧
    isChar '/' = true ∧ isChar '<' = true ∧ isChar '>' = true := by
  decide

theorem admitted_writeAttribute {pair : List Char × List Char} (hkey : IsName pair.1)
    (hvalue : Admitted pair.2) : Admitted (writeAttribute pair) := by
  simp [writeAttribute, hkey.admitted, isChar_delimiters, admitted_escape hvalue]

theorem Leaf.Clean.admitted {leaf : Leaf} (hclean : leaf.Clean) : Admitted leaf.write := by
  have hattributes : Admitted (leaf.attributes.flatMap writeAttribute) :=
    admitted_flatMap fun pair hpair =>
      admitted_writeAttribute (hclean.keys pair hpair) (hclean.values pair hpair)
  unfold Leaf.write
  cases hbody : leaf.body with
  | none => simp [isChar_delimiters, hclean.name.admitted, hattributes]
  | some text =>
      simp [isChar_delimiters, hclean.name.admitted, hattributes,
        admitted_escape (hclean.text text hbody)]

/-- The reader finds exactly the elements that were written. -/
theorem read_writes {leaves : List Leaf} (hclean : ∀ leaf ∈ leaves, leaf.Clean) :
    read (leaves.flatMap Leaf.write) = some (leaves.flatMap Leaf.tokens) := by
  have hadmitted : Admitted (leaves.flatMap Leaf.write) :=
    admitted_flatMap fun leaf hleaf => (hclean leaf hleaf).admitted
  simp [read, hadmitted, scan, Reader.run_writes hclean]

theorem scan_escape (text : List Char) : scan (escape text) = some (text.map .character) := by
  have hrun : Reader.run ⟨[], [], .content⟩ (escape text ++ []) =
      Reader.run ⟨[] ++ text.map .character, [], .content⟩ [] := Reader.run_escape text []
  rw [List.append_nil, Reader.run_nil, List.nil_append] at hrun
  simp [scan, hrun]

theorem unescape_escape (text : List Char) : unescape (escape text) = some text := by
  simp [unescape, scan_escape, Token.character?, List.filterMap_map, Function.comp_def]

theorem escape_injective : Function.Injective escape := by
  intro first second heq
  have hread := congrArg unescape heq
  rwa [unescape_escape, unescape_escape, Option.some.injEq] at hread

/-- A leaf without its values and its text. -/
def Leaf.outline (leaf : Leaf) : List Char × List (List Char) × Bool :=
  (leaf.name, leaf.attributes.map Prod.fst, leaf.body.isSome)

theorem Leaf.shapes_of_outline {first second : Leaf} (houtline : first.outline = second.outline) :
    first.tokens.filterMap Token.shape = second.tokens.filterMap Token.shape := by
  obtain ⟨name, attributes, body⟩ := first
  obtain ⟨other, others, text⟩ := second
  simp only [outline, Prod.mk.injEq] at houtline
  obtain ⟨rfl, hkeys, hbody⟩ := houtline
  cases body with
  | none =>
      cases text with
      | none => simp [tokens, Token.shape, hkeys]
      | some text => simp at hbody
  | some body =>
      cases text with
      | none => simp at hbody
      | some text =>
          simp [tokens, Token.shape, hkeys, List.filterMap_append,
            List.filterMap_map, Function.comp_def]

/-- Elements that differ in values and text alone have one structure. -/
theorem structureOf_writes {first second : List Leaf} (hclean : ∀ leaf ∈ first, leaf.Clean)
    (hother : ∀ leaf ∈ second, leaf.Clean)
    (houtline : first.map Leaf.outline = second.map Leaf.outline) :
    structureOf (first.flatMap Leaf.write) = structureOf (second.flatMap Leaf.write) := by
  have hshapes : (first.flatMap Leaf.tokens).filterMap Token.shape =
      (second.flatMap Leaf.tokens).filterMap Token.shape := by
    clear hclean hother
    induction first generalizing second with
    | nil =>
        cases second with
        | nil => rfl
        | cons leaf second => simp at houtline
    | cons leaf first ih =>
        cases second with
        | nil => simp at houtline
        | cons other second =>
            rw [List.map_cons, List.map_cons, List.cons.injEq] at houtline
            simp only [List.flatMap_cons, List.filterMap_append]
            rw [Leaf.shapes_of_outline houtline.1, ih houtline.2]
  rw [structureOf, structureOf, read_writes hclean, read_writes hother, Option.map_some,
    Option.map_some, hshapes]

end MarkupText

