import EtlOrchestrator.Foundations.JsonStrings

/-!
# JSON texts

A JSON value is written on one line or indented by its depth, as `json.dumps` writes it. What the
numbers look like is left open. The reader skips blanks, and reading a written value gives the
value back in both layouts (`read_write`).
-/

set_option autoImplicit false

namespace Json

/-- A JSON value, with the members of an object in their order. -/
inductive Value (ν : Type) where
  | null
  | bool (value : Bool)
  | number (value : ν)
  | string (value : String)
  | array (items : List (Value ν))
  | object (members : List (String × Value ν))

/-! ## Characters -/

/-- A blank between two tokens. -/
def isBlank (char : Char) : Bool := char = ' ' || char = '\n' || char = '\t' || char = '\r'

/-- A character of a number or of a literal. -/
def isPlain (char : Char) : Bool :=
  48 ≤ char.toNat ∧ char.toNat ≤ 57 ∨ 65 ≤ char.toNat ∧ char.toNat ≤ 90 ∨
    97 ≤ char.toNat ∧ char.toNat ≤ 122 ∨ char = '-' ∨ char = '+' ∨ char = '.'

/-- The first character of a value. -/
def startsValue (char : Char) : Bool := isPlain char || char = '"' || char = '[' || char = '{'

/-- What starts a value is no blank, and closes nothing. -/
theorem startsValue_spec {char : Char} (starts : startsValue char = true) :
    isBlank char = false ∧ char ≠ ']' ∧ char ≠ '}' := by
  refine ⟨?_, ?_, ?_⟩
  · rw [Bool.eq_false_iff]
    intro blank
    simp only [isBlank, Bool.or_eq_true, decide_eq_true_eq] at blank
    rcases blank with ((rfl | rfl) | rfl) | rfl <;> exact absurd starts (by decide)
  · rintro rfl
    exact absurd starts (by decide)
  · rintro rfl
    exact absurd starts (by decide)

/-- The texts of the numbers. -/
structure Numerals (ν : Type) where
  text : ν → List Char
  value : List Char → Option ν
  value_text : ∀ number, value (text number) = some number
  nonempty : ∀ number, text number ≠ []
  plain : ∀ number, ∀ char ∈ text number, isPlain char = true
  notLiteral : ∀ number, text number ∉ ["null".toList, "true".toList, "false".toList]

/-! ## Writing -/

/-- Everything on one line, or each item on a line of its own with an indentation. -/
structure Layout where
  indent : Option ℕ := none

/-- What stands between the bracket and the first item. -/
def Layout.newline (layout : Layout) (level : ℕ) : List Char :=
  match layout.indent with
  | none => []
  | some width => '\n' :: List.replicate (width * level) ' '

/-- What stands between two items. -/
def Layout.separator (layout : Layout) (level : ℕ) : List Char :=
  match layout.indent with
  | none => [',', ' ']
  | some _ => ',' :: layout.newline level

/-- Items in brackets. -/
def enclose (layout : Layout) (level : ℕ) (opening closing : Char) : List (List Char) → List Char
  | [] => [opening, closing]
  | first :: rest =>
      opening :: (layout.newline (level + 1) ++ (first ++
        (rest.flatMap (layout.separator (level + 1) ++ ·) ++ (layout.newline level ++ [closing]))))

section Writing

variable {ν : Type} (numerals : Numerals ν) (layout : Layout)

mutual

/-- The text of a value. -/
def writeValue (level : ℕ) : Value ν → List Char
  | .null => "null".toList
  | .bool true => "true".toList
  | .bool false => "false".toList
  | .number value => numerals.text value
  | .string value => JsonStrings.quoted value
  | .array items => enclose layout level '[' ']' (writeItems (level + 1) items)
  | .object members => enclose layout level '{' '}' (writeMembers (level + 1) members)

/-- The texts of the items of an array. -/
def writeItems (level : ℕ) : List (Value ν) → List (List Char)
  | [] => []
  | item :: rest => writeValue level item :: writeItems level rest

/-- The texts of the members of an object. -/
def writeMembers (level : ℕ) : List (String × Value ν) → List (List Char)
  | [] => []
  | (key, value) :: rest =>
      (JsonStrings.quoted key ++ (':' :: ' ' :: writeValue level value)) :: writeMembers level rest

end

/-- `json.dumps(value)`. -/
def write (value : Value ν) : String := String.ofList (writeValue numerals layout 0 value)

end Writing

/-! ## Reading -/

/-- What a reader has read, and what comes after. -/
abbrev Reader (α : Type) := List Char → Option (α × List Char)

/-- The rest of a text behind its blanks. -/
def skipBlanks (text : List Char) : List Char := text.dropWhile isBlank

/-- Read a string behind its opening quote. -/
def readString : Reader String := fun text => do
  let (units, rest) ← JsonStrings.scan text
  let chars ← JsonStrings.ofCodeUnits units
  return (String.ofList chars, rest)

section Reading

variable {α : Type} (element : Reader α) (closing : Char)

/-- Read the items behind the first one, with a bound on their number. -/
def readRest : ℕ → Reader (List α)
  | 0, _ => none
  | bound + 1, text =>
      match skipBlanks text with
      | [] => none
      | char :: rest =>
          if char = closing then some ([], rest)
          else if char = ',' then do
            let (item, rest) ← element (skipBlanks rest)
            let (items, rest) ← readRest bound rest
            return (item :: items, rest)
          else none

/-- Read the items behind an opening bracket. -/
def readMany (text : List Char) : Option (List α × List Char) :=
  match skipBlanks text with
  | [] => none
  | char :: rest =>
      if char = closing then some ([], rest)
      else do
        let (item, rest) ← element (char :: rest)
        let (items, rest) ← readRest element closing (rest.length + 1) rest
        return (item :: items, rest)

/-- Read a member of an object. -/
def readMember : Reader (String × α)
  | '"' :: text => do
      let (key, rest) ← readString text
      match skipBlanks rest with
      | ':' :: rest =>
          let (value, rest) ← element (skipBlanks rest)
          return ((key, value), rest)
      | _ => none
  | _ => none

end Reading

section Values

variable {ν : Type} (numerals : Numerals ν)

/-- The value of a number or of a literal. -/
def ofToken (token : List Char) : Option (Value ν) :=
  if token = "null".toList then some .null
  else if token = "true".toList then some (.bool true)
  else if token = "false".toList then some (.bool false)
  else (numerals.value token).map .number

/-- Read a value, with a bound on its depth. -/
def readValue : ℕ → Reader (Value ν)
  | 0, _ => none
  | depth + 1, text =>
      match text with
      | [] => none
      | char :: rest =>
          if char = '"' then (readString rest).map (Prod.map .string id)
          else if char = '[' then (readMany (readValue depth) ']' rest).map (Prod.map .array id)
          else if char = '{' then
            (readMany (readMember (readValue depth)) '}' rest).map (Prod.map .object id)
          else (ofToken numerals (text.takeWhile isPlain)).map fun value =>
            (value, text.dropWhile isPlain)

/-- `json.loads(text)`. -/
def read (text : String) : Option (Value ν) :=
  match readValue numerals (text.length + 1) (skipBlanks text.toList) with
  | some (value, rest) => if skipBlanks rest = [] then some value else none
  | none => none

end Values

/-! ## Reading what was written -/

/-- No number or literal goes on here. -/
def Ends (rest : List Char) : Prop := ∀ char ∈ rest.head?, isPlain char = false

theorem skipBlanks_of_not_blank {char : Char} (visible : isBlank char = false) (rest : List Char) :
    skipBlanks (char :: rest) = char :: rest :=
  List.dropWhile_cons_of_neg (by simp [visible])

theorem skipBlanks_newline (layout : Layout) (level : ℕ) (rest : List Char) :
    skipBlanks (layout.newline level ++ rest) = skipBlanks rest := by
  rw [Layout.newline]
  cases layout.indent with
  | none => rfl
  | some width =>
      refine List.dropWhile_append_of_pos fun char member => ?_
      rcases List.mem_cons.mp member with rfl | space
      · decide
      · rw [(List.mem_replicate.mp space).2]
        decide

/-- A separator is a comma and blanks. -/
theorem exists_separator (layout : Layout) (level : ℕ) : ∃ blanks,
    layout.separator level = ',' :: blanks ∧
      ∀ rest, skipBlanks (blanks ++ rest) = skipBlanks rest := by
  have newline := skipBlanks_newline layout level
  rw [Layout.separator]
  cases indented : layout.indent with
  | none => exact ⟨[' '], rfl, fun rest => List.dropWhile_cons_of_pos (by decide)⟩
  | some width => exact ⟨layout.newline level, rfl, newline⟩

theorem ends_of_not_plain {char : Char} (notPlain : isPlain char = false) (rest : List Char) :
    Ends (char :: rest) := by
  rintro other ⟨⟩
  exact notPlain

/-- After an item comes a separator, a line or the closing bracket. -/
theorem ends_items (layout : Layout) {closing : Char} (closes : closing = ']' ∨ closing = '}')
    (inner outer : ℕ) (texts : List (List Char)) (rest : List Char) :
    Ends (texts.flatMap (layout.separator inner ++ ·) ++
      (layout.newline outer ++ closing :: rest)) := by
  cases texts with
  | nil =>
      rw [List.flatMap_nil, List.nil_append, Layout.newline]
      cases layout.indent with
      | none => rcases closes with rfl | rfl <;> exact ends_of_not_plain (by decide) _
      | some width => exact ends_of_not_plain (by decide) _
  | cons text later =>
      obtain ⟨blanks, separator, _⟩ := exists_separator layout inner
      rw [List.flatMap_cons, separator]
      exact ends_of_not_plain (by decide) _

/-- A text is read as an item, whatever comes after it. -/
structure Reads {α : Type} (element : Reader α) (text : List Char) (item : α) : Prop where
  starts : ∃ char later, text = char :: later ∧ startsValue char = true
  reads : ∀ rest, Ends rest → element (text ++ rest) = some (item, rest)

namespace Reads

variable {α : Type} {element : Reader α} {text : List Char} {item : α}

theorem skipBlanks (reads : Reads element text item) (rest : List Char) :
    Json.skipBlanks (text ++ rest) = text ++ rest := by
  obtain ⟨char, later, rfl, starts⟩ := reads.starts
  exact skipBlanks_of_not_blank (startsValue_spec starts).1 _

end Reads

section Many

variable {α : Type} {element : Reader α} {closing : Char}
  (closes : closing = ']' ∨ closing = '}') (layout : Layout) (inner outer : ℕ)

include closes

/-- The reader goes on behind a separator and an item. -/
theorem readRest_separator {text : List Char} {item : α} (first : Reads element text item)
    {more : List Char} (ends : Ends more) (bound : ℕ) :
    readRest element closing (bound + 1) (layout.separator inner ++ (text ++ more)) =
      (readRest element closing bound more).map fun later => (item :: later.1, later.2) := by
  have notComma : ',' ≠ closing := by rcases closes with rfl | rfl <;> decide
  obtain ⟨blanks, separator, skips⟩ := exists_separator layout inner
  rw [readRest, separator, List.cons_append, skipBlanks_of_not_blank (by decide)]
  dsimp only
  rw [if_neg notComma, if_pos rfl, skips, first.skipBlanks, first.reads _ ends]
  simp only [Option.bind_eq_bind, Option.bind_some]
  cases readRest element closing bound more <;> rfl

/-- The reader ends at the closing bracket. -/
theorem readRest_closing (bound : ℕ) (rest : List Char) :
    readRest element closing (bound + 1) (layout.newline outer ++ closing :: rest) =
      some ([], rest) := by
  have visible : isBlank closing = false := by rcases closes with rfl | rfl <;> decide
  rw [readRest, skipBlanks_newline, skipBlanks_of_not_blank visible]
  exact if_pos rfl

theorem readRest_of_reads {texts : List (List Char)} {items : List α}
    (each : List.Forall₂ (Reads element) texts items) : ∀ bound, texts.length ≤ bound →
      ∀ rest, readRest element closing (bound + 1) (texts.flatMap (layout.separator inner ++ ·) ++
        (layout.newline outer ++ closing :: rest)) = some (items, rest) := by
  induction each with
  | nil => exact fun bound _ rest => readRest_closing closes layout outer bound rest
  | @cons text item texts items first _ ih =>
      intro bound fits rest
      rw [List.length_cons] at fits
      obtain ⟨bound, rfl⟩ := Nat.exists_eq_succ_of_ne_zero (by omega : bound ≠ 0)
      have later := ih bound (Nat.le_of_succ_le_succ fits) rest
      rw [List.flatMap_cons, List.append_assoc, List.append_assoc,
        readRest_separator closes layout inner first
          (ends_items layout closes inner outer texts rest),
        later]
      rfl

omit closes in
theorem length_le_flatMap (texts : List (List Char)) :
    texts.length ≤ (texts.flatMap (layout.separator inner ++ ·)).length := by
  obtain ⟨blanks, separator, _⟩ := exists_separator layout inner
  induction texts with
  | nil => exact le_refl _
  | cons text rest ih =>
      rw [List.flatMap_cons, List.length_append, List.length_append]
      rw [show (layout.separator inner).length = blanks.length + 1 by rw [separator]; rfl]
      rw [List.length_cons]
      omega

/-- **Enclosed items are read back.** -/
theorem readMany_enclose {opening : Char} {level : ℕ} {texts : List (List Char)} {items : List α}
    (each : List.Forall₂ (Reads element) texts items) : ∃ body,
      enclose layout level opening closing texts = opening :: body ∧
        ∀ rest, readMany element closing (body ++ rest) = some (items, rest) := by
  have visible : isBlank closing = false := by rcases closes with rfl | rfl <;> decide
  cases each with
  | nil =>
      refine ⟨[closing], rfl, fun rest => ?_⟩
      rw [readMany, List.singleton_append, skipBlanks_of_not_blank visible]
      exact if_pos rfl
  | @cons text item texts items first others =>
      refine ⟨_, rfl, fun rest => ?_⟩
      have after := ends_items layout closes (level + 1) level texts rest
      have later := readRest_of_reads closes layout (level + 1) level others
        (texts.flatMap (layout.separator (level + 1) ++ ·) ++
          (layout.newline level ++ closing :: rest)).length
        (by
          have := length_le_flatMap layout (level + 1) texts
          rw [List.length_append]
          omega) rest
      have read := first.reads _ after
      obtain ⟨char, tail, rfl, starts⟩ := first.starts
      have opens : char ≠ closing := by
        rcases closes with rfl | rfl
        · exact (startsValue_spec starts).2.1
        · exact (startsValue_spec starts).2.2
      simp only [List.append_assoc, List.singleton_append]
      rw [readMany, skipBlanks_newline, List.cons_append,
        skipBlanks_of_not_blank (startsValue_spec starts).1]
      dsimp only
      rw [if_neg opens, ← List.cons_append, read]
      simp only [Option.bind_eq_bind, Option.bind_some, later]
      rfl

end Many

section

variable {ν : Type} {numerals : Numerals ν} {layout : Layout}

/-- A token is read as the value of the token. -/
theorem reads_token {token : List Char} {value : Value ν} {depth : ℕ}
    (nonempty : token ≠ []) (plain : ∀ char ∈ token, isPlain char = true)
    (known : ofToken numerals token = some value) :
    Reads (readValue numerals (depth + 1)) token value := by
  obtain ⟨char, later, rfl⟩ := List.exists_cons_of_ne_nil nonempty
  have isFirst := plain char List.mem_cons_self
  have other : ∀ opening : Char, isPlain opening = false → char ≠ opening := by
    rintro _ notPlain rfl
    rw [isFirst] at notPlain
    cases notPlain
  refine ⟨⟨char, later, rfl, by simp [startsValue, isFirst]⟩, fun rest ends => ?_⟩
  have taken : (char :: later ++ rest).takeWhile isPlain = char :: later := by
    rw [List.takeWhile_append_of_pos plain]
    cases rest with
    | nil => simp
    | cons next more => rw [List.takeWhile_cons_of_neg (by simp [ends next rfl]), List.append_nil]
  have dropped : (char :: later ++ rest).dropWhile isPlain = rest := by
    rw [List.dropWhile_append_of_pos plain]
    cases rest with
    | nil => rfl
    | cons next more => exact List.dropWhile_cons_of_neg (by simp [ends next rfl])
  rw [List.cons_append, readValue, if_neg (other '"' (by decide)), if_neg (other '[' (by decide)),
    if_neg (other '{' (by decide)), ← List.cons_append, taken, dropped, known]
  rfl

theorem readString_quoted (text : String) (rest : List Char) :
    readString ((text.toList.flatMap JsonStrings.codeUnits).flatMap JsonStrings.escape ++
      '"' :: rest) = some (text, rest) := by
  rw [readString, JsonStrings.scan_quoted]
  simp only [Option.bind_eq_bind, Option.bind_some, JsonStrings.ofCodeUnits_flatMap]
  rw [String.ofList_toList]
  rfl

theorem reads_quoted (text : String) (depth : ℕ) :
    Reads (readValue numerals (depth + 1)) (JsonStrings.quoted text) (.string text) := by
  refine ⟨⟨'"', _, rfl, by decide⟩, fun rest _ => ?_⟩
  rw [JsonStrings.quoted, List.cons_append, List.append_assoc, List.singleton_append, readValue,
    if_pos rfl, readString_quoted]
  rfl

/-- A member is read if its value is. -/
theorem reads_member {element : Reader (Value ν)} {text : List Char} {value : Value ν}
    (key : String) (reads : Reads element text value) :
    Reads (readMember element) (JsonStrings.quoted key ++ (':' :: ' ' :: text)) (key, value) := by
  refine ⟨⟨'"', _, rfl, by decide⟩, fun rest ends => ?_⟩
  have space : skipBlanks (' ' :: (text ++ rest)) = text ++ rest :=
    (List.dropWhile_cons_of_pos (p := isBlank) (a := ' ') (by decide)).trans (reads.skipBlanks rest)
  rw [JsonStrings.quoted, List.cons_append, List.cons_append, List.append_assoc, List.append_assoc,
    List.singleton_append, readMember, readString_quoted]
  simp only [Option.bind_eq_bind, Option.bind_some, List.cons_append]
  rw [skipBlanks_of_not_blank (by decide)]
  simp only [space, reads.reads rest ends]
  rfl

/-- An enclosed item is shorter than what encloses it. -/
theorem length_lt_enclose (level : ℕ) (opening closing : Char) {texts : List (List Char)}
    {text : List Char} (member : text ∈ texts) :
    text.length < (enclose layout level opening closing texts).length := by
  cases texts with
  | nil => cases member
  | cons first rest =>
      rw [enclose]
      rcases List.mem_cons.mp member with rfl | later
      · simp only [List.length_cons, List.length_append]
        omega
      · obtain ⟨before, after, rfl⟩ := List.append_of_mem later
        simp only [List.flatMap_append, List.flatMap_cons, List.length_cons, List.length_append]
        omega

mutual

/-- **A written value is read back, whatever its layout.** -/
theorem reads_writeValue : ∀ (value : Value ν) (level depth : ℕ),
    (writeValue numerals layout level value).length < depth →
      Reads (readValue numerals depth) (writeValue numerals layout level value) value
  | _, _, 0, fits => absurd fits (Nat.not_lt_zero _)
  | .null, level, depth + 1, _ => by
      rw [writeValue]
      exact reads_token (by decide) (List.all_eq_true.mp rfl) rfl
  | .bool true, level, depth + 1, _ => by
      rw [writeValue]
      exact reads_token (by decide) (List.all_eq_true.mp rfl) rfl
  | .bool false, level, depth + 1, _ => by
      rw [writeValue]
      exact reads_token (by decide) (List.all_eq_true.mp rfl) rfl
  | .number value, level, depth + 1, _ => by
      rw [writeValue]
      refine reads_token (numerals.nonempty value) (numerals.plain value) ?_
      have notLiteral := numerals.notLiteral value
      simp only [List.mem_cons, List.not_mem_nil, or_false, not_or] at notLiteral
      rw [ofToken, if_neg notLiteral.1, if_neg notLiteral.2.1, if_neg notLiteral.2.2,
        numerals.value_text]
      rfl
  | .string value, level, depth + 1, _ => by
      rw [writeValue]
      exact reads_quoted value depth
  | .array items, level, depth + 1, fits => by
      rw [writeValue] at fits ⊢
      have each := reads_writeItems items (level + 1) depth fun text member =>
        (length_lt_enclose level '[' ']' member).trans_le (Nat.le_of_lt_succ fits)
      obtain ⟨body, encloses, reads⟩ := readMany_enclose (.inl rfl) layout each
      rw [encloses]
      refine ⟨⟨'[', body, rfl, by decide⟩, fun rest _ => ?_⟩
      rw [List.cons_append, readValue, if_neg (by decide), if_pos rfl, reads]
      rfl
  | .object members, level, depth + 1, fits => by
      rw [writeValue] at fits ⊢
      have each := reads_writeMembers members (level + 1) depth fun text member =>
        (length_lt_enclose level '{' '}' member).trans_le (Nat.le_of_lt_succ fits)
      obtain ⟨body, encloses, reads⟩ := readMany_enclose (.inr rfl) layout each
      rw [encloses]
      refine ⟨⟨'{', body, rfl, by decide⟩, fun rest _ => ?_⟩
      rw [List.cons_append, readValue, if_neg (by decide), if_neg (by decide), if_pos rfl, reads]
      rfl

theorem reads_writeItems : ∀ (items : List (Value ν)) (level depth : ℕ),
    (∀ text ∈ writeItems numerals layout level items, text.length < depth) →
      List.Forall₂ (Reads (readValue numerals depth)) (writeItems numerals layout level items) items
  | [], level, depth, _ => by
      rw [writeItems]
      exact .nil
  | item :: rest, level, depth, fits => by
      rw [writeItems] at fits ⊢
      obtain ⟨first, others⟩ := List.forall_mem_cons.mp fits
      exact .cons (reads_writeValue item level depth first)
        (reads_writeItems rest level depth others)

theorem reads_writeMembers : ∀ (members : List (String × Value ν)) (level depth : ℕ),
    (∀ text ∈ writeMembers numerals layout level members, text.length < depth) →
      List.Forall₂ (Reads (readMember (readValue numerals depth)))
        (writeMembers numerals layout level members) members
  | [], level, depth, _ => by
      rw [writeMembers]
      exact .nil
  | (key, value) :: rest, level, depth, fits => by
      rw [writeMembers] at fits ⊢
      obtain ⟨first, others⟩ := List.forall_mem_cons.mp fits
      rw [List.length_append, List.length_cons, List.length_cons] at first
      exact .cons (reads_member key (reads_writeValue value level depth (by omega)))
        (reads_writeMembers rest level depth others)

end

/-- **Reading a written value gives the value back.** -/
theorem read_write (value : Value ν) :
    read numerals (write numerals layout value) = some value := by
  have reads : Reads (readValue numerals ((writeValue numerals layout 0 value).length + 1))
      (writeValue numerals layout 0 value) value :=
    reads_writeValue value 0 _ (Nat.lt_succ_self _)
  have same := reads.reads [] (fun char member => by cases member)
  have visible := reads.skipBlanks []
  rw [List.append_nil] at same visible
  rw [read, write, String.toList_ofList, String.length_ofList, visible, same]
  rfl

end

/-! ## Texts on one line -/

/-- A text of printable characters in ASCII. -/
def Printable (text : List Char) : Prop := ∀ char ∈ text, 32 ≤ char.toNat ∧ char.toNat ≤ 126

namespace Printable

variable {first second : List Char}

instance (text : List Char) : Decidable (Printable text) :=
  decidable_of_iff (text.all fun char => 32 ≤ char.toNat ∧ char.toNat ≤ 126) (by
    simp only [Printable, List.all_eq_true, decide_eq_true_eq])

theorem append (printable : Printable first) (other : Printable second) :
    Printable (first ++ second) := by
  intro char member
  rcases List.mem_append.mp member with inFirst | inSecond
  · exact printable char inFirst
  · exact other char inSecond

theorem flatMap {α : Type} {items : List α} {text : α → List Char}
    (each : ∀ item ∈ items, Printable (text item)) : Printable (items.flatMap text) := by
  intro char member
  obtain ⟨item, inItems, inText⟩ := List.mem_flatMap.mp member
  exact each item inItems char inText

/-- It is a single line. -/
theorem newline_notMem (printable : Printable first) : '\n' ∉ first :=
  fun member => absurd (printable _ member) (by decide)

end Printable

theorem printable_of_plain {text : List Char} (plain : ∀ char ∈ text, isPlain char = true) :
    Printable text := by
  intro char member
  have isPlain := of_decide_eq_true (plain char member)
  rcases isPlain with digit | upper | lower | rfl | rfl | rfl
  · omega
  · omega
  · omega
  all_goals decide

/-- An escaped code unit is printable. -/
theorem printable_escape {unit : ℕ} (small : unit < 65536) :
    Printable (JsonStrings.escape unit) := by
  have digits : ∀ digit < 16, Printable [JsonStrings.hexDigit digit] := by decide
  have letters : ∀ entry ∈ [(34, '"'), (92, '\\'), (8, 'b'), (12, 'f'), (10, 'n'), (13, 'r'),
      (9, 't')], Printable ['\\', entry.2] := by decide
  rw [JsonStrings.escape]
  cases short : JsonStrings.shortEscape? unit with
  | some letter =>
      obtain ⟨before, after, split, _⟩ := List.lookup_eq_some_iff.mp short
      exact letters (unit, letter) (split ▸ List.mem_append_right _ List.mem_cons_self)
  | none =>
      by_cases printable : 32 ≤ unit ∧ unit ≤ 126
      · simp only [if_pos printable]
        intro char member
        rw [List.mem_singleton.mp member, JsonStrings.toNat_ofNat_of_printable printable]
        exact printable
      · simp only [if_neg printable]
        have start : Printable ['\\', 'u'] := by decide
        exact start.append ((digits _ (by omega)).append ((digits _ (by omega)).append
          ((digits _ (by omega)).append (digits _ (by omega)))))

theorem printable_quoted (text : String) : Printable (JsonStrings.quoted text) := by
  have quote : Printable ['"'] := by decide
  refine quote.append (Printable.append (.flatMap fun unit member => ?_) quote)
  obtain ⟨char, _, isUnit⟩ := List.mem_flatMap.mp member
  exact printable_escape (JsonStrings.codeUnits_lt isUnit)

/-- Items in brackets stay on one line. -/
theorem printable_enclose (level : ℕ) {opening closing : Char} {texts : List (List Char)}
    (opens : Printable [opening]) (closes : Printable [closing])
    (each : ∀ text ∈ texts, Printable text) :
    Printable (enclose {} level opening closing texts) := by
  have separator : Printable [',', ' '] := by decide
  cases texts with
  | nil => exact opens.append closes
  | cons first rest =>
      obtain ⟨firstIs, restAre⟩ := List.forall_mem_cons.mp each
      exact opens.append (firstIs.append (.append (.flatMap fun text member =>
        separator.append (restAre text member)) closes))

section

variable {ν : Type} (numerals : Numerals ν)

mutual

/-- **Without an indentation a value is written on one line.** -/
theorem printable_writeValue : ∀ (value : Value ν) (level : ℕ),
    Printable (writeValue numerals {} level value)
  | .null, level => by
      rw [writeValue]
      decide
  | .bool true, level => by
      rw [writeValue]
      decide
  | .bool false, level => by
      rw [writeValue]
      decide
  | .number value, level => by
      rw [writeValue]
      exact printable_of_plain (numerals.plain value)
  | .string value, level => by
      rw [writeValue]
      exact printable_quoted value
  | .array items, level => by
      rw [writeValue]
      exact printable_enclose level (by decide) (by decide) (printable_writeItems items (level + 1))
  | .object members, level => by
      rw [writeValue]
      exact printable_enclose level (by decide) (by decide)
        (printable_writeMembers members (level + 1))

theorem printable_writeItems : ∀ (items : List (Value ν)) (level : ℕ),
    ∀ text ∈ writeItems numerals {} level items, Printable text
  | [], level => by
      rw [writeItems]
      exact List.forall_mem_nil _
  | item :: rest, level => by
      rw [writeItems]
      exact List.forall_mem_cons.mpr
        ⟨printable_writeValue item level, printable_writeItems rest level⟩

theorem printable_writeMembers : ∀ (members : List (String × Value ν)) (level : ℕ),
    ∀ text ∈ writeMembers numerals {} level members, Printable text
  | [], level => by
      rw [writeMembers]
      exact List.forall_mem_nil _
  | (key, value) :: rest, level => by
      rw [writeMembers]
      have colon : Printable [':', ' '] := by decide
      exact List.forall_mem_cons.mpr
        ⟨(printable_quoted key).append (colon.append (printable_writeValue value level)),
          printable_writeMembers rest level⟩

end

/-- The text on one line holds no line break. -/
theorem newline_notMem_write (value : Value ν) : '\n' ∉ (write numerals {} value).toList := by
  rw [write, String.toList_ofList]
  exact (printable_writeValue numerals value 0).newline_notMem

end

end Json
