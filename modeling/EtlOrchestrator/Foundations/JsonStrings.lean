import Mathlib.Algebra.Order.Ring.Nat
import Mathlib.Data.List.Basic

/-!
# Lists of strings as JSON texts

A list of strings is written as a JSON array in ASCII: characters outside the
printable ones are escaped by their UTF-16 code units, of which a character
beyond the basic plane has two. The reader accepts the texts of this form, and
reading a written text gives the list back (`read_write`).
-/

set_option autoImplicit false

namespace JsonStrings

/-! ## Code units -/

/-- The UTF-16 code units of a character. -/
def codeUnits (char : Char) : List ℕ :=
  if char.toNat < 65536 then [char.toNat]
  else [55296 + (char.toNat - 65536) / 1024, 56320 + (char.toNat - 65536) % 1024]

/-- The characters of a list of code units, in which surrogates come in pairs. Without its pair a
first surrogate takes what comes next or is refused, and a second one is no character: there
`json.loads` gives a string that has a surrogate in it. -/
def ofCodeUnits : List ℕ → Option (List Char)
  | [] => some []
  | [unit] => if 55296 ≤ unit ∧ unit < 56320 then none else some [Char.ofNat unit]
  | unit :: next :: rest =>
      if 55296 ≤ unit ∧ unit < 56320 then
        (ofCodeUnits rest).map fun chars =>
          Char.ofNat (65536 + (unit - 55296) * 1024 + (next - 56320)) :: chars
      else (ofCodeUnits (next :: rest)).map fun chars => Char.ofNat unit :: chars

theorem ofCodeUnits_cons {unit : ℕ} (plain : ¬ (55296 ≤ unit ∧ unit < 56320)) (rest : List ℕ) :
    ofCodeUnits (unit :: rest) = (ofCodeUnits rest).map fun chars => Char.ofNat unit :: chars := by
  cases rest with
  | nil => simp [ofCodeUnits, plain]
  | cons next later => rw [ofCodeUnits, if_neg plain]

/-- A character is no surrogate and lies in the range of Unicode. -/
theorem char_range (char : Char) :
    ¬ (55296 ≤ char.toNat ∧ char.toNat < 57344) ∧ char.toNat < 1114112 := by
  rcases char.valid with small | ⟨above, below⟩
  · have : char.toNat < 55296 := small
    omega
  · have above : 57343 < char.toNat := above
    have below : char.toNat < 1114112 := below
    omega

theorem ofCodeUnits_append (char : Char) (rest : List ℕ) : ofCodeUnits (codeUnits char ++ rest) =
    (ofCodeUnits rest).map fun chars => char :: chars := by
  obtain ⟨plain, range⟩ := char_range char
  by_cases basic : char.toNat < 65536
  · rw [codeUnits, if_pos basic, List.singleton_append, ofCodeUnits_cons (by omega),
      Char.ofNat_toNat]
  · rw [codeUnits, if_neg basic, List.cons_append, List.singleton_append, ofCodeUnits,
      if_pos (by omega)]
    have whole : 65536 + (55296 + (char.toNat - 65536) / 1024 - 55296) * 1024 +
        (56320 + (char.toNat - 65536) % 1024 - 56320) = char.toNat := by omega
    rw [whole, Char.ofNat_toNat]

theorem ofCodeUnits_flatMap (chars : List Char) :
    ofCodeUnits (chars.flatMap codeUnits) = some chars := by
  induction chars with
  | nil => rfl
  | cons char rest ih => rw [List.flatMap_cons, ofCodeUnits_append, ih, Option.map_some]

theorem codeUnits_lt {char : Char} {unit : ℕ} (member : unit ∈ codeUnits char) : unit < 65536 := by
  have range := (char_range char).2
  rw [codeUnits] at member
  split at member
  · rw [List.mem_singleton.mp member]
    assumption
  · rcases List.mem_cons.mp member with rfl | low
    · omega
    · rw [List.mem_singleton.mp low]
      omega

/-! ## Escapes -/

/-- A hexadecimal digit, in lower case. -/
def hexDigit (value : ℕ) : Char :=
  if value < 10 then Char.ofNat (48 + value) else Char.ofNat (87 + value)

/-- The value of a hexadecimal digit. -/
def hexValue? (char : Char) : Option ℕ :=
  if 48 ≤ char.toNat ∧ char.toNat ≤ 57 then some (char.toNat - 48)
  else if 97 ≤ char.toNat ∧ char.toNat ≤ 102 then some (char.toNat - 87)
  else if 65 ≤ char.toNat ∧ char.toNat ≤ 70 then some (char.toNat - 55)
  else none

theorem hexValue?_hexDigit {value : ℕ} (small : value < 16) :
    hexValue? (hexDigit value) = some value := by
  revert value
  decide

/-- The letter that escapes a code unit after a backslash. -/
def shortEscape? (unit : ℕ) : Option Char :=
  [(34, '"'), (92, '\\'), (8, 'b'), (12, 'f'), (10, 'n'), (13, 'r'), (9, 't')].lookup unit

/-- The code unit that a letter after a backslash stands for. -/
def ofShortEscape? (letter : Char) : Option ℕ :=
  [('"', 34), ('\\', 92), ('/', 47), ('b', 8), ('f', 12), ('n', 10), ('r', 13), ('t', 9)].lookup
    letter

/-- A code unit inside a string. -/
def escape (unit : ℕ) : List Char :=
  match shortEscape? unit with
  | some letter => ['\\', letter]
  | none =>
      if 32 ≤ unit ∧ unit ≤ 126 then [Char.ofNat unit]
      else ['\\', 'u', hexDigit (unit / 4096), hexDigit (unit / 256 % 16),
        hexDigit (unit / 16 % 16), hexDigit (unit % 16)]

/-- The code unit of four hexadecimal digits. -/
def hexUnit? (first second third fourth : Char) : Option ℕ := do
  return (← hexValue? first) * 4096 + (← hexValue? second) * 256 + (← hexValue? third) * 16 +
    (← hexValue? fourth)

/-- Put a code unit before the result of a scan. -/
def prepend (unit : ℕ) (scanned : List ℕ × List Char) : List ℕ × List Char :=
  (unit :: scanned.1, scanned.2)

/-- Read a string up to its closing quote: its code units, and what comes after. Raw control
characters, which `json.loads` refuses, are read as they are. -/
def scan : List Char → Option (List ℕ × List Char)
  | [] => none
  | char :: rest =>
      if char = '"' then some ([], rest)
      else if char = '\\' then
        match rest with
        | [] => none
        | letter :: tail =>
            if letter = 'u' then
              match tail with
              | first :: second :: third :: fourth :: later =>
                  (hexUnit? first second third fourth).bind fun unit =>
                    (scan later).map (prepend unit)
              | _ => none
            else (ofShortEscape? letter).bind fun unit => (scan tail).map (prepend unit)
      else (scan rest).map (prepend char.toNat)

theorem scan_quote (rest : List Char) : scan ('"' :: rest) = some ([], rest) := by
  rw [scan.eq_def]
  exact if_pos rfl

theorem scan_plain {char : Char} (noQuote : char ≠ '"') (noEscape : char ≠ '\\')
    (rest : List Char) : scan (char :: rest) = (scan rest).map (prepend char.toNat) := by
  rw [scan.eq_def]
  simp only [if_neg noQuote, if_neg noEscape]

theorem scan_short {letter : Char} {unit : ℕ} (notHex : letter ≠ 'u')
    (known : ofShortEscape? letter = some unit) (rest : List Char) :
    scan ('\\' :: letter :: rest) = (scan rest).map (prepend unit) := by
  rw [scan.eq_def]
  simp [notHex, known]

theorem scan_hex {first second third fourth : Char} {unit : ℕ}
    (known : hexUnit? first second third fourth = some unit) (rest : List Char) :
    scan ('\\' :: 'u' :: first :: second :: third :: fourth :: rest) =
      (scan rest).map (prepend unit) := by
  rw [scan.eq_def]
  simp [known]

theorem hexUnit?_hexDigit {unit : ℕ} (small : unit < 65536) :
    hexUnit? (hexDigit (unit / 4096)) (hexDigit (unit / 256 % 16)) (hexDigit (unit / 16 % 16))
      (hexDigit (unit % 16)) = some unit := by
  rw [hexUnit?, hexValue?_hexDigit (by omega), hexValue?_hexDigit (by omega),
    hexValue?_hexDigit (by omega), hexValue?_hexDigit (by omega)]
  have whole : unit / 4096 * 4096 + unit / 256 % 16 * 256 + unit / 16 % 16 * 16 + unit % 16 =
      unit := by omega
  simp only [Option.bind_eq_bind, Option.bind_some, Option.pure_def, whole]

/-- A letter that escapes a code unit stands for it. -/
theorem shortEscape?_eq_some {unit : ℕ} {letter : Char} (short : shortEscape? unit = some letter) :
    letter ≠ 'u' ∧ ofShortEscape? letter = some unit := by
  obtain ⟨before, after, split, _⟩ := List.lookup_eq_some_iff.mp short
  have member : (unit, letter) ∈ [(34, '"'), (92, '\\'), (8, 'b'), (12, 'f'), (10, 'n'),
      (13, 'r'), (9, 't')] := split ▸ List.mem_append_right _ List.mem_cons_self
  have all : ∀ entry ∈ [(34, '"'), (92, '\\'), (8, 'b'), (12, 'f'), (10, 'n'), (13, 'r'),
      (9, 't')], entry.2 ≠ 'u' ∧ ofShortEscape? entry.2 = some entry.1 := by decide
  exact all (unit, letter) member

/-- A printable character that needs no escape. -/
theorem toNat_ofNat_of_printable {unit : ℕ} (printable : 32 ≤ unit ∧ unit ≤ 126) :
    (Char.ofNat unit).toNat = unit := by
  have all : ∀ other < 127, (Char.ofNat other).toNat = other := by decide
  exact all unit (by omega)

theorem scan_escape {unit : ℕ} (small : unit < 65536) (rest : List Char) :
    scan (escape unit ++ rest) = (scan rest).map (prepend unit) := by
  rw [escape]
  cases short : shortEscape? unit with
  | some letter =>
      obtain ⟨notHex, known⟩ := shortEscape?_eq_some short
      exact scan_short notHex known rest
  | none =>
      by_cases printable : 32 ≤ unit ∧ unit ≤ 126
      · have same := toNat_ofNat_of_printable printable
        have noQuote : Char.ofNat unit ≠ '"' := by
          intro isQuote
          rw [isQuote] at same
          rw [← same] at short
          cases short
        have noEscape : Char.ofNat unit ≠ '\\' := by
          intro isEscape
          rw [isEscape] at same
          rw [← same] at short
          cases short
        simp only [if_pos printable, List.singleton_append, scan_plain noQuote noEscape, same]
      · simp only [if_neg printable]
        exact scan_hex (hexUnit?_hexDigit small) rest

/-- Reading the escapes of code units gives them back. -/
theorem scan_flatMap_escape {units : List ℕ} (small : ∀ unit ∈ units, unit < 65536)
    (rest : List Char) : scan (units.flatMap escape ++ '"' :: rest) = some (units, rest) := by
  induction units with
  | nil => exact scan_quote rest
  | cons unit later ih =>
      rw [List.flatMap_cons, List.append_assoc, scan_escape (small unit List.mem_cons_self),
        ih fun other member => small other (List.mem_cons_of_mem _ member)]
      rfl

/-! ## Arrays -/

/-- A string in quotes. -/
def quoted (text : String) : List Char :=
  '"' :: ((text.toList.flatMap codeUnits).flatMap escape ++ ['"'])

/-- The strings of an array, with separators between them. -/
def items : List String → List Char
  | [] => []
  | [text] => quoted text
  | text :: next :: rest => quoted text ++ ',' :: ' ' :: items (next :: rest)

/-- A list of strings as a JSON array. -/
def write (texts : List String) : String := String.ofList ('[' :: (items texts ++ [']']))

/-- Read the strings of a non-empty array, with a bound on their number. -/
def readItems : ℕ → List Char → Option (List String × List Char)
  | bound + 1, '"' :: text => do
      let (units, after) ← scan text
      let chars ← ofCodeUnits units
      match after with
      | ',' :: ' ' :: more =>
          let (later, rest) ← readItems bound more
          return (String.ofList chars :: later, rest)
      | rest => return ([String.ofList chars], rest)
  | _, _ => none

/-- Read a JSON array of strings. -/
def read (text : String) : Option (List String) :=
  match text.toList with
  | [] => none
  | first :: rest =>
      if first ≠ '[' then none
      else if rest = [']'] then some []
      else
        match readItems rest.length rest with
        | some (texts, [']']) => some texts
        | _ => none

theorem scan_quoted (text : String) (rest : List Char) :
    scan ((text.toList.flatMap codeUnits).flatMap escape ++ '"' :: rest) =
      some (text.toList.flatMap codeUnits, rest) := by
  refine scan_flatMap_escape (fun unit member => ?_) rest
  obtain ⟨char, _, isUnit⟩ := List.mem_flatMap.mp member
  exact codeUnits_lt isUnit

theorem readItems_last (bound : ℕ) (text : String) :
    readItems (bound + 1) (quoted text ++ [']']) = some ([text], [']']) := by
  have scanned := scan_quoted text [']']
  simp [quoted, readItems, scanned, ofCodeUnits_flatMap]

theorem readItems_more (bound : ℕ) (text : String) (more : List Char) :
    readItems (bound + 1) (quoted text ++ ',' :: ' ' :: more) =
      (readItems bound more).map fun later => (text :: later.1, later.2) := by
  have scanned := scan_quoted text (',' :: ' ' :: more)
  simp [quoted, readItems, scanned, ofCodeUnits_flatMap]
  cases readItems bound more <;> rfl

/-- Reading the strings of a written array, of which there are no more than the
bound. -/
theorem readItems_items (bound : ℕ) : ∀ text rest, rest.length ≤ bound →
    readItems (bound + 1) (items (text :: rest) ++ [']']) = some (text :: rest, [']']) := by
  induction bound with
  | zero =>
      intro text rest fits
      rw [List.length_eq_zero_iff.mp (Nat.le_zero.mp fits)]
      exact readItems_last 0 text
  | succ bound ih =>
      intro text rest fits
      cases rest with
      | nil => exact readItems_last (bound + 1) text
      | cons next later =>
          have inner := ih next later (Nat.le_of_succ_le_succ fits)
          rw [items, List.append_assoc, List.cons_append, List.cons_append, readItems_more, inner]
          rfl

/-- Each string takes at least one character. -/
theorem length_le_items (texts : List String) : texts.length ≤ (items texts).length := by
  induction texts with
  | nil => exact le_refl _
  | cons text rest ih =>
      cases rest with
      | nil => simp [items, quoted]
      | cons next later =>
          simp only [items, List.length_append, List.length_cons] at ih ⊢
          omega

/-- **Reading a written list gives the list back.** -/
theorem read_write (texts : List String) : read (write texts) = some texts := by
  cases texts with
  | nil => decide
  | cons text rest =>
      have parsed := readItems_items (items (text :: rest)).length text rest
        (by have := length_le_items (text :: rest); simp only [List.length_cons] at this; omega)
      obtain ⟨tail, startsQuoted⟩ : ∃ tail, items (text :: rest) = '"' :: tail := by
        cases rest <;> exact ⟨_, rfl⟩
      rw [startsQuoted, List.cons_append, List.length_cons] at parsed
      have length : ('"' :: (tail ++ [']'])).length = tail.length + 1 + 1 := by simp
      have notEmpty : '"' :: (tail ++ [']']) ≠ [']'] := by simp
      rw [write, read, String.toList_ofList, startsQuoted, List.cons_append]
      dsimp only
      rw [if_neg (by decide), if_neg notEmpty, length, parsed]
      rfl

end JsonStrings
