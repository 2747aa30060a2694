import Mathlib.Data.List.Basic
import Redex.Json
import Redex.Proofs.Basic
import Redex.Proofs.FreshName
import Redex.Text.Hexadecimal

/-!
# Reading written JSON

The output is put together from written parts, and no part is ever read back. So that a reader finds
in it what was meant, the writing has to be unambiguous: no two values are written alike, and where
one value ends is not a matter of choice.

An escaped character is taken up again by `unescape`, so a string ends at its first bare quote. A
number has no end of its own, but what follows a value is never a digit (`Ends`). Items are told
apart since none begins with the bracket that closes them. Thus each value is told by its text
(`Value.delimits`), and so is a sequence of values, one in a line (`lines_injective`).
-/

set_option autoImplicit false

namespace Redex

/-! ## Numbers with hexadecimal digits -/

namespace Text

theorem hexValue?_digitChar : ∀ digit < 16, hexValue? (Nat.digitChar digit) = some digit := by
  decide

theorem hexNumber?_concat {digits : List Char} {value digit : Nat}
    (number : hexNumber? digits = some value) (small : digit < 16) :
    hexNumber? (digits ++ [Nat.digitChar digit]) = some (16 * value + digit) := by
  rw [hexNumber?] at number
  rw [hexNumber?, List.foldlM_append, number]
  simp [hexValue?_digitChar digit small]

theorem hexNumber?_toDigits (n : Nat) : hexNumber? (Nat.toDigits 16 n) = some n := by
  induction n using Nat.strongRecOn with
  | ind n ih =>
      by_cases small : n < 16
      · rw [Nat.toDigits_of_lt_base small]
        have read := hexNumber?_concat (show hexNumber? [] = some 0 from rfl) small
        rwa [Nat.mul_zero, Nat.zero_add] at read
      · have large : 16 ≤ n := Nat.le_of_not_lt small
        rw [Nat.toDigits_of_base_le (by decide) large,
          hexNumber?_concat (ih (n / 16) (by omega)) (Nat.mod_lt n (by decide)), Nat.div_add_mod]

/-- Zeros in front of a number do not change it. -/
theorem hexNumber?_replicate_zero (count : Nat) (digits : List Char) :
    hexNumber? (List.replicate count '0' ++ digits) = hexNumber? digits := by
  induction count with
  | zero => rfl
  | succ count ih =>
      rw [List.replicate_succ, List.cons_append, ← ih]
      rfl

theorem hexNumber?_hexadecimal (width n : Nat) :
    hexNumber? (hexadecimal width n).toList = some n := by
  rw [hexadecimal, String.toList_ofList, hexNumber?_replicate_zero, hexNumber?_toDigits]

theorem length_hexadecimal_four {n : Nat} (fits : n < 0x10000) :
    (hexadecimal 4 n).toList.length = 4 := by
  have atMost : (Nat.toDigits 16 n).length ≤ 4 :=
    (Nat.length_toDigits_le_iff (by decide) (by decide)).2 fits
  rw [hexadecimal, String.toList_ofList, List.length_append, List.length_replicate]
  omega

end Text

namespace Json

/-! ## Strings -/

/-- The character that a letter behind a backslash stands for. -/
def ofLetter : Char → Char
  | 'n' => '\n'
  | 'r' => '\r'
  | 't' => '\t'
  | 'b' => '\x08'
  | 'f' => '\x0c'
  | c => c

/-- The first character inside a string, and what follows it. -/
def unescape : List Char → Option (Char × List Char)
  | '\\' :: 'u' :: a :: b :: c :: d :: rest =>
    (Text.hexNumber? [a, b, c, d]).map fun code => (Char.ofNat code, rest)
  | '\\' :: letter :: rest => some (ofLetter letter, rest)
  | c :: rest => some (c, rest)
  | [] => none

theorem unescape_number {code : Nat} (fits : code < 0x10000) (rest : List Char) :
    unescape (("\\u" ++ Text.hexadecimal 4 code).toList ++ rest) =
      some (Char.ofNat code, rest) := by
  have number := Text.hexNumber?_hexadecimal 4 code
  obtain ⟨a, b, c, d, digits⟩ := List.length_eq_four.1 (Text.length_hexadecimal_four fits)
  rw [digits] at number
  rw [String.toList_append, digits]
  show (Text.hexNumber? [a, b, c, d]).map _ = _
  rw [number]
  rfl

theorem unescape_of_ne {c : Char} (bare : c ≠ '\\') (rest : List Char) :
    unescape (c :: rest) = some (c, rest) := by
  rw [unescape.eq_def]
  split <;> simp_all

/-- A character is taken up again from its escaped form. -/
theorem unescape_escape (c : Char) (rest : List Char) :
    unescape ((escape c).toList ++ rest) = some (c, rest) := by
  fun_cases escape c with
  | case8 c _ _ _ _ _ _ _ special =>
      have fits : c.toNat < 0x10000 := by
        simp only [Bool.or_eq_true, decide_eq_true_eq] at special
        rcases special with ((((control | rfl) | rfl) | rfl) | separator) | separator
        all_goals first | decide | omega
      rw [unescape_number fits, Char.ofNat_toNat]
  | case9 c _ noBackslash =>
      rw [String.toList_singleton]
      exact unescape_of_ne noBackslash rest
  | _ => rfl

/-- No character is written as a bare quote. -/
theorem escape_ne_quote (c : Char) (rest rest' : List Char) :
    (escape c).toList ++ rest ≠ '"' :: rest' := by
  intro same
  have read := unescape_escape c rest
  rw [same, unescape_of_ne (by decide)] at read
  cases read
  cases same

theorem toList_string (value : String) :
    (string value).toList =
      '"' :: (value.toList.flatMap (fun c => (escape c).toList) ++ ['"']) := by
  rw [string, String.toList_append, String.toList_append, String.toList_join, List.flatMap_map]
  rfl

/-- Two written strings that begin one text are the same. -/
theorem string_append_inj {value value' : String} {rest rest' : List Char}
    (same : (string value).toList ++ rest = (string value').toList ++ rest') :
    value = value' ∧ rest = rest' := by
  have inside : ∀ cs cs' : List Char,
      cs.flatMap (fun c => (escape c).toList) ++ '"' :: rest =
          cs'.flatMap (fun c => (escape c).toList) ++ '"' :: rest' →
        cs = cs' ∧ rest = rest' := by
    intro cs
    induction cs with
    | nil =>
        rintro (_ | ⟨c', cs'⟩) same
        · exact ⟨rfl, (List.cons.inj same).2⟩
        · rw [List.flatMap_cons, List.append_assoc] at same
          exact absurd same.symm (escape_ne_quote c' _ _)
    | cons c cs ih =>
        rintro (_ | ⟨c', cs'⟩) same
        · rw [List.flatMap_cons, List.append_assoc] at same
          exact absurd same (escape_ne_quote c _ _)
        · rw [List.flatMap_cons, List.flatMap_cons, List.append_assoc, List.append_assoc] at same
          have read := congrArg unescape same
          rw [unescape_escape, unescape_escape] at read
          obtain ⟨rfl, behind⟩ := Prod.mk.inj (Option.some.inj read)
          obtain ⟨rfl, rfl⟩ := ih cs' behind
          exact ⟨rfl, rfl⟩
  simp only [toList_string, List.cons_append, List.append_assoc, List.nil_append,
    List.cons.injEq, true_and] at same
  obtain ⟨chars, behind⟩ := inside _ _ same
  exact ⟨String.toList_inj.1 chars, behind⟩

/-! ## Values -/

/-- A value. -/
inductive Value where
  | string (value : String)
  | number (value : Int)
  | bool (value : Bool)
  | array (items : List Value)
  | object (fields : List (String × Value))

namespace Value

theorem sizeOf_item_lt {items : List Value} {item : Value} (member : item ∈ items) :
    sizeOf item < sizeOf (array items) := by
  have smaller := List.sizeOf_lt_of_mem member
  rw [array.sizeOf_spec]
  omega

theorem sizeOf_field_lt {fields : List (String × Value)} {field : String × Value}
    (member : field ∈ fields) : sizeOf field.2 < sizeOf (object fields) := by
  have smaller := List.sizeOf_lt_of_mem member
  have parts : sizeOf field = 1 + sizeOf field.1 + sizeOf field.2 := rfl
  rw [object.sizeOf_spec]
  omega

/-- How a value is written. -/
def print : Value → String
  | string value => Json.string value
  | number value => Json.number value
  | bool value => Json.bool value
  | array items => Json.array (items.map print)
  | object fields => Json.object (fields.map fun field => (field.1, field.2.print))
decreasing_by
  · exact sizeOf_item_lt ‹_›
  · exact sizeOf_field_lt ‹_›

theorem print_string (value : String) : (string value).print = Json.string value := by
  rw [print]

theorem print_number (value : Int) : (number value).print = Json.number value := by
  rw [print]

/-- How an array is written, when it is known how its items are. -/
theorem print_array_map {α : Type} {value : α → Value} {written : α → String}
    (each : ∀ x, (value x).print = written x) (xs : List α) :
    (array (xs.map value)).print = Json.array (xs.map written) := by
  rw [print, List.map_map]
  exact congrArg Json.array (List.map_congr_left fun x _ => each x)

/-- Induction over the parts of a value. -/
@[elab_as_elim]
theorem induction {motive : Value → Prop} (string : ∀ value, motive (string value))
    (number : ∀ value, motive (number value)) (bool : ∀ value, motive (bool value))
    (array : ∀ items, (∀ item ∈ items, motive item) → motive (array items))
    (object : ∀ fields, (∀ field ∈ fields, motive field.2) → motive (object fields)) :
    ∀ value, motive value
  | .string value => string value
  | .number value => number value
  | .bool value => bool value
  | .array items => array items fun item _ => induction string number bool array object item
  | .object fields =>
    object fields fun field _ => induction string number bool array object field.2
decreasing_by
  · exact sizeOf_item_lt ‹_›
  · exact sizeOf_field_lt ‹_›

end Value

/-! ## Where a value ends -/

/-- A number that comes before the text ends there. -/
def Ends (rest : List Char) : Prop := ∀ c ∈ rest.head?, c.isDigit = false

theorem ends_cons {c : Char} (noDigit : c.isDigit = false) (rest : List Char) :
    Ends (c :: rest) := by
  intro c' head
  rwa [← Option.some.inj head]

/-- What is written for a member can be told from a text that it begins. -/
def Delimits {α : Type} (write : α → List Char) (x : α) : Prop :=
  ∀ (y : α) {rest rest' : List Char}, Ends rest → Ends rest' →
    write x ++ rest = write y ++ rest' → x = y ∧ rest = rest'

theorem intercalate_cons_eq_flatMap (first : List Char) (others : List (List Char)) :
    [','].intercalate (first :: others) = first ++ others.flatMap (',' :: ·) := by
  induction others generalizing first with
  | nil => rw [List.intercalate_singleton, List.flatMap_nil, List.append_nil]
  | cons second others ih =>
      rw [List.intercalate_cons_cons, ih second, List.flatMap_cons, List.append_assoc]
      rfl

section Items

variable {α : Type} {write : α → List Char} {close : Char} {rest rest' : List Char}
  {xs ys : List α}

/-- Members behind commas are told from a text up to a bracket. -/
theorem flatMap_append_inj (isBracket : close ≠ ',') (noDigit : close.isDigit = false)
    (each : ∀ x ∈ xs, Delimits write x)
    (same : xs.flatMap (fun x => ',' :: write x) ++ close :: rest =
      ys.flatMap (fun y => ',' :: write y) ++ close :: rest') :
    xs = ys ∧ rest = rest' := by
  have ends : ∀ (xs : List α) (rest : List Char),
      Ends (xs.flatMap (fun x => ',' :: write x) ++ close :: rest) := by
    rintro (_ | ⟨x, xs⟩) rest
    · exact ends_cons noDigit rest
    · exact ends_cons rfl _
  induction xs generalizing ys with
  | nil =>
      cases ys with
      | nil => exact ⟨rfl, (List.cons.inj same).2⟩
      | cons y ys => exact absurd (List.cons.inj same).1 isBracket
  | cons x xs ih =>
      cases ys with
      | nil => exact absurd (List.cons.inj same).1.symm isBracket
      | cons y ys =>
          obtain ⟨first, others⟩ := List.forall_mem_cons.1 each
          rw [List.flatMap_cons, List.flatMap_cons, List.append_assoc, List.append_assoc] at same
          obtain ⟨rfl, behind⟩ := first y (ends xs rest) (ends ys rest') (List.cons.inj same).2
          obtain ⟨rfl, rfl⟩ := ih others behind
          exact ⟨rfl, rfl⟩

/-- Members with commas between them are told from a text up to a bracket, if none begins with the
bracket. -/
theorem intercalate_append_inj (isBracket : close ≠ ',') (noDigit : close.isDigit = false)
    (begins : ∀ (x : α) (rest rest' : List Char), write x ++ rest ≠ close :: rest')
    (each : ∀ x ∈ xs, Delimits write x)
    (same : [','].intercalate (xs.map write) ++ close :: rest =
      [','].intercalate (ys.map write) ++ close :: rest') :
    xs = ys ∧ rest = rest' := by
  cases xs with
  | nil =>
      cases ys with
      | nil => exact ⟨rfl, (List.cons.inj same).2⟩
      | cons y ys =>
          rw [List.map_cons, intercalate_cons_eq_flatMap, List.append_assoc] at same
          exact absurd same.symm (begins y _ _)
  | cons x xs =>
      rw [List.map_cons, intercalate_cons_eq_flatMap, List.append_assoc] at same
      cases ys with
      | nil => exact absurd same (begins x _ _)
      | cons y ys =>
          rw [List.map_cons, intercalate_cons_eq_flatMap, List.append_assoc, List.flatMap_map,
            List.flatMap_map] at same
          refine flatMap_append_inj isBracket noDigit each ?_
          rw [List.flatMap_cons, List.flatMap_cons, List.append_assoc, List.append_assoc]
          exact congrArg (List.cons ',') same

end Items

/-! ## Numbers and truth values -/

theorem toList_number_ofNat (n : Nat) : (number (Int.ofNat n)).toList = Nat.toDigits 10 n :=
  String.toList_ofList

theorem toList_number_negSucc (n : Nat) :
    (number (Int.negSucc n)).toList = '-' :: Nat.toDigits 10 (n + 1) := by
  show ("-" ++ Nat.repr (n + 1)).toList = _
  rw [String.toList_append, Nat.toList_repr]
  rfl

theorem exists_first_digit (n : Nat) :
    ∃ c others, Nat.toDigits 10 n = c :: others ∧ c.isDigit = true := by
  cases digits : Nat.toDigits 10 n with
  | nil => exact absurd digits Nat.toDigits_ne_nil
  | cons c others =>
      exact ⟨c, others, rfl, Name.isDigit_of_mem_toDigits c (digits ▸ List.mem_cons_self)⟩

theorem digits_append_inj {n n' : Nat} {rest rest' : List Char} (ends : Ends rest)
    (ends' : Ends rest') (same : Nat.toDigits 10 n ++ rest = Nat.toDigits 10 n' ++ rest') :
    n = n' ∧ rest = rest' := by
  obtain ⟨digits, behind⟩ := append_inj_of_forall Name.isDigit_of_mem_toDigits
    Name.isDigit_of_mem_toDigits ends ends' same
  have value := congrArg Name.digitsValue digits
  rw [Name.digitsValue_toDigits, Name.digitsValue_toDigits] at value
  exact ⟨value, behind⟩

theorem digits_append_ne_minus (n : Nat) (rest rest' : List Char) :
    Nat.toDigits 10 n ++ rest ≠ '-' :: rest' := by
  obtain ⟨c, others, digits, isDigit⟩ := exists_first_digit n
  rw [digits]
  intro same
  rw [(List.cons.inj same).1] at isDigit
  cases isDigit

theorem number_append_inj {value value' : Int} {rest rest' : List Char} (ends : Ends rest)
    (ends' : Ends rest')
    (same : (number value).toList ++ rest = (number value').toList ++ rest') :
    value = value' ∧ rest = rest' := by
  cases value with
  | ofNat n =>
      rw [toList_number_ofNat] at same
      cases value' with
      | ofNat n' =>
          rw [toList_number_ofNat] at same
          obtain ⟨rfl, behind⟩ := digits_append_inj ends ends' same
          exact ⟨rfl, behind⟩
      | negSucc n' =>
          rw [toList_number_negSucc] at same
          exact absurd same (digits_append_ne_minus n _ _)
  | negSucc n =>
      rw [toList_number_negSucc] at same
      cases value' with
      | ofNat n' =>
          rw [toList_number_ofNat] at same
          exact absurd same.symm (digits_append_ne_minus n' _ _)
      | negSucc n' =>
          rw [toList_number_negSucc] at same
          obtain ⟨next, behind⟩ := digits_append_inj ends ends' (List.cons.inj same).2
          cases next
          exact ⟨rfl, behind⟩

theorem bool_append_inj {value value' : Bool} {rest rest' : List Char}
    (same : (bool value).toList ++ rest = (bool value').toList ++ rest') :
    value = value' ∧ rest = rest' := by
  cases value <;> cases value'
  · exact ⟨rfl, List.append_cancel_left same⟩
  · exact absurd (List.cons.inj same).1 (by decide)
  · exact absurd (List.cons.inj same).1 (by decide)
  · exact ⟨rfl, List.append_cancel_left same⟩

/-! ## Values are told by their text -/

/-- What a value is. -/
inductive Shape where
  | string
  | number
  | bool
  | array
  | object

/-- What starts with a character. -/
def Shape.of? (c : Char) : Option Shape :=
  if c = '"' then some string
  else if c = '-' ∨ c.isDigit then some number
  else if c = 't' ∨ c = 'f' then some bool
  else if c = '[' then some array
  else if c = '\x7b' then some object
  else none

theorem shape_of_isDigit {c : Char} (digit : c.isDigit = true) : Shape.of? c = some .number := by
  have noQuote : c ≠ '"' := by
    rintro rfl
    cases digit
  rw [Shape.of?, if_neg noQuote, if_pos (.inr digit)]

namespace Value

/-- The characters that a value is written with. -/
def chars (v : Value) : List Char := v.print.toList

/-- The characters that a field is written with. -/
def fieldChars (field : String × Value) : List Char :=
  (Json.string field.1).toList ++ ':' :: field.2.chars

theorem chars_string (value : String) : (string value).chars = (Json.string value).toList := by
  rw [chars, print_string]

theorem chars_number (value : Int) : (number value).chars = (Json.number value).toList := by
  rw [chars, print_number]

theorem chars_bool (value : Bool) : (bool value).chars = (Json.bool value).toList := by
  rw [chars, print]

theorem chars_array (items : List Value) :
    (array items).chars = '[' :: ([','].intercalate (items.map chars) ++ [']']) := by
  rw [chars, print, Json.array, String.toList_append, String.toList_append,
    String.toList_intercalate, List.map_map]
  rfl

theorem chars_object (fields : List (String × Value)) :
    (object fields).chars =
      '\x7b' :: ([','].intercalate (fields.map fieldChars) ++ ['\x7d']) := by
  have each : (fun field : String × Value =>
      (Json.string field.1 ++ ":" ++ field.2.print).toList) = fieldChars := by
    funext field
    rw [String.toList_append, String.toList_append, List.append_assoc]
    rfl
  rw [chars, print, Json.object, String.toList_append, String.toList_append,
    String.toList_intercalate, List.map_map, List.map_map, ← each]
  rfl

/-- What a value is. -/
def shape : Value → Shape
  | string _ => .string
  | number _ => .number
  | bool _ => .bool
  | array _ => .array
  | object _ => .object

theorem exists_first (v : Value) :
    ∃ c others, v.chars = c :: others ∧ Shape.of? c = some v.shape := by
  cases v with
  | string value => exact ⟨'"', _, by rw [chars_string, toList_string], rfl⟩
  | number value =>
      rw [chars_number]
      cases value with
      | ofNat n =>
          obtain ⟨c, others, digits, isDigit⟩ := exists_first_digit n
          exact ⟨c, others, by rw [toList_number_ofNat, digits], shape_of_isDigit isDigit⟩
      | negSucc n => exact ⟨'-', _, toList_number_negSucc n, rfl⟩
  | bool value =>
      rw [chars_bool]
      cases value
      · exact ⟨'f', _, rfl, rfl⟩
      · exact ⟨'t', _, rfl, rfl⟩
  | array items => exact ⟨'[', _, chars_array items, rfl⟩
  | object fields => exact ⟨'\x7b', _, chars_object fields, rfl⟩

theorem shape_eq_of_append {v w : Value} {rest rest' : List Char}
    (same : v.chars ++ rest = w.chars ++ rest') : v.shape = w.shape := by
  obtain ⟨c, others, first, shape⟩ := v.exists_first
  obtain ⟨c', others', first', shape'⟩ := w.exists_first
  rw [first, first'] at same
  rw [(List.cons.inj same).1, shape'] at shape
  exact (Option.some.inj shape).symm

theorem append_ne_bracket (v : Value) (rest rest' : List Char) :
    v.chars ++ rest ≠ ']' :: rest' := by
  obtain ⟨c, others, first, shape⟩ := v.exists_first
  rw [first]
  intro same
  rw [(List.cons.inj same).1] at shape
  cases shape

theorem field_append_ne_brace (field : String × Value) (rest rest' : List Char) :
    fieldChars field ++ rest ≠ '\x7d' :: rest' := by
  rw [fieldChars, toList_string]
  intro same
  exact absurd (List.cons.inj same).1 (by decide)

theorem delimits_field {field : String × Value} (value : Delimits chars field.2) :
    Delimits fieldChars field := by
  intro field' rest rest' ends ends' same
  simp only [fieldChars, List.append_assoc, List.cons_append] at same
  obtain ⟨key, behind⟩ := string_append_inj same
  obtain ⟨value, behind⟩ := value field'.2 ends ends' (List.cons.inj behind).2
  exact ⟨Prod.ext key value, behind⟩

/-- **A written value determines the value and where it ends**, whatever comes after it but a
digit. -/
theorem delimits (v : Value) : Delimits chars v := by
  induction v using Value.induction with
  | string value =>
      intro w rest rest' _ _ same
      have shape := shape_eq_of_append same
      cases w with
      | string value' =>
          rw [chars_string, chars_string] at same
          obtain ⟨rfl, behind⟩ := string_append_inj same
          exact ⟨rfl, behind⟩
      | _ => cases shape
  | number value =>
      intro w rest rest' ends ends' same
      have shape := shape_eq_of_append same
      cases w with
      | number value' =>
          rw [chars_number, chars_number] at same
          obtain ⟨rfl, behind⟩ := number_append_inj ends ends' same
          exact ⟨rfl, behind⟩
      | _ => cases shape
  | bool value =>
      intro w rest rest' _ _ same
      have shape := shape_eq_of_append same
      cases w with
      | bool value' =>
          rw [chars_bool, chars_bool] at same
          obtain ⟨rfl, behind⟩ := bool_append_inj same
          exact ⟨rfl, behind⟩
      | _ => cases shape
  | array items ih =>
      intro w rest rest' _ _ same
      have shape := shape_eq_of_append same
      cases w with
      | array items' =>
          simp only [chars_array, List.cons_append, List.append_assoc, List.nil_append,
            List.cons.injEq, true_and] at same
          obtain ⟨rfl, behind⟩ := intercalate_append_inj (by decide) rfl append_ne_bracket ih same
          exact ⟨rfl, behind⟩
      | _ => cases shape
  | object fields ih =>
      intro w rest rest' _ _ same
      have shape := shape_eq_of_append same
      cases w with
      | object fields' =>
          simp only [chars_object, List.cons_append, List.append_assoc, List.nil_append,
            List.cons.injEq, true_and] at same
          obtain ⟨rfl, behind⟩ := intercalate_append_inj (by decide) rfl field_append_ne_brace
            (fun field member => delimits_field (ih field member)) same
          exact ⟨rfl, behind⟩
      | _ => cases shape

end Value

/-! ## Values in lines -/

/-- Values, one in a line. -/
def lines (values : List Value) : String := String.join (values.map fun v => v.print ++ "\n")

theorem toList_lines_cons (v : Value) (values : List Value) :
    (lines (v :: values)).toList = v.chars ++ '\n' :: (lines values).toList := by
  rw [lines, lines, String.toList_join, String.toList_join, List.map_cons, List.flatMap_cons,
    String.toList_append, List.append_assoc]
  rfl

/-- Lines determine the values in them. -/
theorem lines_injective {values values' : List Value} (same : lines values = lines values') :
    values = values' := by
  have ends : ∀ rest, Ends ('\n' :: rest) := ends_cons rfl
  have chars := congrArg String.toList same
  induction values generalizing values' with
  | nil =>
      cases values' with
      | nil => rfl
      | cons w values' =>
          rw [toList_lines_cons] at chars
          simp [lines] at chars
  | cons v values ih =>
      rw [toList_lines_cons] at chars
      cases values' with
      | nil => simp [lines] at chars
      | cons w values' =>
          rw [toList_lines_cons] at chars
          obtain ⟨rfl, behind⟩ := v.delimits w (ends _) (ends _) chars
          have behind := (List.cons.inj behind).2
          rw [ih (String.toList_inj.1 behind) behind]

end Json

end Redex
