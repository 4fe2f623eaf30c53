import Mathlib.Algebra.Order.Field.Rat
import Mathlib.Data.List.DropRight
import Mathlib.Tactic.Common

/-!
JSON as text: a writer with and without indentation, a parser, and a proof that the parser reads back what
the writer wrote. Strings are well-formed Unicode; an escaped surrogate that has no partner is read as U+FFFD.
-/

namespace JsonText

def isSpace (c : Char) : Bool := c = ' ' || c = '\n' || c = '\r' || c = '\t'

def skipSpace (cs : List Char) : List Char := cs.dropWhile isSpace

/-!
# Numbers
-/

def isNumberChar (c : Char) : Bool := c.isDigit || c = '-' || c = '+' || c = '.' || c = 'e' || c = 'E'

/-- What follows one digit or more. -/
def skipDigits : List Char → Option (List Char)
  | c :: cs => if c.isDigit then some (cs.dropWhile Char.isDigit) else none
  | [] => none

def skipInteger : List Char → Option (List Char)
  | '-' :: '0' :: cs => some cs
  | '-' :: cs => skipDigits cs
  | '0' :: cs => some cs
  | cs => skipDigits cs

def skipFraction : List Char → Option (List Char)
  | '.' :: cs => skipDigits cs
  | cs => some cs

def skipExponent : List Char → Option (List Char)
  | 'e' :: '-' :: cs => skipDigits cs
  | 'e' :: '+' :: cs => skipDigits cs
  | 'e' :: cs => skipDigits cs
  | 'E' :: '-' :: cs => skipDigits cs
  | 'E' :: '+' :: cs => skipDigits cs
  | 'E' :: cs => skipDigits cs
  | cs => some cs

def isNumber (cs : List Char) : Bool :=
  cs.all isNumberChar && ((skipInteger cs).bind skipFraction).bind skipExponent = some []

/-- A number as it is written. -/
structure NumberLiteral where
  text : List Char
  isNumber_text : isNumber text = true

def decimalDigits (cs : List Char) : Nat := cs.foldl (fun n c => 10 * n + (c.toNat - '0'.toNat)) 0

def NumberLiteral.value (literal : NumberLiteral) : Rat :=
  let isNegative := literal.text.head? = some '-'
  let cs := if isNegative then literal.text.tail else literal.text
  let whole := cs.takeWhile Char.isDigit
  let cs := cs.dropWhile Char.isDigit
  let (fraction, cs) := match cs with
    | '.' :: cs => (cs.takeWhile Char.isDigit, cs.dropWhile Char.isDigit)
    | cs => ([], cs)
  let exponent : Int := match cs with
    | _ :: '-' :: cs => -decimalDigits cs
    | _ :: '+' :: cs => decimalDigits cs
    | _ :: cs => decimalDigits cs
    | [] => 0
  let magnitude : Rat := decimalDigits (whole ++ fraction) * 10 ^ (exponent - fraction.length)
  if isNegative then -magnitude else magnitude

inductive Value where
  | null
  | bool (b : Bool)
  | number (literal : NumberLiteral)
  | string (s : String)
  | array (elements : List Value)
  | object (members : List (String × Value))

/-- The value of a property; of two with one name it is the last. -/
def Value.get? (name : String) : Value → Option Value
  | .object members => (members.reverse.find? (·.1 = name)).map Prod.snd
  | _ => none

/-!
# Strings
-/

def hexChar (n : Nat) : Char := "0123456789abcdef".toList.getD n '0'

def hexValue? (c : Char) : Option Nat :=
  if '0' ≤ c ∧ c ≤ '9' then some (c.toNat - '0'.toNat)
  else if 'a' ≤ c ∧ c ≤ 'f' then some (c.toNat - 'a'.toNat + 10)
  else if 'A' ≤ c ∧ c ≤ 'F' then some (c.toNat - 'A'.toNat + 10)
  else none

/-- A character inside of the quotes. -/
def escape (c : Char) : List Char :=
  if c = '"' then ['\\', '"']
  else if c = '\\' then ['\\', '\\']
  else if c = '\x08' then ['\\', 'b']
  else if c = '\x0c' then ['\\', 'f']
  else if c = '\n' then ['\\', 'n']
  else if c = '\r' then ['\\', 'r']
  else if c = '\t' then ['\\', 't']
  else if c.toNat < 0x20 then ['\\', 'u', '0', '0', hexChar (c.toNat / 16), hexChar (c.toNat % 16)]
  else [c]

/-- With both quotes. -/
def quote (s : String) : List Char := '"' :: (s.toList.flatMap escape ++ ['"'])

def readHex4 : List Char → Option (Nat × List Char)
  | a :: b :: c :: d :: cs => do
    let a ← hexValue? a
    let b ← hexValue? b
    let c ← hexValue? c
    let d ← hexValue? d
    some (4096 * a + 256 * b + 16 * c + d, cs)
  | _ => none

def isHighSurrogate (n : Nat) : Bool := 0xd800 ≤ n && n < 0xdc00
def isLowSurrogate (n : Nat) : Bool := 0xdc00 ≤ n && n < 0xe000

/-- What follows `\u`, as a character or as the first one of a pair. -/
def readUnicode (cs : List Char) : Option (Char × List Char) := do
  let (high, cs) ← readHex4 cs
  if isHighSurrogate high then
    match cs with
    | '\\' :: 'u' :: rest =>
      match readHex4 rest with
      | some (low, rest) =>
        if isLowSurrogate low then
          some (Char.ofNat (0x10000 + 0x400 * (high - 0xd800) + (low - 0xdc00)), rest)
        else
          some ('\uFFFD', cs)
      | none => none
    | _ => some ('\uFFFD', cs)
  else if isLowSurrogate high then
    some ('\uFFFD', cs)
  else
    some (Char.ofNat high, cs)

/-- What follows a backslash. -/
def readEscape : List Char → Option (Char × List Char)
  | '"' :: cs => some ('"', cs)
  | '\\' :: cs => some ('\\', cs)
  | '/' :: cs => some ('/', cs)
  | 'b' :: cs => some ('\x08', cs)
  | 'f' :: cs => some ('\x0c', cs)
  | 'n' :: cs => some ('\n', cs)
  | 'r' :: cs => some ('\r', cs)
  | 't' :: cs => some ('\t', cs)
  | 'u' :: cs => readUnicode cs
  | _ => none

/-- What follows the opening quote, up to the closing one. -/
def readString : Nat → List Char → Option (List Char × List Char)
  | 0, _ => none
  | _ + 1, [] => none
  | fuel + 1, c :: cs =>
    if c = '"' then
      some ([], cs)
    else if c = '\\' then do
      let (c, cs) ← readEscape cs
      let (s, cs) ← readString fuel cs
      some (c :: s, cs)
    else if c.toNat < 0x20 then
      none
    else do
      let (s, cs) ← readString fuel cs
      some (c :: s, cs)

/-!
# Values
-/

/-- Between the parts of a value, when it is indented. -/
def newline (gap indent : Nat) : List Char := if gap = 0 then [] else '\n' :: List.replicate indent ' '

def colon (gap : Nat) : List Char := if gap = 0 then [':'] else [':', ' ']

mutual

/-- A value at a depth of `indent` columns, where each level takes `gap` more. -/
def write (gap indent : Nat) : Value → List Char
  | .null => ['n', 'u', 'l', 'l']
  | .bool true => ['t', 'r', 'u', 'e']
  | .bool false => ['f', 'a', 'l', 's', 'e']
  | .number literal => literal.text
  | .string s => quote s
  | .array [] => ['[', ']']
  | .array (v :: vs) =>
    '[' :: (newline gap (indent + gap) ++ (write gap (indent + gap) v ++ writeElements gap indent vs))
  | .object [] => ['{', '}']
  | .object ((name, v) :: members) =>
    '{' :: (newline gap (indent + gap)
      ++ (quote name ++ (colon gap ++ (write gap (indent + gap) v ++ writeMembers gap indent members))))

/-- What follows the first element. -/
def writeElements (gap indent : Nat) : List Value → List Char
  | [] => newline gap indent ++ [']']
  | v :: vs =>
    ',' :: (newline gap (indent + gap) ++ (write gap (indent + gap) v ++ writeElements gap indent vs))

/-- What follows the first member. -/
def writeMembers (gap indent : Nat) : List (String × Value) → List Char
  | [] => newline gap indent ++ ['}']
  | (name, v) :: members =>
    ',' :: (newline gap (indent + gap)
      ++ (quote name ++ (colon gap ++ (write gap (indent + gap) v ++ writeMembers gap indent members))))

end

def readScalar : List Char → Option (Value × List Char)
  | 'n' :: 'u' :: 'l' :: 'l' :: cs => some (.null, cs)
  | 't' :: 'r' :: 'u' :: 'e' :: cs => some (.bool true, cs)
  | 'f' :: 'a' :: 'l' :: 's' :: 'e' :: cs => some (.bool false, cs)
  | cs =>
    if h : isNumber (cs.takeWhile isNumberChar) = true then
      some (.number ⟨cs.takeWhile isNumberChar, h⟩, cs.dropWhile isNumberChar)
    else
      none

mutual

def readValue : Nat → List Char → Option (Value × List Char)
  | 0, _ => none
  | fuel + 1, cs =>
    match skipSpace cs with
    | '"' :: cs => do
      let (s, cs) ← readString fuel cs
      some (.string (String.ofList s), cs)
    | '[' :: cs =>
      match skipSpace cs with
      | ']' :: cs => some (.array [], cs)
      | cs => do
        let (vs, cs) ← readElements fuel cs
        some (.array vs, cs)
    | '{' :: cs =>
      match skipSpace cs with
      | '}' :: cs => some (.object [], cs)
      | cs => do
        let (members, cs) ← readMembers fuel cs
        some (.object members, cs)
    | cs => readScalar cs

/-- One element or more, and the closing bracket. -/
def readElements : Nat → List Char → Option (List Value × List Char)
  | 0, _ => none
  | fuel + 1, cs => do
    let (v, cs) ← readValue fuel cs
    match skipSpace cs with
    | ',' :: cs => do
      let (vs, cs) ← readElements fuel cs
      some (v :: vs, cs)
    | ']' :: cs => some ([v], cs)
    | _ => none

/-- One member or more, and the closing brace. -/
def readMembers : Nat → List Char → Option (List (String × Value) × List Char)
  | 0, _ => none
  | fuel + 1, cs =>
    match skipSpace cs with
    | '"' :: cs => do
      let (name, cs) ← readString fuel cs
      match skipSpace cs with
      | ':' :: cs => do
        let (v, cs) ← readValue fuel cs
        match skipSpace cs with
        | ',' :: cs => do
          let (members, cs) ← readMembers fuel cs
          some ((String.ofList name, v) :: members, cs)
        | '}' :: cs => some ([(String.ofList name, v)], cs)
        | _ => none
      | _ => none
    | _ => none

end

/-- `JSON.parse`. Every level of a value takes two steps and has a character of its own. -/
def parse (text : List Char) : Option Value :=
  match readValue (2 * text.length + 1) text with
  | some (v, cs) => if skipSpace cs = [] then some v else none
  | none => none

/-!
# What was written is read
-/

theorem skipSpace_cons {c : Char} (cs : List Char) (h : isSpace c = false) : skipSpace (c :: cs) = c :: cs := by
  simp [skipSpace, h]

theorem skipSpace_append {space cs : List Char} (h : ∀ c ∈ space, isSpace c = true)
    : skipSpace (space ++ cs) = skipSpace cs := by
  unfold skipSpace
  exact List.dropWhile_append_of_pos h

theorem isSpace_newline {gap indent : Nat} : ∀ c ∈ newline gap indent, isSpace c = true := by
  intro c hc
  unfold newline at hc
  split at hc
  . cases hc
  . rcases List.mem_cons.mp hc with rfl | hc
    . rfl
    . rw [List.eq_of_mem_replicate hc]
      rfl

theorem skipSpace_newline (gap indent : Nat) (cs : List Char)
    : skipSpace (newline gap indent ++ cs) = skipSpace cs :=
  skipSpace_append isSpace_newline

theorem colon_eq (gap : Nat) : ∃ space, colon gap = ':' :: space ∧ ∀ c ∈ space, isSpace c = true := by
  unfold colon
  split
  . exact ⟨[], rfl, by simp⟩
  . exact ⟨[' '], rfl, by simp [isSpace]⟩

theorem hexValue?_hexChar : ∀ n < 16, hexValue? (hexChar n) = some n := by decide

theorem readEscape_control {c : Char} (h : c.toNat < 0x20) (cs : List Char)
    : readEscape ('u' :: '0' :: '0' :: hexChar (c.toNat / 16) :: hexChar (c.toNat % 16) :: cs)
        = some (c, cs) := by
  have hhigh := hexValue?_hexChar (c.toNat / 16) (by omega)
  have hlow := hexValue?_hexChar (c.toNat % 16) (by omega)
  have hzero : hexValue? '0' = some 0 := rfl
  have hvalue : 4096 * 0 + 256 * 0 + 16 * (c.toNat / 16) + c.toNat % 16 = c.toNat := by omega
  have hnotHigh : isHighSurrogate c.toNat = false := by
    simp [isHighSurrogate]
    omega
  have hnotLow : isLowSurrogate c.toNat = false := by
    simp [isLowSurrogate]
    omega
  simp only [readEscape, readUnicode, readHex4, hhigh, hlow, hzero, hvalue, Option.bind_eq_bind,
    Option.bind_some, hnotHigh, hnotLow, Bool.false_eq_true, if_false, Char.ofNat_toNat]

theorem readString_escape (fuel : Nat) (c : Char) (cs : List Char)
    : readString (fuel + 1) (escape c ++ cs) = (readString fuel cs).map fun (s, cs) => (c :: s, cs) := by
  have hescaped (letters : List Char) (h : readEscape (letters ++ cs) = some (c, cs))
      : readString (fuel + 1) ('\\' :: (letters ++ cs))
        = (readString fuel cs).map fun (s, cs) => (c :: s, cs) := by
    simp only [readString, Char.reduceEq, if_false, if_true, h, Option.bind_eq_bind, Option.bind_some]
    cases readString fuel cs <;> rfl
  unfold escape
  split
  next h => exact hescaped ['"'] (by rw [h]; rfl)
  split
  next h => exact hescaped ['\\'] (by rw [h]; rfl)
  split
  next h => exact hescaped ['b'] (by rw [h]; rfl)
  split
  next h => exact hescaped ['f'] (by rw [h]; rfl)
  split
  next h => exact hescaped ['n'] (by rw [h]; rfl)
  split
  next h => exact hescaped ['r'] (by rw [h]; rfl)
  split
  next h => exact hescaped ['t'] (by rw [h]; rfl)
  split
  next h =>
    exact hescaped ['u', '0', '0', hexChar (c.toNat / 16), hexChar (c.toNat % 16)]
      (readEscape_control h cs)
  next hquote hbackslash _ _ _ _ _ hcontrol =>
    simp only [List.singleton_append, readString, hquote, hbackslash, hcontrol, if_false,
      Option.bind_eq_bind]
    cases readString fuel cs <;> rfl

theorem readString_quoted {fuel : Nat} {s : List Char} (h : s.length < fuel) (cs : List Char)
    : readString fuel (s.flatMap escape ++ ('"' :: cs)) = some (s, cs) := by
  induction s generalizing fuel with
  | nil =>
    cases fuel with
    | zero => simp at h
    | succ fuel => simp [readString]
  | cons c s ih =>
    cases fuel with
    | zero => simp at h
    | succ fuel =>
      rw [List.flatMap_cons, List.append_assoc, readString_escape, ih (by simpa using h)]
      rfl

theorem length_escape (c : Char) : 1 ≤ (escape c).length := by
  unfold escape
  repeat' split
  all_goals simp

theorem length_quote (s : String) : s.toList.length + 2 ≤ (quote s).length := by
  have hlength (cs : List Char) : cs.length ≤ (cs.flatMap escape).length := by
    induction cs with
    | nil => simp
    | cons c cs ih =>
      have := length_escape c
      simp only [List.flatMap_cons, List.length_append, List.length_cons]
      omega
  have := hlength s.toList
  simp only [quote, List.length_cons, List.length_append]
  omega

/-- What stands after a number. -/
def EndsNumber (cs : List Char) : Prop := ∀ c ∈ cs.head?, isNumberChar c = false

theorem endsNumber_cons {c : Char} (cs : List Char) (h : isNumberChar c = false) : EndsNumber (c :: cs) := by
  intro d hd
  rw [List.head?_cons, Option.mem_some_iff] at hd
  rwa [← hd]

theorem endsNumber_newline (gap indent : Nat) {cs : List Char} (h : EndsNumber cs)
    : EndsNumber (newline gap indent ++ cs) := by
  unfold newline
  split
  . exact h
  . exact endsNumber_cons _ rfl

theorem readScalar_number (literal : NumberLiteral) {cs : List Char} (h : EndsNumber cs)
    : readScalar (literal.text ++ cs) = some (.number literal, cs) := by
  have hall : ∀ c ∈ literal.text, isNumberChar c = true :=
    List.all_eq_true.mp (Bool.and_eq_true_iff.mp literal.isNumber_text).1
  have hends : cs.takeWhile isNumberChar = [] ∧ cs.dropWhile isNumberChar = cs := by
    cases cs with
    | nil => exact ⟨rfl, rfl⟩
    | cons c cs =>
      have hc := h c (by simp)
      simp [hc]
  have htake : (literal.text ++ cs).takeWhile isNumberChar = literal.text := by
    rw [List.takeWhile_append_of_pos hall, hends.1, List.append_nil]
  have hdrop : (literal.text ++ cs).dropWhile isNumberChar = cs := by
    rw [List.dropWhile_append_of_pos hall, hends.2]
  have hnot {c : Char} {rest : List Char} (heq : literal.text ++ cs = c :: rest)
      (hc : isNumberChar c = false) : False := by
    cases htext : literal.text with
    | nil =>
      have := literal.isNumber_text
      rw [htext] at this
      cases this
    | cons d text =>
      rw [htext, List.cons_append] at heq
      have hd := hall d (by rw [htext]; exact List.mem_cons_self)
      rw [(List.cons.inj heq).1, hc] at hd
      cases hd
  unfold readScalar
  split
  next heq => exact (hnot heq rfl).elim
  next heq => exact (hnot heq rfl).elim
  next heq => exact (hnot heq rfl).elim
  next => simp only [htake, hdrop, literal.isNumber_text, dif_pos]

theorem readValue_congr {cs cs' : List Char} (h : skipSpace cs = skipSpace cs') (fuel : Nat)
    : readValue fuel cs = readValue fuel cs' := by
  cases fuel with
  | zero => rfl
  | succ fuel => simp only [readValue, h]

theorem readElements_congr {cs cs' : List Char} (h : skipSpace cs = skipSpace cs') (fuel : Nat)
    : readElements fuel cs = readElements fuel cs' := by
  cases fuel with
  | zero => rfl
  | succ fuel => simp only [readElements, readValue_congr h]

theorem readMembers_congr {cs cs' : List Char} (h : skipSpace cs = skipSpace cs') (fuel : Nat)
    : readMembers fuel cs = readMembers fuel cs' := by
  cases fuel with
  | zero => rfl
  | succ fuel => simp only [readMembers, h]

/-- No value starts like the end of an array. -/
theorem write_eq_cons (gap indent : Nat) (v : Value)
    : ∃ c cs, write gap indent v = c :: cs ∧ isSpace c = false ∧ c ≠ ']' := by
  cases v with
  | null => exact ⟨'n', _, rfl, rfl, by decide⟩
  | bool b =>
    cases b with
    | true => exact ⟨'t', _, rfl, rfl, by decide⟩
    | false => exact ⟨'f', _, rfl, rfl, by decide⟩
  | number literal =>
    cases htext : literal.text with
    | nil =>
      have := literal.isNumber_text
      rw [htext] at this
      cases this
    | cons c cs =>
      have hall := List.all_eq_true.mp (Bool.and_eq_true_iff.mp literal.isNumber_text).1
      have hc : isNumberChar c = true := hall c (by rw [htext]; exact List.mem_cons_self)
      refine ⟨c, cs, by rw [write, htext], ?_, ?_⟩
      . by_contra hspace
        simp only [isSpace, Bool.not_eq_false, Bool.or_eq_true, decide_eq_true_eq] at hspace
        rcases hspace with ((rfl | rfl) | rfl) | rfl <;> cases hc
      . rintro rfl
        cases hc
  | string s => exact ⟨'"', _, rfl, rfl, by decide⟩
  | array elements =>
    cases elements with
    | nil => exact ⟨'[', _, rfl, rfl, by decide⟩
    | cons v vs => exact ⟨'[', _, by rw [write], rfl, by decide⟩
  | object members =>
    cases members with
    | nil => exact ⟨'{', _, rfl, rfl, by decide⟩
    | cons m ms => exact ⟨'{', _, by rw [write], rfl, by decide⟩

theorem endsNumber_elements (gap indent : Nat) (vs : List Value) (cs : List Char)
    : EndsNumber (writeElements gap indent vs ++ cs) := by
  cases vs with
  | nil =>
    rw [writeElements, List.append_assoc]
    exact endsNumber_newline gap indent (endsNumber_cons _ rfl)
  | cons v vs =>
    rw [writeElements]
    exact endsNumber_cons _ rfl

theorem endsNumber_members (gap indent : Nat) (members : List (String × Value)) (cs : List Char)
    : EndsNumber (writeMembers gap indent members ++ cs) := by
  cases members with
  | nil =>
    rw [writeMembers, List.append_assoc]
    exact endsNumber_newline gap indent (endsNumber_cons _ rfl)
  | cons m ms =>
    rw [writeMembers]
    exact endsNumber_cons _ rfl

theorem length_writeElements (gap indent : Nat) (vs : List Value) : 1 ≤ (writeElements gap indent vs).length := by
  cases vs <;> simp [writeElements]

theorem length_writeMembers (gap indent : Nat) (members : List (String × Value))
    : 1 ≤ (writeMembers gap indent members).length := by
  cases members <;> simp [writeMembers]

theorem length_write_object (gap indent : Nat) (name : String) (v : Value) (members : List (String × Value))
    : name.toList.length + 6 ≤ (write gap indent (.object ((name, v) :: members))).length := by
  obtain ⟨c, cs, hwrite, -⟩ := write_eq_cons gap (indent + gap) v
  obtain ⟨space, hcolon, -⟩ := colon_eq gap
  have hname := length_quote name
  have hmembers := length_writeMembers gap indent members
  rw [write, hwrite, hcolon]
  simp only [List.length_cons, List.length_append]
  omega

/-- A quoted name with its colon is read, and the value behind it is next. -/
theorem readMembers_name {fuel : Nat} {name : String} (gap : Nat) (cs : List Char)
    (h : name.toList.length < fuel)
    : readMembers (fuel + 1) (quote name ++ (colon gap ++ cs)) = (do
        let (v, cs) ← readValue fuel cs
        match skipSpace cs with
        | ',' :: cs => do
          let (members, cs) ← readMembers fuel cs
          some ((name, v) :: members, cs)
        | '}' :: cs => some ([(name, v)], cs)
        | _ => none) := by
  obtain ⟨space, hcolon, hspace⟩ := colon_eq gap
  have hvalue : readValue fuel (space ++ cs) = readValue fuel cs := readValue_congr (skipSpace_append hspace) fuel
  have hstring : readString fuel (name.toList.flatMap escape ++ ('"' :: (':' :: (space ++ cs))))
      = some (name.toList, ':' :: (space ++ cs)) := readString_quoted h _
  have hquote : quote name ++ (colon gap ++ cs)
      = '"' :: (name.toList.flatMap escape ++ ('"' :: (':' :: (space ++ cs)))) := by
    simp [quote, hcolon]
  rw [hquote, readMembers, skipSpace_cons _ rfl]
  simp only [hstring, Option.bind_eq_bind, Option.bind_some, skipSpace_cons _ (rfl : isSpace ':' = false), hvalue,
    String.ofList_toList]

theorem skipSpace_eq_cons {c : Char} {cs rest : List Char} (h : skipSpace cs = c :: rest)
    : skipSpace cs = skipSpace (c :: rest) := by
  rw [← h]
  exact (List.dropWhile_idempotent isSpace cs).symm

theorem readValue_array {fuel : Nat} {cs rest : List Char} {c : Char} (h : skipSpace cs = c :: rest)
    (hc : c ≠ ']')
    : readValue (fuel + 1) ('[' :: cs) = (readElements fuel cs).map fun (vs, cs) => (.array vs, cs) := by
  rw [readElements_congr (skipSpace_eq_cons h) fuel, readValue, skipSpace_cons _ rfl]
  simp only [h]
  split
  next heq => exact absurd (List.cons.inj heq).1 hc
  next => cases readElements fuel (c :: rest) <;> rfl

theorem readValue_object {fuel : Nat} {cs rest : List Char} (h : skipSpace cs = '"' :: rest)
    : readValue (fuel + 1) ('{' :: cs) = (readMembers fuel cs).map fun (members, cs) => (.object members, cs) := by
  rw [readMembers_congr (skipSpace_eq_cons h) fuel, readValue, skipSpace_cons _ rfl]
  simp only [h]
  split
  next heq => cases heq
  next => cases readMembers fuel ('"' :: rest) <;> rfl

theorem readValue_scalar {fuel : Nat} {cs rest : List Char} {v : Value} {c : Char} (hcs : cs = c :: rest)
    (hspace : isSpace c = false) (hc : c ≠ '"' ∧ c ≠ '[' ∧ c ≠ '{') (h : readScalar cs = some (v, rest'))
    : readValue (fuel + 1) cs = some (v, rest') := by
  subst hcs
  rw [readValue, skipSpace_cons _ hspace]
  split
  next heq => exact absurd (List.cons.inj heq).1 hc.1
  next heq => exact absurd (List.cons.inj heq).1 hc.2.1
  next heq => exact absurd (List.cons.inj heq).1 hc.2.2
  next => exact h

mutual

theorem readValue_write (gap : Nat) (v : Value) (indent fuel : Nat) (cs : List Char)
    (hfuel : 2 * (write gap indent v).length ≤ fuel) (hcs : EndsNumber cs)
    : readValue fuel (write gap indent v ++ cs) = some (v, cs) := by
  obtain ⟨c, rest, hwrite, hspace, -⟩ := write_eq_cons gap indent v
  obtain ⟨fuel, rfl⟩ : ∃ n, fuel = n + 2 := ⟨fuel - 2, by rw [hwrite, List.length_cons] at hfuel; omega⟩
  match v with
  | .null => rfl
  | .bool true => rfl
  | .bool false => rfl
  | .number literal =>
    rw [write] at hwrite ⊢
    refine readValue_scalar (by rw [hwrite]; rfl) hspace ?_ (readScalar_number literal hcs)
    have hall := List.all_eq_true.mp (Bool.and_eq_true_iff.mp literal.isNumber_text).1
    have hc : isNumberChar c = true := hall c (by rw [hwrite]; exact List.mem_cons_self)
    refine ⟨?_, ?_, ?_⟩ <;>
      . rintro rfl
        cases hc
  | .string s =>
    have hlength := length_quote s
    rw [write] at hfuel ⊢
    have hstring : readString (fuel + 1) (s.toList.flatMap escape ++ ('"' :: cs)) = some (s.toList, cs) :=
      readString_quoted (by omega) cs
    have hquote : quote s ++ cs = '"' :: (s.toList.flatMap escape ++ ('"' :: cs)) := by
      simp [quote]
    rw [hquote, readValue, skipSpace_cons _ rfl]
    simp [hstring]
  | .array [] => rfl
  | .array (v :: vs) =>
    rw [write] at hfuel ⊢
    simp only [List.length_cons, List.length_append] at hfuel
    have hrest := length_writeElements gap indent vs
    obtain ⟨c, rest, hhead, hspace, hc⟩ := write_eq_cons gap (indent + gap) v
    have hskip : skipSpace (newline gap (indent + gap)
        ++ (write gap (indent + gap) v ++ (writeElements gap indent vs ++ cs)))
        = c :: (rest ++ (writeElements gap indent vs ++ cs)) := by
      rw [skipSpace_newline, hhead, List.cons_append, skipSpace_cons _ hspace]
    have hv := readValue_write gap v (indent + gap) fuel (writeElements gap indent vs ++ cs) (by omega)
      (endsNumber_elements gap indent vs cs)
    rw [← readValue_congr (skipSpace_newline gap (indent + gap) _)] at hv
    simp only [List.cons_append, List.append_assoc]
    rw [readValue_array hskip hc, readElements_write gap vs indent fuel cs hv (by omega)]
    rfl
  | .object [] => rfl
  | .object ((name, v) :: members) =>
    rw [write] at hfuel ⊢
    simp only [List.length_cons, List.length_append] at hfuel
    have hrest := length_writeMembers gap indent members
    have hname := length_quote name
    have hskip : skipSpace (newline gap (indent + gap) ++ (quote name ++ (colon gap
        ++ (write gap (indent + gap) v ++ (writeMembers gap indent members ++ cs)))))
        = quote name ++ (colon gap ++ (write gap (indent + gap) v ++ (writeMembers gap indent members ++ cs))) := by
      rw [skipSpace_newline]
      exact skipSpace_cons _ rfl
    have hv := readValue_write gap v (indent + gap) fuel (writeMembers gap indent members ++ cs) (by omega)
      (endsNumber_members gap indent members cs)
    simp only [List.cons_append, List.append_assoc]
    rw [readValue_object hskip, readMembers_congr (skipSpace_newline gap (indent + gap) _),
      readMembers_write gap members indent fuel name cs hv (by omega) (by omega)]
    rfl

theorem readElements_write (gap : Nat) (vs : List Value) (indent fuel : Nat) {v : Value} {text : List Char}
    (cs : List Char) (hv : readValue fuel text = some (v, writeElements gap indent vs ++ cs))
    (hfuel : 2 * (writeElements gap indent vs).length ≤ fuel)
    : readElements (fuel + 1) text = some (v :: vs, cs) := by
  rw [readElements, hv]
  simp only [Option.bind_eq_bind, Option.bind_some]
  match vs with
  | [] =>
    rw [writeElements, List.append_assoc, skipSpace_newline, List.singleton_append, skipSpace_cons _ rfl]
    rfl
  | v' :: vs =>
    rw [writeElements] at hfuel ⊢
    simp only [List.length_cons, List.length_append] at hfuel
    have hrest := length_writeElements gap indent vs
    obtain ⟨fuel, rfl⟩ : ∃ n, fuel = n + 1 := ⟨fuel - 1, by omega⟩
    have hv' := readValue_write gap v' (indent + gap) fuel (writeElements gap indent vs ++ cs) (by omega)
      (endsNumber_elements gap indent vs cs)
    rw [← readValue_congr (skipSpace_newline gap (indent + gap) _)] at hv'
    simp only [List.cons_append, List.append_assoc, skipSpace_cons _ (rfl : isSpace ',' = false)]
    rw [readElements_write gap vs indent fuel cs hv' (by omega)]
    rfl

theorem readMembers_write (gap : Nat) (members : List (String × Value)) (indent fuel : Nat) (name : String)
    {v : Value} {text : List Char} (cs : List Char)
    (hv : readValue fuel text = some (v, writeMembers gap indent members ++ cs))
    (hfuel : 2 * (writeMembers gap indent members).length ≤ fuel) (hname : name.toList.length < fuel)
    : readMembers (fuel + 1) (quote name ++ (colon gap ++ text)) = some ((name, v) :: members, cs) := by
  rw [readMembers_name gap text hname, hv]
  simp only [Option.bind_eq_bind, Option.bind_some]
  match members with
  | [] =>
    rw [writeMembers, List.append_assoc, skipSpace_newline, List.singleton_append, skipSpace_cons _ rfl]
    rfl
  | (name', v') :: members =>
    rw [writeMembers] at hfuel ⊢
    simp only [List.length_cons, List.length_append] at hfuel
    have hrest := length_writeMembers gap indent members
    have hlength := length_quote name'
    obtain ⟨fuel, rfl⟩ : ∃ n, fuel = n + 1 := ⟨fuel - 1, by omega⟩
    have hv' := readValue_write gap v' (indent + gap) fuel (writeMembers gap indent members ++ cs) (by omega)
      (endsNumber_members gap indent members cs)
    simp only [List.cons_append, List.append_assoc, skipSpace_cons _ (rfl : isSpace ',' = false)]
    rw [readMembers_congr (skipSpace_newline gap (indent + gap) _),
      readMembers_write gap members indent fuel name' cs hv' (by omega) (by omega)]
    rfl

end

/-- What was written is read, with any space behind it. -/
theorem parse_write (gap : Nat) (v : Value) {space : List Char} (h : ∀ c ∈ space, isSpace c = true)
    : parse (write gap 0 v ++ space) = some v := by
  have hends : EndsNumber space := by
    cases space with
    | nil => simp [EndsNumber]
    | cons c cs =>
      have hc := h c List.mem_cons_self
      simp only [isSpace, Bool.or_eq_true, decide_eq_true_eq] at hc
      refine endsNumber_cons cs ?_
      rcases hc with ((rfl | rfl) | rfl) | rfl <;> rfl
  have hempty : skipSpace space = [] := by
    have hskip : skipSpace (space ++ []) = skipSpace [] := skipSpace_append h
    rwa [List.append_nil] at hskip
  unfold parse
  rw [readValue_write gap v 0 _ space (by rw [List.length_append]; omega) hends]
  simp [hempty]

end JsonText
