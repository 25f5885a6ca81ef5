import Mathlib.Data.List.DropRight
import Mathlib.Data.Nat.Digits.Lemmas

/-!
# JSON texts

The part of JSON that objects of strings, integers and objects need: a value is written without white
space and read back with it. Strings are escaped as an encoder does that is safe for HTML, and read
with every escape of the standard. `parse_render` is the round trip.
-/

namespace Foundation.Json

open List

mutual

inductive Value
  | null
  | num (n : Int)
  | str (s : List Char)
  | obj (members : Members)

inductive Members
  | nil
  | cons (name : List Char) (value : Value) (rest : Members)

end

/-! ### Decimal numbers -/

def digitChar (d : Nat) : Char := Char.ofNat (48 + d)

def isDigit (c : Char) : Bool := 48 ≤ c.toNat && c.toNat ≤ 57

def readNat (cs : List Char) : Nat := cs.foldl (fun acc c => acc * 10 + (c.toNat - 48)) 0

variable {d n k : Nat} {c : Char} {rest : List Char}

theorem toNat_digitChar (small : d < 10) : (digitChar d).toNat = 48 + d := by
  have all : ∀ d < 10, (digitChar d).toNat = 48 + d := by decide
  exact all d small

theorem isDigit_digitChar (small : d < 10) : isDigit (digitChar d) = true := by
  simp only [isDigit, toNat_digitChar small, Bool.and_eq_true, decide_eq_true_eq]
  omega

@[simp] theorem readNat_snoc (cs : List Char) (c : Char) :
    readNat (cs ++ [c]) = readNat cs * 10 + (c.toNat - 48) := by
  simp [readNat]

/-- The decimal digits of a number, without leading zeros. -/
def decimal (n : Nat) : List Char :=
  if n = 0 then ['0'] else ((Nat.digits 10 n).map digitChar).reverse

theorem readNat_digits {ds : List Nat} (small : ∀ d ∈ ds, d < 10) :
    readNat ((ds.map digitChar).reverse) = Nat.ofDigits 10 ds := by
  induction ds with
  | nil => rfl
  | cons d ds ih =>
    have here := toNat_digitChar (small d mem_cons_self)
    rw [map_cons, reverse_cons, readNat_snoc, here, Nat.ofDigits_cons,
      ih fun e inside => small e (mem_cons_of_mem _ inside)]
    omega

theorem readNat_decimal (n : Nat) : readNat (decimal n) = n := by
  unfold decimal
  split
  next zero =>
    rw [zero]
    rfl
  · rw [readNat_digits fun d inside => Nat.digits_lt_base (by decide) inside, Nat.ofDigits_digits]

theorem isDigit_of_mem_decimal (member : c ∈ decimal n) : isDigit c = true := by
  unfold decimal at member
  split at member
  · rw [mem_singleton.mp member]
    rfl
  · obtain ⟨d, inside, rfl⟩ := mem_map.mp (mem_reverse.mp member)
    exact isDigit_digitChar (Nat.digits_lt_base (by decide) inside)

theorem decimal_cons (n : Nat) : ∃ c rest, decimal n = c :: rest ∧ isDigit c = true ∧
    (c = '0' → rest = []) := by
  by_cases zero : n = 0
  · exact ⟨'0', [], by simp [decimal, zero], rfl, fun _ => rfl⟩
  · have some : Nat.digits 10 n ≠ [] := Nat.digits_ne_nil_iff_ne_zero.mpr zero
    have split : decimal n = digitChar ((Nat.digits 10 n).getLast some) ::
        (((Nat.digits 10 n).dropLast).map digitChar).reverse := by
      rw [decimal, if_neg zero]
      conv_lhs => rw [← dropLast_append_getLast some]
      simp
    have last := Nat.getLast_digit_ne_zero 10 zero
    have small : (Nat.digits 10 n).getLast some < 10 :=
      Nat.digits_lt_base (by decide) (getLast_mem some)
    refine ⟨_, _, split, isDigit_digitChar small, fun same => absurd ?_ last⟩
    have value := congrArg Char.toNat same
    rw [toNat_digitChar small] at value
    have fortyEight : ('0' : Char).toNat = 48 := rfl
    omega

def pad : Nat → Nat → List Char
  | 0, _ => []
  | k + 1, n => pad k (n / 10) ++ [digitChar (n % 10)]

@[simp] theorem length_pad (k n : Nat) : (pad k n).length = k := by
  induction k generalizing n with
  | zero => rfl
  | succ k ih => simp [pad, ih]

theorem isDigit_of_mem_pad (member : c ∈ pad k n) : isDigit c = true := by
  induction k generalizing n with
  | zero => cases member
  | succ k ih =>
    rcases mem_append.mp member with front | last
    · exact ih front
    · rw [mem_singleton.mp last]
      exact isDigit_digitChar (Nat.mod_lt _ (by decide))

theorem readNat_pad (small : n < 10 ^ k) : readNat (pad k n) = n := by
  induction k generalizing n with
  | zero =>
    have zero : n = 0 := by omega
    rw [zero]
    rfl
  | succ k ih =>
    have fits : n / 10 < 10 ^ k := by
      rw [Nat.div_lt_iff_lt_mul (by decide)]
      rwa [Nat.pow_succ] at small
    rw [pad, readNat_snoc, ih fits, toNat_digitChar (Nat.mod_lt _ (by decide))]
    omega

/-- Reads a fixed number of digits. -/
def readPad (k : Nat) (text : List Char) : Option (Nat × List Char) :=
  if (text.take k).length = k ∧ (text.take k).all isDigit = true then
    some (readNat (text.take k), text.drop k)
  else none

theorem readPad_pad (small : n < 10 ^ k) (rest : List Char) :
    readPad k (pad k n ++ rest) = some (n, rest) := by
  have front : (pad k n ++ rest).take k = pad k n := by
    rw [take_append_of_le_length (by simp), take_of_length_le (by simp)]
  have back : (pad k n ++ rest).drop k = rest := by
    rw [drop_append_of_le_length (by simp), drop_of_length_le (by simp), nil_append]
  have digits : (pad k n).all isDigit = true := by
    rw [all_eq_true]
    exact fun c member => isDigit_of_mem_pad member
  rw [readPad, front, back, if_pos ⟨length_pad k n, digits⟩, readNat_pad small]

/-! ### Strings -/

def hexDigit (d : Nat) : Char := if d < 10 then Char.ofNat (48 + d) else Char.ofNat (87 + d)

def hexValue (c : Char) : Option Nat :=
  if 48 ≤ c.toNat ∧ c.toNat ≤ 57 then some (c.toNat - 48)
  else if 97 ≤ c.toNat ∧ c.toNat ≤ 102 then some (c.toNat - 87)
  else if 65 ≤ c.toNat ∧ c.toNat ≤ 70 then some (c.toNat - 55)
  else none

/-- Four hexadecimal digits after `\u`. -/
def hexFour (n : Nat) : List Char :=
  [hexDigit (n / 4096 % 16), hexDigit (n / 256 % 16), hexDigit (n / 16 % 16), hexDigit (n % 16)]

def readHexFour (a b c d : Char) : Option Nat := do
  let a ← hexValue a
  let b ← hexValue b
  let c ← hexValue c
  let d ← hexValue d
  some (((a * 16 + b) * 16 + c) * 16 + d)

theorem hexValue_hexDigit (small : d < 16) : hexValue (hexDigit d) = some d := by
  have all : ∀ d < 16, hexValue (hexDigit d) = some d := by decide
  exact all d small

theorem readHexFour_hexFour (small : n < 65536) :
    readHexFour (hexDigit (n / 4096 % 16)) (hexDigit (n / 256 % 16)) (hexDigit (n / 16 % 16))
      (hexDigit (n % 16)) = some n := by
  simp only [readHexFour, hexValue_hexDigit (Nat.mod_lt _ (by decide : 0 < 16)), Option.bind_eq_bind,
    Option.bind_some, Option.some.injEq]
  omega

/-- Characters that are written as `\u` and their number: control characters without an escape of
their own, the three that HTML gives a meaning, and the two line separators of JavaScript. -/
def hexEscaped (c : Char) : Bool :=
  c.toNat < 32 || c == '<' || c == '>' || c == '&' || c.toNat == 0x2028 || c.toNat == 0x2029

def escape (c : Char) : List Char :=
  if c = '"' then ['\\', '"']
  else if c = '\\' then ['\\', '\\']
  else if c = '\x08' then ['\\', 'b']
  else if c = '\x0c' then ['\\', 'f']
  else if c = '\n' then ['\\', 'n']
  else if c = '\r' then ['\\', 'r']
  else if c = '\t' then ['\\', 't']
  else if hexEscaped c then '\\' :: 'u' :: hexFour c.toNat
  else [c]

def shortEscape : Char → Option Char
  | '"' => some '"'
  | '\\' => some '\\'
  | '/' => some '/'
  | 'b' => some '\x08'
  | 'f' => some '\x0c'
  | 'n' => some '\n'
  | 'r' => some '\r'
  | 't' => some '\t'
  | _ => none

/-- A high surrogate takes the low one that follows it; a surrogate that stands alone is replaced. -/
def joinSurrogates (high : Nat) : List Char → Char × List Char
  | '\\' :: 'u' :: a :: b :: c :: d :: rest =>
    match readHexFour a b c d with
    | some low =>
      if 0xDC00 ≤ low ∧ low < 0xE000 then
        (Char.ofNat (0x10000 + (high - 0xD800) * 1024 + (low - 0xDC00)), rest)
      else ('�', '\\' :: 'u' :: a :: b :: c :: d :: rest)
    | none => ('�', '\\' :: 'u' :: a :: b :: c :: d :: rest)
  | rest => ('�', rest)

/-- One character of a string, which may stand there as an escape. -/
def readChar : List Char → Option (Char × List Char)
  | '\\' :: 'u' :: a :: b :: c :: d :: rest =>
    match readHexFour a b c d with
    | some n =>
      if n < 0xD800 ∨ 0xE000 ≤ n then some (Char.ofNat n, rest)
      else if n < 0xDC00 then some (joinSurrogates n rest)
      else some ('�', rest)
    | none => none
  | '\\' :: e :: rest => (shortEscape e).map fun c => (c, rest)
  | c :: rest => if c.toNat < 32 ∨ c = '"' ∨ c = '\\' then none else some (c, rest)
  | [] => none

theorem toNat_of_hexEscaped (special : hexEscaped c = true) : c.toNat < 0xD800 := by
  simp only [hexEscaped, Bool.or_eq_true, decide_eq_true_eq, beq_iff_eq] at special
  rcases special with ((((control | lt) | gt) | amp) | line) | paragraph
  · omega
  · rw [lt]
    decide
  · rw [gt]
    decide
  · rw [amp]
    decide
  · omega
  · omega

theorem readChar_escape (c : Char) (rest : List Char) :
    readChar (escape c ++ rest) = some (c, rest) := by
  unfold escape
  split
  next quote => rw [quote]; rfl
  split
  next backslash => rw [backslash]; rfl
  split
  next backspace => rw [backspace]; rfl
  split
  next feed => rw [feed]; rfl
  split
  next newline => rw [newline]; rfl
  split
  next carriage => rw [carriage]; rfl
  split
  next tab => rw [tab]; rfl
  split
  next special =>
    -- A character with a number below the surrogates is read back from its four digits.
    have small := toNat_of_hexEscaped special
    have digits := readHexFour_hexFour (n := c.toNat) (by omega)
    simp only [hexFour, cons_append, nil_append, readChar, digits]
    rw [if_pos (Or.inl small), Char.ofNat_toNat]
  next quote backslash _ _ _ _ _ plain =>
    have printable : ¬ c.toNat < 32 := by
      intro control
      exact plain (by simp [hexEscaped, control])
    rw [singleton_append, readChar.eq_def]
    split
    next same => exact absurd (List.cons.inj same).1 backslash
    next same => exact absurd (List.cons.inj same).1 backslash
    next same =>
      obtain ⟨rfl, rfl⟩ := List.cons.inj same
      rw [if_neg]
      rintro (control | isQuote | isBackslash)
      · exact printable control
      · exact quote isQuote
      · exact backslash isBackslash
    next same => cases same

theorem escape_cons (c : Char) : ∃ first more, escape c = first :: more ∧ first ≠ '"' := by
  unfold escape
  repeat' split
  all_goals first
    | exact ⟨_, _, rfl, by decide⟩
    | exact ⟨_, _, rfl, by assumption⟩

/-- The characters up to the closing quote, and what follows it. -/
def unquote : Nat → List Char → Option (List Char × List Char)
  | 0, _ => none
  | fuel + 1, text =>
    match text with
    | '"' :: rest => some ([], rest)
    | _ => do
      let (c, rest) ← readChar text
      let (s, rest) ← unquote fuel rest
      some (c :: s, rest)

def quote (s : List Char) : List Char := '"' :: s.flatMap escape ++ ['"']

theorem unquote_escaped (s : List Char) {fuel : Nat} (enough : s.length < fuel)
    (rest : List Char) : unquote fuel (s.flatMap escape ++ '"' :: rest) = some (s, rest) := by
  induction s generalizing fuel with
  | nil =>
    obtain ⟨fuel, rfl⟩ := Nat.exists_eq_add_of_lt enough
    rfl
  | cons c s ih =>
    obtain ⟨fuel, rfl⟩ : ∃ k, fuel = k + 1 := ⟨fuel - 1, by omega⟩
    have later := @ih fuel (by simpa using enough)
    have here := readChar_escape c (s.flatMap escape ++ '"' :: rest)
    obtain ⟨first, more, shape, other⟩ := escape_cons c
    rw [flatMap_cons, append_assoc]
    rw [shape] at here ⊢
    rw [unquote]
    · simp only [here, later, Option.bind_eq_bind, Option.bind_some]
    · intro rest same
      exact absurd (List.cons.inj same).1 other

theorem length_le_escaped (s : List Char) : s.length ≤ (s.flatMap escape).length := by
  induction s with
  | nil => exact Nat.le_refl 0
  | cons c s ih =>
    obtain ⟨first, more, shape, -⟩ := escape_cons c
    rw [flatMap_cons, shape]
    simp only [length_cons, length_append]
    omega

def readString (text : List Char) : Option (List Char × List Char) := unquote (text.length + 1) text

theorem readString_escaped (s rest : List Char) :
    readString (s.flatMap escape ++ '"' :: rest) = some (s, rest) := by
  apply unquote_escaped
  have := length_le_escaped s
  simp only [length_append]
  omega

/-! ### Integers -/

def integer (n : Int) : List Char :=
  if n < 0 then '-' :: decimal n.natAbs else decimal n.natAbs

def validDigits (digits : List Char) : Bool :=
  !digits.isEmpty && digits.all isDigit && (digits.head? != some '0' || digits.tail.isEmpty)

def readInteger : List Char → Option Int
  | '-' :: digits => if validDigits digits then some (-(readNat digits : Int)) else none
  | digits => if validDigits digits then some (readNat digits) else none

theorem validDigits_decimal (n : Nat) : validDigits (decimal n) = true := by
  obtain ⟨c, rest, shape, -, alone⟩ := decimal_cons n
  have digits : (decimal n).all isDigit = true :=
    all_eq_true.mpr fun c member => isDigit_of_mem_decimal member
  have leading : ((decimal n).head? != some '0' || (decimal n).tail.isEmpty) = true := by
    rw [shape]
    by_cases zero : c = '0'
    · simp [alone zero]
    · simp [zero]
  rw [validDigits, digits, leading, shape]
  rfl

theorem readInteger_integer (n : Int) : readInteger (integer n) = some n := by
  have valid := validDigits_decimal n.natAbs
  unfold integer
  split
  next negative =>
    rw [readInteger, if_pos valid, readNat_decimal]
    congr 1
    omega
  next positive =>
    rw [readInteger]
    · rw [if_pos valid, readNat_decimal]
      congr 1
      omega
    · intro digits minus
      have digit := isDigit_of_mem_decimal (n := n.natAbs) (minus ▸ mem_cons_self)
      exact absurd digit (by decide)

def isNumberChar (c : Char) : Bool := isDigit c || c == '-'

theorem isNumberChar_of_mem_integer {n : Int} (member : c ∈ integer n) : isNumberChar c = true := by
  have digit : c ∈ decimal n.natAbs → isNumberChar c = true := by
    intro inside
    simp [isNumberChar, isDigit_of_mem_decimal inside]
  unfold integer at member
  split at member
  · rcases mem_cons.mp member with rfl | inside
    · rfl
    · exact digit inside
  · exact digit member

/-! ### Values -/

mutual

def Value.render : Value → List Char
  | .null => ['n', 'u', 'l', 'l']
  | .num n => integer n
  | .str s => quote s
  | .obj .nil => ['{', '}']
  | .obj (.cons name value rest) => '{' :: quote name ++ ':' :: value.render ++ rest.render

def Members.render : Members → List Char
  | .nil => ['}']
  | .cons name value rest => ',' :: quote name ++ ':' :: value.render ++ rest.render

end

def isSpace (c : Char) : Bool := c == ' ' || c == '\t' || c == '\n' || c == '\r'

def skip (text : List Char) : List Char := text.dropWhile isSpace

/-- A name and the colon after it. -/
def readName (text : List Char) : Option (List Char × List Char) :=
  match skip text with
  | '"' :: rest => do
    let (name, rest) ← readString rest
    match skip rest with
    | ':' :: rest => some (name, rest)
    | _ => none
  | _ => none

def readNumber (text : List Char) : Option (Value × List Char) :=
  (readInteger (text.takeWhile isNumberChar)).map fun n => (.num n, text.dropWhile isNumberChar)

mutual

def readValue : Nat → List Char → Option (Value × List Char)
  | 0, _ => none
  | fuel + 1, text =>
    match skip text with
    | '{' :: rest =>
      match skip rest with
      | '}' :: rest => some (.obj .nil, rest)
      | rest => do
        let (name, rest) ← readName rest
        let (value, rest) ← readValue fuel rest
        let (members, rest) ← readMembers fuel rest
        some (.obj (.cons name value members), rest)
    | '"' :: rest => do
      let (s, rest) ← readString rest
      some (.str s, rest)
    | 'n' :: 'u' :: 'l' :: 'l' :: rest => some (.null, rest)
    | rest => readNumber rest

def readMembers : Nat → List Char → Option (Members × List Char)
  | 0, _ => none
  | fuel + 1, text =>
    match skip text with
    | '}' :: rest => some (.nil, rest)
    | ',' :: rest => do
      let (name, rest) ← readName rest
      let (value, rest) ← readValue fuel rest
      let (members, rest) ← readMembers fuel rest
      some (.cons name value members, rest)
    | _ => none

end

def parse (text : List Char) : Option Value := do
  let (value, rest) ← readValue (text.length + 1) text
  if skip rest = [] then some value else none

/-- A text that cannot continue a number. -/
def Stops (rest : List Char) : Prop := rest.takeWhile isNumberChar = []

theorem skip_cons (other : isSpace c = false) (rest : List Char) : skip (c :: rest) = c :: rest := by
  simp [skip, other]

theorem quote_append (s rest : List Char) :
    quote s ++ rest = '"' :: (s.flatMap escape ++ '"' :: rest) := by
  simp [quote]

theorem readName_quote (name rest : List Char) :
    readName (quote name ++ ':' :: rest) = some (name, rest) := by
  rw [quote_append, readName, skip_cons (by decide)]
  simp only [readString_escaped, Option.bind_eq_bind, Option.bind_some, skip_cons (c := ':') rfl]

section

variable {literal : List Char} (number : ∀ c ∈ literal, isNumberChar c = true) (stops : Stops rest)
include number stops

theorem takeWhile_stops : (literal ++ rest).takeWhile isNumberChar = literal := by
  rw [takeWhile_append_of_pos number, stops, append_nil]

theorem dropWhile_stops : (literal ++ rest).dropWhile isNumberChar = rest := by
  have whole := takeWhile_append_dropWhile (p := isNumberChar) (l := literal ++ rest)
  rw [takeWhile_stops number stops] at whole
  exact append_cancel_left whole

end

theorem readNumber_integer (n : Int) (stops : Stops rest) :
    readNumber (integer n ++ rest) = some (.num n, rest) := by
  have number : ∀ c ∈ integer n, isNumberChar c = true := fun c => isNumberChar_of_mem_integer
  rw [readNumber, takeWhile_stops number stops, dropWhile_stops number stops, readInteger_integer]
  rfl

theorem integer_cons (n : Int) : ∃ c rest, integer n = c :: rest ∧ (isDigit c = true ∨ c = '-') := by
  unfold integer
  split
  · exact ⟨_, _, rfl, Or.inr rfl⟩
  · obtain ⟨c, rest, shape, digit, -⟩ := decimal_cons n.natAbs
    exact ⟨c, rest, shape, Or.inl digit⟩

theorem readValue_integer (n : Int) (fuel : Nat) (stops : Stops rest) :
    readValue (fuel + 1) (integer n ++ rest) = some (.num n, rest) := by
  have whole := readNumber_integer n stops
  obtain ⟨c, more, shape, start⟩ := integer_cons n
  have distinct : ∀ d : Char, isDigit d = false → d ≠ '-' → c ≠ d := by
    rintro d noDigit noMinus rfl
    rcases start with digit | minus
    · rw [noDigit] at digit
      cases digit
    · exact noMinus minus
  have visible : isSpace c = false := by
    simp only [isSpace, Bool.or_eq_false_iff, beq_eq_false_iff_ne]
    exact ⟨⟨⟨distinct _ rfl (by decide), distinct _ rfl (by decide)⟩, distinct _ rfl (by decide)⟩,
      distinct _ rfl (by decide)⟩
  rw [shape, cons_append] at whole ⊢
  rw [readValue, skip_cons visible]
  split
  next same => exact absurd (List.cons.inj same).1 (distinct _ rfl (by decide))
  next same => exact absurd (List.cons.inj same).1 (distinct _ rfl (by decide))
  next same => exact absurd (List.cons.inj same).1 (distinct _ rfl (by decide))
  next => exact whole

theorem Members.stops_render (members : Members) (rest : List Char) :
    Stops (members.render ++ rest) := by
  cases members with
  | nil => rfl
  | cons name value more => rfl

mutual

def Value.depth : Value → Nat
  | .null => 1
  | .num _ => 1
  | .str _ => 1
  | .obj members => members.depth + 1

def Members.depth : Members → Nat
  | .nil => 1
  | .cons _ value rest => value.depth + rest.depth + 1

end

mutual

theorem readValue_render : ∀ (value : Value) (fuel : Nat) (rest : List Char), value.depth ≤ fuel →
    Stops rest → readValue fuel (value.render ++ rest) = some (value, rest)
  | .null, fuel + 1, rest, _, _ => rfl
  | .num n, fuel + 1, rest, _, stops => readValue_integer n fuel stops
  | .str s, fuel + 1, rest, _, _ => by
    rw [Value.render, quote_append, readValue, skip_cons (by decide)]
    simp only [readString_escaped, Option.bind_eq_bind, Option.bind_some]
  | .obj .nil, fuel + 1, rest, _, _ => rfl
  | .obj (.cons name value members), fuel + 1, rest, enough, stops => by
    have deep : value.depth + members.depth + 1 ≤ fuel := by
      simpa only [Value.depth, Members.depth, Nat.add_le_add_iff_right] using enough
    have first := readValue_render value fuel (members.render ++ rest) (by omega)
      (members.stops_render rest)
    have others := readMembers_render members fuel rest (by omega) stops
    have named := readName_quote name (value.render ++ (members.render ++ rest))
    rw [quote_append] at named
    rw [Value.render]
    simp only [cons_append, append_assoc, quote_append]
    rw [readValue, skip_cons (by decide)]
    simp only [skip_cons (c := '"') rfl]
    split
    next same => exact absurd (List.cons.inj same).1 (by decide)
    next => simp only [named, first, others, Option.bind_eq_bind, Option.bind_some]
  | .null, 0, _, enough, _ => absurd enough (by decide)
  | .num _, 0, _, enough, _ => absurd enough (by simp [Value.depth])
  | .str _, 0, _, enough, _ => absurd enough (by simp [Value.depth])
  | .obj _, 0, _, enough, _ => absurd enough (by simp [Value.depth])

theorem readMembers_render : ∀ (members : Members) (fuel : Nat) (rest : List Char),
    members.depth ≤ fuel → Stops rest →
    readMembers fuel (members.render ++ rest) = some (members, rest)
  | .nil, fuel + 1, rest, _, _ => rfl
  | .cons name value members, fuel + 1, rest, enough, stops => by
    have deep : value.depth + members.depth ≤ fuel := by
      simpa only [Members.depth, Nat.add_le_add_iff_right] using enough
    have first := readValue_render value fuel (members.render ++ rest) (by omega)
      (members.stops_render rest)
    have others := readMembers_render members fuel rest (by omega) stops
    have named := readName_quote name (value.render ++ (members.render ++ rest))
    rw [quote_append] at named
    rw [Members.render]
    simp only [cons_append, append_assoc, quote_append]
    rw [readMembers, skip_cons (by decide)]
    simp only [named, first, others, Option.bind_eq_bind, Option.bind_some]
  | .nil, 0, _, enough, _ => absurd enough (by decide)
  | .cons _ _ _, 0, _, enough, _ => absurd enough (by simp [Members.depth])

end

mutual

/-- A text is at least as long as its value is deep, so its length is fuel enough. -/
theorem Value.depth_le : ∀ value : Value, value.depth ≤ value.render.length
  | .null => by decide
  | .num n => by
    obtain ⟨c, more, shape, -⟩ := integer_cons n
    simp [Value.depth, Value.render, shape]
  | .str s => by simp [Value.depth, Value.render, quote]
  | .obj .nil => by decide
  | .obj (.cons name value members) => by
    have first := Value.depth_le value
    have others := Members.depth_le members
    simp only [Value.depth, Members.depth, Value.render, quote, length_cons, length_append]
    omega

theorem Members.depth_le : ∀ members : Members, members.depth ≤ members.render.length
  | .nil => by decide
  | .cons name value members => by
    have first := Value.depth_le value
    have others := Members.depth_le members
    simp only [Members.depth, Members.render, quote, length_cons, length_append]
    omega

end

theorem parse_render (value : Value) : parse value.render = some value := by
  have read := readValue_render value (value.render.length + 1) []
    (Nat.le_succ_of_le value.depth_le) rfl
  rw [append_nil] at read
  rw [parse, read]
  rfl

end Foundation.Json
