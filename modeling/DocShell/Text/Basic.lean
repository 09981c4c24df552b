import DocShell.Text.Ranges

set_option autoImplicit false

/-! # Text as a list of characters

Text is read as `List Char`; a reader hands on the characters it has not read. A place in a
text is told by the number of UTF-8 bytes before it, so that a tail `rest` of `text` begins at
`size text - size rest`. White space is the Unicode property of that name, and control
characters are those of the general category Cc.
-/

namespace DocShell.Text

/-! ## Sizes and places -/

/-- The number of bytes of the text in UTF-8. -/
def size : List Char → Nat
  | [] => 0
  | c :: cs => c.utf8Size + size cs

@[simp] theorem size_nil : size [] = 0 := rfl

@[simp] theorem size_cons (c : Char) (cs : List Char) : size (c :: cs) = c.utf8Size + size cs :=
  rfl

@[simp] theorem size_append (cs ds : List Char) : size (cs ++ ds) = size cs + size ds := by
  induction cs with
  | nil => simp
  | cons c cs ih => simp [ih, Nat.add_assoc]

/-- Where the tail `rest` begins in `text`, in bytes. -/
def offsetOf (text rest : List Char) : Nat :=
  size text - size rest

/-- A tail begins where the text before it ends. -/
theorem offsetOf_append (before rest : List Char) :
    offsetOf (before ++ rest) rest = size before := by
  simp [offsetOf]

/-! ## Pieces -/

/-- The pieces of a text between the places where a certain character stands. There is always
one piece more than there are such places. -/
def pieces (mark : Char) : List Char → List (List Char)
  | [] => [[]]
  | c :: cs =>
    if c = mark then [] :: pieces mark cs
    else
      match pieces mark cs with
      | [] => [[c]]
      | piece :: more => (c :: piece) :: more

/-! ## White space -/

/-- White space beyond ASCII. -/
def spaceRanges : Ranges := [
    (0x0085, 0x0085), (0x00A0, 0x00A0), (0x1680, 0x1680), (0x2000, 0x200A), (0x2028, 0x2029),
    (0x202F, 0x202F), (0x205F, 0x205F), (0x3000, 0x3000)]

/-- White space: blank, tab, line feed, vertical tab, form feed, carriage return, and the
separators beyond ASCII. -/
def isSpace (c : Char) : Bool :=
  c == ' ' || (0x09 ≤ c.toNat && c.toNat ≤ 0x0D) || spaceRanges.covers c

/-- Whether the text holds white space only. -/
def isBlank (cs : List Char) : Bool :=
  cs.all isSpace

/-- The text without the white space it begins with. -/
def trimStart (cs : List Char) : List Char :=
  cs.dropWhile isSpace

/-- The text without the white space it ends with. -/
def trimEnd (cs : List Char) : List Char :=
  (cs.reverse.dropWhile isSpace).reverse

/-- The text without the white space around it. -/
def trim (cs : List Char) : List Char :=
  trimEnd (trimStart cs)

theorem length_trimStart_le (cs : List Char) : (trimStart cs).length ≤ cs.length :=
  (List.dropWhile_suffix _).length_le

theorem length_le_of_trimStart_eq_cons {cs rest : List Char} {c : Char}
    (h : trimStart cs = c :: rest) : (c :: rest).length ≤ cs.length :=
  h ▸ length_trimStart_le cs

/-! ## Control characters -/

/-- Control characters: `0x00` to `0x1F` and `0x7F` to `0x9F`. -/
def isControl (c : Char) : Bool :=
  c.toNat < 0x20 || (0x7F ≤ c.toNat && c.toNat ≤ 0x9F)

/-! ## Digits -/

/-- The value of an ASCII hexadecimal digit of either case. -/
def hexValue? (c : Char) : Option Nat :=
  if c.isDigit then some (c.toNat - 0x30)
  else if 'a' ≤ c ∧ c ≤ 'f' then some (c.toNat - 0x61 + 10)
  else if 'A' ≤ c ∧ c ≤ 'F' then some (c.toNat - 0x41 + 10)
  else none

/-- Whether `c` is an ASCII hexadecimal digit of either case. -/
def isHex (c : Char) : Bool :=
  (hexValue? c).isSome

/-- The lower case hexadecimal digit of a value below sixteen. -/
def hexDigit (n : Nat) : Char :=
  if n < 10 then Char.ofNat (0x30 + n) else Char.ofNat (0x61 + n - 10)

/-- A digit stands for the value it was written for. -/
theorem hexValue?_hexDigit {n : Nat} (h : n < 16) : hexValue? (hexDigit n) = some n := by
  have all : ∀ m ∈ List.range 16, hexValue? (hexDigit m) = some m := by decide
  exact all n (List.mem_range.mpr h)

/-- The number that `count` hexadecimal digits at the beginning of the text stand for. -/
def hexNumber? (count : Nat) (cs : List Char) : Option Nat :=
  let digits := cs.take count
  if digits.length = count ∧ digits.all isHex = true then
    some (digits.foldl (fun n d => 16 * n + (hexValue? d).getD 0) 0)
  else none

/-- The last `width` hexadecimal digits of `n`, most significant first. -/
def hexPadded : (width : Nat) → (n : Nat) → List Char
  | 0, _ => []
  | width + 1, n => hexPadded width (n / 16) ++ [hexDigit (n % 16)]

/-- The decimal digits of `n`. -/
def decimal (n : Nat) : List Char :=
  Nat.toDigits 10 n

/-- The decimal digits of an integer, after a minus sign if it is negative. -/
def decimalInt (i : Int) : List Char :=
  if i < 0 then '-' :: decimal i.natAbs else decimal i.natAbs

/-- The number a list of decimal digits stands for. -/
def decimalValue (digits : List Char) : Nat :=
  digits.foldl (fun n d => 10 * n + (d.toNat - 0x30)) 0

end DocShell.Text
