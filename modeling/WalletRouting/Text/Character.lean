/-! # Characters and pieces of text

A set of code points is the ascending list of the places where membership changes. White space is the Unicode property
White_Space, and a wider set to which the four separators among the control characters belong as well. Decimal digits are
those of the Unicode 14 category; every script that has them has all ten, side by side and in order.
-/
namespace WalletRouting
set_option autoImplicit false

namespace Text

/-! ## Sets of characters -/

/-- A code point belongs to the set iff an odd number of changes lie at or before it. -/
def inRuns (changes : List Nat) (n : Nat) : Bool :=
  match changes with
  | [] => false
  | c :: rest => if c ≤ n then !(inRuns rest n) else false

/-! ## White space -/

def blankRuns : List Nat :=
  [9, 14, 32, 33, 133, 134, 160, 161, 5760, 5761, 8192, 8203, 8232, 8234, 8239, 8240, 8287, 8288, 12288, 12289]

def isBlank (c : Char) : Bool := inRuns blankRuns c.toNat

/-- A blank, or a separator between files, groups, records or units. -/
def isSpace (c : Char) : Bool := isBlank c || inRuns [28, 32] c.toNat

def trimBy (isOut : Char → Bool) (chars : List Char) : List Char :=
  ((chars.dropWhile isOut).reverse.dropWhile isOut).reverse

def trim (chars : List Char) : List Char := trimBy isBlank chars

def strip (chars : List Char) : List Char := trimBy isSpace chars

/-! ## Decimal digits -/

/-- Where the digits of each script begin. -/
def digitZeros : List Nat :=
  [48, 1632, 1776, 1984, 2406, 2534, 2662, 2790, 2918, 3046, 3174, 3302, 3430, 3558, 3664, 3792, 3872, 4160, 4240,
   6112, 6160, 6470, 6608, 6784, 6800, 6992, 7088, 7232, 7248, 42528, 43216, 43264, 43472, 43504, 43600, 44016,
   65296, 66720, 68912, 69734, 69872, 69942, 70096, 70384, 70736, 70864, 71248, 71360, 71472, 71904, 72016, 72784,
   73040, 73120, 92768, 92864, 93008, 120782, 120792, 120802, 120812, 120822, 123200, 123632, 125264, 130032]

def digit? (c : Char) : Option Nat :=
  (digitZeros.find? fun start => start ≤ c.toNat ∧ c.toNat < start + 10).map fun start => c.toNat - start

/-- What digits count together, the first of them most. -/
def digits? (chars : List Char) : Option Nat :=
  (chars.mapM digit?).map fun counts => counts.foldl (fun n d => n * 10 + d) 0

/-! ## Pieces -/

variable {α : Type} [DecidableEq α]

/-- A list cut at every separator; there is one more piece than there are separators. -/
def pieces (separator : α) : List α → List (List α)
  | [] => [[]]
  | c :: rest =>
    if c = separator then [] :: pieces separator rest
    else
      match pieces separator rest with
      | [] => [[c]]
      | first :: others => (c :: first) :: others

def joined (separator : α) (pieces : List (List α)) : List α := (pieces.intersperse [separator]).flatten

end Text

end WalletRouting
