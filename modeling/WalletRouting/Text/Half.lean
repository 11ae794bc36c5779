/-! # Points of a text

JSON can name half of a surrogate pair, and no character is one. A text is therefore a sequence of points, each of them
a character or such a half. A half is written as a private character, its stand-in; where a text means one of those
private characters itself, a mark stands before it. So texts are equal exactly if their points are, while length, order,
position and containment have to be asked of the points. Nothing that has to be sent as UTF-8 may hold a half.
-/
namespace WalletRouting
set_option autoImplicit false

namespace Text

def firstHalf : Nat := 0xD800

def lastHalf : Nat := 0xDFFF

def lastPlane : Nat := 0x100000

def isHalf (point : Nat) : Bool := decide (firstHalf ≤ point ∧ point ≤ lastHalf)

/-- The character that stands for a half. -/
def standIn (half : Nat) : Char := Char.ofNat (lastPlane + half)

/-- Stands before a private character that is meant itself. -/
def mark : Char := Char.ofNat 0x10E000

/-- Whether a character stands for a half, or is the mark. -/
def isReserved (point : Nat) : Bool := decide (lastPlane + firstHalf ≤ point ∧ point ≤ mark.toNat)

def ofPoint (point : Nat) : List Char :=
  if isHalf point then [standIn point]
  else if isReserved point then [mark, Char.ofNat point]
  else [Char.ofNat point]

def ofPoints (points : List Nat) : String := String.ofList (points.flatMap ofPoint)

/-- The point that a character writes by itself. -/
def pointOf (c : Char) : Nat := if isReserved c.toNat then c.toNat - lastPlane else c.toNat

def pointsOf : List Char → List Nat
  | [] => []
  | [c] => if c = mark then [] else [pointOf c]
  | c :: d :: rest => if c = mark then d.toNat :: pointsOf rest else pointOf c :: pointsOf (d :: rest)

def points (s : String) : List Nat := pointsOf s.toList

/-- A text of characters that are all meant themselves. -/
def ofChars (chars : List Char) : String := ofPoints (chars.map Char.toNat)

/-- The characters of a text that holds no half. -/
def chars (s : String) : List Char := (points s).map Char.ofNat

/-- The points of a text, each as a text of its own. -/
def elements (s : String) : List String := (points s).map fun point => ofPoints [point]

def isWhole (s : String) : Bool := (points s).all fun point => !(isHalf point)

/-- The part of a text that begins after `start` points and holds `count` of them at most. -/
def part (start count : Nat) (s : String) : String := ofPoints (((points s).drop start).take count)

def precedes : List Nat → List Nat → Bool
  | _, [] => false
  | [], _ :: _ => true
  | a :: rest, b :: others => a < b || (a == b && precedes rest others)

def before (a b : String) : Bool := precedes (points a) (points b)

/-- A text that reads as another one does, and equals no text that is read: a mark at the end stands before nothing. -/
def aside (s : String) : String := s.push mark

/-- What is written for a half where texts have to be whole: a replacement character for each of its three bytes. -/
def replacements : List Char := ['\ufffd', '\ufffd', '\ufffd']

def mended (s : String) : String :=
  String.ofList ((points s).flatMap fun point => if isHalf point then replacements else ofPoint point)

theorem toNat_ofNat {n : Nat} (valid : n.isValidChar) : (Char.ofNat n).toNat = n := by
  rw [Char.ofNat, dif_pos valid]
  rfl

theorem mark_toNat : mark.toNat = 0x10E000 := by decide

theorem ofNat_ne_mark {n : Nat} (valid : n.isValidChar) (other : n ≠ 0x10E000) : Char.ofNat n ≠ mark := fun same =>
  other (by rw [← toNat_ofNat valid, same, mark_toNat])

theorem pointsOf_cons {c : Char} (h : c ≠ mark) (rest : List Char) :
    pointsOf (c :: rest) = pointOf c :: pointsOf rest := by
  cases rest with
  | nil => simp [pointsOf, h]
  | cons d rest => rw [pointsOf, if_neg h]

theorem isHalf_iff {point : Nat} : isHalf point = true ↔ 0xD800 ≤ point ∧ point ≤ 0xDFFF := decide_eq_true_iff

theorem isReserved_iff {point : Nat} : isReserved point = true ↔ 0x10D800 ≤ point ∧ point ≤ 0x10E000 :=
  decide_eq_true_iff

/-- A point that is written is read again, whatever follows it. -/
theorem pointsOf_ofPoint {point : Nat} (h : point < 0x110000) (rest : List Char) :
    pointsOf (ofPoint point ++ rest) = point :: pointsOf rest := by
  unfold ofPoint
  split
  · rename_i half
    rw [isHalf_iff] at half
    have valid : (0x100000 + point).isValidChar := by unfold Nat.isValidChar; omega
    have number : (standIn point).toNat = 0x100000 + point := toNat_ofNat valid
    have reserved : isReserved (standIn point).toNat = true := by rw [isReserved_iff, number]; omega
    have other : standIn point ≠ mark := ofNat_ne_mark (n := 0x100000 + point) valid (by omega)
    rw [List.singleton_append, pointsOf_cons other, pointOf, if_pos reserved, number,
      show 0x100000 + point - lastPlane = point from Nat.add_sub_cancel_left ..]
  · rename_i half
    rw [isHalf_iff] at half
    have valid : point.isValidChar := by unfold Nat.isValidChar; omega
    split
    · rw [List.cons_append, List.singleton_append, pointsOf, if_pos rfl, toNat_ofNat valid]
    · rename_i reserved
      have plain := reserved
      rw [isReserved_iff] at plain
      rw [List.singleton_append, pointsOf_cons (ofNat_ne_mark valid (by omega)), pointOf, toNat_ofNat valid,
        if_neg reserved]

/-- A text holds the points it was made of. -/
theorem points_ofPoints {points : List Nat} (h : ∀ point ∈ points, point < 0x110000) :
    Text.points (ofPoints points) = points := by
  simp only [Text.points, ofPoints, String.toList_ofList]
  induction points with
  | nil => rfl
  | cons point rest ih =>
    rw [List.flatMap_cons, pointsOf_ofPoint (h point (by simp)), ih fun p hp => h p (by simp [hp])]

end Text

end WalletRouting
