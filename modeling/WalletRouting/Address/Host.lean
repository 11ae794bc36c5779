import WalletRouting.Address.Escape
import WalletRouting.Address.Label
import WalletRouting.Text.Lower
import WalletRouting.Text.Character

/-! # Hosts

A host is a number of four octets, a number of eight groups between brackets, or a name. What looks like a number
of four octets has to be one. Names are in small letters; one that is not ASCII is written in the ASCII form that
registries know it by.
-/
namespace WalletRouting
set_option autoImplicit false

namespace Address

def isDigit (point : Nat) : Bool := 48 ≤ point && point ≤ 57

/-- Places in a text of four groups of digits with one character of any kind between groups: the groups before, and
whether the group has begun. -/
def groupPlaces : List (Nat × Bool) := (List.range 4).flatMap fun n => [(n, false), (n, true)]

def nextPlaces (places : List (Nat × Bool)) (point : Nat) : List (Nat × Bool) :=
  groupPlaces.filter fun (n, begun) =>
    if begun then isDigit point && (places.contains (n, false) || places.contains (n, true))
    else 0 < n && places.contains (n - 1, true)

def looksNumeric (host : List Nat) : Bool := (host.foldl nextPlaces [(0, false)]).contains (3, true)

/-- A number below 256 without zeros in front. -/
def isOctet (points : List Nat) : Bool :=
  !points.isEmpty && points.length ≤ 3 && points.all isDigit && (points.length = 1 || points.head? ≠ some 48) &&
    points.foldl (fun n p => n * 10 + (p - 48)) 0 < 256

def isFourOctets (points : List Nat) : Bool :=
  let parts := Text.pieces 46 points
  parts.length = 4 && parts.all isOctet

def isGroup (points : List Nat) : Bool := !points.isEmpty && points.length ≤ 4 && points.all isHex

/-- The parts of a number of eight groups; four octets at its end stand for two groups. -/
def groupParts? (points : List Nat) : Option (List (List Nat)) :=
  let parts := Text.pieces 58 points
  match parts.getLast? with
  | some last =>
    if parts.length < 3 then none
    else if last.contains 46 then (if isFourOctets last then some (parts.dropLast ++ [[48], [48]]) else none)
    else some parts
  | none => none

/-- How many groups stand before a gap, given the parts before it; an empty part may only stand beside the gap. -/
def groupsBeside (parts : List (List Nat)) : Option (List (List Nat)) :=
  match parts with
  | [] :: rest => if rest.isEmpty then some [] else none
  | parts => some parts

/-- Eight groups, or fewer with one gap that stands for at least one group of zero. -/
def areEightGroups (parts : List (List Nat)) : Bool :=
  let inner := parts.drop 1 |>.dropLast
  match inner.takeWhile (!·.isEmpty), inner.dropWhile (!·.isEmpty) with
  | before, _ :: after =>
    if after.any (·.isEmpty) then false
    else
      match groupsBeside (parts.take 1 ++ before), groupsBeside ((parts.drop (parts.length - 1)) ++ after.reverse) with
      | some high, some low => high.length + low.length < 8 && high.all isGroup && low.all isGroup
      | _, _ => false
  | _, [] => parts.length = 8 && parts.all isGroup

/-- A number of eight groups; a zone may follow it. -/
def isEightGroups (points : List Nat) : Bool :=
  let number := points.takeWhile (· ≠ 37)
  let zone := points.dropWhile (· ≠ 37)
  (zone.isEmpty || (1 < zone.length && !((zone.drop 1).contains 37))) &&
    match groupParts? number with
    | some parts => parts.length ≤ 9 && areEightGroups parts
    | none => false

def isBracketed (host : List Nat) : Bool := 1 < host.length && host.head? = some 91 && host.getLast? = some 93

def lowerPoints (points : List Nat) : List Nat := Text.pointsOf (Text.lower (Text.ofPoints points))

/-- A host as it is written in an address, though without brackets. -/
def hostText (host : List Nat) : Except AddressError String :=
  if host.isEmpty then .ok ""
  else if looksNumeric host then
    if isFourOctets host then .ok (Text.ofPoints host) else .error .malformed
  else if isBracketed host then
    let number := (host.drop 1).dropLast
    if isEightGroups number then .ok (Text.ofPoints number) else .error .malformed
  else if host.all (· < 128) then (escape staysInHost (lowerPoints host)).map String.ofList
  else
    match asciiName? (lowerPoints host) with
    | some name => .ok (String.ofList name)
    | none => .error .malformed

end Address

end WalletRouting
