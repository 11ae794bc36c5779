import WalletRouting.Number.Basic
import WalletRouting.Number.Power

/-! # Seeded draws

A generator is a seed and the number of words drawn so far. Word after word, its 32-bit state moves on by
the same odd constant and is scrambled into the word, so a stream is a position on one cycle through all
states. Whatever is decided by chance goes through `Generator.next`; the methods below differ only in what
they make of the word.
-/
namespace WalletRouting
set_option autoImplicit false

structure Generator where
  seed : Int
  drawn : Nat
  deriving DecidableEq, Repr

namespace Generator

def increment : Int := 0x6D2B79F5

def ofSeed (seed : Int) : Generator := ⟨seed, 0⟩

def reset (g : Generator) : Generator := ofSeed g.seed

/-- The state after the words drawn so far, modulo `2 ^ 32`. -/
def state (g : Generator) : UInt32 := UInt32.ofNat ((g.seed + g.drawn * increment) % 4294967296).toNat

def scramble (s : UInt32) : UInt32 :=
  let t := (s ^^^ (s >>> 15)) * (s ||| 1)
  let t := t ^^^ (t + (t ^^^ (t >>> 7)) * (t ||| 61))
  t ^^^ (t >>> 14)

def advance (g : Generator) : Generator := ⟨g.seed, g.drawn + 1⟩

def next (g : Generator) : UInt32 × Generator := (scramble g.advance.state, g.advance)

@[simp] theorem next_seed (g : Generator) : g.next.2.seed = g.seed := rfl

@[simp] theorem next_drawn (g : Generator) : g.next.2.drawn = g.drawn + 1 := rfl

def unitOf (word : UInt32) : Double := Float.ofNat word.toNat / 4294967296.0

/-- A double in `[0, 1)`. -/
def unit (g : Generator) : Double × Generator := (unitOf g.next.1, g.next.2)

/-- A whole number of steps above the lower bound, both bounds included. -/
def wholeBetween (low high : Number) (g : Generator) : Except NumberError Number × Generator :=
  let (u, g) := g.unit
  (do
    let span ← (← high.minus low).plus (.int 1)
    let steps ← Double.floor (u * (← span.double))
    low.plus (.int steps), g)

def doubleBetween (low high : Number) (g : Generator) : Except NumberError Double × Generator :=
  let (u, g) := g.unit
  (do return u * (← (← high.minus low).double) + (← low.double), g)

def chance (probability : Number) (g : Generator) : Bool × Generator :=
  let (u, g) := g.unit
  ((Number.float u).below probability, g)

/-- A position below `length`, or zero if there is none. -/
def position (length : Nat) (g : Generator) : Nat × Generator :=
  let (u, g) := g.unit
  (((Double.floor? (u * Float.ofNat length)).getD 0).toNat, g)

/-- An element; the draw is spent also when there is nothing to pick. -/
def pick {α : Type} (items : List α) (g : Generator) : Option α × Generator :=
  let (i, g) := g.position items.length
  (items[i]?, g)

def swap {α : Type} (items : List α) (i j : Nat) : List α :=
  match items[i]?, items[j]? with
  | some a, some b => (items.set i b).set j a
  | _, _ => items

/-- Exchanges position `i` with one at or before it, then goes on below `i`. -/
def shuffleBelow {α : Type} : Nat → List α → Generator → List α × Generator
  | 0, items, g => (items, g)
  | i + 1, items, g =>
    let (j, g) := g.position (i + 2)
    shuffleBelow i (swap items (i + 1) j) g

def shuffle {α : Type} (items : List α) (g : Generator) : List α × Generator :=
  shuffleBelow (items.length - 1) items g

/-- Milliseconds between the bounds; the draw is raised to a power below one first, which favours long ones. -/
def latency (low high : Number) (g : Generator) : Except NumberError Int × Generator :=
  let (word, g) := g.next
  (do
    let span ← (← high.minus low).double
    Double.floor ((← low.double) + Power.ofUnit word.toNat * span + 0.5), g)

def hexDigits : List Char :=
  ['0', '1', '2', '3', '4', '5', '6', '7', '8', '9', 'a', 'b', 'c', 'd', 'e', 'f']

/-- Places before which a correlation id has a dash, counted in digits. -/
def dashPlaces : List Nat := [8, 12, 16, 20]

def correlationDigits : Nat → Nat → Generator → List Char × Generator
  | 0, _, g => ([], g)
  | count + 1, place, g =>
    let (i, g) := g.position 16
    let (rest, g) := correlationDigits count (place + 1) g
    let digit := hexDigits.getD i '0'
    (if dashPlaces.contains place then '-' :: digit :: rest else digit :: rest, g)

/-- Thirty-two hexadecimal digits in five groups. -/
def correlationId (g : Generator) : String × Generator :=
  let (chars, g) := correlationDigits 32 0 g
  (String.ofList chars, g)

/-- A score around `base`, kept within `[0, 100]`. -/
def scoreAround (base variance : Number) (g : Generator) : Except NumberError Double × Generator :=
  let (u, g) := g.unit
  (do
    let adjustment := (u - 0.5) * 2.0 * (← variance.double)
    return Double.clamp 0.0 100.0 ((← base.double) + adjustment), g)

/-- A hundredth; an integer is divided exactly before it is rounded. -/
def hundredth : Number → Except NumberError Double
  | .int n =>
    let x := Float.ofScientific n.natAbs true 2
    if Double.finite x then .ok (if n < 0 then -x else x) else .error .tooLarge
  | .float x => .ok (x / 100.0)

/-- A probability around four fifths of the score's hundredth, kept within `[0, 1]`. Nothing is drawn for a score
that has no hundredth. -/
def declineAround (score : Number) (g : Generator) : Except NumberError Double × Generator :=
  match hundredth score with
  | .error e => (.error e, g)
  | .ok base =>
    let (u, g) := g.unit
    (.ok (Double.clamp 0.0 1.0 (base * 0.8 + (u * 0.1 - 0.05))), g)

/-- Approval: the draw lies strictly above the probability of a decline. -/
def approves (declineProbability : Number) (g : Generator) : Bool × Generator :=
  let (u, g) := g.unit
  (declineProbability.below (.float u), g)

/-- Seeds that are not given lie in `[0, largestSeed]`. -/
def largestSeed : Int := 2147483647

def freshSeed (systemDraw : Number) : Except NumberError Int := do (← systemDraw.times (.int largestSeed)).floor

end Generator

end WalletRouting
