import WalletRouting.Draws
import WalletRouting.Policy.Baseline
import WalletRouting.Policy.Snippet
import WalletRouting.Policy.Validity

/-! # The policy registry

A registry holds versions of the policy, a name for the current one and perhaps a pinned name, which wins. Names
may point at no version; what then cannot be answered is an error, never a default.
-/
namespace WalletRouting
set_option autoImplicit false

/-- A clock is the sequence of its readings, in milliseconds, and how many were taken. -/
structure Clock where
  reading : Nat → Number
  taken : Nat

namespace Clock

def now (c : Clock) : Number := c.reading c.taken

def tick (c : Clock) : Clock := { c with taken := c.taken + 1 }

def steady (start step : Number) : Clock := ⟨fun k => start.add (step.scale k), 0⟩

end Clock

/-- What a registry is opened with, and returns to. Without versions it holds the baseline. The name of the current
version, and of the one that is current among the baseline versions, may be given in any form. -/
structure Origin where
  versions : Option (List PolicyVersion)
  current : Value
  defaultVersion : Value
  deriving Repr

structure Registry where
  origin : Origin
  versions : List PolicyVersion
  /-- What the current version is called. -/
  currentAs : Value
  pinned : Option String
  lastFetched : Number
  deriving Repr

inductive RegistryError where
  | unknownVersion (version : String)
  | unknownPin (version : String)
  | unknownRule (id version : String)
  | duplicateRule (id version : String)
  | invalidRule (id : String) (defects : List Defect)
  | malformedRule (issues : List Schema.Issue)
  | unwritable (e : WriteError)
  deriving Repr

def RegistryError.message : RegistryError → String
  | .unknownVersion version => "Policy version " ++ version ++ " not found"
  | .unknownPin version => "Cannot pin unknown version: " ++ version
  | .unknownRule id version => "Rule " ++ id ++ " not found in policy " ++ version
  | .duplicateRule id version => "Rule " ++ id ++ " already exists in " ++ version
  | .invalidRule id _ => "Rule " ++ (if id = "" then "<unnamed>" else id) ++ " is invalid"
  | .malformedRule issues => Schema.summary "Rule" issues
  | .unwritable .tooDeep => "Circular reference detected (depth exceeded)"
  | .unwritable .unwritable => "Unable to serialize unknown type"
  | .unwritable .brokenName => "surrogates not allowed"

namespace Registry

/-- The name that a value says. One that is no text reads as its text does, and no version is of that name. -/
def nameOf : Value → String
  | .text s => s
  | v => Text.aside v.nested

/-- The first of the names that there is something to, else the last version's, else none at all. -/
def currentOf (names : List Value) (versions : List PolicyVersion) : Value :=
  match names.find? Value.isPresent with
  | some name => name
  | none =>
    match versions.getLast? with
    | some p => .text p.version
    | none => .text ""

def current (r : Registry) : String := nameOf r.currentAs

/-- What the dates of an origin's versions have against the time at which it is opened. -/
def issues (o : Origin) (c : Clock) : List Schema.Issue :=
  match o.versions with
  | some _ => []
  | none => Baseline.issues c.now

/-- A registry as it is opened. Baseline versions take a reading of their own for their dates. -/
def load (o : Origin) (c : Clock) : Registry × Clock :=
  match o.versions with
  | some versions => (⟨o, versions, currentOf [o.current] versions, none, c.now⟩, c.tick)
  | none =>
    let versions := Baseline.versions c.now
    (⟨o, versions, currentOf [o.current, o.defaultVersion] versions, none, c.tick.now⟩, c.tick.tick)

def reset (r : Registry) (c : Clock) : Registry × Clock := load r.origin c

def find (version : String) (r : Registry) : Except RegistryError PolicyVersion :=
  match r.versions.find? fun p => p.version = version with
  | some p => .ok p
  | none => .error (.unknownVersion version)

def isPinned (r : Registry) : Bool := r.pinned.isSome

/-- The name that is in force; an empty pin counts for nothing. -/
def activeName (r : Registry) : String :=
  match r.pinned with
  | some name => if name = "" then r.current else name
  | none => r.current

def active (r : Registry) : Except RegistryError PolicyVersion := r.find r.activeName

def pin (version : Option String) (r : Registry) : Except RegistryError Registry :=
  match version with
  | none => .ok { r with pinned := none }
  | some name =>
    if r.versions.any fun p => p.version = name then .ok { r with pinned := some name }
    else .error (.unknownPin name)

def replaceFirst (version : String) (f : PolicyVersion → PolicyVersion) : List PolicyVersion → List PolicyVersion
  | [] => []
  | p :: rest => if p.version = version then f p :: rest else p :: replaceFirst version f rest

def markCached (version : String) (mark : Value) (r : Registry) : Except RegistryError Registry := do
  let _ ← r.find version
  return { r with versions := replaceFirst version (PolicyVersion.markCached mark) r.versions }

def setCached (version : String) (cached : Bool) (r : Registry) : Except RegistryError Registry :=
  r.markCached version (.bool cached)

/-- The part of a range that a fetch may take; a cached version stays in its fastest three tenths. -/
def fetchSpan (cached : Bool) (low high : Number) : Except NumberError Number := do
  let range ← high.minus low
  if cached then range.times (.float 0.3) else return range

def fetchLatency (cached : Bool) (low high : Number) (g : Generator) : Except NumberError Int × Generator :=
  match fetchSpan cached low high with
  | .error e => (.error e, g)
  | .ok span =>
    let (u, g) := g.unit
    (do Double.floor ((← low.double) + u * (← span.double) + 0.5), g)

def fetchedAt (now : Number) (r : Registry) : Registry := { r with lastFetched := now }

end Registry

end WalletRouting
