import WalletRouting.Proofs.Registry.Changes

/-! # How far an edit reaches

An edit of rules reaches the first version of the current name and no other, and there it changes the rules and their
signature. Looking a version up by another name does not tell a registry that was edited from the one it was before.
-/
namespace WalletRouting
set_option autoImplicit false

namespace Registry

variable {version name : String} {f : PolicyVersion → PolicyVersion} {versions : List PolicyVersion}

theorem getElem?_replaceFirst (version : String) (f : PolicyVersion → PolicyVersion) (versions : List PolicyVersion)
    (i : Nat) :
    (replaceFirst version f versions)[i]? =
      if i = versions.findIdx (fun p => p.version = version) then versions[i]?.map f else versions[i]? := by
  induction versions generalizing i with
  | nil => simp [replaceFirst]
  | cons p rest ih =>
    by_cases hname : p.version = version
    · rw [replaceFirst, if_pos hname, List.findIdx_cons, decide_eq_true hname, cond_true]
      cases i with
      | zero => rfl
      | succ i => rfl
    · rw [replaceFirst, if_neg hname, List.findIdx_cons, decide_eq_false hname, cond_false]
      cases i with
      | zero => simp
      | succ i => simp [ih]

/-- A version that is found may be replaced by what it becomes, whichever is replaced. -/
theorem replaceFirst_const {p : PolicyVersion} (h : versions.find? (fun q => q.version = version) = some p) :
    replaceFirst version (fun _ => f p) versions = replaceFirst version f versions := by
  induction versions with
  | nil => rfl
  | cons first rest ih =>
    by_cases hname : first.version = version
    · rw [List.find?_cons_of_pos (by simpa using hname)] at h
      cases h
      simp [replaceFirst, hname]
    · rw [List.find?_cons_of_neg (by simpa using hname)] at h
      simp [replaceFirst, hname, ih h]

theorem replaceFirst_congr {g : PolicyVersion → PolicyVersion} {p : PolicyVersion}
    (h : versions.find? (fun q => q.version = version) = some p) (hp : f p = g p) :
    replaceFirst version f versions = replaceFirst version g versions := by
  rw [← replaceFirst_const h, hp, replaceFirst_const h]

theorem replaceFirst_self {p : PolicyVersion} (h : versions.find? (fun q => q.version = version) = some p)
    (hp : f p = p) : replaceFirst version f versions = versions := by
  rw [replaceFirst_congr (g := fun q => q) h hp]
  induction versions with
  | nil => rfl
  | cons first rest ih =>
    by_cases hname : first.version = version
    · simp [replaceFirst, hname]
    · rw [List.find?_cons_of_neg (by simpa using hname)] at h
      simp [replaceFirst, hname, ih h]

section Named

variable (hf : ∀ p, (f p).version = p.version)

include hf

theorem map_version_replaceFirst :
    (replaceFirst version f versions).map PolicyVersion.version = versions.map PolicyVersion.version := by
  induction versions with
  | nil => rfl
  | cons p rest ih =>
    by_cases hname : p.version = version
    · simp [replaceFirst, hname, hf]
    · simp [replaceFirst, hname, ih]

theorem find?_replaceFirst_of_ne (hne : name ≠ version) :
    (replaceFirst version f versions).find? (fun p => p.version = name) =
      versions.find? (fun p => p.version = name) := by
  induction versions with
  | nil => rfl
  | cons p rest ih =>
    by_cases hname : p.version = version
    · simp [replaceFirst, hname, hf, hne.symm]
    · simp [replaceFirst, hname, ih, List.find?_cons]

theorem find?_replaceFirst_self :
    (replaceFirst version f versions).find? (fun p => p.version = version) =
      (versions.find? fun p => p.version = version).map f := by
  induction versions with
  | nil => rfl
  | cons p rest ih => by_cases hname : p.version = version <;> simp [replaceFirst, hname, hf, ih]

theorem replaceFirst_replaceFirst (g : PolicyVersion → PolicyVersion) :
    replaceFirst version g (replaceFirst version f versions) = replaceFirst version (fun p => g (f p)) versions := by
  induction versions with
  | nil => rfl
  | cons p rest ih => by_cases hname : p.version = version <;> simp [replaceFirst, hname, hf, ih]

end Named

/-- What an edit of rules may change: in the first version of the current name the rules and their signature. -/
structure EditedInside (r r' : Registry) : Prop where
  currentAs : r'.currentAs = r.currentAs
  pinned : r'.pinned = r.pinned
  lastFetched : r'.lastFetched = r.lastFetched
  origin : r'.origin = r.origin
  names : r'.versions.map PolicyVersion.version = r.versions.map PolicyVersion.version
  others : ∀ i, i ≠ r.versions.findIdx (fun p => p.version = r.current) → r'.versions[i]? = r.versions[i]?
  within : ∀ (i : Nat) (p q : PolicyVersion), r.versions[i]? = some p → r'.versions[i]? = some q →
    q = { p with rules := q.rules, signature := q.signature }

variable {r r' : Registry}

theorem EditedInside.refl (r : Registry) : r.EditedInside r where
  currentAs := rfl
  pinned := rfl
  lastFetched := rfl
  origin := rfl
  names := rfl
  others _ _ := rfl
  within i p q hp hq := by
    cases hp.symm.trans hq
    rfl

/-- The registry with other rules in the first version of the current name. -/
def rewritten (rules : List Rule) (r : Registry) : Registry :=
  { r with versions := replaceFirst r.current (PolicyVersion.withRules rules) r.versions }

theorem rewritten_inside (rules : List Rule) (r : Registry) : r.EditedInside (r.rewritten rules) where
  currentAs := rfl
  pinned := rfl
  lastFetched := rfl
  origin := rfl
  names := map_version_replaceFirst fun _ => rfl
  others i hi := (getElem?_replaceFirst _ _ _ i).trans (if_neg hi)
  within i p q hp hq := by
    simp only [rewritten, getElem?_replaceFirst, hp] at hq
    split at hq
    · cases hq
      rfl
    · cases hq
      rfl

theorem find_rewritten_of_ne {rules : List Rule} (hne : name ≠ r.current) :
    (r.rewritten rules).find name = r.find name := by
  have hversions : ∀ p, (PolicyVersion.withRules rules p).version = p.version := fun _ => rfl
  simp only [find, rewritten, find?_replaceFirst_of_ne hversions hne]

theorem edit_of_find {p : PolicyVersion} (hfind : r.find r.current = .ok p) (e : Edit) :
    r.edit e = (e p).map fun rules => (p.withRules rules, r.rewritten rules) := by
  simp only [edit, hfind, bind, Except.bind, pure, Except.pure]
  cases e p with
  | error e => rfl
  | ok rules => simp only [Except.map, rewritten, replaceFirst_const (find_eq_ok hfind)]

theorem edit_eq_ok {e : Edit} {q : PolicyVersion} (h : r.edit e = .ok (q, r')) : ∃ rules, r' = r.rewritten rules := by
  obtain ⟨p, rules, hfind, -, rfl, rfl⟩ := edit_ok h
  exact ⟨rules, by rw [rewritten, replaceFirst_const (find_eq_ok hfind)]⟩

end Registry

end WalletRouting
