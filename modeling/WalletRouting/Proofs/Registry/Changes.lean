import WalletRouting.Proofs.Outcome
import WalletRouting.Registry.Edit

/-! # What becomes of a registry

An operation makes one of four things of the versions of a registry. A property of versions that all four keep is kept
by every operation, whatever else it does.
-/
namespace WalletRouting
set_option autoImplicit false

namespace Edit

theorem requireValid_ok {r : Rule} (h : requireValid r = .ok ()) : r.isValid = true := by
  unfold requireValid at h
  split at h
  · assumption
  · cases h

/-- The edits that a registry offers; a rule is only added if it is valid. -/
inductive Offered : Edit → Prop where
  | add {r : Rule} (hvalid : r.isValid = true) : Offered (add r)
  | update (id : String) (updates : Keyed Value) : Offered (update id updates)
  | remove (id : String) : Offered (remove id)
  | reorder (ids : List String) : Offered (reorder ids)

end Edit

namespace Registry

variable {r r' : Registry}

theorem mem_replaceFirst {version : String} {f : PolicyVersion → PolicyVersion} {versions : List PolicyVersion}
    {q : PolicyVersion} (h : q ∈ replaceFirst version f versions) : q ∈ versions ∨ ∃ p ∈ versions, q = f p := by
  induction versions with
  | nil => cases h
  | cons p rest ih =>
    unfold replaceFirst at h
    split at h
    · rcases List.mem_cons.mp h with rfl | h
      · exact Or.inr ⟨p, List.mem_cons_self, rfl⟩
      · exact Or.inl (List.mem_cons_of_mem p h)
    · rcases List.mem_cons.mp h with rfl | h
      · exact Or.inl List.mem_cons_self
      · rcases ih h with h | ⟨p', hp', rfl⟩
        · exact Or.inl (List.mem_cons_of_mem p h)
        · exact Or.inr ⟨p', List.mem_cons_of_mem p hp', rfl⟩

theorem find_eq_ok {version : String} {r : Registry} {p : PolicyVersion} (h : r.find version = .ok p) :
    r.versions.find? (fun q => q.version = version) = some p := by
  unfold find at h
  split at h
  · next hfind =>
    cases h
    exact hfind
  · cases h

theorem find_mem {version : String} {r : Registry} {p : PolicyVersion} (h : r.find version = .ok p) :
    p ∈ r.versions := List.mem_of_find?_eq_some (find_eq_ok h)

theorem mem_replaceFirst_of_find {version : String} {f : PolicyVersion → PolicyVersion}
    {versions : List PolicyVersion} {p : PolicyVersion}
    (h : versions.find? (fun q => q.version = version) = some p) : f p ∈ replaceFirst version f versions := by
  induction versions with
  | nil => cases h
  | cons first rest ih =>
    unfold replaceFirst
    by_cases hname : first.version = version
    · rw [List.find?_cons_of_pos (by simpa using hname)] at h
      cases h
      rw [if_pos hname]
      exact List.mem_cons_self
    · rw [List.find?_cons_of_neg (by simpa using hname)] at h
      rw [if_neg hname]
      exact List.mem_cons_of_mem _ (ih h)

theorem edit_ok {e : Edit} {q : PolicyVersion} (h : r.edit e = .ok (q, r')) :
    ∃ p rules, r.find r.current = .ok p ∧ e p = .ok rules ∧ q = p.withRules rules ∧
      r' = { r with versions := replaceFirst r.current (fun _ => q) r.versions } := by
  obtain ⟨p, hfind, h⟩ := bind_eq_ok h
  obtain ⟨rules, hrules, h⟩ := bind_eq_ok h
  cases h
  exact ⟨p, rules, hfind, hrules, rfl, rfl⟩

theorem addRule_ok {rule : Rule} {q : PolicyVersion} (h : r.addRule rule = .ok (q, r')) :
    rule.isValid = true ∧ r.edit (Edit.add rule) = .ok (q, r') := by
  obtain ⟨_, hvalid, h⟩ := bind_eq_ok h
  exact ⟨Edit.requireValid_ok hvalid, h⟩

/-- What one operation may make of the versions. -/
inductive Becomes (r : Registry) : List PolicyVersion → Prop where
  | kept : Becomes r r.versions
  | rewritten {e : Edit} {p : PolicyVersion} {rules : List Rule} (hoffered : e.Offered)
      (hfind : r.find r.current = .ok p) (hrules : e p = .ok rules) :
      Becomes r (replaceFirst r.current (fun _ => p.withRules rules) r.versions)
  | marked (version : String) (mark : Value) :
      Becomes r (replaceFirst version (PolicyVersion.markCached mark) r.versions)
  | reopened (c : Clock) : Becomes r (load r.origin c).1.versions

/-- The versions after an operation, and what a reset returns to then. -/
def Follows (r r' : Registry) : Prop := r.Becomes r'.versions ∧ r'.origin = r.origin

theorem Follows.refl (r : Registry) : r.Follows r := ⟨.kept, rfl⟩

theorem edit_follows {e : Edit} {q : PolicyVersion} (hoffered : e.Offered) (h : r.edit e = .ok (q, r')) :
    r.Follows r' := by
  obtain ⟨p, rules, hfind, hrules, rfl, rfl⟩ := edit_ok h
  exact ⟨.rewritten hoffered hfind hrules, rfl⟩

theorem addRule_follows {rule : Rule} {q : PolicyVersion} (h : r.addRule rule = .ok (q, r')) : r.Follows r' := by
  obtain ⟨hvalid, h⟩ := addRule_ok h
  exact edit_follows (.add hvalid) h

theorem pin_follows {version : Option String} (h : r.pin version = .ok r') : r.Follows r' := by
  unfold pin at h
  cases version with
  | none =>
    cases h
    exact ⟨.kept, rfl⟩
  | some name =>
    dsimp only at h
    split at h
    · cases h
      exact ⟨.kept, rfl⟩
    · cases h

theorem markCached_follows {version : String} {mark : Value} (h : r.markCached version mark = .ok r') :
    r.Follows r' := by
  obtain ⟨_, _, h⟩ := bind_eq_ok h
  cases h
  exact ⟨.marked version mark, rfl⟩

theorem load_origin (o : Origin) (c : Clock) : (load o c).1.origin = o := by
  unfold load
  cases o.versions <;> rfl

/-- A property of every version, those that a reset returns to included. -/
structure Throughout (P : PolicyVersion → Prop) (r : Registry) : Prop where
  versions : ∀ p ∈ r.versions, P p
  origin : ∀ given, r.origin.versions = some given → ∀ p ∈ given, P p

/-- A property of versions that is kept by all that operations make of them. -/
structure Lasting (P : PolicyVersion → Prop) : Prop where
  baseline : ∀ now, ∀ p ∈ Baseline.versions now, P p
  edited : ∀ {e : Edit} {p : PolicyVersion} {rules : List Rule}, e.Offered → P p → e p = .ok rules →
    P (p.withRules rules)
  marked : ∀ {p : PolicyVersion} (mark : Value), P p → P (p.markCached mark)

namespace Throughout

variable {P : PolicyVersion → Prop} {r r' : Registry}

theorem load (hP : Lasting P) {o : Origin} (h : ∀ given, o.versions = some given → ∀ p ∈ given, P p) (c : Clock) :
    Throughout P (Registry.load o c).1 := by
  unfold Registry.load
  cases hgiven : o.versions with
  | some given => exact ⟨h given hgiven, h⟩
  | none => exact ⟨hP.baseline _, h⟩

theorem follows (hP : Lasting P) (h : Throughout P r) (hfollows : r.Follows r') : Throughout P r' := by
  obtain ⟨hbecomes, horigin⟩ := hfollows
  refine ⟨?_, horigin ▸ h.origin⟩
  generalize r'.versions = versions at hbecomes
  cases hbecomes with
  | kept => exact h.versions
  | rewritten hoffered hfind hrules =>
    intro q hq
    rcases mem_replaceFirst hq with hq | ⟨_, _, rfl⟩
    · exact h.versions q hq
    · exact hP.edited hoffered (h.versions _ (find_mem hfind)) hrules
  | marked version mark =>
    intro q hq
    rcases mem_replaceFirst hq with hq | ⟨p, hp, rfl⟩
    · exact h.versions q hq
    · exact hP.marked mark (h.versions p hp)
  | reopened c => exact (load hP h.origin c).versions

end Throughout

end Registry

end WalletRouting
