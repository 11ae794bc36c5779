import WalletRouting.Proofs.Registry.Changes
import WalletRouting.Registry.Given

/-! # Signatures of versions

A version is signed for the rules it holds, if they can be written; those that cannot be written have no signature. All
that may be done to a registry keeps its versions signed.
-/
namespace WalletRouting
set_option autoImplicit false

namespace PolicyVersion

/-- Signed for the rules it holds, if they can be written. -/
def Current (p : PolicyVersion) : Prop := p.writeError? = none → p.signature = Signature.ofRules p.rules

theorem sign_eq_ok_iff {p : PolicyVersion} :
    sign p.rules = .ok p.signature ↔ p.writeError? = none ∧ p.signature = Signature.ofRules p.rules := by
  unfold sign
  change _ ↔ p.rules.findSome? Rule.writeError? = none ∧ _
  cases p.rules.findSome? Rule.writeError? with
  | none => simp [eq_comm]
  | some e => simp

theorem Current.sign_iff {p : PolicyVersion} (h : p.Current) :
    sign p.rules = .ok p.signature ↔ p.writeError? = none := by
  rw [sign_eq_ok_iff]
  constructor
  · exact And.left
  · intro hwritable
    exact ⟨hwritable, h hwritable⟩

theorem withRules_current (rules : List Rule) (p : PolicyVersion) : (p.withRules rules).Current := by
  intro hwritable
  have hnone : rules.findSome? Rule.writeError? = none := hwritable
  simp only [withRules, hnone, Option.isNone_none, if_true]

theorem markCached_current {p : PolicyVersion} (h : p.Current) (mark : Value) : (p.markCached mark).Current := by
  unfold markCached
  split
  · exact h
  · exact h

end PolicyVersion

theorem Baseline.versions_current (now : Number) : ∀ p ∈ Baseline.versions now, p.Current := by
  intro p hp _
  obtain ⟨release, _, rfl⟩ := List.mem_map.mp hp
  rfl

namespace Registry

/-- Every version is signed for its rules, those that a reset returns to included. -/
structure Signed (r : Registry) : Prop where
  versions : ∀ p ∈ r.versions, p.Current
  origin : ∀ given, r.origin.versions = some given → ∀ p ∈ given, p.Current

theorem Signed.throughout_iff {r : Registry} : r.Signed ↔ r.Throughout PolicyVersion.Current :=
  ⟨fun h => ⟨h.versions, h.origin⟩, fun h => ⟨h.versions, h.origin⟩⟩

theorem edit_current {e : Edit} {p : PolicyVersion} {r r' : Registry} (h : r.edit e = .ok (p, r')) : p.Current := by
  obtain ⟨_, _, -, -, rfl, -⟩ := edit_ok h
  exact PolicyVersion.withRules_current _ _

end Registry

theorem PolicyVersion.current_lasting : Registry.Lasting Current where
  baseline := Baseline.versions_current
  edited _ _ _ := withRules_current _ _
  marked mark hp := markCached_current hp mark

end WalletRouting
