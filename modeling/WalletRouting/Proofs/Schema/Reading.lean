import WalletRouting.Schema.Record
import WalletRouting.Schema.Scalar
import Mathlib.Data.List.Forall2

/-! # What has been read

A record that is read has had each of its members read, and what was read of a member passes the test of its reader.
-/
namespace WalletRouting
set_option autoImplicit false

namespace Schema.Checked

variable {α β : Type}

theorem seq_eq_ok {f : Checked (α → β)} {a : Checked α} {b : β} (h : f <*> a = .ok b) :
    ∃ g x, f = .ok g ∧ a = .ok x ∧ b = g x := by
  cases f with
  | bad issues => cases a <;> cases h
  | ok g =>
    cases a with
    | bad issues => cases h
    | ok x =>
      cases h
      exact ⟨g, x, rfl, rfl, rfl⟩

theorem map_eq_ok {f : α → β} {a : Checked α} {b : β} (h : f <$> a = .ok b) : ∃ x, a = .ok x ∧ b = f x := by
  cases a with
  | bad issues => cases h
  | ok x =>
    cases h
    exact ⟨x, rfl, rfl⟩

theorem within_eq_ok {s : Step} {a : Checked α} {b : α} (h : a.within s = .ok b) : a = .ok b := by
  cases a with
  | bad issues => cases h
  | ok x => exact h

theorem issues_of_within {s : Step} {a : Checked α} (h : (a.within s).issues = []) : a.issues = [] := by
  cases a with
  | ok x => rfl
  | bad found => exact List.map_eq_nil_iff.mp h

theorem each_forall₂ {f : α → Checked β} {R : α → β → Prop} {l : List α} (h : ∀ a ∈ l, ∃ b, f a = .ok b ∧ R a b) :
    ∃ bs, each f l = .ok bs ∧ List.Forall₂ R l bs := by
  induction l with
  | nil => exact ⟨[], rfl, List.Forall₂.nil⟩
  | cons a rest ih =>
    obtain ⟨⟨b, hb, hab⟩, hrest⟩ := List.forall_mem_cons.mp h
    obtain ⟨bs, hbs, hforall⟩ := ih hrest
    exact ⟨b :: bs, by rw [each, hb, hbs]; rfl, List.Forall₂.cons hab hforall⟩

end Schema.Checked

namespace Schema

section Members

variable {α : Type} {name : String} {default a : α} {read : Read α} {m : Keyed Value} {v : Value}

theorem required_ok (hget : m.get? name = some v) (hread : read v = .ok a) : required name read m = .ok a := by
  rw [required, hget]
  dsimp only
  rw [hread]
  rfl

theorem optional_ok (hget : m.get? name = some v) (hread : read v = .ok a) : optional name default read m = .ok a := by
  rw [optional, hget]
  dsimp only
  rw [hread]
  rfl

theorem read_of_required (h : required name read m = .ok a) (hget : m.get? name = some v) : read v = .ok a := by
  rw [required, hget] at h
  exact Checked.within_eq_ok h

theorem read_of_optional (h : optional name default read m = .ok a) (hget : m.get? name = some v) :
    read v = .ok a := by
  rw [optional, hget] at h
  exact Checked.within_eq_ok h

end Members

theorem optional_eq_ok {α : Type} {name : String} {default a : α} {read : Read α} {m : Keyed Value}
    (h : optional name default read m = .ok a) : a = default ∨ ∃ v, read v = .ok a := by
  unfold optional at h
  split at h
  · next v _ => exact Or.inr ⟨v, Checked.within_eq_ok h⟩
  · cases h
    exact Or.inl rfl

theorem doubleFrom_float (low x : Double) :
    doubleFrom low (.float x) = if low ≤ x then .ok x else issue .below (.float x) := rfl

theorem le_of_doubleFrom {low x : Double} {v : Value} (h : doubleFrom low v = .ok x) : low ≤ x := by
  unfold doubleFrom at h
  split at h
  · split at h
    · next hle =>
      cases h
      exact hle
    · cases h
  · next hbad => exact absurd h (hbad x)

/-- What is refused has something found against it. -/
def Checked.Accountable {α : Type} (c : Checked α) : Prop := c.issues = [] → ∃ a, c = .ok a

theorem accountable_issue {α : Type} (p : Problem) (v : Value) : (issue p v : Checked α).Accountable := by
  intro h
  cases h

theorem accountable_orIssue {α : Type} (v : Value) (e : Except Problem α) : (orIssue v e).Accountable := by
  cases e with
  | error p => exact accountable_issue p v
  | ok a => exact fun _ => ⟨a, rfl⟩

theorem accountable_flag (v : Value) : (flag v).Accountable := by
  unfold flag
  split
  · exact fun _ => ⟨_, rfl⟩
  · exact accountable_orIssue _ _
  · exact accountable_orIssue _ _
  · unfold spelled
    split
    · exact accountable_orIssue _ _
    · exact accountable_issue _ _
  · exact accountable_issue _ _

end Schema

end WalletRouting
