import WalletRouting.Proofs.Keyed
import WalletRouting.Proofs.Schema.Reading
import WalletRouting.Proofs.Value.Parts

/-! # What reading ensures

What is known of everything that the reader of a part lets through is known of that part in every record that is read.
What is true of the names in every object of a value is true of the names of a map that is read from it.
-/
namespace WalletRouting
set_option autoImplicit false

namespace Schema

namespace Checked

variable {α β : Type} {P : β → Prop} {Q : α → Prop}

/-- Whether something holds of whatever comes out. -/
def Ensures (P : α → Prop) (c : Checked α) : Prop := ∀ a, c = .ok a → P a

theorem ensures_map {f : α → β} {c : Checked α} (h : ∀ a, P (f a)) : (f <$> c).Ensures P := by
  intro b hb
  obtain ⟨a, -, rfl⟩ := map_eq_ok hb
  exact h a

theorem Ensures.map {f : α → β} {c : Checked α} (h : c.Ensures Q) (hf : ∀ a, Q a → P (f a)) : (f <$> c).Ensures P := by
  intro b hb
  obtain ⟨a, ha, rfl⟩ := map_eq_ok hb
  exact hf a (h a ha)

theorem Ensures.seq {f : Checked (α → β)} {c : Checked α} (hf : f.Ensures fun g => ∀ a, Q a → P (g a))
    (h : c.Ensures Q) : (f <*> c).Ensures P := by
  intro b hb
  obtain ⟨g, a, hg, ha, rfl⟩ := seq_eq_ok hb
  exact hf g hg a (h a ha)

theorem Ensures.seq_any {f : Checked (α → β)} {c : Checked α} (hf : f.Ensures fun g => ∀ a, P (g a)) :
    (f <*> c).Ensures P := by
  intro b hb
  obtain ⟨g, a, hg, -, rfl⟩ := seq_eq_ok hb
  exact hf g hg a

theorem Ensures.within {c : Checked α} (h : c.Ensures Q) (s : Step) : (c.within s).Ensures Q :=
  fun a ha => h a (within_eq_ok ha)

end Checked

open Checked

variable {α : Type} {P : α → Prop} {N : List String → Prop} {read : Read α}

theorem ensures_record {fields : Keyed Value → Checked α} {v : Value}
    (h : ∀ m, v = .object m → (fields m).Ensures P) : (record fields v).Ensures P := by
  cases v with
  | object m => exact h m rfl
  | _ => exact nofun

section Member

variable {m : Keyed Value} (hm : (Value.object m).EachObject N)
  (h : ∀ v, v.EachObject N → (read v).Ensures P)
include hm h

theorem ensures_at {name : String} {v : Value} (hv : m.get? name = some v) : (read v).Ensures P :=
  h v ((Value.eachObject_object.mp hm).2 (name, v) (Keyed.mem_of_get? hv))

theorem ensures_required (name : String) : (required name read m).Ensures P := by
  unfold required
  split
  · next v hv => exact (ensures_at hm h hv).within _
  · exact nofun

theorem ensures_optional (name : String) {default : α} (hdefault : P default) :
    (Schema.optional name default read m).Ensures P := by
  unfold Schema.optional
  split
  · next v hv => exact (ensures_at hm h hv).within _
  · rintro a ⟨⟩
    exact hdefault

end Member

theorem ensures_nullable {v : Value} (h : (read v).Ensures P) : (nullable read v).Ensures fun o => ∀ a ∈ o, P a := by
  unfold nullable
  split
  · rintro o ⟨⟩
    exact nofun
  · refine h.map fun a ha b hb => ?_
    rwa [← Option.some.inj hb]

theorem ensures_itemsFrom {i : Nat} {vs : List Value} (h : ∀ v ∈ vs, (read v).Ensures P) :
    (itemsFrom read i vs).Ensures fun xs => ∀ a ∈ xs, P a := by
  induction vs generalizing i with
  | nil =>
    rintro xs ⟨⟩
    exact nofun
  | cons v rest ih =>
    rw [List.forall_mem_cons] at h
    exact .seq ((h.1.within _).map fun a ha xs hxs => List.forall_mem_cons.mpr ⟨ha, hxs⟩) (ih h.2)

theorem ensures_listOf {v : Value} (hv : v.EachObject N) (h : ∀ w, w.EachObject N → (read w).Ensures P) :
    (listOf read v).Ensures fun xs => ∀ a ∈ xs, P a := by
  cases v with
  | list vs => exact ensures_itemsFrom fun w hw => h w (Value.eachObject_list.mp hv w hw)
  | _ => exact nofun

theorem ensures_entries {ms : List (String × Value)} :
    (entries read ms).Ensures fun m => m.keys = ms.map Prod.fst := by
  induction ms with
  | nil =>
    rintro m ⟨⟩
    rfl
  | cons entry rest ih =>
    refine .seq (ensures_map fun a m hm => ?_) ih
    rw [Keyed.keys_cons, hm, List.map_cons]

theorem ensures_mapOf {v : Value} (hv : v.EachObject N) : (mapOf read v).Ensures fun m => N m.keys := by
  cases v with
  | object ms =>
    intro m hm
    rw [ensures_entries m hm]
    exact (Value.eachObject_object.mp hv).1
  | _ => exact nofun

theorem ensures_doubleWithin (low high : Double) (v : Value) :
    (doubleWithin low high v).Ensures fun x => low ≤ x ∧ x ≤ high := by
  intro x h
  unfold doubleWithin at h
  split at h
  · split at h
    · next hhigh =>
      split at h
      · next hlow =>
        cases h
        exact ⟨hlow, hhigh⟩
      · cases h
    · cases h
  · next hbad => exact absurd h (hbad x)

end Schema

end WalletRouting
