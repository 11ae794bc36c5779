import WalletRouting.Proofs.Json.Writing
import WalletRouting.Proofs.Ordered

/-! # Canonical texts

Where the names in every object are whole and different, the canonical text of a value depends on its datum alone, and
the datum on the text.
-/
namespace WalletRouting
set_option autoImplicit false

namespace Value

/-! ## Lookup in members with different names -/

section Lookup

variable {α β : Type} [BEq α] [LawfulBEq α]

theorem lookup_eq_some {members : List (α × β)} (h : (members.map Prod.fst).Nodup) {key : α} {b : β} :
    members.lookup key = some b ↔ (key, b) ∈ members := by
  induction members with
  | nil => simp
  | cons m members ih =>
    obtain ⟨k, c⟩ := m
    obtain ⟨hfresh, h⟩ := List.nodup_cons.mp h
    rw [List.lookup_cons, List.mem_cons, Prod.mk.injEq]
    by_cases hkey : key = k
    · subst hkey
      have hnone : (key, b) ∉ members := fun hmem => hfresh (List.mem_map.mpr ⟨_, hmem, rfl⟩)
      simp [hnone, eq_comm]
    · have hne : (key == k) = false := beq_eq_false_iff_ne.mpr hkey
      simp [hne, hkey, ih h]

theorem lookup_perm {members others : List (α × β)} (h : (members.map Prod.fst).Nodup) (hperm : members.Perm others)
    (key : α) : members.lookup key = others.lookup key := by
  have hothers : (others.map Prod.fst).Nodup := ((hperm.map Prod.fst).nodup_iff).mp h
  exact Option.ext fun b => by rw [lookup_eq_some h, lookup_eq_some hothers, hperm.mem_iff]

end Lookup

@[simp] theorem sortKeysAll_eq (xs : List Value) : sortKeysAll xs = xs.map sortKeys := by
  induction xs with
  | nil => rfl
  | cons x xs ih => rw [sortKeysAll, ih, List.map_cons]

@[simp] theorem sortKeysMembers_eq (ms : List (String × Value)) :
    sortKeysMembers ms = ms.map fun m => (m.1, m.2.sortKeys) := by
  induction ms with
  | nil => rfl
  | cons m ms ih => rw [sortKeysMembers, ih, List.map_cons]

def sorted (ms : List (String × Value)) : List (String × Value) :=
  Ordered.sort keyLe (ms.map fun m => (m.1, m.2.sortKeys))

theorem sortKeys_list (xs : List Value) : sortKeys (.list xs) = .list (xs.map sortKeys) := by
  rw [sortKeys, sortKeysAll_eq]

theorem sortKeys_object (ms : List (String × Value)) : sortKeys (.object ms) = .object (sorted ms) := by
  rw [sortKeys, sortKeysMembers_eq, sorted]

theorem sorted_perm (ms : List (String × Value)) : (sorted ms).Perm (ms.map fun m => (m.1, m.2.sortKeys)) :=
  Ordered.sort_perm _ _

theorem sorted_pairwise (ms : List (String × Value)) :
    (sorted ms).Pairwise fun a b => Text.before b.1 a.1 = false :=
  have hfront (a b : String × Value) (h : keyLe a b = true) : Text.before b.1 a.1 = false := by simpa [keyLe] using h
  have hback (a b : String × Value) (h : keyLe a b = false) : Text.before b.1 a.1 = true := by simpa [keyLe] using h
  Ordered.sort_pairwise hfront (fun a b h => Text.not_precedes_of_precedes (hback a b h))
    (fun a b _ h hle => Text.not_precedes_trans (hfront a b h) hle) _

theorem nodup_units {ms : List (String × Value)} (hwhole : ∀ m ∈ ms, Text.isWhole m.1 = true)
    (hnodup : (ms.map fun m => Text.points m.1).Nodup) : (ms.map fun m => Text.units m.1).Nodup := by
  rw [List.Nodup, List.pairwise_map] at hnodup ⊢
  exact hnodup.imp_of_mem fun ha hb hne heq => hne (Text.points_eq_of_units (hwhole _ ha) (hwhole _ hb) heq)

theorem datum_sortKeys {v : Value} (h : WellNamed v) : v.sortKeys.datum = v.datum := by
  induction v using induct with
  | null => rfl
  | bool b => rfl
  | num n => rfl
  | text s => rfl
  | unresolved => rfl
  | list xs ih =>
    rw [wellNamed_list] at h
    rw [sortKeys_list, datum_list, datum_list, List.map_map]
    exact congrArg Datum.list (List.map_congr_left fun x hx => ih x hx (h x hx))
  | object ms ih =>
    obtain ⟨⟨hwhole, hnodup⟩, hmembers⟩ := wellNamed_object.mp h
    have hdata : (ms.map fun m => (m.1, m.2.sortKeys)).map (fun m => (Text.units m.1, m.2.datum)) =
        ms.map fun m => (Text.units m.1, m.2.datum) := by
      rw [List.map_map]
      exact List.map_congr_left fun m hm => congrArg (Prod.mk _) (ih m hm (hmembers m hm))
    have hperm := (sorted_perm ms).map fun m => (Text.units m.1, m.2.datum)
    rw [hdata] at hperm
    rw [sortKeys_object, datum_object, datum_object]
    refine congrArg Datum.object (funext fun key => (lookup_perm ?_ hperm.symm key).symm)
    rw [List.map_map]
    exact nodup_units hwhole hnodup

/-! ## From the datum to the text -/

def kindOfDatum : Datum → Json.Kind
  | .null => .null
  | .bool _ => .bool
  | .int _ => .number
  | .double _ => .number
  | .text _ => .text
  | .list _ => .list
  | .object _ => .object
  | .nothing => .nothing

theorem kindOfDatum_datum (v : Value) : kindOfDatum v.datum = Json.kindOf v := by
  cases v with
  | num n => cases n <;> rfl
  | _ => rfl

section Members

variable {ms ns : List (String × Value)}

theorem points_sorted (hms : (ms.map fun m => Text.points m.1).Nodup) (hns : (ns.map fun m => Text.points m.1).Nodup)
    (hnames : ∀ name, name ∈ (ms.map fun m => Text.points m.1) ↔ name ∈ ns.map fun m => Text.points m.1) :
    (sorted ms).map (fun m => Text.points m.1) = (sorted ns).map fun m => Text.points m.1 := by
  have hperm (ms : List (String × Value)) :
      ((sorted ms).map fun m => Text.points m.1).Perm (ms.map fun m => Text.points m.1) := by
    have h := (sorted_perm ms).map fun m => Text.points m.1
    rwa [List.map_map] at h
  have hsorted (ms : List (String × Value)) :
      ((sorted ms).map fun m => Text.points m.1).Pairwise fun a b => Text.precedes b a = false :=
    List.pairwise_map.mpr (sorted_pairwise ms)
  have hsame := (List.perm_ext_iff_of_nodup hms hns).mpr hnames
  exact ((hperm ms).trans (hsame.trans (hperm ns).symm)).eq_of_pairwise
    (fun _ _ _ _ h h' => Text.eq_of_not_precedes h' h) (hsorted ms) (hsorted ns)

theorem exists_member (hms : WellNamed (.object ms)) (hns : WellNamed (.object ns))
    (h : datum (.object ms) = datum (.object ns)) {m : String × Value} (hm : m ∈ ms) :
    ∃ n ∈ ns, Text.points m.1 = Text.points n.1 ∧ m.2.datum = n.2.datum := by
  obtain ⟨⟨hwhole, hnodup⟩, -⟩ := wellNamed_object.mp hms
  obtain ⟨⟨hwhole', hnodup'⟩, -⟩ := wellNamed_object.mp hns
  rw [datum_object, datum_object] at h
  have hkeys : ((ms.map fun m => (Text.units m.1, m.2.datum)).map Prod.fst).Nodup := by
    rw [List.map_map]
    exact nodup_units hwhole hnodup
  have hkeys' : ((ns.map fun m => (Text.units m.1, m.2.datum)).map Prod.fst).Nodup := by
    rw [List.map_map]
    exact nodup_units hwhole' hnodup'
  have hfound := (lookup_eq_some hkeys).mpr (List.mem_map.mpr ⟨m, hm, rfl⟩)
  have hsame := congrFun (Datum.object.inj h) (Text.units m.1)
  rw [hfound, eq_comm, lookup_eq_some hkeys', List.mem_map] at hsame
  obtain ⟨n, hn, heq⟩ := hsame
  obtain ⟨hunits, hdatum⟩ := Prod.mk.inj heq
  exact ⟨n, hn, Text.points_eq_of_units (hwhole m hm) (hwhole' n hn) hunits.symm, hdatum.symm⟩

theorem names_eq (hms : WellNamed (.object ms)) (hns : WellNamed (.object ns))
    (h : datum (.object ms) = datum (.object ns)) (name : List Nat) :
    name ∈ (ms.map fun m => Text.points m.1) ↔ name ∈ ns.map fun m => Text.points m.1 := by
  simp only [List.mem_map]
  constructor
  · rintro ⟨m, hm, rfl⟩
    obtain ⟨n, hn, hpoints, -⟩ := exists_member hms hns h hm
    exact ⟨n, hn, hpoints.symm⟩
  · rintro ⟨n, hn, rfl⟩
    obtain ⟨m, hm, hpoints, -⟩ := exists_member hns hms h.symm hn
    exact ⟨m, hm, hpoints.symm⟩

end Members

theorem write_sortKeys_eq {v w : Value} (hv : WellNamed v) (hw : WellNamed w) (h : v.datum = w.datum) :
    Json.write v.sortKeys = Json.write w.sortKeys := by
  have hkind : Json.kindOf v = Json.kindOf w := by rw [← kindOfDatum_datum, h, kindOfDatum_datum]
  induction v using induct generalizing w with
  | null => cases w <;> first | rfl | cases hkind
  | unresolved => cases w <;> first | rfl | cases hkind
  | bool b =>
    cases w <;> cases hkind
    rw [Datum.bool.inj h]
  | num n =>
    cases w <;> cases hkind
    exact congrArg String.toList (Json.numberText_congr h)
  | text s =>
    cases w <;> cases hkind
    exact Json.quoted_congr (Datum.text.inj h)
  | list xs ih =>
    cases w <;> cases hkind
    next ys =>
    rw [wellNamed_list] at hv hw
    rw [datum_list, datum_list] at h
    rw [sortKeys_list, sortKeys_list, Json.write_list, Json.write_list, List.map_map, List.map_map]
    have htexts := map_eq_of_map_eq (g := fun x => Json.write x.sortKeys) (Datum.list.inj h) fun x hx y hy heq =>
      ih x hx (hv x hx) (hw y hy) heq (by rw [← kindOfDatum_datum, heq, kindOfDatum_datum])
    exact congrArg (fun texts => '[' :: (Json.row texts ++ [']'])) htexts
  | object ms ih =>
    cases w <;> cases hkind
    next ns =>
    obtain ⟨⟨-, hnodup⟩, hmembers⟩ := wellNamed_object.mp hv
    obtain ⟨⟨-, hnodup'⟩, hmembers'⟩ := wellNamed_object.mp hw
    rw [sortKeys_object, sortKeys_object, Json.write_object, Json.write_object]
    -- Both sides are sorted, so that members in the same place have the same name.
    have hputs : (sorted ms).map Json.putMember = (sorted ns).map Json.putMember := by
      refine map_eq_of_map_eq (points_sorted hnodup hnodup' (names_eq hv hw h)) fun a ha b hb hpoints => ?_
      obtain ⟨m, hm, rfl⟩ := List.mem_map.mp ((sorted_perm ms).mem_iff.mp ha)
      obtain ⟨n, hn, rfl⟩ := List.mem_map.mp ((sorted_perm ns).mem_iff.mp hb)
      obtain ⟨n', hn', hpoints', hdatum⟩ := exists_member hv hw h hm
      have hsame : n' = n := List.inj_on_of_nodup_map hnodup' hn' hn (hpoints'.symm.trans hpoints)
      subst hsame
      rw [Json.putMember, Json.putMember, Json.quoted_congr (Text.units_congr hpoints),
        ih m hm (hmembers m hm) (hmembers' n' hn') hdatum (by rw [← kindOfDatum_datum, hdatum, kindOfDatum_datum])]
    rw [hputs]

theorem canonical_eq_iff {v w : Value} (hv : WellNamed v) (hw : WellNamed w) :
    v.canonical = w.canonical ↔ v.datum = w.datum := by
  unfold canonical compact
  rw [String.ofList_inj]
  constructor
  · intro h
    rw [← datum_sortKeys hv, ← datum_sortKeys hw, Json.datum_eq_of_write h]
  · exact write_sortKeys_eq hv hw

end Value

end WalletRouting
