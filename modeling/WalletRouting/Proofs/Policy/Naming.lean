import WalletRouting.Policy.Condition
import WalletRouting.Proofs.Policy.Validity
import WalletRouting.Proofs.Run.Selection

/-! # Names that are known and names that are found

When a rule is loaded, a name with dots is known by its first part. When the rule runs, the name is walked part by part
from the instrument, over whatever there is. A router has members that no rule may name, but none of them has anything
below it; so whatever is found was known, and what is known without a dot is found.
-/
namespace WalletRouting
set_option autoImplicit false

/-- Whether a reading is of something that is there; null is, and the mark of what is not there is not. -/
def Reading.isThere : Reading → Bool
  | .missing => false
  | .value .unresolved => false
  | _ => true

namespace Field

/-! ## The parts of a name -/

theorem partsOf_fst (cs : List Char) : (partsOf cs).1 = cs.takeWhile fun c => c ≠ '.' := by
  induction cs with
  | nil => rfl
  | cons c rest ih =>
    by_cases h : c = '.'
    · simp [partsOf, h]
    · simp [partsOf, h, ih]

theorem partsOf_snd_eq_nil_iff (cs : List Char) : (partsOf cs).2 = [] ↔ '.' ∉ cs := by
  induction cs with
  | nil => simp [partsOf]
  | cons c rest ih =>
    by_cases h : c = '.'
    · simp [partsOf, h]
    · simp [partsOf, h, ih, Ne.symm h]

/-- The first part that the check looks at is the one that the walk starts with. -/
theorem splitAtDots_fst (name : String) : (splitAtDots name).1 = rootOf name := by
  rw [rootOf, ← partsOf_fst]
  rfl

theorem hasDot_iff {name : String} : hasDot name = true ↔ '.' ∈ name.toList := List.contains_iff_mem

theorem splitAtDots_snd_ne_nil {name : String} (h : hasDot name = true) : (splitAtDots name).2 ≠ [] := by
  intro hnil
  have hparts : (partsOf name.toList).2 = [] := List.map_eq_nil_iff.mp hnil
  exact (partsOf_snd_eq_nil_iff _).mp hparts (hasDot_iff.mp h)

/-! ## Walking -/

theorem foldl_step_missing (parts : List String) : parts.foldl step .missing = .missing := by
  induction parts with
  | nil => rfl
  | cons part rest ih => exact ih

/-- From what is no field of instruments a path leads nowhere: there is no such member, or nothing is below it. -/
theorem step_start {name : String} (h : InstrumentField.named.get? name = none) (i : Instrument) (part : String) :
    step (start i name) part = .missing := by
  unfold start Instrument.member?
  rw [h]
  cases i with
  | card c => rfl
  | router r =>
    dsimp only
    by_cases hchildren : name = "children"
    · rw [if_pos hchildren]
      rfl
    · rw [if_neg hchildren]
      by_cases hstrategy : name = "routing_strategy"
      · rw [if_pos hstrategy]
        rfl
      · rw [if_neg hstrategy]
        rfl

theorem walk_eq_missing {first : String} {more : List String} (h : InstrumentField.named.get? first = none)
    (hmore : more ≠ []) (i : Instrument) : walk i first more = .missing := by
  cases more with
  | nil => exact absurd rfl hmore
  | cons part rest =>
    rw [walk, List.foldl_cons, step_start h]
    exact foldl_step_missing rest

/-! ## What is found -/

theorem resolve_of_not_isKnown {name : String} (h : isKnown name = false) (t : Transaction) (i : Instrument)
    (u : User) : resolve name t i u = .missing := by
  simp only [isKnown, Bool.or_eq_false_iff, Bool.and_eq_false_iff, Keyed.has_eq_false_iff] at h
  obtain ⟨⟨⟨htransaction, hderived⟩, hinstrument⟩, hpath⟩ := h
  unfold resolve
  rw [htransaction, hderived, hinstrument]
  dsimp only
  split
  · next hdot =>
    have hroot : InstrumentField.named.get? (rootOf name) = none :=
      hpath.resolve_left fun hnot => Bool.false_ne_true (hnot.symm.trans hdot)
    exact walk_eq_missing ((splitAtDots_fst name).symm ▸ hroot) (splitAtDots_snd_ne_nil hdot) i
  · rfl

theorem isThere_ofTransaction (t : Transaction) (f : TransactionField) : (Reading.value (f.value t)).isThere = true := by
  cases f with
  | timestamp =>
    unfold TransactionField.value
    cases t.timestamp <;> rfl
  | _ => rfl

theorem isThere_derived (t : Transaction) (i : Instrument) (u : User) (f : DerivedField) :
    (Reading.value (f.value t i u)).isThere = true := by
  cases f with
  | projectedUtilization | signupBonusRemaining | categoryRewardRate =>
    dsimp only [DerivedField.value]
    split <;> rfl
  | _ => rfl

theorem isThere_ofInstrument (i : Instrument) (f : InstrumentField) : (f.reading i).isThere = true := by
  cases f with
  | signupBonus =>
    unfold InstrumentField.reading
    cases i.terms.signupBonus <;> rfl
  | _ => rfl

theorem isThere_resolve {name : String} (hknown : isKnown name = true) (hdot : hasDot name = false) (t : Transaction)
    (i : Instrument) (u : User) : (resolve name t i u).isThere = true := by
  simp only [isKnown, hdot, Bool.false_and, Bool.or_false, Bool.or_eq_true, Keyed.has, Option.isSome_iff_exists]
    at hknown
  unfold resolve
  cases htransaction : TransactionField.named.get? name with
  | some f => exact isThere_ofTransaction t f
  | none =>
    dsimp only
    cases hderived : DerivedField.named.get? name with
    | some f => exact isThere_derived t i u f
    | none =>
      dsimp only
      cases hinstrument : InstrumentField.named.get? name with
      | some f => exact isThere_ofInstrument i f
      | none => simp [htransaction, hderived, hinstrument] at hknown

end Field

/-! ## What the check refuses -/

theorem Defect.mem_when {holds : Bool} {d e : Defect} : e ∈ when holds d ↔ holds = true ∧ e = d := by
  cases holds <;> simp [when]

/-- The name of the field that a defect refuses. -/
def Defect.refused? : Defect → Option String
  | .noField => some ""
  | .unknownField name => some name
  | _ => none

theorem Defect.isKnown_of_mem_ofField {field name : String} {d : Defect} (h : d ∈ ofField field)
    (hrefused : d.refused? = some name) : field = name ∧ Field.isKnown name = false := by
  unfold ofField at h
  split at h
  · next hempty =>
    obtain rfl := List.mem_singleton.mp h
    cases hrefused
    exact ⟨hempty, by decide⟩
  · split at h
    · cases h
    · next hunknown =>
      obtain rfl := List.mem_singleton.mp h
      cases hrefused
      exact ⟨rfl, Bool.eq_false_iff.mpr hunknown⟩

theorem Rule.refused_of_mem_defects {r : Rule} {d : Defect} {name : String} (h : d ∈ r.defects)
    (hrefused : d.refused? = some name) : name ∈ r.condition.fields ∧ Field.isKnown name = false := by
  have hother {holds : Bool} {e : Defect} (h : d ∈ Defect.when holds e) (hnone : e.refused? = none) : False := by
    obtain ⟨-, rfl⟩ := Defect.mem_when.mp h
    cases hnone.symm.trans hrefused
  unfold defects at h
  simp only [List.mem_append, List.mem_flatMap] at h
  rcases h with ((((h | h) | ⟨field, hfield, h⟩) | h) | h) | h
  · exact (hother h rfl).elim
  · exact (hother h rfl).elim
  · obtain ⟨rfl, hunknown⟩ := Defect.isKnown_of_mem_ofField h hrefused
    exact ⟨hfield, hunknown⟩
  · exact (hother h rfl).elim
  · exact (hother h rfl).elim
  · split at h
    · exact (hother h rfl).elim
    · cases h

namespace Field

/-- What is not known is missing, so nothing is refused with which a comparison could have held; and what is known
without a dot is there. -/
theorem resolve_agrees_with_check (name : String) (t : Transaction) (i : Instrument) (u : User) :
    (isKnown name = false → resolve name t i u = .missing) ∧
      (∀ (r : Rule), ∀ d ∈ r.defects, d.refused? = some name →
        name ∈ r.condition.fields ∧ resolve name t i u = .missing ∧
          ∀ op bound, Condition.comparison t i u name op bound = false) ∧
        (isKnown name = true → '.' ∉ name.toList → (resolve name t i u).isThere = true) := by
  refine ⟨fun h => resolve_of_not_isKnown h t i u, ?_, ?_⟩
  · intro r d hd hrefused
    obtain ⟨hfield, hunknown⟩ := Rule.refused_of_mem_defects hd hrefused
    have hmissing := resolve_of_not_isKnown hunknown t i u
    refine ⟨hfield, hmissing, fun op bound => ?_⟩
    rw [Condition.comparison, hmissing]
    rfl
  · intro hknown hdot
    refine isThere_resolve hknown ?_ t i u
    rw [Bool.eq_false_iff, ne_eq, hasDot_iff]
    exact hdot

/-- The children of a router are there, but what a rule might ask of them is not; the network of the router is. -/
theorem resolve_agrees_with_check_of_router :
    let router : Instrument := .router ⟨(Sample.card "router").toTerms, [Sample.card "a"], .roundRobin⟩
    let r : Rule := { Sample.exclusion "a" with condition := Baseline.compare "children.id" .neq (.text "b") }
    (isKnown "children.id" = false ∧ resolve "children.id" Sample.purchase router Sample.user = .missing) ∧
      (.unknownField "children.id" ∈ r.defects ∧
        Condition.comparison Sample.purchase router Sample.user "children.id" .neq (.text "b") = false) ∧
        isKnown "network" = true ∧ '.' ∉ "network".toList ∧
          (resolve "network" Sample.purchase router Sample.user).isThere = true := by
  intro router r
  obtain ⟨hmissing, hrefused, -⟩ := resolve_agrees_with_check "children.id" Sample.purchase router Sample.user
  obtain ⟨-, -, hthere⟩ := resolve_agrees_with_check "network" Sample.purchase router Sample.user
  have hunknown : isKnown "children.id" = false := by decide +kernel
  have hdefect : .unknownField "children.id" ∈ r.defects := by decide +kernel
  have hknown : isKnown "network" = true := by decide +kernel
  have hdot : '.' ∉ "network".toList := by decide +kernel
  exact ⟨⟨hunknown, hmissing hunknown⟩, ⟨hdefect, (hrefused r _ hdefect rfl).2.2 .neq (.text "b")⟩, hknown, hdot,
    hthere hknown hdot⟩

end Field

end WalletRouting
