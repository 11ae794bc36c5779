import WalletRouting.Proofs.Keyed
import WalletRouting.Proofs.Policy.Reading
import WalletRouting.Proofs.Registry.Editing
import WalletRouting.Proofs.Schema.Reading

/-! # Edits that do not meet

To revise a rule or to remove it is to amend the first rule of an id, whatever the others are. Edits that amend rules of
different ids may be made in either order, and so may one that amends a rule and one that adds another.
-/
namespace WalletRouting
set_option autoImplicit false

theorem Schema.required_text {name s : String} {m : Keyed Value} (h : required name text m = .ok s) :
    m.get? name = some (.text s) := by
  unfold required at h
  split at h
  · next v hget =>
    have hread := Checked.within_eq_ok h
    unfold text at hread
    split at hread
    · cases hread
      exact hget
    · cases hread
  · cases h

open Schema in
theorem Rule.read_id {m : Keyed Value} {r : Rule} (h : Rule.read (.object m) = .ok r) :
    m.get? "id" = some (.text r.id) := required_text (readFrom h).id

namespace Edit

/-- The rules with the first of an id replaced, or taken away. -/
def amendFirst (id : String) (kept : Option Rule) : List Rule → List Rule
  | [] => []
  | r :: rest => if r.id = id then kept.toList ++ rest else r :: amendFirst id kept rest

section AmendFirst

variable {id other : String} {kept : Option Rule} {rules : List Rule}

theorem eraseP_eq_amendFirst (id : String) (rules : List Rule) :
    (rules.eraseP fun r => r.id = id) = amendFirst id none rules := by
  induction rules with
  | nil => rfl
  | cons first rest ih => by_cases h : first.id = id <;> simp [amendFirst, h, ih]

theorem replaceRule_eq_amendFirst (id : String) (revised : Rule) (rules : List Rule) :
    replaceRule id revised rules = amendFirst id (some revised) rules := by
  induction rules with
  | nil => rfl
  | cons first rest ih => by_cases h : first.id = id <;> simp [replaceRule, amendFirst, h, ih]

theorem mem_amendFirst {r : Rule} (h : r ∈ amendFirst id kept rules) : kept = some r ∨ r ∈ rules := by
  induction rules with
  | nil => cases h
  | cons first rest ih =>
    by_cases hid : first.id = id
    · simp only [amendFirst, hid, if_true, List.mem_append, Option.mem_toList] at h
      exact h.imp_right (List.mem_cons_of_mem first)
    · simp only [amendFirst, hid, if_false, List.mem_cons] at h
      rcases h with rfl | h
      · exact Or.inr List.mem_cons_self
      · exact (ih h).imp_right (List.mem_cons_of_mem first)

theorem kept_mem_amendFirst {r : Rule} (hheld : holds id rules = true) : r ∈ amendFirst id (some r) rules := by
  induction rules with
  | nil => cases hheld
  | cons first rest ih =>
    by_cases hid : first.id = id
    · simp [amendFirst, hid]
    · have hrest : holds id rest = true := by simpa [holds, hid] using hheld
      simp [amendFirst, hid, ih hrest]

theorem find?_amendFirst (hne : other ≠ id) (hkept : ∀ r, kept = some r → r.id = id) :
    (amendFirst id kept rules).find? (fun r => r.id = other) = rules.find? (fun r => r.id = other) := by
  induction rules with
  | nil => rfl
  | cons first rest ih =>
    by_cases hid : first.id = id
    · cases kept with
      | none => simp [amendFirst, hid, hne.symm]
      | some r => simp [amendFirst, hid, hkept r rfl, hne.symm]
    · simp only [amendFirst, hid, if_false, List.find?_cons, ih]

theorem amendFirst_append {r : Rule} (hne : r.id ≠ id) :
    amendFirst id kept (rules ++ [r]) = amendFirst id kept rules ++ [r] := by
  induction rules with
  | nil => simp [amendFirst, hne]
  | cons first rest ih => by_cases hid : first.id = id <;> simp [amendFirst, hid, ih]

theorem amendFirst_of_ne_kept (hne : other ≠ id) (hkept : ∀ r, kept = some r → r.id = id) (also : Option Rule) :
    amendFirst other also (kept.toList ++ rules) = kept.toList ++ amendFirst other also rules := by
  cases kept with
  | none => rfl
  | some r => simp [amendFirst, hkept r rfl, hne.symm]

theorem amendFirst_comm {also : Option Rule} (hne : other ≠ id) (hkept : ∀ r, kept = some r → r.id = id)
    (halso : ∀ r, also = some r → r.id = other) :
    amendFirst other also (amendFirst id kept rules) = amendFirst id kept (amendFirst other also rules) := by
  induction rules with
  | nil => rfl
  | cons first rest ih =>
    by_cases hid : first.id = id
    · simp only [amendFirst, hid, if_true, if_neg hne.symm]
      exact amendFirst_of_ne_kept hne hkept also
    · by_cases hother : first.id = other
      · simp only [amendFirst, hother, if_true, if_neg hne]
        exact (amendFirst_of_ne_kept hne.symm halso kept).symm
      · simp only [amendFirst, hid, if_false, hother, ih]

end AmendFirst

/-- What is made of the first rule of an id, if there is one: another rule, nothing, or an error. -/
def verdict (id : String) (f : Rule → Except RegistryError (Option Rule)) (p : PolicyVersion) :
    Except RegistryError (Option Rule) :=
  match p.rules.find? fun r => r.id = id with
  | none => .error (.unknownRule id p.version)
  | some r => f r

def amend (id : String) (f : Rule → Except RegistryError (Option Rule)) : Edit := fun p =>
  (verdict id f p).map fun kept => amendFirst id kept p.rules

/-- A rule of the id that is made another is made another of the id. -/
def Keeps (id : String) (f : Rule → Except RegistryError (Option Rule)) : Prop :=
  ∀ r kept, r.id = id → f r = .ok (some kept) → kept.id = id

/-- Updates that give no rule of the id another one. -/
def KeepsId (id : String) (updates : Keyed Value) : Prop :=
  ∀ r revised, r.id = id → revise updates r = .ok revised → revised.id = id

theorem overlay_id {updates : Keyed Value} {r : Rule} (h : ∀ v, ("id", v) ∈ updates → v = .text r.id) :
    (overlay updates r).get? "id" = some (.text r.id) := by
  have hupdated : (r.exactMembers.update updates).get? "id" = some (.text r.id) :=
    Keyed.get?_update_of_agree rfl h
  simp only [overlay]
  split
  · rwa [Keyed.get?_put_of_ne (by decide)]
  · exact hupdated

theorem keepsId_of_agree {id : String} {updates : Keyed Value} (h : ∀ v, ("id", v) ∈ updates → v = .text id) :
    KeepsId id updates := by
  rintro r revised rfl hrevised
  have hid := overlay_id h
  have hreadId := Rule.read_id (revise_ok hrevised).1
  exact Value.text.inj (Option.some.inj (hreadId.symm.trans hid))

theorem remove_eq_amend (id : String) : remove id = amend id fun _ => .ok none := by
  funext p
  have hholds : holds id p.rules = (p.rules.find? fun r => r.id = id).isSome := by
    rw [holds, List.isSome_find?]
  simp only [remove, amend, verdict, hholds]
  cases p.rules.find? fun r => r.id = id with
  | none => rfl
  | some r => exact congrArg Except.ok (eraseP_eq_amendFirst id p.rules)

/-- The part of an update that looks at the rule. -/
def revisal (updates : Keyed Value) (r : Rule) : Except RegistryError (Option Rule) :=
  if r.writeErrors.contains .tooDeep then .error (.unwritable .tooDeep) else (revise updates r).map some

theorem update_eq_amend {id : String} {updates : Keyed Value} (hkeeps : KeepsId id updates) :
    update id updates = amend id (revisal updates) := by
  funext p
  simp only [update, amend, verdict, find, revisal]
  cases hfind : p.rules.find? fun r => r.id = id with
  | none => rfl
  | some r =>
    have hid : r.id = id := by simpa using List.find?_some hfind
    dsimp only
    split
    · rfl
    · dsimp only [bind, Except.bind]
      cases hrevised : revise updates r with
      | error e => rfl
      | ok revised =>
        have hsame := hkeeps r revised hid hrevised
        simp [hsame, pure, Except.pure, replaceRule_eq_amendFirst, Except.map]

theorem keeps_none (id : String) : Keeps id fun _ => .ok none := by
  intro r kept _ h
  cases h

theorem revisal_keeps {id : String} {updates : Keyed Value} (hkeeps : KeepsId id updates) :
    Keeps id (revisal updates) := by
  intro r kept hid h
  simp only [revisal] at h
  split at h
  · cases h
  · cases hrevised : revise updates r with
    | error e =>
      rw [hrevised] at h
      cases h
    | ok revised =>
      rw [hrevised] at h
      cases h
      exact hkeeps r kept hid hrevised

section Verdict

variable {id : String} {f : Rule → Except RegistryError (Option Rule)} {p : PolicyVersion} {kept : Option Rule}

theorem verdict_ok (h : verdict id f p = .ok kept) :
    ∃ r, p.rules.find? (fun r => r.id = id) = some r ∧ f r = .ok kept := by
  simp only [verdict] at h
  split at h
  · cases h
  · next r hfind => exact ⟨r, hfind, h⟩

theorem verdict_keeps (hf : Keeps id f) (h : verdict id f p = .ok kept) : ∀ r, kept = some r → r.id = id := by
  rintro r rfl
  obtain ⟨first, hfind, hkept⟩ := verdict_ok h
  have hid : first.id = id := by simpa using List.find?_some hfind
  exact hf first r hid hkept

theorem holds_of_verdict (h : verdict id f p = .ok kept) : holds id p.rules = true := by
  obtain ⟨first, hfind, -⟩ := verdict_ok h
  rw [holds, ← List.isSome_find?, hfind, Option.isSome_some]

theorem verdict_withRules {rules : List Rule}
    (h : rules.find? (fun r => r.id = id) = p.rules.find? (fun r => r.id = id)) :
    verdict id f (p.withRules rules) = verdict id f p := by
  have hversion : (p.withRules rules).version = p.version := rfl
  have hrules : (p.withRules rules).rules = rules := rfl
  rw [verdict, verdict, hversion, hrules, h]

theorem amend_of_verdict (h : verdict id f p = .ok kept) : amend id f p = .ok (amendFirst id kept p.rules) := by
  rw [amend, h]
  rfl

theorem amend_ok {rules : List Rule} (h : amend id f p = .ok rules) :
    ∃ kept, verdict id f p = .ok kept ∧ rules = amendFirst id kept p.rules := by
  cases hverdict : verdict id f p with
  | error e =>
    rw [amend, hverdict] at h
    cases h
  | ok kept =>
    rw [amend_of_verdict hverdict] at h
    cases h
    exact ⟨kept, rfl, rfl⟩

theorem amend_error {e : RegistryError} : amend id f p = .error e ↔ verdict id f p = .error e := by
  rw [amend]
  cases verdict id f p with
  | error e => simp [Except.map]
  | ok kept => simp [Except.map]

end Verdict

/-- Edits neither of which bears on what the other makes of the rules. -/
structure Independent (a b : Edit) : Prop where
  both : ∀ {p : PolicyVersion} {left right : List Rule}, a p = .ok left → b p = .ok right →
    ∃ rules, b (p.withRules left) = .ok rules ∧ a (p.withRules right) = .ok rules ∧ ∀ r ∈ rules, r ∈ left ∨ r ∈ right
  left_only : ∀ {p : PolicyVersion} {left : List Rule} {e : RegistryError}, a p = .ok left → b p = .error e →
    b (p.withRules left) = .error e
  right_only : ∀ {p : PolicyVersion} {right : List Rule} {e : RegistryError}, b p = .ok right → a p = .error e →
    a (p.withRules right) = .error e

theorem Independent.symm {a b : Edit} (h : Independent a b) : Independent b a where
  both := by
    intro p left right hleft hright
    obtain ⟨rules, hb, ha, hmem⟩ := h.both hright hleft
    exact ⟨rules, ha, hb, fun r hr => (hmem r hr).symm⟩
  left_only := h.right_only
  right_only := h.left_only

variable {id other : String} {f g : Rule → Except RegistryError (Option Rule)}

theorem verdict_after_amend {p : PolicyVersion} {rules : List Rule} (hne : other ≠ id) (hf : Keeps id f)
    (h : amend id f p = .ok rules) : verdict other g (p.withRules rules) = verdict other g p := by
  obtain ⟨kept, hverdict, rfl⟩ := amend_ok h
  exact verdict_withRules (find?_amendFirst hne (verdict_keeps hf hverdict))

theorem amend_independent (hne : other ≠ id) (hf : Keeps id f) (hg : Keeps other g) :
    Independent (amend id f) (amend other g) where
  both := by
    intro p left right hleft hright
    have hafter := verdict_after_amend (g := g) hne hf hleft
    have hbefore := verdict_after_amend (g := f) hne.symm hg hright
    obtain ⟨kept, hkept, rfl⟩ := amend_ok hleft
    obtain ⟨also, halso, rfl⟩ := amend_ok hright
    have hcomm : amendFirst other also (amendFirst id kept p.rules) = amendFirst id kept (amendFirst other also p.rules) :=
      amendFirst_comm hne (verdict_keeps hf hkept) (verdict_keeps hg halso)
    refine ⟨amendFirst other also (amendFirst id kept p.rules), amend_of_verdict (hafter.trans halso), ?_, ?_⟩
    · rw [hcomm]
      exact amend_of_verdict (hbefore.trans hkept)
    · intro r hr
      rcases mem_amendFirst hr with rfl | hr
      · exact Or.inr (kept_mem_amendFirst (holds_of_verdict halso))
      · exact Or.inl hr
  left_only := by
    intro p left e hleft hright
    exact amend_error.mpr ((verdict_after_amend hne hf hleft).trans (amend_error.mp hright))
  right_only := by
    intro p right e hright hleft
    exact amend_error.mpr ((verdict_after_amend hne.symm hg hright).trans (amend_error.mp hleft))

theorem holds_amend {p : PolicyVersion} {rules : List Rule} (hne : other ≠ id) (hf : Keeps id f)
    (h : amend id f p = .ok rules) : holds other rules = holds other p.rules := by
  obtain ⟨kept, hverdict, rfl⟩ := amend_ok h
  rw [holds, holds, ← List.isSome_find?, ← List.isSome_find?, find?_amendFirst hne (verdict_keeps hf hverdict)]

theorem add_eq_ok {r : Rule} {p : PolicyVersion} (h : holds r.id p.rules = false) : add r p = .ok (p.rules ++ [r]) := by
  rw [add, h, if_neg Bool.false_ne_true]

theorem remove_added {r : Rule} {p : PolicyVersion} (hfresh : r.id ∉ p.rules.map Rule.id) :
    remove r.id (p.withRules (p.rules ++ [r])) = .ok p.rules := by
  have hrules : (p.withRules (p.rules ++ [r])).rules = p.rules ++ [r] := rfl
  have hheld : holds r.id (p.rules ++ [r]) = true := by simp [holds]
  have hothers : ∀ q ∈ p.rules, ¬decide (q.id = r.id) = true := by
    intro q hq hid
    exact hfresh (List.mem_map.mpr ⟨q, hq, of_decide_eq_true hid⟩)
  rw [remove, hrules, if_pos hheld, List.eraseP_append_right _ hothers]
  simp

theorem verdict_after_add {r : Rule} {p : PolicyVersion} {rules : List Rule} (hne : r.id ≠ id) (h : add r p = .ok rules) :
    verdict id f (p.withRules rules) = verdict id f p := by
  obtain ⟨-, rfl⟩ := add_ok h
  refine verdict_withRules ?_
  simp [hne]

theorem amend_add_independent {r : Rule} (hne : r.id ≠ id) (hf : Keeps id f) : Independent (amend id f) (add r) where
  both := by
    intro p left right hleft hright
    have hbefore := verdict_after_add (f := f) hne hright
    have hheld : holds r.id left = holds r.id p.rules := holds_amend hne hf hleft
    obtain ⟨kept, hkept, rfl⟩ := amend_ok hleft
    obtain ⟨hfresh, rfl⟩ := add_ok hright
    refine ⟨amendFirst id kept p.rules ++ [r], ?_, ?_, ?_⟩
    · exact add_eq_ok (hheld.trans (holds_eq_false_iff.mpr hfresh))
    · rw [← amendFirst_append hne]
      exact amend_of_verdict (hbefore.trans hkept)
    · intro r' hr'
      rcases List.mem_append.mp hr' with hr' | hr'
      · exact Or.inl hr'
      · exact Or.inr (List.mem_append_right _ hr')
  left_only := by
    intro p left e hleft hright
    have hheld : holds r.id left = holds r.id p.rules := holds_amend hne hf hleft
    cases hholds : holds r.id p.rules with
    | false => cases (add_eq_ok hholds).symm.trans hright
    | true =>
      rw [add, if_pos hholds] at hright
      rw [← hright, add]
      exact if_pos (hheld.trans hholds)
  right_only := by
    intro p right e hright hleft
    exact amend_error.mpr ((verdict_after_add hne hright).trans (amend_error.mp hleft))

end Edit

end WalletRouting
