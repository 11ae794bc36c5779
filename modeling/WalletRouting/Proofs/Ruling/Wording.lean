import WalletRouting.Policy.Signature
import WalletRouting.Proofs.Ordered
import WalletRouting.Ruling.Evaluation

/-! # What rules are called

A rule has a label and may have a stored snippet, and a version has a description. Here they are struck out, from a
policy and from all that quotes it. What the rules decide without them is what they decide with them.
-/
namespace WalletRouting
set_option autoImplicit false

/-! ## Policies -/

def Rule.wordless (r : Rule) : Rule := { r with label := "", compiled := none }

def PolicyVersion.wordless (p : PolicyVersion) : PolicyVersion :=
  { p with rules := p.rules.map Rule.wordless, description := "" }

namespace Rule

theorem active_wordless (rules : List Rule) : active (rules.map wordless) = (active rules).map wordless := by
  rw [active, List.filter_map, Ordered.sort_map]
  rfl

theorem current_wordless (now : Int) (rules : List Rule) :
    current now (rules.map wordless) = (current now rules).map wordless := by
  rw [current, active_wordless, List.filter_map]
  rfl

end Rule

theorem Signature.ofRules_wordless (rules : List Rule) : ofRules (rules.map Rule.wordless) = ofRules rules := by
  unfold ofRules canonicalText Value.ofList
  rw [List.map_map]
  rfl

/-! ## What quotes them -/

def RuleOutcome.wordless (o : RuleOutcome) : RuleOutcome := { o with label := "", snippet := o.snippet.map fun _ => "" }

/-- An exclusion that was overridden quotes the label of the rule that did it. -/
def Overridden.wordless (o : Overridden) : Overridden := { o with overriddenBy := "" }

def ForcingRule.wordless (f : ForcingRule) : ForcingRule := { f with label := "" }

def Ruling.wordless (s : Ruling) : Ruling :=
  { s with
    forcingRule := s.forcingRule.map ForcingRule.wordless
    overridden := s.overridden.map Overridden.wordless
    matched := s.matched.map RuleOutcome.wordless
    failed := s.failed.map RuleOutcome.wordless }

@[simp] theorem RuleOutcome.wordless_wordless (o : RuleOutcome) : o.wordless.wordless = o.wordless := by
  simp [wordless, Function.comp_def]

@[simp] theorem Overridden.wordless_wordless (o : Overridden) : o.wordless.wordless = o.wordless := rfl

@[simp] theorem ForcingRule.wordless_wordless (f : ForcingRule) : f.wordless.wordless = f.wordless := rfl

@[simp] theorem Ruling.wordless_wordless (s : Ruling) : s.wordless.wordless = s.wordless := by
  simp [wordless, Function.comp_def]

namespace Ruling

variable (r : Rule) (t : Transaction) (u : User) (instruments : List Instrument) (names : Keyed String) (now : Int)

def Tally.wordless (tally : Tally) : Tally := { tally with ruling := tally.ruling.wordless }

@[simp] theorem Tally.wordless_wordless (tally : Tally) : tally.wordless.wordless = tally.wordless := by
  simp [wordless]

theorem hit_wordless (tally : Tally) (i : Instrument) :
    hit r.wordless names tally.wordless i = (hit r names tally i).wordless := by
  unfold hit
  cases haction : r.action.type <;> simp only [Rule.wordless, haction, apply_ite Tally.wordless] <;> rfl

theorem foldl_hit_wordless (touched : List Instrument) (tally : Tally) :
    touched.foldl (hit r.wordless names) tally.wordless = (touched.foldl (hit r names) tally).wordless :=
  List.foldl_hom Tally.wordless (hit_wordless r names)

theorem addMatched_wordless (s : Ruling) : (addMatched r.wordless s.wordless).wordless = (addMatched r s).wordless := by
  simp [addMatched, wordless, Function.comp_def]
  rfl

theorem addFailed_wordless (reason : String) (s : Ruling) :
    (addFailed reason r.wordless s.wordless).wordless = (addFailed reason r s).wordless := by
  simp [addFailed, wordless, Function.comp_def]
  rfl

theorem applyRule_wordless (tally : Tally) :
    (applyRule t u instruments names now tally.wordless r.wordless).wordless =
      (applyRule t u instruments names now tally r).wordless := by
  have hexpired : r.wordless.expired now = r.expired now := rfl
  have hholds : r.wordless.condition.holds t placeholder u = r.condition.holds t placeholder u := rfl
  have htouched : hits r.wordless t u instruments = hits r t u instruments := rfl
  unfold applyRule
  dsimp only
  rw [hexpired, htouched, hholds, foldl_hit_wordless]
  simp only [apply_ite Tally.wordless]
  simp only [Tally.wordless, addFailed_wordless, addMatched_wordless]

theorem settle_wordless (s : Ruling) (entry : String × Pending) :
    (settle s.wordless entry).wordless = (settle s entry).wordless := by
  obtain ⟨id, p⟩ := entry
  by_cases hyields : s.hardOverride = true ∧ s.forcedId = some id
  · have hyields' : s.wordless.hardOverride = true ∧ s.wordless.forcedId = some id := hyields
    rw [settle, if_pos hyields', settle, if_pos hyields]
    simp [wordless, Function.comp_def]
    rfl
  · have hyields' : ¬(s.wordless.hardOverride = true ∧ s.wordless.forcedId = some id) := hyields
    rw [settle, if_neg hyields', settle, if_neg hyields]
    simp [wordless, Function.comp_def]

theorem tally_wordless (rules : List Rule) :
    (tally (rules.map Rule.wordless) t instruments u now).wordless = (tally rules t instruments u now).wordless := by
  unfold tally
  rw [Rule.active_wordless, List.foldl_map]
  refine List.foldl_rel (r := fun x y : Tally => x.wordless = y.wordless) rfl fun r _ x y hxy => ?_
  rw [← applyRule_wordless r, ← hxy]
  exact (applyRule_wordless r.wordless t u instruments _ now x).symm

theorem evaluate_wordless (rules : List Rule) :
    (evaluate (rules.map Rule.wordless) t instruments u now).wordless =
      (evaluate rules t instruments u now).wordless := by
  obtain ⟨hruling, hpending⟩ := Tally.mk.inj (tally_wordless t u instruments now rules)
  unfold evaluate
  dsimp only
  rw [hpending]
  refine List.foldl_rel (r := fun x y : Ruling => x.wordless = y.wordless) hruling fun entry _ x y hxy => ?_
  rw [← settle_wordless x, ← settle_wordless y, hxy]

end Ruling

end WalletRouting
