import WalletRouting.Proofs.Ruling.Encounters
import WalletRouting.Proofs.Ruling.Outcomes

/-! # The parts of a ruling

A ruling is what its encounters decide, what it tells of each rule, and what the forced instrument is called. The three
are found apart from one another, so that evaluations that agree in them are the same.
-/
namespace WalletRouting
set_option autoImplicit false

namespace Ruling

theorem eq_of_parts {s s' : Ruling} (hdecided : s.decided = s'.decided) (hname : s.forcedName = s'.forcedName)
    (hmatched : s.matched = s'.matched) (hfailed : s.failed = s'.failed) : s = s' := by
  calc
    s = { s.decided with forcedName := s.forcedName, matched := s.matched, failed := s.failed } := rfl
    _ = { s'.decided with forcedName := s'.forcedName, matched := s'.matched, failed := s'.failed } := by
      rw [hdecided, hname, hmatched, hfailed]
    _ = s' := rfl

/-- The forced instrument is called by its name among these, if it is there. -/
def Names (names : Keyed String) (s : Ruling) : Prop := s.forcedName = s.forcedId.bind fun id => names.get? id

theorem Names.hit {names : Keyed String} {tally : Tally} (h : Names names tally.ruling) (r : Rule) (i : Instrument) :
    Names names (hit r names tally i).ruling := by
  unfold Ruling.hit
  cases r.action.type with
  | force =>
    dsimp only
    split
    · rfl
    · exact h
  | exclude | boost | penalize =>
    dsimp only
    split
    · exact h
    · exact h
  | block => exact h

theorem Names.hits {names : Keyed String} {tally : Tally} (h : Names names tally.ruling) (r : Rule)
    (touched : List Instrument) : Names names (touched.foldl (Ruling.hit r names) tally).ruling :=
  List.foldlRecOn (motive := fun tally : Tally => Names names tally.ruling) touched _ h
    fun _ h i _ => h.hit r i

theorem Names.applyRule {names : Keyed String} {tally : Tally} (h : Names names tally.ruling) (t : Transaction)
    (u : User) (instruments : List Instrument) (now : Int) (r : Rule) :
    Names names (applyRule t u instruments names now tally r).ruling := by
  unfold Ruling.applyRule
  split
  · exact h
  · dsimp only
    split
    · exact h.hits r _
    · exact h.hits r _

theorem Names.settle {names : Keyed String} {s : Ruling} (h : Names names s) (entry : String × Pending) :
    Names names (settle s entry) := by
  cases hyields : s.yields entry.1 with
  | true =>
    rw [settle_of_yields hyields]
    exact h
  | false =>
    rw [settle_of_not_yields hyields]
    exact h

theorem tally_names (rules : List Rule) (t : Transaction) (instruments : List Instrument) (u : User) (now : Int) :
    Names (namesOf instruments) (tally rules t instruments u now).ruling := by
  have hstart : Names (namesOf instruments) (⟨{}, []⟩ : Tally).ruling := rfl
  exact List.foldlRecOn (motive := fun tally : Tally => Names (namesOf instruments) tally.ruling) (Rule.active rules)
    _ hstart fun _ h r _ => h.applyRule t u instruments now r

theorem evaluate_names (rules : List Rule) (t : Transaction) (instruments : List Instrument) (u : User) (now : Int) :
    Names (namesOf instruments) (evaluate rules t instruments u now) :=
  List.foldlRecOn _ settle (tally_names rules t instruments u now) fun _ h entry _ => h.settle entry

theorem forcedId_evaluate (rules : List Rule) (t : Transaction) (instruments : List Instrument) (u : User)
    (now : Int) :
    (evaluate rules t instruments u now).forcedId =
      (ofEncounters (encounters rules t instruments u now)).forcedId := by
  rw [← decided_evaluate]
  rfl

end Ruling

end WalletRouting
