import WalletRouting.Schema.Misuse
import WalletRouting.Score.Sensitivity

/-! # Rows in short

Where only the choice between rows matters, a row may be given by its id, its normalised subscores in order, and what
was added and taken.
-/
namespace WalletRouting
set_option autoImplicit false

namespace Subscores

/-- Subscores of which nothing but the normalised values is given. -/
def short (normalized : List Value) : Value := .object
  ((Criterion.all.zip normalized).map fun (c, n) => (c.name, .object [("normalized", n)]))

end Subscores

namespace ScoreRow

/-- The row that is given in short. -/
def ofShort (v : Value) : Except Misuse ScoreRow := do
  let id ← v.entry "id"
  let normalized ← (← v.entry "normalized").elements
  let member (name : String) (default : Value) : Except Misuse Value := do return (← v.entry? name).getD default
  (read (.object
    [("credential_id", id), ("credential_name", id), ("subscores", Subscores.short normalized),
     ("total_bonuses", ← member "bonus" (.float 0.0)), ("total_penalties", ← member "penalty" (.float 0.0)),
     ("excluded", ← member "excluded" (.bool false))])).usable

end ScoreRow

end WalletRouting
