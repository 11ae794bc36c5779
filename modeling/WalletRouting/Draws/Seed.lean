import WalletRouting.Draws
import WalletRouting.Schema.Spelling

/-! # Seeds of any kind

A generator starts from whatever has an integer part. Records are stricter than that: they take a seed only
as `Schema.integer` reads it, and the two agree wherever both have an answer.
-/
namespace WalletRouting
set_option autoImplicit false

inductive SeedError where
  /-- The number has no integer part. -/
  | number (e : NumberError)
  /-- The text is no integer. -/
  | unreadable
  /-- The value is neither a number nor a text. -/
  | notANumber
  deriving DecidableEq, Repr

namespace Seed

/-- Where a generator starts: a number is cut to its integer part, and true counts as one. -/
def ofValue : Value → Except SeedError Int
  | .num n => n.truncate.mapError .number
  | .bool b => .ok (if b then 1 else 0)
  | .text s =>
    match Schema.spelledInteger? s with
    | some n => .ok n
    | none => .error .unreadable
  | _ => .error .notANumber

/-- What a record has against a seed. -/
def issues (v : Value) : List Schema.Issue :=
  match (Schema.integer v).within (.key "replay_seed") with
  | .ok _ => []
  | .bad found => found

end Seed

end WalletRouting
