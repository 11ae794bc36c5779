import WalletRouting.Score.Basic

/-! # Resolutions

A resolution records which child a routing credential settled on, why, and how its children scored.
-/
namespace WalletRouting
set_option autoImplicit false

structure Resolution where
  routerId : String
  child : Credential
  rows : List ScoreRow
  reason : String
  timestamp : Int
  deriving Repr

namespace Resolution

open Schema

def read : Read Resolution := record fun m =>
  Resolution.mk <$> required "drt_id" text m
    <*> required "selected_child" Credential.read m
    <*> optional "child_scores" [] (listOf ScoreRow.read) m
    <*> required "resolution_reason" text m
    <*> required "timestamp" integer m

def writeError? (r : Resolution) : Option WriteError := r.child.toTerms.writeError?

def toValue (r : Resolution) : Value := .object
  [("drt_id", .text r.routerId),
   ("selected_child", r.child.toValue),
   ("child_scores", .ofList ScoreRow.toValue r.rows),
   ("resolution_reason", .text r.reason),
   ("timestamp", .int r.timestamp)]

def summary (r : Resolution) : String :=
  "DRT[" ++ r.routerId ++ "] → " ++ r.child.name ++ " (" ++ r.child.dpan ++ ") | " ++ r.reason

end Resolution

end WalletRouting
