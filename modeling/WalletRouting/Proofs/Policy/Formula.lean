import Mathlib.Data.List.Forall2
import WalletRouting.Proofs.Policy.Tree

/-! # The text of a condition, read

The text of a condition is a row of comparisons, parentheses and words. Whoever knows of every comparison whether it
holds can read the text by its parentheses and words alone, and comes to `Condition.shown`.
-/
namespace WalletRouting
set_option autoImplicit false

namespace Comparison

def text (c : Comparison) : String := c.field ++ " " ++ c.operator.symbol ++ " " ++ c.bound.operand

def truth (holds : String → Operator → Value → Bool) (c : Comparison) : Bool := holds c.field c.operator c.bound

end Comparison

inductive Connective where
  | both
  | either
  deriving DecidableEq

namespace Connective

def word : Connective → String
  | .both => " AND "
  | .either => " OR "

def join : Connective → Bool → Bool → Bool
  | .both => and
  | .either => or

end Connective

inductive Token where
  | opening
  | closing
  | word (w : Connective)
  | comparison (c : Comparison)

namespace Token

def text : Token → String
  | .opening => "("
  | .closing => ")"
  | .word w => w.word
  | .comparison c => c.text

def textOf (tokens : List Token) : String := String.join (tokens.map text)

end Token

/-- How far the inside of a pair of parentheses has been read. The words inside one pair are all the same. -/
inductive Group where
  | opened
  | begun (value : Bool)
  | joining (w : Connective) (value : Bool)
  | joined (w : Connective) (value : Bool)

namespace Group

def operand (value : Bool) : Group → Option Group
  | .opened => some (.begun value)
  | .joining w before => some (.joined w (w.join before value))
  | _ => none

def word (w : Connective) : Group → Option Group
  | .begun value => some (.joining w value)
  | .joined v value => if v = w then some (.joining w value) else none
  | _ => none

end Group

namespace Token

/-- Reads on inside some groups, the innermost first. A group that closes has a truth value in the next one. -/
def readOn (holds : String → Operator → Value → Bool) : List Token → List Group → Option Bool
  | [], [.begun value] => some value
  | .opening :: rest, groups => readOn holds rest (.opened :: groups)
  | .comparison c :: rest, g :: groups => do
    let g ← g.operand (c.truth holds)
    readOn holds rest (g :: groups)
  | .word w :: rest, g :: groups => do
    let g ← g.word w
    readOn holds rest (g :: groups)
  | .closing :: rest, .joined _ value :: g :: groups => do
    let g ← g.operand value
    readOn holds rest (g :: groups)
  | _, _ => none

/-- The truth value of a text that is well formed. -/
def read (holds : String → Operator → Value → Bool) (tokens : List Token) : Option Bool :=
  readOn holds tokens [.opened]

/-- A text and more of its kind, in parentheses with a word between; alone it stays as it is. -/
def grouped (w : Connective) (own : List Token) (more : List (List Token)) : List Token :=
  if more.isEmpty then own else .opening :: (own ++ (more.flatMap fun ts => .word w :: ts) ++ [.closing])

theorem textOf_append (ts us : List Token) : textOf (ts ++ us) = textOf ts ++ textOf us := by
  rw [← String.toList_inj]
  simp [textOf, String.toList_join]

theorem textOf_cons (t : Token) (ts : List Token) : textOf (t :: ts) = t.text ++ textOf ts := by
  rw [textOf, List.map_cons, String.join_cons]
  rfl

theorem textOf_worded (w : Connective) (first : List Token) (rest : List (List Token)) :
    textOf ((first :: rest).flatMap fun ts => .word w :: ts) =
      w.word ++ w.word.intercalate ((first :: rest).map textOf) := by
  induction rest generalizing first with
  | nil => simp [textOf_cons, text]
  | cons second rest ih =>
    rw [List.flatMap_cons, textOf_append, ih, textOf_cons, text]
    simp only [List.map_cons, String.intercalate_cons_cons, String.append_assoc]

theorem textOf_grouped (w : Connective) (own : List Token) (more : List (List Token)) :
    textOf (grouped w own more) = Condition.joined w.word (textOf own) (more.map textOf) := by
  cases more with
  | nil => rfl
  | cons first rest =>
    rw [grouped, if_neg (by simp), textOf_cons, textOf_append, textOf_append, textOf_worded, Condition.joined,
      if_neg (by simp)]
    simp [textOf, text, String.append_assoc]

/-- Wherever these tokens stand, they read as one operand of this value. -/
def Reads (holds : String → Operator → Value → Bool) (ts : List Token) (value : Bool) : Prop :=
  ∀ rest g groups, readOn holds (ts ++ rest) (g :: groups) =
    (g.operand value).bind fun g => readOn holds rest (g :: groups)

variable {holds : String → Operator → Value → Bool}

theorem reads_comparison (c : Comparison) : Reads holds [.comparison c] (c.truth holds) := fun _ _ _ => rfl

theorem readOn_joined {w : Connective} {more : List (List Token)} {values : List Bool}
    (h : List.Forall₂ (Reads holds) more values) (value : Bool) (rest : List Token) (groups : List Group) :
    readOn holds ((more.flatMap fun ts => .word w :: ts) ++ rest) (.joined w value :: groups) =
      readOn holds rest (.joined w (values.foldl w.join value) :: groups) := by
  induction h generalizing value with
  | nil => rfl
  | cons hread _ ih =>
    rw [List.flatMap_cons, List.append_assoc, List.cons_append, readOn]
    simp only [Group.word, if_true, Option.bind_eq_bind, Option.bind_some]
    rw [hread, Group.operand, Option.bind_some, ih, List.foldl_cons]

theorem reads_grouped {w : Connective} {own : List Token} {value : Bool} {more : List (List Token)}
    {values : List Bool} (hown : Reads holds own value) (hmore : List.Forall₂ (Reads holds) more values) :
    Reads holds (grouped w own more) (values.foldl w.join value) := by
  cases hmore with
  | nil => exact hown
  | cons hread hrest =>
    intro rest g groups
    rw [grouped, if_neg (by simp), List.flatMap_cons]
    simp only [List.cons_append, List.append_assoc, readOn]
    rw [hown, Group.operand, Option.bind_some, readOn]
    simp only [Group.word, Option.bind_eq_bind, Option.bind_some]
    rw [hread, Group.operand, Option.bind_some, readOn_joined hrest]
    rfl

end Token

namespace Connective

theorem foldl_both (values : List Bool) (value : Bool) : values.foldl both.join value = (value && values.all id) := by
  induction values generalizing value with
  | nil => simp
  | cons b rest ih =>
    rw [List.foldl_cons, ih, List.all_cons, ← Bool.and_assoc]
    rfl

theorem foldl_either (values : List Bool) (value : Bool) :
    values.foldl either.join value = (value || values.any id) := by
  induction values generalizing value with
  | nil => simp
  | cons b rest ih =>
    rw [List.foldl_cons, ih, List.any_cons, ← Bool.or_assoc]
    rfl

end Connective

namespace Condition

open Token (grouped Reads)

def tokens : Condition → List Token :=
  fold fun field operator bound all any =>
    grouped .either (grouped .both [.comparison ⟨field, operator, bound⟩] all) any

/-- What the text says: the comparison and all of the one kind of children hold, or any of the other kind does. -/
def shown (holds : String → Operator → Value → Bool) : Condition → Bool :=
  fold fun field operator bound all any => (holds field operator bound && all.all id) || any.any id

theorem tokens_node (field : String) (operator : Operator) (bound : Value) (all any : Option (List Condition)) :
    tokens (.node field operator bound all any) =
      grouped .either (grouped .both [.comparison ⟨field, operator, bound⟩] ((children all).map tokens))
        ((children any).map tokens) :=
  fold_node _

theorem shown_node (holds : String → Operator → Value → Bool) (field : String) (operator : Operator) (bound : Value)
    (all any : Option (List Condition)) :
    shown holds (.node field operator bound all any) =
      ((holds field operator bound && (children all).all (shown holds)) || (children any).any (shown holds)) := by
  rw [shown, fold_node, List.all_map, List.any_map]
  rfl

theorem textOf_tokens (c : Condition) : Token.textOf c.tokens = c.snippet := by
  induction c using induct with
  | node field operator bound all any hall hany =>
    have htexts {branch : Option (List Condition)}
        (h : ∀ c ∈ children branch, Token.textOf c.tokens = c.snippet) :
        ((children branch).map tokens).map Token.textOf = (children branch).map snippet := by
      rw [List.map_map]
      exact List.map_congr_left h
    rw [tokens_node, Token.textOf_grouped, Token.textOf_grouped, snippet_node, htexts hall, htexts hany]
    simp [Token.textOf, Token.text, Comparison.text, Connective.word]

theorem reads_tokens (holds : String → Operator → Value → Bool) (c : Condition) :
    Reads holds c.tokens (c.shown holds) := by
  induction c using induct with
  | node field operator bound all any hall hany =>
    have hreads {branch : Option (List Condition)} (h : ∀ c ∈ children branch, Reads holds c.tokens (c.shown holds)) :
        List.Forall₂ (Reads holds) ((children branch).map tokens) ((children branch).map (shown holds)) := by
      rw [List.forall₂_map_left_iff, List.forall₂_map_right_iff, List.forall₂_same]
      exact h
    have hown : Reads holds [.comparison ⟨field, operator, bound⟩] (holds field operator bound) :=
      Token.reads_comparison _
    have hnode := Token.reads_grouped (w := .either) (Token.reads_grouped (w := .both) hown (hreads hall)) (hreads hany)
    rw [Connective.foldl_both, Connective.foldl_either, List.all_map, List.any_map] at hnode
    rw [tokens_node, shown_node]
    exact hnode

/-- The text can be read, and in one way only. -/
theorem read_tokens (holds : String → Operator → Value → Bool) (c : Condition) :
    Token.read holds c.tokens = some (c.shown holds) := by
  have h := reads_tokens holds c [] .opened []
  rwa [List.append_nil] at h

end Condition

end WalletRouting
