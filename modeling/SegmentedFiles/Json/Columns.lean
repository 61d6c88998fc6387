import SegmentedFiles.Json.Value
import SegmentedFiles.Text.Decimal

/-! Taking records out of JSON values. A record is written as an object, whose fields may stand in any
order among others, or as a list of the values in the order of the columns. -/

namespace SegmentedFiles.Json

/-- The values of the columns called `names`, where they are given. An object gives none of them twice,
and a list gives no more than there are. -/
def columns? (names : List String) : Json → Option (List (Option Json))
  | .array items =>
    if items.length ≤ names.length then
      some (items.map some ++ List.replicate (names.length - items.length) none)
    else none
  | .object fields =>
    names.mapM fun name =>
      match fields.filter fun field => field.1 == name with
      | [] => some none
      | [field] => some (some field.2)
      | _ => none
  | _ => none

def nat64? (value : Json) : Option Nat := do
  let n ← value.integer?
  if 0 ≤ n ∧ n ≤ Decimal.max64 then some n.toNat else none

def listOf? {α : Type} (item? : Json → Option α) : Json → Option (List α)
  | .array items => items.mapM item?
  | _ => none

def orNull? {α : Type} (value? : Json → Option α) : Json → Option (Option α)
  | .null => some none
  | value => (value? value).map some

def orElse? {α : Type} (fallback : α) (value? : Json → Option α) : Option Json → Option α
  | none => some fallback
  | some value => value? value

end SegmentedFiles.Json
