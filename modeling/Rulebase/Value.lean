import Rulebase.Number.Shortest

/-!
# Values of policy documents

A document is built from nulls, truths, numbers, texts, lists and mappings. A mapping keeps its
entries in the order in which their keys first came; a later value of a key takes the place of an
earlier one. A value has a plain text, and a literal in which texts are quoted, which is also how the
parts of a list or mapping are shown.
-/

namespace Rulebase

inductive Value where
  | null
  | bool (b : Bool)
  | int (i : Int)
  | real (x : Binary64)
  | text (s : String)
  | list (items : List Value)
  | mapping (entries : List (Value × Value))
  deriving Repr, Inhabited

namespace Value

def typeName : Value → String
  | null => "NoneType"
  | bool _ => "bool"
  | int _ => "int"
  | real _ => "float"
  | text _ => "str"
  | list _ => "list"
  | mapping _ => "dict"

mutual

def literal : Value → String
  | null => "None"
  | bool b => if b then "True" else "False"
  | int i => Text.integer i
  | real x => x.text
  | text s => Text.quote s
  | list items => "[" ++ itemLiterals items ++ "]"
  | mapping entries => "\x7b" ++ entryLiterals entries ++ "\x7d"

def itemLiterals : List Value → String
  | [] => ""
  | [v] => v.literal
  | v :: vs => v.literal ++ ", " ++ itemLiterals vs

def entryLiterals : List (Value × Value) → String
  | [] => ""
  | [(k, v)] => k.literal ++ ": " ++ v.literal
  | (k, v) :: rest => k.literal ++ ": " ++ v.literal ++ ", " ++ entryLiterals rest

end

/-- The plain text of a value: a text as it is, and any other value's literal. -/
def plain : Value → String
  | text s => s
  | v => v.literal

mutual

/-- Every integer in a value is within the limit of numerals, so that the value can be written. -/
def isWritable : Value → Bool
  | int i => Text.isWritable i
  | list items => itemsWritable items
  | mapping entries => entriesWritable entries
  | null | bool _ | real _ | text _ => true

def itemsWritable : List Value → Bool
  | [] => true
  | v :: vs => v.isWritable && itemsWritable vs

def entriesWritable : List (Value × Value) → Bool
  | [] => true
  | (k, v) :: rest => k.isWritable && v.isWritable && entriesWritable rest

end

/-- A value counts as false when it is null, false, zero or empty. -/
def truthy : Value → Bool
  | null => false
  | bool b => b
  | int i => i != 0
  | real x => !x.isZero
  | text s => s != ""
  | list items => !items.isEmpty
  | mapping entries => !entries.isEmpty

/-- A truth counts as zero or one where a number is asked for. -/
def asInt? : Value → Option Int
  | bool b => some (if b then 1 else 0)
  | int i => some i
  | _ => none

/-- A number or a truth. -/
def isNumber : Value → Bool
  | bool _ | int _ | real _ => true
  | _ => false

/-- The order of two numbers; nothing when a value is not a number or is undefined. -/
def compareNumbers? : Value → Value → Option Ordering
  | real x, real y => x.compare? y
  | real x, v => v.asInt?.bind x.compareInt?
  | v, real y => (v.asInt?.bind y.compareInt?).map Ordering.swap
  | v, w => do return compare (← v.asInt?) (← w.asInt?)

mutual

/-- Values are the same when they are equal as numbers, texts, lists or mappings. -/
def same : Value → Value → Bool
  | null, null => true
  | text s, text t => s == t
  | list xs, list ys => sameItems xs ys
  | mapping xs, mapping ys => xs.length == ys.length && sameEntries xs ys
  | v, w => v.compareNumbers? w == some .eq

def sameItems : List Value → List Value → Bool
  | [], [] => true
  | x :: xs, y :: ys => same x y && sameItems xs ys
  | _, _ => false

/-- Every entry stands in the other mapping. -/
def sameEntries : List (Value × Value) → List (Value × Value) → Bool
  | [], _ => true
  | (k, v) :: rest, others =>
    others.any (fun other => same k other.1 && same v other.2) && sameEntries rest others

end

structure Unordered where
  left : String
  right : String
  deriving DecidableEq, Repr

def Unordered.message (e : Unordered) : String :=
  "'<' not supported between instances of '" ++ e.left ++ "' and '" ++ e.right ++ "'"

mutual

/-- A value stands before another: numbers by size, texts by code points, and lists by their first
difference. Values of other types have no order. -/
def less? : Value → Value → Except Unordered Bool
  | text s, text t => .ok (s < t)
  | list xs, list ys => lessItems? xs ys
  | v, w =>
    match v.compareNumbers? w with
    | some o => .ok (o == .lt)
    | none =>
      if v.isNumber && w.isNumber then .ok false else .error ⟨v.typeName, w.typeName⟩

/-- The order of two lists: that of the first items that differ, or the shorter first. -/
def lessItems? : List Value → List Value → Except Unordered Bool
  | [], ys => .ok (!ys.isEmpty)
  | _ :: _, [] => .ok false
  | x :: xs, y :: ys => if same x y then lessItems? xs ys else less? x y

end

/-- The entries of a mapping with a value put under a key: in the place of the key's earlier value, or
at the end. -/
def put (entries : List (Value × Value)) (key value : Value) : List (Value × Value) :=
  if entries.any (same ·.1 key) then entries.map fun e => if same e.1 key then (e.1, value) else e
  else entries ++ [(key, value)]

def get? (entries : List (Value × Value)) (key : String) : Option Value :=
  entries.findSome? fun
    | (text k, v) => if k = key then some v else none
    | _ => none

mutual

/-- Values are equal when they are of one sort and have equal parts. -/
def decEq (v w : Value) : Decidable (v = w) :=
  match v, w with
  | null, w => match w with
    | null => isTrue rfl
    | bool _ | int _ | real _ | text _ | list _ | mapping _ => isFalse (by simp)
  | bool a, w => match w with
    | bool b => decidable_of_decidable_of_iff (bool.injEq a b).to_iff.symm
    | null | int _ | real _ | text _ | list _ | mapping _ => isFalse (by simp)
  | int i, w => match w with
    | int j => decidable_of_decidable_of_iff (int.injEq i j).to_iff.symm
    | null | bool _ | real _ | text _ | list _ | mapping _ => isFalse (by simp)
  | real x, w => match w with
    | real y => decidable_of_decidable_of_iff (real.injEq x y).to_iff.symm
    | null | bool _ | int _ | text _ | list _ | mapping _ => isFalse (by simp)
  | text s, w => match w with
    | text t => decidable_of_decidable_of_iff (text.injEq s t).to_iff.symm
    | null | bool _ | int _ | real _ | list _ | mapping _ => isFalse (by simp)
  | list xs, w => match w with
    | list ys =>
      have := decEqItems xs ys
      decidable_of_decidable_of_iff (list.injEq xs ys).to_iff.symm
    | null | bool _ | int _ | real _ | text _ | mapping _ => isFalse (by simp)
  | mapping xs, w => match w with
    | mapping ys =>
      have := decEqEntries xs ys
      decidable_of_decidable_of_iff (mapping.injEq xs ys).to_iff.symm
    | null | bool _ | int _ | real _ | text _ | list _ => isFalse (by simp)

@[inherit_doc decEq]
def decEqItems (xs ys : List Value) : Decidable (xs = ys) :=
  match xs, ys with
  | [], [] => isTrue rfl
  | [], _ :: _ | _ :: _, [] => isFalse (by simp)
  | v :: vs, w :: ws =>
    have := decEq v w
    have := decEqItems vs ws
    decidable_of_decidable_of_iff (List.cons.injEq v vs w ws).to_iff.symm

@[inherit_doc decEq]
def decEqEntries (xs ys : List (Value × Value)) : Decidable (xs = ys) :=
  match xs, ys with
  | [], [] => isTrue rfl
  | [], _ :: _ | _ :: _, [] => isFalse (by simp)
  | (k, v) :: vs, (l, w) :: ws =>
    have := decEq k l
    have := decEq v w
    have := decEqEntries vs ws
    decidable_of_decidable_of_iff (by rw [List.cons.injEq, Prod.mk.injEq])

end

instance : DecidableEq Value := decEq

end Value

end Rulebase
