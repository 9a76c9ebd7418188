import Rulebase.Misuse
import Rulebase.Value

/-!
# Stores

A store keeps objects under unique identifiers, in an order of its own: most stores append, and a store
of ordered objects puts each after those that do not come later. An operation on a store fails without
a change when an identifier is missing or taken. Replacing an object takes the old one out first, so an
object that cannot be placed is refused after the old one is gone.
-/

namespace Rulebase

/-- What a store keeps an object under: a text, or a number that was drawn. -/
inductive Uid where
  | given (text : String)
  | drawn (serial : Nat)
  deriving DecidableEq, Repr

def Uid.text : Uid → String
  | given text => text
  | drawn serial => Text.numeral serial

inductive StoreKind where
  | object
  | host
  | network
  | range
  | group
  | port
  | portRange
  | portGroup
  | rule
  deriving DecidableEq, Repr

def StoreKind.name : StoreKind → String
  | object => "object"
  | host => "host"
  | network => "network"
  | range => "range"
  | group => "group"
  | port => "port"
  | portRange => "port range"
  | portGroup => "port group"
  | rule => "rule"

inductive StoreError where
  | notFound (kind : StoreKind) (uid : Uid)
  | duplicate (kind : StoreKind) (uid : Uid)
  | unordered (cause : Value.Unordered)
  | misused (cause : Misuse)
  deriving DecidableEq, Repr

/-- What can be stored: an object that may have a name, has words for it, and has a place among the
entries of a store of some kind. -/
class Stored (α : Type) where
  name? : α → Option String
  text : α → String
  place : StoreKind → Uid × α → List (Uid × α) → Except StoreError (List (Uid × α)) :=
    fun _ entry entries => .ok (entries ++ [entry])

/-- The objects of a store, in stored order. -/
structure Store (α : Type) where
  kind : StoreKind
  entries : List (Uid × α) := []

def StoreError.message : StoreError → String
  | notFound kind uid => kind.name ++ " not found: " ++ uid.text
  | duplicate kind uid => kind.name ++ " already in store: " ++ uid.text
  | unordered cause => cause.message
  | misused cause => cause.message

namespace Store

variable {α : Type}

/-- What an operation leads to: whether it failed, and the store after it. -/
abbrev Outcome (α : Type) := Except StoreError Unit × Store α

def size (store : Store α) : Nat := store.entries.length

def values (store : Store α) : List α := store.entries.map Prod.snd

def uids (store : Store α) : List Uid := store.entries.map Prod.fst

def has (store : Store α) (uid : Uid) : Bool := store.entries.any (·.1 == uid)

def get (store : Store α) (uid : Uid) : Except StoreError α :=
  match store.entries.lookup uid with
  | some x => .ok x
  | none => .error (.notFound store.kind uid)

def erase (store : Store α) (uid : Uid) : Store α :=
  { store with entries := store.entries.eraseP (·.1 == uid) }

def findEntries [Stored α] (store : Store α) (name : Option String) : List (Uid × α) :=
  store.entries.filter (Stored.name? ·.2 == name)

def find? [Stored α] (store : Store α) (name : String) : Option α :=
  ((store.findEntries (some name)).head?).map Prod.snd

/-- One more than every number drawn for the store. -/
def nextSerial (store : Store α) : Nat :=
  store.entries.foldl (fun n entry => match entry.1 with | .given _ => n | .drawn k => max n (k + 1)) 0

def nextUid (store : Store α) : Uid := .drawn store.nextSerial

def put [Stored α] (store : Store α) (uid : Uid) (x : α) : Outcome α :=
  match Stored.place store.kind (uid, x) store.entries with
  | .ok entries => (.ok (), { store with entries })
  | .error cause => (.error cause, store)

/-- Stores an object under an identifier that must be free. -/
def create [Stored α] (store : Store α) (uid : Uid) (x : α) : Outcome α :=
  if store.has uid then (.error (.duplicate store.kind uid), store) else store.put uid x

/-- Replaces the object under an identifier. The new one may have an identifier of its own, which must
be the old one or free. -/
def update [Stored α] (store : Store α) (uid newUid : Uid) (x : α) : Outcome α :=
  if !store.has uid then (.error (.notFound store.kind uid), store)
  else if newUid ≠ uid ∧ store.has newUid then (.error (.duplicate store.kind newUid), store)
  else (store.erase uid).put newUid x

def delete (store : Store α) (uid : Uid) : Outcome α :=
  if store.has uid then (.ok (), store.erase uid)
  else (.error (.notFound store.kind uid), store)

end Store

end Rulebase
