import Mathlib.Data.List.Permutation
import Rulebase.Proofs.Store.Items

/-!
# Calls on a store

A store is changed by calls that create, replace and delete, one after another; a call that fails does not stop the
next one. What fails because an identifier is missing or taken changes nothing, and neither does what cannot be
created. Replacing takes the old object out before the new one is placed, so among rules the old one is lost if the
number of the new one cannot be compared.
-/

namespace Rulebase

namespace Store

variable {α : Type} [Stored α] {store after : Store α} {uid newUid : Uid} {x : α} {e : StoreError}

inductive Call (α : Type) where
  | create (uid : Uid) (x : α)
  | update (uid newUid : Uid) (x : α)
  | delete (uid : Uid)

def Call.run (store : Store α) : Call α → Outcome α
  | create uid x => store.create uid x
  | update uid newUid x => store.update uid newUid x
  | delete uid => store.delete uid

def Call.given? : Call α → Option α
  | create _ x | update _ _ x => some x
  | delete _ => none

def runCalls (store : Store α) : List (Call α) → List (Except StoreError Unit) × Store α
  | [] => ([], store)
  | call :: rest =>
    let first := call.run store
    let others := runCalls first.2 rest
    (first.1 :: others.1, others.2)

theorem put_of_place {entries : List (Uid × α)}
    (placed : Stored.place store.kind (uid, x) store.entries = .ok entries) :
    store.put uid x = (.ok (), { store with entries }) := by
  rw [put, placed]

theorem put_eq_error (failed : store.put uid x = (.error e, after)) :
    Stored.place store.kind (uid, x) store.entries = .error e ∧ after = store := by
  rw [put] at failed
  split at failed
  · cases failed
  next cause unplaced =>
    cases failed
    exact ⟨unplaced, rfl⟩

theorem put_eq_ok (stored : store.put uid x = (.ok (), after)) :
    after.kind = store.kind ∧ Stored.place store.kind (uid, x) store.entries = .ok after.entries := by
  rw [put] at stored
  split at stored
  next entries placed =>
    cases stored
    exact ⟨rfl, placed⟩
  · cases stored

theorem create_of_free (free : store.has uid = false) : store.create uid x = store.put uid x := by
  rw [create, free, if_neg Bool.false_ne_true]

omit [Stored α] in
/-- An identifier can be had by an object if it is the object's own already or free. -/
theorem not_taken_iff : ¬(newUid ≠ uid ∧ store.has newUid = true) ↔ newUid = uid ∨ store.has newUid = false := by
  rw [not_and_or, not_ne_iff, Bool.not_eq_true]

/-- What becomes of a store in which an object is created: nothing, if the identifier is taken. -/
theorem create_cases (store : Store α) (uid : Uid) (x : α) :
    (store.has uid = true ∧ store.create uid x = (.error (.duplicate store.kind uid), store)) ∨
      store.has uid = false ∧ store.create uid x = store.put uid x := by
  cases found : store.has uid with
  | false => exact Or.inr ⟨rfl, create_of_free found⟩
  | true => exact Or.inl ⟨rfl, by rw [create, found, if_pos rfl]⟩

/-- What becomes of a store in which an object is replaced: nothing, if its identifier is missing or the new one is
another's. -/
theorem update_cases (store : Store α) (uid newUid : Uid) (x : α) :
    (store.has uid = false ∧ store.update uid newUid x = (.error (.notFound store.kind uid), store)) ∨
      (store.has uid = true ∧ (newUid ≠ uid ∧ store.has newUid = true) ∧
        store.update uid newUid x = (.error (.duplicate store.kind newUid), store)) ∨
      store.has uid = true ∧ (newUid = uid ∨ store.has newUid = false) ∧
        store.update uid newUid x = (store.erase uid).put newUid x := by
  cases found : store.has uid with
  | false => exact Or.inl ⟨rfl, by rw [update, found, if_pos (by decide)]⟩
  | true =>
    by_cases taken : newUid ≠ uid ∧ store.has newUid = true
    · exact Or.inr (Or.inl ⟨rfl, taken, by rw [update, found, if_neg (by decide), if_pos taken]⟩)
    · exact Or.inr (Or.inr ⟨rfl, not_taken_iff.mp taken, by rw [update, found, if_neg (by decide), if_neg taken]⟩)

omit [Stored α] in
/-- What becomes of a store from which an object is deleted: nothing, if its identifier is missing. -/
theorem delete_cases (store : Store α) (uid : Uid) :
    (store.has uid = false ∧ store.delete uid = (.error (.notFound store.kind uid), store)) ∨
      store.has uid = true ∧ store.delete uid = (.ok (), store.erase uid) := by
  cases found : store.has uid with
  | false => exact Or.inl ⟨rfl, by rw [delete, found, if_neg Bool.false_ne_true]⟩
  | true => exact Or.inr ⟨rfl, by rw [delete, found, if_pos rfl]⟩

/-- A call is refused without a change, or it puts an object in the store, or in what is left of it once the old
object is taken out, or it takes one out. -/
theorem run_cases (store : Store α) (call : Call α) :
    (∃ e, call.run store = (.error e, store)) ∨
      (∃ uid x, call = .create uid x ∧ call.run store = store.put uid x) ∨
      (∃ uid newUid x, call = .update uid newUid x ∧ store.has uid = true ∧
        (newUid = uid ∨ store.has newUid = false) ∧ call.run store = (store.erase uid).put newUid x) ∨
      ∃ uid, call = .delete uid ∧ call.run store = (.ok (), store.erase uid) := by
  cases call with
  | create uid x =>
    rcases store.create_cases uid x with ⟨_, refused⟩ | ⟨_, created⟩
    · exact Or.inl ⟨_, refused⟩
    · exact Or.inr (Or.inl ⟨uid, x, rfl, created⟩)
  | update uid newUid x =>
    rcases store.update_cases uid newUid x with ⟨_, refused⟩ | ⟨_, _, refused⟩ | ⟨found, free, updated⟩
    · exact Or.inl ⟨_, refused⟩
    · exact Or.inl ⟨_, refused⟩
    · exact Or.inr (Or.inr (Or.inl ⟨uid, newUid, x, rfl, found, free, updated⟩))
  | delete uid =>
    rcases store.delete_cases uid with ⟨_, refused⟩ | ⟨_, deleted⟩
    · exact Or.inl ⟨_, refused⟩
    · exact Or.inr (Or.inr (Or.inr ⟨uid, rfl, deleted⟩))

omit [Stored α] in
theorem erase_eq_append (found : store.has uid = true) :
    ∃ front old back, store.entries = front ++ (uid, old) :: back ∧ (∀ entry ∈ front, entry.1 ≠ uid) ∧
      (store.erase uid).entries = front ++ back := by
  obtain ⟨entry, listed, same⟩ := List.any_eq_true.mp found
  obtain ⟨⟨first, old⟩, front, back, others, here, split, erased⟩ :=
    List.exists_of_eraseP (p := fun entry : Uid × α => entry.1 == uid) listed same
  cases eq_of_beq here
  exact ⟨front, old, back, split, fun other earlier is => others other earlier (beq_iff_eq.mpr is), erased⟩

end Store

namespace Store

variable {store after : Store Item} {call : Call Item} {e : StoreError} {entry : Uid × Item}

theorem mem_entries_erase {uid : Uid} (listed : entry ∈ (store.erase uid).entries) : entry ∈ store.entries :=
  List.eraseP_sublist.subset listed

/-- What a store holds after an object was put in it is that object, or was there before. -/
theorem mem_entries_put {uid : Uid} {x : Item} (listed : entry ∈ (store.put uid x).2.entries) :
    entry ∈ store.entries ∨ entry = (uid, x) ∧ (store.kind = .rule → x.number?.isSome) := by
  cases stored : store.put uid x with
  | mk outcome after =>
    rw [stored] at listed
    cases outcome with
    | error e =>
      obtain ⟨_, rfl⟩ := put_eq_error stored
      exact Or.inl listed
    | ok =>
      obtain ⟨_, placed⟩ := put_eq_ok stored
      obtain ⟨numbered, front, back, split, joined⟩ := place_item_eq_ok placed
      have among : entry = (uid, x) ∨ entry ∈ store.entries := by
        rw [split]
        simpa [joined, or_left_comm] using listed
      rcases among with rfl | old
      · exact Or.inr ⟨rfl, numbered⟩
      · exact Or.inl old

theorem kind_put (store : Store Item) (uid : Uid) (x : Item) : (store.put uid x).2.kind = store.kind := by
  unfold put
  split <;> rfl

/-- What a store holds after a call is what the call gave, or was there before. -/
theorem mem_entries_run (listed : entry ∈ (call.run store).2.entries) :
    entry ∈ store.entries ∨ call.given? = some entry.2 ∧ (store.kind = .rule → entry.2.number?.isSome) := by
  rcases store.run_cases call with
    ⟨e, same⟩ | ⟨uid, x, rfl, same⟩ | ⟨uid, newUid, x, rfl, _, _, same⟩ | ⟨uid, rfl, same⟩ <;> rw [same] at listed
  · exact Or.inl listed
  · rcases mem_entries_put listed with old | ⟨rfl, numbered⟩
    · exact Or.inl old
    · exact Or.inr ⟨rfl, numbered⟩
  · rcases mem_entries_put listed with old | ⟨rfl, numbered⟩
    · exact Or.inl (mem_entries_erase old)
    · exact Or.inr ⟨rfl, numbered⟩
  · exact Or.inl (mem_entries_erase listed)

theorem kind_run (store : Store Item) (call : Call Item) : (call.run store).2.kind = store.kind := by
  rcases store.run_cases call with ⟨e, same⟩ | ⟨uid, x, _, same⟩ | ⟨uid, newUid, x, _, _, _, same⟩ | ⟨uid, _, same⟩ <;>
    rw [same]
  · exact kind_put store uid x
  · exact kind_put (store.erase uid) newUid x
  · rfl

theorem kind_runCalls (store : Store Item) (calls : List (Call Item)) :
    (store.runCalls calls).2.kind = store.kind := by
  induction calls generalizing store with
  | nil => rfl
  | cons call rest ih => exact (ih (call.run store).2).trans (store.kind_run call)

def HasNumbers (store : Store Item) : Prop :=
  store.kind = .rule → ∀ entry ∈ store.entries, entry.2.number?.isSome

theorem HasNumbers.run (numbers : store.HasNumbers) (call : Call Item) : (call.run store).2.HasNumbers := by
  intro ruled entry listed
  rw [kind_run] at ruled
  rcases mem_entries_run listed with old | ⟨_, numbered⟩
  · exact numbers ruled entry old
  · exact numbered ruled

theorem HasNumbers.runCalls (numbers : store.HasNumbers) (calls : List (Call Item)) :
    (store.runCalls calls).2.HasNumbers := by
  induction calls generalizing store with
  | nil => exact numbers
  | cons call rest ih => exact ih (numbers.run call)

/-- One entry is gone, and the others are as they were. -/
structure Loses (uid : Uid) (before after : Store Item) : Prop where
  kind : after.kind = before.kind
  entries : ∃ front old back, before.entries = front ++ (uid, old) :: back ∧ after.entries = front ++ back

/-- A call that fails changes nothing, unless it replaces a rule by what has no place among the others: then the old
one is gone. -/
theorem HasNumbers.failed (numbers : store.HasNumbers) (failed : call.run store = (.error e, after)) :
    after = store ∨ store.kind = .rule ∧ ∃ uid newUid x, call = .update uid newUid x ∧ store.has uid = true ∧
      (newUid = uid ∨ store.has newUid = false) ∧ x.Unplaced (store.erase uid).entries e ∧
      store.Loses uid after := by
  rcases store.run_cases call with
    ⟨cause, same⟩ | ⟨uid, x, _, same⟩ | ⟨uid, newUid, x, rfl, found, free, same⟩ | ⟨uid, _, same⟩
  · cases same.symm.trans failed
    exact Or.inl rfl
  · exact Or.inl (put_eq_error (same.symm.trans failed)).2
  · obtain ⟨stuck, rfl⟩ := put_eq_error (same.symm.trans failed)
    obtain ⟨ruled, unplaced⟩ := place_item_eq_error (fun is entry listed =>
      numbers is entry (mem_entries_erase listed)) stuck
    obtain ⟨front, old, back, split, _, erased⟩ := erase_eq_append found
    exact Or.inr ⟨ruled, uid, newUid, x, rfl, found, free, unplaced, rfl, front, old, back, split, erased⟩
  · cases same.symm.trans failed

/-- A store that was empty, after some calls. -/
def afterCalls (kind : StoreKind) (calls : List (Call Item)) : Store Item :=
  (runCalls { kind } calls).2

theorem hasNumbers_afterCalls (kind : StoreKind) (calls : List (Call Item)) : (afterCalls kind calls).HasNumbers := by
  apply HasNumbers.runCalls
  intro _ entry listed
  cases listed

def bareRule (number : Value) : Item :=
  .rule {
    number
    source := Registry.unregistered .address "s"
    destination := Registry.unregistered .address "d"
    service := Registry.unregistered .service "v"
    sourceFamily := rfl
    destinationFamily := rfl
    serviceFamily := rfl }

def storeTwo : List (Call Item) :=
  [.create (.given "a") (bareRule (.int 10)), .create (.given "b") (bareRule (.int 20))]

def replaceByText : Call Item :=
  .update (.given "a") (.given "a") (bareRule (.text "ten"))

/-- After any calls on a store of any kind that was empty, a call that fails leaves the stored objects and their
order as they were. The one exception is a rule whose replacement has no place among the other rules: the old rule
is lost, and the others are as they were. -/
theorem failed_call_spares_or_loses (kind : StoreKind) (calls : List (Call Item))
    (failed : call.run (afterCalls kind calls) = (.error e, after)) :
    after = afterCalls kind calls ∨
      kind = .rule ∧ ∃ uid newUid x, call = .update uid newUid x ∧ (afterCalls kind calls).has uid = true ∧
        (newUid = uid ∨ (afterCalls kind calls).has newUid = false) ∧
        x.Unplaced ((afterCalls kind calls).erase uid).entries e ∧ (afterCalls kind calls).Loses uid after := by
  have lost := (hasNumbers_afterCalls kind calls).failed failed
  rwa [afterCalls, kind_runCalls] at lost

/-- The rule that was to be replaced is lost. -/
theorem replaceByText_loses_rule :
    ∃ after, replaceByText.run (afterCalls .rule storeTwo) = (.error (.unordered ⟨"str", "int"⟩), after) ∧
      (afterCalls .rule storeTwo).Loses (.given "a") after := by
  have failed : (replaceByText.run (afterCalls .rule storeTwo)).1 = .error (.unordered ⟨"str", "int"⟩) := by
    decide +kernel
  have shrunk : (replaceByText.run (afterCalls .rule storeTwo)).2.size = 1 := by decide +kernel
  have two : (afterCalls .rule storeTwo).size = 2 := by decide +kernel
  refine ⟨_, Prod.ext failed rfl, ?_⟩
  rcases failed_call_spares_or_loses .rule storeTwo (Prod.ext failed rfl) with same | ⟨_, _, _, _, is, _, _, _, loses⟩
  · have one : (afterCalls .rule storeTwo).size = 1 := (congrArg size same).symm.trans shrunk
    rw [two] at one
    exact absurd one (by decide)
  · cases is
    exact loses

/-- A call fails and still takes a rule away. -/
theorem failed_update_removes_uid :
    (replaceByText.run (afterCalls .rule storeTwo)).1 = .error (.unordered ⟨"str", "int"⟩) ∧
      (afterCalls .rule storeTwo).uids = [.given "a", .given "b"] ∧
      (replaceByText.run (afterCalls .rule storeTwo)).2.uids = [.given "b"] := by
  decide +kernel

end Store

end Rulebase
