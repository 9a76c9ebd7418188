import Rulebase.Proofs.Store.Directory

/-!
# When an object was stored

The history of a store is the calls that were made on it, each with its outcome. What a directory notes as the time at
which an object was put there is the index of the last call that stored an object under its identifier.
-/

namespace Rulebase

namespace Store

def history (kind : StoreKind) (calls : List (Call Item)) : List (Call Item × Except StoreError Unit) :=
  calls.zip (runCalls { kind } calls).1

variable {α : Type} {history : List (Call α × Except StoreError Unit)} {call : Call α}
  {outcome : Except StoreError Unit} {uid : Uid} {i : Nat}

def Call.target? : Call α → Option Uid
  | create uid _ => some uid
  | update _ newUid _ => some newUid
  | delete _ => none

/-- The call at an index stored an object under an identifier. -/
def StoredAt (history : List (Call α × Except StoreError Unit)) (uid : Uid) (i : Nat) : Prop :=
  ∃ call, history[i]? = some (call, .ok ()) ∧ call.target? = some uid

def LastStoredAt (history : List (Call α × Except StoreError Unit)) (uid : Uid) (i : Nat) : Prop :=
  StoredAt history uid i ∧ ∀ j, i < j → ¬StoredAt history uid j

theorem storedAt_concat :
    StoredAt (history ++ [(call, outcome)]) uid i ↔
      StoredAt history uid i ∨ i = history.length ∧ outcome = .ok () ∧ call.target? = some uid := by
  unfold StoredAt
  rcases Nat.lt_trichotomy i history.length with less | rfl | greater
  · simp [List.getElem?_append_left less, less.ne]
  · simp
  · have beyond : (history ++ [(call, outcome)]).length ≤ i := by
      rw [List.length_append]
      exact greater
    simp [List.getElem?_eq_none beyond, List.getElem?_eq_none greater.le, greater.ne']

theorem StoredAt.lt_length (stored : StoredAt history uid i) : i < history.length := by
  obtain ⟨call, found, _⟩ := stored
  exact (List.getElem?_eq_some_iff.mp found).1

/-- A call that stores nothing under an identifier leaves the last one that did. -/
theorem LastStoredAt.concat (last : LastStoredAt history uid i) (spared : ¬(outcome = .ok () ∧ call.target? = some uid)) :
    LastStoredAt (history ++ [(call, outcome)]) uid i := by
  refine ⟨storedAt_concat.mpr (Or.inl last.1), fun j later stored => ?_⟩
  rcases storedAt_concat.mp stored with earlier | ⟨_, here⟩
  · exact last.2 j later earlier
  · exact spared here

/-- A call that stores an object is the last one that did. -/
theorem lastStoredAt_length (target : call.target? = some uid) :
    LastStoredAt (history ++ [(call, .ok ())]) uid history.length := by
  refine ⟨storedAt_concat.mpr (Or.inr ⟨rfl, rfl, target⟩), fun j later stored => ?_⟩
  rcases storedAt_concat.mp stored with earlier | ⟨here, _⟩
  · exact absurd earlier.lt_length later.le.not_gt
  · exact later.ne' here

end Store

namespace Directory

variable {α : Type} {directory : Directory α} {history : List (Store.Call α × Except StoreError Unit)}

/-- A directory after some calls: what is under an identifier was put there by the last call that stored an object
under it. -/
structure Dated (history : List (Store.Call α × Except StoreError Unit)) (directory : Directory α) : Prop where
  age : directory.age = history.length
  last : ∀ uid binding, directory.bindings.lookup uid = some binding → Store.LastStoredAt history uid binding.since

namespace Dated

theorem empty : Dated ([] : List (Store.Call α × Except StoreError Unit)) {} where
  age := rfl
  last uid binding found := by simp at found

/-- One more call that stores nothing, and at most takes something out. -/
theorem concat {call : Store.Call α} {outcome : Except StoreError Unit} {after : Directory α}
    (dated : Dated history directory) (spares : outcome ≠ .ok () ∨ call.target? = none) (age : after.age = directory.age)
    (old : ∀ uid binding, after.bindings.lookup uid = some binding → directory.bindings.lookup uid = some binding) :
    Dated (history ++ [(call, outcome)]) after.tick where
  age := by simp [tick, age, dated.age]
  last uid binding found := by
    refine (dated.last uid binding (old uid binding found)).concat ?_
    rintro ⟨rfl, target⟩
    rcases spares with failed | none
    · exact failed rfl
    · simp [none] at target

theorem bind {call : Store.Call α} {uid : Uid} {x : α} {between : Directory α} (dated : Dated history directory)
    (target : call.target? = some uid) (age : between.age = directory.age)
    (old : ∀ other binding, between.bindings.lookup other = some binding →
      directory.bindings.lookup other = some binding) :
    Dated (history ++ [(call, .ok ())]) (between.bind uid x).tick where
  age := by simp [tick, Directory.bind, age, dated.age]
  last other binding found := by
    by_cases same : other = uid
    · subst same
      have here : (⟨x, between.age⟩ : Binding α) = binding := by simpa [tick, Directory.bind] using found
      rw [← here, age, dated.age]
      exact Store.lastStoredAt_length target
    · have before : between.bindings.lookup other = some binding := by
        simpa [tick, Directory.bind, Finmap.lookup_insert_of_ne _ same] using found
      refine (dated.last other binding (old other binding before)).concat ?_
      rintro ⟨_, also⟩
      exact same (Option.some.inj (also.symm.trans target))

theorem lookup_of_unbind {uid other : Uid} {binding : Binding α}
    (found : (directory.unbind uid).bindings.lookup other = some binding) :
    directory.bindings.lookup other = some binding := by
  by_cases same : other = uid
  · subst same
    simp [unbind] at found
  · simpa [unbind, Finmap.lookup_erase_ne same] using found

theorem answer (dated : Dated history directory) (kind : StoreKind) (call : Store.Call α) :
    Dated (history ++ [(call, (directory.answer kind call).1)]) (directory.answer kind call).2.tick := by
  cases call with
  | create uid x =>
    rw [Directory.answer]
    split
    · exact dated.concat (Or.inl (by simp)) rfl fun _ _ found => found
    · exact dated.bind rfl rfl fun _ _ found => found
  | update uid newUid x =>
    rw [Directory.answer]
    split
    · exact dated.concat (Or.inl (by simp)) rfl fun _ _ found => found
    · split
      · exact dated.concat (Or.inl (by simp)) rfl fun _ _ found => found
      · exact dated.bind rfl rfl fun _ _ found => lookup_of_unbind found
  | delete uid =>
    rw [Directory.answer]
    split
    · exact dated.concat (Or.inr rfl) rfl fun _ _ found => lookup_of_unbind found
    · exact dated.concat (Or.inl (by simp)) rfl fun _ _ found => found

theorem answerCalls (dated : Dated history directory) (kind : StoreKind) (calls : List (Store.Call α)) :
    Dated (history ++ calls.zip (Directory.answerCalls kind directory calls).1)
      (Directory.answerCalls kind directory calls).2 := by
  induction calls generalizing history directory with
  | nil =>
    rw [List.zip_nil_left, List.append_nil]
    exact dated
  | cons call rest ih =>
    have last := ih (dated.answer kind call)
    rwa [List.append_assoc] at last

end Dated

end Directory

end Rulebase
