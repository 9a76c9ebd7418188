import Mathlib.Data.Finmap
import Rulebase.Proofs.Store.Calls

/-!
# A store is a finite map

To its users a store is a finite map from identifiers to objects, a directory. Every call has the same outcome on
both, and after any calls the store has just the identifiers of the directory, each once and with the same object.
The directory also notes when an object was put there; where objects are not ordered by a number, the store lists
them by that time. This needs the numbers of rules to be integers.
-/

namespace Rulebase

structure Binding (α : Type) where
  object : α
  since : Nat

/-- A finite map from identifiers to objects, and how many calls were made on it. -/
structure Directory (α : Type) where
  bindings : Finmap fun _ : Uid => Binding α := ∅
  age : Nat := 0

namespace Directory

variable {α : Type}

def bind (directory : Directory α) (uid : Uid) (x : α) : Directory α :=
  { directory with bindings := directory.bindings.insert uid ⟨x, directory.age⟩ }

def unbind (directory : Directory α) (uid : Uid) : Directory α :=
  { directory with bindings := directory.bindings.erase uid }

/-- One more call was made. -/
def tick (directory : Directory α) : Directory α :=
  { directory with age := directory.age + 1 }

def since (directory : Directory α) (uid : Uid) : Nat :=
  ((directory.bindings.lookup uid).map Binding.since).getD 0

def get (directory : Directory α) (kind : StoreKind) (uid : Uid) : Except StoreError α :=
  match directory.bindings.lookup uid with
  | some binding => .ok binding.object
  | none => .error (.notFound kind uid)

/-- What a call does to a directory: creating needs an identifier that is free, replacing one that is bound and a
new one that is the same or free, and deleting one that is bound. -/
def answer (directory : Directory α) (kind : StoreKind) :
    Store.Call α → Except StoreError Unit × Directory α
  | .create uid x =>
    if uid ∈ directory.bindings then (.error (.duplicate kind uid), directory)
    else (.ok (), directory.bind uid x)
  | .update uid newUid x =>
    if uid ∉ directory.bindings then (.error (.notFound kind uid), directory)
    else if newUid ≠ uid ∧ newUid ∈ directory.bindings then (.error (.duplicate kind newUid), directory)
    else (.ok (), (directory.unbind uid).bind newUid x)
  | .delete uid =>
    if uid ∈ directory.bindings then (.ok (), directory.unbind uid)
    else (.error (.notFound kind uid), directory)

def answerCalls (kind : StoreKind) (directory : Directory α) :
    List (Store.Call α) → List (Except StoreError Unit) × Directory α
  | [] => ([], directory)
  | call :: rest =>
    let first := directory.answer kind call
    let others := answerCalls kind first.2.tick rest
    (first.1 :: others.1, others.2)

def afterCalls (kind : StoreKind) (calls : List (Store.Call α)) : Directory α :=
  (answerCalls kind {} calls).2

/-- A store has the objects of a directory under their identifiers, each once, and lists them by the time at which
they were put there, if it is not one of rules. -/
structure Shows (directory : Directory Item) (store : Store Item) : Prop where
  distinct : store.uids.Nodup
  mem_iff : ∀ uid x, (uid, x) ∈ store.entries ↔ ∃ since, directory.bindings.lookup uid = some ⟨x, since⟩
  past : ∀ uid ∈ directory.bindings, directory.since uid < directory.age
  listed : store.kind ≠ .rule → store.uids.Pairwise fun u v => directory.since u < directory.since v

section Lookup

variable {directory : Directory α} {uid other : Uid} {x : α}

@[simp] theorem since_tick : directory.tick.since uid = directory.since uid :=
  rfl

@[simp] theorem since_bind_self : (directory.bind uid x).since uid = directory.age := by
  simp [since, bind]

theorem since_bind_of_ne (differ : other ≠ uid) : (directory.bind uid x).since other = directory.since other := by
  simp [since, bind, Finmap.lookup_insert_of_ne _ differ]

theorem since_unbind_of_ne (differ : other ≠ uid) : (directory.unbind uid).since other = directory.since other := by
  simp [since, unbind, Finmap.lookup_erase_ne differ]

end Lookup

end Directory

namespace Store

variable {store : Store Item} {uid : Uid} {x : Item}

theorem has_eq_true_iff : store.has uid = true ↔ uid ∈ store.uids := by
  simp [has, uids]

theorem mem_uids_iff : uid ∈ store.uids ↔ ∃ x, (uid, x) ∈ store.entries := by
  simp [uids]

theorem eq_of_mem_entries (distinct : store.uids.Nodup) {x y : Item} (left : (uid, x) ∈ store.entries)
    (right : (uid, y) ∈ store.entries) : x = y := by
  have same := List.inj_on_of_nodup_map distinct left right rfl
  exact congrArg Prod.snd same

theorem get_of_mem_entries (distinct : store.uids.Nodup) (listed : (uid, x) ∈ store.entries) :
    store.get uid = .ok x := by
  unfold get
  cases found : store.entries.lookup uid with
  | none =>
    have absent := List.lookup_eq_none_iff.mp found (uid, x) listed
    simp at absent
  | some y =>
    obtain ⟨front, back, split, _⟩ := List.lookup_eq_some_iff.mp found
    have also : (uid, y) ∈ store.entries := by simp [split]
    rw [eq_of_mem_entries distinct also listed]

theorem get_of_has_eq_false (free : store.has uid = false) : store.get uid = .error (.notFound store.kind uid) := by
  unfold get
  cases found : store.entries.lookup uid with
  | none => rfl
  | some y =>
    obtain ⟨front, back, split, _⟩ := List.lookup_eq_some_iff.mp found
    have listed : (uid, y) ∈ store.entries := by simp [split]
    have has : store.has uid = true := has_eq_true_iff.mpr (mem_uids_iff.mpr ⟨y, listed⟩)
    rw [has] at free
    cases free

/-- Where an identifier occurs once, erasing it leaves the entries of the others. -/
theorem mem_entries_erase_iff (distinct : store.uids.Nodup) (found : store.has uid = true) {other : Uid} :
    (other, x) ∈ (store.erase uid).entries ↔ other ≠ uid ∧ (other, x) ∈ store.entries := by
  obtain ⟨front, old, back, split, _, erased⟩ := erase_eq_append found
  have once : uid ∉ (front ++ back).map Prod.fst := by
    have keys : store.uids = front.map Prod.fst ++ uid :: back.map Prod.fst := by simp [uids, split]
    rw [keys, List.nodup_middle, ← List.map_append] at distinct
    exact (List.nodup_cons.mp distinct).1
  rw [erased, split]
  constructor
  · intro listed
    refine ⟨?_, by simpa [or_left_comm] using Or.inr (List.mem_append.mp listed)⟩
    rintro rfl
    exact once (List.mem_map_of_mem listed)
  · rintro ⟨differ, listed⟩
    simpa [differ] using listed

/-- Once an object is taken out, its identifier is free, as are those that were. -/
theorem has_erase_eq_false (distinct : store.uids.Nodup) (found : store.has uid = true) {newUid : Uid}
    (free : newUid = uid ∨ store.has newUid = false) : (store.erase uid).has newUid = false := by
  rw [← Bool.not_eq_true, has_eq_true_iff, mem_uids_iff]
  rintro ⟨x, listed⟩
  obtain ⟨differ, before⟩ := (mem_entries_erase_iff distinct found).mp listed
  have taken : store.has newUid = true := has_eq_true_iff.mpr (mem_uids_iff.mpr ⟨x, before⟩)
  rcases free with same | free
  · exact differ same
  · simp [free] at taken

def HasIntegers (store : Store Item) : Prop :=
  store.kind = .rule → ∀ entry ∈ store.entries, entry.2.IsNumbered

def Call.GivesInteger (kind : StoreKind) (call : Call Item) : Prop :=
  kind = .rule → ∀ x, call.given? = some x → x.IsNumbered

theorem HasIntegers.run {call : Call Item} (integers : store.HasIntegers) (gives : call.GivesInteger store.kind) :
    (call.run store).2.HasIntegers := by
  intro ruled entry listed
  rw [kind_run] at ruled
  rcases mem_entries_run listed with old | ⟨given, _⟩
  · exact integers ruled entry old
  · exact gives ruled entry.2 given

end Store

namespace Directory.Shows

variable {directory : Directory Item} {store : Store Item} {uid : Uid} {x : Item}

theorem mem_bindings_iff (shows : directory.Shows store) : uid ∈ directory.bindings ↔ store.has uid = true := by
  rw [Store.has_eq_true_iff, Store.mem_uids_iff, Finmap.mem_iff]
  constructor
  · rintro ⟨⟨x, since⟩, found⟩
    exact ⟨x, (shows.mem_iff uid x).mpr ⟨since, found⟩⟩
  · rintro ⟨x, listed⟩
    obtain ⟨since, found⟩ := (shows.mem_iff uid x).mp listed
    exact ⟨⟨x, since⟩, found⟩

theorem get_eq (shows : directory.Shows store) (uid : Uid) : store.get uid = directory.get store.kind uid := by
  unfold Directory.get
  cases found : directory.bindings.lookup uid with
  | none =>
    have absent : uid ∉ directory.bindings := Finmap.lookup_eq_none.mp found
    rw [shows.mem_bindings_iff, Bool.not_eq_true] at absent
    exact Store.get_of_has_eq_false absent
  | some binding => exact Store.get_of_mem_entries shows.distinct ((shows.mem_iff uid _).mpr ⟨_, found⟩)

theorem size_eq (shows : directory.Shows store) : store.size = directory.bindings.keys.card := by
  have same : store.uids.toFinset = directory.bindings.keys := by
    ext uid
    rw [List.mem_toFinset, Finmap.mem_keys, shows.mem_bindings_iff, Store.has_eq_true_iff]
  rw [← same, List.toFinset_card_of_nodup shows.distinct, Store.size, Store.uids, List.length_map]

theorem empty (kind : StoreKind) : Directory.Shows {} { kind } where
  distinct := .nil
  mem_iff uid x := by simp
  past uid bound := absurd bound Finmap.notMem_empty
  listed _ := .nil

theorem tick (shows : directory.Shows store) : directory.tick.Shows store where
  distinct := shows.distinct
  mem_iff := shows.mem_iff
  past uid bound := Nat.lt_succ_of_lt (shows.past uid bound)
  listed := shows.listed

theorem unbind (shows : directory.Shows store) (found : store.has uid = true) :
    (directory.unbind uid).Shows (store.erase uid) := by
  have fewer : (store.erase uid).uids.Sublist store.uids := List.eraseP_sublist.map _
  have apart : uid ∉ (store.erase uid).uids := by
    rw [Store.mem_uids_iff]
    rintro ⟨x, listed⟩
    exact ((Store.mem_entries_erase_iff shows.distinct found).mp listed).1 rfl
  constructor
  case distinct => exact shows.distinct.sublist fewer
  case mem_iff =>
    intro other x
    rw [Store.mem_entries_erase_iff shows.distinct found, shows.mem_iff]
    by_cases same : other = uid
    · subst same
      simp [Directory.unbind]
    · simp [Directory.unbind, same, Finmap.lookup_erase_ne same]
  case past =>
    intro other bound
    obtain ⟨differ, bound⟩ := Finmap.mem_erase.mp bound
    rw [since_unbind_of_ne differ]
    exact shows.past other bound
  case listed =>
    intro kind
    apply ((shows.listed kind).sublist fewer).imp_of_mem
    intro u v left right earlier
    rwa [since_unbind_of_ne (ne_of_mem_of_not_mem left apart), since_unbind_of_ne (ne_of_mem_of_not_mem right apart)]

/-- Putting in an object on both sides, under an identifier that is free. -/
theorem bind (shows : directory.Shows store) (free : store.has uid = false) {entries : List (Uid × Item)}
    (placed : Stored.place store.kind (uid, x) store.entries = .ok entries) :
    (directory.bind uid x).tick.Shows { store with entries } := by
  obtain ⟨_, front, back, split, joined⟩ := place_item_eq_ok placed
  have fresh : uid ∉ store.uids := by
    rw [← Store.has_eq_true_iff, free]
    decide
  have members : ∀ entry, entry ∈ entries ↔ entry = (uid, x) ∨ entry ∈ store.entries := by
    intro entry
    rw [joined, split]
    simp [or_left_comm]
  constructor
  case distinct =>
    have keys : store.uids = front.map Prod.fst ++ back.map Prod.fst := by simp [Store.uids, split]
    have distinct := List.nodup_cons.mpr ⟨fresh, shows.distinct⟩
    rw [keys, ← List.nodup_middle] at distinct
    simpa [Store.uids, joined] using distinct
  case mem_iff =>
    intro other y
    rw [members]
    by_cases same : other = uid
    · subst same
      have missing : (other, y) ∉ store.entries := fun listed => fresh (Store.mem_uids_iff.mpr ⟨y, listed⟩)
      simp [Directory.bind, Directory.tick, missing, eq_comm]
    · rw [shows.mem_iff]
      simp [Directory.bind, Directory.tick, same, Finmap.lookup_insert_of_ne _ same]
  case past =>
    intro other bound
    rw [since_tick]
    by_cases same : other = uid
    · subst same
      rw [since_bind_self]
      exact Nat.lt_succ_self _
    · have older := (Finmap.mem_insert.mp bound).resolve_left same
      rw [since_bind_of_ne same]
      exact Nat.lt_succ_of_lt (shows.past other older)
  case listed =>
    -- Outside of rules the new object goes behind the others, which were put in earlier.
    intro kind
    have last : entries = store.entries ++ [(uid, x)] := by
      rw [place_item_of_ne_rule kind] at placed
      exact (Except.ok.inj placed).symm
    have keys : Store.uids { store with entries } = store.uids ++ [uid] := by simp [Store.uids, last]
    have older : ∀ {other}, other ∈ store.uids → (directory.bind uid x).since other = directory.since other :=
      fun listed => since_bind_of_ne (ne_of_mem_of_not_mem listed fresh)
    rw [keys, List.pairwise_append]
    refine ⟨?_, List.pairwise_singleton _ _, ?_⟩
    · apply (shows.listed kind).imp_of_mem
      intro u v left right earlier
      rwa [since_tick, since_tick, older left, older right]
    · intro other listed here same
      cases List.mem_singleton.mp same
      rw [since_tick, since_tick, older listed, since_bind_self]
      exact shows.past other (shows.mem_bindings_iff.mpr (Store.has_eq_true_iff.mpr listed))

/-- What has an integer number where one is needed is put in on both sides. -/
theorem put (shows : directory.Shows store) (free : store.has uid = false) (integers : store.HasIntegers)
    (numbered : store.kind = .rule → x.IsNumbered) :
    (store.put uid x).1 = .ok () ∧ (directory.bind uid x).tick.Shows (store.put uid x).2 := by
  obtain ⟨entries, placed⟩ : ∃ entries, Stored.place store.kind (uid, x) store.entries = .ok entries :=
    exists_place_item numbered integers
  rw [Store.put_of_place placed]
  exact ⟨rfl, shows.bind free placed⟩

/-- A call is refused on both sides for one reason, or it puts in, replaces or takes out an object on both. -/
theorem answer_cases (shows : directory.Shows store) (call : Store.Call Item) :
    (∃ e, call.run store = (.error e, store) ∧ directory.answer store.kind call = (.error e, directory)) ∨
      (∃ uid x, call = .create uid x ∧ store.has uid = false ∧ call.run store = store.put uid x ∧
        directory.answer store.kind call = (.ok (), directory.bind uid x)) ∨
      (∃ uid newUid x, call = .update uid newUid x ∧ store.has uid = true ∧ (store.erase uid).has newUid = false ∧
        call.run store = (store.erase uid).put newUid x ∧
        directory.answer store.kind call = (.ok (), (directory.unbind uid).bind newUid x)) ∨
      ∃ uid, call = .delete uid ∧ store.has uid = true ∧ call.run store = (.ok (), store.erase uid) ∧
        directory.answer store.kind call = (.ok (), directory.unbind uid) := by
  cases call with
  | create uid x =>
    simp only [Store.Call.run, Directory.answer, shows.mem_bindings_iff]
    rcases store.create_cases uid x with ⟨taken, refused⟩ | ⟨free, created⟩
    · exact Or.inl ⟨_, refused, if_pos taken⟩
    · exact Or.inr (Or.inl ⟨uid, x, rfl, free, created, if_neg (Bool.eq_false_iff.mp free)⟩)
  | update uid newUid x =>
    simp only [Store.Call.run, Directory.answer, shows.mem_bindings_iff]
    rcases store.update_cases uid newUid x with ⟨missing, refused⟩ | ⟨found, taken, refused⟩ | ⟨found, free, updated⟩
    · exact Or.inl ⟨_, refused, if_pos (Bool.eq_false_iff.mp missing)⟩
    · exact Or.inl ⟨_, refused, by rw [if_neg (not_not_intro found), if_pos taken]⟩
    · have vacated := Store.has_erase_eq_false shows.distinct found free
      refine Or.inr (Or.inr (Or.inl ⟨uid, newUid, x, rfl, found, vacated, updated, ?_⟩))
      rw [if_neg (not_not_intro found), if_neg (Store.not_taken_iff.mpr free)]
  | delete uid =>
    simp only [Store.Call.run, Directory.answer, shows.mem_bindings_iff]
    rcases store.delete_cases uid with ⟨missing, refused⟩ | ⟨found, deleted⟩
    · exact Or.inl ⟨_, refused, if_neg (Bool.eq_false_iff.mp missing)⟩
    · exact Or.inr (Or.inr (Or.inr ⟨uid, rfl, found, deleted, if_pos found⟩))

/-- A call has the same outcome on a store as on its directory, and leaves a store of the new directory. -/
theorem answer (shows : directory.Shows store) (integers : store.HasIntegers) {call : Store.Call Item}
    (gives : call.GivesInteger store.kind) :
    (call.run store).1 = (directory.answer store.kind call).1 ∧
      (directory.answer store.kind call).2.tick.Shows (call.run store).2 := by
  rcases shows.answer_cases call with ⟨e, ran, answered⟩ | ⟨uid, x, rfl, free, ran, answered⟩ |
    ⟨uid, newUid, x, rfl, found, vacated, ran, answered⟩ | ⟨uid, rfl, found, ran, answered⟩ <;> rw [ran, answered]
  · exact ⟨rfl, shows.tick⟩
  · exact shows.put free integers fun ruled => gives ruled x rfl
  · have kept : (store.erase uid).HasIntegers :=
      fun ruled entry listed => integers ruled entry (Store.mem_entries_erase listed)
    exact (shows.unbind found).put vacated kept fun ruled => gives ruled x rfl
  · exact ⟨rfl, (shows.unbind found).tick⟩

/-- Calls one after another have the same outcomes on a store as on its directory. -/
theorem answerCalls (shows : directory.Shows store) (integers : store.HasIntegers) {calls : List (Store.Call Item)}
    (gives : ∀ call ∈ calls, call.GivesInteger store.kind) :
    (store.runCalls calls).1 = (Directory.answerCalls store.kind directory calls).1 ∧
      (Directory.answerCalls store.kind directory calls).2.Shows (store.runCalls calls).2 := by
  induction calls generalizing store directory with
  | nil => exact ⟨rfl, shows⟩
  | cons call rest ih =>
    obtain ⟨given, others⟩ := List.forall_mem_cons.mp gives
    obtain ⟨same, next⟩ := shows.answer integers given
    have kept := integers.run given
    rw [← store.kind_run call] at others
    obtain ⟨sameRest, last⟩ := ih next kept others
    rw [store.kind_run call] at sameRest last
    exact ⟨List.cons_eq_cons.mpr ⟨same, sameRest⟩, last⟩

end Directory.Shows

namespace Store

/-- Any calls on a store that was empty have the outcomes that they have on a finite map. After them the store has
just the identifiers of the map, each once, and the same object under each; and where it is not one of rules, its
objects stand in the order in which they were last put there. -/
theorem runCalls_refines_directory (kind : StoreKind) (calls : List (Call Item))
    (gives : ∀ call ∈ calls, call.GivesInteger kind) :
    let store := afterCalls kind calls
    let directory := Directory.afterCalls kind calls
    (runCalls { kind } calls).1 = (Directory.answerCalls kind {} calls).1 ∧
      store.uids.Nodup ∧
      store.size = directory.bindings.keys.card ∧
      (∀ uid, store.has uid = true ↔ uid ∈ directory.bindings) ∧
      (∀ uid, store.get uid = directory.get kind uid) ∧
      (∀ uid x, (uid, x) ∈ store.entries ↔ ∃ since, directory.bindings.lookup uid = some ⟨x, since⟩) ∧
      (kind ≠ .rule → store.uids.Pairwise fun u v => directory.since u < directory.since v) := by
  have integers : Store.HasIntegers { kind } := by
    intro _ entry listed
    cases listed
  obtain ⟨same, shows⟩ := (Directory.Shows.empty kind).answerCalls integers gives
  have kept : (afterCalls kind calls).kind = kind := kind_runCalls { kind } calls
  refine ⟨same, shows.distinct, shows.size_eq, fun uid => shows.mem_bindings_iff.symm, fun uid => ?_, shows.mem_iff,
    fun other => shows.listed ?_⟩
  · exact (shows.get_eq uid).trans (congrArg (Directory.get _ · uid) kept)
  · exact kept.symm ▸ other

/-- Two rules are stored, the first is stored again, replaced under a new identifier, and deleted under the old. -/
def storeAndRename : List (Call Item) :=
  [.create (.given "a") (bareRule (.int 10)), .create (.given "b") (bareRule (.int 5)),
    .create (.given "a") (bareRule (.int 7)), .update (.given "a") (.given "c") (bareRule (.int 1)),
    .delete (.given "a")]

theorem storeAndRename_refines_directory :
    (∀ call ∈ storeAndRename, call.GivesInteger .rule) ∧
      (Directory.answerCalls .rule {} storeAndRename).1 =
        [.ok (), .ok (), .error (.duplicate .rule (.given "a")), .ok (), .error (.notFound .rule (.given "a"))] ∧
      (Directory.afterCalls .rule storeAndRename).bindings.keys.card = 2 ∧
      .given "c" ∈ (Directory.afterCalls .rule storeAndRename).bindings ∧
      (afterCalls .rule storeAndRename).uids = [.given "c", .given "b"] := by
  have gives : ∀ call ∈ storeAndRename, call.GivesInteger .rule := by
    intro call made _ x given
    simp only [storeAndRename, List.mem_cons, List.not_mem_nil, or_false] at made
    rcases made with rfl | rfl | rfl | rfl | rfl <;> cases given <;> exact ⟨_, rfl⟩
  have outcomes : (runCalls { kind := .rule } storeAndRename).1 =
      [.ok (), .ok (), .error (.duplicate .rule (.given "a")), .ok (), .error (.notFound .rule (.given "a"))] := by
    decide +kernel
  have uids : (afterCalls .rule storeAndRename).uids = [.given "c", .given "b"] := by decide +kernel
  obtain ⟨same, _, size, has, _⟩ := runCalls_refines_directory .rule storeAndRename gives
  refine ⟨gives, same.symm.trans outcomes, size.symm.trans ?_, (has _).mp (has_eq_true_iff.mpr ?_), uids⟩
  · rw [Store.size, ← List.length_map Prod.fst, ← Store.uids, uids]
    rfl
  · rw [uids]
    decide

end Store

end Rulebase
