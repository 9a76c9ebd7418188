import Rulebase.Proofs.Order.Stable
import Rulebase.Proofs.Store.History

/-!
# Rules stand in the order of their numbers

A store of rules whose numbers are integers lists them by number, and those of one number by the time at which they
were last put there: what is new goes behind everything of its number, and what is taken out leaves the others as they
stand. Storing a list of rules in an empty store sorts it stably.
-/

namespace Rulebase

namespace Store

variable {α : Type} [Stored α]

def createAll (store : Store α) : List (Uid × α) → Except StoreError (Store α)
  | [] => .ok store
  | (uid, x) :: rest =>
    match store.create uid x with
    | (.ok (), after) => after.createAll rest
    | (.error e, _) => .error e

def ofList (kind : StoreKind) (given : List (Uid × α)) : Except StoreError (Store α) :=
  createAll { kind } given

def creations (given : List (Uid × α)) : List (Call α) :=
  given.map fun entry => .create entry.1 entry.2

theorem runCalls_append (store : Store α) (calls more : List (Call α)) :
    (store.runCalls (calls ++ more)).2 = ((store.runCalls calls).2.runCalls more).2 := by
  induction calls generalizing store with
  | nil => rfl
  | cons call rest ih => exact ih (call.run store).2

/-- Storing objects one after another is what the calls that store them lead to. -/
theorem runCalls_creations {store after : Store α} {given : List (Uid × α)}
    (stored : store.createAll given = .ok after) : (store.runCalls (creations given)).2 = after := by
  induction given generalizing store with
  | nil => exact Except.ok.inj stored
  | cons entry rest ih =>
    rw [createAll] at stored
    split at stored
    next next created =>
      have first : (Call.run store (.create entry.1 entry.2)).2 = next := congrArg Prod.snd created
      rw [← first] at stored
      exact ih stored
    · cases stored

end Store

/-- An item with an integer number goes to its slot among rules that have one. -/
theorem place_item_of_isNumbered {uid : Uid} {x : Item} {entries : List (Uid × Item)} (new : x.IsNumbered)
    (old : ∀ entry ∈ entries, entry.2.IsNumbered) :
    Stored.place .rule (uid, x) entries =
      .ok (entries.insertIdx (Order.slot integerBefore (·.2.integer) x.integer entries) (uid, x)) := by
  obtain ⟨i, given⟩ := new
  rw [place_item_of_number?_eq_some given]
  apply placeByNumber_eq_ok (Item.IsNumbered.number_eq ⟨i, given⟩)
  exact fun other listed => (old other listed).number_eq

namespace Directory

variable {directory : Directory Item} {store : Store Item} {uid : Uid} {x : Item} {e f : Uid × Item}

/-- One entry ranks before another by its number, or by when it was put there if the numbers are equal. -/
def RanksBefore (directory : Directory Item) (e f : Uid × Item) : Prop :=
  e.2.integer < f.2.integer ∨ e.2.integer = f.2.integer ∧ directory.since e.1 < directory.since f.1

/-- A store of rules shows a directory, in the order of ranks. -/
structure Ranks (directory : Directory Item) (store : Store Item) : Prop extends directory.Shows store where
  kind : store.kind = .rule
  integers : store.HasIntegers
  ranked : store.entries.Pairwise directory.RanksBefore

theorem RanksBefore.congr {other : Directory Item} (before : directory.RanksBefore e f)
    (left : other.since e.1 = directory.since e.1) (right : other.since f.1 = directory.since f.1) :
    other.RanksBefore e f := by
  unfold RanksBefore
  rwa [left, right]

theorem RanksBefore.integer_le (before : directory.RanksBefore e f) : e.2.integer ≤ f.2.integer := by
  rcases before with less | ⟨level, _⟩
  · exact less.le
  · exact level.le

namespace Ranks

theorem ascending (ranks : directory.Ranks store) : Order.Ascending integerBefore (·.2.integer) store.entries :=
  ranks.ranked.imp fun before => decide_eq_false (not_lt.mpr before.integer_le)

theorem empty : Directory.Ranks {} { kind := .rule } where
  toShows := .empty .rule
  kind := rfl
  integers _ _ listed := by cases listed
  ranked := .nil

theorem tick (ranks : directory.Ranks store) : directory.tick.Ranks store where
  toShows := ranks.toShows.tick
  kind := ranks.kind
  integers := ranks.integers
  ranked := ranks.ranked

theorem unbind (ranks : directory.Ranks store) (found : store.has uid = true) :
    (directory.unbind uid).Ranks (store.erase uid) where
  toShows := ranks.toShows.unbind found
  kind := ranks.kind
  integers ruled entry listed := ranks.integers ruled entry (Store.mem_entries_erase listed)
  ranked := by
    have apart : ∀ entry ∈ (store.erase uid).entries, entry.1 ≠ uid := fun entry listed =>
      ((Store.mem_entries_erase_iff ranks.distinct found).mp listed).1
    refine (ranks.ranked.sublist List.eraseP_sublist).imp_of_mem fun {e f} left right before => ?_
    exact before.congr (since_unbind_of_ne (apart e left)) (since_unbind_of_ne (apart f right))

/-- What is put under a free identifier does not change when the others were put there. -/
theorem since_bind_of_mem (free : store.has uid = false) : ∀ entry ∈ store.entries,
    (directory.bind uid x).since entry.1 = directory.since entry.1 := by
  intro entry listed
  refine since_bind_of_ne fun same => ?_
  rw [← same, Bool.eq_false_iff, ne_eq, Store.has_eq_true_iff] at free
  exact free (List.mem_map_of_mem listed)

/-- What is new is ranked in its slot: those of its number stand in front of it, and were all put there earlier. -/
theorem insert (ranks : directory.Ranks store) (free : store.has uid = false) :
    (store.entries.insertIdx (Order.slot integerBefore (·.2.integer) x.integer store.entries) (uid, x)).Pairwise
      (directory.bind uid x).tick.RanksBefore := by
  have bracket := Order.slot_bracket ranks.ascending x.integer
  have old : ∀ entry ∈ store.entries, (directory.bind uid x).since entry.1 = directory.since entry.1 :=
    since_bind_of_mem free
  rw [Order.insertIdx_eq_take_drop _ bracket.high_le]
  generalize Order.slot integerBefore (·.2.integer) x.integer store.entries = n at *
  have ranked := ranks.ranked.imp_of_mem fun {e f} left right earlier => earlier.congr (old e left) (old f right)
  rw [← List.take_append_drop n store.entries] at ranked
  obtain ⟨front, back, across⟩ := List.pairwise_append.mp ranked
  refine List.pairwise_append.mpr ⟨front, List.pairwise_cons.mpr ⟨?_, back⟩, ?_⟩
  · intro entry behind
    exact Or.inl (of_decide_eq_true (bracket.passes entry behind))
  · intro entry ahead other behind
    rcases List.mem_cons.mp behind with rfl | later
    · have listed := List.mem_of_mem_take ahead
      rcases lt_or_eq_of_le (not_lt.mp (of_decide_eq_false (bracket.fails entry ahead))) with less | level
      · exact Or.inl less
      · refine Or.inr ⟨level, ?_⟩
        rw [since_tick, since_tick, old entry listed, since_bind_self]
        -- Nothing was put in the store after the new object.
        exact ranks.past entry.1
          (ranks.mem_bindings_iff.mpr (Store.has_eq_true_iff.mpr (List.mem_map_of_mem listed)))
    · exact across entry ahead other later

theorem put (ranks : directory.Ranks store) (free : store.has uid = false) (numbered : x.IsNumbered) :
    (directory.bind uid x).tick.Ranks (store.put uid x).2 := by
  have old := ranks.integers ranks.kind
  have placed : Stored.place store.kind (uid, x) store.entries =
      .ok (store.entries.insertIdx (Order.slot integerBefore (·.2.integer) x.integer store.entries) (uid, x)) := by
    rw [ranks.kind, place_item_of_isNumbered numbered old]
  constructor
  case toShows =>
    rw [Store.put_of_place placed]
    exact ranks.toShows.bind free placed
  case kind => exact (Store.kind_put store uid x).trans ranks.kind
  case integers =>
    intro _ entry listed
    rcases Store.mem_entries_put listed with earlier | ⟨rfl, _⟩
    · exact old entry earlier
    · exact numbered
  case ranked =>
    rw [Store.put_of_place placed]
    exact ranks.insert free

theorem answer (ranks : directory.Ranks store) {call : Store.Call Item} (gives : call.GivesInteger .rule) :
    (directory.answer store.kind call).2.tick.Ranks (call.run store).2 := by
  rcases ranks.answer_cases call with ⟨e, ran, answered⟩ | ⟨uid, x, rfl, free, ran, answered⟩ |
    ⟨uid, newUid, x, rfl, found, vacated, ran, answered⟩ | ⟨uid, rfl, found, ran, answered⟩ <;> rw [ran, answered]
  · exact ranks.tick
  · exact ranks.put free (gives rfl x rfl)
  · exact (ranks.unbind found).put vacated (gives rfl x rfl)
  · exact (ranks.unbind found).tick

theorem answerCalls (ranks : directory.Ranks store) {calls : List (Store.Call Item)}
    (gives : ∀ call ∈ calls, call.GivesInteger .rule) :
    (Directory.answerCalls store.kind directory calls).2.Ranks (store.runCalls calls).2 := by
  induction calls generalizing store directory with
  | nil => exact ranks
  | cons call rest ih =>
    obtain ⟨given, others⟩ := List.forall_mem_cons.mp gives
    have last := ih (ranks.answer given) others
    rwa [store.kind_run call] at last

end Ranks

end Directory

namespace Store

variable {store after : Store Item} {given : List (Uid × Item)}

theorem creations_giveIntegers (numbered : ∀ entry ∈ given, entry.2.IsNumbered) :
    ∀ call ∈ creations given, call.GivesInteger .rule := by
  intro call made _ x gives
  obtain ⟨entry, listed, rfl⟩ := List.mem_map.mp made
  cases gives
  exact numbered entry listed

/-- The entries of a store are given ones, sorted by number as they come. -/
def Sorts (given : List (Uid × Item)) (store : Store Item) : Prop :=
  Order.SortsStably integerBefore (·.2.integer) given store.entries

theorem Sorts.empty (kind : StoreKind) : Sorts [] { kind } :=
  Order.SortsStably.nil integerBefore fun entry : Uid × Item => entry.2.integer

/-- What is created under a free identifier is sorted in behind what came before, and takes that identifier only. -/
theorem create_sorts {earlier : List (Uid × Item)} {entry : Uid × Item} (ruled : store.kind = .rule)
    (old : ∀ other ∈ store.entries, other.2.IsNumbered) (sorts : Sorts earlier store) (numbered : entry.2.IsNumbered)
    (free : store.has entry.1 = false) :
    ∃ next, store.create entry.1 entry.2 = (.ok (), next) ∧ next.kind = .rule ∧
      (∀ other ∈ next.entries, other.2.IsNumbered) ∧ Sorts (earlier ++ [entry]) next ∧
        ∀ uid, next.has uid = false ↔ uid ≠ entry.1 ∧ store.has uid = false := by
  have placed : Stored.place .rule entry store.entries = .ok _ := place_item_of_isNumbered numbered old
  rw [← ruled] at placed
  have inside := Order.slot_le integerBefore (fun other : Uid × Item => other.2.integer) entry.2.integer store.entries
  refine ⟨_, (create_of_free free).trans (put_of_place placed), ruled, ?_, sorts.insert entry, fun uid => ?_⟩
  · intro other listed
    rcases (List.mem_insertIdx inside).mp listed with rfl | earlier
    · exact numbered
    · exact old other earlier
  · simp only [has, List.any_eq_false, List.mem_insertIdx inside, beq_iff_eq, forall_eq_or_imp]
    rw [ne_comm]

/-- Objects can be stored one after another just when no two have one identifier and none has one that is taken, and
then they are sorted in behind what came before. -/
theorem createAll_sorts {earlier : List (Uid × Item)} (ruled : store.kind = .rule)
    (old : ∀ entry ∈ store.entries, entry.2.IsNumbered) (sorts : Sorts earlier store)
    (numbered : ∀ entry ∈ given, entry.2.IsNumbered) :
    ((∃ after, store.createAll given = .ok after) ↔
      (given.map Prod.fst).Nodup ∧ ∀ entry ∈ given, store.has entry.1 = false) ∧
    ∀ after, store.createAll given = .ok after → Sorts (earlier ++ given) after := by
  induction given generalizing store earlier with
  | nil =>
    refine ⟨by simp [createAll], fun after stored => ?_⟩
    cases stored
    rwa [List.append_nil]
  | cons entry rest ih =>
    obtain ⟨new, others⟩ := List.forall_mem_cons.mp numbered
    cases free : store.has entry.1 with
    | true =>
      have refused : store.createAll (entry :: rest) = .error (.duplicate store.kind entry.1) := by
        rw [createAll, create, if_pos free]
      simp [refused, free]
    | false =>
      obtain ⟨next, created, ruled', old', sorts', freed⟩ := create_sorts ruled old sorts new free
      have steps : store.createAll (entry :: rest) = next.createAll rest := by rw [createAll, created]
      obtain ⟨stored, sorted⟩ := ih ruled' old' sorts' others
      rw [steps]
      refine ⟨stored.trans ⟨?_, ?_⟩, fun after made => ?_⟩
      · rintro ⟨once, unused⟩
        have apart : entry.1 ∉ rest.map Prod.fst := by
          intro again
          obtain ⟨other, listed, same⟩ := List.mem_map.mp again
          exact ((freed other.1).mp (unused other listed)).1 same
        have before : ∀ other ∈ rest, store.has other.1 = false :=
          fun other listed => ((freed other.1).mp (unused other listed)).2
        exact ⟨List.nodup_cons.mpr ⟨apart, once⟩, List.forall_mem_cons.mpr ⟨free, before⟩⟩
      · rintro ⟨distinct, unused⟩
        obtain ⟨apart, once⟩ := List.nodup_cons.mp distinct
        refine ⟨once, fun other listed => (freed other.1).mpr ⟨?_, unused other (List.mem_cons_of_mem _ listed)⟩⟩
        exact ne_of_mem_of_not_mem (List.mem_map_of_mem listed) apart
      · rw [List.append_cons]
        exact sorted after made

/-- A list of rules makes a store just when no two have one identifier, and then the store has the list sorted. -/
theorem ofList_sorts (numbered : ∀ entry ∈ given, entry.2.IsNumbered) :
    ((∃ start, ofList .rule given = .ok start) ↔ (given.map Prod.fst).Nodup) ∧
      ∀ start, ofList .rule given = .ok start →
        start.entries = given.mergeSort fun e f => e.2.integer ≤ f.2.integer := by
  have nothing : ∀ entry ∈ Store.entries { kind := .rule }, Item.IsNumbered entry.2 := by
    intro entry listed
    cases listed
  obtain ⟨made, sorted⟩ := createAll_sorts rfl nothing (.empty .rule) numbered
  refine ⟨made.trans (and_iff_left fun _ _ => rfl), fun start stored => ?_⟩
  have merged : given.mergeSort (fun e f => e.2.integer ≤ f.2.integer) =
      given.mergeSort fun e f => !integerBefore f.2.integer e.2.integer := by
    congr with e f
    rw [integerBefore, ← decide_not]
    exact decide_eq_decide.mpr not_lt.symm
  rw [merged]
  exact (sorted start stored).unique (Order.sortsStably_mergeSort given)

theorem afterCalls_ranked {calls : List (Call Item)} (gives : ∀ call ∈ calls, call.GivesInteger .rule) :
    (afterCalls .rule calls).entries.Pairwise fun e f =>
      e.2.integer ≤ f.2.integer ∧ (e.2.integer = f.2.integer →
        ∃ i j, i < j ∧ LastStoredAt (history .rule calls) e.1 i ∧ LastStoredAt (history .rule calls) f.1 j) := by
  have ranks : (Directory.afterCalls .rule calls).Ranks (afterCalls .rule calls) :=
    Directory.Ranks.empty.answerCalls gives
  have outcomes := ((Directory.Shows.empty .rule).answerCalls Directory.Ranks.empty.integers gives).1
  have dated : (Directory.afterCalls .rule calls).Dated (history .rule calls) := by
    rw [history, outcomes]
    exact Directory.Dated.empty.answerCalls .rule calls
  have last : ∀ entry ∈ (afterCalls .rule calls).entries,
      LastStoredAt (history .rule calls) entry.1 ((Directory.afterCalls .rule calls).since entry.1) := by
    intro entry listed
    obtain ⟨since, found⟩ := (ranks.mem_iff entry.1 entry.2).mp listed
    have same : (Directory.afterCalls .rule calls).since entry.1 = since := by simp [Directory.since, found]
    rw [same]
    exact dated.last entry.1 _ found
  refine ranks.ranked.imp_of_mem fun {e f} left right before => ⟨before.integer_le, fun level => ?_⟩
  exact ⟨_, _, (before.resolve_left level.not_lt).2, last e left, last f right⟩

/-- However rules with integer numbers are stored, replaced and deleted, in a store that was empty or made of a list,
they stand in the order of their numbers, and those of one number in the order in which they were last stored. A list
of rules makes a store just when no two have one identifier, and then the store has the list sorted stably. -/
theorem runCalls_ranked (given : List (Uid × Item)) (calls : List (Call Item))
    (numbered : ∀ entry ∈ given, entry.2.IsNumbered) (gives : ∀ call ∈ calls, call.GivesInteger .rule) :
    (∀ start, ofList .rule given = .ok start →
      let history := history .rule (creations given ++ calls)
      (start.runCalls calls).2.entries.Pairwise fun e f =>
        e.2.integer ≤ f.2.integer ∧
          (e.2.integer = f.2.integer → ∃ i j, i < j ∧ LastStoredAt history e.1 i ∧ LastStoredAt history f.1 j)) ∧
    ((∃ start, ofList .rule given = .ok start) ↔ (given.map Prod.fst).Nodup) ∧
    ∀ start, ofList .rule given = .ok start →
      start.entries = given.mergeSort fun e f => e.2.integer ≤ f.2.integer := by
  refine ⟨fun start made => ?_, ofList_sorts numbered⟩
  have ranked := afterCalls_ranked (List.forall_mem_append.mpr ⟨creations_giveIntegers numbered, gives⟩)
  rwa [afterCalls, runCalls_append, runCalls_creations made] at ranked

def twoLevel : List (Uid × Item) :=
  [(.given "a", bareRule (.int 10)), (.given "b", bareRule (.int 5)), (.given "c", bareRule (.int 10))]

def renewFirst : List (Call Item) :=
  [.update (.given "a") (.given "a") (bareRule (.int 10)), .delete (.given "d")]

/-- The rules are sorted as they come, and the one that is replaced goes behind the other of its number. -/
theorem twoLevel_ranked :
    (∀ entry ∈ twoLevel, entry.2.IsNumbered) ∧ (∀ call ∈ renewFirst, call.GivesInteger .rule) ∧
      ∃ start, ofList .rule twoLevel = .ok start ∧ start.uids = [.given "b", .given "a", .given "c"] ∧
        (start.runCalls renewFirst).2.uids = [.given "b", .given "c", .given "a"] ∧
        (start.runCalls renewFirst).2.entries.Pairwise fun e f => e.2.integer ≤ f.2.integer := by
  have numbered : ∀ entry ∈ twoLevel, entry.2.IsNumbered := by
    intro entry listed
    simp only [twoLevel, List.mem_cons, List.not_mem_nil, or_false] at listed
    rcases listed with rfl | rfl | rfl <;> exact ⟨_, rfl⟩
  have gives : ∀ call ∈ renewFirst, call.GivesInteger .rule := by
    intro call made _ x given
    simp only [renewFirst, List.mem_cons, List.not_mem_nil, or_false] at made
    rcases made with rfl | rfl <;> cases given
    exact ⟨_, rfl⟩
  obtain ⟨ranked, made, sorted⟩ := runCalls_ranked twoLevel renewFirst numbered gives
  obtain ⟨start, stored⟩ := made.mpr (by decide)
  have same := runCalls_creations stored
  refine ⟨numbered, gives, start, stored, ?_, ?_, (ranked start stored).imp And.left⟩ <;> rw [← same] <;> decide +kernel

end Store

end Rulebase
