import Rulebase.Proofs.Rule.Ends

/-!
# What is had is contained

A group that has an object holds a match of it at some depth. A leaf covers whatever it matches, and what a matching
group holds at some depth the group holds too: so every leaf of the object is covered, be the match the object itself
or another group of the same shape. Only an object that no leaf is reachable from is had and not contained.
-/

namespace Rulebase

/-- What a group below holds at some depth is held below too. -/
theorem Registry.HoldsWithin.below {registry : Registry} {g h : Group} {m : Object}
    (held : registry.HoldsWithin g (.group h)) (within : registry.HoldsWithin h m) : registry.HoldsWithin g m := by
  obtain ⟨k, reaches, nests⟩ := held
  obtain ⟨j, reaches', here⟩ := within
  exact ⟨j, (reaches.tail nests).trans reaches', here⟩

theorem Rule.Offers.below {rule : Rule} {registry : Registry} {side : Side} {g : Group} {m : Object}
    (offers : rule.Offers registry side (.group g)) (within : registry.HoldsWithin g m) :
    rule.Offers registry side m := by
  cases side with
  | source => exact Registry.HoldsWithin.below offers within
  | destination => exact Registry.HoldsWithin.below offers within
  | service => exact Registry.HoldsWithin.below offers within
  | any =>
    obtain ⟨k, isEnd, same | held⟩ := offers
    · obtain rfl := Object.group.inj same
      exact ⟨_, isEnd, Or.inr within⟩
    · exact ⟨k, isEnd, Or.inr (held.below within)⟩

namespace Heap

variable {heap : Heap} {rule : Rule} {side : Side} {g : Group} {x m : Object}

/-- Among objects that include what their groups hold, those that match an object cover each of its leaves. -/
theorem Ordered.covered_of_match (ordered : heap.Ordered) {P : Object → Prop} (exist : ∀ {y}, P y → heap.Has y)
    (below : ∀ {h y}, P (.group h) → heap.registry.HoldsWithin h y → P y) (known : heap.Knows x) (found : P m)
    (same : heap.registry.sameObject m x = true) :
    ∀ l ∈ heap.registry.leavesOf x, ∃ k, P (.leaf k) ∧ k.covers l = true := by
  intro l own
  have matched := (ordered.sameObject_iff (exist found).knows known).mp same
  match m, x with
  | .leaf k, .leaf y =>
    cases List.mem_singleton.mp own
    exact ⟨k, found, Leaf.covers_of_same matched⟩
  | .group h, .group g =>
    have within := (ordered.mem_members_iff_of_knows known).mp own
    have made : g ∈ heap.groups := known.resolve_right fun unregistered =>
      not_holdsWithin_of_serial unregistered within
    obtain ⟨n, within', twin⟩ := ordered.holdsWithin_of_similar made matched.2.symm within
    cases n with
    | group k => cases twin
    | leaf k => exact ⟨k, below found within', Leaf.covers_of_same (Leaf.same_symm twin)⟩

/-- A group contains the object it has, when some leaf is reachable from the object. -/
theorem Ordered.groupContains_of_hasObject (ordered : heap.Ordered) (made : g ∈ heap.groups) (known : heap.Knows x)
    (family : x.family = g.family) (some : heap.registry.leavesOf x ≠ [])
    (had : heap.registry.hasObject g x = .ok true) : heap.registry.groupContains g x = .ok true := by
  obtain ⟨m, within, same⟩ := (ordered.hasObject_iff_holdsWithin made family).mp had
  refine (ordered.groupContains_iff_holdsWithin made family).mpr ⟨some, ?_⟩
  exact ordered.covered_of_match (P := heap.registry.HoldsWithin g) (ordered.has_of_holdsWithin made)
    Registry.HoldsWithin.below known within same

/-- A rule that has an object on a side contains it there, when some leaf is reachable from the object. -/
theorem Sound.passes_contains (sound : heap.Sound) (has : heap.HasRule rule) (known : heap.Knows x)
    (some : heap.registry.leavesOf x ≠ []) (had : Query.Verb.Passes heap.registry rule x side .has) :
    Query.Verb.Passes heap.registry rule x side .contains := by
  obtain ⟨m, offers, same⟩ := had
  refine ⟨some, ?_⟩
  exact sound.covered_of_match (P := rule.Offers heap.registry side) (sound.has_of_offers has) Rule.Offers.below
    known offers same

end Heap

namespace Query

variable {catalog : Option Catalog}

/-- Two texts that read as a test of the same literal on the same side, whatever the verbs, parse to conditions on
the same object and side. -/
theorem parse_test_of_reads {text other : String} {verb verb' : Verb} {literal : String} {selection : Selection}
    {condition : Condition Atom} (reads : Reads text (.test verb literal selection))
    (reads' : Reads other (.test verb' literal selection)) (parsed : parse catalog text = .ok condition) :
    ∃ x side, object? catalog literal = some x ∧ (x.family = .service ↔ side = .service) ∧
      condition = .test (verb.atom x side) ∧ parse catalog other = .ok (.test (verb'.atom x side)) := by
  obtain ⟨s, readsToo, denotes⟩ := reads_of_parse parsed
  cases reads.unique readsToo
  cases denotes with
  | test found named => exact ⟨_, _, found, named.service_iff, rfl, parse_of_reads reads' (.test found named)⟩

/-- In every heap that can come about, a group contains every object it has from which a leaf is reachable. A rule
found by a test that a side has what a literal stands for is found by the test that the side contains it, unless the
literal stands for a group from which no leaf is reachable. -/
theorem contains_of_has {heap : Heap} (reachable : heap.Reachable) :
    (∀ g ∈ heap.groups, ∀ x, heap.Knows x → x.family = g.family →
      (∀ h, x = .group h → ∃ l, heap.registry.HoldsWithin h (.leaf l)) →
        heap.registry.hasObject g x = .ok true → heap.registry.groupContains g x = .ok true) ∧
    ∀ (catalog : Option Catalog) (literal : String) (selection : Selection) (text other : String),
      (∀ find, catalog = some find → ∀ name x, find name = some x → heap.Has x) →
      Reads text (.test .has literal selection) → Reads other (.test .contains literal selection) →
      ∀ condition, parse catalog text = .ok condition →
        ∃ condition', parse catalog other = .ok condition' ∧
          ∀ rule, heap.HasRule rule → holds heap.registry rule condition = .ok true →
            holds heap.registry rule condition' = .ok true ∨
              ∃ g, object? catalog literal = some (.group g) ∧
                ∀ l, ¬ heap.registry.HoldsWithin g (.leaf l) := by
  have sound := reachable.sound
  have leaves {x : Object} (known : heap.Knows x)
      (some : ∀ h, x = .group h → ∃ l, heap.registry.HoldsWithin h (.leaf l)) : heap.registry.leavesOf x ≠ [] := by
    cases x with
    | leaf l => exact List.cons_ne_nil l []
    | group h => exact (sound.leavesOf_group_ne_nil_iff known).mpr (some h rfl)
  refine ⟨fun g made x known family some had =>
    sound.groupContains_of_hasObject made known family (leaves known some) had, ?_⟩
  intro catalog literal selection text other named reads reads' condition parsed
  obtain ⟨x, side, found, fits, rfl, parsed'⟩ := parse_test_of_reads reads reads' parsed
  have known := knows_of_object? named found
  refine ⟨_, parsed', fun rule has held => ?_⟩
  by_cases some : ∀ h, x = .group h → ∃ l, heap.registry.HoldsWithin h (.leaf l)
  · have told (verb : Verb) := verb.tells_atom sound has known fits
    obtain ⟨free, had⟩ := (told .has).eq_true_iff.mp held
    exact Or.inl ((told .contains).eq_true_iff.mpr ⟨free, sound.passes_contains has known (leaves known some) had⟩)
  · simp only [not_forall, not_exists] at some
    obtain ⟨h, rfl, empty⟩ := some
    exact Or.inr ⟨h, found, empty⟩

def copyOnly : Catalog := fun name =>
  if name = "servers" then some (.group serversCopy) else none

/-- A rule from a group in which another is nested is found by the copy of the nested one, which it does not hold,
when asked whether it has it and then when asked whether it contains it. -/
theorem copied_contains_of_has :
    copiedPair.Reachable ∧ copiedPair.HasRule original ∧
      ∃ condition condition',
        parse (some copyOnly) "(has \"servers\" in src)" = .ok condition ∧
          parse (some copyOnly) "(contains \"servers\" in src)" = .ok condition' ∧
          holds copiedPair.registry original condition = .ok true ∧
          holds copiedPair.registry original condition' = .ok true := by
  have made : serversCopy ∈ copiedPair.groups := by simp [groups_copiedPair]
  have named (name : String) (x : Object) (found : copyOnly name = some x) : copiedPair.Has x := by
    unfold copyOnly at found
    split at found
    · cases found
      exact made
    · cases found
  have reads : Reads "(has \"servers\" in src)" (.test .has "servers" (.bare "src")) := by
    unfold Reads
    decide
  have reads' : Reads "(contains \"servers\" in src)" (.test .contains "servers" (.bare "src")) := by
    unfold Reads
    decide
  have denoted : object? (some copyOnly) "servers" = some (.group serversCopy) := rfl
  have parsed : parse (some copyOnly) "(has \"servers\" in src)" = .ok (.test (.has (.group serversCopy) .source)) :=
    parse_of_reads reads (.test rfl ⟨rfl, by decide⟩)
  have found : holds copiedPair.registry original (.test (.has (.group serversCopy) .source)) = .ok true := by
    decide +kernel
  obtain ⟨condition', parsed', finds⟩ := (contains_of_has copiedPair_reachable).2 (some copyOnly) "servers"
    (.bare "src") _ _ (by rintro find ⟨⟩; exact named) reads reads' _ parsed
  refine ⟨copiedPair_reachable, copiedPair_hasRule, _, condition', parsed, parsed', found, ?_⟩
  rcases finds original copiedPair_hasRule found with contained | ⟨g, given, empty⟩
  · exact contained
  · cases denoted.symm.trans given
    have members : copiedPair.registry.members serversCopy = [Heap.web, mailCopy] := by decide +kernel
    have web : Heap.web ∈ copiedPair.registry.members serversCopy := by simp [members]
    exact absurd ((copiedPair_reachable.sound.mem_members_iff made).mp web) (empty _)

end Query

end Rulebase
