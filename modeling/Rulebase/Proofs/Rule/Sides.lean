import Rulebase.Proofs.Group.Frame
import Rulebase.Rule

/-!
# The sides of a rule

A test of a rule looks at what a side offers: whatever the group of the side holds at some depth. The group
made to gather both ends offers the two ends themselves and whatever either of them holds. Making it changes
nothing for the groups that were there, so every test can be told from the heap as it was before. It is made
unless the number of the rule cannot be written.
-/

namespace Rulebase

/-- The groups of a rule were made in a heap. -/
structure Heap.HasRule (heap : Heap) (rule : Rule) : Prop where
  source : rule.source ∈ heap.groups
  destination : rule.destination ∈ heap.groups
  service : rule.service ∈ heap.groups

namespace Rule

/-- What a side of a rule offers to tests. -/
def Offers (rule : Rule) (registry : Registry) : Side → Object → Prop
  | .source, x => registry.HoldsWithin rule.source x
  | .destination, x => registry.HoldsWithin rule.destination x
  | .service, x => registry.HoldsWithin rule.service x
  | .any, x => ∃ g, (g = rule.source ∨ g = rule.destination) ∧
      (x = .group g ∨ registry.HoldsWithin g x)

/-- The heap with a group that nests both ends of a rule. -/
def gathered (rule : Rule) (label : Label) (heap : Heap) : Heap where
  registry := (rule.nest heap.registry label).2
  groups := heap.groups ++ [(rule.nest heap.registry label).1]

variable {rule : Rule} {registry after : Registry} {side : Side} {g : Group}

theorem both_of_writable (writable : rule.number.isWritable = true) (registry : Registry) :
    rule.both registry = .ok (rule.nest registry (bothLabel rule.text)) := by
  rw [both, written, if_pos writable]
  rfl

theorem both_of_unwritable (unwritable : rule.number.isWritable = false) (registry : Registry) :
    rule.both registry = .error .tooLarge := by
  rw [both, written, if_neg (by simp [unwritable])]
  rfl

/-- The group of both ends was made by nesting them, for a rule whose number can be written. -/
theorem eq_nest_of_both (made : rule.both registry = .ok (g, after)) :
    rule.number.isWritable = true ∧ rule.nest registry (bothLabel rule.text) = (g, after) := by
  cases writable : rule.number.isWritable with
  | true => exact ⟨rfl, Except.ok.inj ((both_of_writable writable registry).symm.trans made)⟩
  | false => cases (both_of_unwritable writable registry).symm.trans made

/-- A side has a group unless it takes both ends of a rule whose number cannot be written. -/
theorem exists_select (free : side = .any → rule.number.isWritable = true) (registry : Registry) :
    ∃ g after, rule.select registry side = .ok (g, after) := by
  cases side with
  | source => exact ⟨_, _, rfl⟩
  | destination => exact ⟨_, _, rfl⟩
  | service => exact ⟨_, _, rfl⟩
  | any => exact ⟨_, _, both_of_writable (free rfl) registry⟩

/-- The side of a rule that services stand with is the only one with services. -/
theorem family_of_select (selected : rule.select registry side = .ok (g, after)) :
    g.family = .service ↔ side = .service := by
  cases side with
  | source =>
    cases selected
    simp [rule.sourceFamily]
  | destination =>
    cases selected
    simp [rule.destinationFamily]
  | service =>
    cases selected
    simp [rule.serviceFamily]
  | any =>
    cases (eq_nest_of_both selected).2
    have addresses : Family.address ≠ .service := by decide
    exact iff_of_false addresses (by decide)

theorem ask_of_select (selected : rule.select registry side = .ok (g, after))
    (question : Registry → Group → Except MembershipError Bool) :
    rule.ask registry side question = (question after g).mapError .refused := by
  rw [ask, selected]
  rfl

/-- A question is answered about the group of the side. -/
theorem exists_of_ask {question : Registry → Group → Except MembershipError Bool} {answer : Bool}
    (asked : rule.ask registry side question = .ok answer) :
    ∃ g after, rule.select registry side = .ok (g, after) ∧ question after g = .ok answer := by
  cases selected : rule.select registry side with
  | error cause =>
    rw [ask, selected] at asked
    cases asked
  | ok pair =>
    obtain ⟨g, after⟩ := pair
    rw [ask_of_select selected] at asked
    refine ⟨g, after, rfl, ?_⟩
    cases given : question after g with
    | error cause =>
      rw [given] at asked
      cases asked
    | ok found =>
      rw [given] at asked
      cases asked
      rfl

theorem ask_of_unwritable (unwritable : rule.number.isWritable = false)
    (question : Registry → Group → Except MembershipError Bool) :
    rule.ask registry .any question = .error (.numeral .tooLarge) := by
  rw [ask, select, both_of_unwritable unwritable]
  rfl

end Rule

theorem mem_byName {g h k : Group} : k ∈ byName g h ↔ k = g ∨ k = h := by
  unfold byName
  split <;> simp [or_comm]

theorem byName_ascending (g h : Group) : Order.Ascending nameBefore (·.name) (byName g h) := by
  unfold byName
  split
  · rename_i earlier
    simpa [Order.Ascending] using Order.before_asymm earlier
  · rename_i level
    simpa [Order.Ascending] using level

namespace Heap

variable {heap : Heap} {rule : Rule} {label : Label} {side : Side} {g h : Group} {x m : Object} {after : Registry}

/-- Only the new group has a content of its own in the gathered heap. -/
theorem content_gathered :
    (rule.gathered label heap).registry.content g =
      if g.serial = heap.registry.size + 1 then ⟨fun _ => [], byName rule.source rule.destination⟩
      else heap.registry.content g := by
  have registered : (heap.registry.create .address label).1.serial ∈
      (heap.registry.create .address label).2.serials := by
    simp [Registry.create, Registry.serials, Registry.size, List.mem_range'_1]
  simp only [Rule.gathered, Rule.nest, Registry.content_setContent registered,
    Registry.content_create]
  rfl

theorem content_gathered_nest :
    (rule.gathered label heap).registry.content (rule.nest heap.registry label).1 =
      ⟨fun _ => [], byName rule.source rule.destination⟩ :=
  content_gathered.trans (if_pos rfl)

theorem nested_gathered_nest :
    (rule.gathered label heap).registry.nested (rule.nest heap.registry label).1 =
      byName rule.source rule.destination :=
  congrArg Content.groups content_gathered_nest

theorem Closed.content_gathered_made (closed : heap.Closed) (rule : Rule) (label : Label)
    (made : g ∈ heap.groups) :
    (rule.gathered label heap).registry.content g = heap.registry.content g := by
  refine content_gathered.trans (if_neg fun same => ?_)
  have registered := closed.registered made
  simp only [Registry.serials, List.mem_range'_1, same] at registered
  omega

/-- What was known is as it was. -/
theorem Closed.agreesOn_gathered (closed : heap.Closed) (rule : Rule) (label : Label)
    (known : heap.Knows x) :
    heap.registry.AgreesOn (rule.gathered label heap).registry x := by
  cases x with
  | leaf l => trivial
  | group g =>
    intro h reaches
    rcases known with made | unregistered
    · exact (closed.content_gathered_made rule label (closed.reaches made reaches).1).symm
    · have alone : h.serial = 0 := by rw [eq_of_reaches unregistered reaches, unregistered]
      rw [content_of_serial_eq_zero _ alone, content_of_serial_eq_zero _ alone]

theorem nest_mem_gathered : (rule.nest heap.registry label).1 ∈ (rule.gathered label heap).groups := by
  simp [Rule.gathered]

theorem made_gathered (made : g ∈ (rule.gathered label heap).groups) :
    g ∈ heap.groups ∨ g = (rule.nest heap.registry label).1 := by
  simpa [Rule.gathered] using made

/-- Gathering both ends of a rule keeps a heap in order. -/
theorem Sound.gathered (sound : heap.Sound) (has : heap.HasRule rule) (label : Label) :
    (rule.gathered label heap).Ordered where
  serials := by
    have created := (sound.create .address label).serials
    simpa [Rule.gathered, Rule.nest, Heap.create] using created
  exist g made x held := by
    rcases made_gathered made with old | rfl
    · have agrees := sound.agreesOn_gathered rule label (x := .group g) (Or.inl old)
      have before := sound.exist g old x ((agrees.holds_iff .refl).mpr held)
      cases x with
      | leaf l => trivial
      | group h => exact List.mem_append_left _ before
    · cases x with
      | leaf l => trivial
      | group h =>
        rw [Registry.Holds, nested_gathered_nest, mem_byName] at held
        rcases held with rfl | rfl
        · exact List.mem_append_left _ has.source
        · exact List.mem_append_left _ has.destination
  family g made x held := by
    rcases made_gathered made with old | rfl
    · have agrees := sound.agreesOn_gathered rule label (x := .group g) (Or.inl old)
      exact sound.family g old x ((agrees.holds_iff .refl).mpr held)
    · cases x with
      | leaf l => simp [Registry.Holds, content_gathered_nest] at held
      | group h =>
        rw [Registry.Holds, nested_gathered_nest, mem_byName] at held
        rcases held with rfl | rfl
        · exact rule.sourceFamily
        · exact rule.destinationFamily
  kinds g made kind l found := by
    rcases made_gathered made with old | rfl
    · rw [sound.content_gathered_made rule label old] at found
      exact sound.kinds g old kind l found
    · simp [content_gathered_nest] at found
  leaves g made kind := by
    rcases made_gathered made with old | rfl
    · rw [sound.content_gathered_made rule label old]
      exact sound.leaves g old kind
    · simp [content_gathered_nest, Order.StrictlyAscending]
  names g made := by
    rcases made_gathered made with old | rfl
    · rw [Registry.nested, sound.content_gathered_made rule label old]
      exact sound.names g old
    · rw [nested_gathered_nest]
      exact byName_ascending rule.source rule.destination

theorem HasRule.end_made (has : heap.HasRule rule) (isEnd : g = rule.source ∨ g = rule.destination) :
    g ∈ heap.groups := by
  rcases isEnd with rfl | rfl
  · exact has.source
  · exact has.destination

/-- The group of both ends holds, at some depth, what the two ends offer together. -/
theorem Closed.holdsWithin_gathered (closed : heap.Closed) (has : heap.HasRule rule) :
    (rule.gathered label heap).registry.HoldsWithin (rule.nest heap.registry label).1 m ↔
      rule.Offers heap.registry .any m := by
  have agrees {g : Group} (isEnd : g = rule.source ∨ g = rule.destination) :=
    closed.agreesOn_gathered rule label (x := .group g) (Or.inl (has.end_made isEnd))
  constructor
  · rintro ⟨h, reaches, held⟩
    rcases Relation.ReflTransGen.cases_head reaches with rfl | ⟨g, nests, below⟩
    · cases m with
      | leaf l => simp [Registry.Holds, content_gathered_nest] at held
      | group k =>
        rw [Registry.Holds, nested_gathered_nest, mem_byName] at held
        exact ⟨k, held, Or.inl rfl⟩
    · rw [Registry.Nests, nested_gathered_nest, mem_byName] at nests
      exact ⟨g, nests, Or.inr ((agrees nests).holdsWithin_iff.mpr ⟨h, below, held⟩)⟩
  · rintro ⟨g, isEnd, rfl | within⟩
    · refine ⟨_, .refl, ?_⟩
      rw [Registry.Holds, nested_gathered_nest, mem_byName]
      exact isEnd
    · obtain ⟨h, below, held⟩ := (agrees isEnd).holdsWithin_iff.mp within
      refine ⟨h, .head ?_ below, held⟩
      rw [Registry.Nests, nested_gathered_nest, mem_byName]
      exact isEnd

theorem Closed.has_of_holdsWithin (closed : heap.Closed) (made : g ∈ heap.groups)
    (within : heap.registry.HoldsWithin g x) : heap.Has x := by
  obtain ⟨h, reaches, held⟩ := within
  exact closed.exist h (closed.reaches made reaches).1 x held

/-- What a side offers exists. -/
theorem Closed.has_of_offers (closed : heap.Closed) (has : heap.HasRule rule)
    (offers : rule.Offers heap.registry side x) : heap.Has x := by
  cases side with
  | source => exact closed.has_of_holdsWithin has.source offers
  | destination => exact closed.has_of_holdsWithin has.destination offers
  | service => exact closed.has_of_holdsWithin has.service offers
  | any =>
    obtain ⟨g, isEnd, rfl | within⟩ := offers
    · exact has.end_made isEnd
    · exact closed.has_of_holdsWithin (has.end_made isEnd) within

/-- A group has an object just when it holds a match at some depth. -/
theorem Ordered.hasObject_iff_holdsWithin (ordered : heap.Ordered) (made : g ∈ heap.groups)
    (family : x.family = g.family) :
    heap.registry.hasObject g x = .ok true ↔
      ∃ m, heap.registry.HoldsWithin g m ∧ heap.registry.sameObject m x = true := by
  rw [ordered.hasObject_iff made family]
  constructor
  · rintro ⟨h, reaches, m, held, same⟩
    exact ⟨m, ⟨h, reaches, held⟩, same⟩
  · rintro ⟨m, ⟨h, reaches, held⟩, same⟩
    exact ⟨h, reaches, m, held, same⟩

/-- A group contains an object just when leaves that it holds at some depth cover all the object's leaves, of
which there are some. -/
theorem Ordered.groupContains_iff_holdsWithin (ordered : heap.Ordered) (made : g ∈ heap.groups)
    (family : x.family = g.family) :
    heap.registry.groupContains g x = .ok true ↔
      heap.registry.leavesOf x ≠ [] ∧ ∀ l ∈ heap.registry.leavesOf x,
        ∃ k, heap.registry.HoldsWithin g (.leaf k) ∧ k.covers l = true := by
  have asked : heap.registry.groupContains g x = .ok true ↔ _ := Registry.contains_iff (x := .group g)
  simp only [Object.CanContain, family, true_and, Registry.leavesOf, ordered.mem_members_iff made]
    at asked
  exact asked

/-- The group of a side has an object when the side offers a match of it. -/
theorem Sound.select_hasObject_iff (sound : heap.Sound) (has : heap.HasRule rule) (known : heap.Knows x)
    (selected : rule.select heap.registry side = .ok (g, after)) (family : x.family = g.family) :
    after.hasObject g x = .ok true ↔
      ∃ m, rule.Offers heap.registry side m ∧ heap.registry.sameObject m x = true := by
  cases side with
  | source =>
    cases selected
    exact sound.hasObject_iff_holdsWithin has.source family
  | destination =>
    cases selected
    exact sound.hasObject_iff_holdsWithin has.destination family
  | service =>
    cases selected
    exact sound.hasObject_iff_holdsWithin has.service family
  | any =>
    obtain ⟨_, made⟩ := Rule.eq_nest_of_both selected
    cases made
    have asked := (sound.gathered has _).hasObject_iff_holdsWithin nest_mem_gathered family
    simp only [sound.holdsWithin_gathered has] at asked
    refine asked.trans (exists_congr fun m => and_congr_right fun offers => ?_)
    have agrees := sound.agreesOn_gathered rule (bothLabel rule.text) (sound.has_of_offers has offers).knows
    rw [agrees.sameObject_eq (sound.agreesOn_gathered rule _ known)]

/-- The group of a side contains an object when each of the object's leaves, of which there are some, is covered by a
leaf that the side offers. -/
theorem Sound.select_groupContains_iff (sound : heap.Sound) (has : heap.HasRule rule) (known : heap.Knows x)
    (selected : rule.select heap.registry side = .ok (g, after)) (family : x.family = g.family) :
    after.groupContains g x = .ok true ↔
      heap.registry.leavesOf x ≠ [] ∧ ∀ l ∈ heap.registry.leavesOf x,
        ∃ k, rule.Offers heap.registry side (.leaf k) ∧ k.covers l = true := by
  cases side with
  | source =>
    cases selected
    exact sound.groupContains_iff_holdsWithin has.source family
  | destination =>
    cases selected
    exact sound.groupContains_iff_holdsWithin has.destination family
  | service =>
    cases selected
    exact sound.groupContains_iff_holdsWithin has.service family
  | any =>
    obtain ⟨_, made⟩ := Rule.eq_nest_of_both selected
    cases made
    have asked := (sound.gathered has _).groupContains_iff_holdsWithin nest_mem_gathered family
    simp only [sound.holdsWithin_gathered has,
      ← (sound.agreesOn_gathered rule _ known).leavesOf_eq] at asked
    exact asked

end Heap

namespace Query

def serversCopy : Group where
  name := "servers"
  comment := "copied"
  serial := 3
  family := .address

def everythingCopy : Group where
  name := "everything"
  serial := 4
  family := .address

def noServices : Group where
  name := "services"
  serial := 5
  family := .service

def mailCopy : Leaf := .host { name := "mx", address := .ofNat 167772162 }

def beforeCopying : Heap :=
  ((Heap.nestedPair.create .address { name := "servers", comment := "copied" }).create .address
    { name := "everything" }).create .service { name := "services" }

/-- Two groups one in the other, copies of both, and a group of services. -/
def copiedPair : Heap :=
  ((beforeCopying.add serversCopy (.leaf Heap.web)).add serversCopy (.leaf mailCopy)).add everythingCopy
    (.group serversCopy)

theorem groups_beforeCopying :
    beforeCopying.groups =
      [Heap.servers, Heap.everything, serversCopy, everythingCopy, noServices] := by
  simp only [beforeCopying, Heap.create, Heap.groups_nestedPair]
  decide +kernel

theorem copiedPair_reachable : copiedPair.Reachable := by
  have before : beforeCopying.Reachable :=
    .create (.create (.create Heap.nestedPair_reachable .address _) .address _) .service _
  have first := before.add (g := serversCopy) (x := .leaf Heap.web)
    (by simp [groups_beforeCopying]) trivial
  have second := first.add (g := serversCopy) (x := .leaf mailCopy)
    (by simp [groups_beforeCopying]) trivial
  exact second.add (by simp [groups_beforeCopying]) (by simp [Heap.Has, groups_beforeCopying])

/-- A rule between the first two groups. -/
def original : Rule where
  number := .int 10
  source := Heap.everything
  destination := Heap.servers
  service := noServices
  sourceFamily := rfl
  destinationFamily := rfl
  serviceFamily := rfl

theorem groups_copiedPair :
    copiedPair.groups = [Heap.servers, Heap.everything, serversCopy, everythingCopy, noServices] := by
  simp [copiedPair, groups_beforeCopying]

theorem copiedPair_hasRule : copiedPair.HasRule original := by
  constructor <;> simp [groups_copiedPair, original]

end Query

end Rulebase
