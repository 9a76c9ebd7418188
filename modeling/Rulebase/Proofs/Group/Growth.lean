import Mathlib.Data.List.InsertIdx
import Rulebase.Proofs.Group.Insertion

/-!
# A growing registry

A registry grows by new groups and by objects put in groups. What is done to groups made from some point on
leaves the groups made before as they were. An object put in a group of its family is one more among the
group's direct members.
-/

namespace Rulebase

namespace Registry

variable {registry : Registry} {g h : Group} {x : Object}

@[simp] theorem serial_create (registry : Registry) (family : Family) (label : Label) :
    (registry.create family label).1.serial = registry.size + 1 :=
  rfl

@[simp] theorem size_create (registry : Registry) (family : Family) (label : Label) :
    (registry.create family label).2.size = registry.size + 1 := by
  simp [create, size]

@[simp] theorem size_insert (registry : Registry) (g : Group) (x : Object) :
    (registry.insert g x).size = registry.size := by
  simpa [serials] using congrArg List.length (registry.serials_insert g x)

theorem content_setContent_of_ne {content : Content} (other : h.serial ≠ g.serial) :
    (registry.setContent g content).content h = registry.content h := by
  unfold Registry.content setContent
  cases right : h.serial with
  | zero => rfl
  | succ index =>
    cases left : g.serial with
    | zero => rfl
    | succ place =>
      have apart : place ≠ index := fun same => other (by rw [left, right, same])
      simp [List.getElem?_set_ne apart]

theorem content_insert_of_ne (other : h.serial ≠ g.serial) :
    (registry.insert g x).content h = registry.content h :=
  content_setContent_of_ne other

/-- The groups with the first serial numbers are as they were, and no group is lost. -/
structure Spares (first : Nat) (before after : Registry) : Prop where
  size_le : before.size ≤ after.size
  content_eq : ∀ g : Group, g.serial ≤ first → after.content g = before.content g

namespace Spares

variable {first : Nat} {before between after : Registry}

theorem refl (first : Nat) (registry : Registry) : Spares first registry registry :=
  ⟨Nat.le_refl _, fun _ _ => rfl⟩

theorem trans (left : Spares first before between) (right : Spares first between after) :
    Spares first before after where
  size_le := Nat.le_trans left.size_le right.size_le
  content_eq g old := (right.content_eq g old).trans (left.content_eq g old)

theorem mono {fewer : Nat} (spares : Spares first before after) (less : fewer ≤ first) :
    Spares fewer before after :=
  ⟨spares.size_le, fun g old => spares.content_eq g (Nat.le_trans old less)⟩

theorem create (first : Nat) (registry : Registry) (family : Family) (label : Label) :
    Spares first registry (registry.create family label).2 :=
  ⟨by simp, fun g _ => registry.content_create family label g⟩

theorem insert (later : first < g.serial) : Spares first registry (registry.insert g x) :=
  ⟨by simp, fun h old => content_insert_of_ne (by omega)⟩

end Spares

structure Fresh (registry : Registry) (g : Group) : Prop where
  registered : g.serial ∈ registry.serials
  empty : registry.content g = .empty

/-- No group is new, and of the others only one may have changed. -/
structure Alters (g : Group) (before after : Registry) : Prop where
  size_eq : after.size = before.size
  content_eq : ∀ h : Group, h.serial ≠ g.serial → after.content h = before.content h

namespace Alters

variable {before between after : Registry}

theorem refl (g : Group) (registry : Registry) : Alters g registry registry :=
  ⟨rfl, fun _ _ => rfl⟩

theorem trans (left : Alters g before between) (right : Alters g between after) : Alters g before after where
  size_eq := right.size_eq.trans left.size_eq
  content_eq h other := (right.content_eq h other).trans (left.content_eq h other)

theorem insert (registry : Registry) (g : Group) (x : Object) : Alters g registry (registry.insert g x) :=
  ⟨size_insert registry g x, fun _ => content_insert_of_ne⟩

end Alters

namespace Fresh

theorem serial_le (fresh : registry.Fresh g) : g.serial ≤ registry.size := by
  have registered := fresh.registered
  rw [serials, List.mem_range'_1] at registered
  omega

theorem of_create (registry : Registry) (family : Family) (label : Label) :
    (registry.create family label).2.Fresh (registry.create family label).1 where
  registered := by simp [serials]
  empty := by
    rw [content_create]
    refine content_eq_empty fun registered => ?_
    rw [serials, List.mem_range'_1, serial_create] at registered
    omega

theorem create (fresh : registry.Fresh g) (family : Family) (label : Label) :
    (registry.create family label).2.Fresh g where
  registered := by
    have registered := fresh.registered
    rw [serials, List.mem_range'_1] at registered ⊢
    rw [size_create]
    omega
  empty := (registry.content_create family label g).trans fresh.empty

theorem alters {after : Registry} (fresh : registry.Fresh h) (other : h.serial ≠ g.serial)
    (alters : Alters g registry after) : after.Fresh h where
  registered := by
    rw [serials, alters.size_eq]
    exact fresh.registered
  empty := (alters.content_eq h other).trans fresh.empty

end Fresh

def objects (registry : Registry) (g : Group) : List Object :=
  (registry.ownLeaves g).map .leaf ++ (registry.nested g).map .group

theorem Fresh.objects_eq_nil (fresh : registry.Fresh g) : registry.objects g = [] := by
  simp [objects, ownLeaves, nested, fresh.empty, Content.empty, Content.members]

theorem objects_congr {after : Registry} (same : after.content g = registry.content g) :
    after.objects g = registry.objects g := by
  simp [objects, ownLeaves, nested, same]

/-- What is new in one of several lists is new in all of them together. -/
theorem perm_flatMap_of_perm {ι α : Type} {keys : List ι} {key : ι} {f f' : ι → List α} {new : List α}
    (once : keys.Nodup) (listed : key ∈ keys) (here : (f' key).Perm (new ++ f key))
    (elsewhere : ∀ other, other ≠ key → f' other = f other) :
    (keys.flatMap f').Perm (new ++ keys.flatMap f) := by
  induction keys with
  | nil => cases listed
  | cons first rest ih =>
    obtain ⟨absent, later⟩ := List.nodup_cons.mp once
    rw [List.flatMap_cons, List.flatMap_cons]
    by_cases same : first = key
    · subst same
      have others : rest.flatMap f' = rest.flatMap f :=
        List.flatMap_congr fun other found => elsewhere other fun same => absent (same ▸ found)
      rw [others, ← List.append_assoc]
      exact here.append_right _
    · have found : key ∈ rest := (List.mem_cons.mp listed).resolve_left (Ne.symm same)
      rw [elsewhere first same]
      exact ((ih later found).append_left (f first)).trans (List.perm_append_comm_assoc _ _ _)

/-- What is put in a group of its family joins the direct members of the group. -/
theorem objects_insert (registered : g.serial ∈ registry.serials) (family : x.family = g.family) :
    ((registry.insert g x).objects g).Perm (x :: registry.objects g) := by
  cases x with
  | leaf y =>
    have leaves : ((registry.insert g (.leaf y)).ownLeaves g).Perm (y :: registry.ownLeaves g) := by
      show ((registry.insert g (.leaf y)).ownLeaves g).Perm ([y] ++ registry.ownLeaves g)
      refine perm_flatMap_of_perm ?_ (Family.mem_kinds.mpr family) ?_ fun kind other => ?_
      · cases g.family <;> decide
      · rw [leaves_insert_leaf registered, if_pos ⟨rfl, rfl⟩]
        exact List.perm_insertIdx _ _ (Order.slot_le _ _ _ _)
      · rw [leaves_insert_leaf registered, if_neg fun place => other place.2]
    rw [objects, objects, nested_insert_leaf registered]
    exact (leaves.map Object.leaf).append_right _
  | group h =>
    have leaves : (registry.insert g (.group h)).ownLeaves g = registry.ownLeaves g :=
      List.flatMap_congr fun kind _ => leaves_insert_group registered
    rw [objects, objects, leaves, nested_insert_group registered, if_pos rfl]
    have nested := (List.perm_insertIdx h (registry.nested g)
      (Order.slot_le nameBefore (·.name) h.name (registry.nested g))).map Object.group
    exact (nested.append_left _).trans List.perm_middle

end Registry

end Rulebase
