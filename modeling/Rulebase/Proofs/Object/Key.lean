import Mathlib.Data.String.Basic
import Mathlib.Order.RelClasses
import Rulebase.Group.Membership

/-!
# Sort keys

Leaves are ordered by span and groups by name, both without ties between different keys. Two leaves match
just when they are of one kind and stand for one span, so equal keys in a list of one kind are matches: for
a network this is because its base address has no ones outside its mask.
-/

namespace Rulebase

namespace Span

theorem before_addresses {a b c d : Address} :
    (addresses a b).before (addresses c d) = true ↔ a < c ∨ a = c ∧ b < d := by
  simp [before]

theorem before_ports {p q : Protocol} {a b c d : Int} :
    (ports p a b).before (ports q c d) = true ↔
      a < c ∨ a = c ∧ (b < d ∨ b = d ∧ p.number < q.number) := by
  simp [before]

@[simp] theorem addresses_before_ports {p : Protocol} {a b : Address} {c d : Int} :
    (addresses a b).before (ports p c d) = true := rfl

@[simp] theorem ports_before_addresses {p : Protocol} {a b : Int} {c d : Address} :
    (ports p a b).before (addresses c d) = false := rfl

theorem before_trans {x y z : Span} (first : x.before y = true) (second : y.before z = true) :
    x.before z = true := by
  cases x <;> cases y <;> cases z <;>
    simp [before_addresses, before_ports, Address.lt_iff, ← Address.toNat_inj] at first second ⊢ <;>
    omega

/-- Two spans that come neither before the other are one. -/
theorem eq_of_not_before {x y : Span} (first : ¬ x.before y = true) (second : ¬ y.before x = true) :
    x = y := by
  cases x <;> cases y <;>
    simp [before_addresses, before_ports, Address.lt_iff, ← Address.toNat_inj,
      ← Protocol.number_inj] at first second ⊢ <;>
    omega

theorem not_before_self (x : Span) : ¬ x.before x = true := by
  cases x with
  | addresses a b => simp [before_addresses, Address.lt_iff]
  | ports p a b => simp [before_ports]

instance : IsStrictTotalOrder Span (Span.before · ·) where
  irrefl := not_before_self
  trans _ _ _ := before_trans
  trichotomous _ _ := eq_of_not_before

end Span

theorem nameBefore_iff {a b : String} : nameBefore a b = true ↔ a < b :=
  decide_eq_true_iff

theorem nameBefore_eq_false_iff {a b : String} : nameBefore a b = false ↔ b ≤ a := by
  rw [← Bool.not_eq_true, nameBefore_iff, not_lt]

instance : IsStrictTotalOrder String (nameBefore · ·) := by
  have same : (fun a b => nameBefore a b = true) = ((· < ·) : String → String → Prop) := by
    funext a b
    exact propext nameBefore_iff
  rw [same]
  infer_instance

/-- A base address and the last address of its subnet determine the mask. -/
theorem Address.mask_eq_of_broadcast {a m n : Address} (left : a.base m = a) (right : a.base n = a)
    (same : a.broadcast m = a.broadcast n) : m = n := by
  have leftBits := congrArg Address.word left
  have rightBits := congrArg Address.word right
  have sameBits := congrArg Address.word same
  simp only [base, broadcast, word_and, word_or, word_complement] at leftBits rightBits sameBits
  have bits : m.word = n.word := by
    ext i bound
    -- Where the base address has a one, both masks have one; elsewhere the last addresses show them.
    have atLeft := congrArg (BitVec.getLsbD · i) leftBits
    have atRight := congrArg (BitVec.getLsbD · i) rightBits
    have atSame := congrArg (BitVec.getLsbD · i) sameBits
    simp only [BitVec.getLsbD_and, BitVec.getLsbD_or, BitVec.getLsbD_not, bound, decide_true,
      Bool.true_and] at atLeft atRight atSame
    simp only [BitVec.getLsbD_eq_getElem bound] at atLeft atRight atSame
    cases one : a.word[i] <;> simp_all
  cases m
  cases n
  exact congrArg Address.mk bits

namespace Leaf

/-- Leaves match just when they are of one kind and stand for one span. -/
theorem same_iff {x y : Leaf} : x.same y = true ↔ x.kind = y.kind ∧ x.span = y.span := by
  cases x with
  | network x =>
    cases y with
    | network y =>
      simp only [same, kind, span, Bool.and_eq_true, beq_iff_eq, Span.addresses.injEq, true_and]
      constructor
      · rintro ⟨address, mask⟩
        rw [address, mask]
        exact ⟨rfl, rfl⟩
      · rintro ⟨address, last⟩
        rw [address] at last
        exact ⟨address, Address.mask_eq_of_broadcast (address ▸ x.isBase) y.isBase last⟩
    | _ => simp [same, kind]
  | host x => cases y <;> simp [same, kind, span]
  | range x => cases y <;> simp [same, kind, span]
  | port x =>
    cases y with
    | port y =>
      simp only [same, Bool.and_eq_true, beq_iff_eq, kind, span, Span.ports.injEq, Int.natCast_inj, and_self, and_comm,
        true_and]
    | _ => simp [same, kind]
  | portRange x =>
    cases y with
    | portRange y =>
      simp only [same, Bool.and_eq_true, beq_iff_eq, and_assoc, kind, span, Span.ports.injEq, Int.natCast_inj, and_comm,
        true_and]
    | _ => simp [same, kind]

/-- A leaf comes before another of its kind: hosts by address, networks and ranges by their ends, ports by
number and protocol, and port ranges by their ends and protocol. -/
def Precedes : Leaf → Leaf → Prop
  | host x, host y => x.address < y.address
  | network x, network y =>
    x.address < y.address ∨
      x.address = y.address ∧ x.address.broadcast x.mask < y.address.broadcast y.mask
  | range x, range y => x.first < y.first ∨ x.first = y.first ∧ x.last < y.last
  | port x, port y =>
    x.number < y.number ∨ x.number = y.number ∧ x.protocol.number < y.protocol.number
  | portRange x, portRange y =>
    x.first < y.first ∨ x.first = y.first ∧
      (x.last < y.last ∨ x.last = y.last ∧ x.protocol.number < y.protocol.number)
  | _, _ => False

/-- Within a kind, the order of leaves is the order of their spans. -/
theorem precedes_of_before {x y : Leaf} (kind : x.kind = y.kind)
    (before : x.span.before y.span = true) : x.Precedes y := by
  cases x <;> cases y <;>
    simp [Leaf.kind, span, Precedes, Span.before_addresses, Span.before_ports] at kind before ⊢ <;>
    grind

end Leaf

end Rulebase
