import Rulebase.Proofs.Address.Subnet
import Rulebase.Proofs.Group.Containment

/-!
# The points that objects stand for

A leaf stands for addresses, or for ports of a protocol: a network for the addresses of its base, a range for
those between its ends. These are the points of the leaf's span, of which there is at least one. Covering,
decided by the ends of spans, is therefore inclusion of points, but for points as covering leaves, which are
asked for their like only.
-/

namespace Rulebase

/-- What objects are made of: addresses, and ports of a protocol. -/
inductive Point where
  | address (address : Address)
  | port (protocol : Protocol) (number : Int)
  deriving DecidableEq, Repr

def Span.Has : Span → Point → Prop
  | addresses a b, .address p => a ≤ p ∧ p ≤ b
  | ports protocol a b, .port other n => other = protocol ∧ a ≤ n ∧ n ≤ b
  | _, _ => False

def Leaf.Denotes : Leaf → Point → Prop
  | host x, .address p => p = x.address
  | network x, .address p => p.base x.mask = x.address
  | range x, .address p => x.first ≤ p ∧ p ≤ x.last
  | port x, .port protocol n => protocol = x.protocol ∧ n = x.number
  | portRange x, .port protocol n => protocol = x.protocol ∧ x.first ≤ n ∧ n ≤ x.last
  | _, _ => False

def Leaf.point? : Leaf → Option Point
  | host x => some (.address x.address)
  | port x => some (.port x.protocol x.number)
  | network _ | range _ | portRange _ => none

namespace Span

variable {x y : Span} {p : Point}

theorem has_of_covers (covers : x.covers y = true) (has : y.Has p) : x.Has p := by
  cases x with
  | addresses a b =>
    cases y with
    | ports protocol c d => cases covers
    | addresses c d =>
      cases p with
      | port other n => cases has
      | address p =>
        obtain ⟨low, high⟩ := covers_addresses.mp covers
        exact ⟨Nat.le_trans low has.1, Nat.le_trans has.2 high⟩
  | ports protocol a b =>
    cases y with
    | addresses c d => cases covers
    | ports other c d =>
      cases p with
      | address p => cases has
      | port third n =>
        obtain ⟨same, low, high⟩ := covers_ports.mp covers
        exact ⟨has.1.trans same.symm, Int.le_trans low has.2.1, Int.le_trans has.2.2 high⟩

/-- A span with a point has both its ends. -/
theorem covers_of_forall_has (some : y.Has p) (all : ∀ q, y.Has q → x.Has q) : x.covers y = true := by
  cases y with
  | addresses c d =>
    cases p with
    | port other n => cases some
    | address p =>
      have ordered : c.toNat ≤ d.toNat := Nat.le_trans some.1 some.2
      have first := all (.address c) ⟨Nat.le_refl _, ordered⟩
      have last := all (.address d) ⟨ordered, Nat.le_refl _⟩
      cases x with
      | ports protocol a b => cases first
      | addresses a b => exact covers_addresses.mpr ⟨first.1, last.2⟩
  | ports other c d =>
    cases p with
    | address p => cases some
    | port third n =>
      have ordered : c ≤ d := Int.le_trans some.2.1 some.2.2
      have first := all (.port other c) ⟨rfl, Int.le_refl _, ordered⟩
      have last := all (.port other d) ⟨rfl, ordered, Int.le_refl _⟩
      cases x with
      | addresses a b => cases first
      | ports protocol a b => exact covers_ports.mpr ⟨first.1.symm, first.2.1, last.2.2⟩

end Span

namespace Leaf

variable {x y : Leaf} {p : Point}

theorem denotes_iff : x.Denotes p ↔ x.span.Has p := by
  cases x with
  | host x =>
    cases p with
    | address p =>
      simp only [Denotes, span, Span.Has, Address.le_iff, ← Address.toNat_inj]
      omega
    | port protocol n => rfl
  | network x =>
    cases p with
    | address p => exact Address.base_eq_iff x.isNetmask x.isBase
    | port protocol n => rfl
  | range x => cases p <;> rfl
  | port x =>
    cases p with
    | address p => rfl
    | port protocol n =>
      refine and_congr_right fun _ => ?_
      omega
  | portRange x => cases p <;> rfl

theorem exists_denotes (x : Leaf) : ∃ p, x.Denotes p := by
  cases x with
  | host x => exact ⟨.address x.address, rfl⟩
  | network x => exact ⟨.address x.address, x.isBase⟩
  | range x => exact ⟨.address x.first, Nat.le_refl _, x.ordered⟩
  | port x => exact ⟨.port x.protocol x.number, rfl, rfl⟩
  | portRange x => exact ⟨.port x.protocol x.first, rfl, Int.le_refl _, Int.ofNat_le.mpr x.ordered⟩

/-- What a leaf covers stands for points of that leaf. -/
theorem denotes_of_covers (covers : x.covers y = true) (denotes : y.Denotes p) : x.Denotes p :=
  denotes_iff.mpr (Span.has_of_covers (span_covers covers) (denotes_iff.mp denotes))

/-- An interval covers a leaf just when it has all the points of the leaf. -/
theorem covers_iff_of_not_isPoint (interval : x.isPoint = false) :
    x.covers y = true ↔ ∀ p, y.Denotes p → x.Denotes p := by
  constructor
  · exact fun covers p => denotes_of_covers covers
  · intro all
    obtain ⟨p, denotes⟩ := y.exists_denotes
    rw [covers_of_not_isPoint interval]
    refine Span.covers_of_forall_has (denotes_iff.mp denotes) fun q has => ?_
    exact denotes_iff.mp (all q (denotes_iff.mpr has))

theorem denotes_iff_of_point? (point : y.point? = some p) {q : Point} : y.Denotes q ↔ q = p := by
  cases y with
  | host x =>
    cases point
    cases q <;> simp [Denotes]
  | port x =>
    cases point
    cases q <;> simp [Denotes]
  | _ => cases point

/-- A leaf of either sort covers a point just when the point lies in its span. -/
theorem covers_iff_of_point? (point : y.point? = some p) : x.covers y = true ↔ x.span.Has p := by
  rw [← denotes_iff]
  cases sort : x.isPoint with
  | false => simp [covers_iff_of_not_isPoint sort, denotes_iff_of_point? point]
  | true =>
    rw [Leaf.covers, if_pos sort]
    cases x with
    | host x =>
      cases y with
      | host y =>
        cases point
        exact beq_iff_eq.trans eq_comm
      | port y => cases point; simp [same, Denotes]
      | _ => cases point
    | port x =>
      cases y with
      | host y => cases point; simp [same, Denotes]
      | port y =>
        cases point
        simp only [same, Denotes, Bool.and_eq_true, beq_iff_eq, Int.natCast_inj]
        rw [and_comm, eq_comm (a := x.protocol), eq_comm (a := x.number)]
      | _ => cases point
    | _ => cases sort

end Leaf

end Rulebase
