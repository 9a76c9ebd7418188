import Rulebase.Proofs.Object.Points
import Rulebase.Proofs.Object.Written

/-!
# Networks divide the addresses

A network has the addresses whose base under its mask is its own address. Under one mask each address is in one
network, and all networks have as many addresses as the bits that the mask leaves free can tell apart. Under two
masks the longer one has all the ones of the shorter, so networks that share an address lie one within the other.
-/

namespace Rulebase

namespace Address

variable {a b m x : Address} {shorter longer : Nat}

theorem broadcast_base (a m : Address) : (a.base m).broadcast m = a.broadcast m := by
  have bits : a.word &&& m.word ||| ~~~m.word = a.word ||| ~~~m.word := by
    ext i
    simp only [BitVec.getElem_or, BitVec.getElem_and, BitVec.getElem_not]
    cases m.word[i] <;> simp
  exact congrArg Address.mk bits

theorem base_base_netmask (le : shorter ≤ longer) (a : Address) :
    (a.base (netmask longer)).base (netmask shorter) = a.base (netmask shorter) := by
  have bits : a.word &&& (netmask longer).word &&& (netmask shorter).word = a.word &&& (netmask shorter).word := by
    apply BitVec.eq_of_getLsbD_eq
    intro i inside
    simp only [BitVec.getLsbD_and, getLsbD_netmask _ inside]
    by_cases low : i < 32 - longer
    · simp [low, show i < 32 - shorter by omega]
    · simp [low]
  exact congrArg Address.mk bits

/-- The netmasks are what is built from the lengths. -/
theorem isNetmask_iff :
    m.isNetmask = true ↔ ∃ p : Int, 0 ≤ p ∧ p ≤ 32 ∧ buildNetmask (.int p) = .ok m := by
  constructor
  · intro contiguous
    have short := maskLength_le contiguous
    exact ⟨m.maskLength, by omega, by omega, buildNetmask_int_eq_ok_iff_maskLength.mpr ⟨contiguous, rfl⟩⟩
  · rintro ⟨p, _, _, built⟩
    exact (buildNetmask_int_eq_ok_iff_maskLength.mp built).1

/-- Between two addresses there are as many as their distance tells, with both ends. -/
theorem ncard_between (a b : Address) : {x : Address | a ≤ x ∧ x ≤ b}.ncard = b.toNat + 1 - a.toNat := by
  -- The addresses are counted by their values, which tell them apart.
  have values : toNat '' {x : Address | a ≤ x ∧ x ≤ b} = Finset.Icc a.toNat b.toNat := by
    ext n
    simp only [Set.mem_image, Set.mem_ofPred_eq, Finset.coe_Icc, Set.mem_Icc]
    constructor
    · rintro ⟨x, between, rfl⟩
      exact between
    · intro between
      have small : n < 2 ^ 32 := Nat.lt_of_le_of_lt between.2 b.word.isLt
      have value : (ofNat n).toNat = n := by rw [toNat, ofNat, BitVec.toNat_ofNat, Nat.mod_eq_of_lt small]
      exact ⟨ofNat n, by simpa only [Set.mem_ofPred_eq, le_iff, value] using between, value⟩
  have injective : Function.Injective toNat := fun _ _ => toNat_inj.mp
  rw [← Set.ncard_image_of_injective _ injective, values, Set.ncard_coe_finset, Nat.card_Icc]

end Address

namespace Network

variable {m n : Network} {x : Address}

def Has (n : Network) (x : Address) : Prop :=
  (Leaf.network n).span.covers (.addresses x x) = true

theorem has_iff_between : n.Has x ↔ n.address ≤ x ∧ x ≤ n.address.broadcast n.mask :=
  Span.covers_addresses

/-- A network has the addresses whose base is its own address. -/
theorem has_iff : n.Has x ↔ x.base n.mask = n.address :=
  has_iff_between.trans (Address.base_eq_iff n.isNetmask n.isBase).symm

/-- A network has as many addresses as the bits that its mask leaves free can tell apart. -/
theorem ncard_has (n : Network) : {x | n.Has x}.ncard = 2 ^ (32 - n.mask.maskLength) := by
  have free := Address.toNat_complement_netmask n.mask.maskLength
  rw [Address.netmask_maskLength n.isNetmask] at free
  have same : {x | n.Has x} = {x | n.address ≤ x ∧ x ≤ n.address.broadcast n.mask} :=
    Set.ext fun _ => has_iff_between
  rw [same, Address.ncard_between, Address.toNat_broadcast n.isBase, ← free]
  omega

theorem exists_has {mask : Address} (isNetmask : mask.isNetmask = true) (x : Address) :
    ∃ n : Network, n.address = x.base mask ∧ n.mask = mask ∧ n.Has x :=
  ⟨{ name := "", address := x.base mask, mask, isNetmask, isBase := x.base_base mask }, rfl, rfl, has_iff.mpr rfl⟩

/-- A network that shares an address with one of a mask that is no longer lies within it. -/
theorem covers_of_shared (shared : m.Has x ∧ n.Has x) (le : m.mask.maskLength ≤ n.mask.maskLength) :
    (Leaf.network m).span.covers (Leaf.network n).span = true := by
  have least : (Leaf.network n).Denotes (.address n.address) := n.isBase
  refine Span.covers_of_forall_has (Leaf.denotes_iff.mp least) fun q has => ?_
  rw [← Leaf.denotes_iff] at has ⊢
  cases q with
  | port protocol number => cases has
  | address y =>
    have through (a : Address) : (a.base n.mask).base m.mask = a.base m.mask := by
      rw [← Address.netmask_maskLength m.isNetmask, ← Address.netmask_maskLength n.isNetmask]
      exact Address.base_base_netmask le a
    -- Under the longer mask both addresses have one base, and under the shorter one each has the base of its base.
    have inner : y.base n.mask = x.base n.mask := has.trans (has_iff.mp shared.2).symm
    calc y.base m.mask = (y.base n.mask).base m.mask := (through y).symm
      _ = (x.base n.mask).base m.mask := by rw [inner]
      _ = x.base m.mask := through x
      _ = m.address := has_iff.mp shared.1

/-- Two networks lie one within the other, or they have no address in common. -/
theorem nested_or_apart (m n : Network) :
    (Leaf.network m).span.covers (Leaf.network n).span = true ∨
      (Leaf.network n).span.covers (Leaf.network m).span = true ∨ ∀ x, ¬ (m.Has x ∧ n.Has x) := by
  by_cases common : ∃ x, m.Has x ∧ n.Has x
  · obtain ⟨x, shared⟩ := common
    rcases Nat.le_total m.mask.maskLength n.mask.maskLength with le | le
    · exact Or.inl (covers_of_shared shared le)
    · exact Or.inr (Or.inl (covers_of_shared shared.symm le))
  · exact Or.inr (Or.inr (not_exists.mp common))

/-- Two values denote the address and the mask of a network. -/
def Names (address mask : Value) (a m : Address) : Prop :=
  Address.build address = .ok a ∧ ∃ contiguous, Address.buildMask mask = .ok ⟨m, contiguous⟩

theorem names_text {mask : Address} (isNetmask : mask.isNetmask = true) (a : Address) :
    Names (.text a.text) (.text mask.text) a mask :=
  ⟨a.build_text, isNetmask, Address.buildMask_text isNetmask⟩

theorem names_length {mask : Address} (isNetmask : mask.isNetmask = true) (a : Address) :
    Names (.text a.text) (.int mask.maskLength) a mask :=
  ⟨a.build_text, isNetmask, Address.buildMask_int isNetmask⟩

/-- A network is accepted just when its address has no bit that its mask leaves free. -/
theorem build_eq_ok_iff {label : Label} {address mask : Value} {a m : Address} (names : Names address mask a m) :
    (∃ n, Network.build label address mask = .ok n) ↔ a.base m = a := by
  obtain ⟨named, contiguous, masked⟩ := names
  rw [build_eq_ofMask label named masked, ofMask_eq_ok_iff]

theorem exists_build_base {address mask : Value} {a m : Address} (label : Label)
    (names : Names address mask (a.base m) m) :
    ∃ n, Network.build label address mask = .ok n ∧ n.address = a.base m ∧ n.mask = m := by
  obtain ⟨named, contiguous, masked⟩ := names
  refine ⟨_, (build_eq_ofMask label named masked).trans (dif_pos (a.base_base m)), rfl, rfl⟩

/-- An address is in the network of just one base. -/
theorem existsUnique_has {mask : Address} (isNetmask : mask.isNetmask = true) (x : Address) :
    ∃! base, ∃ n : Network, n.address = base ∧ n.mask = mask ∧ n.Has x := by
  refine ⟨x.base mask, exists_has isNetmask x, ?_⟩
  rintro _ ⟨n, rfl, rfl, has⟩
  exact (has_iff.mp has).symm

/-- The netmasks are the masks of the lengths up to 32, each of its own. Under a netmask there is a network at the base of
an address and at no other one: it ends with the last address of the subnet, has as many addresses as the free bits
can tell apart, and has the addresses with that base. Networks lie one within the other or apart. -/
theorem subnet_arithmetic (label : Label) (m : Address) :
    (m.isNetmask = true ↔ ∃ p : Int, 0 ≤ p ∧ p ≤ 32 ∧ Address.buildNetmask (.int p) = .ok m) ∧
      (∀ p : Int, Address.buildNetmask (.int p) = .ok m → p = m.maskLength) ∧
      (m.isNetmask = true → ∀ a : Address,
        (Names (.text a.text) (.text m.text) a m ∧ Names (.text a.text) (.int m.maskLength) a m) ∧
        (∀ address mask, Names address mask a m →
          ((∃ n, Network.build label address mask = .ok n) ↔ a &&& m = a)) ∧
        (∀ address mask, Names address mask (a.base m) m →
          ∃ n, Network.build label address mask = .ok n ∧
            (Leaf.network n).span = .addresses (a.base m) (a.broadcast m) ∧
            {x | n.Has x}.ncard = 2 ^ (32 - m.maskLength) ∧
            ∀ x, n.Has x ↔ x &&& m = a.base m) ∧
        ∃! base, ∃ n : Network, n.address = base ∧ n.mask = m ∧ n.Has a) ∧
      ∀ n k : Network,
        (Leaf.network n).span.covers (Leaf.network k).span = true ∨
          (Leaf.network k).span.covers (Leaf.network n).span = true ∨ ∀ x, ¬ (n.Has x ∧ k.Has x) := by
  refine ⟨Address.isNetmask_iff, fun p built => ?_, fun isNetmask a => ⟨?_, ?_, ?_, ?_⟩, nested_or_apart⟩
  · exact (Address.buildNetmask_int_eq_ok_iff_maskLength.mp built).2
  · exact ⟨names_text isNetmask a, names_length isNetmask a⟩
  · exact fun address mask names => build_eq_ok_iff names
  · intro address mask names
    obtain ⟨n, built, isAddress, rfl⟩ := exists_build_base label names
    have last : n.address.broadcast n.mask = a.broadcast n.mask := by rw [isAddress, Address.broadcast_base]
    refine ⟨n, built, ?_, ncard_has n, fun x => ?_⟩
    · rw [Leaf.span, last, isAddress]
    · rw [has_iff, isAddress]
      exact Iff.rfl
  · exact existsUnique_has isNetmask a

/-- The network of 256 addresses in which 192.168.1.7 is. -/
theorem subnet_arithmetic_office :
    ∃ n, Network.build { name := "office" } (.text "192.168.1.0") (.int 24) = .ok n ∧ {x | n.Has x}.ncard = 256 := by
  have isNetmask : (Address.netmask 24).isNetmask = true := by decide
  have names : Names (.text "192.168.1.0") (.int 24)
      ((Address.ofOctets 192 168 1 7).base (Address.netmask 24)) (Address.netmask 24) :=
    ⟨by rfl, isNetmask, by rfl⟩
  have atBase := ((subnet_arithmetic { name := "office" } (Address.netmask 24)).2.2.1 isNetmask
    (Address.ofOctets 192 168 1 7)).2.2.1 _ _ names
  obtain ⟨n, built, _, count, _⟩ := atBase
  exact ⟨n, built, count.trans (by decide)⟩

end Network

end Rulebase
