import Mathlib.Data.Prod.Lex
import Mathlib.Data.String.Basic
import RmDisplay.Foundation.Ordering

/-!
# Hosts of a pairing descriptor

A receiver that is bound to one address advertises that.  With a wildcard bind
it advertises the addresses of its interfaces, the most useful ones first.
-/

namespace RmDisplay.Receiver

open Foundation

structure Ipv4Addr where
  a : UInt8
  b : UInt8
  c : UInt8
  d : UInt8
deriving DecidableEq, Repr

namespace Ipv4Addr

def isUnspecified (self : Ipv4Addr) : Bool := self = ⟨0, 0, 0, 0⟩

def isLoopback (self : Ipv4Addr) : Bool := self.a = 127

def isLinkLocal (self : Ipv4Addr) : Bool := self.a = 169 && self.b = 254

def isMulticast (self : Ipv4Addr) : Bool := 224 ≤ self.a && self.a ≤ 239

def isPrivate (self : Ipv4Addr) : Bool :=
  self.a = 10 || (self.a = 172 && 16 ≤ self.b && self.b ≤ 31) ||
    (self.a = 192 && self.b = 168)

def decimal (octet : UInt8) : List Char := Nat.toDigits 10 octet.toNat

/-- The address in dotted decimal. -/
def toText (self : Ipv4Addr) : String :=
  .ofList (decimal self.a ++ '.' :: (decimal self.b ++ '.' ::
    (decimal self.c ++ '.' :: decimal self.d)))

end Ipv4Addr

inductive IpAddr where
  | v4 (address : Ipv4Addr)
  | v6 (segments : Vector UInt16 8)
deriving DecidableEq, Repr

def IpAddr.isUnspecified : IpAddr → Bool
  | .v4 address => address.isUnspecified
  | .v6 segments => segments = Vector.replicate 8 0

structure SocketAddr where
  ip : IpAddr
  port : UInt16
deriving DecidableEq, Repr

structure InterfaceIpv4 where
  name : String
  address : Ipv4Addr
  isUp : Bool
deriving DecidableEq, Repr

def maxAdvertisedHosts : Nat := 4

/-- The USB gadget endpoint, useful while there is no Wi-Fi. -/
def gadgetAddress : Ipv4Addr := ⟨10, 11, 99, 1⟩

/-- May the address of the interface be advertised? -/
def InterfaceIpv4.eligible (self : InterfaceIpv4) : Bool :=
  self.isUp && !self.address.isUnspecified && !self.address.isLoopback &&
    !self.address.isLinkLocal && !self.address.isMulticast

/-- Ranks are compared from left to right. -/
abbrev HostRank := Nat ×ₗ Nat ×ₗ String ×ₗ String

def interfaceHostRank (interface : InterfaceIpv4) : HostRank :=
  let interfaceRank :=
    if interface.name = "wlan0" then 0
    else if interface.name = "usb0" then 1
    else 2
  let addressRank :=
    if interface.address.isPrivate && interface.address ≠ gadgetAddress then 0
    else if interface.address = gadgetAddress then 1
    else 2
  toLex (interfaceRank, toLex (addressRank,
    toLex (interface.name, interface.address.toText)))

def selectAdvertisedHosts (bound : SocketAddr)
    (addresses : List InterfaceIpv4) : List IpAddr :=
  if !bound.ip.isUnspecified then [bound.ip]
  else
    let hosts := addresses.filter (·.eligible)
    let hosts := sortByKey interfaceHostRank hosts
    let hosts := retainFirst (·.address) [] hosts
    let hosts := hosts.take maxAdvertisedHosts
    let hosts := hosts.map fun interface => IpAddr.v4 interface.address
    if hosts.isEmpty then [.v4 gadgetAddress] else hosts

private theorem separated_inj {left right rest others : List Char}
    (leftPlain : '.' ∉ left) (rightPlain : '.' ∉ right)
    (same : left ++ '.' :: rest = right ++ '.' :: others) :
    left = right ∧ rest = others := by
  induction left generalizing right with
  | nil =>
      cases right with
      | nil => exact ⟨rfl, (List.cons.inj same).2⟩
      | cons letter right =>
          rw [List.nil_append, List.cons_append, List.cons.injEq] at same
          exact absurd (same.1 ▸ List.mem_cons_self) rightPlain
  | cons letter left induction =>
      cases right with
      | nil =>
          rw [List.nil_append, List.cons_append, List.cons.injEq] at same
          exact absurd (same.1 ▸ List.mem_cons_self) leftPlain
      | cons other right =>
          rw [List.cons_append, List.cons_append, List.cons.injEq] at same
          obtain ⟨sameTail, sameRest⟩ := induction
            (fun member => leftPlain (List.mem_cons_of_mem _ member))
            (fun member => rightPlain (List.mem_cons_of_mem _ member)) same.2
          exact ⟨by rw [same.1, sameTail], sameRest⟩

namespace Ipv4Addr

theorem dot_not_mem_decimal (octet : UInt8) : '.' ∉ decimal octet := by
  intro member
  have digit := Nat.isDigit_of_mem_toDigits (by decide) (by decide) member
  exact absurd digit (by decide)

theorem decimal_injective {left right : UInt8}
    (same : decimal left = decimal right) : left = right := by
  apply UInt8.toNat.inj
  rw [← @Nat.ofDigitChars_ten_toDigits left.toNat,
    ← @Nat.ofDigitChars_ten_toDigits right.toNat]
  exact congrArg (Nat.ofDigitChars 10 · 0) same

theorem toText_injective {left right : Ipv4Addr}
    (same : left.toText = right.toText) : left = right := by
  have letters := String.ofList_injective same
  obtain ⟨sameA, letters⟩ := separated_inj (dot_not_mem_decimal _)
    (dot_not_mem_decimal _) letters
  obtain ⟨sameB, letters⟩ := separated_inj (dot_not_mem_decimal _)
    (dot_not_mem_decimal _) letters
  obtain ⟨sameC, sameD⟩ := separated_inj (dot_not_mem_decimal _)
    (dot_not_mem_decimal _) letters
  cases left
  cases right
  simp only [mk.injEq]
  exact ⟨decimal_injective sameA, decimal_injective sameB,
    decimal_injective sameC, decimal_injective sameD⟩

end Ipv4Addr

theorem eligible_apart {interfaces : List InterfaceIpv4} :
    ∀ left ∈ interfaces.filter (·.eligible),
      ∀ right ∈ interfaces.filter (·.eligible),
        interfaceHostRank left = interfaceHostRank right → left = right := by
  intro left isLeft right isRight same
  have names := congrArg (fun rank : HostRank =>
    (ofLex (ofLex (ofLex rank).2).2).1) same
  have texts := congrArg (fun rank : HostRank =>
    (ofLex (ofLex (ofLex rank).2).2).2) same
  have addresses := Ipv4Addr.toText_injective texts
  have leftUp := (List.mem_filter.mp isLeft).2
  have rightUp := (List.mem_filter.mp isRight).2
  simp only [InterfaceIpv4.eligible, Bool.and_eq_true] at leftUp rightUp
  obtain ⟨name, address, isUp⟩ := left
  obtain ⟨otherName, otherAddress, otherUp⟩ := right
  simp only [InterfaceIpv4.mk.injEq]
  refine ⟨names, addresses, ?_⟩
  exact leftUp.1.1.1.1.trans rightUp.1.1.1.1.symm

/-- The interface is eligible, and no eligible interface with its address has a
better rank. -/
structure BestRanked (interfaces : List InterfaceIpv4)
    (interface : InterfaceIpv4) : Prop where
  listed : interface ∈ interfaces
  eligible : interface.eligible = true
  best : ∀ other ∈ interfaces, other.eligible = true →
    other.address = interface.address →
      interfaceHostRank interface ≤ interfaceHostRank other

/-- The hosts are the addresses of eligible interfaces in the order of their
ranks, and none of a better rank is left out. -/
def Advertises (interfaces : List InterfaceIpv4) (hosts : List IpAddr) :
    Prop :=
  ∃ chosen : List InterfaceIpv4,
    hosts = chosen.map (fun interface => .v4 interface.address) ∧
    (∀ interface ∈ chosen, BestRanked interfaces interface) ∧
    Ordered interfaceHostRank chosen ∧
    ∀ other ∈ interfaces, other.eligible = true →
      .v4 other.address ∉ hosts → ∀ interface ∈ chosen,
        interfaceHostRank interface ≤ interfaceHostRank other

/-- The interfaces whose addresses a wildcard bind advertises. -/
def chosenInterfaces (interfaces : List InterfaceIpv4) : List InterfaceIpv4 :=
  (leastOfKinds interfaceHostRank (·.address)
    (interfaces.filter (·.eligible))).take maxAdvertisedHosts

theorem selectAdvertisedHosts_wildcard {bound : SocketAddr}
    (wildcard : bound.ip.isUnspecified = true)
    (interfaces : List InterfaceIpv4) :
    selectAdvertisedHosts bound interfaces =
      if chosenInterfaces interfaces = [] then [.v4 gadgetAddress]
      else (chosenInterfaces interfaces).map fun interface =>
        .v4 interface.address := by
  rw [selectAdvertisedHosts, wildcard]
  simp only [Bool.not_true, Bool.false_eq_true, if_false, List.isEmpty_iff,
    List.map_eq_nil_iff]
  rfl

theorem chosenInterfaces_nodup (interfaces : List InterfaceIpv4) :
    ((chosenInterfaces interfaces).map
      fun interface => IpAddr.v4 interface.address).Nodup := by
  have distinct : ((chosenInterfaces interfaces).map (·.address)).Nodup := by
    rw [chosenInterfaces, List.map_take]
    exact (retainFirst_nodup _ _).sublist (List.take_sublist _ _)
  have mapped := distinct.map fun _ _ => IpAddr.v4.inj
  rwa [List.map_map] at mapped

/-- Some interface is chosen where one is eligible. -/
theorem chosenInterfaces_eq_nil {interfaces : List InterfaceIpv4} :
    chosenInterfaces interfaces = [] ↔
      ∀ interface ∈ interfaces, interface.eligible = false := by
  rw [chosenInterfaces, List.take_eq_nil_iff]
  constructor
  · rintro (none | none)
    · cases none
    · intro interface member
      by_contra eligible
      obtain ⟨kept, isKept, _⟩ := exists_leastOfKinds interfaceHostRank
        (·.address) (List.mem_filter.mpr
          ⟨member, Bool.eq_true_of_not_eq_false eligible⟩)
      rw [none] at isKept
      cases isKept
  · intro none
    have empty : interfaces.filter (·.eligible) = [] := by
      rw [List.filter_eq_nil_iff]
      intro interface member eligible
      rw [none interface member] at eligible
      cases eligible
    rw [empty]
    exact .inr rfl

theorem chosenInterfaces_advertises (interfaces : List InterfaceIpv4) :
    Advertises interfaces ((chosenInterfaces interfaces).map
      fun interface => .v4 interface.address) := by
  have ordered := leastOfKinds_ordered interfaceHostRank
    (fun interface : InterfaceIpv4 => interface.address)
    (interfaces.filter (·.eligible))
  refine ⟨chosenInterfaces interfaces, rfl, ?_,
    ordered.sublist (List.take_sublist _ _), ?_⟩
  · intro interface member
    obtain ⟨isItem, least⟩ := (mem_leastOfKinds eligible_apart).mp
      (List.mem_of_mem_take member)
    obtain ⟨listed, eligible⟩ := List.mem_filter.mp isItem
    exact ⟨listed, eligible, fun other isOther otherEligible same =>
      least other (List.mem_filter.mpr ⟨isOther, otherEligible⟩) same⟩
  · intro other isOther eligible leftOut interface isChosen
    obtain ⟨kept, isKept, sameAddress, before⟩ :=
      exists_leastOfKinds interfaceHostRank (·.address)
        (List.mem_filter.mpr ⟨isOther, eligible⟩)
    -- the interface that stands for the address is beyond the cut
    have beyond : kept ∈ (leastOfKinds interfaceHostRank (·.address)
        (interfaces.filter (·.eligible))).drop maxAdvertisedHosts := by
      rw [← List.take_append_drop maxAdvertisedHosts
        (leastOfKinds _ _ _)] at isKept
      refine (List.mem_append.mp isKept).resolve_left fun early => leftOut ?_
      exact List.mem_map.mpr ⟨kept, early, congrArg _ sameAddress⟩
    rw [← List.take_append_drop maxAdvertisedHosts (leastOfKinds _ _ _)]
      at ordered
    have cut := (List.pairwise_append.mp ordered).2.2
    exact le_trans (cut interface isChosen kept beyond) before

/-- The advertised hosts are distinct and few, and depend on nothing but which
interfaces there are. -/
theorem selectAdvertisedHosts_canonical (bound : SocketAddr)
    (interfaces : List InterfaceIpv4) :
    selectAdvertisedHosts bound interfaces ≠ [] ∧
      (selectAdvertisedHosts bound interfaces).length ≤ maxAdvertisedHosts ∧
      (selectAdvertisedHosts bound interfaces).Nodup ∧
      (bound.ip.isUnspecified = false →
        selectAdvertisedHosts bound interfaces = [bound.ip]) ∧
      (bound.ip.isUnspecified = true →
        (∀ interface ∈ interfaces, interface.eligible = false) →
        selectAdvertisedHosts bound interfaces = [.v4 gadgetAddress]) ∧
      (bound.ip.isUnspecified = true →
        (∃ interface ∈ interfaces, interface.eligible = true) →
        Advertises interfaces (selectAdvertisedHosts bound interfaces)) ∧
      ∀ others : List InterfaceIpv4,
        (∀ interface, interface ∈ others ↔ interface ∈ interfaces) →
        selectAdvertisedHosts bound others =
          selectAdvertisedHosts bound interfaces := by
  cases wildcard : bound.ip.isUnspecified with
  | false =>
      have explicit (listed : List InterfaceIpv4) :
          selectAdvertisedHosts bound listed = [bound.ip] := by
        rw [selectAdvertisedHosts, wildcard]
        rfl
      simp [explicit, maxAdvertisedHosts]
  | true =>
      have advertised := selectAdvertisedHosts_wildcard wildcard
      have few : (chosenInterfaces interfaces).length ≤ maxAdvertisedHosts :=
        List.length_take_le _ _
      rw [advertised interfaces]
      refine ⟨?_, ?_, ?_, by simp, ?_, ?_, ?_⟩
      · split
        · exact List.cons_ne_nil _ _
        · rename_i some_
          exact fun none => some_ (List.map_eq_nil_iff.mp none)
      · split
        · decide
        · rwa [List.length_map]
      · split
        · exact List.nodup_singleton _
        · exact chosenInterfaces_nodup interfaces
      · intro _ none
        rw [if_pos (chosenInterfaces_eq_nil.mpr none)]
      · rintro _ ⟨interface, member, eligible⟩
        have some_ : chosenInterfaces interfaces ≠ [] := by
          intro none
          rw [chosenInterfaces_eq_nil.mp none interface member] at eligible
          cases eligible
        rw [if_neg some_]
        exact chosenInterfaces_advertises interfaces
      · intro others same
        have sameChosen : chosenInterfaces others =
            chosenInterfaces interfaces := by
          apply congrArg (List.take maxAdvertisedHosts)
          apply leastOfKinds_congr eligible_apart
          simp [same]
        rw [advertised others, sameChosen]

end RmDisplay.Receiver
