import NeuralMesh.Proof.StunAnswers

/-!
# The endpoint in a well-formed answer

A Binding Success Response with any attributes. The parser answers with the first attribute of an
address type, so the XOR-MAPPED-ADDRESS counts only where nothing of the kind stands before it or the
attribute before it carries the same endpoint, and an address of the other family is read as if it
were one of IPv4.
-/

namespace NeuralMesh.Wireguard

open Attributes

abbrev StunAttribute := Attribute 4

structure BindingSuccess where
  transactionId : Fin 12 → UInt8
  attributes : List StunAttribute
  fits : (encodeAll attributes).length < 65536

namespace BindingSuccess

def header (message : BindingSuccess) : Bytes :=
  [0x01, 0x01] ++ bytes16 (UInt16.ofNat (encodeAll message.attributes).length) ++ magicCookie ++
    List.ofFn message.transactionId

def encode (message : BindingSuccess) : Bytes := message.header ++ encodeAll message.attributes

theorem length_header (message : BindingSuccess) : message.header.length = 20 := by
  rw [header, List.length_append, List.length_ofFn]
  rfl

end BindingSuccess

/-! ### Addresses -/

def bytes32 (n : UInt32) : Bytes :=
  [UInt8.ofNat (n.toNat / 16777216), UInt8.ofNat (n.toNat / 65536), UInt8.ofNat (n.toNat / 256),
    UInt8.ofNat n.toNat]

/-- The port and the address as an attribute of this type carries them. -/
def SocketAddr.carried (type : UInt16) (addr : SocketAddr) : Bytes :=
  if type = 0x0020 then bytes16 (addr.port ^^^ 0x2112) ++ bytes32 (addr.ip ^^^ 0x2112A442)
  else bytes16 addr.port ++ bytes32 addr.ip

namespace StunAttribute

/-- An XOR-MAPPED-ADDRESS of family IPv4, with this endpoint. -/
def IsXorMappedIpv4 (a : StunAttribute) (addr : SocketAddr) : Prop :=
  a.type = 0x0020 ∧ ∃ reserved, a.value = [reserved, 0x01] ++ addr.carried 0x0020

def IsAddress (a : StunAttribute) : Prop := a.type = 0x0020 ∨ a.type = 0x0001

/-- An address of family IPv6, which has sixteen bytes. -/
def IsIpv6 (a : StunAttribute) : Prop :=
  a.IsAddress ∧ a.value.length = 20 ∧ a.value[1]? = some 0x02

/-- The parser stops at this attribute. -/
abbrev Stops (a : StunAttribute) : Prop := IsMapped a.type a.value.length

end StunAttribute

open StunAttribute

theorem be32_eq_iff {a b c d : UInt8} {n : UInt32} : be32 a b c d = n ↔ [a, b, c, d] = bytes32 n := by
  have ha := a.toNat_lt
  have hb := b.toNat_lt
  have hc := c.toNat_lt
  have hd := d.toNat_lt
  have hn : n.toNat < 4294967296 := n.toNat_lt
  simp only [bytes32, be32, ← UInt32.toNat_inj, ← UInt8.toNat_inj, List.cons.injEq, and_true,
    UInt32.toNat_ofNat', UInt8.toNat_ofNat']
  omega

theorem be16_eq_iff {a b : UInt8} {n : UInt16} : be16 a b = n ↔ [a, b] = bytes16 n := by
  have ha := a.toNat_lt
  have hb := b.toNat_lt
  have hn : n.toNat < 65536 := n.toNat_lt
  simp only [bytes16, be16, ← UInt16.toNat_inj, ← UInt8.toNat_inj, List.cons.injEq, and_true,
    UInt16.toNat_ofNat', UInt8.toNat_ofNat']
  omega

theorem xor_eq_iff32 {a b c : UInt32} : a ^^^ c = b ↔ a = b ^^^ c := by
  constructor
  · rintro rfl
    rw [UInt32.xor_assoc, UInt32.xor_self, UInt32.xor_zero]
  · rintro rfl
    rw [UInt32.xor_assoc, UInt32.xor_self, UInt32.xor_zero]

theorem xor_eq_iff16 {a b c : UInt16} : a ^^^ c = b ↔ a = b ^^^ c := by
  constructor
  · rintro rfl
    rw [UInt16.xor_assoc, UInt16.xor_self, UInt16.xor_zero]
  · rintro rfl
    rw [UInt16.xor_assoc, UInt16.xor_self, UInt16.xor_zero]

/-- Six bytes are a port and an address. -/
theorem six_bytes_eq_iff {p q a b c d : UInt8} {port : UInt16} {ip : UInt32} :
    [p, q] ++ [a, b, c, d] = bytes16 port ++ bytes32 ip ↔ be32 a b c d = ip ∧ be16 p q = port := by
  rw [be32_eq_iff, be16_eq_iff]
  constructor
  · intro heq
    obtain ⟨hport, hip⟩ := List.append_inj heq rfl
    exact ⟨hip, hport⟩
  · rintro ⟨hip, hport⟩
    rw [hip, hport]

/-! ### The attribute that decides -/

/-- An endpoint that is read is the one that the bytes carry. -/
theorem readAddress_eq_ok (front rest : Bytes) {a : StunAttribute} (hstops : a.Stops)
    (addr : SocketAddr) :
    readAddress a.type (front ++ (a.encode ++ rest)) (front.length + 4) = .ok addr ↔
      (a.value.drop 2).take 6 = addr.carried a.type := by
  have hlong : 8 ≤ a.value.length := hstops.2
  have hindex : ∀ (k : Nat) (hk : k < 8), index (front ++ (a.encode ++ rest)) (front.length + 4 + k) =
      .ok a.value[k] := by
    intro k hk
    rw [index, a.getElem?_value rest front k (by omega), List.getElem?_eq_getElem (by omega)]
    rfl
  have hdrop : ∀ (k : Nat) (hk : k < 8),
      a.value.drop k = a.value[k] :: a.value.drop (k + 1) :=
    fun k hk => List.drop_eq_getElem_cons (by omega)
  have hbytes : (a.value.drop 2).take 6 = [a.value[2], a.value[3]] ++
      [a.value[4], a.value[5], a.value[6], a.value[7]] := by
    rw [hdrop 2 (by omega), hdrop 3 (by omega), hdrop 4 (by omega), hdrop 5 (by omega),
      hdrop 6 (by omega), hdrop 7 (by omega)]
    rfl
  obtain ⟨ip, port⟩ := addr
  rw [hbytes, readAddress, SocketAddr.carried]
  split
  · rw [xorMappedAddress, hindex 2 (by omega), hindex 3 (by omega), hindex 4 (by omega),
      hindex 5 (by omega), hindex 6 (by omega), hindex 7 (by omega)]
    rw [six_bytes_eq_iff, ← xor_eq_iff32, ← xor_eq_iff16, ← SocketAddr.mk.injEq]
    exact ⟨fun h => Except.ok.inj h, fun h => congrArg Except.ok h⟩
  · rw [mappedAddress, hindex 2 (by omega), hindex 3 (by omega), hindex 4 (by omega),
      hindex 5 (by omega), hindex 6 (by omega), hindex 7 (by omega)]
    rw [six_bytes_eq_iff, ← SocketAddr.mk.injEq]
    exact ⟨fun h => Except.ok.inj h, fun h => congrArg Except.ok h⟩

theorem parseStunResponse_of_stops {message : BindingSuccess} {before after : List StunAttribute}
    {a : StunAttribute} (hattributes : message.attributes = before ++ a :: after)
    (hbefore : ∀ b ∈ before, ¬ b.Stops) (hstops : a.Stops) (addr : SocketAddr) :
    parseStunResponse message.encode = .ok addr ↔
      (a.value.drop 2).take 6 = addr.carried a.type := by
  have hencode : message.encode =
      message.header ++ encodeAll before ++ (a.encode ++ encodeAll after) := by
    rw [BindingSuccess.encode, hattributes, encodeAll, List.flatMap_append, List.flatMap_cons,
      List.append_assoc]
    rfl
  have hwalks := @reached_encodeAll 4 IsMapped message.header (a.encode ++ encodeAll after)
    before hbefore
  rw [← List.append_assoc, ← hencode, message.length_header] at hwalks
  have hread := a.header_encode (encodeAll after) (message.header ++ encodeAll before)
  rw [← hencode] at hread
  rw [parseStunResponse_of_mapped hwalks hread hstops, hencode]
  exact readAddress_eq_ok _ _ hstops addr

theorem parseStunResponse_of_no_stop {message : BindingSuccess}
    (hnone : ∀ a ∈ message.attributes, ¬ a.Stops) (addr : SocketAddr) :
    parseStunResponse message.encode ≠ .ok addr := by
  have hwalks := @reached_encodeAll 4 IsMapped message.header [] message.attributes hnone
  rw [List.append_nil, message.length_header, ← BindingSuccess.encode] at hwalks
  have hend : Attributes.header message.encode message.encode.length = none :=
    header_eq_none.mpr (by omega)
  intro hparse
  rw [parseStunResponse] at hparse
  split at hparse
  · cases hparse
  · rw [parseAttributes_of_walks hwalks, parseAttributes_of_none hend] at hparse
    cases hparse

/-! ### The endpoint of the client -/

/-- The message has one XOR-MAPPED-ADDRESS of family IPv4, and this is its endpoint. -/
def BindingSuccess.HasOne (message : BindingSuccess) (addr : SocketAddr) : Prop :=
  ∃ before a after, message.attributes = before ++ a :: after ∧ a.IsXorMappedIpv4 addr ∧
    ∀ b ∈ before ++ after, ∀ other, ¬ b.IsXorMappedIpv4 other

def BindingSuccess.OnlyIpv6 (message : BindingSuccess) : Prop :=
  ∀ a ∈ message.attributes, a.IsAddress → a.IsIpv6

/-- The answer is decoded as it is meant. -/
def BindingSuccess.DecodedWell (message : BindingSuccess) : Prop :=
  (∀ addr, message.HasOne addr → parseStunResponse message.encode = .ok addr) ∧
    (message.OnlyIpv6 → ∀ addr, parseStunResponse message.encode ≠ .ok addr)

/-- The first attribute at which the parser stops carries the endpoint of the one XOR-MAPPED-ADDRESS,
and an address of IPv6 is not the only kind of address there is. -/
structure BindingSuccess.Plain (message : BindingSuccess) : Prop where
  first : ∀ addr, message.HasOne addr → ∀ before a after,
    message.attributes = before ++ a :: after → (∀ b ∈ before, ¬ b.Stops) → a.Stops →
    (a.value.drop 2).take 6 = addr.carried a.type
  ipv6 : message.OnlyIpv6 → ∀ a ∈ message.attributes, ¬ a.IsAddress

theorem StunAttribute.IsXorMappedIpv4.stops {a : StunAttribute} {addr : SocketAddr}
    (h : a.IsXorMappedIpv4 addr) : a.Stops := by
  obtain ⟨htype, reserved, hvalue⟩ := h
  refine ⟨.inl htype, ?_⟩
  rw [hvalue]
  exact Nat.le_refl 8

theorem BindingSuccess.HasOne.exists_stops {message : BindingSuccess} {addr : SocketAddr}
    (h : message.HasOne addr) : ∃ a ∈ message.attributes, a.Stops := by
  obtain ⟨before, a, after, hattributes, ha, _⟩ := h
  refine ⟨a, ?_, ha.stops⟩
  rw [hattributes]
  exact List.mem_append_right _ List.mem_cons_self

theorem exists_first {attributes : List StunAttribute} (hsome : ∃ a ∈ attributes, a.Stops) :
    ∃ before a after, attributes = before ++ a :: after ∧ (∀ b ∈ before, ¬ b.Stops) ∧ a.Stops := by
  obtain ⟨a, hmem, hstops⟩ := hsome
  have hfind : (attributes.find? fun b => decide b.Stops).isSome :=
    List.find?_isSome.mpr ⟨a, hmem, decide_eq_true hstops⟩
  obtain ⟨first, hfirst⟩ := Option.isSome_iff_exists.mp hfind
  obtain ⟨hstops, before, after, hattributes, hbefore⟩ := List.find?_eq_some_iff_append.mp hfirst
  exact ⟨before, first, after, hattributes, fun b hb => by simpa using hbefore b hb,
    of_decide_eq_true hstops⟩

/-- Whatever stands in the six bytes, it is taken for an endpoint. -/
theorem exists_carried {a : StunAttribute} (hstops : a.Stops) :
    ∃ addr : SocketAddr, (a.value.drop 2).take 6 = addr.carried a.type := by
  have hlength := a.length_encode
  have hlong := hstops.2
  have hpadded := a.padded
  obtain ⟨addr, hok⟩ := @readAddress_of_le ([] ++ (a.encode ++ [])) 4 a.type
    (by rw [List.nil_append, List.append_nil]; omega)
  exact ⟨addr, (readAddress_eq_ok [] [] hstops addr).mp hok⟩

theorem decodedWell_iff (message : BindingSuccess) : message.DecodedWell ↔ message.Plain := by
  constructor
  · rintro ⟨hone, hipv6⟩
    constructor
    · intro addr hhas before a after hattributes hbefore hstops
      exact (parseStunResponse_of_stops hattributes hbefore hstops addr).mp (hone addr hhas)
    · intro honly a hmem haddress
      have hstops : a.Stops := ⟨haddress, by rw [(honly a hmem haddress).2.1]; omega⟩
      obtain ⟨before, first, after, hattributes, hbefore, hfirst⟩ := exists_first ⟨a, hmem, hstops⟩
      obtain ⟨addr, hcarried⟩ := exists_carried hfirst
      exact hipv6 honly addr
        ((parseStunResponse_of_stops hattributes hbefore hfirst addr).mpr hcarried)
  · intro hplain
    refine ⟨fun addr hhas => ?_, fun honly addr => ?_⟩
    · obtain ⟨before, first, after, hsplit, hbefore, hfirst⟩ := exists_first hhas.exists_stops
      rw [parseStunResponse_of_stops hsplit hbefore hfirst]
      exact hplain.first addr hhas before first after hsplit hbefore hfirst
    · refine parseStunResponse_of_no_stop (fun a hmem hstops => ?_) addr
      exact hplain.ipv6 honly a hmem hstops.1

/-! ### Two answers that are taken for something else -/

/-- An address attribute, of which nothing has to be filled up. -/
def addressAttribute (type : UInt16) (family : UInt8) (address : Bytes)
    (hlength : address.length = 6 ∨ address.length = 18 := by decide) : StunAttribute where
  type
  value := [0x00, family] ++ address
  padding := []
  fits := by rcases hlength with h | h <;> simp [h]
  padded := by rcases hlength with h | h <;> simp [h, roundUp]

def homeAddress : SocketAddr where
  ip := 0xC0A80002
  port := 51820

def publicAddress : SocketAddr where
  ip := 0xCB007107
  port := 40000

/-- A MAPPED-ADDRESS that a gateway has rewritten, and the XOR-MAPPED-ADDRESS after it. -/
def rewritten : BindingSuccess where
  transactionId := fun _ => 0
  attributes := [addressAttribute 0x0001 0x01 (homeAddress.carried 0x0001),
    addressAttribute 0x0020 0x01 (publicAddress.carried 0x0020)]
  fits := by decide

/-- `2001:db8::1`, under the type that is not XORed. -/
def overIpv6 : BindingSuccess where
  transactionId := fun _ => 0
  attributes := [addressAttribute 0x0001 0x02
    [0x9C, 0x40, 0x20, 0x01, 0x0D, 0xB8, 0, 0, 0, 0, 0, 0, 0, 0, 0, 0, 0, 1]]
  fits := by decide

theorem rewritten_overIpv6_decoded :
    rewritten.encode.length ≤ 512 ∧ rewritten.HasOne publicAddress ∧
      parseStunResponse rewritten.encode = .ok homeAddress ∧ ¬ rewritten.DecodedWell ∧
      overIpv6.encode.length ≤ 512 ∧ overIpv6.OnlyIpv6 ∧
      parseStunResponse overIpv6.encode = .ok { ip := 0x20010DB8, port := 40000 } ∧
      ¬ overIpv6.DecodedWell := by
  have hhas : rewritten.HasOne publicAddress := by
    refine ⟨_ :: [], _, [], rfl, ⟨rfl, 0x00, rfl⟩, fun b hb other hother => ?_⟩
    rw [List.append_nil, List.mem_singleton] at hb
    subst hb
    exact absurd hother.1 (by decide)
  have hrewritten : parseStunResponse rewritten.encode = .ok homeAddress :=
    (@parseStunResponse_of_stops _ [] _ _ rfl (List.forall_mem_nil _) (by decide) _).mpr rfl
  have honly : overIpv6.OnlyIpv6 := by
    intro a hmem haddress
    obtain rfl := List.mem_singleton.mp hmem
    exact ⟨haddress, rfl, rfl⟩
  have hoverIpv6 : parseStunResponse overIpv6.encode = .ok { ip := 0x20010DB8, port := 40000 } :=
    (@parseStunResponse_of_stops _ [] _ _ rfl (List.forall_mem_nil _) (by decide) _).mpr rfl
  refine ⟨by decide, hhas, hrewritten, fun hwell => ?_, by decide, honly, hoverIpv6, fun hwell => ?_⟩
  · have hpublic := hwell.1 _ hhas
    rw [hrewritten] at hpublic
    exact absurd (Except.ok.inj hpublic) (by decide)
  · exact hwell.2 honly _ hoverIpv6

end NeuralMesh.Wireguard
