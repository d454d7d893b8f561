import NeuralMesh.Wireguard.Nat

/-!
# What a datagram is taken for

The parser walks the attributes of a datagram by the lengths it reads, to the first one of an address
type that declares eight bytes or more. Whatever stands there decides: its bytes are the endpoint,
whatever family they belong to and whichever type comes later, and where fewer than eight bytes are
left the parser panics. The header in front of the attributes is not looked at, so any datagram whose
walk ends at a complete attribute is believed.
-/

namespace NeuralMesh.Wireguard

open Attributes

/-- The attributes that end the loop. -/
def IsMapped (type : UInt16) (length : Nat) : Prop := (type = 0x0020 ∨ type = 0x0001) ∧ 8 ≤ length

instance (type : UInt16) (length : Nat) : Decidable (IsMapped type length) :=
  inferInstanceAs (Decidable (_ ∧ _))

/-- The loop comes to a header at this position. -/
abbrev Walks (buf : Bytes) (pos : Nat) : Prop := Reached 4 IsMapped buf 20 pos

/-- The endpoint in an attribute of an address type. -/
def readAddress (type : UInt16) (buf : Bytes) (pos : Nat) : Except StunError SocketAddr :=
  if type = 0x0020 then xorMappedAddress buf pos else mappedAddress buf pos

variable {buf : Bytes} {pos length : Nat} {type : UInt16}

/-! ### One turn of the loop -/

theorem index_of_lt {i : Nat} (hi : i < buf.length) : index buf i = .ok buf[i] := by
  rw [index, List.getElem?_eq_getElem hi]
  rfl

theorem index_of_le {i : Nat} (hi : buf.length ≤ i) : index buf i = .error .panic := by
  rw [index, List.getElem?_eq_none hi]
  rfl

theorem parseAttributes_of_none (hread : header buf pos = none) : parseAttributes buf pos =
    .error (.bail "No mapped address found in STUN response") := by
  have hpos := header_eq_none.mp hread
  rw [parseAttributes, if_neg (by omega)]

theorem parseAttributes_of_some (hread : header buf pos = some (type, length)) :
    parseAttributes buf pos =
      if IsMapped type length then readAddress type buf (pos + 4)
      else parseAttributes buf (pos + 4 + roundUp 4 length) := by
  have hpos := le_of_header hread
  rw [header_of_le hpos, Option.some.injEq, Prod.mk.injEq] at hread
  obtain ⟨rfl, rfl⟩ := hread
  rw [parseAttributes, if_pos hpos, index_of_lt (by omega), index_of_lt (by omega),
    index_of_lt (by omega), index_of_lt (by omega)]
  simp only [ok_bind, IsMapped, readAddress]
  generalize be16 buf[pos] buf[pos + 1] = type
  generalize (be16 buf[pos + 2] buf[pos + 3]).toNat = length
  by_cases hxor : type = 0x0020
  · by_cases hlength : 8 ≤ length
    · simp [hxor, hlength]
    · simp [hlength]
  · by_cases hmapped : type = 0x0001
    · by_cases hlength : 8 ≤ length
      · simp [hmapped, hlength]
      · simp [hlength]
    · simp [hxor, hmapped]

/-- The eight bytes are read from the second on, the last of them last. -/
theorem readAddress_of_le (hpos : pos + 8 ≤ buf.length) :
    ∃ addr, readAddress type buf pos = .ok addr := by
  rw [readAddress]
  split
  · rw [xorMappedAddress, index_of_lt (by omega), index_of_lt (by omega), index_of_lt (by omega),
      index_of_lt (by omega), index_of_lt (by omega), index_of_lt (by omega)]
    exact ⟨_, rfl⟩
  · rw [mappedAddress, index_of_lt (by omega), index_of_lt (by omega), index_of_lt (by omega),
      index_of_lt (by omega), index_of_lt (by omega), index_of_lt (by omega)]
    exact ⟨_, rfl⟩

theorem index_cases (i : Nat) :
    (∃ b, index buf i = .ok b) ∨ index buf i = .error .panic := by
  by_cases hi : i < buf.length
  · exact .inl ⟨_, index_of_lt hi⟩
  · exact .inr (index_of_le (by omega))

/-- A sequence of reads panics if one of them does. -/
theorem index_bind_of_panic {α : Type} {i : Nat} {next : UInt8 → Except StunError α}
    (hnext : ∀ b, next b = .error .panic) : index buf i >>= next = .error .panic := by
  rcases @index_cases buf i with ⟨b, hb⟩ | hpanic
  · rw [hb, ok_bind, hnext]
  · rw [hpanic]
    rfl

theorem readAddress_of_lt (hpos : buf.length < pos + 8) :
    readAddress type buf pos = .error .panic := by
  have hlast : index buf (pos + 7) = .error .panic := index_of_le (by omega)
  rw [readAddress]
  split
  · rw [xorMappedAddress]
    iterate 5 refine index_bind_of_panic fun _ => ?_
    rw [hlast]
    rfl
  · rw [mappedAddress]
    iterate 5 refine index_bind_of_panic fun _ => ?_
    rw [hlast]
    rfl

/-! ### The walk -/

/-- What the loop answers is decided at any header it comes to. -/
theorem parseAttributes_of_walks (hwalks : Walks buf pos) :
    parseAttributes buf 20 = parseAttributes buf pos := by
  induction hwalks with
  | start => rfl
  | next _ hread hgoesOn ih => rw [ih, parseAttributes_of_some hread, if_neg hgoesOn]

/-- The walk ends where no header is left, or at an attribute of an address type. -/
theorem parseStunResponse_cases (buf : Bytes) :
    (∃ message, parseStunResponse buf = .error (.bail message)) ∨
      ∃ pos type length, Walks buf pos ∧ header buf pos = some (type, length) ∧
        IsMapped type length ∧ parseStunResponse buf = readAddress type buf (pos + 4) := by
  rw [parseStunResponse]
  split
  · exact .inl ⟨_, rfl⟩
  · obtain ⟨last, hwalks, hnone | ⟨type, length, hread, hmapped⟩⟩ :=
      exists_last (.start : Walks buf 20)
    · rw [parseAttributes_of_walks hwalks, parseAttributes_of_none hnone]
      exact .inl ⟨_, rfl⟩
    · rw [parseAttributes_of_walks hwalks, parseAttributes_of_some hread, if_pos hmapped]
      exact .inr ⟨last, type, length, hwalks, hread, hmapped, rfl⟩

theorem start_le_of_walks (hwalks : Walks buf pos) : 20 ≤ pos := by
  induction hwalks with
  | start => exact le_rfl
  | next _ _ _ ih => omega

theorem parseStunResponse_of_mapped (hwalks : Walks buf pos)
    (hread : header buf pos = some (type, length)) (hmapped : IsMapped type length) :
    parseStunResponse buf = readAddress type buf (pos + 4) := by
  have hstart := start_le_of_walks hwalks
  have hpos := le_of_header hread
  rw [parseStunResponse, if_neg (by omega), parseAttributes_of_walks hwalks,
    parseAttributes_of_some hread, if_pos hmapped]

/-! ### Truncated datagrams -/

/-- The parser ends without a panic. -/
def Survives (buf : Bytes) : Prop :=
  (∃ addr, parseStunResponse buf = .ok addr) ∨ ∃ message, parseStunResponse buf = .error (.bail message)

/-- A declared length is believed: the eight bytes that are read have to be there. -/
theorem survives_iff (buf : Bytes) : Survives buf ↔
    ∀ pos type length, Walks buf pos → header buf pos = some (type, length) →
      IsMapped type length → pos + 12 ≤ buf.length := by
  constructor
  · intro hsurvives pos type length hwalks hread hmapped
    by_contra hshort
    have hpanic : parseStunResponse buf = .error .panic :=
      (parseStunResponse_of_mapped hwalks hread hmapped).trans (readAddress_of_lt (by omega))
    rcases hsurvives with ⟨addr, hok⟩ | ⟨message, hbail⟩
    · rw [hpanic] at hok
      cases hok
    · rw [hpanic] at hbail
      cases hbail
  · intro hcomplete
    rcases parseStunResponse_cases buf with hbail | ⟨pos, type, length, hwalks, hread, hmapped, hparse⟩
    · exact .inr hbail
    · have hle := hcomplete pos type length hwalks hread hmapped
      obtain ⟨addr, hok⟩ := @readAddress_of_le buf (pos + 4) type (by omega)
      exact .inl ⟨addr, hparse.trans hok⟩

/-- A header of zeros, and an attribute that ends after its declared length. -/
def cutOff : Bytes := List.replicate 20 0 ++ [0x00, 0x20, 0x00, 0x08]

theorem parseStunResponse_cutOff :
    cutOff.length ≤ 512 ∧ parseStunResponse cutOff = .error .panic ∧ ¬ Survives cutOff := by
  have hread : header cutOff 20 = some (0x0020, 8) := by decide
  have hmapped : IsMapped 0x0020 8 := by decide
  refine ⟨by decide, ?_, fun hsurvives => ?_⟩
  · rw [parseStunResponse_of_mapped .start hread hmapped]
    exact readAddress_of_lt (by decide)
  · rcases hsurvives with ⟨addr, hok⟩ | ⟨message, hbail⟩
    · rw [parseStunResponse_of_mapped .start hread hmapped, readAddress_of_lt (by decide)] at hok
      cases hok
    · rw [parseStunResponse_of_mapped .start hread hmapped, readAddress_of_lt (by decide)] at hbail
      cases hbail

/-! ### Whose answer it is -/

/-- A Binding Success Response with the magic cookie and the transaction of the request. -/
def IsAnswer (request datagram : Bytes) : Prop :=
  datagram.take 2 = [0x01, 0x01] ∧ (datagram.drop 4).take 4 = magicCookie ∧
    (datagram.drop 8).take 12 = request.drop 8

instance (request datagram : Bytes) : Decidable (IsAnswer request datagram) :=
  inferInstanceAs (Decidable (_ ∧ _))

/-- The attempt gets as far as to read this datagram. -/
def Attempt.Reads (attempt : Attempt) (datagram : Bytes) : Prop :=
  attempt.toSocketAddrs = .ok true ∧ attempt.sendTo attempt.request = .ok () ∧
    attempt.datagram = .ok datagram

variable {server : String} {attempt : Attempt} {addr : SocketAddr} {datagram : Bytes}

theorem tryStun_eq_ok : tryStun server attempt = .ok addr ↔
    ∃ datagram, attempt.Reads datagram ∧ parseStunResponse (datagram.take 512) = .ok addr := by
  simp only [tryStun, Attempt.recvFrom, Attempt.Reads, bind_eq_ok, mapError_eq_ok, ensure_eq_ok]
  constructor
  · rintro ⟨_, hresolved, _, rfl, _, hsent, buf, hrecv, hparse⟩
    cases hdatagram : attempt.datagram with
    | error e =>
        rw [hdatagram] at hrecv
        cases hrecv
    | ok datagram =>
        rw [hdatagram] at hrecv
        cases hrecv
        exact ⟨datagram, ⟨hresolved, hsent, rfl⟩, hparse⟩
  · rintro ⟨datagram, ⟨hresolved, hsent, hdatagram⟩, hparse⟩
    exact ⟨true, hresolved, (), rfl, (), hsent, datagram.take 512, by rw [hdatagram]; rfl, hparse⟩

/-- No attribute of an address type is there to the end of its address. -/
def HoldsNoAddress (buf : Bytes) : Prop :=
  ∀ pos type length, Walks buf pos → header buf pos = some (type, length) →
    IsMapped type length → buf.length < pos + 12

theorem parseStunResponse_eq_ok {buf : Bytes} (hparse : parseStunResponse buf = .ok addr) :
    ∃ pos type length, Walks buf pos ∧ header buf pos = some (type, length) ∧
      IsMapped type length ∧ pos + 12 ≤ buf.length := by
  rcases parseStunResponse_cases buf with ⟨_, hbail⟩ | ⟨pos, type, length, hwalks, hread, hmapped, heq⟩
  · rw [hbail] at hparse
    cases hparse
  · refine ⟨pos, type, length, hwalks, hread, hmapped, ?_⟩
    by_contra hshort
    rw [heq, readAddress_of_lt (by omega)] at hparse
    cases hparse

theorem parseStunResponse_ne_ok {buf : Bytes} :
    (∀ addr, parseStunResponse buf ≠ .ok addr) ↔ HoldsNoAddress buf := by
  constructor
  · intro hne pos type length hwalks hread hmapped
    by_contra hlong
    obtain ⟨addr, hok⟩ := @readAddress_of_le buf (pos + 4) type (by omega)
    exact hne addr ((parseStunResponse_of_mapped hwalks hread hmapped).trans hok)
  · intro hnone addr hparse
    obtain ⟨pos, type, length, hwalks, hread, hmapped, hle⟩ := parseStunResponse_eq_ok hparse
    have := hnone pos type length hwalks hread hmapped
    omega

/-- An attempt is safe from a datagram that answers its request, and from one without an address. -/
theorem tryStun_believes_iff (server : String) (attempt : Attempt) :
    (∀ addr, tryStun server attempt = .ok addr →
      ∃ datagram, attempt.Reads datagram ∧ IsAnswer attempt.request datagram) ↔
    ∀ datagram, attempt.Reads datagram →
      IsAnswer attempt.request datagram ∨ HoldsNoAddress (datagram.take 512) := by
  constructor
  · intro hbelieves datagram hreads
    by_cases hanswer : IsAnswer attempt.request datagram
    · exact .inl hanswer
    · refine .inr (parseStunResponse_ne_ok.mp fun addr hparse => ?_)
      obtain ⟨other, hother, hanswer'⟩ := hbelieves addr (tryStun_eq_ok.mpr ⟨datagram, hreads, hparse⟩)
      have hsame : other = datagram := Except.ok.inj (hother.2.2.symm.trans hreads.2.2)
      exact hanswer (hsame ▸ hanswer')
  · intro hsafe addr hok
    obtain ⟨datagram, hreads, hparse⟩ := tryStun_eq_ok.mp hok
    rcases hsafe datagram hreads with hanswer | hnone
    · exact ⟨datagram, hreads, hanswer⟩
    · exact absurd hparse (parseStunResponse_ne_ok.mpr hnone addr)

/-- An answer to the request of the attempt before, which arrives late. -/
def lateAnswer : Bytes :=
  [0x01, 0x01, 0x00, 0x0C] ++ magicCookie ++ List.replicate 12 1 ++
    [0x00, 0x20, 0x00, 0x08, 0x00, 0x01, 0x21, 0x13, 0xA1, 0x12, 0xA4, 0x43]

def timedOut : Attempt where
  toSocketAddrs := .ok true
  random := fun _ => 1
  sendTo := fun _ => .ok ()
  datagram := .error "Resource temporarily unavailable (os error 35)"

def afterTimeout : Attempt :=
  { timedOut with random := fun _ => 2, datagram := .ok lateAnswer }

theorem tryStun_afterTimeout :
    IsAnswer timedOut.request lateAnswer ∧ ¬ IsAnswer afterTimeout.request lateAnswer ∧
      afterTimeout.Reads lateAnswer ∧
      tryStun "stun1.l.google.com:19302" afterTimeout = .ok { ip := 0x80000001, port := 1 } := by
  have hreads : afterTimeout.Reads lateAnswer := ⟨rfl, rfl, rfl⟩
  have hread : header (lateAnswer.take 512) 20 = some (0x0020, 8) := by decide
  refine ⟨by decide, by decide, hreads, tryStun_eq_ok.mpr ⟨lateAnswer, hreads, ?_⟩⟩
  rw [parseStunResponse_of_mapped .start hread (by decide)]
  rfl

/-- The endpoint that is published was believed in one of the attempts. -/
theorem tryServers_eq_ok {servers : List (String × Attempt)} {text : String}
    (hok : tryServers servers = .ok text) :
    ∃ tried ∈ servers, ∃ addr, tryStun tried.1 tried.2 = .ok addr ∧ text = addr.display := by
  induction servers with
  | nil => cases hok
  | cons tried rest ih =>
      rw [tryServers] at hok
      split at hok
      · rename_i addr htry
        exact ⟨tried, List.mem_cons_self, addr, htry, (Except.ok.inj hok).symm⟩
      · cases hok
      · obtain ⟨other, hmem, hother⟩ := ih hok
        exact ⟨other, List.mem_cons_of_mem _ hmem, hother⟩

/-- Where no attempt reads anything but an answer of its own or a datagram without an address, the
endpoint that is published stands in such an answer. -/
theorem discoverPublicEndpoint_eq_ok {bound : Except String Unit} {attempts : String → Attempt}
    {text : String} (hsafe : ∀ server, ∀ datagram, (attempts server).Reads datagram →
      IsAnswer (attempts server).request datagram ∨ HoldsNoAddress (datagram.take 512))
    (hok : discoverPublicEndpoint bound attempts = .ok text) :
    ∃ server ∈ stunServers, ∃ datagram addr, (attempts server).Reads datagram ∧
      IsAnswer (attempts server).request datagram ∧
      parseStunResponse (datagram.take 512) = .ok addr ∧ text = addr.display := by
  obtain ⟨_, _, hservers⟩ := bind_eq_ok.mp hok
  obtain ⟨tried, hmem, addr, htry, htext⟩ := tryServers_eq_ok hservers
  obtain ⟨server, hserver, rfl⟩ := List.mem_map.mp hmem
  obtain ⟨datagram, hreads, hparse⟩ := tryStun_eq_ok.mp htry
  rcases hsafe server datagram hreads with hanswer | hnone
  · exact ⟨server, hserver, datagram, addr, hreads, hanswer, hparse, htext⟩
  · exact absurd hparse (parseStunResponse_ne_ok.mpr hnone addr)

end NeuralMesh.Wireguard
