import YxAlpha.Library.LittleEndian
import YxAlpha.Library.SelfDelimiting
import YxAlpha.Utility.Bytes

/-!
# Addresses as text

`InetAddr` of `net/inetaddr.cc` on a host that stores the low byte of an integer first.
`get_host_port` writes an address with its four octets, but `set_host_port` takes the text for
one integer: of `a.b.c.d`, `atoi` reads the `a`.  What comes back is `0.0.0.a`, so only the
address without any octet set is what it was (`round_trip_iff`).
-/

namespace YxAlpha

def dot : UInt8 := 46

def isDigit (c : UInt8) : Bool := 48 ≤ c ∧ c ≤ 57

/-- `std::atoi`, where the number fits in an `int`. -/
def atoi (text : Bytes) : ℤ :=
  let value (digits : Bytes) : ℕ :=
    (digits.takeWhile isDigit).foldl (fun value digit => 10 * value + (digit.toNat - 48)) 0
  match text.dropWhile isSpace with
  | [] => 0
  | c :: rest =>
      if c = 45 then -(value rest : ℤ) else if c = 43 then value rest else value (c :: rest)

def htonl (hostlong : UInt32) : UInt32 := (LittleEndian.swap 4 hostlong.toNat).toUInt32

def htons (hostshort : UInt16) : UInt16 := (LittleEndian.swap 2 hostshort.toNat).toUInt16

def ntohs (netshort : UInt16) : UInt16 := (LittleEndian.swap 2 netshort.toNat).toUInt16

/-- `sockaddr_in`. -/
structure SockaddrIn where
  sinFamily : UInt16
  /-- `sin_addr.s_addr`. -/
  sinAddr : UInt32
  sinPort : UInt16

def afInet : UInt16 := 2

def inaddrAny : UInt32 := 0

def inetAddrstrlen : ℕ := 16

/-- `a.b.c.d`. -/
def dotted (a b c d : UInt8) : Bytes :=
  decimal a.toNat ++ [dot] ++ (decimal b.toNat ++ [dot] ++ (decimal c.toNat ++ [dot] ++
    decimal d.toNat))

/-- `inet_ntop(AF_INET, ...)`: the octets of `src` in memory, if the text and its NUL fit. -/
def inetNtop (src : Bytes) (size : ℕ) : Option Bytes :=
  match src with
  | [a, b, c, d] => if (dotted a b c d).length < size then some (dotted a b c d) else none
  | _ => none

/-- A text with a port. -/
def withPort (host : Bytes) (port : UInt16) : Bytes := host ++ ascii ":" ++ decimal port.toNat

structure InetAddr where
  addr : SockaddrIn

namespace InetAddr

/-- What `get_host_port` leaves in a buffer of `len` bytes. -/
def getHostPort (len : ℕ) (addr : SockaddrIn) : Bytes :=
  let host := (inetNtop (LittleEndian.encode 4 addr.sinAddr.toNat) inetAddrstrlen).getD []
  (withPort host (ntohs addr.sinPort)).take (len - 1)

def setHostPort (ip : Bytes) (port : UInt16) : SockaddrIn where
  sinFamily := afInet
  sinAddr := htonl (UInt32.ofInt (atoi ip))
  sinPort := htons port

/-- `InetAddr(port)`. -/
def ofPort (port : UInt16) : InetAddr where
  addr := { sinFamily := afInet, sinAddr := htonl inaddrAny, sinPort := htons port }

/-- `InetAddr(ip, port)`. -/
def ofHostPort (ip : Bytes) (port : UInt16) : InetAddr := ⟨setHostPort ip port⟩

def getInerHostPort (address : InetAddr) : Bytes := getHostPort 32 address.addr

end InetAddr

/-! ## Printing -/

theorem ntohs_htons (port : UInt16) : ntohs (htons port) = port := by
  have hport : port.toNat < 256 ^ 2 := port.toNat_lt
  have hswap : (htons port).toNat = LittleEndian.swap 2 port.toNat := by
    have := LittleEndian.swap_lt 2 port.toNat
    rw [htons, Nat.toUInt16_eq, UInt16.toNat_ofNat']
    exact Nat.mod_eq_of_lt this
  rw [ntohs, hswap, LittleEndian.swap_swap hport]
  exact UInt16.ofNat_toNat

/-- In memory, `htonl` puts the high byte first. -/
theorem encode_htonl (hostlong : UInt32) :
    LittleEndian.encode 4 (htonl hostlong).toNat =
      (LittleEndian.encode 4 hostlong.toNat).reverse := by
  have hlt := LittleEndian.swap_lt 4 hostlong.toNat
  have hswap : (htonl hostlong).toNat = LittleEndian.swap 4 hostlong.toNat := by
    rw [htonl, Nat.toUInt32_eq, UInt32.toNat_ofNat']
    exact Nat.mod_eq_of_lt hlt
  rw [hswap, LittleEndian.encode_swap]

theorem length_octet_le (a : UInt8) : (decimal a.toNat).length ≤ 3 :=
  length_decimal_le (by decide) (Nat.lt_trans a.toNat_lt (by decide))

theorem length_dotted_le (a b c d : UInt8) : (dotted a b c d).length ≤ 15 := by
  have ha := length_octet_le a
  have hb := length_octet_le b
  have hc := length_octet_le c
  have hd := length_octet_le d
  simp only [dotted, List.length_append, List.length_singleton]
  omega

namespace InetAddr

/-- Every address is printed with its octets in memory. -/
theorem getInerHostPort_eq {address : InetAddr} {a b c d : UInt8} {port : UInt16}
    (haddr : LittleEndian.encode 4 address.addr.sinAddr.toNat = [a, b, c, d])
    (hport : address.addr.sinPort = htons port) :
    address.getInerHostPort = withPort (dotted a b c d) port := by
  have hhost := length_dotted_le a b c d
  have hdigits : (decimal port.toNat).length ≤ 5 :=
    length_decimal_le (by decide) (Nat.lt_trans port.toNat_lt (by decide))
  have hlength : (withPort (dotted a b c d) port).length ≤ 31 := by
    have hcolon : (ascii ":").length = 1 := rfl
    rw [withPort, List.length_append, List.length_append]
    omega
  have htext : inetNtop [a, b, c, d] inetAddrstrlen = some (dotted a b c d) :=
    if_pos (Nat.lt_succ_of_le hhost)
  calc address.getInerHostPort
      = (withPort ((inetNtop [a, b, c, d] inetAddrstrlen).getD []) port).take 31 := by
        rw [getInerHostPort, getHostPort, haddr, hport, ntohs_htons]
    _ = (withPort (dotted a b c d) port).take 31 := by rw [htext, Option.getD_some]
    _ = withPort (dotted a b c d) port := List.take_of_length_le hlength

theorem getInerHostPort_ofPort (port : UInt16) :
    (ofPort port).getInerHostPort = withPort (dotted 0 0 0 0) port :=
  getInerHostPort_eq (encode_htonl inaddrAny) rfl

end InetAddr

/-! ## Reading -/

theorem isDigit_of_mem {n : ℕ} {c : UInt8} (hc : c ∈ decimal n) : isDigit c = true := by
  have hdigit := mem_decimal hc
  rw [isDigit, decide_eq_true_eq, UInt8.le_iff_toNat_le, UInt8.le_iff_toNat_le]
  exact hdigit

/-- `atoi` stops at the first dot. -/
theorem atoi_decimal (n : ℕ) (rest : Bytes) : atoi (decimal n ++ dot :: rest) = n := by
  have hdigits : (decimal n ++ dot :: rest).takeWhile isDigit = decimal n := by
    rw [List.takeWhile_append_of_pos fun c hc => isDigit_of_mem hc,
      List.takeWhile_cons_of_neg (by decide), List.append_nil]
  cases hn : decimal n with
  | nil => exact absurd hn (by simp [decimal])
  | cons c cs =>
      -- the first digit is neither a space nor a sign
      have hc := mem_decimal (n := n) (b := c) (hn ▸ List.mem_cons_self)
      have hspace : ¬ isSpace c = true := by
        rw [isSpace, decide_eq_true_eq, UInt8.le_iff_toNat_le, UInt8.le_iff_toNat_le]
        rintro (rfl | ⟨-, h⟩)
        · exact absurd hc.1 (by decide)
        · exact absurd (hc.1.trans h) (by decide)
      have hminus : c ≠ 45 := by
        rintro rfl
        exact absurd hc.1 (by decide)
      have hplus : c ≠ 43 := by
        rintro rfl
        exact absurd hc.1 (by decide)
      rw [hn] at hdigits
      rw [atoi, List.cons_append, List.dropWhile_cons_of_neg hspace]
      dsimp only
      rw [if_neg hminus, if_neg hplus, ← List.cons_append, hdigits, ← hn, foldl_decimal]

/-- The one integer that `set_host_port` reads is the first octet. -/
theorem encode_setHostPort (a b c d : UInt8) (port : UInt16) :
    LittleEndian.encode 4 (InetAddr.setHostPort (dotted a b c d) port).sinAddr.toNat =
      [0, 0, 0, a] := by
  have hread : atoi (dotted a b c d) = (a.toNat : ℤ) := by
    rw [dotted, List.append_assoc]
    exact atoi_decimal a.toNat _
  have ha : a.toNat < 256 := a.toNat_lt
  have hhost : (UInt32.ofInt (a.toNat : ℤ)).toNat = a.toNat := by
    rw [UInt32.ofInt, UInt32.toNat_ofNat']
    omega
  have hmemory : LittleEndian.encode 4 a.toNat = [a, 0, 0, 0] := by
    rw [LittleEndian.encode, Nat.mod_eq_of_lt ha, Nat.div_eq_of_lt ha, Nat.toUInt8_eq,
      UInt8.ofNat_toNat]
    rfl
  calc LittleEndian.encode 4 (InetAddr.setHostPort (dotted a b c d) port).sinAddr.toNat
      = (LittleEndian.encode 4 (UInt32.ofInt (atoi (dotted a b c d))).toNat).reverse :=
        encode_htonl _
    _ = [a, 0, 0, 0].reverse := by rw [hread, hhost, hmemory]
    _ = [0, 0, 0, a] := rfl

/-! ## There and back -/

theorem dot_notMem_decimal (n : ℕ) : dot ∉ decimal n := by
  intro h
  exact absurd (mem_decimal h).1 (by decide)

/-- An octet of a dotted text, and the rest of it. -/
theorem octet_inj {a b : UInt8} {s t : Bytes}
    (h : decimal a.toNat ++ [dot] ++ s = decimal b.toNat ++ [dot] ++ t) : a = b ∧ s = t := by
  obtain ⟨hoctet, hrest⟩ := Delimiter.selfDelimiting_letter dot _ _
    (dot_notMem_decimal a.toNat) (dot_notMem_decimal b.toNat) s t h
  exact ⟨UInt8.toNat_inj.mp (decimal_injective hoctet), hrest⟩

theorem dotted_inj {a b c d a' b' c' d' : UInt8} (h : dotted a b c d = dotted a' b' c' d') :
    a = a' ∧ b = b' ∧ c = c' ∧ d = d' := by
  obtain ⟨ha, hrest⟩ := octet_inj h
  obtain ⟨hb, hrest⟩ := octet_inj hrest
  obtain ⟨hc, hrest⟩ := octet_inj hrest
  exact ⟨ha, hb, hc, UInt8.toNat_inj.mp (decimal_injective hrest)⟩

namespace InetAddr

theorem getInerHostPort_ofHostPort (a b c d : UInt8) (port : UInt16) :
    (ofHostPort (dotted a b c d) port).getInerHostPort = withPort (dotted 0 0 0 a) port :=
  getInerHostPort_eq (encode_setHostPort a b c d port) rfl

/-- **Only the wildcard address comes back as it was.** -/
theorem round_trip_iff (a b c d : UInt8) (port : UInt16) :
    (ofHostPort (dotted a b c d) port).getInerHostPort = withPort (dotted a b c d) port ↔
      a = 0 ∧ b = 0 ∧ c = 0 ∧ d = 0 := by
  rw [getInerHostPort_ofHostPort, withPort, withPort, List.append_left_inj, List.append_left_inj]
  constructor
  · intro h
    obtain ⟨ha, hb, hc, hd⟩ := dotted_inj h
    exact ⟨ha.symm, hb.symm, hc.symm, by rw [← hd, ← ha]⟩
  · rintro ⟨rfl, rfl, rfl, rfl⟩
    rfl

theorem loopback_changes :
    (ofHostPort (dotted 127 0 0 1) 80).getInerHostPort = withPort (dotted 0 0 0 127) 80 ∧
      (ofHostPort (dotted 127 0 0 1) 80).getInerHostPort ≠ withPort (dotted 127 0 0 1) 80 := by
  refine ⟨getInerHostPort_ofHostPort 127 0 0 1 80, ?_⟩
  rw [getInerHostPort_ofHostPort, withPort, withPort, ne_eq, List.append_left_inj,
    List.append_left_inj]
  exact fun h => absurd (dotted_inj h).1 (by decide)

end InetAddr

end YxAlpha
