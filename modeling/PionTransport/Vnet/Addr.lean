import PionTransport.Core.Text

/-!
# IPv4 addresses and their text

Translation tables store addresses as text and resolve them again, so the
round trip of the text is part of the translator's correctness. `resolveAddr`
follows the standard library on literal IPv4 addresses; host and service names
are not resolved here.
-/

namespace PionTransport.Vnet

open PionTransport.Core

/-- The four bytes of an IPv4 address. -/
structure IPv4 where
  a : UInt8
  b : UInt8
  c : UInt8
  d : UInt8
  deriving DecidableEq, Repr, Inhabited

/-- `net.IP.String`. -/
def IPv4.string (ip : IPv4) : String :=
  toString ip.a.toNat ++ "." ++ toString ip.b.toNat ++ "." ++ toString ip.c.toNat ++ "." ++
    toString ip.d.toNat

/-- A transport address. -/
structure Addr where
  ip : IPv4
  port : UInt16
  deriving DecidableEq, Repr, Inhabited

/-- The format `%s:%d` of an address. -/
def hostPort (ip : IPv4) (port : Nat) : String := ip.string ++ ":" ++ toString port

/-- `UDPAddr.String` and `TCPAddr.String`. -/
def Addr.string (addr : Addr) : String := hostPort addr.ip addr.port.toNat

/-- One field of a dotted address: at most 255 and without leading zeros. -/
def parseOctet (cs : List Char) : Option UInt8 := do
  let n ← parseDecimal cs
  if n > 255 ∨ (cs.length > 1 ∧ cs.head? = some '0') then none else some (UInt8.ofNat n)

/-- `net.ParseIP` on IPv4 literals. -/
def parseIP (cs : List Char) : Option IPv4 :=
  match cs.splitOn '.' with
  | [a, b, c, d] => do
    let a ← parseOctet a
    let b ← parseOctet b
    let c ← parseOctet c
    let d ← parseOctet d
    return ⟨a, b, c, d⟩
  | _ => none

/-- `net.ResolveUDPAddr` and `net.ResolveTCPAddr` on IPv4 literals. -/
def resolveAddr (address : String) : Option Addr :=
  match address.toList.splitOn ':' with
  | [host, port] => do
    let ip ← parseIP host
    let n ← parseDecimal port
    if n > 65535 then none else some ⟨ip, UInt16.ofNat n⟩
  | _ => none

theorem parseOctet_toDigits (o : UInt8) : parseOctet (Nat.toDigits 10 o.toNat) = some o := by
  have hall : ∀ n : Fin 256, parseOctet (Nat.toDigits 10 n) = some (UInt8.ofNat n) := by
    decide +kernel
  have h := hall ⟨o.toNat, o.toNat_lt⟩
  rwa [UInt8.ofNat_toNat] at h

theorem IPv4.toList_string (ip : IPv4) :
    ip.string.toList = ['.'].intercalate [Nat.toDigits 10 ip.a.toNat, Nat.toDigits 10 ip.b.toNat,
      Nat.toDigits 10 ip.c.toNat, Nat.toDigits 10 ip.d.toNat] := by
  have hdot : ".".toList = ['.'] := by decide
  simp only [IPv4.string, String.toList_append, toList_toString, hdot]
  simp [List.intercalate]

/-- An address is made of digits and dots. -/
theorem IPv4.notMem_string (ip : IPv4) {c : Char} (hdigit : c.isDigit = false) (hdot : c ≠ '.') :
    c ∉ ip.string.toList := by
  have hdigits := notMem_toDigits hdigit
  rw [ip.toList_string]
  simp [List.intercalate, hdigits, hdot]

theorem IPv4.colon_notMem (ip : IPv4) : ':' ∉ ip.string.toList :=
  ip.notMem_string (by decide) (by decide)

/-- Reading back a printed address. -/
theorem parseIP_string (ip : IPv4) : parseIP ip.string.toList = some ip := by
  have hfields : ∀ l ∈ [Nat.toDigits 10 ip.a.toNat, Nat.toDigits 10 ip.b.toNat,
      Nat.toDigits 10 ip.c.toNat, Nat.toDigits 10 ip.d.toNat], '.' ∉ l := by
    intro l hl
    simp only [List.mem_cons, List.not_mem_nil, or_false] at hl
    rcases hl with rfl | rfl | rfl | rfl <;> exact notMem_toDigits (by decide) _
  rw [parseIP, ip.toList_string, List.splitOn_intercalate '.' hfields (by simp)]
  simp only [parseOctet_toDigits, Option.bind_eq_bind, Option.bind_some, Option.pure_def]

theorem IPv4.string_injective {ip ip' : IPv4} (h : ip.string = ip'.string) : ip = ip' := by
  have hparse := parseIP_string ip
  rw [h, parseIP_string] at hparse
  exact (Option.some.inj hparse).symm

theorem toList_hostPort (ip : IPv4) (port : Nat) :
    (hostPort ip port).toList = ip.string.toList ++ ':' :: Nat.toDigits 10 port := by
  have hcolon : ":".toList = [':'] := by decide
  simp only [hostPort, String.toList_append, toList_toString, hcolon, List.append_assoc,
    List.singleton_append]

/-- Resolving a printed address whose port is in range. -/
theorem resolveAddr_hostPort (ip : IPv4) {port : Nat} (hport : port ≤ 65535) :
    resolveAddr (hostPort ip port) = some ⟨ip, UInt16.ofNat port⟩ := by
  have hjoin : (hostPort ip port).toList =
      [':'].intercalate [ip.string.toList, Nat.toDigits 10 port] := by
    rw [toList_hostPort]
    simp [List.intercalate]
  have hfields : ∀ l ∈ [ip.string.toList, Nat.toDigits 10 port], ':' ∉ l := by
    intro l hl
    simp only [List.mem_cons, List.not_mem_nil, or_false] at hl
    rcases hl with rfl | rfl
    · exact ip.colon_notMem
    · exact notMem_toDigits (by decide) _
  rw [resolveAddr, hjoin, List.splitOn_intercalate ':' hfields (by simp)]
  simp only [parseIP_string, parseDecimal_toDigits, Option.bind_eq_bind, Option.bind_some,
    Nat.not_lt.mpr hport, gt_iff_lt, ite_false]

/-- Resolving a printed address gives it back. -/
theorem resolveAddr_string (addr : Addr) : resolveAddr addr.string = some addr := by
  have hport : addr.port.toNat ≤ 65535 := Nat.le_of_lt_succ addr.port.toNat_lt
  rw [Addr.string, resolveAddr_hostPort addr.ip hport, UInt16.ofNat_toNat]

theorem Addr.string_injective {addr addr' : Addr} (h : addr.string = addr'.string) :
    addr = addr' := by
  have hresolve := resolveAddr_string addr
  rw [h, resolveAddr_string] at hresolve
  exact (Option.some.inj hresolve).symm

end PionTransport.Vnet
