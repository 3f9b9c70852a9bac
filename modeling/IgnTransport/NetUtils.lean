import Mathlib
import IgnTransport.Lib.Prefer
import IgnTransport.TransportTypes

/-!
# IgnTransport.NetUtils — the address of this host (`NetUtils.hh`, `NetUtils.cc`)

`determineHost` takes `IGN_IP`, else the address of the host name if that is not private, else what a loop over the
network interfaces prefers.  Modelled is the build with `getifaddrs`.  What the operating system answers is a
parameter (`System`); an address is its four bytes and the loop compares it as text, by prefixes.

* `host_selection_iff`: the loop yields the first public IPv4 address, else the first private or link-local one, else
  127.0.0.1, exactly when no address of 172.16/12, and no loopback address besides 127.0.0.1, gets in the way.
* `determineHost_eq`: unless the user sets `IGN_IP`, the result is an IPv4 address in dotted-quad notation.
-/

namespace IgnTransport

open Lib

/-! ## The code -/

section Code

/-- `struct in_addr`, byte by byte. -/
structure InAddr where
  b1 : UInt8
  b2 : UInt8
  b3 : UInt8
  b4 : UInt8
  deriving DecidableEq, Repr

/-- `struct sockaddr`, by its family: `AF_INET`, `AF_INET6` with the scope that is part of the numeric form, others. -/
inductive SockAddr where
  | inet (addr : InAddr)
  | inet6 (addr : BitVec 128) (scopeId : UInt32)
  | other (family : ℕ)
  deriving DecidableEq, Repr

/-- `sa_family == AF_INET6`. -/
def SockAddr.isInet6 : SockAddr → Bool
  | .inet6 _ _ => true
  | _ => false

/-- A `struct ifaddrs`: an interface may have no address. -/
structure Ifaddrs where
  addr : Option SockAddr
  deriving DecidableEq, Repr

/-- A C string in a `char[200]`. -/
abbrev HostText := {s : Str // 0 ∉ s ∧ s.length < 200}

/-- What `determineHost` asks the system for; `none` is a call that fails. -/
structure System where
  /-- `getenv("IGN_IP")`. -/
  ignIp : Option Str
  gethostname : Option Str
  /-- `gethostbyname`: the entries of `h_addr_list`. -/
  gethostbyname : Str → Option (List InAddr)
  getifaddrs : Option (List Ifaddrs)
  /-- `getnameinfo` with `NI_NUMERICHOST`. -/
  getnameinfo : SockAddr → Option HostText

namespace NetUtils

/-- A byte in decimal. -/
def octet (b : UInt8) : Str := ascii (Nat.toDigits 10 b.toNat)

/-- `inet_ntoa`: the dotted-quad notation. -/
def inetNtoa (a : InAddr) : Str :=
  octet a.b1 ++ 46 :: (octet a.b2 ++ 46 :: (octet a.b3 ++ 46 :: octet a.b4))

/-- `!strncmp(a, b, n)`. -/
def strncmp (a b : Str) (n : ℕ) : Bool := (cStr a).take n = (cStr b).take n

def net192168 : Str := ascii ['1', '9', '2', '.', '1', '6', '8']
def net10 : Str := ascii ['1', '0', '.']
def net169254 : Str := ascii ['1', '6', '9', '.', '2', '5', '4']

/-- `isPrivateIP`. -/
def isPrivateIP (ip : Str) : Bool := strncmp net192168 ip 7 || strncmp net10 ip 3 || strncmp net169254 ip 7

/-- 127.0.0.1. -/
def localhost : InAddr := ⟨127, 0, 0, 1⟩

/-- One turn of the loop over the interfaces, from `preferred_ip`. -/
def considerInterface (getnameinfo : SockAddr → Option HostText) (preferred : Str) (ifa : Ifaddrs) : Str :=
  match ifa.addr with
  -- evidently this interface has no ip address
  | none => preferred
  | some (.other _) => preferred
  | some addr =>
    match getnameinfo addr with
    | none => preferred
    | some ip =>
      -- ignore loopback unless we have no other choice
      if ip.1 = ascii ['1', '2', '7', '.', '0', '.', '0', '.', '1'] ∨ 58 ∈ ip.1 then preferred
      else if addr.isInet6 ∧ preferred = [] then ip
      else if isPrivateIP ip ∧ preferred = [] then ip
      else if !isPrivateIP ip ∧ (isPrivateIP preferred ∨ preferred = []) then ip
      else preferred

/-- The loop over the interfaces, and what is returned after it. -/
def searchInterfaces (getnameinfo : SockAddr → Option HostText) (ifp : List Ifaddrs) : Str :=
  let preferred := ifp.foldl (considerInterface getnameinfo) []
  if preferred = [] then ascii ['1', '2', '7', '.', '0', '.', '0', '.', '1'] else preferred

/-- `hostnameToIp`: the first address, if there is one. -/
def hostnameToIp (sys : System) (hostname : Str) : Option Str := do
  let addrList ← sys.gethostbyname hostname
  let a ← addrList.head?
  return inetNtoa a

/-- The address of the host name, unless that is `localhost` or the address is private. -/
def hostnameAddress (sys : System) : Option Str := do
  let host ← sys.gethostname
  -- We don't want localhost to be our ip
  if host = [] ∨ host = ascii ['l', 'o', 'c', 'a', 'l', 'h', 'o', 's', 't'] then none
  else
    let hostIP ← hostnameToIp sys (host ++ ascii ['.', 'l', 'o', 'c', 'a', 'l'])
    if isPrivateIP hostIP then none else return hostIP

/-- `determineHost`; there is no result if the process exits. -/
def determineHost (sys : System) : Option Str :=
  -- First, did the user set IGN_IP?
  match sys.ignIp.filter (· ≠ []) with
  | some ip => some ip
  | none =>
    -- Second, try the hostname
    match hostnameAddress sys with
    | some hostIP => some hostIP
    -- Third, fall back on interface search
    | none => sys.getifaddrs.map (searchInterfaces sys.getnameinfo)

end NetUtils

end Code

namespace NetUtils

/-! ## Dotted quads -/

section Text

theorem toNat_digit {n : ℕ} {c : Char} (hc : c ∈ Nat.toDigits 10 n) : 48 ≤ c.toNat ∧ c.toNat ≤ 57 := by
  have hdigit := Nat.isDigit_of_mem_toDigits (by omega) le_rfl hc
  simp only [Char.isDigit, Bool.and_eq_true, decide_eq_true_eq] at hdigit
  exact hdigit

theorem octet_injective {b c : UInt8} (h : octet b = octet c) : b = c := by
  have hchars : ∀ b : UInt8, (octet b).map (fun d => Char.ofNat d.toNat) = Nat.toDigits 10 b.toNat := by
    intro b
    rw [octet, ascii, List.map_map]
    refine (List.map_congr_left fun c hc => ?_).trans (List.map_id' _)
    have hc := toNat_digit hc
    rw [Function.comp_apply, UInt8.toNat_ofNat', Nat.mod_eq_of_lt (by omega), Char.ofNat_toNat]
  have hdigits : Nat.toDigits 10 b.toNat = Nat.toDigits 10 c.toNat := by rw [← hchars, ← hchars, h]
  have hvalue := congrArg (fun digits => Nat.ofDigitChars 10 digits 0) hdigits
  simp only [Nat.ofDigitChars_ten_toDigits] at hvalue
  exact UInt8.toNat_inj.mp hvalue

theorem length_octet (b : UInt8) : (octet b).length ≤ 3 := by
  rw [octet, ascii, List.length_map, Nat.length_toDigits_le_iff (by omega) (by omega)]
  exact b.toNat_lt.trans (by norm_num)

/-- Nothing but digits. -/
theorem not_mem_octet {b c : UInt8} (hc : c < 48 ∨ 58 ≤ c) : c ∉ octet b := by
  intro h
  obtain ⟨d, hd, rfl⟩ := List.mem_map.mp h
  have hdigit := toNat_digit hd
  rw [UInt8.lt_iff_toNat_lt, UInt8.le_iff_toNat_le, UInt8.toNat_ofNat', Nat.mod_eq_of_lt (by omega)] at hc
  simp only [UInt8.reduceToNat] at hc
  omega

/-- Digits and dots. -/
theorem not_mem_inetNtoa {a : InAddr} {c : UInt8} (hc : c < 48 ∨ 58 ≤ c) (hdot : c ≠ 46) : c ∉ inetNtoa a := by
  simp [inetNtoa, not_mem_octet hc, hdot]

theorem inetNtoa_ne_nil (a : InAddr) : inetNtoa a ≠ [] := by
  simp [inetNtoa]

theorem length_inetNtoa (a : InAddr) : (inetNtoa a).length < 200 := by
  have h1 := length_octet a.b1
  have h2 := length_octet a.b2
  have h3 := length_octet a.b3
  have h4 := length_octet a.b4
  simp only [inetNtoa, List.length_append, List.length_cons]
  omega

/-- The first dot ends the first byte. -/
theorem octet_dot_inj {b : UInt8} {u r t : Str} (hu : 46 ∉ u) :
    octet b ++ 46 :: r = u ++ 46 :: t ↔ octet b = u ∧ r = t := by
  have hb : 46 ∉ octet b := not_mem_octet (by decide)
  constructor
  · intro h
    rcases List.append_eq_append_iff.mp h with ⟨x, rfl, hx⟩ | ⟨x, hx', hx⟩
    · cases x with
      | nil => simpa using hx
      | cons c x =>
        obtain ⟨rfl, -⟩ := List.cons.inj hx
        simp at hu
    · cases x with
      | nil => simpa [eq_comm] using And.intro hx' hx
      | cons c x =>
        obtain ⟨rfl, -⟩ := List.cons.inj hx
        simp [hx'] at hb
  · rintro ⟨rfl, rfl⟩
    rfl

theorem inetNtoa_injective {a b : InAddr} (h : inetNtoa a = inetNtoa b) : a = b := by
  have hdot : ∀ c : UInt8, 46 ∉ octet c := fun c => not_mem_octet (by decide)
  unfold inetNtoa at h
  obtain ⟨h1, h⟩ := (octet_dot_inj (hdot _)).mp h
  obtain ⟨h2, h⟩ := (octet_dot_inj (hdot _)).mp h
  obtain ⟨h3, h4⟩ := (octet_dot_inj (hdot _)).mp h
  obtain ⟨a1, a2, a3, a4⟩ := a
  obtain ⟨b1, b2, b3, b4⟩ := b
  simp only [InAddr.mk.injEq]
  exact ⟨octet_injective h1, octet_injective h2, octet_injective h3, octet_injective h4⟩

/-- A prefix of three digits is a byte: there are no longer ones. -/
theorem three_digits {b : UInt8} {d r : Str} (hlen : d.length = 3) (hd : 46 ∉ d) :
    d <+: octet b ++ 46 :: r ↔ octet b = d := by
  constructor
  · intro hpre
    have hb : octet b <+: d :=
      List.prefix_of_prefix_length_le (List.prefix_append _ _) hpre (hlen ▸ length_octet b)
    obtain ⟨x, rfl⟩ := hb
    obtain ⟨t, ht⟩ := hpre
    rw [List.append_assoc, List.append_cancel_left_eq] at ht
    cases x with
    | nil => rw [List.append_nil]
    | cons c x =>
      -- the byte would end in front of a dot
      obtain ⟨rfl, -⟩ := List.cons.inj ht
      simp at hd
  · rintro rfl
    exact List.prefix_append _ _

/-- `strncmp` with the whole of its first argument. -/
theorem strncmp_iff {u : Str} {a : InAddr} (hu : 0 ∉ u) :
    strncmp u (inetNtoa a) u.length = true ↔ u <+: inetNtoa a := by
  have ha : 0 ∉ inetNtoa a := not_mem_inetNtoa (.inl (by decide)) (by decide)
  rw [strncmp, cStr_eq_self hu, cStr_eq_self ha, List.take_length, decide_eq_true_iff, List.prefix_iff_eq_take]

theorem net10_isPrefix_iff (a : InAddr) : net10 <+: inetNtoa a ↔ a.b1 = 10 := by
  have hten : octet 10 = ascii ['1', '0'] := by decide
  have hnet : net10 = octet 10 ++ [46] := by decide
  constructor
  · rintro ⟨t, ht⟩
    rw [hnet, List.append_assoc, inetNtoa, eq_comm] at ht
    exact octet_injective ((octet_dot_inj (not_mem_octet (by decide))).mp ht).1
  · intro h
    refine ⟨octet a.b2 ++ 46 :: (octet a.b3 ++ 46 :: octet a.b4), ?_⟩
    rw [hnet, inetNtoa, h, List.append_assoc, List.singleton_append]

/-- Two bytes, the second of three digits. -/
theorem two_bytes_isPrefix_iff {b c : UInt8} (hc : (octet c).length = 3) (a : InAddr) :
    octet b ++ 46 :: octet c <+: inetNtoa a ↔ a.b1 = b ∧ a.b2 = c := by
  have hdot : 46 ∉ octet c := not_mem_octet (by decide)
  constructor
  · rintro ⟨t, ht⟩
    rw [List.append_assoc, List.cons_append, inetNtoa, eq_comm] at ht
    obtain ⟨h1, h2⟩ := (octet_dot_inj (not_mem_octet (by decide))).mp ht
    exact ⟨octet_injective h1, octet_injective ((three_digits hc hdot).mp ⟨t, h2.symm⟩)⟩
  · rintro ⟨rfl, rfl⟩
    refine ⟨46 :: (octet a.b3 ++ 46 :: octet a.b4), ?_⟩
    simp [inetNtoa]

end Text

/-! ## Address blocks -/

section Blocks

/-- An address as a number. -/
def value (a : InAddr) : ℕ := ((a.b1.toNat * 256 + a.b2.toNat) * 256 + a.b3.toNat) * 256 + a.b4.toNat

/-- The address is in `net/len`. -/
def InNet (net : InAddr) (len : ℕ) (a : InAddr) : Prop := value a / 2 ^ (32 - len) = value net / 2 ^ (32 - len)

instance (net : InAddr) (len : ℕ) : DecidablePred (InNet net len) := fun a => by unfold InNet; infer_instance

/-- 172.16/12. -/
def In172 : InAddr → Prop := InNet ⟨172, 16, 0, 0⟩ 12

/-- 10/8, 172.16/12, 192.168/16 or 169.254/16. -/
def PrivateOrLinkLocal (a : InAddr) : Prop :=
  InNet ⟨10, 0, 0, 0⟩ 8 a ∨ In172 a ∨ InNet ⟨192, 168, 0, 0⟩ 16 a ∨ InNet ⟨169, 254, 0, 0⟩ 16 a

/-- 127/8. -/
def Loopback : InAddr → Prop := InNet ⟨127, 0, 0, 0⟩ 8

def Public (a : InAddr) : Prop := ¬ PrivateOrLinkLocal a ∧ ¬ Loopback a

/-- What the loop takes for a public address. -/
def Mistaken (a : InAddr) : Prop := In172 a ∨ (Loopback a ∧ a ≠ localhost)

instance : DecidablePred In172 := fun a => by unfold In172; infer_instance
instance : DecidablePred PrivateOrLinkLocal := fun a => by unfold PrivateOrLinkLocal; infer_instance
instance : DecidablePred Loopback := fun a => by unfold Loopback; infer_instance
instance : DecidablePred Public := fun a => by unfold Public; infer_instance
instance : DecidablePred Mistaken := fun a => by unfold Mistaken; infer_instance

/-- The blocks by their bytes. -/
theorem inNet_8_iff (b : UInt8) (a : InAddr) : InNet ⟨b, 0, 0, 0⟩ 8 a ↔ a.b1 = b := by
  have h1 := a.b1.toNat_lt
  have h2 := a.b2.toNat_lt
  have h3 := a.b3.toNat_lt
  have h4 := a.b4.toNat_lt
  rw [← UInt8.toNat_inj]
  simp only [InNet, value, UInt8.toNat_zero]
  omega

theorem inNet_16_iff (b c : UInt8) (a : InAddr) : InNet ⟨b, c, 0, 0⟩ 16 a ↔ a.b1 = b ∧ a.b2 = c := by
  have h2 := a.b2.toNat_lt
  have h3 := a.b3.toNat_lt
  have h4 := a.b4.toNat_lt
  have hc := c.toNat_lt
  rw [← UInt8.toNat_inj, ← UInt8.toNat_inj]
  simp only [InNet, value, UInt8.toNat_zero]
  omega

theorem in172_b1 {a : InAddr} (h : In172 a) : a.b1 = 172 := by
  have h2 := a.b2.toNat_lt
  have h3 := a.b3.toNat_lt
  have h4 := a.b4.toNat_lt
  rw [← UInt8.toNat_inj]
  simp only [In172, InNet, value, UInt8.reduceToNat] at h ⊢
  omega

/-- The prefixes are those of three blocks; 172.16/12 is not among them. -/
theorem isPrivateIP_iff (a : InAddr) : isPrivateIP (inetNtoa a) = true ↔
    InNet ⟨192, 168, 0, 0⟩ 16 a ∨ InNet ⟨10, 0, 0, 0⟩ 8 a ∨ InNet ⟨169, 254, 0, 0⟩ 16 a := by
  have hnet192 : net192168 = octet 192 ++ 46 :: octet 168 := by decide
  have hnet169 : net169254 = octet 169 ++ 46 :: octet 254 := by decide
  have h192 : strncmp net192168 (inetNtoa a) 7 = true ↔ a.b1 = 192 ∧ a.b2 = 168 := by
    rw [← two_bytes_isPrefix_iff (by decide) a, ← hnet192]
    exact strncmp_iff (by decide)
  have h10 : strncmp net10 (inetNtoa a) 3 = true ↔ a.b1 = 10 :=
    (strncmp_iff (u := net10) (by decide)).trans (net10_isPrefix_iff a)
  have h169 : strncmp net169254 (inetNtoa a) 7 = true ↔ a.b1 = 169 ∧ a.b2 = 254 := by
    rw [← two_bytes_isPrefix_iff (by decide) a, ← hnet169]
    exact strncmp_iff (by decide)
  rw [isPrivateIP, Bool.or_eq_true, Bool.or_eq_true, h192, h10, h169, inNet_16_iff, inNet_8_iff, inNet_16_iff, or_assoc]

end Blocks

/-! ## The loop over the interfaces -/

section Search

/-- The numeric form of an IPv4 address is its dotted quad, that of an IPv6 address has a colon in it. -/
structure NumericHost (getnameinfo : SockAddr → Option HostText) : Prop where
  inet : ∀ a, (getnameinfo (.inet a)).map Subtype.val = some (inetNtoa a)
  inet6 : ∀ a scopeId ip, getnameinfo (.inet6 a scopeId) = some ip → 58 ∈ ip.1

/-- The IPv4 address of an interface. -/
def inetAddr (ifa : Ifaddrs) : Option InAddr :=
  match ifa.addr with
  | some (.inet a) => some a
  | _ => none

/-- The IPv4 addresses of the interfaces, in order. -/
def inetAddrs (ifp : List Ifaddrs) : List InAddr := ifp.filterMap inetAddr

/-- The first public address, else the first private or link-local one, else 127.0.0.1. -/
def preferredHost (addrs : List InAddr) : InAddr :=
  ((addrs.find? fun a => Public a).or (addrs.find? fun a => PrivateOrLinkLocal a)).getD localhost

/-- `isPrivateIP` of an address. -/
def Lower (a : InAddr) : Prop := isPrivateIP (inetNtoa a) = true

instance : DecidablePred Lower := fun a => by unfold Lower; infer_instance

/-- `preferred_ip` as text. -/
def text (kept : Option InAddr) : Str := (kept.map inetNtoa).getD []

variable {getnameinfo : SockAddr → Option HostText}

/-- An interface without an IPv4 address is passed over. -/
theorem considerInterface_none (h : NumericHost getnameinfo) {ifa : Ifaddrs} (hnone : inetAddr ifa = none)
    (preferred : Str) : considerInterface getnameinfo preferred ifa = preferred := by
  obtain ⟨addr⟩ := ifa
  unfold considerInterface
  match addr with
  | none => rfl
  | some (.other _) => rfl
  | some (.inet a) => cases hnone
  | some (.inet6 a scopeId) =>
    dsimp only
    cases hip : getnameinfo (.inet6 a scopeId) with
    | none => rfl
    | some ip => exact if_pos (.inr (h.inet6 a scopeId ip hip))

/-- **One turn** at an IPv4 address. -/
theorem considerInterface_some (h : NumericHost getnameinfo) {ifa : Ifaddrs} {a : InAddr}
    (hsome : inetAddr ifa = some a) (kept : Option InAddr) : considerInterface getnameinfo (text kept) ifa =
      text (if a = localhost then kept else prefer Lower kept a) := by
  have haddr : ifa.addr = some (.inet a) := by
    unfold inetAddr at hsome
    split at hsome
    · next b hb => rw [hb, Option.some.inj hsome]
    · cases hsome
  obtain ⟨ip, hip, htext⟩ := Option.map_eq_some_iff.mp (h.inet a)
  have hcolon : 58 ∉ inetNtoa a := not_mem_inetNtoa (.inr (by decide)) (by decide)
  have hloop : inetNtoa a = ascii ['1', '2', '7', '.', '0', '.', '0', '.', '1'] ↔ a = localhost :=
    ⟨fun heq => inetNtoa_injective (heq.trans (by decide)), fun heq => heq ▸ by decide⟩
  simp only [considerInterface, haddr, hip, htext, hloop, hcolon, or_false, SockAddr.isInet6, Bool.false_eq_true,
    false_and, if_false]
  by_cases ha : a = localhost
  · rw [if_pos ha, if_pos ha]
  · rw [if_neg ha, if_neg ha]
    cases kept with
    | none =>
      -- the first candidate is kept, private or not
      cases hpriv : isPrivateIP (inetNtoa a) <;> simp [text, prefer]
    | some kept =>
      -- a candidate gives way if it is private and this one is not
      have hne : text (some kept) ≠ [] := inetNtoa_ne_nil kept
      have hgive : (isPrivateIP (inetNtoa kept) = true ∧ ¬ isPrivateIP (inetNtoa a) = true) ↔
          (!isPrivateIP (inetNtoa a)) = true ∧ isPrivateIP (text (some kept)) = true := by
        rw [Bool.not_eq_true', Bool.not_eq_true, and_comm]
        rfl
      simp only [hne, and_false, if_false, or_false, prefer, Lower, hgive]
      split_ifs <;> rfl

/-- **The loop** is the search that keeps a private address as its second choice. -/
theorem foldl_considerInterface (h : NumericHost getnameinfo) (ifp : List Ifaddrs) (kept : Option InAddr) :
    ifp.foldl (considerInterface getnameinfo) (text kept) =
      text (((inetAddrs ifp).filter (· ≠ localhost)).foldl (prefer Lower) kept) := by
  induction ifp generalizing kept with
  | nil => rfl
  | cons ifa ifp ih =>
    unfold inetAddrs at ih ⊢
    rw [List.foldl_cons]
    cases hinet : inetAddr ifa with
    | none => rw [considerInterface_none h hinet, ih, List.filterMap_cons_none hinet]
    | some a =>
      rw [considerInterface_some h hinet, ih, List.filterMap_cons_some hinet]
      by_cases ha : a = localhost
      · rw [if_pos ha, List.filter_cons_of_neg (by simp [ha])]
      · rw [if_neg ha, List.filter_cons_of_pos (by simp [ha]), List.foldl_cons]

/-- What the loop chooses among the addresses. -/
def chosen (addrs : List InAddr) : InAddr :=
  ((addrs.find? fun a => a ≠ localhost ∧ ¬ Lower a).or (addrs.find? fun a => a ≠ localhost)).getD localhost

theorem searchInterfaces_eq (h : NumericHost getnameinfo) (ifp : List Ifaddrs) :
    searchInterfaces getnameinfo ifp = inetNtoa (chosen (inetAddrs ifp)) := by
  have hloop := foldl_considerInterface h ifp none
  have hfind : ((inetAddrs ifp).filter (· ≠ localhost)).foldl (prefer Lower) none =
      ((inetAddrs ifp).find? fun a => a ≠ localhost ∧ ¬ Lower a).or ((inetAddrs ifp).find? fun a => a ≠ localhost) := by
    rw [foldl_prefer, List.find?_filter, List.head?_filter]
    simp only [Bool.decide_and, Bool.decide_eq_true]
  have hpreferred : ifp.foldl (considerInterface getnameinfo) [] = text _ := hloop.trans (congrArg text hfind)
  have hlocal : ascii ['1', '2', '7', '.', '0', '.', '0', '.', '1'] = inetNtoa localhost := by decide
  unfold searchInterfaces chosen
  rw [hpreferred, hlocal]
  cases ((inetAddrs ifp).find? fun a => a ≠ localhost ∧ ¬ Lower a).or
      ((inetAddrs ifp).find? fun a => a ≠ localhost) with
  | none => rfl
  | some a => exact if_neg (inetNtoa_ne_nil a)

end Search

/-! ## The selection -/

section Selection

variable {addrs : List InAddr} {a : InAddr}

/-- No address that the loop takes for public is met before the first public one; or the one that is met is private,
there is no public address, and nothing but 127.0.0.1 before it. -/
def Unobstructed (addrs : List InAddr) : Prop :=
  (∀ a, addrs.find? (fun a => Public a ∨ Mistaken a) = some a → Public a) ∨
    ((∀ a ∈ addrs, ¬ Public a) ∧ ∃ a, addrs.find? (fun a => a ≠ localhost) = some a ∧ In172 a)

theorem lower_iff : Lower a ↔
    InNet ⟨192, 168, 0, 0⟩ 16 a ∨ InNet ⟨10, 0, 0, 0⟩ 8 a ∨ InNet ⟨169, 254, 0, 0⟩ 16 a := isPrivateIP_iff a

theorem privateOrLinkLocal_iff : PrivateOrLinkLocal a ↔ Lower a ∨ In172 a := by
  simp only [lower_iff, PrivateOrLinkLocal, or_assoc, or_left_comm, or_comm]

theorem loopback_iff : Loopback a ↔ a.b1 = 127 := inNet_8_iff 127 a

theorem not_lower_of_b1 (h : a.b1 = 172 ∨ a.b1 = 127) : ¬ Lower a := by
  rw [lower_iff, inNet_16_iff, inNet_8_iff, inNet_16_iff]
  rcases h with h | h <;> simp [h]

theorem ne_localhost (h : PrivateOrLinkLocal a) : a ≠ localhost := by
  rintro rfl
  rcases privateOrLinkLocal_iff.mp h with hlow | h172
  · exact not_lower_of_b1 (.inr rfl) hlow
  · exact absurd (in172_b1 h172) (by decide)

/-- The loop looks for what is public or mistaken for public. -/
theorem public_or_mistaken_iff : Public a ∨ Mistaken a ↔ a ≠ localhost ∧ ¬ Lower a := by
  rw [Public, Mistaken, privateOrLinkLocal_iff]
  constructor
  · rintro (⟨hpriv, hloop⟩ | h172 | ⟨hloop, hne⟩)
    · refine ⟨fun heq => hloop ?_, fun hlow => hpriv (.inl hlow)⟩
      rw [heq]
      exact loopback_iff.mpr rfl
    · exact ⟨ne_localhost (privateOrLinkLocal_iff.mpr (.inr h172)), not_lower_of_b1 (.inl (in172_b1 h172))⟩
    · exact ⟨hne, not_lower_of_b1 (.inr (loopback_iff.mp hloop))⟩
  · rintro ⟨hne, hlow⟩
    by_cases h172 : In172 a
    · exact .inr (.inl h172)
    · by_cases hloop : Loopback a
      · exact .inr (.inr ⟨hloop, hne⟩)
      · exact .inl ⟨fun hpriv => hpriv.elim hlow h172, hloop⟩

theorem not_public_of_mistaken (h : Mistaken a) : ¬ Public a := by
  rintro ⟨hpriv, hloop⟩
  rcases h with h172 | ⟨h127, -⟩
  · exact hpriv (privateOrLinkLocal_iff.mpr (.inr h172))
  · exact hloop h127

/-- Nothing is taken for public: the first private address is kept. -/
theorem chosen_of_none (h : addrs.find? (fun a => a ≠ localhost ∧ ¬ Lower a) = none) :
    chosen addrs = preferredHost addrs := by
  have hall : ∀ a ∈ addrs, a = localhost ∨ Lower a := by
    simpa [not_or, imp_iff_not_or] using h
  have hpublic : addrs.find? (fun a => Public a) = none := by
    refine List.find?_eq_none.mpr fun a ha hpub => ?_
    have hnot := public_or_mistaken_iff.mp (.inl (of_decide_eq_true hpub))
    rcases hall a ha with heq | hlow
    · exact hnot.1 heq
    · exact hnot.2 hlow
  have hpriv : addrs.find? (fun a => PrivateOrLinkLocal a) = addrs.find? fun a => a ≠ localhost := by
    refine List.find?_congr fun a ha => decide_eq_decide.mpr ⟨ne_localhost, fun hne => ?_⟩
    exact privateOrLinkLocal_iff.mpr (.inl ((hall a ha).resolve_left hne))
  rw [chosen, preferredHost, h, hpublic, hpriv]

/-- An address that is mistaken for public is the preferred one only if no address is public and nothing but 127.0.0.1
is before it. -/
theorem preferred_eq_iff {f : InAddr} (hfirst : addrs.find? (fun a => a ≠ localhost ∧ ¬ Lower a) = some f)
    (hmistaken : Mistaken f) : preferredHost addrs = f ↔
      (∀ a ∈ addrs, ¬ Public a) ∧ ∃ a, addrs.find? (fun a => a ≠ localhost) = some a ∧ In172 a := by
  have hne : f ≠ localhost := (public_or_mistaken_iff.mp (.inr hmistaken)).1
  unfold preferredHost
  constructor
  · intro heq
    cases hpublic : addrs.find? (fun a => Public a) with
    | some g =>
      rw [hpublic, Option.some_or, Option.getD_some] at heq
      have hg : Public g := by simpa using List.find?_some hpublic
      exact absurd (heq ▸ hg) (not_public_of_mistaken hmistaken)
    | none =>
      rw [hpublic, Option.none_or] at heq
      cases hpriv : addrs.find? (fun a => PrivateOrLinkLocal a) with
      | none =>
        rw [hpriv, Option.getD_none] at heq
        exact absurd heq.symm hne
      | some g =>
        rw [hpriv, Option.getD_some] at heq
        subst heq
        have hg : PrivateOrLinkLocal g := by simpa using List.find?_some hpriv
        have h172 : In172 g :=
          (privateOrLinkLocal_iff.mp hg).resolve_left (public_or_mistaken_iff.mp (.inr hmistaken)).2
        refine ⟨by simpa using hpublic, g, ?_, h172⟩
        -- what is before it is neither private nor taken for public
        rw [← find?_or hpriv hfirst]
        refine List.find?_congr fun a _ => decide_eq_decide.mpr ⟨fun ha => ?_, ?_⟩
        · by_cases hlow : Lower a
          · exact .inl (privateOrLinkLocal_iff.mpr (.inl hlow))
          · exact .inr ⟨ha, hlow⟩
        · exact fun ha => ha.elim ne_localhost And.left
  · rintro ⟨hall, a, ha, h172⟩
    have hlow : ¬ Lower a := not_lower_of_b1 (.inl (in172_b1 h172))
    have hnea : a ≠ localhost := by simpa using List.find?_some ha
    have hfa := find?_of_imp (Q := fun a => a ≠ localhost ∧ ¬ Lower a) (fun _ h => h.1) ha ⟨hnea, hlow⟩
    have hpriv := find?_of_imp (Q := PrivateOrLinkLocal) (fun _ h => ne_localhost h) ha
      (privateOrLinkLocal_iff.mpr (.inr h172))
    have hpublic : addrs.find? (fun a => Public a) = none := by simpa using hall
    rw [hpublic, hpriv, Option.none_or, Option.getD_some]
    exact Option.some.inj (hfa.symm.trans hfirst)

/-- **What the loop chooses is the preferred address iff nothing gets in the way.** -/
theorem chosen_eq_iff : chosen addrs = preferredHost addrs ↔ Unobstructed addrs := by
  have hsame : addrs.find? (fun a => Public a ∨ Mistaken a) = addrs.find? fun a => a ≠ localhost ∧ ¬ Lower a := by
    refine List.find?_congr fun a _ => decide_eq_decide.mpr public_or_mistaken_iff
  unfold Unobstructed
  rw [hsame]
  cases hfirst : addrs.find? (fun a => a ≠ localhost ∧ ¬ Lower a) with
  | none => exact iff_of_true (chosen_of_none hfirst) (.inl fun a ha => by cases ha)
  | some f =>
    obtain ⟨hne, hlow⟩ : f ≠ localhost ∧ ¬ Lower f := by simpa using List.find?_some hfirst
    have hmem : f ∈ addrs := List.mem_of_find?_eq_some hfirst
    have hchosen : chosen addrs = f := by rw [chosen, hfirst, Option.some_or, Option.getD_some]
    rw [hchosen]
    rcases public_or_mistaken_iff.mpr ⟨hne, hlow⟩ with hpub | hmistaken
    · -- the first public address is met before anything that is mistaken for one
      have hpublic : addrs.find? (fun a => Public a) = some f :=
        find?_of_imp (fun a ha => public_or_mistaken_iff.mp (.inl ha)) hfirst hpub
      refine iff_of_true ?_ (.inl fun a ha => Option.some.inj ha ▸ hpub)
      rw [preferredHost, hpublic, Option.some_or, Option.getD_some]
    · have hnot := not_public_of_mistaken hmistaken
      rw [or_iff_right fun h => hnot (h f rfl), eq_comm, preferred_eq_iff hfirst hmistaken]

/-- **The interface loop** yields the preferred address iff nothing gets in its way. -/
theorem host_selection_iff {getnameinfo : SockAddr → Option HostText} (h : NumericHost getnameinfo)
    (ifp : List Ifaddrs) : searchInterfaces getnameinfo ifp = inetNtoa (preferredHost (inetAddrs ifp)) ↔
      Unobstructed (inetAddrs ifp) := by
  rw [searchInterfaces_eq h, ← chosen_eq_iff]
  exact ⟨inetNtoa_injective, congrArg inetNtoa⟩

/-- `getnameinfo` for IPv4 addresses and `::1`. -/
def numericHost : SockAddr → Option HostText
  | .inet a => some ⟨inetNtoa a, not_mem_inetNtoa (.inl (by decide)) (by decide), length_inetNtoa a⟩
  | .inet6 a _ => if a = 1 then some ⟨ascii [':', ':', '1'], by decide⟩ else none
  | .other _ => none

theorem numericHost_numeric : NumericHost numericHost where
  inet _ := rfl
  inet6 a scopeId ip hip := by
    simp only [numericHost] at hip
    split_ifs at hip
    rw [← Option.some.inj hip]
    decide

/-- An IPv6, a private and a public address. -/
def threeInterfaces : List Ifaddrs :=
  [⟨some (.inet6 1 0)⟩, ⟨some (.inet ⟨192, 168, 0, 5⟩)⟩, ⟨some (.inet ⟨8, 8, 8, 8⟩)⟩]

theorem host_selection_iff_threeInterfaces :
    searchInterfaces numericHost threeInterfaces = inetNtoa (preferredHost (inetAddrs threeInterfaces)) ∧
      preferredHost (inetAddrs threeInterfaces) = ⟨8, 8, 8, 8⟩ := by
  refine ⟨(host_selection_iff numericHost_numeric threeInterfaces).mpr (.inl fun a ha => ?_), by decide +kernel⟩
  have hfirst : (inetAddrs threeInterfaces).find? (fun a => Public a ∨ Mistaken a) = some ⟨8, 8, 8, 8⟩ := by
    decide +kernel
  rw [← Option.some.inj (hfirst.symm.trans ha)]
  decide +kernel

/-- A bridge of 172.16/12, as container tools set it up, in front of a public address. -/
def bridgeFirst : List Ifaddrs := [⟨some (.inet ⟨172, 17, 0, 1⟩)⟩, ⟨some (.inet ⟨8, 8, 8, 8⟩)⟩]

theorem bridge_selected : NumericHost numericHost ∧
    searchInterfaces numericHost bridgeFirst = inetNtoa ⟨172, 17, 0, 1⟩ ∧
      preferredHost (inetAddrs bridgeFirst) = ⟨8, 8, 8, 8⟩ ∧
        searchInterfaces numericHost bridgeFirst ≠ inetNtoa (preferredHost (inetAddrs bridgeFirst)) :=
  ⟨numericHost_numeric, by decide +kernel, by decide +kernel, by decide +kernel⟩

end Selection

/-! ## The address of the host -/

section Host

variable {sys : System} {host : Str}

theorem hostnameAddress_eq (h : hostnameAddress sys = some host) :
    ∃ a, host = inetNtoa a ∧ isPrivateIP (inetNtoa a) = false := by
  simp only [hostnameAddress, hostnameToIp, bind, pure, Option.bind_eq_some_iff] at h
  obtain ⟨name, -, h⟩ := h
  split_ifs at h
  obtain ⟨hostIP, hname, h⟩ := Option.bind_eq_some_iff.mp h
  obtain ⟨addrList, -, hname⟩ := Option.bind_eq_some_iff.mp hname
  obtain ⟨a, -, ha⟩ := Option.bind_eq_some_iff.mp hname
  obtain rfl := Option.some.inj ha
  split_ifs at h with hpriv
  exact ⟨a, (Option.some.inj h).symm, Bool.eq_false_iff.mpr hpriv⟩

/-- **`determineHost`** returns what the user set, or the dotted quad of an address. -/
theorem determineHost_eq (hnumeric : NumericHost sys.getnameinfo) (h : determineHost sys = some host) :
    (sys.ignIp = some host ∧ host ≠ []) ∨ ∃ a, host = inetNtoa a := by
  unfold determineHost at h
  cases hset : sys.ignIp.filter (· ≠ []) with
  | some ip =>
    rw [hset] at h
    obtain rfl : ip = host := Option.some.inj h
    obtain ⟨hip, hne⟩ := Option.filter_eq_some_iff.mp hset
    exact .inl ⟨hip, of_decide_eq_true hne⟩
  | none =>
    rw [hset] at h
    dsimp only at h
    cases hname : hostnameAddress sys with
    | some hostIP =>
      rw [hname] at h
      obtain ⟨a, ha, -⟩ := hostnameAddress_eq hname
      exact .inr ⟨a, (Option.some.inj h).symm.trans ha⟩
    | none =>
      rw [hname] at h
      obtain ⟨ifp, -, rfl⟩ := Option.map_eq_some_iff.mp h
      exact .inr ⟨_, searchInterfaces_eq hnumeric ifp⟩

end Host

end NetUtils

end IgnTransport
