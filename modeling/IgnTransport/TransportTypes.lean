import Mathlib

/-!
# IgnTransport.TransportTypes — strings, scopes and addresses

The types that every other module shares.  A `std::string` is its byte list (NUL included), a `std::map` with string
keys the ordered map of the standard library: its keys are compared bytewise, which is the order the C++ iteration
follows.
-/

namespace IgnTransport

/-- `std::string`. -/
abbrev Str := List UInt8

/-- `std::map<std::string, V>`. -/
abbrev StrMap (V : Type) := Std.ExtTreeMap Str V

/-- `std::set<std::string>`. -/
abbrev StrSet := Std.ExtTreeSet Str

/-- The bytes of an ASCII literal. -/
def ascii (cs : List Char) : Str := cs.map fun c => UInt8.ofNat c.toNat

/-- `Scope`, as the byte that travels: the three enumerators are 0, 1 and 2, and a received byte is cast to the
enumeration without a check. -/
structure Scope where
  value : UInt8
  deriving DecidableEq, Repr

namespace Scope

/-- Topic only available to subscribers in the same process as the publisher. -/
def process : Scope := ⟨0⟩

/-- Topic only available to subscribers in the same machine as the publisher. -/
def host : Scope := ⟨1⟩

/-- Topic available to any subscriber. -/
def all : Scope := ⟨2⟩

end Scope

/-- `MsgType`: regular pub/sub messages and service calls. -/
inductive MsgType where
  | msg
  | srv
  deriving DecidableEq, Repr

/-- `Address_t`. -/
structure Address where
  addr : Str
  ctrl : Str
  nUuid : Str
  scope : Scope
  deriving DecidableEq, Repr

/-- `Addresses_M`: the addresses of a topic, by process UUID. -/
abbrev Addresses := StrMap (List Address)

/-- The string of a `Uuid`. -/
abbrev Uuid := {s : Str // s.length = 36}

/-- An endpoint that ZeroMQ has bound: the C string that `getsockopt` wrote into `char bindEndPoint[1024]`. -/
abbrev Endpoint := {s : Str // s ≠ [] ∧ s.length < 1024 ∧ 0 ∉ s}

/-- `c_str()`, as a callee that takes a C string sees it. -/
def cStr (s : Str) : Str := s.takeWhile fun c => c ≠ 0

theorem cStr_eq_self {s : Str} (h : 0 ∉ s) : cStr s = s :=
  List.takeWhile_eq_self_iff.mpr fun _ hc => decide_eq_true fun h0 => h (h0 ▸ hc)

theorem cStr_cStr (s : Str) : cStr (cStr s) = cStr s := by
  refine List.takeWhile_eq_self_iff.mpr fun c hc => ?_
  have hne := List.mem_takeWhile_imp hc
  exact hne

/-- `Timestamp`: a reading of the steady clock, in nanoseconds. -/
abbrev Timestamp := ℕ

end IgnTransport
