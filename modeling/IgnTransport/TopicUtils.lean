import Mathlib
import IgnTransport.TransportTypes

/-!
# IgnTransport.TopicUtils — names of topics (`TopicUtils.hh`, `TopicUtils.cc`)
-/

namespace IgnTransport

namespace TopicUtils

/-- `'/'`. -/
def slash : UInt8 := 47

/-- `'@'`. -/
def atSign : UInt8 := 64

/-- `'~'`. -/
def tilde : UInt8 := 126

/-- `' '`. -/
def blank : UInt8 := 32

/-- `find("//")`: two consecutive slashes somewhere. -/
def hasDoubleSlash : Str → Bool
  | c :: d :: rest => (c = slash && d = slash) || hasDoubleSlash (d :: rest)
  | _ => false

/-- `IsValidNamespace`. -/
def isValidNamespace (ns : Str) : Bool :=
  if ns = [slash] then false
  else if ns.contains tilde then false
  else if ns.contains blank then false
  else if hasDoubleSlash ns then false
  else if ns.contains atSign then false
  else true

/-- `IsValidTopic`. -/
def isValidTopic (topic : Str) : Bool := isValidNamespace topic && !topic.isEmpty

/-- The partition part of a name: it starts with a slash and does not end with one. -/
def partitionPart (partition : Str) : Str :=
  -- If partition is not empty and does not start with slash, add it.
  let partition := if partition ≠ [] ∧ partition.head? ≠ some slash then slash :: partition else partition
  -- If the partition contains a trailing slash, remove it.
  if partition ≠ [] ∧ partition.getLast? = some slash then partition.dropLast else partition

/-- The topic part of a name: a topic that starts with a slash is absolute, any other goes behind the namespace. -/
def topicPart (ns topic : Str) : Str :=
  -- If the namespace does not contain a trailing slash, append it.
  let ns := if ns = [] ∨ ns.getLast? ≠ some slash then ns ++ [slash] else ns
  -- If the namespace does not start with slash, add it.
  let ns := if ns = [] ∨ ns.head? ≠ some slash then slash :: ns else ns
  -- If the topic ends in "/", remove it.
  let topic := if topic ≠ [] ∧ topic.getLast? = some slash then topic.dropLast else topic
  if topic ≠ [] ∧ topic.head? = some slash then topic else ns ++ topic

/-- `GetFullyQualifiedName`. -/
def getFullyQualifiedName (partition ns topic : Str) : Option Str :=
  -- Sanity check, first things first.
  if !isValidNamespace partition || !isValidNamespace ns || !isValidTopic topic then none
  else some (atSign :: partitionPart partition ++ atSign :: topicPart ns topic)

theorem getFullyQualifiedName_ne_nil {partition ns topic name : Str}
    (h : getFullyQualifiedName partition ns topic = some name) : name ≠ [] := by
  unfold getFullyQualifiedName at h
  split_ifs at h
  rw [← Option.some.inj h, List.cons_append]
  exact List.cons_ne_nil _ _

example : getFullyQualifiedName (ascii ['p']) (ascii ['n', 's']) (ascii ['t', '/']) =
    some (ascii ['@', '/', 'p', '@', '/', 'n', 's', '/', 't']) := by decide

end TopicUtils

end IgnTransport
