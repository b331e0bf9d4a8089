import GuardWall.Firewall.Mutation
import GuardWall.Foundation.Table

/-! The table `inet guard` of a host as nft keeps it, the commands Guard's batches are made of, and
what `parseRuleset` reads from the listing. -/
namespace GuardWall.Nftables

open GuardWall.Core GuardWall.Firewall GuardWall.Foundation

inductive SetName where
  | allow (v4 : Bool)
  | protectedTargets (v4 : Bool)
  | ban (scope : ManagedScope) (v4 : Bool)
  deriving DecidableEq, Repr

namespace SetName

def v4 : SetName → Bool
  | allow v4 => v4
  | protectedTargets v4 => v4
  | ban _ v4 => v4

def isBan : SetName → Bool
  | ban .. => true
  | _ => false

def text : SetName → String
  | allow v4 => if v4 then "allow_v4" else "allow_v6"
  | protectedTargets v4 => if v4 then "protected_v4" else "protected_v6"
  | ban .input v4 => if v4 then "ban_input_v4" else "ban_input_v6"
  | ban .forward v4 => if v4 then "ban_forward_v4" else "ban_forward_v6"

end SetName

def managedSets : List SetName :=
  [.allow true, .allow false, .protectedTargets true, .protectedTargets false,
    .ban .input true, .ban .input false, .ban .forward true, .ban .forward false]

inductive ChainName where
  | hooked (scope : ManagedScope)
  | guardPolicy
  deriving DecidableEq, Repr

def managedChains : List ChainName := [.hooked .input, .hooked .forward, .guardPolicy]

inductive Verdict where
  | return
  | drop
  deriving DecidableEq, Repr

inductive Rule where
  /-- `counter comment "guard/v1 infrastructure/v1"` -/
  | infrastructureMarker
  /-- `counter comment "guard/v1 policy/v1"` -/
  | policyMarker
  /-- `ip saddr @set verdict` -/
  | source (set : SetName) (verdict : Verdict)
  deriving DecidableEq, Repr

structure Element where
  cidr : Cidr
  remainingMS : Option Nat
  deriving DecidableEq, Repr

structure NftSet where
  v4 : Bool
  timeout : Bool
  elements : List Element
  deriving DecidableEq, Repr

structure Chain where
  /-- `type filter hook … priority 0; policy accept;` -/
  hook : Option ManagedScope
  rules : List Rule
  deriving DecidableEq, Repr

structure GuardTable where
  sets : SetName → Option NftSet
  chains : ChainName → Option Chain

abbrev Host : Type := Option GuardTable

inductive Command where
  | addTable
  | addSet (name : SetName) (v4 timeout : Bool)
  | addChain (name : ChainName) (hook : Option ManagedScope)
  | addRule (chain : ChainName) (rule : Rule)
  | flushSet (name : SetName)
  | flushChain (name : ChainName)
  | addElements (name : SetName) (items : List (Cidr × Option Nat))
  | deleteElement (name : SetName) (cidr : Cidr)
  | deleteTable
  deriving DecidableEq, Repr

/-- An interval set takes an element it has without a change and refuses one that overlaps
another. -/
def NftSet.add (s : NftSet) (item : Cidr × Option Nat) : Option NftSet :=
  if item.1.addr.is4 != s.v4 || (item.2.isSome && !s.timeout) then none
  else if s.elements.any fun e => e.cidr == item.1 then some s
  else if s.elements.any fun e => e.cidr.overlaps item.1 then none
  else some { s with elements := s.elements ++ [⟨item.1, item.2⟩] }

def NftSet.delete (s : NftSet) (cidr : Cidr) : Option NftSet :=
  if s.elements.any fun e => e.cidr == cidr then
    some { s with elements := s.elements.filter fun e => e.cidr != cidr }
  else none

namespace GuardTable

def setSet (t : GuardTable) (name : SetName) (s : NftSet) : GuardTable :=
  { t with sets := Function.update t.sets name (some s) }

def setChain (t : GuardTable) (name : ChainName) (c : Chain) : GuardTable :=
  { t with chains := Function.update t.chains name (some c) }

@[simp] theorem sets_setSet_self (t : GuardTable) (name : SetName) (s : NftSet) :
    (t.setSet name s).sets name = some s := Function.update_self ..

theorem sets_setSet_ne (t : GuardTable) {name other : SetName} (s : NftSet) (differ : other ≠ name) :
    (t.setSet name s).sets other = t.sets other := Function.update_of_ne differ ..

@[simp] theorem chains_setChain_self (t : GuardTable) (name : ChainName) (c : Chain) :
    (t.setChain name c).chains name = some c := Function.update_self ..

def exec (t : GuardTable) : Command → Option GuardTable
  | .addTable => some t
  | .addSet name v4 timeout =>
      match t.sets name with
      | none => some (t.setSet name ⟨v4, timeout, []⟩)
      | some s => if s.v4 == v4 && s.timeout == timeout then some t else none
  | .addChain name hook =>
      match t.chains name with
      | none => some (t.setChain name ⟨hook, []⟩)
      | some c => if c.hook == hook then some t else none
  | .addRule chain rule => do
      let c ← t.chains chain
      return t.setChain chain { c with rules := c.rules ++ [rule] }
  | .flushSet name => do
      let s ← t.sets name
      return t.setSet name { s with elements := [] }
  | .flushChain name => do
      let c ← t.chains name
      return t.setChain name { c with rules := [] }
  | .addElements name items => do
      let s ← t.sets name
      let s ← items.foldlM NftSet.add s
      return t.setSet name s
  | .deleteElement name cidr => do
      let s ← t.sets name
      let s ← s.delete cidr
      return t.setSet name s
  | .deleteTable => none

end GuardTable

/-- One command of a batch; every command but the first of a new table needs the table. -/
def exec : Host → Command → Option Host
  | none, .addTable => some (some ⟨fun _ => none, fun _ => none⟩)
  | none, _ => none
  | some _, .deleteTable => some none
  | some t, command => (t.exec command).map some

/-- `nft --file -`: a batch is carried out as a whole or not at all. -/
def runBatch (host : Host) (batch : List Command) : Option Host := batch.foldlM exec host

/-- An element after some time; `none` if its timeout has passed. -/
def Element.after (elapsedMS : Nat) (e : Element) : Option Element :=
  match e.remainingMS with
  | none => some e
  | some ms => if ms ≤ elapsedMS then none else some { e with remainingMS := some (ms - elapsedMS) }

def NftSet.after (elapsedMS : Nat) (s : NftSet) : NftSet :=
  { s with elements := s.elements.filterMap (Element.after elapsedMS) }

def GuardTable.after (elapsedMS : Nat) (t : GuardTable) : GuardTable :=
  { t with sets := fun name => (t.sets name).map (NftSet.after elapsedMS) }

/-- `math.MaxInt64` nanoseconds, the longest `time.Duration`. -/
def maxDurationNS : Int := 9223372036854775807

/-- A reading of `time.Now`, in nanoseconds since 1970. It is past the first second, and a duration
after it is still in the range of `UnixMicro`. -/
structure Reading where
  ns : Int
  early : 1000000000 ≤ ns
  late : ns + maxDurationNS ≤ maxInt64 * 1000

/-- `time.Duration(seconds) * time.Second`, which wraps like every product of `int64` values. -/
def secondsDuration (seconds : Int) : Int := (seconds * 1000000000).bmod 18446744073709551616

def expiryUnixMicro (now : Reading) (remainingSeconds : Int) : Int :=
  (now.ns / 1000000000 * 1000000000 + secondsDuration remainingSeconds) / 1000

/-- `parseElementPrefix` of the listed element. A prefix of length 0 is listed with `"len": 0`, which
is read as no length at all. -/
def parseElementPrefix (c : Cidr) : Option Cidr :=
  let read : Cidr := if c.bits = 0 then ⟨c.addr, c.addr.bitLen, le_rfl⟩ else c
  if read = read.masked then some read else none

/-- `element`, with its expiry as a Unix time in microseconds. -/
structure Listed where
  cidr : Cidr
  expiresUS : Option Int
  deriving DecidableEq, Repr

/-- The listing of the element is one that is read: a network with a timeout is not, since nft lists
it with an object in the place of the address text. -/
def Element.legible (e : Element) : Bool :=
  e.remainingMS.isNone || e.cidr.bits == e.cidr.addr.bitLen

/-- One element in `nftSetElements`; nft lists the time left in whole seconds. -/
def listElement (now : Reading) (e : Element) : Option Listed := do
  if !e.legible then none
  else
    let cidr ← parseElementPrefix e.cidr
    match e.remainingMS with
    | none => return ⟨cidr, none⟩
    | some ms =>
        let untilUS := expiryUnixMicro now (ms / 1000 : Nat)
        if untilUS ≤ 0 then none else return ⟨cidr, some untilUS⟩

def nftSetElements (now : Reading) (s : NftSet) : Option (List Listed) :=
  s.elements.mapM (listElement now)

def validManagedSet (name : SetName) (s : NftSet) : Bool :=
  s.v4 == name.v4 && s.timeout == name.isBan

def validManagedChain (name : ChainName) (c : Chain) : Bool :=
  match name with
  | .guardPolicy => c.hook.isNone
  | .hooked scope => c.hook == some scope

def expectedRule (chain : ManagedScope) (rule : Rule) : Bool :=
  match rule with
  | .source (.ban scope _) verdict => verdict == .drop && scope == chain
  | .source _ verdict => verdict == .return
  | _ => false

def validManagedRule (chain : ChainName) (rule : Rule) : Bool :=
  match chain with
  | .guardPolicy => rule == .infrastructureMarker || rule == .policyMarker
  | .hooked scope => expectedRule scope rule

def expectedRules (scope : ManagedScope) : List Rule :=
  [.source (.allow true) .return, .source (.protectedTargets true) .return,
    .source (.ban scope true) .drop, .source (.allow false) .return,
    .source (.protectedTargets false) .return, .source (.ban scope false) .drop]

def validManagedRuleCounts (rules : ChainName → List Rule) : Bool :=
  let markers := rules .guardPolicy
  markers.length == 1 + markers.count .policyMarker && markers.count .infrastructureMarker == 1 &&
  markers.count .policyMarker ≤ 1 && rules (.hooked .input) == expectedRules .input &&
  rules (.hooked .forward) == expectedRules .forward

/-- `rulesetState`: what is read of the guard table. -/
structure RulesetState where
  managed : Bool
  ownershipConflict : Bool
  policy : Bool
  sets : SetName → List Listed

def GuardTable.rules (t : GuardTable) (name : ChainName) : List Rule :=
  ((t.chains name).map Chain.rules).getD []

/-- The set is missing, has another type or flags, or an element that cannot be read. -/
def GuardTable.setConflict (t : GuardTable) (now : Reading) (name : SetName) : Bool :=
  match t.sets name with
  | none => true
  | some s => !validManagedSet name s || (nftSetElements now s).isNone

/-- The chain is missing, is another one, or has a rule Guard would not add. -/
def GuardTable.chainConflict (t : GuardTable) (name : ChainName) : Bool :=
  match t.chains name with
  | none => true
  | some c => !validManagedChain name c || !c.rules.all (validManagedRule name)

/-- `parseRuleset` of a listing with handles. -/
def parseRuleset (now : Reading) : Host → RulesetState
  | none => ⟨false, false, false, fun _ => []⟩
  | some t =>
      { managed := true
        ownershipConflict :=
          managedSets.any (t.setConflict now) || managedChains.any t.chainConflict ||
          !(t.rules .guardPolicy).contains .infrastructureMarker ||
          !validManagedRuleCounts t.rules
        policy := (t.rules .guardPolicy).contains .policyMarker
        sets := fun name => ((t.sets name).bind (nftSetElements now)).getD [] }

end GuardWall.Nftables
