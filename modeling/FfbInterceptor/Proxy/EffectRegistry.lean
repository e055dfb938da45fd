import FfbInterceptor.Library.Registry
import FfbInterceptor.Library.Runs

/-! The registry of `WrapperEffect`: threads that wrap created effects, look up the wrapper of
a real one and count references, one shared access at a time, in any order. -/
namespace FfbInterceptor.Proxy
open Library Library.Lifetimes Library.Registry

abbrev Pointer := UInt64

/-- What a `WrapperEffect` keeps besides its counter; a freed one keeps nothing. -/
structure WrapperEffect where
  real : Option Pointer := none
  identity : Option Pointer := none

/-- Where a thread stands in the constructor, in `find_and_add_ref` or in the last `Release`. -/
inductive EffectCall where
  | idle
  | constructing (real : Option Pointer) (effect : Nat)
  | identified (real : Option Pointer) (effect : Nat) (identity : Pointer)
  | registering (real : Option Pointer) (effect : Nat)
  | seeking (real : Pointer) (identity : Option Pointer)
  | leaving (identity : Option Pointer) (result : Option Nat)
  | deleting (effect : Nat)
  deriving DecidableEq

namespace EffectCall

/-- The constructor has the wrapper to itself until it has registered it. -/
def builds (effect : Nat) : EffectCall → Nat
  | constructing _ e | identified _ e _ | registering _ e => one (some e) effect
  | _ => 0

def holds (effect : Nat) : EffectCall → Nat
  | constructing _ e | identified _ e _ | registering _ e => one (some e) effect
  | leaving _ result => one result effect
  | _ => 0

def deletes (effect : Nat) : EffectCall → Nat
  | deleting e => one (some e) effect
  | _ => 0

/-- The references that `QueryInterface` for the identity has returned. -/
def lends (pointer : Pointer) : EffectCall → Nat
  | identified _ _ i => one (some i) pointer
  | seeking _ identity | leaving identity _ => one identity pointer
  | _ => 0

def passed (pointer : Pointer) : EffectCall → Nat
  | constructing real _ | identified real _ _ | registering real _ => one real pointer
  | _ => 0

instance : Accounts EffectCall Pointer where
  holds := holds
  builds := builds
  deletes := deletes
  lends := lends
  passed := passed
  builds_le_holds _ call := by cases call <;> simp only [builds, holds, Nat.le_refl, Nat.zero_le]

@[simp] theorem holds_eq (e : Nat) (call : EffectCall) : Accounts.holds e call = holds e call := rfl

@[simp] theorem builds_eq (e : Nat) (call : EffectCall) : Accounts.builds e call = builds e call := rfl

@[simp] theorem deletes_eq (e : Nat) (call : EffectCall) : Accounts.deletes e call = deletes e call := rfl

@[simp] theorem lends_eq (p : Pointer) (call : EffectCall) : Accounts.lends p call = lends p call := rfl

@[simp] theorem holds_idle (e : Nat) : holds e idle = 0 := rfl

@[simp] theorem builds_idle (e : Nat) : builds e idle = 0 := rfl

@[simp] theorem deletes_idle (e : Nat) : deletes e idle = 0 := rfl

@[simp] theorem lends_idle (p : Pointer) : lends p idle = 0 := rfl

end EffectCall

/-- A wrapper owns one reference to its real effect, and none to the identity it keeps. -/
instance : Owner WrapperEffect Pointer where
  default := {}
  owns p x := one x.real p
  owns_default _ := rfl

abbrev EffectRegistry := World WrapperEffect EffectCall Pointer

namespace EffectRegistry

def initial (threads : Nat) : EffectRegistry := World.initial (List.replicate threads .idle)

variable (s : EffectRegistry)

/-- `new (std::nothrow) WrapperEffect(real, ..)`: the wrapper owns the caller's reference. -/
def create (t : Nat) (real : Option Pointer) (allocated : Bool) : EffectRegistry :=
  match s.calls[t]? with
  | some .idle =>
    if real.all (0 < s.callers ·) then
      if allocated then
        ((s.consume real).allocate { real }).go t (.constructing real s.objects.length)
      else s.log (.returned t real none none false)
    else s
  | _ => s

def queryIdentity (t : Nat) (answer : Option Pointer) : EffectRegistry :=
  match s.calls[t]? with
  | some (.constructing real e) =>
    match (s.object e).body.real, answer with
    | some _, some i => (s.acquire (some i)).go t (.identified real e i)
    | _, _ => s.go t (.registering real e)
  | _ => s

/-- The constructor keeps the identity as a key and releases the reference to it. -/
def keepIdentity (t : Nat) : EffectRegistry :=
  match s.calls[t]? with
  | some (.identified real e i) =>
    ((s.amend e ({ · with identity := some i })).relinquish (some i)).go t (.registering real e)
  | _ => s

/-- `register_instance`, under the lock; the new wrapper is the caller's. -/
def registerInstance (t : Nat) : EffectRegistry :=
  match s.calls[t]? with
  | some (.registering real e) =>
    ((((s.register e).log (.inserted t e)).handOut (some e)).log
      (.returned t real (some e) (some e) true)).go t .idle
  | _ => s

/-- `find_and_add_ref` asks the interface it is given for its identity. -/
def find (t : Nat) (real answer : Option Pointer) : EffectRegistry :=
  match s.calls[t]?, real with
  | some .idle, some p => (s.acquire answer).go t (.seeking p answer)
  | some .idle, none => s.log (.returned t none none none false)
  | _, _ => s

def isWanted (real : Pointer) (identity : Option Pointer) (e : Nat) : Bool :=
  (s.object e).body.real = some real ∨ (identity.isSome ∧ (s.object e).body.identity = identity)

/-- The loop over the registry, under the shared lock: the first match gets one more reference. -/
def look (t : Nat) : EffectRegistry :=
  match s.calls[t]? with
  | some (.seeking real identity) =>
    match s.registry.find? (s.isWanted real identity) with
    | some e => ((s.addRef e).log (.found t e (s.object e).refCount)).go t (.leaving identity (some e))
    | none => s.go t (.leaving identity none)
  | _ => s

/-- `find_and_add_ref` releases the identity and returns what it found. -/
def leave (t : Nat) : EffectRegistry :=
  match s.calls[t]? with
  | some (.leaving identity result) =>
    (((s.relinquish identity).handOut result).log (.returned t none none result false)).go t .idle
  | _ => s

def clientAddRef (e : Nat) : EffectRegistry := if 0 < s.clients e then (s.addRef e).handOut (some e) else s

/-- `QueryInterface` by the owner of a reference: for the wrapper's own interfaces it counts,
every other request is answered by the real interface, if there is one. -/
def queryInterface (e : Nat) (own : Bool) (answer : Option Pointer) : EffectRegistry :=
  if own then s.clientAddRef e
  else if 0 < s.clients e then
    match (s.object e).body.real, answer with
    | some _, some p => ((s.acquire (some p)).entrust (some p)).log (.granted (some p))
    | _, _ => s
  else s

def afterRelease (e : Nat) : EffectCall := if (s.object e).refCount - 1 = 0 then .deleting e else .idle

/-- `Release` by the owner of a reference, up to the end of the locked part. -/
def clientRelease (t e : Nat) : EffectRegistry :=
  if s.calls[t]? = some .idle ∧ 0 < s.clients e then
    ((s.release e).takeBack (some e)).go t (s.afterRelease e)
  else s

def delete (t : Nat) : EffectRegistry :=
  match s.calls[t]? with
  | some (.deleting e) =>
    (((s.relinquish (s.object e).body.real).free e).log (.deleted e)).go t .idle
  | _ => s

def obtain (p : Pointer) : EffectRegistry :=
  ((s.acquire (some p)).entrust (some p)).log (.granted (some p))

def drop (p : Pointer) : EffectRegistry :=
  if 0 < s.callers p then ((s.relinquish (some p)).consume (some p)).log (.dropped p) else s

end EffectRegistry

inductive EffectAction where
  | create (t : Nat) (real : Option Pointer) (allocated : Bool)
  | queryIdentity (t : Nat) (answer : Option Pointer)
  | keepIdentity (t : Nat)
  | registerInstance (t : Nat)
  | find (t : Nat) (real answer : Option Pointer)
  | look (t : Nat)
  | leave (t : Nat)
  | addRef (e : Nat)
  | queryInterface (e : Nat) (own : Bool) (answer : Option Pointer)
  | release (t e : Nat)
  | delete (t : Nat)
  | obtain (p : Pointer)
  | drop (p : Pointer)

/-- A step that does not fit where its thread stands changes nothing. -/
def EffectRegistry.step (s : EffectRegistry) : EffectAction → EffectRegistry
  | .create t real allocated => s.create t real allocated
  | .queryIdentity t answer => s.queryIdentity t answer
  | .keepIdentity t => s.keepIdentity t
  | .registerInstance t => s.registerInstance t
  | .find t real answer => s.find t real answer
  | .look t => s.look t
  | .leave t => s.leave t
  | .addRef e => s.clientAddRef e
  | .queryInterface e own answer => s.queryInterface e own answer
  | .release t e => s.clientRelease t e
  | .delete t => s.delete t
  | .obtain p => s.obtain p
  | .drop p => s.drop p

end FfbInterceptor.Proxy
