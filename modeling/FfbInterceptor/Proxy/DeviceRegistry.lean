import FfbInterceptor.Proxy.EffectRegistry

/-! The registry of `WrapperDevice8State`: threads that publish real devices, count references and
release them, one shared access at a time, in any order. -/
namespace FfbInterceptor.Proxy
open Library Library.Lifetimes Library.Registry

/-- The control block that the ANSI and the Unicode wrapper of a device share. `u` stands for
the template parameter; a wrapper is there or not. -/
structure WrapperDevice8State where
  realA : Option Pointer := none
  realW : Option Pointer := none
  wrapperA : Bool := false
  wrapperW : Bool := false
  identity : Option Pointer := none

namespace WrapperDevice8State

variable (x : WrapperDevice8State) (u : Bool)

def real : Option Pointer := if u then x.realW else x.realA

def wrapper : Bool := if u then x.wrapperW else x.wrapperA

def setReal (p : Option Pointer) : WrapperDevice8State :=
  if u then { x with realW := p } else { x with realA := p }

def setWrapper (w : Bool) : WrapperDevice8State :=
  if u then { x with wrapperW := w } else { x with wrapperA := w }

def valid : Bool := (x.realA.isNone || x.wrapperA) && (x.realW.isNone || x.wrapperW)

end WrapperDevice8State

/-- A control block owns its real interfaces, and none of the identity it keeps. -/
instance : Owner WrapperDevice8State Pointer where
  default := {}
  owns p x := one x.realA p + one x.realW p
  owns_default _ := rfl

namespace WrapperDevice8State

variable (x : WrapperDevice8State) (u : Bool)

@[simp] theorem real_setReal (p : Option Pointer) : (x.setReal u p).real u = p := by
  cases u <;> rfl

@[simp] theorem real_setReal_other (p : Option Pointer) :
    (x.setReal u p).real (!u) = x.real (!u) ∧ (x.setReal (!u) p).real u = x.real u := by
  cases u <;> exact ⟨rfl, rfl⟩

@[simp] theorem real_empty : ({} : WrapperDevice8State).real u = none := by
  cases u <;> rfl

@[simp] theorem real_setWrapper (v w : Bool) : (x.setWrapper v w).real u = x.real u := by
  cases u <;> cases v <;> rfl

@[simp] theorem identity_setReal (p : Option Pointer) : (x.setReal u p).identity = x.identity := by
  cases u <;> rfl

theorem owns_eq (p : Pointer) : Owner.owns p x = one (x.real u) p + one (x.real (!u)) p := by
  cases u
  · rfl
  · exact Nat.add_comm ..

end WrapperDevice8State

/-- What is left to do for a call after the locked part of a release. -/
inductive AfterRelease where
  | released
  | reused (real : Pointer) (candidate existing : Nat)
  | discarded (real : Pointer) (candidate : Nat)
  deriving DecidableEq

inductive DeviceCall where
  | idle
  | constructing (u : Bool) (real : Pointer)
  | allocated (u : Bool) (real : Pointer) (candidate : Nat)
  | aliased (u : Bool) (real : Pointer) (candidate : Nat)
  | identified (u : Bool) (real : Pointer) (candidate : Nat) (identity : Pointer)
  | constructed (u : Bool) (real : Pointer) (candidate : Nat)
  | reusing (real : Pointer) (candidate existing : Nat)
  | discarding (real : Pointer) (candidate : Nat)
  | deleting (state : Nat) (after : AfterRelease)
  | returning (after : AfterRelease)
  deriving DecidableEq

/-- The wrapper that a call is about to return. -/
def AfterRelease.holds (state : Nat) : AfterRelease → Nat
  | reused _ _ existing => one (some existing) state
  | _ => 0

/-- The reference that a failed call leaves with its caller. -/
def AfterRelease.lends (pointer : Pointer) : AfterRelease → Nat
  | discarded real _ => one (some real) pointer
  | _ => 0

def AfterRelease.passed (pointer : Pointer) : AfterRelease → Nat
  | reused real _ _ | discarded real _ => one (some real) pointer
  | released => 0

namespace DeviceCall

/-- The candidate is the call's own until it is published or released. -/
def builds (state : Nat) : DeviceCall → Nat
  | allocated _ _ c | aliased _ _ c | identified _ _ c _ | constructed _ _ c | reusing _ c _
  | discarding _ c =>
    one (some c) state
  | _ => 0

def holds (state : Nat) (call : DeviceCall) : Nat :=
  call.builds state +
    match call with
    | reusing _ _ existing => one (some existing) state
    | deleting _ after | returning after => after.holds state
    | _ => 0

def deletes (state : Nat) : DeviceCall → Nat
  | deleting c _ => one (some c) state
  | _ => 0

/-- The caller's reference before and after the candidate has it, and the one to the identity. -/
def lends (pointer : Pointer) : DeviceCall → Nat
  | constructing _ real | discarding real _ => one (some real) pointer
  | identified _ _ _ i => one (some i) pointer
  | deleting _ after | returning after => after.lends pointer
  | _ => 0

/-- The reference that the caller of `publish_or_add_ref` has passed. -/
def passed (pointer : Pointer) : DeviceCall → Nat
  | constructing _ real | allocated _ real _ | aliased _ real _ | identified _ real _ _
  | constructed _ real _ | reusing real _ _ | discarding real _ => one (some real) pointer
  | deleting _ after | returning after => after.passed pointer
  | idle => 0

instance : Accounts DeviceCall Pointer where
  holds := holds
  builds := builds
  deletes := deletes
  lends := lends
  passed := passed
  builds_le_holds _ _ := Nat.le_add_right ..

@[simp] theorem holds_eq (e : Nat) (call : DeviceCall) : Accounts.holds e call = holds e call := rfl

@[simp] theorem builds_eq (e : Nat) (call : DeviceCall) : Accounts.builds e call = builds e call := rfl

@[simp] theorem deletes_eq (e : Nat) (call : DeviceCall) : Accounts.deletes e call = deletes e call := rfl

@[simp] theorem lends_eq (p : Pointer) (call : DeviceCall) : Accounts.lends p call = lends p call := rfl

@[simp] theorem holds_idle (e : Nat) : holds e idle = 0 := rfl

@[simp] theorem builds_idle (e : Nat) : builds e idle = 0 := rfl

@[simp] theorem deletes_idle (e : Nat) : deletes e idle = 0 := rfl

@[simp] theorem lends_idle (p : Pointer) : lends p idle = 0 := rfl

end DeviceCall

abbrev DeviceRegistry := World WrapperDevice8State DeviceCall Pointer

inductive DeviceRequest where
  | unknown
  | device (u : Bool)
  | other

namespace DeviceRegistry

def initial (threads : Nat) : DeviceRegistry := World.initial (List.replicate threads .idle)

variable (s : DeviceRegistry) (t : Nat)

/-- `publish_or_add_ref` is called with a reference that the caller owns, or with null. -/
def publish (u : Bool) (real : Option Pointer) : DeviceRegistry :=
  match s.calls[t]?, real with
  | some .idle, some p => if 0 < s.callers p then (s.consume real).go t (.constructing u p) else s
  | some .idle, none => s.log (.returned t none none none false)
  | _, _ => s

def allocateCandidate (candidate state : Bool) : DeviceRegistry :=
  match s.calls[t]? with
  | some (.constructing u real) =>
    if candidate && state then
      (s.allocate ((WrapperDevice8State.setReal {} u (some real)).setWrapper u true)).go t
        (.allocated u real s.objects.length)
    else ((s.entrust (some real)).log (.returned t (some real) none none false)).go t .idle
  | _ => s

def queryAlias (answer : Option Pointer) (wrapper : Bool) : DeviceRegistry :=
  match s.calls[t]? with
  | some (.allocated u real c) =>
    ((s.acquire answer).amend c fun x =>
      (x.setReal (!u) answer).setWrapper (!u) (answer.isSome && wrapper)).go t (.aliased u real c)
  | _ => s

def queryIdentity (answer : Option Pointer) : DeviceRegistry :=
  match s.calls[t]? with
  | some (.aliased u real c) =>
    match answer with
    | some i => (s.acquire answer).go t (.identified u real c i)
    | none => s.go t (.constructed u real c)
  | _ => s

/-- The identity is kept as a key and the reference to it released. -/
def keepIdentity : DeviceRegistry :=
  match s.calls[t]? with
  | some (.identified u real c i) =>
    ((s.amend c ({ · with identity := some i })).relinquish (some i)).go t (.constructed u real c)
  | _ => s

def isWanted (real : Pointer) (identity : Option Pointer) (e : Nat) : Bool :=
  let x := (s.object e).body
  (x.realA = some real ∨ x.realW = some real) ∨ (identity.isSome ∧ x.identity = identity)

/-- `discard_unpublished` leaves the caller its reference before it releases the candidate. -/
def discard (u : Bool) (real : Pointer) (c : Nat) : DeviceRegistry :=
  (s.amend c (·.setReal u none)).go t (.discarding real c)

/-- The validity check and the locked part of `publish_or_add_ref`. -/
def resolve : DeviceRegistry :=
  match s.calls[t]? with
  | some (.constructed u real c) =>
    let x := (s.object c).body
    if x.valid then
      match s.registry.find? (s.isWanted real x.identity) with
      | some e =>
        if (s.object e).body.wrapper u then
          ((s.addRef e).log (.found t e (s.object e).refCount)).go t (.reusing real c e)
        else s.discard t u real c
      | none =>
        ((((s.register c).log (.inserted t c)).handOut (some c)).log
          (.returned t (some real) (some c) (some c) true)).go t .idle
    else s.discard t u real c
  | _ => s

def afterRelease (e : Nat) (after : AfterRelease) : DeviceCall :=
  if (s.object e).refCount - 1 = 0 then .deleting e after else .returning after

def releaseCandidate : DeviceRegistry :=
  match s.calls[t]? with
  | some (.reusing real c existing) =>
    (s.release c).go t (s.afterRelease c (.reused real c existing))
  | some (.discarding real c) => (s.release c).go t (s.afterRelease c (.discarded real c))
  | _ => s

def delete : DeviceRegistry :=
  match s.calls[t]? with
  | some (.deleting e after) =>
    ((((s.relinquish (s.object e).body.realA).relinquish (s.object e).body.realW).free e).log
      (.deleted e)).go t (.returning after)
  | _ => s

def finish : DeviceRegistry :=
  match s.calls[t]? with
  | some (.returning .released) => s.go t .idle
  | some (.returning (.reused real c existing)) =>
    ((s.handOut (some existing)).log (.returned t (some real) (some c) (some existing) false)).go t .idle
  | some (.returning (.discarded real c)) =>
    ((s.entrust (some real)).log (.returned t (some real) (some c) none false)).go t .idle
  | _ => s

def clientAddRef (e : Nat) : DeviceRegistry := if 0 < s.clients e then (s.addRef e).handOut (some e) else s

/-- `QueryInterface` on the `u` wrapper by the owner of a reference: for the interfaces that have
a wrapper it counts, every other request is answered by the real interface, if there is one. -/
def queryInterface (e : Nat) (u : Bool) (request : DeviceRequest) (answer : Option Pointer) :
    DeviceRegistry :=
  let forward : DeviceRegistry :=
    if 0 < s.clients e ∧ ((s.object e).body.real u).isSome then
      ((s.acquire answer).entrust answer).log (.granted answer)
    else s
  match request with
  | .unknown => s.clientAddRef e
  | .device v => if (s.object e).body.wrapper v then s.clientAddRef e else forward
  | .other => forward

/-- `Release` by the owner of a reference, up to the end of the locked part. -/
def clientRelease (e : Nat) : DeviceRegistry :=
  if s.calls[t]? = some .idle ∧ 0 < s.clients e then
    ((s.release e).takeBack (some e)).go t (s.afterRelease e .released)
  else s

def obtain (p : Pointer) : DeviceRegistry :=
  ((s.acquire (some p)).entrust (some p)).log (.granted (some p))

def drop (p : Pointer) : DeviceRegistry :=
  if 0 < s.callers p then ((s.relinquish (some p)).consume (some p)).log (.dropped p) else s

end DeviceRegistry

inductive DeviceAction where
  | publish (t : Nat) (u : Bool) (real : Option Pointer)
  | allocate (t : Nat) (candidate state : Bool)
  | queryAlias (t : Nat) (answer : Option Pointer) (wrapper : Bool)
  | queryIdentity (t : Nat) (answer : Option Pointer)
  | keepIdentity (t : Nat)
  | resolve (t : Nat)
  | releaseCandidate (t : Nat)
  | delete (t : Nat)
  | finish (t : Nat)
  | addRef (e : Nat)
  | queryInterface (e : Nat) (u : Bool) (request : DeviceRequest) (answer : Option Pointer)
  | release (t e : Nat)
  | obtain (p : Pointer)
  | drop (p : Pointer)

/-- A step that does not fit where its thread stands changes nothing. -/
def DeviceRegistry.step (s : DeviceRegistry) : DeviceAction → DeviceRegistry
  | .publish t u real => s.publish t u real
  | .allocate t candidate state => s.allocateCandidate t candidate state
  | .queryAlias t answer wrapper => s.queryAlias t answer wrapper
  | .queryIdentity t answer => s.queryIdentity t answer
  | .keepIdentity t => s.keepIdentity t
  | .resolve t => s.resolve t
  | .releaseCandidate t => s.releaseCandidate t
  | .delete t => s.delete t
  | .finish t => s.finish t
  | .addRef e => s.clientAddRef e
  | .queryInterface e u request answer => s.queryInterface e u request answer
  | .release t e => s.clientRelease t e
  | .obtain p => s.obtain p
  | .drop p => s.drop p

end FfbInterceptor.Proxy
