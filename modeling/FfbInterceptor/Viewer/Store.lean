import Mathlib.Algebra.Order.Ring.Rat
import Mathlib.Data.Rat.Floor
import FfbInterceptor.Viewer.Session

/-! The viewer's event store and what its front end takes from it (`model.py`, `main.py`,
`trace.py`). -/
namespace FfbInterceptor.Viewer

/-- The parameters that can be plotted; `other` is any other name. -/
inductive Channel where
  | magnitude | constantMagnitude | rampStart | rampEnd
  | periodicMagnitude | periodicOffset | periodicPhase | periodicPeriod
  | conditionOffset | conditionPositiveCoefficient | conditionNegativeCoefficient
  | conditionPositiveSaturation | conditionNegativeSaturation | conditionDeadBand
  | other
  deriving DecidableEq, Repr

def periodicEffectKinds : List UInt16 := [3, 4, 5, 6, 7]

def conditionEffectKinds : List UInt16 := [8, 9, 10, 11]

def Channel.normalized : Channel → Bool
  | .magnitude | .constantMagnitude | .rampStart | .rampEnd | .periodicMagnitude
  | .conditionPositiveCoefficient | .conditionNegativeCoefficient
  | .conditionPositiveSaturation | .conditionNegativeSaturation => true
  | _ => false

def Condition.value (condition : Condition) : Channel → Option Int
  | .conditionOffset => some condition.offset.toInt
  | .conditionPositiveCoefficient => some condition.positiveCoefficient.toInt
  | .conditionNegativeCoefficient => some condition.negativeCoefficient.toInt
  | .conditionPositiveSaturation => some condition.positiveSaturation.toNat
  | .conditionNegativeSaturation => some condition.negativeSaturation.toNat
  | .conditionDeadBand => some condition.deadBand.toInt
  | _ => none

/-- The observed value of a channel; `none` where the frame does not carry it. -/
def commandChannelValue (event : Frame) (channel : Channel) (conditionAxis : Int) : Option Int :=
  let periodic (value : Int32) : Option Int :=
    if event.effectKind ∈ periodicEffectKinds then some value.toInt else none
  match channel with
  | .magnitude => some event.magnitude.toInt
  | .constantMagnitude => if event.effectKind = 1 then some event.magnitude.toInt else none
  | .rampStart => if event.effectKind = 2 then some event.rampStart.toInt else none
  | .rampEnd => if event.effectKind = 2 then some event.rampEnd.toInt else none
  | .periodicMagnitude => periodic event.periodicMagnitude
  | .periodicOffset => periodic event.periodicOffset
  | .periodicPhase => periodic event.periodicPhase
  | .periodicPeriod => periodic event.periodicPeriod
  | channel =>
    if event.effectKind ∉ conditionEffectKinds then none
    else if 0 ≤ conditionAxis ∧ conditionAxis < event.conditions.length then
      event.conditions[conditionAxis.toNat]?.bind (·.value channel)
    else none

def commandChannelScale (channel : Channel) : ℚ := if channel.normalized then 10000 else 1

abbrev ScopedId := UInt32 × UInt32

def scopedId (processId objectId : UInt32) : ScopedId := (processId, objectId)

structure EventStore where
  capacity : Nat := 20000
  events : List Frame := []
  paused : Bool := false
  received : Nat := 0
  dropped : Nat := 0
  qpcFrequency : Nat := 1000000000
  markerCapacity : Nat := 1024
  markers : List (Nat × String) := []

namespace EventStore

def append (store : EventStore) (frame : Frame) : List Frame :=
  let events := store.events ++ [frame]
  events.drop (events.length - store.capacity)

def add (store : EventStore) (frame : Frame) : EventStore :=
  if store.paused then store
  else
    { store with
      events := store.append frame
      received := store.received + 1
      qpcFrequency :=
        if frame.messageType = helloType ∧ frame.qpcFrequency ≠ 0 then frame.qpcFrequency.toNat
        else store.qpcFrequency
      dropped := if frame.dropped ≠ 0 then max store.dropped frame.dropped.toNat else store.dropped }

/-- The first tick of a window that ends with the newest event; `int` rounds towards zero. -/
def cutoff (store : EventStore) (seconds : ℚ) (newest : Frame) : Int :=
  let ticks := seconds * store.qpcFrequency
  newest.qpcTicks.toNat - (if 0 ≤ ticks then ⌊ticks⌋ else ⌈ticks⌉)

def window (store : EventStore) (seconds : ℚ) : List Frame :=
  match store.events.getLast? with
  | none => []
  | some newest => store.events.filter fun event => store.cutoff seconds newest ≤ event.qpcTicks.toNat

/-- A marker at the newest event; the oldest markers make room. -/
def markLatest (store : EventStore) (label : String) : EventStore :=
  match store.events.getLast? with
  | none => store
  | some latest =>
    { store with
      markers := store.markers.drop (store.markers.length + 1 - store.markerCapacity) ++
        [(latest.qpcTicks.toNat, String.ofList (label.toList.take 64))] }

@[simp] theorem dropped_markLatest (store : EventStore) (label : String) :
    (store.markLatest label).dropped = store.dropped := by
  rw [markLatest]
  split <;> rfl

@[simp] theorem qpcFrequency_markLatest (store : EventStore) (label : String) :
    (store.markLatest label).qpcFrequency = store.qpcFrequency := by
  rw [markLatest]
  split <;> rfl

end EventStore

/-- What the boxes select; `none` is their first item. -/
structure Filters where
  producer : Option UInt32 := none
  device : Option ScopedId := none
  effect : Option ScopedId := none

def Filters.passes (filters : Filters) (event : Frame) : Bool :=
  filters.producer.all (event.processId = ·) &&
    filters.device.all (scopedId event.processId event.deviceId = ·) &&
    filters.effect.all (scopedId event.processId event.effectId = ·)

def EventStore.visibleEvents (store : EventStore) (seconds : ℚ) (filters : Filters) : List Frame :=
  (store.window seconds).filter filters.passes

structure MainWindow where
  store : EventStore := {}
  pending : List Frame := []

namespace MainWindow

def maxPending : Nat := 20000

def maxPendingPerRefresh : Nat := 4096

def enqueue (window : MainWindow) (frame : Frame) : MainWindow :=
  if window.pending.length < maxPending then { window with pending := window.pending ++ [frame] }
  else { window with store := { window.store with dropped := window.store.dropped + 1 } }

/-- A round of the loop of a refresh; the loop breaks where no frame waits. -/
def take (window : MainWindow) : MainWindow :=
  match window.pending with
  | [] => window
  | frame :: pending => { store := window.store.add frame, pending := pending }

def togglePause (window : MainWindow) : MainWindow :=
  { window with store := { window.store with paused := !window.store.paused } }

def markEvent (window : MainWindow) : MainWindow :=
  { window with store := window.store.markLatest "marker" }

/-- The rounds of a refresh that nothing interrupts. -/
def refresh (window : MainWindow) : MainWindow := take^[maxPendingPerRefresh] window

end MainWindow

section Trace

def producerBasename (value : String) : String :=
  let slashed := value.toList.map fun c => if c = '\\' then '/' else c
  String.ofList ((slashed.reverse.takeWhile (· ≠ '/')).reverse.take 255)

def Frame.isNamedHello (frame : Frame) : Bool := frame.messageType = helloType && frame.text ≠ ""

/-- `setdefault` of a dictionary, which keeps the order of its keys. -/
def setDefault (producers : List (UInt32 × String)) (processId : UInt32) (name : String) :
    List (UInt32 × String) :=
  if producers.any (·.1 = processId) then producers else producers ++ [(processId, name)]

def addProducer (producers : List (UInt32 × String)) (event : Frame) : List (UInt32 × String) :=
  if event.isNamedHello then setDefault producers event.processId (producerBasename event.text)
  else producers

/-- An exported event, with its time behind the first one. -/
structure TraceEvent where
  relativeSeconds : ℚ
  event : Frame

structure TracePayload where
  qpcFrequency : Nat
  producer : String
  producers : List (UInt32 × String)
  events : List TraceEvent
  markers : List (ℚ × String)

def tracePayload (events : List Frame) (qpcFrequency : Nat) (markers : List (Nat × String)) :
    TracePayload :=
  let frequency := if qpcFrequency = 0 then 1000000000 else qpcFrequency
  let origin := (events.head?.map (·.qpcTicks.toNat)).getD 0
  let relative (ticks : Nat) : ℚ := ((ticks : ℚ) - origin) / frequency
  let producers := events.foldl addProducer []
  { qpcFrequency := frequency
    producer := (producers.head?.map Prod.snd).getD ""
    producers
    events := events.map fun event => ⟨relative event.qpcTicks.toNat, event⟩
    markers := markers.map fun marker =>
      (relative marker.1, String.ofList (marker.2.toList.take 64)) }

/-- What `_save_trace` writes. -/
def EventStore.saveTrace (store : EventStore) (seconds : ℚ) (filters : Filters) : TracePayload :=
  tracePayload (store.visibleEvents seconds filters) store.qpcFrequency store.markers

end Trace

end FfbInterceptor.Viewer
