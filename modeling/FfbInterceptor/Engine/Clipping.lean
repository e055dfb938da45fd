import FfbInterceptor.Library.Runs
import FfbInterceptor.Engine.Tick

/-! The engine over all sources and the snapshots it publishes (`ClippingEngine.cs`). -/
namespace FfbInterceptor.Engine
open FfbInterceptor.Library FfbInterceptor.Protocol FfbInterceptor.Server

def MaximumQueuedTransitions : Nat := 256
def MaximumSources : Nat := 64

structure DetectorTransition where
  kind : DetectorTransitionKind
  source : SourceKey
  timestampMilliseconds : ℚ
  deriving DecidableEq, Repr

structure ClippingSnapshot where
  connected : Bool := false
  sourceCount : Nat := 0
  manualSourceAvailable : Bool := false
  selectionMode : String := "Automatic"
  selectedProcessName : String := ""
  selectedProcessId : UInt32 := 0
  selectedSessionId : String := ""
  proxyBuildVersion : String := ""
  producerBitness : Nat := 0
  commandLevel : ℚ := 0
  peakCommandLevel : ℚ := 0
  effectiveCommandLevel : ℚ := 0
  combinedCommandLevel : ℚ := 0
  unclampedCombinedCommandLevel : ℚ := 0
  combinedEffectiveCommandLevel : ℚ := 0
  peakCombinedCommandLevel : ℚ := 0
  peakUnclampedCombinedCommandLevel : ℚ := 0
  detectionLevel : ℚ := 0
  effectGain : ℚ := 0
  deviceGain : ℚ := 0
  atLimit : Bool := false
  isClipping : Bool := false
  anyClipping : Bool := false
  dataReliable : Bool := false
  clipRatio : ℚ := 0
  ratioWindowMilliseconds : Int := 1000
  activeEffectCount : Nat := 0
  unsupportedEffectCount : Nat := 0
  unobservedTriggerEffectCount : Nat := 0
  lastEffectKind : String := "Unknown"
  droppedFrames : Nat := 0
  protocolErrors : Nat := 0
  sourceStateDrops : Nat := 0
  deviceStateDrops : Nat := 0
  effectStateDrops : Nat := 0
  stateCapacityDrops : Nat := 0
  modelLimited : Bool := false
  reliabilityIssues : DetectorReliabilityIssue := {}
  reliabilityReason : String := "None"
  aggregationModel : String := "ConservativeAbsoluteSumPerDevice"
  statusText : String := "等待 DirectInput 遙測"
  entryThreshold : ℚ := 98 / 100
  exitThreshold : ℚ := 95 / 100
  definition : String := "DirectInput 命令削峰（同裝置多效果絕對值和的保守上界，非實際馬達扭力）"
  deriving DecidableEq, Repr

def DetectorReliabilityIssue.toString (issues : DetectorReliabilityIssue) : String :=
  let names := (if issues.frameGap then ["FrameGap"] else []) ++
    (if issues.sessionReconnect then ["SessionReconnect"] else []) ++
    (if issues.triggerStateUnavailable then ["TriggerStateUnavailable"] else []) ++
    (if issues.stateCapacityExceeded then ["StateCapacityExceeded"] else [])
  if names.isEmpty then "None" else String.intercalate ", " names

def effectKindName : EffectKind → String
  | .unknown => "Unknown"
  | .constant => "Constant"
  | .ramp => "Ramp"
  | .square => "Square"
  | .sine => "Sine"
  | .triangle => "Triangle"
  | .sawtoothUp => "SawtoothUp"
  | .sawtoothDown => "SawtoothDown"
  | .spring => "Spring"
  | .damper => "Damper"
  | .inertia => "Inertia"
  | .friction => "Friction"
  | .custom => "Custom"

namespace SourceState

variable (s : SourceState)

def connect (identity : SourceIdentity) (connectionId : Guid) (now : ℚ) : SourceState :=
  { s with
    identity := identity
    connections :=
      if connectionId ∈ s.connections then s.connections else s.connections ++ [connectionId]
    lastActivityMilliseconds := now }

/-- What `Disconnect` does to its source: the last connection takes the state with it. -/
def disconnect (connectionId : Guid) (now : ℚ) : SourceState :=
  let remaining := { s with connections := s.connections.erase connectionId }
  if remaining.connected then remaining else remaining.resetAfterDisconnect now

def receive (frame : ProtocolFrame) (now : ℚ) : SourceState :=
  { s with lastActivityMilliseconds := now }.apply frame now

end SourceState

structure ClippingEngine where
  settings : NormalizedSettings
  sources : Dictionary SourceKey SourceState := .empty
  transitions : List DetectorTransition := []
  protocolErrors : Nat := 0
  sourceStateDrops : Nat := 0

namespace ClippingEngine

def new (settings : DetectorSettings) : ClippingEngine := { settings := settings.cloneNormalized }

variable (engine : ClippingEngine)

def updateSettings (settings : DetectorSettings) : ClippingEngine :=
  { engine with settings := settings.cloneNormalized }

/-- The queue sheds what exceeds its bound. -/
def enqueueTransition (transition : DetectorTransition) : ClippingEngine :=
  if engine.transitions.length < MaximumQueuedTransitions then
    { engine with transitions := engine.transitions ++ [transition] }
  else engine

def setSource (key : SourceKey) (source : SourceState) : ClippingEngine :=
  { engine with sources := engine.sources.set key source }

/-- The disconnected source that gives way to a new one. -/
def evictionCandidate : Option SourceState :=
  (engine.sources.values.filter fun source => !source.connected).argmin
    SourceState.lastActivityMilliseconds

/-- `TryMakeSourceRoom`: whether there is room for one more source. -/
def tryMakeSourceRoom : Bool × ClippingEngine :=
  if engine.sources.count < MaximumSources then (true, engine)
  else
    let evicted := match engine.evictionCandidate with
      | none => engine
      | some candidate => { engine with sources := engine.sources.remove candidate.identity.key }
    (evicted.sources.count < MaximumSources, evicted)

/-- The part of `Connect` behind the look-up of the source. -/
def connectSource (source : SourceState) (identity : SourceIdentity) (connectionId : Guid) (now : ℚ) :
    ClippingEngine :=
  let connected := engine.setSource identity.key (source.connect identity connectionId now)
  if source.connected then connected
  else connected.enqueueTransition ⟨.sourceConnected, identity.key, now⟩

def connect (identity : SourceIdentity) (connectionId : Guid) (now : ℚ) : ClippingEngine :=
  match engine.sources.find? identity.key with
  | some source => engine.connectSource source identity connectionId now
  | none =>
    match engine.tryMakeSourceRoom with
    | (false, full) => { full with sourceStateDrops := saturatingIncrement full.sourceStateDrops }
    | (true, ready) => ready.connectSource { identity := identity } identity connectionId now

def disconnect (key : SourceKey) (connectionId : Guid) (now : ℚ) : ClippingEngine :=
  match engine.sources.find? key with
  | none => engine
  | some source =>
    let disconnected := source.disconnect connectionId now
    let engine := engine.setSource key disconnected
    if disconnected.connected then engine
    else
      let ended :=
        if source.isClipping then engine.enqueueTransition ⟨.clippingEnded, key, now⟩ else engine
      ended.enqueueTransition ⟨.sourceDisconnected, key, now⟩

def processFrame (key : SourceKey) (frame : ProtocolFrame) (now : ℚ) : ClippingEngine :=
  match engine.sources.find? key with
  | none => engine
  | some source =>
    if !source.connected then engine
    else if frame.processId ≠ key.processId then
      { engine with protocolErrors := saturatingIncrement engine.protocolErrors }
    else
      let processed := source.receive frame now
      let engine := engine.setSource key processed
      if source.isClipping && !processed.isClipping then
        engine.enqueueTransition ⟨.clippingEnded, key, now⟩
      else engine

def reportProtocolError : ClippingEngine :=
  { engine with protocolErrors := saturatingIncrement engine.protocolErrors }

def resetPeak : ClippingEngine :=
  { engine with sources := engine.sources.map fun _ source => source.resetPeak }

def tryDequeueTransition : Option DetectorTransition × ClippingEngine :=
  match engine.transitions with
  | [] => (none, engine)
  | transition :: transitions => (some transition, { engine with transitions := transitions })

def connectedSources : List SourceState := engine.sources.values.filter SourceState.connected

def selectSource : Option SourceState :=
  if engine.settings.autoSelectSource then
    engine.connectedSources.argmax SourceState.lastActivityMilliseconds
  else
    ((engine.connectedSources.filter fun source => engine.settings.manualProcessId = 0 ||
        source.identity.key.processId = engine.settings.manualProcessId).filter fun source =>
      engine.settings.manualSessionId.isEmpty ||
        utf16Units source.identity.key.sessionId = engine.settings.manualSessionId).argmax
      SourceState.lastActivityMilliseconds

def aggregate (counter : SourceState → Nat) : Nat :=
  engine.connectedSources.foldl (fun total source => saturatingAdd total (counter source)) 0

def buildStatusText (selected : SourceState) (issues : DetectorReliabilityIssue) : String :=
  if issues.frameGap || issues.sessionReconnect then
    "資料缺口：已停用舊狀態，請重啟遊戲建立新 session"
  else if issues.stateCapacityExceeded then
    "狀態容量已達上限：部分來源、裝置或效果未納入，已停用削峰判定"
  else if issues.triggerStateUnavailable then
    "模型限制：TriggerButton 按鍵狀態未提供，已停用削峰判定"
  else if selected.isClipping then "CLIP：DirectInput 命令持續碰頂"
  else if selected.atLimit then "LIMIT：多效果命令保守上界已達進入門檻"
  else if selected.levels.unsupportedEffectCount = 0 then "監測中"
  else "監測中：不支援的效果未納入削峰模型"

/-- The issues of the engine as a whole. -/
def sourceIssues : DetectorReliabilityIssue := { stateCapacityExceeded := engine.sourceStateDrops ≠ 0 }

/-- What a snapshot says whether a source is selected or not. -/
def baseSnapshot (selected : Option SourceState) : ClippingSnapshot where
  sourceCount := engine.connectedSources.length
  connected := selected.isSome
  manualSourceAvailable := engine.settings.autoSelectSource || selected.isSome
  selectionMode := if engine.settings.autoSelectSource then "Automatic" else "Manual"
  anyClipping := engine.sourceStateDrops = 0 &&
    engine.connectedSources.any fun source => source.estimateReliable && source.isClipping
  protocolErrors := engine.protocolErrors
  sourceStateDrops := engine.sourceStateDrops
  stateCapacityDrops := engine.sourceStateDrops
  reliabilityIssues := engine.sourceIssues
  reliabilityReason := engine.sourceIssues.toString
  entryThreshold := engine.settings.entryThresholdPercent / 100
  exitThreshold := engine.settings.exitThresholdPercent / 100
  ratioWindowMilliseconds := engine.settings.ratioWindowMilliseconds

def unselectedSnapshot : ClippingSnapshot :=
  let drops := saturatingAdd engine.sourceStateDrops (saturatingAdd
    (engine.aggregate SourceState.deviceStateDrops) (engine.aggregate SourceState.effectStateDrops))
  { engine.baseSnapshot none with
    statusText := if engine.connectedSources.length = 0 then "等待 DirectInput 遙測"
      else "手動指定的來源目前不可用"
    droppedFrames := engine.aggregate SourceState.droppedFrames
    deviceStateDrops := engine.aggregate SourceState.deviceStateDrops
    effectStateDrops := engine.aggregate SourceState.effectStateDrops
    stateCapacityDrops := drops
    modelLimited := drops ≠ 0 }

def selectedSnapshot (selected : SourceState) : ClippingSnapshot :=
  let dataReliable := engine.sourceStateDrops = 0 && selected.estimateReliable
  let issues := selected.reliabilityIssues.union engine.sourceIssues
  { engine.baseSnapshot (some selected) with
    selectedProcessName := selected.identity.processName
    selectedProcessId := selected.identity.key.processId
    selectedSessionId := selected.identity.key.sessionId
    proxyBuildVersion := selected.identity.buildVersion
    producerBitness := selected.identity.bitness
    commandLevel := selected.levels.commandLevel
    peakCommandLevel := selected.peakCommandLevel
    effectiveCommandLevel := selected.levels.effectiveCommandLevel
    combinedCommandLevel := selected.levels.combinedCommandLevel
    unclampedCombinedCommandLevel := selected.levels.unclampedCombinedCommandLevel
    combinedEffectiveCommandLevel := selected.levels.combinedEffectiveCommandLevel
    peakCombinedCommandLevel := selected.peakCombinedCommandLevel
    peakUnclampedCombinedCommandLevel := selected.peakUnclampedCombinedCommandLevel
    detectionLevel := selected.levels.combinedCommandLevel
    effectGain := selected.levels.selectedEffectGain
    deviceGain := selected.levels.selectedDeviceGain
    dataReliable := dataReliable
    atLimit := dataReliable && selected.atLimit
    isClipping := dataReliable && selected.isClipping
    clipRatio := selected.clipRatio
    activeEffectCount := selected.levels.activeEffectCount
    unsupportedEffectCount := selected.levels.unsupportedEffectCount
    unobservedTriggerEffectCount := selected.unobservedTriggerEffectCount
    lastEffectKind := effectKindName selected.lastEffectKind
    droppedFrames := selected.droppedFrames
    deviceStateDrops := selected.deviceStateDrops
    effectStateDrops := selected.effectStateDrops
    stateCapacityDrops := saturatingAdd engine.sourceStateDrops
      (saturatingAdd selected.deviceStateDrops selected.effectStateDrops)
    reliabilityIssues := issues
    reliabilityReason := issues.toString
    modelLimited := issues ≠ {} || selected.levels.unsupportedEffectCount ≠ 0
    statusText := buildStatusText selected issues }

def buildSnapshot : ClippingSnapshot :=
  match engine.selectSource with
  | none => engine.unselectedSnapshot
  | some selected => engine.selectedSnapshot selected

variable (sine : Sine) (now : ℚ)

def tickSource (engine : ClippingEngine) (key : SourceKey) : ClippingEngine :=
  match engine.sources.find? key with
  | none => engine
  | some source =>
    let ticked := source.tick now engine.settings sine
    let engine := engine.setSource key ticked.2
    match ticked.1 with
    | none => engine
    | some kind => engine.enqueueTransition ⟨kind, source.identity.key, now⟩

/-- The engine after a tick, which publishes its `buildSnapshot`. -/
def tick : ClippingEngine := engine.sources.keys.foldl (tickSource sine now) engine

end ClippingEngine

inductive Call where
  | connect (identity : SourceIdentity) (connectionId : Guid) (now : ℚ)
  | disconnect (key : SourceKey) (connectionId : Guid) (now : ℚ)
  | processFrame (key : SourceKey) (frame : ProtocolFrame) (now : ℚ)
  | reportProtocolError
  | updateSettings (settings : DetectorSettings)
  | resetPeak
  | tryDequeueTransition
  | tick (now : ℚ)

namespace ClippingEngine

variable (sine : Sine)

def step (engine : ClippingEngine) : Call → ClippingEngine
  | .connect identity connectionId now => engine.connect identity connectionId now
  | .disconnect key connectionId now => engine.disconnect key connectionId now
  | .processFrame key frame now => engine.processFrame key frame now
  | .reportProtocolError => engine.reportProtocolError
  | .updateSettings settings => engine.updateSettings settings
  | .resetPeak => engine.resetPeak
  | .tryDequeueTransition => engine.tryDequeueTransition.2
  | .tick now => engine.tick sine now

def after (settings : DetectorSettings) (calls : List Call) : ClippingEngine :=
  Runs.run (step sine) (new settings) calls

/-- The snapshot a tick after a sequence of calls returns. -/
def snapshotAfter (settings : DetectorSettings) (calls : List Call) (now : ℚ) : ClippingSnapshot :=
  ((after sine settings calls).tick sine now).buildSnapshot

end ClippingEngine

end FfbInterceptor.Engine
