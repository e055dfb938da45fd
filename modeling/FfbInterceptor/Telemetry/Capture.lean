import FfbInterceptor.Library.Faulting
import FfbInterceptor.Protocol.Event

/-! Capturing the caller's effect parameters (`fill_effect_parameters`). The structure belongs to the
game: any read of it may fault, which the structured exception handler turns into a redacted event. -/
namespace FfbInterceptor.Telemetry
open Library Library.Faulting Protocol

def DIEP_DURATION : UInt32 := 0x1
def DIEP_SAMPLEPERIOD : UInt32 := 0x2
def DIEP_GAIN : UInt32 := 0x4
def DIEP_TRIGGERBUTTON : UInt32 := 0x8
def DIEP_TRIGGERREPEATINTERVAL : UInt32 := 0x10
def DIEP_AXES : UInt32 := 0x20
def DIEP_DIRECTION : UInt32 := 0x40
def DIEP_ENVELOPE : UInt32 := 0x80
def DIEP_TYPESPECIFICPARAMS : UInt32 := 0x100
def DIEP_STARTDELAY : UInt32 := 0x200

/-- The sizes of the two `DIEFFECT` layouts, which hold four pointers. -/
def sizeofDIEFFECT_DX5 (win64 : Bool) : Nat := if win64 then 72 else 52
def sizeofDIEFFECT (win64 : Bool) : Nat := if win64 then 80 else 56
def sizeofDIENVELOPE : Nat := 20
def sizeofDICONSTANTFORCE : Nat := 4
def sizeofDIRAMPFORCE : Nat := 8
def sizeofDIPERIODIC : Nat := 16
def sizeofDICONDITION : Nat := 24

/-- A block of 32-bit words behind a pointer; `none` is a word that cannot be read. -/
abbrev Words := Nat → Option UInt32

structure DIENVELOPE where
  dwSize : Option UInt32
  dwAttackLevel : Option UInt32
  dwAttackTime : Option UInt32
  dwFadeLevel : Option UInt32
  dwFadeTime : Option UInt32

/-- The caller's structure as it can be read: `none` faults, and a pointer that reads as `some none`
is null. -/
structure DIEFFECT where
  dwSize : Option UInt32
  dwFlags : Option UInt32
  dwDuration : Option UInt32
  dwSamplePeriod : Option UInt32
  dwGain : Option UInt32
  dwTriggerButton : Option UInt32
  dwTriggerRepeatInterval : Option UInt32
  cAxes : Option UInt32
  rgdwAxes : Option (Option Words)
  rglDirection : Option (Option Words)
  lpEnvelope : Option (Option DIENVELOPE)
  cbTypeSpecificParams : Option UInt32
  lpvTypeSpecificParams : Option (Option Words)
  dwStartDelay : Option UInt32

def isOpaque (event : Event) : Bool :=
  event.effectKind == EffectKind.custom.value || event.effectKind == EffectKind.unknown.value

def redactOpaque (event : Event) : Event :=
  if isOpaque event then { event with customRedacted := true } else event

/-- One field: read and stored when it is captured. -/
def captureField (captured : Bool) (field : Option UInt32) (put : UInt32 → Event → Event) :
    Faulting Event PUnit :=
  if captured then do
    let value ← read field
    store (put value)
  else pure ()

/-- An array of `axis_count` words: read and stored one by one when it is captured and not null. -/
def captureArray (captured : Bool) (pointer : Option (Option Words))
    (put : Nat → UInt32 → Event → Event) : Faulting Event PUnit :=
  if captured then do
    match ← read pointer with
    | none => pure ()
    | some words =>
      let event ← get
      (List.range event.axisCount.toNat).forM fun i => do
        let value ← read (words i)
        store (put i value)
  else pure ()

def captureEnvelope (captured : Bool) (pointer : Option (Option DIENVELOPE)) :
    Faulting Event PUnit :=
  if captured then do
    match ← read pointer with
    | none => pure ()
    | some envelope =>
      let size ← read envelope.dwSize
      if sizeofDIENVELOPE ≤ size.toNat then
        let attackLevel ← read envelope.dwAttackLevel
        store fun event => { event with envelopeAttackLevel := attackLevel }
        let attackTime ← read envelope.dwAttackTime
        store fun event => { event with envelopeAttackTime := attackTime }
        let fadeLevel ← read envelope.dwFadeLevel
        store fun event => { event with envelopeFadeLevel := fadeLevel }
        let fadeTime ← read envelope.dwFadeTime
        store fun event => { event with envelopeFadeTime := fadeTime }
      else pure ()
  else pure ()

def captureConstant (words : Words) : Faulting Event PUnit := do
  let lMagnitude ← read (words 0)
  store fun event => { event with magnitude := lMagnitude.toInt32 }

def captureRamp (words : Words) : Faulting Event PUnit := do
  let lStart ← read (words 0)
  store fun event => { event with rampStart := lStart.toInt32 }
  let lEnd ← read (words 1)
  store fun event => { event with rampEnd := lEnd.toInt32 }

def capturePeriodic (words : Words) : Faulting Event PUnit := do
  let dwMagnitude ← read (words 0)
  store fun event => { event with periodicMagnitude := dwMagnitude.toInt32 }
  let lOffset ← read (words 1)
  store fun event => { event with periodicOffset := lOffset.toInt32 }
  let dwPhase ← read (words 2)
  store fun event => { event with periodicPhase := dwPhase.toInt32 }
  let dwPeriod ← read (words 3)
  store fun event => { event with periodicPeriod := dwPeriod.toInt32 }
  store fun event => { event with magnitude := event.periodicMagnitude }

def storeCondition (i : Nat) (f : ConditionSample → ConditionSample) (event : Event) : Event :=
  { event with conditions := event.conditions.setIfInBounds i (f (event.conditions.toList.getD i {})) }

def captureCondition (words : Words) (i : Nat) : Faulting Event PUnit := do
  let lOffset ← read (words (6 * i))
  store (storeCondition i fun c => { c with offset := lOffset.toInt32 })
  let lPositiveCoefficient ← read (words (6 * i + 1))
  store (storeCondition i fun c => { c with positiveCoefficient := lPositiveCoefficient.toInt32 })
  let lNegativeCoefficient ← read (words (6 * i + 2))
  store (storeCondition i fun c => { c with negativeCoefficient := lNegativeCoefficient.toInt32 })
  let dwPositiveSaturation ← read (words (6 * i + 3))
  store (storeCondition i fun c => { c with positiveSaturation := dwPositiveSaturation })
  let dwNegativeSaturation ← read (words (6 * i + 4))
  store (storeCondition i fun c => { c with negativeSaturation := dwNegativeSaturation })
  let lDeadBand ← read (words (6 * i + 5))
  store (storeCondition i fun c => { c with deadBand := lDeadBand.toInt32 })

/-- How many conditions are captured from a block of `size` bytes. -/
def conditionCount (axisCount : Nat) (size : Nat) : Nat :=
  let available := size / sizeofDICONDITION
  let count := min (if axisCount = 0 then available else axisCount) kMaxAxes
  min count available

def captureConditions (words : Words) : Faulting Event PUnit := do
  let event ← get
  let count := conditionCount event.axisCount.toNat event.typeSpecificSize.toNat
  store fun event => { event with conditionCount := count.toUInt32 }
  (List.range count).forM (captureCondition words)

/-- The switch on the effect kind: a block too small for its structure is not read. -/
def captureTypeSpecific (words : Words) : Faulting Event PUnit := do
  let event ← get
  let size := event.typeSpecificSize.toNat
  match EffectKind.ofValue event.effectKind with
  | .constant => if sizeofDICONSTANTFORCE ≤ size then captureConstant words else pure ()
  | .ramp => if sizeofDIRAMPFORCE ≤ size then captureRamp words else pure ()
  | .square | .sine | .triangle | .sawtoothUp | .sawtoothDown =>
    if sizeofDIPERIODIC ≤ size then capturePeriodic words else pure ()
  | .spring | .damper | .inertia | .friction =>
    if sizeofDICONDITION ≤ size then captureConditions words else pure ()
  | .unknown | .custom => store fun event => { event with customRedacted := true }

/-- The body of the `__try` block for a structure that is at least of the DX5 size. -/
def captureFields (win64 : Bool) (effect : DIEFFECT) (dwSize : Nat) (captures : UInt32 → Bool) :
    Faulting Event PUnit := do
  captureField true effect.dwFlags fun v event => { event with diFlags := v }
  captureField (captures DIEP_DURATION) effect.dwDuration fun v event =>
    { event with duration := v }
  captureField (captures DIEP_SAMPLEPERIOD) effect.dwSamplePeriod fun v event =>
    { event with samplePeriod := v }
  captureField (captures DIEP_GAIN) effect.dwGain fun v event => { event with gain := v }
  captureField (captures DIEP_STARTDELAY && sizeofDIEFFECT win64 ≤ dwSize) effect.dwStartDelay
    fun v event => { event with startDelay := v }
  captureField (captures DIEP_TRIGGERBUTTON) effect.dwTriggerButton fun v event =>
    { event with triggerButton := v }
  captureField (captures DIEP_TRIGGERREPEATINTERVAL) effect.dwTriggerRepeatInterval fun v event =>
    { event with triggerRepeat := v }
  captureField (captures DIEP_AXES || captures DIEP_DIRECTION) effect.cAxes fun v event =>
    { event with axisCount := (min v.toNat kMaxAxes).toUInt32 }
  captureArray (captures DIEP_AXES) effect.rgdwAxes fun i v event =>
    { event with axes := event.axes.setIfInBounds i v.toInt32 }
  captureArray (captures DIEP_DIRECTION) effect.rglDirection fun i v event =>
    { event with directions := event.directions.setIfInBounds i v.toInt32 }
  captureEnvelope (captures DIEP_ENVELOPE) effect.lpEnvelope
  store redactOpaque
  if captures DIEP_TYPESPECIFICPARAMS then
    let cbTypeSpecificParams ← read effect.cbTypeSpecificParams
    store fun event => { event with typeSpecificSize := cbTypeSpecificParams }
    match ← read effect.lpvTypeSpecificParams with
    | none => store redactOpaque
    | some words =>
      if cbTypeSpecificParams = 0 then store redactOpaque
      else captureTypeSpecific words
  else pure ()

def captureEffect (win64 : Bool) (effect : DIEFFECT) : Faulting Event PUnit := do
  let dwSize ← read effect.dwSize
  if dwSize.toNat < sizeofDIEFFECT_DX5 win64 then
    store fun event => { event with customRedacted := isOpaque event }
  else
    let event ← get
    captureFields win64 effect dwSize.toNat fun flag =>
      event.type = .effectCreated || event.flags &&& flag != 0

/-- `fill_effect_parameters`. -/
def fillEffectParameters (win64 : Bool) (effect : Option DIEFFECT) (event : Event) : Event :=
  match effect with
  | none => event
  | some effect =>
    match (captureEffect win64 effect).outcome event with
    | (.ok _, event) => event
    | (.error _, event) => { event with customRedacted := true, axisCount := 0, conditionCount := 0 }

section Kept

/-- What capturing leaves as it was in `start`, with both counts within the arrays. -/
structure Captured (start event : Event) : Prop where
  type : event.type = start.type
  effectKind : event.effectKind = start.effectKind
  effectParameterPresence : event.effectParameterPresence = start.effectParameterPresence
  flags : event.flags = start.flags
  deviceId : event.deviceId = start.deviceId
  effectId : event.effectId = start.effectId
  hresult : event.hresult = start.hresult
  qpcTicks : event.qpcTicks = start.qpcTicks
  processId : event.processId = start.processId
  buildVersion : event.buildVersion = start.buildVersion
  sessionId : event.sessionId = start.sessionId
  text : event.text = start.text
  axisCount : event.axisCount.toNat ≤ kMaxAxes
  conditionCount : event.conditionCount.toNat ≤ kMaxAxes

/-- What one store of the capturing may do to an event. -/
structure Touches (event event' : Event) : Prop where
  type : event'.type = event.type
  effectKind : event'.effectKind = event.effectKind
  effectParameterPresence : event'.effectParameterPresence = event.effectParameterPresence
  flags : event'.flags = event.flags
  deviceId : event'.deviceId = event.deviceId
  effectId : event'.effectId = event.effectId
  hresult : event'.hresult = event.hresult
  qpcTicks : event'.qpcTicks = event.qpcTicks
  processId : event'.processId = event.processId
  buildVersion : event'.buildVersion = event.buildVersion
  sessionId : event'.sessionId = event.sessionId
  text : event'.text = event.text
  axisCount : event'.axisCount = event.axisCount ∨ event'.axisCount.toNat ≤ kMaxAxes
  conditionCount : event'.conditionCount = event.conditionCount ∨ event'.conditionCount.toNat ≤ kMaxAxes
  customRedacted : event.customRedacted = true → event'.customRedacted = true

theorem Touches.refl (event : Event) : Touches event event :=
  ⟨rfl, rfl, rfl, rfl, rfl, rfl, rfl, rfl, rfl, rfl, rfl, rfl, .inl rfl, .inl rfl, id⟩

theorem Captured.touches {start event event' : Event} (h : Captured start event)
    (htouches : Touches event event') : Captured start event' where
  type := htouches.type.trans h.type
  effectKind := htouches.effectKind.trans h.effectKind
  effectParameterPresence := htouches.effectParameterPresence.trans h.effectParameterPresence
  flags := htouches.flags.trans h.flags
  deviceId := htouches.deviceId.trans h.deviceId
  effectId := htouches.effectId.trans h.effectId
  hresult := htouches.hresult.trans h.hresult
  qpcTicks := htouches.qpcTicks.trans h.qpcTicks
  processId := htouches.processId.trans h.processId
  buildVersion := htouches.buildVersion.trans h.buildVersion
  sessionId := htouches.sessionId.trans h.sessionId
  text := htouches.text.trans h.text
  axisCount := htouches.axisCount.elim (fun hsame => hsame ▸ h.axisCount) id
  conditionCount := htouches.conditionCount.elim (fun hsame => hsame ▸ h.conditionCount) id

theorem toNat_toUInt32_le {n : Nat} (h : n ≤ kMaxAxes) : n.toUInt32.toNat ≤ kMaxAxes := by
  have hsmall : kMaxAxes = 8 := rfl
  rw [Nat.toUInt32, UInt32.toNat_ofNat']
  omega

theorem touches_redactOpaque (event : Event) : Touches event (redactOpaque event) := by
  unfold redactOpaque
  split
  · exact { Touches.refl event with customRedacted := fun _ => rfl }
  · exact .refl event

variable {P : Event → Prop} (hP : ∀ {event event'}, Touches event event' → P event → P event')

include hP

theorem keeps_lastWord (word : Option UInt32) {put : UInt32 → Event → Event}
    (hput : ∀ v event, Touches event (put v event)) :
    Keeps P (do
      let v ← read word
      store (put v)) :=
  Keeps.bind (Keeps.read word) fun v => Keeps.store fun event h => hP (hput v event) h

theorem keeps_word (word : Option UInt32) {put : UInt32 → Event → Event} {rest : Faulting Event PUnit}
    (hput : ∀ v event, Touches event (put v event)) (hrest : Keeps P rest) :
    Keeps P (do
      let v ← read word
      store (put v)
      rest) :=
  Keeps.bind (Keeps.read word) fun v =>
    Keeps.bind (Keeps.store fun event h => hP (hput v event) h) fun _ => hrest

theorem keeps_captureField (captured : Bool) (field : Option UInt32) {put : UInt32 → Event → Event}
    (hput : ∀ v event, Touches event (put v event)) : Keeps P (captureField captured field put) :=
  Keeps.ite (keeps_lastWord hP field hput) (Keeps.pure _)

theorem keeps_captureArray (captured : Bool) (pointer : Option (Option Words))
    {put : Nat → UInt32 → Event → Event} (hput : ∀ i v event, Touches event (put i v event)) :
    Keeps P (captureArray captured pointer put) := by
  unfold captureArray
  refine Keeps.ite (Keeps.bind (Keeps.read pointer) fun words => ?_) (Keeps.pure _)
  cases words with
  | none => exact Keeps.pure _
  | some words =>
    refine Keeps.bind Keeps.get fun event => Keeps.forM (fun i => ?_) _
    exact keeps_lastWord hP (words i) (hput i)

theorem keeps_captureEnvelope (captured : Bool) (pointer : Option (Option DIENVELOPE)) :
    Keeps P (captureEnvelope captured pointer) := by
  unfold captureEnvelope
  refine Keeps.ite (Keeps.bind (Keeps.read pointer) fun envelope => ?_) (Keeps.pure _)
  cases envelope with
  | none => exact Keeps.pure _
  | some envelope =>
    refine Keeps.bind (Keeps.read _) fun size => Keeps.ite ?_ (Keeps.pure _)
    refine keeps_word hP _ (fun _ event => { Touches.refl event with }) ?_
    refine keeps_word hP _ (fun _ event => { Touches.refl event with }) ?_
    refine keeps_word hP _ (fun _ event => { Touches.refl event with }) ?_
    exact keeps_lastWord hP _ fun _ event => { Touches.refl event with }

theorem keeps_capturePeriodic (words : Words) : Keeps P (capturePeriodic words) := by
  refine keeps_word hP _ (fun _ event => { Touches.refl event with }) ?_
  refine keeps_word hP _ (fun _ event => { Touches.refl event with }) ?_
  refine keeps_word hP _ (fun _ event => { Touches.refl event with }) ?_
  refine keeps_word hP _ (fun _ event => { Touches.refl event with }) ?_
  exact Keeps.store fun event h => hP { Touches.refl event with } h

theorem keeps_captureCondition (words : Words) (i : Nat) : Keeps P (captureCondition words i) := by
  refine keeps_word hP _ (fun _ event => { Touches.refl event with }) ?_
  refine keeps_word hP _ (fun _ event => { Touches.refl event with }) ?_
  refine keeps_word hP _ (fun _ event => { Touches.refl event with }) ?_
  refine keeps_word hP _ (fun _ event => { Touches.refl event with }) ?_
  refine keeps_word hP _ (fun _ event => { Touches.refl event with }) ?_
  exact keeps_lastWord hP _ fun _ event => { Touches.refl event with }

omit hP in
theorem conditionCount_le (axisCount size : Nat) : conditionCount axisCount size ≤ kMaxAxes :=
  (Nat.min_le_left _ _).trans (Nat.min_le_right _ _)

theorem keeps_captureConditions (words : Words) : Keeps P (captureConditions words) := by
  refine Keeps.bind Keeps.get fun event => Keeps.bind (Keeps.store fun event' h => ?_) fun _ =>
    Keeps.forM (keeps_captureCondition hP words) _
  exact hP { Touches.refl event' with
    conditionCount := .inr (toNat_toUInt32_le (conditionCount_le _ _)) } h

theorem keeps_captureTypeSpecific (words : Words) : Keeps P (captureTypeSpecific words) := by
  refine Keeps.bind Keeps.get fun event => ?_
  cases EffectKind.ofValue event.effectKind with
  | constant =>
    exact Keeps.ite (keeps_lastWord hP _ fun _ event => { Touches.refl event with }) (Keeps.pure _)
  | ramp =>
    refine Keeps.ite ?_ (Keeps.pure _)
    refine keeps_word hP _ (fun _ event => { Touches.refl event with }) ?_
    exact keeps_lastWord hP _ fun _ event => { Touches.refl event with }
  | square | sine | triangle | sawtoothUp | sawtoothDown =>
    exact Keeps.ite (keeps_capturePeriodic hP words) (Keeps.pure _)
  | spring | damper | inertia | friction =>
    exact Keeps.ite (keeps_captureConditions hP words) (Keeps.pure _)
  | unknown | custom =>
    exact Keeps.store fun event h => hP { Touches.refl event with customRedacted := fun _ => rfl } h

theorem keeps_captureBlock (cbTypeSpecificParams : Option UInt32) (pointer : Option (Option Words)) :
    Keeps P (do
      let cbTypeSpecificParams ← read cbTypeSpecificParams
      store fun event => { event with typeSpecificSize := cbTypeSpecificParams }
      match ← read pointer with
      | none => store redactOpaque
      | some words =>
        if cbTypeSpecificParams = 0 then store redactOpaque
        else captureTypeSpecific words) := by
  refine Keeps.bind (Keeps.read _) fun _ => ?_
  refine Keeps.bind (Keeps.store fun event h => hP { Touches.refl event with } h) fun _ => ?_
  refine Keeps.bind (Keeps.read _) fun words => ?_
  cases words with
  | none => exact Keeps.store fun event h => hP (touches_redactOpaque event) h
  | some words =>
    exact Keeps.ite (Keeps.store fun event h => hP (touches_redactOpaque event) h)
      (keeps_captureTypeSpecific hP words)

theorem keeps_captureFields (win64 : Bool) (effect : DIEFFECT) (dwSize : Nat)
    (captures : UInt32 → Bool) : Keeps P (captureFields win64 effect dwSize captures) := by
  refine Keeps.bind (keeps_captureField hP _ _ fun _ event => { Touches.refl event with }) fun _ => ?_
  refine Keeps.bind (keeps_captureField hP _ _ fun _ event => { Touches.refl event with }) fun _ => ?_
  refine Keeps.bind (keeps_captureField hP _ _ fun _ event => { Touches.refl event with }) fun _ => ?_
  refine Keeps.bind (keeps_captureField hP _ _ fun _ event => { Touches.refl event with }) fun _ => ?_
  refine Keeps.bind (keeps_captureField hP _ _ fun _ event => { Touches.refl event with }) fun _ => ?_
  refine Keeps.bind (keeps_captureField hP _ _ fun _ event => { Touches.refl event with }) fun _ => ?_
  refine Keeps.bind (keeps_captureField hP _ _ fun _ event => { Touches.refl event with }) fun _ => ?_
  refine Keeps.bind (keeps_captureField hP _ _ fun v event => { Touches.refl event with
    axisCount := .inr (toNat_toUInt32_le (Nat.min_le_right v.toNat kMaxAxes)) }) fun _ => ?_
  refine Keeps.bind (keeps_captureArray hP _ _ fun _ _ event => { Touches.refl event with }) fun _ => ?_
  refine Keeps.bind (keeps_captureArray hP _ _ fun _ _ event => { Touches.refl event with }) fun _ => ?_
  refine Keeps.bind (keeps_captureEnvelope hP _ _) fun _ => ?_
  refine Keeps.bind (Keeps.store fun event h => hP (touches_redactOpaque event) h) fun _ => ?_
  exact Keeps.ite (keeps_captureBlock hP _ _) (Keeps.pure _)

omit hP in
/-- Whatever the game's structure holds and wherever reading it faults, the frame stays sendable. -/
theorem captured_fillEffectParameters (win64 : Bool) (effect : Option DIEFFECT) {event : Event}
    (haxes : event.axisCount.toNat ≤ kMaxAxes)
    (hconditions : event.conditionCount.toNat ≤ kMaxAxes) :
    Captured event (fillEffectParameters win64 effect event) := by
  have hstart : Captured event event :=
    ⟨rfl, rfl, rfl, rfl, rfl, rfl, rfl, rfl, rfl, rfl, rfl, rfl, haxes, hconditions⟩
  cases effect with
  | none => exact hstart
  | some effect =>
    have hkeeps : Keeps (Captured event) (captureEffect win64 effect) := by
      refine Keeps.bind (Keeps.read _) fun dwSize => Keeps.ite ?_ ?_
      · exact Keeps.store fun _ h => { h with }
      · exact Keeps.bind Keeps.get fun _ =>
          keeps_captureFields (fun htouches h => h.touches htouches) _ _ _ _
    have houtcome := hkeeps event hstart
    simp only [fillEffectParameters]
    cases hresult : (captureEffect win64 effect).outcome event with
    | mk result filled =>
      rw [hresult] at houtcome
      cases result with
      | ok _ => exact houtcome
      | error _ => exact { houtcome with axisCount := Nat.zero_le _, conditionCount := Nat.zero_le _ }

end Kept

end FfbInterceptor.Telemetry
