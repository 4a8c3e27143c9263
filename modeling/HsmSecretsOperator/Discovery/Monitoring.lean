/- source: internal/discovery/usb.go, internal/discovery/usb_cgo.go,
     internal/modes/discovery/discovery.go
   digest: Monitors of USB events, the channel they share, and the loop that restarts them. -/

import HsmSecretsOperator.Discovery.Events
import HsmSecretsOperator.Foundation.Channels

/-! The channel of events is made once and stays closed when the first monitor has ended. -/

set_option autoImplicit false

namespace HsmSecretsOperator.Discovery.Monitoring

open Discovery.Agent
open Events (USBEvent)
open Foundation.Channels Foundation.Runs

/-- A device of udev with the properties that are read. -/
structure UDevDevice where
  action : String
  devtype : String := "usb_device"
  vendorID : String
  modelID : String
  serialShort : String := ""
  devnode : String := ""

/-- A USB device with the ids that criteria look at. -/
structure MonitoredDevice extends USBDevice where
  vendorID : String
  productID : String

def convertUdevDevice (device : UDevDevice) : Option MonitoredDevice :=
  if device.devtype ≠ "usb_device" then none
  else if device.vendorID = "" || device.modelID = "" then none
  else some
    { devicePath := device.devnode, serialNumber := device.serialShort
      vendorID := device.vendorID, productID := device.modelID }

/-- `strings.EqualFold`; the ids are hexadecimal digits, and no others fold to these. -/
def equalFold (a b : String) : Bool := a.toList.map Char.toLower = b.toList.map Char.toLower

def matchesSpec (device : MonitoredDevice) (spec : USBDeviceSpec) : Bool :=
  (spec.vendorID = "" || equalFold device.vendorID spec.vendorID) &&
    (spec.productID = "" || equalFold device.productID spec.productID) &&
    (spec.serialNumber = "" || device.serialNumber = spec.serialNumber)

/-- The node of the agent, and the pairs of ids of the CCID allowlist. -/
structure Config where
  nodeName : String
  allowlist : String → String → Bool

def matchesCriteria (cfg : Config) (device : MonitoredDevice) (criteria : MatchCriteria) : Bool :=
  (criteria.autoDiscovery && cfg.allowlist device.vendorID device.productID) ||
    criteria.specs.any (matchesSpec device)

def eventAction (action : String) : Option Events.Action :=
  if action = "add" then some .add else if action = "remove" then some .remove else none

/-- The part of `handleDeviceEvent` before the sends, with the specs yielding the HSMDevices in the
given order. -/
def eventsOf (cfg : Config) (activeSpecs : Std.ExtTreeMap String MatchCriteria)
    (device : UDevDevice) (order : List String) : List USBEvent :=
  match eventAction device.action, convertUdevDevice device with
  | some action, some usbDev =>
    let matched := order.filter fun hsmDeviceName =>
      activeSpecs[hsmDeviceName]?.any (matchesCriteria cfg usbDev)
    matched.map fun hsmDeviceName => { action, device := usbDev.toUSBDevice, hsmDeviceName }
  | _, _ => []

/-- Where a monitor is. One that runs has some events of its last device left to send. -/
inductive Monitor where
  | opening
  | running (events : List USBEvent)
  | ended

def channelCapacity : Nat := 100

structure State where
  eventChannel : Channel USBEvent := {}
  /-- In the order in which they were started. -/
  monitors : List Monitor := []
  activeSpecs : Std.ExtTreeMap String MatchCriteria := ∅
  eventMonitoringActive : Bool := false
  /-- The loop of the agent has ended. -/
  stopped : Bool := false
  /-- The events that `handleUSBEvent` was called with. -/
  handled : List USBEvent := []
  /-- A goroutine has sent on a closed channel or has closed one. -/
  panicked : Bool := false

/-- The calls that list the HSMDevices and set up a monitor. -/
structure Restart where
  hsmDevices : Except String (List HSMDevice)
  started : Bool := true

inductive Action where
  /-- A monitor asks udev for its channels. -/
  | deviceChan (monitor : Nat) (opened : Bool)
  /-- A monitor takes a device. -/
  | device (monitor : Nat) (device : UDevDevice) (order : List String)
  /-- A monitor sends an event. -/
  | send (monitor : Nat)
  /-- A monitor finds a channel of udev closed or the context done. -/
  | finish (monitor : Nat)
  /-- The loop takes the event channel; it restarts the monitoring if that is closed. -/
  | receive (restart : Restart)
  /-- The loop takes the ticker. -/
  | reconcile (hsmDevices : Except String (List HSMDevice))
  /-- The loop finds the context done. -/
  | stop

def registerSpecForMonitoring (cfg : Config) (activeSpecs : Std.ExtTreeMap String MatchCriteria)
    (hsmDevice : HSMDevice) : Std.ExtTreeMap String MatchCriteria :=
  if shouldDiscoverOnNode cfg.nodeName hsmDevice then
    activeSpecs.insert hsmDevice.name (buildMatchCriteria hsmDevice)
  else activeSpecs

def registerAll (cfg : Config) (s : State) (hsmDevices : List HSMDevice) : State :=
  { s with activeSpecs := hsmDevices.foldl (registerSpecForMonitoring cfg) s.activeSpecs }

def startEventMonitoring (s : State) (started : Bool) : State :=
  if started then { s with monitors := s.monitors ++ [.opening], eventMonitoringActive := true }
  else { s with eventMonitoringActive := false }

def restartEventMonitoring (cfg : Config) (s : State) (restart : Restart) : State :=
  match restart.hsmDevices with
  | .error _ => { s with eventMonitoringActive := false }
  | .ok hsmDevices => startEventMonitoring (registerAll cfg s hsmDevices) restart.started

/-- The deferred call at the end of `monitorLoop`. -/
def endMonitor (s : State) (monitor : Nat) : State :=
  match s.eventChannel.close with
  | none => { s with panicked := true }
  | some eventChannel => { s with eventChannel, monitors := s.monitors.set monitor .ended }

/-- One send of the loop of `handleDeviceEvent`. -/
def sendEvent (s : State) (monitor : Nat) (event : USBEvent) (rest : List USBEvent) : State :=
  match s.eventChannel.offer channelCapacity event with
  | none => { s with panicked := true }
  | some eventChannel =>
    { s with eventChannel, monitors := s.monitors.set monitor (.running rest) }

def receiveEvent (cfg : Config) (s : State) (restart : Restart) : State :=
  match s.eventChannel.receive with
  | .value event eventChannel => { s with eventChannel, handled := s.handled ++ [event] }
  | .closed => restartEventMonitoring cfg s restart
  | .blocked => s

/-- What a monitor or the loop does if it is there; an action that is not possible changes
nothing. -/
def act (cfg : Config) (s : State) : Action → State
  | .deviceChan monitor opened =>
    match s.monitors[monitor]? with
    | some .opening =>
      if opened then { s with monitors := s.monitors.set monitor (.running []) }
      else endMonitor s monitor
    | _ => s
  | .device monitor device order =>
    match s.monitors[monitor]? with
    | some (.running []) =>
      if order.Perm s.activeSpecs.keys then
        { s with
          monitors :=
            s.monitors.set monitor (.running (eventsOf cfg s.activeSpecs device order)) }
      else s
    | _ => s
  | .send monitor =>
    match s.monitors[monitor]? with
    | some (.running (event :: rest)) => sendEvent s monitor event rest
    | _ => s
  | .finish monitor =>
    match s.monitors[monitor]? with
    | some (.running []) => endMonitor s monitor
    | _ => s
  | .receive restart => if s.stopped then s else receiveEvent cfg s restart
  | .reconcile hsmDevices =>
    match hsmDevices with
    | .error _ => s
    | .ok hsmDevices => if s.stopped then s else registerAll cfg s hsmDevices
  | .stop => { s with stopped := true }

def step (cfg : Config) (s : State) (a : Action) : State := if s.panicked then s else act cfg s a

/-- `Run` up to its loop: the first scan registers specs, and a first monitor is started. -/
def start (cfg : Config) (first : Restart) : State :=
  match first.hsmDevices with
  | .error _ => startEventMonitoring {} first.started
  | .ok hsmDevices => startEventMonitoring (registerAll cfg {} hsmDevices) first.started

/-- The monitor that sends on the channel or closes it in a step. -/
def toucher (s : State) : Action → Option Nat
  | .deviceChan monitor false =>
    match s.monitors[monitor]? with
    | some .opening => some monitor
    | _ => none
  | .send monitor =>
    match s.monitors[monitor]? with
    | some (.running (_ :: _)) => some monitor
    | _ => none
  | .finish monitor =>
    match s.monitors[monitor]? with
    | some (.running []) => some monitor
    | _ => none
  | .deviceChan _ true | .device _ _ _ | .receive _ | .reconcile _ | .stop => none

/-- The channel is touched only while it is open. -/
def TouchesOpen (s : State) (a : Action) : Prop :=
  ∀ i, toucher s a = some i → s.eventChannel.closed = false

/-- Only the first monitor sends an event or ends. -/
def ByFirst (s : State) (a : Action) : Prop := ∀ i, toucher s a = some i → i = 0

/-- The step is none of the channel; monitors may move on, and those that have ended stay so. -/
structure Quiet (s s' : State) : Prop where
  eventChannel : s'.eventChannel = s.eventChannel
  handled : s'.handled = s.handled
  panicked : s'.panicked = s.panicked
  length : s'.monitors.length = s.monitors.length
  ended : ∀ i : Nat, s.monitors[i]? = some .ended → s'.monitors[i]? = some .ended

theorem Quiet.refl (s : State) : Quiet s s := ⟨rfl, rfl, rfl, rfl, fun _ h => h⟩

theorem getElem?_set_ended {monitors : List Monitor} {i j : Nat} {current next : Monitor}
    (hcurrent : monitors[i]? = some current) (hlive : current ≠ .ended)
    (hended : monitors[j]? = some .ended) : (monitors.set i next)[j]? = some .ended := by
  rw [List.getElem?_set_ne, hended]
  rintro rfl
  exact hlive (Option.some.inj (hcurrent.symm.trans hended))

theorem Quiet.set {s : State} {i : Nat} {current : Monitor}
    (hcurrent : s.monitors[i]? = some current) (hlive : current ≠ .ended) (next : Monitor) :
    Quiet s { s with monitors := s.monitors.set i next } :=
  ⟨rfl, rfl, rfl, List.length_set, fun _ => getElem?_set_ended hcurrent hlive⟩

/-- Everything that a step can do. -/
inductive Effect (s : State) (a : Action) : State → Prop where
  | quiet {s' : State} (htoucher : toucher s a = none) (h : Quiet s s') : Effect s a s'
  | sent {i : Nat} {event : USBEvent} {rest : List USBEvent} {eventChannel : Channel USBEvent}
      (htoucher : toucher s a = some i) (haction : a = .send i)
      (hmonitor : s.monitors[i]? = some (.running (event :: rest)))
      (hsend : s.eventChannel.offer channelCapacity event = some eventChannel) :
      Effect s a { s with eventChannel, monitors := s.monitors.set i (.running rest) }
  | ended {i : Nat} {current : Monitor} {eventChannel : Channel USBEvent}
      (htoucher : toucher s a = some i) (haction : ∀ j, a ≠ .send j)
      (hmonitor : s.monitors[i]? = some current) (hlive : current ≠ .ended)
      (hclose : s.eventChannel.close = some eventChannel) :
      Effect s a { s with eventChannel, monitors := s.monitors.set i .ended }
  | panicked {i : Nat} {current : Monitor} (htoucher : toucher s a = some i)
      (hmonitor : s.monitors[i]? = some current) (hlive : current ≠ .ended)
      (hclosed : s.eventChannel.closed = true) : Effect s a { s with panicked := true }
  | received {event : USBEvent} {eventChannel : Channel USBEvent} (htoucher : toucher s a = none)
      (hreceive : s.eventChannel.receive = .value event eventChannel) :
      Effect s a { s with eventChannel, handled := s.handled ++ [event] }
  | restarted {s' : State} (htoucher : toucher s a = none)
      (hclosed : s.eventChannel.closed = true) (hchannel : s'.eventChannel = s.eventChannel)
      (hhandled : s'.handled = s.handled) (hpanicked : s'.panicked = s.panicked)
      (hmonitors : s'.monitors = s.monitors ++ [.opening]) : Effect s a s'

section Effects

variable {cfg : Config} {s : State} {a : Action}

private theorem effect_endMonitor {i : Nat} {current : Monitor} (htoucher : toucher s a = some i)
    (haction : ∀ j, a ≠ .send j) (hmonitor : s.monitors[i]? = some current)
    (hlive : current ≠ .ended) :
    Effect s a (endMonitor s i) := by
  unfold endMonitor
  split
  next hclose => exact .panicked htoucher hmonitor hlive (close_eq_none_iff.mp hclose)
  next hclose => exact .ended htoucher haction hmonitor hlive hclose

private theorem effect_deviceChan (i : Nat) (opened : Bool) :
    Effect s (.deviceChan i opened) (act cfg s (.deviceChan i opened)) := by
  dsimp only [act]
  split
  next hmonitor =>
    cases opened with
    | true => exact .quiet rfl (.set hmonitor nofun _)
    | false =>
      have htoucher : toucher s (.deviceChan i false) = some i := by
        dsimp only [toucher]
        rw [hmonitor]
      exact effect_endMonitor htoucher nofun hmonitor nofun
  next hmonitor =>
    refine .quiet ?_ (.refl s)
    cases opened with
    | true => rfl
    | false =>
      dsimp only [toucher]
      split
      next h => exact absurd h hmonitor
      next => rfl

private theorem effect_send (i : Nat) : Effect s (.send i) (act cfg s (.send i)) := by
  dsimp only [act]
  split
  next event rest hmonitor =>
    have htoucher : toucher s (.send i) = some i := by
      dsimp only [toucher]
      rw [hmonitor]
    unfold sendEvent
    split
    next hsend => exact .panicked htoucher hmonitor nofun (offer_eq_none_iff.mp hsend)
    next hsend => exact .sent htoucher rfl hmonitor hsend
  next hmonitor =>
    refine .quiet ?_ (.refl s)
    dsimp only [toucher]
    split
    next h => exact absurd h (hmonitor _ _)
    next => rfl

private theorem effect_finish (i : Nat) : Effect s (.finish i) (act cfg s (.finish i)) := by
  dsimp only [act]
  split
  next hmonitor =>
    have htoucher : toucher s (.finish i) = some i := by
      dsimp only [toucher]
      rw [hmonitor]
    exact effect_endMonitor htoucher nofun hmonitor nofun
  next hmonitor =>
    refine .quiet ?_ (.refl s)
    dsimp only [toucher]
    split
    next h => exact absurd h hmonitor
    next => rfl

private theorem quiet_device (i : Nat) (device : UDevDevice) (order : List String) :
    Quiet s (act cfg s (.device i device order)) := by
  dsimp only [act]
  split
  next hmonitor =>
    split
    · exact .set hmonitor nofun _
    · exact .refl s
  next => exact .refl s

private theorem effect_receive (restart : Restart) :
    Effect s (.receive restart) (act cfg s (.receive restart)) := by
  dsimp only [act]
  split
  · exact .quiet rfl (.refl s)
  unfold receiveEvent
  split
  next hreceive => exact .received rfl hreceive
  next hreceive =>
    unfold restartEventMonitoring
    split
    · exact .quiet rfl ⟨rfl, rfl, rfl, rfl, fun _ h => h⟩
    · unfold startEventMonitoring
      split
      · exact .restarted rfl (receive_eq_closed hreceive) rfl rfl rfl rfl
      · exact .quiet rfl ⟨rfl, rfl, rfl, rfl, fun _ h => h⟩
  next => exact .quiet rfl (.refl s)

theorem effect_act (a : Action) : Effect s a (act cfg s a) := by
  cases a with
  | deviceChan i opened => exact effect_deviceChan i opened
  | device i device order => exact .quiet rfl (quiet_device i device order)
  | send i => exact effect_send i
  | finish i => exact effect_finish i
  | receive restart => exact effect_receive restart
  | reconcile hsmDevices =>
    refine .quiet rfl ?_
    dsimp only [act]
    split
    · exact .refl s
    · split
      · exact .refl s
      · exact ⟨rfl, rfl, rfl, rfl, fun _ h => h⟩
  | stop => exact .quiet rfl ⟨rfl, rfl, rfl, rfl, fun _ h => h⟩

theorem Effect.monitor_of_toucher {s' : State} (h : Effect s a s') {i : Nat}
    (hi : toucher s a = some i) : ∃ current, s.monitors[i]? = some current ∧ current ≠ .ended := by
  cases h with
  | quiet htoucher _ => cases htoucher.symm.trans hi
  | sent htoucher _ hmonitor _ =>
    obtain rfl := Option.some.inj (htoucher.symm.trans hi)
    exact ⟨_, hmonitor, nofun⟩
  | ended htoucher _ hmonitor hlive _ =>
    obtain rfl := Option.some.inj (htoucher.symm.trans hi)
    exact ⟨_, hmonitor, hlive⟩
  | panicked htoucher hmonitor hlive _ =>
    obtain rfl := Option.some.inj (htoucher.symm.trans hi)
    exact ⟨_, hmonitor, hlive⟩
  | received htoucher _ => cases htoucher.symm.trans hi
  | restarted htoucher _ _ _ _ _ => cases htoucher.symm.trans hi

end Effects

/-- As long as the channel is open there is at most one monitor; a closed one was closed by the
first monitor. -/
structure Inv (s : State) : Prop where
  single : s.eventChannel.closed = false → s.monitors.length ≤ 1
  closer : s.eventChannel.closed = true → s.monitors[0]? = some .ended

section Runs

variable {cfg : Config} {s s' : State} {a : Action}

theorem Inv.eq_zero (h : Inv s) (hopen : s.eventChannel.closed = false) {i : Nat}
    {current : Monitor} (hmonitor : s.monitors[i]? = some current) : i = 0 := by
  have hlt := (List.getElem?_eq_some_iff.mp hmonitor).1
  have hsingle := h.single hopen
  omega

theorem Inv.effect (h : Inv s) (heffect : Effect s a s') : Inv s' := by
  cases heffect with
  | quiet _ hquiet =>
    refine ⟨fun hopen => ?_, fun hclosed => ?_⟩
    · rw [hquiet.eventChannel] at hopen
      rw [hquiet.length]
      exact h.single hopen
    · rw [hquiet.eventChannel] at hclosed
      exact hquiet.ended 0 (h.closer hclosed)
  | sent _ _ _ hsend =>
    obtain ⟨hopen, hstill, -⟩ := offer_eq_some hsend
    refine ⟨fun _ => ?_, fun hclosed => ?_⟩
    · rw [List.length_set]
      exact h.single hopen
    · rw [hstill] at hclosed
      cases hclosed
  | ended _ _ hmonitor _ hclose =>
    obtain ⟨hopen, hnow, -⟩ := close_eq_some hclose
    refine ⟨fun hstill => ?_, fun _ => ?_⟩
    · rw [hnow] at hstill
      cases hstill
    · obtain rfl := h.eq_zero hopen hmonitor
      exact List.getElem?_set_self (List.getElem?_eq_some_iff.mp hmonitor).1
  | panicked _ _ _ _ => exact ⟨h.single, h.closer⟩
  | received _ hreceive =>
    have hsame := (receive_eq_value hreceive).1
    exact ⟨fun hopen => h.single (hsame ▸ hopen), fun hclosed => h.closer (hsame ▸ hclosed)⟩
  | restarted _ hclosed hchannel _ _ hmonitors =>
    refine ⟨fun hopen => ?_, fun _ => ?_⟩
    · rw [hchannel, hclosed] at hopen
      cases hopen
    · have hended := h.closer hclosed
      rw [hmonitors, List.getElem?_append_left (List.getElem?_eq_some_iff.mp hended).1, hended]

theorem Inv.step (cfg : Config) (h : Inv s) (a : Action) : Inv (step cfg s a) := by
  unfold Monitoring.step
  split
  · exact h
  · exact h.effect (effect_act a)

theorem inv_start (cfg : Config) (first : Restart) : Inv (start cfg first) := by
  unfold start startEventMonitoring
  split
  · split
    · exact ⟨fun _ => Nat.le_refl _, nofun⟩
    · exact ⟨fun _ => Nat.zero_le _, nofun⟩
  · split
    · exact ⟨fun _ => Nat.le_refl _, nofun⟩
    · exact ⟨fun _ => Nat.zero_le _, nofun⟩

theorem Effect.panicked_iff (h : Effect s a s') (hs : s.panicked = false) :
    s'.panicked = false ↔ TouchesOpen s a := by
  cases h with
  | quiet htoucher hquiet =>
    refine iff_of_true (hquiet.panicked.trans hs) fun i hi => ?_
    cases htoucher.symm.trans hi
  | sent _ _ _ hsend => exact iff_of_true hs fun _ _ => (offer_eq_some hsend).1
  | ended _ _ _ _ hclose => exact iff_of_true hs fun _ _ => (close_eq_some hclose).1
  | panicked htoucher _ _ hclosed =>
    refine iff_of_false nofun fun hopen => ?_
    cases hclosed.symm.trans (hopen _ htoucher)
  | received htoucher _ =>
    refine iff_of_true hs fun i hi => ?_
    cases htoucher.symm.trans hi
  | restarted htoucher _ _ _ hsame _ =>
    refine iff_of_true (hsame.trans hs) fun i hi => ?_
    cases htoucher.symm.trans hi

theorem panicked_step_iff (cfg : Config) (s : State) (a : Action) :
    (step cfg s a).panicked = false ↔ s.panicked = false ∧ TouchesOpen s a := by
  unfold step
  split
  next hpanicked =>
    rw [hpanicked]
    exact iff_of_false nofun fun h => nomatch h.1
  next hpanicked =>
    rw [Bool.not_eq_true] at hpanicked
    rw [and_iff_right hpanicked]
    exact (effect_act a).panicked_iff hpanicked

theorem Inv.touchesOpen_iff (cfg : Config) (h : Inv s) (a : Action) :
    TouchesOpen s a ↔ ByFirst s a := by
  have heffect : Effect s a (act cfg s a) := effect_act a
  refine forall₂_congr fun i hi => ?_
  obtain ⟨current, hmonitor, hlive⟩ := heffect.monitor_of_toucher hi
  constructor
  · intro hopen
    exact h.eq_zero hopen hmonitor
  · rintro rfl
    rw [← Bool.not_eq_true]
    intro hclosed
    exact hlive (Option.some.inj (hmonitor.symm.trans (h.closer hclosed)))

/-- The event that enters the channel in a step. -/
def arrival (s : State) : Action → List USBEvent
  | .send i =>
    match s.monitors[i]? with
    | some (.running (event :: _)) =>
      if s.eventChannel.closed = false ∧ s.eventChannel.buffer.length < channelCapacity then
        [event]
      else []
    | _ => []
  | _ => []

def arrivals (cfg : Config) : State → List Action → List USBEvent
  | _, [] => []
  | s, a :: actions =>
    (if s.panicked then [] else arrival s a) ++ arrivals cfg (step cfg s a) actions

theorem arrival_eq_nil (h : toucher s a = none) : arrival s a = [] := by
  cases a with
  | send i =>
    dsimp only [arrival]
    split
    next hmonitor =>
      dsimp only [toucher] at h
      rw [hmonitor] at h
      cases h
    next => rfl
  | deviceChan _ _ => rfl
  | device _ _ _ => rfl
  | finish _ => rfl
  | receive _ => rfl
  | reconcile _ => rfl
  | stop => rfl

theorem arrival_of_closed (h : s.eventChannel.closed = true) (a : Action) : arrival s a = [] := by
  unfold arrival
  split
  · split
    · rw [if_neg]
      rintro ⟨hopen, -⟩
      cases hopen.symm.trans h
    · rfl
  · rfl

theorem Effect.handled_append_buffer (h : Effect s a s') :
    s'.handled ++ s'.eventChannel.buffer =
      s.handled ++ s.eventChannel.buffer ++ arrival s a := by
  cases h with
  | quiet htoucher hquiet =>
    rw [hquiet.handled, hquiet.eventChannel, arrival_eq_nil htoucher, List.append_nil]
  | sent _ haction hmonitor hsend =>
    obtain ⟨hopen, -, hbuffer⟩ := offer_eq_some hsend
    subst haction
    dsimp only [arrival]
    rw [hbuffer, hmonitor, List.append_assoc]
    simp only [hopen, true_and]
  | ended _ haction _ _ hclose =>
    have hnone : arrival s a = [] := by
      cases a with
      | send j => exact absurd rfl (haction j)
      | _ => rfl
    rw [(close_eq_some hclose).2.2, hnone, List.append_nil]
  | panicked _ _ _ hclosed => rw [arrival_of_closed hclosed, List.append_nil]
  | received htoucher hreceive =>
    rw [(receive_eq_value hreceive).2, arrival_eq_nil htoucher, List.append_nil,
      List.append_assoc, List.singleton_append]
  | restarted htoucher _ hchannel hhandled _ _ =>
    rw [hhandled, hchannel, arrival_eq_nil htoucher, List.append_nil]

/-- What enters the channel is handled once and in order, or still waits in it. -/
theorem handled_append_buffer_run (cfg : Config) (s : State) (actions : List Action) :
    (run (step cfg) s actions).handled ++ (run (step cfg) s actions).eventChannel.buffer =
      s.handled ++ s.eventChannel.buffer ++ arrivals cfg s actions := by
  induction actions generalizing s with
  | nil => exact (List.append_nil _).symm
  | cons a actions ih =>
    rw [run_cons, ih, arrivals, ← List.append_assoc]
    congr 1
    unfold step
    split
    · rw [List.append_nil]
    · exact (effect_act a).handled_append_buffer

end Runs

theorem panicked_start (cfg : Config) (first : Restart) :
    (start cfg first).panicked = false := by
  unfold start startEventMonitoring
  split
  · split
    · rfl
    · rfl
  · split
    · rfl
    · rfl

def Restarted (s : State) : Prop := 1 < s.monitors.length

theorem Inv.closed_of_restarted {s : State} (h : Inv s) (hs : Restarted s) :
    s.eventChannel.closed = true := by
  rw [← Bool.not_eq_false]
  intro hopen
  exact Nat.not_lt.mpr (h.single hopen) hs

theorem inv_run (cfg : Config) (first : Restart) (actions : List Action) :
    Inv (run (step cfg) (start cfg first) actions) := by
  have halong : Along (step cfg) (fun _ _ => True) (start cfg first) actions :=
    Along.of_forall fun _ _ _ => trivial
  exact halong.run_invariant (fun _ a h _ => h.step cfg a) (inv_start cfg first)

/-- In any run no goroutine sends on a closed channel or closes one, and after a restart every event
that finds room in the channel is handled or waits in it, exactly if only the first monitor ever
sends an event or ends. -/
theorem monitoring_survives_iff (cfg : Config) (first : Restart) (actions : List Action) :
    ((run (step cfg) (start cfg first) actions).panicked = false ∧
      ∀ pre i post event rest, actions = pre ++ .send i :: post →
        Restarted (run (step cfg) (start cfg first) pre) →
        (run (step cfg) (start cfg first) pre).monitors[i]? = some (.running (event :: rest)) →
        (run (step cfg) (start cfg first) pre).eventChannel.buffer.length < channelCapacity →
        event ∈ (run (step cfg) (start cfg first) actions).handled ∨
          event ∈ (run (step cfg) (start cfg first) actions).eventChannel.buffer) ↔
    Along (step cfg) ByFirst (start cfg first) actions := by
  have hstarted := panicked_start cfg first
  have hopen : (run (step cfg) (start cfg first) actions).panicked = false ↔
      Along (step cfg) TouchesOpen (start cfg first) actions :=
    (Along.run_iff (I := fun s : State => s.panicked = false) (panicked_step_iff cfg)).trans
      (and_iff_right hstarted)
  have hfirst : Along (step cfg) TouchesOpen (start cfg first) actions ↔
      Along (step cfg) ByFirst (start cfg first) actions :=
    Along.congr (fun _ a h => Inv.step cfg h a) (fun _ a h => h.touchesOpen_iff cfg a)
      (inv_start cfg first)
  rw [← hfirst, ← hopen, and_iff_left_iff_imp]
  intro hpanicked pre i post event rest hactions hrestarted hmonitor _
  -- No send comes after a restart, as the channel stays closed.
  have hsend := hopen.mp hpanicked
  rw [hactions, Along.append_iff] at hsend
  have htoucher : toucher (run (step cfg) (start cfg first) pre) (.send i) = some i := by
    dsimp only [toucher]
    rw [hmonitor]
  have hclosed := (inv_run cfg first pre).closed_of_restarted hrestarted
  cases hclosed.symm.trans (hsend.2.1 i htoucher)

private def token : UDevDevice where
  action := "add"
  vendorID := "20a0"
  modelID := "4230"
  serialShort := "DC6A"
  devnode := "/dev/bus/usb/001/004"

private def node : Config where
  nodeName := "n1"
  allowlist := fun vendorID productID => vendorID = "20a0" ∧ productID = "4230"

private def listed : Restart where
  hsmDevices := .ok [{ name := "pico" }]

/-- Udev closes its channel, the loop starts a second monitor, and a device is plugged in: its event
matches and finds room, and the send on the closed channel ends the process. -/
theorem restarted_monitor_panics :
    let actions : List Action :=
      [.deviceChan 0 true, .finish 0, .receive listed, .deviceChan 1 true,
        .device 1 token ["pico"], .send 1]
    let s := run (step node) (start node listed) actions
    s.panicked = true ∧ s.monitors.length = 2 ∧ s.eventMonitoringActive = true ∧
      s.handled.length = 0 ∧ s.eventChannel.buffer.length = 0 := by
  decide +kernel

end HsmSecretsOperator.Discovery.Monitoring
