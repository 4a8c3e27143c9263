/- source: internal/controller/discovery_daemonset_controller.go, internal/controller/constants.go
   digest: The pool and the discovery DaemonSet of an HSMDevice over reconciles that may fail. -/

import HsmSecretsOperator.Foundation.ApiServer
import HsmSecretsOperator.Foundation.Maps
import HsmSecretsOperator.Foundation.Runs

set_option autoImplicit false

namespace HsmSecretsOperator.Controller.DiscoveryDaemonSet

open Foundation.ApiServer Foundation.Maps Foundation.Runs

abbrev StringMap := Std.ExtTreeMap String String

def labelAppName : String := "app.kubernetes.io/name"

def labelAppComponent : String := "app.kubernetes.io/component"

def labelHSMDevice : String := "hsm.j5t.io/device"

def labelsOf (component deviceName : String) : List (String × String) :=
  [(labelAppName, "hsm-secrets-operator"), (labelAppComponent, component),
    (labelHSMDevice, deviceName)]

structure HSMDevice where
  name : String
  annotations : StringMap := ∅
  nodeSelector : StringMap := ∅

structure HSMPool where
  labels : StringMap
  gracePeriod : Option Int
  owner : Option String

inductive VolumeSource where
  | emptyDir
  | hostPath (path : String) (create : Bool)
  deriving DecidableEq

structure SecurityContext where
  runAsNonRoot : Bool
  allowPrivilegeEscalation : Bool := false
  readOnlyRootFilesystem : Bool := false
  drop : List String := ["ALL"]
  seccompRuntimeDefault : Bool := false
  deriving DecidableEq

structure PodSecurityContext where
  runAsNonRoot : Bool
  runAsUser : Nat
  runAsGroup : Nat
  fsGroup : Option Nat := none
  deriving DecidableEq

structure VolumeMount where
  name : String
  mountPath : String
  readOnly : Bool := false
  deriving DecidableEq

/-- The selector and the labels of the pods are those of the DaemonSet. -/
structure DaemonSetSpec where
  selector : StringMap
  podLabels : StringMap
  serviceAccountName : String
  containerName : String := "discovery"
  image : String
  args : List String := ["--mode=discovery"]
  /-- Variables that are set from a field of the pod. -/
  env : List (String × String) :=
    [("NODE_NAME", "spec.nodeName"), ("POD_NAMESPACE", "metadata.namespace"),
      ("POD_NAME", "metadata.name")]
  volumeMounts : List VolumeMount :=
    [⟨"sys", "/sys", true⟩, ⟨"run-udev", "/run/udev", true⟩,
      ⟨"device-plugins", "/var/lib/kubelet/device-plugins", false⟩,
      ⟨"plugins-registry", "/var/lib/kubelet/plugins_registry", false⟩]
  requests : List (String × String) := [("cpu", "50m"), ("memory", "64Mi")]
  limits : List (String × String) := [("cpu", "100m"), ("memory", "128Mi")]
  securityContext : SecurityContext
  volumes : List (String × VolumeSource)
  nodeSelector : StringMap
  /-- Key, operator and effect. -/
  tolerations : List (String × String × String) := [("hsm-node", "Exists", "NoSchedule")]
  podSecurityContext : PodSecurityContext
  maxUnavailable : String := "50%"
  /-- The fields that the controller does not set. -/
  rest : List (String × String) := []
  deriving DecidableEq

def mounted (spec : DaemonSetSpec) : Bool :=
  spec.volumeMounts.all fun mount => (spec.volumes.map Prod.fst).contains mount.name

/-- What the API server sets in a spec that it stores. -/
structure Defaulting where
  fill : DaemonSetSpec → DaemonSetSpec
  fill_fill : ∀ spec, fill (fill spec) = fill spec
  mounted_fill : ∀ spec, mounted (fill spec) = mounted spec

structure DaemonSet where
  labels : StringMap
  spec : DaemonSetSpec
  owner : Option String

structure Reconciler where
  discoveryImage : String := ""
  /-- What `ImageResolver.GetImage` gives. -/
  resolvedImage : String
  serviceAccountName : String

def isTestEnvironment (hsmDevice : HSMDevice) : Bool :=
  hsmDevice.annotations.getD "hsm.j5t.io/test-mode" "" = "true"

def getVolumes (isTestEnvironment : Bool) : List (String × VolumeSource) :=
  if isTestEnvironment then [("sys", .emptyDir), ("run-udev", .emptyDir)]
  else
    [("sys", .hostPath "/sys" false), ("run-udev", .hostPath "/run/udev" false),
      ("device-plugins", .hostPath "/var/lib/kubelet/device-plugins" true),
      ("plugins-registry", .hostPath "/var/lib/kubelet/plugins_registry" false)]

def getSecurityContext (isTestEnvironment : Bool) : SecurityContext :=
  if isTestEnvironment then { runAsNonRoot := true, seccompRuntimeDefault := true }
  else { runAsNonRoot := false }

def getPodSecurityContext (isTestEnvironment : Bool) : PodSecurityContext :=
  if isTestEnvironment then
    { runAsNonRoot := true, runAsUser := 65534, runAsGroup := 65534, fsGroup := some 65534 }
  else { runAsNonRoot := false, runAsUser := 0, runAsGroup := 0 }

def desiredPool (hsmDevice : HSMDevice) : HSMPool where
  labels := assign ∅ Prod.fst Prod.snd (labelsOf "pool" hsmDevice.name)
  gracePeriod := some (5 * 60 * 1000000000)
  owner := some hsmDevice.name

def desiredDaemonSet (r : Reconciler) (hsmDevice : HSMDevice) : DaemonSet :=
  let labels : StringMap := assign ∅ Prod.fst Prod.snd (labelsOf "discovery" hsmDevice.name)
  let test := isTestEnvironment hsmDevice
  { labels
    spec :=
      { selector := labels, podLabels := labels
        serviceAccountName := r.serviceAccountName
        image := if r.discoveryImage ≠ "" then r.discoveryImage else r.resolvedImage
        securityContext := getSecurityContext test
        volumes := getVolumes test
        nodeSelector := hsmDevice.nodeSelector
        podSecurityContext := getPodSecurityContext test }
    owner := some hsmDevice.name }

/-- The objects of one namespace. -/
structure Cluster where
  devices : String → Option HSMDevice
  pools : String → Option HSMPool := fun _ => none
  daemonSets : String → Option DaemonSet := fun _ => none

def Cluster.setPool (c : Cluster) (name : String) (pool : HSMPool) : Cluster :=
  { c with pools := fun n => if n = name then some pool else c.pools n }

def Cluster.setDaemonSet (c : Cluster) (name : String) (ds : Option DaemonSet) : Cluster :=
  { c with daemonSets := fun n => if n = name then ds else c.daemonSets n }

inductive Write where
  | createPool
  | updatePool
  | createDaemonSet
  | updateDaemonSet
  | deleteDaemonSet
  deriving DecidableEq

/-- How the calls of a reconcile end; it makes each of them at most once. -/
structure Fates where
  device : Fate := .served
  pool : Fate := .served
  poolWrite : Fate := .served
  daemonSet : Fate := .served
  daemonSetWrite : Fate := .served

structure Outcome where
  cluster : Cluster
  error : Option String := none
  writes : List Write := []

def read {α : Type} (fate : Fate) (stored : Option α) : Except ApiError α :=
  match fate.error, stored with
  | some e, _ => .error e
  | none, none => .error ⟨.notFound, "not found"⟩
  | none, some object => .ok object

/-- A write that takes the cluster to another one where it is served. -/
def submit (fate : Fate) (write : Write) (failure : String) (c c' : Cluster) : Outcome :=
  match fate with
  | .served => { cluster := c', writes := [write] }
  | .refused e => { cluster := c, error := some (failure ++ e.text), writes := [write] }
  | .lost text => { cluster := c', error := some (failure ++ text), writes := [write] }

/-- An object is created only where there is none. -/
def createFate {α : Type} (stored : Option α) (fate : Fate) : Fate :=
  if stored.isSome then .refused ⟨.other, "already exists"⟩ else fate

/-- A pod template may mount only the volumes that it has. -/
def validFate (spec : DaemonSetSpec) (fate : Fate) : Fate :=
  if mounted spec then fate else .refused ⟨.other, "volumeMounts: Not found"⟩

/-- The loop over the desired labels: those that differ are set, and whether there was one. -/
def relabel : StringMap → List (String × String) → StringMap × Bool
  | labels, [] => (labels, false)
  | labels, (k, v) :: desired =>
    if labels.getD k "" ≠ v then ((relabel (labels.insert k v) desired).1, true)
    else relabel labels desired

def poolName (deviceName : String) : String := deviceName ++ "-pool"

def daemonSetName (deviceName : String) : String := deviceName ++ "-discovery"

def ensureHSMPool (fates : Fates) (c : Cluster) (hsmDevice : HSMDevice) : Outcome :=
  let name := poolName hsmDevice.name
  match read fates.pool (c.pools name) with
  | .error e =>
    if e.reason = .notFound then
      submit (createFate (c.pools name) fates.poolWrite) .createPool "failed to create HSMPool: " c
        (c.setPool name (desiredPool hsmDevice))
    else { cluster := c, error := some ("failed to get HSMPool: " ++ e.text) }
  | .ok existing =>
    let (labels, changed) := relabel existing.labels (labelsOf "pool" hsmDevice.name)
    if existing.gracePeriod.isNone || changed then
      let gracePeriod := some (existing.gracePeriod.getD (5 * 60 * 1000000000))
      submit fates.poolWrite .updatePool "failed to update HSMPool: " c
        (c.setPool name { existing with labels, gracePeriod })
    else { cluster := c }

section Reconcile

variable (api : Defaulting) (r : Reconciler)

def ensureDiscoveryDaemonSet (fates : Fates) (c : Cluster) (hsmDevice : HSMDevice) : Outcome :=
  let name := daemonSetName hsmDevice.name
  let desired := desiredDaemonSet r hsmDevice
  match read fates.daemonSet (c.daemonSets name) with
  | .error e =>
    if e.reason = .notFound then
      submit (createFate (c.daemonSets name) (validFate desired.spec fates.daemonSetWrite))
        .createDaemonSet "failed to create discovery DaemonSet: " c
        (c.setDaemonSet name (some { desired with spec := api.fill desired.spec }))
    else { cluster := c, error := some ("failed to get discovery DaemonSet: " ++ e.text) }
  | .ok existing =>
    if existing.spec = desired.spec ∧ existing.labels = desired.labels then { cluster := c }
    else
      submit (validFate desired.spec fates.daemonSetWrite) .updateDaemonSet
        "failed to update discovery DaemonSet: " c
        (c.setDaemonSet name
          (some { existing with spec := api.fill desired.spec, labels := desired.labels }))

def cleanupDiscoveryDaemonSet (fates : Fates) (c : Cluster) (deviceName : String) : Outcome :=
  let name := daemonSetName deviceName
  match read fates.daemonSet (c.daemonSets name) with
  | .error e =>
    if e.reason = .notFound then { cluster := c }
    else
      { cluster := c, error := some ("failed to get discovery DaemonSet for cleanup: " ++ e.text) }
  | .ok _ =>
    submit fates.daemonSetWrite .deleteDaemonSet "failed to delete discovery DaemonSet: " c
      (c.setDaemonSet name none)

def reconcile (name : String) (c : Cluster) (fates : Fates) : Outcome :=
  match read fates.device (c.devices name) with
  | .error e =>
    if e.reason = .notFound then cleanupDiscoveryDaemonSet fates c name
    else { cluster := c, error := some e.text }
  | .ok hsmDevice =>
    let pool := ensureHSMPool fates c hsmDevice
    match pool.error with
    | some _ => pool
    | none =>
      let out := ensureDiscoveryDaemonSet api r fates pool.cluster hsmDevice
      { out with writes := pool.writes ++ out.writes }

end Reconcile

/-- The HSMDevice that is reconciled when an object with the labels changes. -/
def findDevices (component : String) (labels : StringMap) : Option String :=
  match labels[labelHSMDevice]? with
  | none => none
  | some deviceName => if labels[labelAppComponent]? = some component then some deviceName else none

def findDevicesForDaemonSet (ds : DaemonSet) : Option String := findDevices "discovery" ds.labels

def findDevicesForHSMPool (pool : HSMPool) : Option String := findDevices "pool" pool.labels

/-- What the API server can hold: every DaemonSet went through it. -/
def Stored (api : Defaulting) (ds : DaemonSet) : Prop :=
  api.fill ds.spec = ds.spec ∧ mounted ds.spec = true

section Steps

variable {api : Defaulting} {r : Reconciler} {c : Cluster}

theorem cluster_submit {P : Cluster → Prop} {fate : Fate} (write : Write) (failure : String)
    {c c' : Cluster} (h : P c) (h' : (∀ e, fate ≠ .refused e) → P c') :
    P (submit fate write failure c c').cluster := by
  cases fate with
  | served => exact h' (by simp)
  | refused e => exact h
  | lost text => exact h' (by simp)

theorem mounted_of_validFate {spec : DaemonSetSpec} {fate : Fate}
    (h : ∀ e, validFate spec fate ≠ .refused e) : mounted spec = true := by
  refine Classical.byContradiction fun hmounted => ?_
  exact h _ (if_neg hmounted)

theorem mounted_of_createFate {α : Type} {stored : Option α} {spec : DaemonSetSpec} {fate : Fate}
    (h : ∀ e, createFate stored (validFate spec fate) ≠ .refused e) : mounted spec = true := by
  unfold createFate at h
  split at h
  · exact absurd rfl (h _)
  · exact mounted_of_validFate h

/-- What the writes of a pool and of a valid DaemonSet keep, a reconcile keeps. -/
theorem cluster_reconcile {P : Cluster → Prop}
    (hpool : ∀ {c} name pool, P c → P (c.setPool name pool))
    (hds : ∀ {c} name ds, (∀ d ∈ ds, Stored api d) → P c → P (c.setDaemonSet name ds))
    (name : String) (fates : Fates) (h : P c) : P (reconcile api r name c fates).cluster := by
  have hensure : ∀ {c} hsmDevice, P c → P (ensureHSMPool fates c hsmDevice).cluster := by
    intro c hsmDevice h
    unfold ensureHSMPool
    dsimp only
    split
    · split
      · exact cluster_submit _ _ h fun _ => hpool _ _ h
      · exact h
    · split
      · exact cluster_submit _ _ h fun _ => hpool _ _ h
      · exact h
  unfold reconcile
  split
  · split
    · unfold cleanupDiscoveryDaemonSet
      dsimp only
      split
      · split <;> exact h
      · exact cluster_submit _ _ h fun _ => hds _ _ (by simp) h
    · exact h
  next hsmDevice _ =>
    dsimp only
    have hmid := hensure hsmDevice h
    have hstored : mounted (desiredDaemonSet r hsmDevice).spec = true → ∀ labels owner,
        Stored api ⟨labels, api.fill (desiredDaemonSet r hsmDevice).spec, owner⟩ :=
      fun hmounted _ _ => ⟨api.fill_fill _, (api.mounted_fill _).trans hmounted⟩
    split
    · exact hmid
    · unfold ensureDiscoveryDaemonSet
      dsimp only
      split
      · split
        · refine cluster_submit _ _ hmid fun hfate => hds _ _ ?_ hmid
          simpa using hstored (mounted_of_createFate hfate) _ _
        · exact hmid
      · split
        · exact hmid
        · refine cluster_submit _ _ hmid fun hfate => hds _ _ ?_ hmid
          simpa using hstored (mounted_of_validFate hfate) _ _

/-- The HSMDevices stay, and the DaemonSets are such as the API server can hold. -/
structure Kept (api : Defaulting) (devices : String → Option HSMDevice) (c : Cluster) : Prop where
  devices : c.devices = devices
  stored : ∀ name ds, c.daemonSets name = some ds → Stored api ds

theorem kept_reconcile {devices : String → Option HSMDevice} (name : String) (fates : Fates)
    (h : Kept api devices c) : Kept api devices (reconcile api r name c fates).cluster := by
  refine cluster_reconcile (P := Kept api devices) (fun _ _ h => ⟨h.1, h.2⟩) ?_ name fates h
  intro c name ds hds h
  refine ⟨h.devices, fun other d hd => ?_⟩
  simp only [Cluster.setDaemonSet] at hd
  split at hd
  · exact hds d hd
  · exact h.stored other d hd

end Steps

section Labels

variable {labels : StringMap} {desired : List (String × String)}

theorem relabel_unchanged_iff : (relabel labels desired).2 = false ↔
    ∀ kv ∈ desired, labels.getD kv.1 "" = kv.2 := by
  induction desired with
  | nil => simp [relabel]
  | cons kv desired ih =>
    rw [relabel]
    split
    next hne => simp [hne]
    next heq => simp [ih, not_not.mp heq]

theorem getD_relabel_of_not_mem {k : String} (h : k ∉ desired.map Prod.fst) :
    (relabel labels desired).1.getD k "" = labels.getD k "" := by
  induction desired generalizing labels with
  | nil => rfl
  | cons kv desired ih =>
    rw [List.map_cons, List.mem_cons, not_or] at h
    rw [relabel]
    split
    · rw [ih h.2, Std.ExtTreeMap.getD_insert, if_neg]
      exact fun heq => h.1 (Std.LawfulEqCmp.eq_of_compare heq).symm
    · exact ih h.2

theorem getD_relabel (hnodup : (desired.map Prod.fst).Nodup) :
    ∀ kv ∈ desired, (relabel labels desired).1.getD kv.1 "" = kv.2 := by
  induction desired generalizing labels with
  | nil => simp
  | cons kv desired ih =>
    rw [List.map_cons, List.nodup_cons] at hnodup
    intro other hother
    rw [relabel]
    rcases List.mem_cons.mp hother with rfl | hother
    · split
      · simp [getD_relabel_of_not_mem hnodup.1]
      next heq => rw [getD_relabel_of_not_mem hnodup.1, not_not.mp heq]
    · split
      · exact ih hnodup.2 other hother
      · exact ih hnodup.2 other hother

theorem nodup_labelsOf (component name : String) :
    ((labelsOf component name).map Prod.fst).Nodup := by
  simp [labelsOf, labelAppName, labelAppComponent, labelHSMDevice]

theorem getD_assign_labelsOf (component name : String) :
    ∀ kv ∈ labelsOf component name,
      (assign (∅ : StringMap) Prod.fst Prod.snd (labelsOf component name)).getD kv.1 "" = kv.2 := by
  simp [labelsOf, labelAppName, labelAppComponent, labelHSMDevice, Std.ExtTreeMap.getD_insert]

theorem findDevices_of_getD {component name : String} (hname : name ≠ "")
    (hcomponent : component ≠ "")
    (h : ∀ kv ∈ labelsOf component name, labels.getD kv.1 "" = kv.2) :
    findDevices component labels = some name := by
  have hat : ∀ kv ∈ labelsOf component name, kv.2 ≠ "" → labels[kv.1]? = some kv.2 := by
    intro kv hkv hne
    have hget := h kv hkv
    rw [Std.ExtTreeMap.getD_eq_getD_getElem?] at hget
    cases hlookup : labels[kv.1]? with
    | none => exact absurd (by simpa [hlookup] using hget.symm) hne
    | some v => simpa [hlookup] using hget
  have hdevice := hat (labelHSMDevice, name) (by simp [labelsOf]) hname
  have hlabel := hat (labelAppComponent, component) (by simp [labelsOf]) hcomponent
  simp only at hdevice hlabel
  simp [findDevices, hdevice, hlabel]

end Labels

/-- The pool and the DaemonSet of an HSMDevice are as the controller wants them, and a change of
either one leads back to the HSMDevice. -/
structure Settled (api : Defaulting) (r : Reconciler) (hsmDevice : HSMDevice) (c : Cluster) :
    Prop where
  pool : ∃ pool, c.pools (poolName hsmDevice.name) = some pool ∧ pool.gracePeriod.isSome = true ∧
    findDevicesForHSMPool pool = some hsmDevice.name
  daemonSet : ∃ ds, c.daemonSets (daemonSetName hsmDevice.name) = some ds ∧
    ds.spec = api.fill (desiredDaemonSet r hsmDevice).spec ∧
    ds.labels = (desiredDaemonSet r hsmDevice).labels ∧
    findDevicesForDaemonSet ds = some hsmDevice.name

section Settling

variable {api : Defaulting} {r : Reconciler} {c : Cluster} {hsmDevice : HSMDevice}

@[simp] theorem read_served_some {α : Type} (object : α) :
    read .served (some object) = .ok object := rfl

@[simp] theorem read_served_none {α : Type} :
    read .served (none : Option α) = .error ⟨.notFound, "not found"⟩ := rfl

/-- In a test environment two of the volumes that are mounted are missing. -/
theorem mounted_desiredDaemonSet :
    mounted (desiredDaemonSet r hsmDevice).spec = !isTestEnvironment hsmDevice := by
  simp only [desiredDaemonSet, mounted]
  cases isTestEnvironment hsmDevice with
  | false => decide
  | true => decide

theorem validFate_desiredDaemonSet (fate : Fate) :
    validFate (desiredDaemonSet r hsmDevice).spec fate =
      if isTestEnvironment hsmDevice then .refused ⟨.other, "volumeMounts: Not found"⟩
      else fate := by
  rw [validFate, mounted_desiredDaemonSet]
  cases isTestEnvironment hsmDevice with
  | false => rfl
  | true => rfl

theorem ensureHSMPool_served (c : Cluster) (hsmDevice : HSMDevice) :
    let out := ensureHSMPool {} c hsmDevice
    out.error = none ∧ out.cluster.daemonSets = c.daemonSets ∧ out.cluster.devices = c.devices ∧
      ∃ pool, out.cluster.pools (poolName hsmDevice.name) = some pool ∧
        pool.gracePeriod.isSome = true ∧
        ∀ kv ∈ labelsOf "pool" hsmDevice.name, pool.labels.getD kv.1 "" = kv.2 := by
  intro out
  cases hpool : c.pools (poolName hsmDevice.name) with
  | none =>
    simp only [out, ensureHSMPool, hpool, read_served_none]
    exact ⟨rfl, rfl, rfl, desiredPool hsmDevice, if_pos rfl, rfl, getD_assign_labelsOf _ _⟩
  | some existing =>
    by_cases hneeds : existing.gracePeriod.isNone ||
        (relabel existing.labels (labelsOf "pool" hsmDevice.name)).2
    · simp only [out, ensureHSMPool, hpool, read_served_some, hneeds, if_true]
      exact ⟨rfl, rfl, rfl, _, if_pos rfl, rfl, getD_relabel (nodup_labelsOf _ _)⟩
    · simp only [out, ensureHSMPool, hpool, read_served_some, hneeds]
      rw [Bool.or_eq_true, not_or] at hneeds
      refine ⟨rfl, rfl, rfl, existing, hpool, ?_, ?_⟩
      · simpa [Option.isSome_iff_ne_none] using hneeds.1
      · exact relabel_unchanged_iff.mp (by simpa using hneeds.2)

theorem ensureHSMPool_ready {pool : HSMPool} (h : c.pools (poolName hsmDevice.name) = some pool)
    (hgrace : pool.gracePeriod.isSome = true)
    (hlabels : ∀ kv ∈ labelsOf "pool" hsmDevice.name, pool.labels.getD kv.1 "" = kv.2) :
    ensureHSMPool {} c hsmDevice = { cluster := c } := by
  have hnone : pool.gracePeriod.isNone = false := by simp [← Option.not_isSome, hgrace]
  simp [ensureHSMPool, h, relabel_unchanged_iff.mpr hlabels, hnone]

/-- A DaemonSet with the desired spec has what the API server makes of it, since it was stored. -/
theorem ensureDiscoveryDaemonSet_served (htest : isTestEnvironment hsmDevice = false)
    (hstored : ∀ ds, c.daemonSets (daemonSetName hsmDevice.name) = some ds → Stored api ds) :
    let out := ensureDiscoveryDaemonSet api r {} c hsmDevice
    out.error = none ∧ out.cluster.pools = c.pools ∧ out.cluster.devices = c.devices ∧
      ∃ ds, out.cluster.daemonSets (daemonSetName hsmDevice.name) = some ds ∧
        ds.spec = api.fill (desiredDaemonSet r hsmDevice).spec ∧
        ds.labels = (desiredDaemonSet r hsmDevice).labels := by
  intro out
  have hvalid : validFate (desiredDaemonSet r hsmDevice).spec .served = .served := by
    simp [validFate_desiredDaemonSet, htest]
  cases hds : c.daemonSets (daemonSetName hsmDevice.name) with
  | none =>
    simp only [out, ensureDiscoveryDaemonSet, hds, read_served_none, hvalid]
    exact ⟨rfl, rfl, rfl, _, if_pos rfl, rfl, rfl⟩
  | some existing =>
    simp only [out, ensureDiscoveryDaemonSet, hds, read_served_some, hvalid]
    split
    next hsame =>
      refine ⟨rfl, rfl, rfl, existing, hds, ?_, hsame.2⟩
      rw [← hsame.1, (hstored existing hds).1]
    next => exact ⟨rfl, rfl, rfl, _, if_pos rfl, rfl, rfl⟩

theorem ensureDiscoveryDaemonSet_refused (htest : isTestEnvironment hsmDevice = true)
    (hstored : ∀ ds, c.daemonSets (daemonSetName hsmDevice.name) = some ds → Stored api ds) :
    let out := ensureDiscoveryDaemonSet api r {} c hsmDevice
    out.error ≠ none ∧ out.cluster = c := by
  intro out
  cases hds : c.daemonSets (daemonSetName hsmDevice.name) with
  | none =>
    simp [out, ensureDiscoveryDaemonSet, hds, validFate_desiredDaemonSet, htest, createFate, submit]
  | some existing =>
    have hne : existing.spec ≠ (desiredDaemonSet r hsmDevice).spec := by
      intro heq
      have hmounted := (hstored existing hds).2
      simp [heq, mounted_desiredDaemonSet, htest] at hmounted
    simp [out, ensureDiscoveryDaemonSet, hds, validFate_desiredDaemonSet, htest, hne, submit]

end Settling

end HsmSecretsOperator.Controller.DiscoveryDaemonSet
