/- source: internal/agent/naming.go, internal/controller/hsmpool_agent_controller.go,
     internal/controller/constants.go
   digest: Names and labels of agents: which are admitted, and which devices share a name. -/

import Mathlib.Data.Set.Function
import HsmSecretsOperator.Foundation.ObjectNames
import HsmSecretsOperator.Foundation.Text
import HsmSecretsOperator.Pool.Deferral

set_option autoImplicit false

namespace HsmSecretsOperator.Pool.AgentNames

open Agents Deferral
open Discovery.Report (DiscoveredDevice)
open Foundation.ObjectNames Foundation.Text

def sanitizeLabelChar (c : Char) : Char :=
  if ('A' ≤ c ∧ c ≤ 'Z') ∨ ('a' ≤ c ∧ c ≤ 'z') ∨ ('0' ≤ c ∧ c ≤ '9') ∨ c = '-' ∨ c = '_' ∨ c = '.'
  then c else '-'

def isTrimmed (c : Char) : Bool :=
  (c < 'A' || c > 'Z') && (c < 'a' || c > 'z') && (c < '0' || c > '9')

def sanitizeLabelValue (value : String) : String :=
  if value = "" then value
  else
    let sanitized := trim isTrimmed (value.toList.map sanitizeLabelChar)
    if sanitized.length > 63 then String.ofList (trim isTrimmed (sanitized.take 63))
    else String.ofList sanitized

/-- The labels of a new deployment; those of its pods are the same. -/
def agentLabels (deviceName : String) (specificDevice : DiscoveredDevice) (agentName : String) :
    List (String × String) :=
  [("app", agentName),
    ("app.kubernetes.io/component", agentNamePrefix),
    ("app.kubernetes.io/instance", agentName),
    ("app.kubernetes.io/name", agentNamePrefix),
    ("app.kubernetes.io/part-of", "hsm-secrets-operator"),
    ("hsm.j5t.io/device", deviceName),
    ("hsm.j5t.io/serial-number", specificDevice.serialNumber),
    ("hsm.j5t.io/device-path", sanitizeLabelValue specificDevice.devicePath)]

theorem isTrimmed_eq_false {c : Char} : isTrimmed c = false ↔ isAlphanumeric c = true := by
  simp only [isTrimmed, isAlphanumeric, isLowerAlphanumeric, Bool.and_eq_false_iff,
    Bool.or_eq_false_iff, decide_eq_false_iff_not, gt_iff_lt, Char.not_lt, Bool.or_eq_true,
    Bool.and_eq_true, decide_eq_true_eq, or_assoc]

theorem isLabelChar_sanitizeLabelChar (c : Char) : isLabelChar (sanitizeLabelChar c) = true := by
  unfold sanitizeLabelChar
  split
  next h =>
    simp only [isLabelChar, isAlphanumeric, isLowerAlphanumeric, Bool.or_eq_true,
      Bool.and_eq_true, decide_eq_true_eq]
    tauto
  next => decide

theorem enclosed_trim {cs : List Char} (h : ∀ c ∈ cs, isLabelChar c = true) :
    Enclosed isLabelChar isAlphanumeric (trim isTrimmed cs) where
  all c hc := h c (isInfix_trim.subset hc)
  head _ hc := isTrimmed_eq_false.mp (eq_false_of_head?_trim hc)
  last _ hc := isTrimmed_eq_false.mp (eq_false_of_getLast?_trim hc)

theorem labelValue_sanitizeLabelValue (value : String) :
    LabelValue (sanitizeLabelValue value) := by
  have hchars : ∀ c ∈ value.toList.map sanitizeLabelChar, isLabelChar c = true := by
    intro c hc
    obtain ⟨c', -, rfl⟩ := List.mem_map.mp hc
    exact isLabelChar_sanitizeLabelChar c'
  unfold sanitizeLabelValue
  split
  next hempty =>
    subst hempty
    decide
  dsimp only
  split
  next =>
    refine ⟨?_, ?_⟩
    · rw [String.toList_ofList]
      exact isInfix_trim.length_le.trans (List.length_take_le _ _)
    · rw [String.toList_ofList]
      exact enclosed_trim fun c hc => hchars c (isInfix_trim.subset (List.mem_of_mem_take hc))
  next hshort =>
    refine ⟨?_, ?_⟩
    · rw [String.toList_ofList]
      exact Nat.le_of_not_gt hshort
    · rw [String.toList_ofList]
      exact enclosed_trim hchars

/-- What tells agents apart: the name of the HSMDevice and the rewritten serial number. -/
def identity (deviceName serial : String) : List Char :=
  deviceName.toList ++ '-' :: sanitizeNameSegment serial

/-- The characters of the identity that fit into a name. -/
def identityLength : Nat := maxAgentNameLength - (agentNamePrefix.length + 1)

section Names

variable {deviceName serial agentName : String}

theorem sanitizeChar_spec (c : Char) :
    isLowerAlphanumeric (sanitizeChar c) = true ∨ sanitizeChar c = '-' := by
  unfold sanitizeChar
  split
  next h => exact .inl (by simp [isLowerAlphanumeric, h.1, h.2])
  split
  next h => exact .inl (by simp [isLowerAlphanumeric, h.1, h.2])
  split
  next h =>
    have hupper : ∀ n ∈ List.range' 65 26,
        isLowerAlphanumeric (Char.ofNat n).toLower = true := by decide
    have hlow : 65 ≤ c.toNat := h.1
    have hhigh : c.toNat ≤ 90 := h.2
    have hc := hupper c.toNat (List.mem_range'_1.mpr ⟨hlow, by omega⟩)
    rw [Char.ofNat_toNat] at hc
    exact .inl hc
  next => exact .inr rfl

theorem sanitizeNameSegment_eq_trim (serial : String) :
    sanitizeNameSegment serial = trim (· = '-') (serial.toList.map sanitizeChar) := rfl

theorem mem_sanitizeNameSegment {c : Char} (h : c ∈ sanitizeNameSegment serial) :
    isLowerAlphanumeric c = true ∨ c = '-' := by
  rw [sanitizeNameSegment_eq_trim] at h
  obtain ⟨c', -, rfl⟩ := List.mem_map.mp (isInfix_trim.subset h)
  exact sanitizeChar_spec c'

theorem last_sanitizeNameSegment {c : Char} (h : c ∈ (sanitizeNameSegment serial).getLast?) :
    isLowerAlphanumeric c = true := by
  refine (mem_sanitizeNameSegment (List.mem_of_getLast? h)).resolve_right ?_
  rw [sanitizeNameSegment_eq_trim] at h
  have hdash := eq_false_of_getLast?_trim h
  exact of_decide_eq_false hdash

theorem getLast?_identity (h : sanitizeNameSegment serial ≠ []) (front : List Char) :
    (front ++ identity deviceName serial).getLast? = (sanitizeNameSegment serial).getLast? := by
  obtain ⟨c, hc⟩ := Option.ne_none_iff_exists'.mp (mt List.getLast?_eq_none_iff.mp h)
  simp [identity, List.getLast?_append, List.getLast?_cons, hc]

theorem rdropWhile_identity (h : sanitizeNameSegment serial ≠ []) (front : List Char) :
    (front ++ identity deviceName serial).rdropWhile (· = '-') =
      front ++ identity deviceName serial := by
  refine List.rdropWhile_eq_self_iff.mpr fun hne hdash => ?_
  have hlast := List.getLast?_eq_some_getLast hne
  rw [getLast?_identity h] at hlast
  have hlower := last_sanitizeNameSegment hlast
  rw [of_decide_eq_true hdash] at hlower
  exact not_isLowerAlphanumeric_dash hlower

theorem agentInstanceName_eq_some :
    agentInstanceName deviceName serial = some agentName ↔
      sanitizeNameSegment serial ≠ [] ∧ agentName.toList =
        (("hsm-agent-".toList ++ identity deviceName serial).take maxAgentNameLength).rdropWhile
          (· = '-') := by
  have hfull : (agentNamePrefix ++ "-" ++ deviceName ++ "-").toList ++ sanitizeNameSegment serial =
      "hsm-agent-".toList ++ identity deviceName serial := by
    simp [identity, agentNamePrefix, String.toList_append]
  unfold agentInstanceName
  dsimp only
  rw [hfull]
  by_cases hserial : sanitizeNameSegment serial = []
  · simp [hserial]
  rw [if_neg (by simpa using hserial), and_iff_right hserial]
  split
  next => rw [Option.some.injEq, ← String.toList_inj, String.toList_ofList, eq_comm]
  next hshort =>
    -- Nothing is cut, and the serial number does not end in a dash.
    rw [List.take_of_length_le (Nat.le_of_not_gt hshort), rdropWhile_identity hserial,
      Option.some.injEq, ← String.toList_inj, String.toList_ofList, eq_comm]

theorem isSome_agentInstanceName_iff :
    (agentInstanceName deviceName serial).isSome = true ↔ sanitizeNameSegment serial ≠ [] := by
  rw [Option.isSome_iff_exists]
  constructor
  · rintro ⟨agentName, h⟩
    exact (agentInstanceName_eq_some.mp h).1
  · intro h
    exact ⟨_, agentInstanceName_eq_some.mpr ⟨h, String.toList_ofList⟩⟩

end Names

section Admission

variable {deviceName serial agentName : String}

theorem adjacent_of_lower {a b : Char} (ha : a ≠ '.') (hb : b ≠ '.') : Adjacent a b :=
  ⟨fun h => absurd h ha, fun h => absurd h hb⟩

theorem ne_dot_of_lower {c : Char} (h : isLowerAlphanumeric c = true) : c ≠ '.' := by
  rintro rfl
  exact absurd h (by decide)

theorem ne_dot_of_mem_sanitizeNameSegment {c : Char} (h : c ∈ sanitizeNameSegment serial) :
    c ≠ '.' := by
  rcases mem_sanitizeNameSegment h with h | rfl
  · exact ne_dot_of_lower h
  · decide

theorem isChain_of_no_dot {cs : List Char} (h : ∀ c ∈ cs, c ≠ '.') : cs.IsChain Adjacent := by
  induction cs with
  | nil => exact .nil
  | cons c cs ih =>
    refine List.isChain_cons.mpr ⟨fun d hd => ?_, ih fun d hd => h d (List.mem_cons_of_mem c hd)⟩
    exact adjacent_of_lower (h c List.mem_cons_self)
      (h d (List.mem_cons_of_mem c (List.mem_of_head? hd)))

theorem getLast?_take_full (hserial : sanitizeNameSegment serial ≠ []) :
    (("hsm-agent-".toList ++ identity deviceName serial).take maxAgentNameLength).getLast? =
        some '.' ↔ deviceName.toList[52]? = some '.' := by
  have hpositions : ("hsm-agent-".toList ++ identity deviceName serial)[62]? =
      (identity deviceName serial)[52]? := by
    rw [List.getElem?_append_right (by decide)]
    rfl
  have hnodot : ∀ i : Nat, ('-' :: sanitizeNameSegment serial)[i]? ≠ some '.' := by
    intro i hi
    rcases List.mem_cons.mp (List.mem_of_getElem? hi) with h | h
    · exact absurd h (by decide)
    · exact ne_dot_of_mem_sanitizeNameSegment h rfl
  rw [List.getLast?_take, if_neg (by decide), getLast?_identity hserial]
  change ("hsm-agent-".toList ++ identity deviceName serial)[62]?.or _ = _ ↔ _
  rw [hpositions, identity, List.getElem?_append]
  split
  next hlt =>
    rw [List.getElem?_eq_getElem hlt, Option.some_or]
  next hge =>
    rw [List.getElem?_eq_none (Nat.le_of_not_lt hge)]
    refine iff_of_false (fun hdot => ?_) nofun
    cases hrest : ('-' :: sanitizeNameSegment serial)[52 - deviceName.toList.length]? with
    | some c =>
      rw [hrest, Option.some_or] at hdot
      exact hnodot _ (hrest.trans hdot)
    | none =>
      rw [hrest, Option.none_or] at hdot
      exact ne_dot_of_lower (last_sanitizeNameSegment hdot) rfl

variable (hdevice : Subdomain deviceName)
include hdevice

theorem mem_full {c : Char}
    (h : c ∈ "hsm-agent-".toList ++ identity deviceName serial) : isSubdomainChar c = true := by
  have hfront : "hsm-agent-".toList.all isSubdomainChar = true := by decide
  rcases List.mem_append.mp h with h | h
  · exact List.all_eq_true.mp hfront c h
  rcases List.mem_append.mp h with h | h
  · exact hdevice.enclosed.all c h
  rcases List.mem_cons.mp h with rfl | h
  · decide
  · rcases mem_sanitizeNameSegment h with h | rfl
    · rw [isSubdomainChar, h]
      rfl
    · decide

theorem isChain_full :
    ("hsm-agent-".toList ++ identity deviceName serial).IsChain Adjacent := by
  have hserial : ('-' :: sanitizeNameSegment serial).IsChain Adjacent := by
    refine isChain_of_no_dot fun c hc => ?_
    rcases List.mem_cons.mp hc with rfl | hc
    · decide
    · exact ne_dot_of_mem_sanitizeNameSegment hc
  have hidentity : (identity deviceName serial).IsChain Adjacent := by
    refine List.isChain_append.mpr ⟨hdevice.dots, hserial, fun a ha b hb => ?_⟩
    obtain rfl : '-' = b := Option.some.inj hb
    exact adjacent_of_lower (ne_dot_of_lower (hdevice.enclosed.last a ha)) (by decide)
  refine List.isChain_append.mpr ⟨by decide, hidentity, fun a ha b hb => ?_⟩
  obtain rfl : '-' = a := Option.some.inj ha
  obtain ⟨c, cs, hcs⟩ := List.exists_cons_of_ne_nil hdevice.nonempty
  have hhead : b ∈ deviceName.toList.head? := by
    rw [identity, hcs] at hb
    rw [hcs]
    exact hb
  exact adjacent_of_lower (by decide) (ne_dot_of_lower (hdevice.enclosed.head b hhead))

variable (hname : agentInstanceName deviceName serial = some agentName)
include hname

/-- Everything about a name that does not depend on where it was cut. -/
theorem name_spec :
    agentName.toList.length ≤ 63 ∧ (∀ c ∈ agentName.toList, isSubdomainChar c = true) ∧
      agentName.toList.head? = some 'h' ∧ agentName.toList.IsChain Adjacent ∧
      (∀ c ∈ agentName.toList.getLast?, isLowerAlphanumeric c = true ∨ c = '.') ∧
      (agentName.toList.getLast? = some '.' ↔ deviceName.toList[52]? = some '.') := by
  obtain ⟨hserial, hchars⟩ := agentInstanceName_eq_some.mp hname
  have hfull : ("hsm-agent-".toList ++ identity deviceName serial).IsChain Adjacent :=
    isChain_full hdevice
  have hchain := hfull.take maxAgentNameLength
  have hall : ∀ c ∈ agentName.toList, isSubdomainChar c = true := by
    intro c hc
    rw [hchars] at hc
    exact mem_full hdevice (List.mem_of_mem_take ((List.rdropWhile_prefix _ _).subset hc))
  refine ⟨?_, hall, ?_, ?_, fun c hc => ?_, ?_⟩
  · rw [hchars]
    exact (List.rdropWhile_prefix _ _).length_le.trans (List.length_take_le _ _)
  · -- The first character is no dash, so that something is left.
    obtain ⟨rest, hrest⟩ := List.rdropWhile_prefix (fun c : Char => decide (c = '-'))
      (("hsm-agent-".toList ++ identity deviceName serial).take maxAgentNameLength)
    rw [← hchars] at hrest
    cases hcs : agentName.toList with
    | nil =>
      rw [hcs, eq_comm] at hchars
      have hdash := List.rdropWhile_eq_nil_iff.mp hchars 'h' (List.mem_cons_self)
      exact absurd hdash (by decide)
    | cons c cs =>
      rw [hcs] at hrest
      exact congrArg some (List.cons.inj hrest).1
  · rw [hchars]
    exact hchain.prefix (List.rdropWhile_prefix _ _)
  · have hchar := hall c (List.mem_of_getLast? hc)
    rw [hchars] at hc
    have hdash := eq_false_of_getLast?_rdropWhile hc
    simp only [isSubdomainChar, Bool.or_eq_true, decide_eq_true_eq] at hchar
    rcases hchar with (hlower | rfl) | hdot
    · exact .inl hlower
    · cases hdash
    · exact .inr hdot
  · rw [hchars, getLast?_rdropWhile_dash hchain, getLast?_take_full hserial]

theorem last_lower_iff :
    (∀ c ∈ agentName.toList.getLast?, isLowerAlphanumeric c = true) ↔
      deviceName.toList[52]? ≠ some '.' := by
  obtain ⟨-, -, -, -, hlast, hdot⟩ := name_spec hdevice hname
  constructor
  · intro h hcut
    exact ne_dot_of_lower (h '.' (hdot.mpr hcut)) rfl
  · intro h c hc
    refine (hlast c hc).resolve_right ?_
    rintro rfl
    exact h (hdot.mp hc)

theorem subdomain_name_iff :
    Subdomain agentName ↔ deviceName.toList[52]? ≠ some '.' := by
  obtain ⟨hlength, hall, hhead, hchain, -, -⟩ := name_spec hdevice hname
  rw [← last_lower_iff hdevice hname]
  constructor
  · intro h
    exact h.enclosed.last
  · intro hlast
    refine ⟨?_, hlength.trans (by decide), ⟨hall, ?_, hlast⟩, hchain⟩
    · intro hnil
      rw [hnil] at hhead
      cases hhead
    · intro c hc
      obtain rfl := Option.some.inj (hhead.symm.trans hc)
      decide

end Admission

/-- The API server admits the name and all labels of the agent of a device, exactly if the name of
the HSMDevice fits into a label, the name of the agent is not cut right behind a dot of it, and the
serial number is a label value as it is. -/
theorem admissible_iff (deviceName : String) (device : DiscoveredDevice) (agentName : String)
    (hdevice : Subdomain deviceName)
    (hname : agentInstanceName deviceName device.serialNumber = some agentName) :
    (Subdomain agentName ∧
        ∀ entry ∈ agentLabels deviceName device agentName, LabelValue entry.2) ↔
      deviceName.toList.length ≤ 63 ∧ deviceName.toList[52]? ≠ some '.' ∧
        LabelValue device.serialNumber := by
  have hconstant : LabelValue agentNamePrefix ∧ LabelValue "hsm-secrets-operator" := by decide
  rw [subdomain_name_iff hdevice hname, ← hdevice.labelValue_iff]
  constructor
  · rintro ⟨hcut, hlabels⟩
    exact ⟨hlabels ("hsm.j5t.io/device", deviceName) (by simp [agentLabels]), hcut,
      hlabels ("hsm.j5t.io/serial-number", device.serialNumber) (by simp [agentLabels])⟩
  · rintro ⟨hlength, hcut, hserial⟩
    have hagent : LabelValue agentName :=
      ((subdomain_name_iff hdevice hname).mpr hcut).labelValue_iff.mpr (name_spec hdevice hname).1
    refine ⟨hcut, ?_⟩
    simp only [agentLabels, List.forall_mem_cons, List.not_mem_nil, false_imp_iff, implies_true,
      and_true]
    exact ⟨hagent, hconstant.1, hagent, hconstant.1, hconstant.2, hlength, hserial,
      labelValue_sanitizeLabelValue device.devicePath⟩

private def deviceWith (serialNumber nodeName : String) : DiscoveredDevice where
  devicePath := "/dev/bus/usb/001/004"
  serialNumber
  nodeName
  lastSeen := 0
  available := true

theorem admissible_of_plain_names :
    Subdomain "hsm-agent-pico-hsm-dc6a" ∧ ∀ entry ∈ agentLabels "pico-hsm" (deviceWith "DC6A" "n1")
      "hsm-agent-pico-hsm-dc6a", LabelValue entry.2 :=
  (admissible_iff "pico-hsm" (deviceWith "DC6A" "n1") "hsm-agent-pico-hsm-dc6a" (by decide)
    (by decide)).mpr (by decide)

/-- A serial number with a blank makes a good name, and a label that the API server refuses. -/
theorem blank_in_serial_refused :
    Subdomain "pico-hsm" ∧
      agentInstanceName "pico-hsm" "DC 6A" = some "hsm-agent-pico-hsm-dc-6a" ∧
      ∃ entry ∈ agentLabels "pico-hsm" (deviceWith "DC 6A" "n1") "hsm-agent-pico-hsm-dc-6a",
        ¬ LabelValue entry.2 := by
  decide

/-- The identities differ at a place that a name keeps; behind their ends they count as dashes. -/
def Distinguishable (x y : String × String) : Prop :=
  ∃ i < identityLength, (identity x.1 x.2).getD i '-' ≠ (identity y.1 y.2).getD i '-'

instance (x y : String × String) : Decidable (Distinguishable x y) :=
  inferInstanceAs (Decidable (∃ i < identityLength, _))

theorem eq_iff_not_distinguishable {x y : String × String} {name name' : String}
    (h : agentInstanceName x.1 x.2 = some name) (h' : agentInstanceName y.1 y.2 = some name') :
    name = name' ↔ ¬ Distinguishable x y := by
  have hshift (i : Nat) (z : String × String) :
      ("hsm-agent-".toList ++ identity z.1 z.2).getD (i + 10) '-' =
        (identity z.1 z.2).getD i '-' := by
    rw [List.getD_append_right _ _ _ _ (by simp)]
    rfl
  have hstart (i : Nat) (hi : i < 10) (z : String × String) :
      ("hsm-agent-".toList ++ identity z.1 z.2).getD i '-' = "hsm-agent-".toList.getD i '-' :=
    List.getD_append _ _ _ _ hi
  rw [← String.toList_inj, (agentInstanceName_eq_some.mp h).2, (agentInstanceName_eq_some.mp h').2,
    rdropWhile_take_eq_iff]
  simp only [Distinguishable, not_exists, not_and, not_not]
  constructor
  · intro hsame i hi
    have hi' : i + 10 < maxAgentNameLength := Nat.add_lt_of_lt_sub hi
    have hchar := hsame (i + 10) hi'
    rw [hshift, hshift] at hchar
    exact hchar
  · intro hsame i hi
    by_cases hlow : i < 10
    · rw [hstart i hlow, hstart i hlow]
    · obtain ⟨j, rfl⟩ := Nat.exists_eq_add_of_le' (Nat.le_of_not_lt hlow)
      rw [hshift, hshift]
      exact hsame j (Nat.lt_sub_of_add_lt hi)

/-- The devices of a set get different agents, exactly if any two of them are told apart by what a
name keeps of them. -/
theorem agents_differ_iff (devices : Set (String × String))
    (haccepted : ∀ x ∈ devices, (agentInstanceName x.1 x.2).isSome = true) :
    Set.InjOn (fun x => agentInstanceName x.1 x.2) devices ↔
      devices.Pairwise Distinguishable := by
  have hnames : ∀ x ∈ devices, ∀ y ∈ devices,
      (agentInstanceName x.1 x.2 = agentInstanceName y.1 y.2 ↔ ¬ Distinguishable x y) := by
    intro x hx y hy
    obtain ⟨name, hname⟩ := Option.isSome_iff_exists.mp (haccepted x hx)
    obtain ⟨name', hname'⟩ := Option.isSome_iff_exists.mp (haccepted y hy)
    rw [hname, hname', Option.some.injEq, eq_iff_not_distinguishable hname hname']
  constructor
  · intro h x hx y hy hne
    by_contra hsame
    exact hne (h hx hy ((hnames x hx y hy).mpr hsame))
  · intro h x hx y hy heq
    by_contra hne
    exact (hnames x hx y hy).mp heq (h hx hy hne)

theorem two_serials_two_agents :
    Set.InjOn (fun x : String × String => agentInstanceName x.1 x.2)
      {("pico", "DC6A"), ("pico", "DC6B")} := by
  refine (agents_differ_iff {("pico", "DC6A"), ("pico", "DC6B")} ?_).mpr ?_
  · rintro x (rfl | rfl)
    · decide
    · decide
  · rintro x (rfl | rfl) y (rfl | rfl) hne
    · exact absurd rfl hne
    · decide
    · decide
    · exact absurd rfl hne

private def sharedPool : Aggregation.HSMPool where
  ownerReferences := ["pico"]
  status :=
    { phase := .ready, aggregatedDevices := [deviceWith "DC6A" "n1", deviceWith "dc6a" "n2"] }

/-- Different serial numbers, or different HSMDevices, share a name; so two devices share one
deployment, and it runs on the node of the one that was looked at last. -/
theorem devices_share_agent :
    agentInstanceName "pico" "DC6A" = some "hsm-agent-pico-dc6a" ∧
      agentInstanceName "pico" "dc6a" = some "hsm-agent-pico-dc6a" ∧
      agentInstanceName "pico" "hsm-1" = agentInstanceName "pico-hsm" "1" ∧
      (ensureAgentDeployments { now := 0, serials := ["DC6A", "dc6a"] } sharedPool "pico"
        []).1.items.map (fun d => (d.name, d.hostname)) =
          [("hsm-agent-pico-dc6a", some "n2")] := by
  decide +kernel

end HsmSecretsOperator.Pool.AgentNames
