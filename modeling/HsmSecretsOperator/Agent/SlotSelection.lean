/- source: internal/controller/hsmpool_agent_controller.go, cmd/hsm-operator/main.go,
     internal/modes/agent/agent.go, internal/config/agent.go, internal/hsm/client.go,
     internal/hsm/pkcs11_client.go, internal/hsm/pkcs11_cgo.go
   digest: The way of a configured slot to the session of an agent, and where it is lost. -/

import HsmSecretsOperator.Foundation.Flags
import HsmSecretsOperator.Foundation.Lines

/-! The agent never sets the field that says the configured slot is to be used. -/

set_option autoImplicit false

namespace HsmSecretsOperator.Agent.SlotSelection

open Foundation.Decimal Foundation.Flags Foundation.Lines Foundation.Text

/-- The PKCS#11 part of an HSMDevice, as far as the agent is told of it. -/
structure PKCS11Config where
  libraryPath : String := ""
  slotId : Int32 := 0
  tokenLabel : String := ""

/-- The settings of the controller for mTLS. -/
structure TLSOptions where
  agentTLSEnabled : Bool
  agentTLSSecretName : String

def agentPort : Int := 9090

def agentHealthPort : Int := 8093

def agentTLSMountPath : String := "/etc/hsm/tls"

def basicArgs (tls : TLSOptions) (deviceName : String) : List String :=
  ["--mode=agent",
    "--device-name=" ++ deviceName,
    "--port=" ++ sprintfD agentPort,
    "--health-port=" ++ sprintfD agentHealthPort] ++
  if tls.agentTLSEnabled ∧ tls.agentTLSSecretName ≠ "" then
    ["--tls-cert-file=" ++ (agentTLSMountPath ++ "/" ++ "tls.crt"),
      "--tls-key-file=" ++ (agentTLSMountPath ++ "/" ++ "tls.key"),
      "--tls-client-ca-file=" ++ (agentTLSMountPath ++ "/" ++ "ca.crt")]
  else []

def pkcs11Args (config : PKCS11Config) : List String :=
  (if config.tokenLabel ≠ "" then ["--token-label=" ++ config.tokenLabel] else []) ++
  (if 0 ≤ config.slotId.toInt then ["--slot-id=" ++ sprintfD config.slotId.toInt] else []) ++
  if config.libraryPath ≠ "" then ["--pkcs11-library=" ++ config.libraryPath] else []

/-- The outer option is none if the HSMDevice cannot be read, the inner one if it has no PKCS#11
part. -/
def buildAgentArgs (tls : TLSOptions) (deviceName : String)
    (device : Option (Option PKCS11Config)) : List String :=
  basicArgs tls deviceName ++
    match device with
    | some (some config) => pkcs11Args config
    | _ => []

/-- A global flag whose value may be the next argument. -/
inductive Pending
  | none
  | mode
  | logLevel
  deriving DecidableEq

/-- The arguments that are left when the global flags are taken out. -/
def modeSpecificFrom : Pending → List String → List String
  | .mode, [] => ["--mode"]
  | _, [] => []
  | pending, arg :: rest =>
    if pending = .mode then modeSpecificFrom .none rest
    else if pending = .logLevel ∧ hasPrefix arg "--" = false then modeSpecificFrom .none rest
    else if hasPrefix arg "--mode=" then modeSpecificFrom .none rest
    else if arg = "--mode" then modeSpecificFrom .mode rest
    else if arg = "--log-level" then modeSpecificFrom .logLevel rest
    else if hasPrefix arg "--log-level=" || hasPrefix arg "--help" then modeSpecificFrom .none rest
    else arg :: modeSpecificFrom .none rest

/-- What `main` hands to the mode. -/
def modeSpecificArgs (args : List String) : List String := modeSpecificFrom .none args

structure AgentFlags where
  deviceName : String := ""
  port : Int := 9090
  healthPort : Int := 8093
  pkcs11LibraryPath : String := ""
  slotID : Int := -1
  tokenLabel : String := ""
  pin : String := ""
  requireHardware : Bool := true
  tlsCertFile : String := ""
  tlsKeyFile : String := ""
  tlsClientCAFile : String := ""
  deriving DecidableEq

def formal (name : String) : Option Kind :=
  [("device-name", Kind.string), ("port", .int), ("health-port", .int),
    ("pkcs11-library", .string), ("slot-id", .int), ("token-label", .string), ("pin", .string),
    ("require-hardware", .bool), ("tls-cert-file", .string), ("tls-key-file", .string),
    ("tls-client-ca-file", .string)].lookup name

def AgentFlags.set (flags : AgentFlags) : String × Setting → AgentFlags
  | ("device-name", .string v) => { flags with deviceName := v }
  | ("port", .int v) => { flags with port := v }
  | ("health-port", .int v) => { flags with healthPort := v }
  | ("pkcs11-library", .string v) => { flags with pkcs11LibraryPath := v }
  | ("slot-id", .int v) => { flags with slotID := v }
  | ("token-label", .string v) => { flags with tokenLabel := v }
  | ("pin", .string v) => { flags with pin := v }
  | ("require-hardware", .bool v) => { flags with requireHardware := v }
  | ("tls-cert-file", .string v) => { flags with tlsCertFile := v }
  | ("tls-key-file", .string v) => { flags with tlsKeyFile := v }
  | ("tls-client-ca-file", .string v) => { flags with tlsClientCAFile := v }
  | _ => flags

def parseFlags (args : List String) : Except FlagError AgentFlags :=
  (parse formal args).map fun settings => settings.foldl AgentFlags.set {}

/-- What an agent finds where it starts. -/
structure Host where
  /-- The error of making the clients for the cluster. -/
  kubernetes : Option String
  /-- `GetCurrentNamespace` and `os.Hostname`. -/
  podNamespace : Except String String
  /-- The error of `os.Stat`. -/
  stat : String → Option String
  startPcscd : Option String
  /-- What the PIN provider returns. -/
  getPIN : Except String String

inductive RunError
  | flags (err : FlagError)
  | failed (text : String)
  | noTokenOrSlot (deviceName : String)
  | libraryNotFound (libraryPath deviceName err : String)

def validate (flags : AgentFlags) (podNamespace : String) : Option String :=
  if flags.deviceName = "" then some "device name is required"
  else if flags.pkcs11LibraryPath = "" then some "PKCS11 library path is required"
  else if podNamespace = "" then some "pod namespace is required"
  else none

structure Config where
  pkcs11LibraryPath : String
  slotID : Nat
  useSlotID : Bool := false
  tokenLabel : String
  pinProvider : Option (Except String String)

/-- The conversion of an `int` to `uint`. -/
def toUint (v : Int) : Nat := (v % 18446744073709551616).toNat

/-- Whether the PKCS#11 client is used, or the mock client. -/
def usePKCS11 (host : Host) (flags : AgentFlags) : Except RunError Bool :=
  match host.stat flags.pkcs11LibraryPath with
  | none =>
    if flags.tokenLabel ≠ "" ∨ 0 ≤ flags.slotID then .ok true
    else if flags.requireHardware then .error (.noTokenOrSlot flags.deviceName)
    else .ok false
  | some err =>
    if flags.requireHardware then
      .error (.libraryNotFound flags.pkcs11LibraryPath flags.deviceName err)
    else .ok false

/-- `Run` up to the configuration that the PKCS#11 client is initialized with; none for the mock
client. -/
def hsmConfig (host : Host) (args : List String) : Except RunError (Option Config) :=
  match parseFlags args with
  | .error err => .error (.flags err)
  | .ok flags =>
    if flags.deviceName = "" then .error (.failed "device name is required via --device-name")
    else
      match host.kubernetes, host.podNamespace with
      | some err, _ => .error (.failed err)
      | none, .error err => .error (.failed ("failed to create agent config: " ++ err))
      | none, .ok podNamespace =>
        match validate flags podNamespace with
        | some err => .error (.failed ("invalid agent configuration: " ++ err))
        | none =>
          match usePKCS11 host flags with
          | .error err => .error err
          | .ok false => .ok none
          | .ok true =>
            match host.startPcscd with
            | some err => .error (.failed ("failed to start pcscd: " ++ err))
            | none =>
              .ok (some
                { pkcs11LibraryPath := flags.pkcs11LibraryPath
                  slotID := toUint flags.slotID
                  tokenLabel := flags.tokenLabel
                  pinProvider := some host.getPIN })

structure Library where
  newContext : String → Bool
  initLibrary : Option String
  /-- The slots with tokens. -/
  getSlotList : Except String (List Nat)
  /-- The label of the token in a slot. -/
  getTokenInfo : Nat → Except String Bytes
  openSession : Nat → Except String Nat
  login : Nat → String → Option String

structure Session where
  session : Nat
  slot : Nat
  deriving DecidableEq

def hasLabel (lib : Library) (label : String) (slot : Nat) : Bool :=
  match lib.getTokenInfo slot with
  | .error _ => false
  | .ok tokenLabel => trimSpace tokenLabel = utf8 label

def targetSlot (lib : Library) (config : Config) (slots : List Nat) : Except String Nat :=
  match slots with
  | [] => .error "no slots with tokens found"
  | first :: _ =>
    if config.useSlotID then
      if config.slotID ∈ slots then .ok config.slotID
      else .error s!"specified slot ID {config.slotID} not found"
    else if config.tokenLabel ≠ "" then
      match slots.find? (hasLabel lib config.tokenLabel) with
      | some slot => .ok slot
      | none => .error s!"token with label '{config.tokenLabel}' not found"
    else .ok first

def initializePKCS11 (lib : Library) (config : Config) (pin : String) : Except String Session :=
  if lib.newContext config.pkcs11LibraryPath = false then
    .error s!"failed to create PKCS#11 context for library: {config.pkcs11LibraryPath}"
  else
    match lib.initLibrary, lib.getSlotList with
    | some err, _ => .error s!"failed to initialize PKCS#11 library: {err}"
    | none, .error err => .error s!"failed to get slot list: {err}"
    | none, .ok slots =>
      match targetSlot lib config slots with
      | .error err => .error err
      | .ok slot =>
        match lib.openSession slot with
        | .error err => .error s!"failed to open session: {err}"
        | .ok session =>
          match lib.login session pin with
          | some err => .error s!"failed to login with PIN: {err}"
          | none => .ok ⟨session, slot⟩

def initializeClient (lib : Library) (config : Config) : Except String Session :=
  if config.pkcs11LibraryPath = "" then .error "PKCS11LibraryPath is required"
  else
    match config.pinProvider with
    | none => .error "PINProvider is required for HSM authentication"
    | some (.error err) => .error s!"failed to get PIN from provider: {err}"
    | some (.ok pin) => initializePKCS11 lib config pin

/-- The arguments are read as the settings once the global flags are taken out. -/
private def Reads (args : List String) (settings : List (String × Setting)) : Prop :=
  parse formal (modeSpecificArgs args) = .ok settings

/-- The arguments are read as the settings, whatever follows them. -/
private def Block (args : List String) (settings : List (String × Setting)) : Prop :=
  ∀ rest others, Reads rest others → Reads (args ++ rest) (settings ++ others)

/-- The beginning of an argument that cannot be taken for a global flag. -/
private def OwnFlag (first : String) : Prop :=
  ∀ g ∈ ["--mode", "--log-level", "--help"],
    ¬ g.toList <+: first.toList ∧ ¬ first.toList <+: g.toList

private instance (first : String) : Decidable (OwnFlag first) :=
  inferInstanceAs (Decidable (∀ g ∈ ["--mode", "--log-level", "--help"],
    ¬ g.toList <+: first.toList ∧ ¬ first.toList <+: g.toList))

private theorem not_prefix_of_ownFlag {first g : String} (h : OwnFlag first)
    (hg : g ∈ ["--mode", "--log-level", "--help"]) (value : String) :
    ¬ g.toList <+: (first ++ value).toList := by
  rw [String.toList_append]
  intro hfront
  rcases List.prefix_or_prefix_of_prefix hfront (List.prefix_append _ value.toList) with hle | hle
  · exact (h g hg).1 hle
  · exact (h g hg).2 hle

private theorem hasPrefix_of_ownFlag {first g p : String} (h : OwnFlag first)
    (hg : g ∈ ["--mode", "--log-level", "--help"]) (hp : g.toList <+: p.toList) (value : String) :
    hasPrefix (first ++ value) p = false := by
  refine Bool.eq_false_iff.mpr fun hfront => not_prefix_of_ownFlag h hg value ?_
  exact hp.trans (List.isPrefixOf_iff_prefix.mp hfront)

private theorem modeSpecificArgs_cons {first : String} (h : OwnFlag first) (value : String)
    (rest : List String) :
    modeSpecificArgs ((first ++ value) :: rest) = (first ++ value) :: modeSpecificArgs rest := by
  have hmode : first ++ value ≠ "--mode" := fun heq =>
    not_prefix_of_ownFlag h (g := "--mode") (by decide) value (heq ▸ List.prefix_rfl)
  have hlevel : first ++ value ≠ "--log-level" := fun heq =>
    not_prefix_of_ownFlag h (g := "--log-level") (by decide) value (heq ▸ List.prefix_rfl)
  have hmodePrefix : hasPrefix (first ++ value) "--mode=" = false :=
    hasPrefix_of_ownFlag h (g := "--mode") (by decide) (by decide) value
  have hlevelPrefix : hasPrefix (first ++ value) "--log-level=" = false :=
    hasPrefix_of_ownFlag h (g := "--log-level") (by decide) (by decide) value
  have hhelp : hasPrefix (first ++ value) "--help" = false :=
    hasPrefix_of_ownFlag h (g := "--help") (by decide) (by decide) value
  simp [modeSpecificArgs, modeSpecificFrom, hmodePrefix, hmode, hlevelPrefix, hlevel, hhelp]

private theorem Block.flag {first name value : String} {kind : Kind} {setting : Setting}
    (hown : OwnFlag first) (hname : FlagName name) (hfirst : "--" ++ name ++ "=" = first)
    (hformal : formal name = some kind) (hset : kind.set value = some setting) :
    Block [first ++ value] [(name, setting)] := by
  intro rest others hrest
  rw [Reads, List.singleton_append, modeSpecificArgs_cons hown, ← hfirst]
  exact parse_equals hname hformal hset hrest

private theorem Block.nil : Block [] [] := fun _ _ h => h

private theorem Block.append {args args' : List String}
    {settings settings' : List (String × Setting)} (h : Block args settings)
    (h' : Block args' settings') :
    Block (args ++ args') (settings ++ settings') := by
  intro rest others hrest
  rw [List.append_assoc, List.append_assoc]
  exact h _ _ (h' _ _ hrest)

private theorem Block.ite {c : Prop} [Decidable c] {args : List String}
    {settings : List (String × Setting)} (h : c → Block args settings) :
    Block (if c then args else []) (if c then settings else []) := by
  by_cases hc : c
  · rw [if_pos hc, if_pos hc]
    exact h hc
  · rw [if_neg hc, if_neg hc]
    exact Block.nil

private theorem Block.reads {args : List String} {settings : List (String × Setting)}
    (h : Block args settings) : Reads args settings := by
  have hread := h [] [] rfl
  rwa [List.append_nil, List.append_nil] at hread

private instance (name : String) : Decidable (FlagName name) :=
  decidable_of_iff (name.toList ≠ [] ∧ (name.toList.head? ≠ some '-' ∧
      name.toList.head? ≠ some '=') ∧ '=' ∉ name.toList)
    ⟨fun h => ⟨h.1, h.2.1, h.2.2⟩, fun h => ⟨h.ne_nil, h.head, h.plain⟩⟩

/-- What the TLS arguments set. -/
def tlsSettings : List (String × Setting) :=
  [("tls-cert-file", .string "/etc/hsm/tls/tls.crt"),
    ("tls-key-file", .string "/etc/hsm/tls/tls.key"),
    ("tls-client-ca-file", .string "/etc/hsm/tls/ca.crt")]

private theorem block_string {first name : String} (hown : OwnFlag first) (hname : FlagName name)
    (hfirst : "--" ++ name ++ "=" = first) (hformal : formal name = some .string)
    (value : String) : Block [first ++ value] [(name, .string value)] :=
  Block.flag hown hname hfirst hformal rfl

private theorem block_int {first name : String} (hown : OwnFlag first) (hname : FlagName name)
    (hfirst : "--" ++ name ++ "=" = first) (hformal : formal name = some .int) (v : Int)
    (hv : 0 ≤ v) (hrange : InInt64 v) : Block [first ++ sprintfD v] [(name, .int v)] := by
  refine Block.flag hown hname hfirst hformal ?_
  rw [Kind.set, parseInt_sprintfD hv hrange]
  rfl

private theorem block_basicArgs (tls : TLSOptions) (deviceName : String) :
    Block (basicArgs tls deviceName)
      ([("device-name", .string deviceName), ("port", .int 9090), ("health-port", .int 8093)] ++
        if tls.agentTLSEnabled ∧ tls.agentTLSSecretName ≠ "" then tlsSettings else []) := by
  have hmode : Block ["--mode=agent"] [] := fun rest others h => h
  have hname :=
    @block_string "--device-name=" "device-name" (by decide) (by decide) rfl rfl deviceName
  have hport : Block ["--port=" ++ sprintfD agentPort] [("port", .int 9090)] :=
    @block_int "--port=" "port" (by decide) (by decide) rfl rfl agentPort (by decide) (by decide)
  have hhealth :
      Block ["--health-port=" ++ sprintfD agentHealthPort] [("health-port", .int 8093)] :=
    @block_int "--health-port=" "health-port" (by decide) (by decide) rfl rfl agentHealthPort
      (by decide) (by decide)
  have htls : Block
      ["--tls-cert-file=" ++ (agentTLSMountPath ++ "/" ++ "tls.crt"),
        "--tls-key-file=" ++ (agentTLSMountPath ++ "/" ++ "tls.key"),
        "--tls-client-ca-file=" ++ (agentTLSMountPath ++ "/" ++ "ca.crt")] tlsSettings :=
    (@block_string "--tls-cert-file=" "tls-cert-file" (by decide) (by decide) rfl rfl _).append
      ((@block_string "--tls-key-file=" "tls-key-file" (by decide) (by decide) rfl rfl _).append
        (@block_string "--tls-client-ca-file=" "tls-client-ca-file" (by decide) (by decide) rfl rfl
          _))
  exact (hmode.append (hname.append (hport.append hhealth))).append (Block.ite fun _ => htls)

private theorem inInt64_toInt (v : Int32) : InInt64 v.toInt := by
  have hmin := v.le_toInt
  have hmax := v.toInt_lt
  constructor
  · unfold Foundation.Decimal.minInt64
    omega
  · unfold Foundation.Decimal.maxInt64
    omega

private theorem block_pkcs11Args (config : PKCS11Config) :
    Block (pkcs11Args config)
      ((if config.tokenLabel ≠ "" then [("token-label", .string config.tokenLabel)] else []) ++
        (if 0 ≤ config.slotId.toInt then [("slot-id", .int config.slotId.toInt)] else []) ++
        if config.libraryPath ≠ "" then [("pkcs11-library", .string config.libraryPath)]
        else []) := by
  refine ((Block.ite fun _ => ?_).append (Block.ite fun hslot => ?_)).append (Block.ite fun _ => ?_)
  · exact @block_string "--token-label=" "token-label" (by decide) (by decide) rfl rfl _
  · exact @block_int "--slot-id=" "slot-id" (by decide) (by decide) rfl rfl _ hslot
      (inInt64_toInt _)
  · exact @block_string "--pkcs11-library=" "pkcs11-library" (by decide) (by decide) rfl rfl _

/-- The flags that an agent is started with for a device with a PKCS#11 part. -/
def agentFlags (tls : TLSOptions) (deviceName : String) (config : PKCS11Config) : AgentFlags :=
  let mounted := tls.agentTLSEnabled ∧ tls.agentTLSSecretName ≠ ""
  { deviceName
    pkcs11LibraryPath := config.libraryPath
    slotID := if 0 ≤ config.slotId.toInt then config.slotId.toInt else -1
    tokenLabel := config.tokenLabel
    tlsCertFile := if mounted then "/etc/hsm/tls/tls.crt" else ""
    tlsKeyFile := if mounted then "/etc/hsm/tls/tls.key" else ""
    tlsClientCAFile := if mounted then "/etc/hsm/tls/ca.crt" else "" }

private theorem foldl_set_ite {c : Prop} [Decidable c] {settings : List (String × Setting)}
    {flags flags' : AgentFlags} (hset : c → settings.foldl AgentFlags.set flags = flags')
    (hkeep : ¬ c → flags = flags') :
    (if c then settings else []).foldl AgentFlags.set flags = flags' := by
  by_cases hc : c
  · rw [if_pos hc]
    exact hset hc
  · rw [if_neg hc]
    exact hkeep hc

theorem parseFlags_buildAgentArgs (tls : TLSOptions) (deviceName : String)
    (config : PKCS11Config) :
    parseFlags (modeSpecificArgs (buildAgentArgs tls deviceName (some (some config)))) =
      .ok (agentFlags tls deviceName config) := by
  have hreads := ((block_basicArgs tls deviceName).append (block_pkcs11Args config)).reads
  unfold Reads at hreads
  let basic := agentFlags tls deviceName { libraryPath := "", slotId := -1, tokenLabel := "" }
  have hbasic : ([("device-name", Setting.string deviceName), ("port", .int 9090),
      ("health-port", .int 8093)] ++ if tls.agentTLSEnabled ∧ tls.agentTLSSecretName ≠ "" then
        tlsSettings else []).foldl AgentFlags.set {} = basic := by
    rw [List.foldl_append]
    refine foldl_set_ite (fun htls => ?_) fun htls => ?_
    · simp only [basic, agentFlags, if_pos htls]
      rfl
    · simp only [basic, agentFlags, if_neg htls]
      rfl
  have hlabel : (if config.tokenLabel ≠ "" then
      [("token-label", Setting.string config.tokenLabel)] else []).foldl AgentFlags.set basic =
        { basic with tokenLabel := config.tokenLabel } := by
    refine foldl_set_ite (fun _ => rfl) fun hempty => ?_
    rw [not_not.mp hempty]
    rfl
  have hslot (flags : AgentFlags) (hflags : flags.slotID = -1) :
      (if 0 ≤ config.slotId.toInt then [("slot-id", Setting.int config.slotId.toInt)]
        else []).foldl AgentFlags.set flags =
      { flags with slotID := if 0 ≤ config.slotId.toInt then config.slotId.toInt else -1 } := by
    refine foldl_set_ite (fun h => ?_) fun h => ?_
    · rw [if_pos h]
      rfl
    · rw [if_neg h, ← hflags]
  have hlibrary (flags : AgentFlags) (hflags : flags.pkcs11LibraryPath = "") :
      (if config.libraryPath ≠ "" then [("pkcs11-library", Setting.string config.libraryPath)]
        else []).foldl AgentFlags.set flags =
      { flags with pkcs11LibraryPath := config.libraryPath } := by
    refine foldl_set_ite (fun _ => rfl) fun hempty => ?_
    rw [not_not.mp hempty, ← hflags]
  rw [parseFlags, buildAgentArgs, hreads, Except.map, List.foldl_append, List.foldl_append,
    List.foldl_append, hbasic, hlabel, hslot _ rfl, hlibrary _ rfl]
  rfl

/-- What `Run` makes of its flags when it uses the PKCS#11 client. -/
theorem of_hsmConfig {host : Host} {args : List String} {config : Config}
    (h : hsmConfig host args = .ok (some config)) : ∃ flags, parseFlags args = .ok flags ∧
      flags.pkcs11LibraryPath ≠ "" ∧
      config =
        { pkcs11LibraryPath := flags.pkcs11LibraryPath
          slotID := toUint flags.slotID
          tokenLabel := flags.tokenLabel
          pinProvider := some host.getPIN } := by
  unfold hsmConfig at h
  split at h
  · cases h
  next flags hflags =>
    split at h
    · cases h
    next hname =>
      split at h
      · cases h
      · cases h
      split at h
      · cases h
      next hvalid =>
        split at h
        · cases h
        · cases h
        split at h
        · cases h
        · cases h
          refine ⟨flags, hflags, fun hpath => ?_, rfl⟩
          simp [validate, hname, hpath] at hvalid

theorem initializeClient_eq_ok_iff {lib : Library} {config : Config} {session : Session} :
    initializeClient lib config = .ok session ↔
      config.pkcs11LibraryPath ≠ "" ∧ lib.newContext config.pkcs11LibraryPath = true ∧
        lib.initLibrary = none ∧ ∃ pin slots, config.pinProvider = some (.ok pin) ∧
        lib.getSlotList = .ok slots ∧ targetSlot lib config slots = .ok session.slot ∧
        lib.openSession session.slot = .ok session.session ∧
        lib.login session.session pin = none := by
  constructor
  · intro h
    unfold initializeClient at h
    split at h
    · cases h
    next hpath =>
      split at h
      · cases h
      · cases h
      next pin hpin =>
        unfold initializePKCS11 at h
        split at h
        · cases h
        next hcontext =>
          split at h
          · cases h
          · cases h
          next slots hinit hslots =>
            split at h
            · cases h
            next slot hslot =>
              split at h
              · cases h
              next handle hopen =>
                split at h
                · cases h
                next hlogin =>
                  cases h
                  exact ⟨hpath, Bool.not_eq_false _ |>.mp hcontext, hinit, pin, slots, hpin, hslots,
                    hslot, hopen, hlogin⟩
  · rintro ⟨hpath, hcontext, hinit, pin, slots, hpin, hslots, hslot, hopen, hlogin⟩
    rw [initializeClient, if_neg hpath, hpin]
    dsimp only
    rw [initializePKCS11, hcontext, hinit, hslots]
    dsimp only
    rw [if_neg (by decide), hslot]
    dsimp only
    rw [hopen]
    dsimp only
    rw [hlogin]

/-- A library with tokens in the slots, all of whose calls succeed. -/
def working (slots : List Nat) : Library where
  newContext _ := true
  initLibrary := none
  getSlotList := .ok slots
  getTokenInfo _ := .ok []
  openSession _ := .ok 1
  login _ _ := none

/-- With a slot and no token label, the client opens its session on the slot or fails, whatever the
library does, exactly if there is no PIN, no token, or the slot comes first. -/
theorem explicitSlot_iff (host : Host) (args : List String) (flags : AgentFlags) (config : Config)
    (hflags : parseFlags args = .ok flags) (hlabel : flags.tokenLabel = "")
    (hconfig : hsmConfig host args = .ok (some config)) (slots : List Nat) :
    (∀ lib : Library, lib.getSlotList = .ok slots → ∀ session,
        initializeClient lib config = .ok session → (session.slot : Int) = flags.slotID) ↔
      (∃ err, host.getPIN = .error err) ∨
        ∀ first, slots.head? = some first → (first : Int) = flags.slotID := by
  obtain ⟨flags', hflags', hpath, rfl⟩ := of_hsmConfig hconfig
  obtain rfl : flags = flags' := Except.ok.inj (hflags.symm.trans hflags')
  have htarget (lib : Library) (first : Nat) (rest : List Nat) :
      targetSlot lib
        { pkcs11LibraryPath := flags.pkcs11LibraryPath
          slotID := toUint flags.slotID
          tokenLabel := flags.tokenLabel
          pinProvider := some host.getPIN } (first :: rest) = .ok first := by
    simp [targetSlot, hlabel]
  constructor
  · intro h
    cases hpin : host.getPIN with
    | error err => exact .inl ⟨err, rfl⟩
    | ok pin =>
      refine .inr fun first hfirst => ?_
      obtain ⟨rest, rfl⟩ := List.head?_eq_some_iff.mp hfirst
      refine h (working (first :: rest)) rfl ⟨1, first⟩ ?_
      exact initializeClient_eq_ok_iff.mpr ⟨hpath, rfl, rfl, pin, first :: rest, congrArg some hpin,
        rfl, htarget _ _ _, rfl, rfl⟩
  · intro h lib hslots session hsession
    obtain ⟨_, _, _, pin, slots', hpin, hslots', hslot, _⟩ :=
      initializeClient_eq_ok_iff.mp hsession
    obtain rfl : slots = slots' := Except.ok.inj (hslots.symm.trans hslots')
    rcases h with ⟨err, herr⟩ | hfirst
    · rw [herr] at hpin
      cases hpin
    cases slots with
    | nil => cases hslot
    | cons first rest =>
      rw [htarget] at hslot
      obtain rfl := Except.ok.inj hslot
      exact hfirst _ rfl

def readyHost : Host where
  kubernetes := none
  podNamespace := .ok "hsm"
  stat _ := none
  startPcscd := none
  getPIN := .ok "648219"

/-- A device that is configured with a slot and without a token label. -/
def slotDevice (slotId : Int32) : PKCS11Config where
  libraryPath := "/usr/lib/opensc-pkcs11.so"
  slotId := slotId

def slotArgs (slotId : Int32) : List String :=
  modeSpecificArgs
    (buildAgentArgs ⟨false, ""⟩ "pico-hsm-0" (some (some (slotDevice slotId))))

def slotConfig (slotId : Nat) : Config where
  pkcs11LibraryPath := "/usr/lib/opensc-pkcs11.so"
  slotID := slotId
  tokenLabel := ""
  pinProvider := some (.ok "648219")

theorem explicitSlot_first :
    ∃ session, initializeClient (working [1, 0]) (slotConfig 1) = .ok session ∧
      (session.slot : Int) = 1 := by
  have hopened : initializeClient (working [1, 0]) (slotConfig 1) = .ok ⟨1, 1⟩ := by rfl
  refine ⟨_, hopened, (explicitSlot_iff readyHost (slotArgs 1)
    (agentFlags ⟨false, ""⟩ "pico-hsm-0" (slotDevice 1)) (slotConfig 1)
    (parseFlags_buildAgentArgs _ _ _) rfl (by rfl) [1, 0]).mpr ?_ (working [1, 0]) rfl _ hopened⟩
  exact .inr fun first hfirst => by
    obtain rfl := Option.some.inj hfirst
    rfl

/-- Slot 1 is configured and there is a token in it, but the session is opened on slot 0. -/
theorem explicitSlot_ignored :
    hsmConfig readyHost (slotArgs 1) = .ok (some (slotConfig 1)) ∧
      initializeClient (working [0, 1]) (slotConfig 1) = .ok ⟨1, 0⟩ :=
  ⟨by rfl, by rfl⟩

end HsmSecretsOperator.Agent.SlotSelection
