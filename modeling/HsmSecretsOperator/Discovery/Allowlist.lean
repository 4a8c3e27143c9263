/- source: internal/discovery/ccid_allowlist.go, internal/discovery/usb.go
   digest: The CCID allowlist: what is read from the children of the plist, and what it contains. -/

import HsmSecretsOperator.Discovery.Monitoring
import HsmSecretsOperator.Foundation.Lines
import HsmSecretsOperator.Foundation.Runes

/-! The XML decoder and the lower cases of characters that are not ASCII are any functions. -/

set_option autoImplicit false

namespace HsmSecretsOperator.Discovery.Allowlist

open Foundation.Lines Foundation.Maps Foundation.Runes Foundation.Text
open Monitoring (Config MonitoredDevice matchesCriteria)

def trimPrefix (s affix : Bytes) : Bytes := if affix.isPrefixOf s then s.drop affix.length else s

def lowerByte (b : UInt8) : UInt8 := if 0x41 ≤ b ∧ b ≤ 0x5a then b + 0x20 else b

/-- `strings.ToLower`, with `unicode.ToLower` for the characters of a text that is not ASCII. -/
def toLower (lower : Char → Char) (s : Bytes) : Bytes :=
  if s.all (· < 0x80) then s.map lowerByte else mapRunes lower s

def normalizeID (lower : Char → Char) (s : Bytes) : Bytes :=
  toLower lower (trimPrefix (trimPrefix (trimSpace s) (utf8 "0x")) (utf8 "0X"))

def colon : UInt8 := 0x3a

structure CCIDAllowlist where
  pairs : Std.ExtTreeMap Bytes Bool := ∅

/-- `Contains`; the list is a pointer that can be nil. -/
def contains (lower : Char → Char) (a : Option CCIDAllowlist) (vendorID productID : Bytes) : Bool :=
  match a with
  | none => false
  | some a =>
    a.pairs[normalizeID lower vendorID ++ colon :: normalizeID lower productID]?.getD false

/-- An element: its local name, its text, and the texts of the strings in it. -/
structure PlistNode where
  name : Bytes
  key : Bytes := []
  strings : List Bytes := []

structure Scan where
  lastKey : Bytes := []
  vendorIDs : List Bytes := []
  productIDs : List Bytes := []

def Scan.child (s : Scan) (node : PlistNode) : Scan :=
  if node.name = utf8 "key" then { s with lastKey := trimSpace node.key }
  else if node.name = utf8 "array" then
    if s.lastKey = utf8 "ifdVendorID" then { s with vendorIDs := node.strings, lastKey := [] }
    else if s.lastKey = utf8 "ifdProductID" then
      { s with productIDs := node.strings, lastKey := [] }
    else { s with lastKey := [] }
  else { s with lastKey := [] }

def scan (nodes : List PlistNode) : Scan := nodes.foldl Scan.child {}

/-- The ids at one index each, normalised, without those of which one is empty. -/
def normalizedPairs (lower : Char → Char) (s : Scan) : List (Bytes × Bytes) :=
  let ids := (s.vendorIDs.zip s.productIDs).map fun ids =>
    (normalizeID lower ids.1, normalizeID lower ids.2)
  ids.filter fun ids => !(ids.1 = [] || ids.2 = [])

def allowlistOf (lower : Char → Char) (s : Scan) : CCIDAllowlist where
  pairs := assign ∅ (fun ids => ids.1 ++ colon :: ids.2) (fun _ => true) (normalizedPairs lower s)

/-- The calls that the list is loaded with. -/
structure Files where
  glob : Bytes → Except Bytes (List Bytes)
  readFile : Bytes → Except Bytes Bytes
  /-- `xml.Unmarshal`, with the children of the dictionary. -/
  unmarshal : Bytes → Except Bytes (List PlistNode)

def loadCCIDAllowlistFromFile (lower : Char → Char) (files : Files) (path : Bytes) :
    Except Bytes CCIDAllowlist :=
  match files.readFile path with
  | .error err => .error (utf8 "read Info.plist: " ++ err)
  | .ok data =>
    match files.unmarshal data with
    | .error err => .error (utf8 "parse Info.plist xml: " ++ err)
    | .ok nodes => .ok (allowlistOf lower (scan nodes))

def ccidPlistGlobs : List Bytes :=
  [utf8 "/usr/lib/pcsc/drivers/ifd-ccid.bundle/Contents/Info.plist",
   utf8 "/usr/lib/*/pcsc/drivers/ifd-ccid.bundle/Contents/Info.plist",
   utf8 "/usr/lib64/pcsc/drivers/ifd-ccid.bundle/Contents/Info.plist",
   utf8 "/usr/local/lib/pcsc/drivers/ifd-ccid.bundle/Contents/Info.plist",
   utf8 "/etc/libccid_Info.plist"]

def Files.firstMatch (files : Files) (glob : Bytes) : Option Bytes :=
  match files.glob glob with
  | .ok found => found.head?
  | .error _ => none

def Files.path (files : Files) : Bytes := (ccidPlistGlobs.findSome? files.firstMatch).getD []

/-- A plist that is missing or cannot be parsed gives the empty list. -/
def loadCCIDAllowlist (lower : Char → Char) (files : Files) : CCIDAllowlist :=
  if files.path = [] then {}
  else
    match loadCCIDAllowlistFromFile lower files files.path with
    | .error _ => {}
    | .ok allowlist => allowlist

inductive Field
  | vendor
  | product

def Field.key : Field → Bytes
  | .vendor => utf8 "ifdVendorID"
  | .product => utf8 "ifdProductID"

def Scan.ids (s : Scan) : Field → List Bytes
  | .vendor => s.vendorIDs
  | .product => s.productIDs

def Field.IsKey (field : Field) (node : PlistNode) : Prop :=
  node.name = utf8 "key" ∧ trimSpace node.key = field.key

instance (field : Field) (node : PlistNode) : Decidable (field.IsKey node) :=
  inferInstanceAs (Decidable (_ ∧ _))

/-- The key is there once, and an array of the ids directly follows it. -/
def Field.Listed (field : Field) (ids : List Bytes) (nodes : List PlistNode) : Prop :=
  ∃ before key array after, nodes = before ++ key :: array :: after ∧ field.IsKey key ∧
    array.name = utf8 "array" ∧ array.strings = ids ∧ ∀ node ∈ before ++ after, ¬ field.IsKey node

section Loop

variable {field : Field} {s : Scan} {node : PlistNode} {nodes : List PlistNode}

private theorem key_ne_nil (field : Field) : [] ≠ field.key := by
  cases field <;> decide

theorem lastKey_child : (s.child node).lastKey = field.key ↔ field.IsKey node := by
  have hnil := key_ne_nil field
  unfold Scan.child Field.IsKey
  by_cases hkey : node.name = utf8 "key"
  · simp [hkey]
  · simp only [hkey, if_false, false_and, iff_false]
    split_ifs <;> exact hnil

theorem ids_child : (s.child node).ids field =
    if node.name = utf8 "array" ∧ s.lastKey = field.key then node.strings else s.ids field := by
  have hnames : utf8 "key" ≠ utf8 "array" := by decide
  have hkeys : utf8 "ifdVendorID" ≠ utf8 "ifdProductID" := by decide
  cases field with
  | vendor =>
    simp only [Scan.child, Scan.ids, Field.key]
    split_ifs <;> grind
  | product =>
    simp only [Scan.child, Scan.ids, Field.key]
    split_ifs <;> grind

theorem ids_foldl_child (hs : s.lastKey ≠ field.key) (h : ∀ node ∈ nodes, ¬ field.IsKey node) :
    (nodes.foldl Scan.child s).ids field = s.ids field := by
  induction nodes generalizing s with
  | nil => rfl
  | cons node nodes ih =>
    obtain ⟨hnode, hnodes⟩ := List.forall_mem_cons.mp h
    rw [List.foldl_cons, ih (fun hlast => hnode (lastKey_child.mp hlast)) hnodes, ids_child,
      if_neg fun harray => hs harray.2]

theorem ids_scan {ids : List Bytes} (h : field.Listed ids nodes) :
    (scan nodes).ids field = ids := by
  obtain ⟨before, key, array, after, rfl, hkey, harray, rfl, hothers⟩ := h
  have hnot : ¬ field.IsKey array := fun hkey => by
    have hname := harray.symm.trans hkey.1
    exact absurd hname (by decide)
  rw [scan, List.foldl_append, List.foldl_cons, List.foldl_cons,
    ids_foldl_child (fun hlast => hnot (lastKey_child.mp hlast))
      fun node hnode => hothers node (List.mem_append_right before hnode),
    ids_child, if_pos ⟨harray, lastKey_child.mpr hkey⟩]

end Loop

def hexDigits : Bytes := utf8 "0123456789abcdefABCDEF"

/-- Hexadecimal digits, with or without `0x` or `0X` before them. -/
def HexID (id digits : Bytes) : Prop :=
  (∀ d ∈ digits, d ∈ hexDigits) ∧
    ∃ affix ∈ [[], utf8 "0x", utf8 "0X"], id = affix ++ digits

section Ids

variable {lower : Char → Char} {id digits : Bytes}

private theorem trimSpace_hexID (h : HexID id digits) : trimSpace id = id := by
  obtain ⟨hdigits, affix, haffix, rfl⟩ := h
  have hspaces : ∀ w ∈ spaces, w ≠ [] ∧ ∀ b ∈ w, b ∉ utf8 "xX" ++ hexDigits := by
    decide +kernel
  have haffixes : ∀ affix ∈ [[], utf8 "0x", utf8 "0X"], ∀ b ∈ affix,
      b ∈ utf8 "xX" ++ hexDigits := by decide +kernel
  have hid : ∀ b ∈ affix ++ digits, b ∈ utf8 "xX" ++ hexDigits := by
    intro b hb
    rcases List.mem_append.mp hb with hb | hb
    · exact haffixes affix haffix b hb
    · exact List.mem_append_right _ (hdigits b hb)
  have hnot (w : Bytes) (hw : w ∈ spaces) : ¬ w <:+: affix ++ digits := by
    intro hinfix'
    obtain ⟨b, rest, rfl⟩ := List.exists_cons_of_ne_nil (hspaces w hw).1
    exact (hspaces _ hw).2 b List.mem_cons_self (hid b (hinfix'.subset List.mem_cons_self))
  exact trim_eq_self (fun w hw hfront => hnot w hw hfront.isInfix)
    fun w hw hback => hnot w hw hback.isInfix

private theorem trimPrefix_append (affix s : Bytes) : trimPrefix (affix ++ s) affix = s := by
  rw [trimPrefix, if_pos (List.isPrefixOf_iff_prefix.mpr (List.prefix_append affix s)),
    List.drop_left]

private theorem trimPrefix_digits (hdigits : ∀ d ∈ digits, d ∈ hexDigits) {affix : Bytes}
    (haffix : affix ∈ [utf8 "0x", utf8 "0X"]) : trimPrefix digits affix = digits := by
  have hletter : ∀ affix ∈ [utf8 "0x", utf8 "0X"], ∃ b ∈ affix, b ∉ hexDigits := by
    decide +kernel
  obtain ⟨b, hb, hnot⟩ := hletter affix haffix
  refine if_neg fun hfront => hnot (hdigits b ?_)
  exact (List.isPrefixOf_iff_prefix.mp hfront).subset hb

theorem normalizeID_hexID (h : HexID id digits) :
    normalizeID lower id = digits.map lowerByte := by
  have hascii : ∀ d ∈ hexDigits, d < 0x80 := by decide +kernel
  have hlower : toLower lower digits = digits.map lowerByte :=
    if_pos (List.all_eq_true.mpr fun d hd => decide_eq_true (hascii d (h.1 d hd)))
  rw [normalizeID, trimSpace_hexID h]
  obtain ⟨hdigits, affix, haffix, rfl⟩ := h
  have hstay := @trimPrefix_digits digits hdigits
  simp only [List.mem_cons, List.not_mem_nil, or_false] at haffix hstay
  rcases haffix with rfl | rfl | rfl
  · rw [List.nil_append, hstay (.inl rfl), hstay (.inr rfl), hlower]
  · rw [trimPrefix_append, hstay (.inr rfl), hlower]
  · have hother : trimPrefix (utf8 "0X" ++ digits) (utf8 "0x") = utf8 "0X" ++ digits := rfl
    rw [hother, trimPrefix_append, hlower]

theorem colon_not_mem_normalizeID (h : HexID id digits) : colon ∉ normalizeID lower id := by
  have hlower : ∀ d ∈ hexDigits, colon ≠ lowerByte d := by decide +kernel
  rw [normalizeID_hexID h]
  intro hmem
  obtain ⟨d, hd, heq⟩ := List.mem_map.mp hmem
  exact hlower d (h.1 d hd) heq.symm

end Ids

section List

variable (lower : Char → Char)

/-- Some index of both arrays has the two ids, once normalised. -/
def Paired (vendorIDs productIDs : List Bytes) (v p : Bytes) : Prop :=
  ∃ (i : Nat) (a b : Bytes), vendorIDs[i]? = some a ∧ productIDs[i]? = some b ∧
    (normalizeID lower a ≠ [] ∧ normalizeID lower b ≠ []) ∧
    normalizeID lower a = normalizeID lower v ∧ normalizeID lower b = normalizeID lower p

variable {v p dv dp : Bytes}

theorem contains_allowlistOf (s : Scan) (hv : HexID v dv) (hp : HexID p dp) :
    contains lower (some (allowlistOf lower s)) v p = true ↔
      Paired lower s.vendorIDs s.productIDs v p := by
  have hkey (a b : Bytes) : a ++ colon :: b =
      normalizeID lower v ++ colon :: normalizeID lower p ↔
        a = normalizeID lower v ∧ b = normalizeID lower p := by
    rw [eq_comm, List.append_cons_inj_of_notMem (colon_not_mem_normalizeID hv)
      (colon_not_mem_normalizeID hp)]
    simp only [true_and, eq_comm]
  have hpair (a b : Bytes) : (a, b) ∈ s.vendorIDs.zip s.productIDs ↔
      ∃ i : Nat, s.vendorIDs[i]? = some a ∧ s.productIDs[i]? = some b := by
    simp only [List.mem_iff_getElem?, List.getElem?_zip_eq_some]
  rw [contains, Option.getD_eq_iff]
  constructor
  · rintro (h | ⟨_, hfalse⟩)
    · rcases of_getElem?_assign h with hnone | ⟨id, hid, heq, _⟩
      · simp at hnone
      obtain ⟨hmem, hne⟩ := List.mem_filter.mp hid
      obtain ⟨⟨a, b⟩, hab, rfl⟩ := List.mem_map.mp hmem
      obtain ⟨i, ha, hb⟩ := (hpair a b).mp hab
      exact ⟨i, a, b, ha, hb, by simpa using hne, (hkey _ _).mp heq⟩
    · cases hfalse
  · rintro ⟨i, a, b, ha, hb, hne, heq⟩
    have hmem : (normalizeID lower a, normalizeID lower b) ∈ normalizedPairs lower s := by
      refine List.mem_filter.mpr ⟨List.mem_map.mpr ⟨(a, b), (hpair a b).mpr ⟨i, ha, hb⟩, rfl⟩, ?_⟩
      simpa using hne
    rw [← (hkey _ _).mpr heq]
    exact .inl (getElem?_assign_of_mem (∅ : Std.ExtTreeMap Bytes Bool)
      (fun ids => ids.1 ++ colon :: ids.2) (fun _ => true) hmem fun _ _ _ => rfl)

/-- For the children of a plist in which each of the two keys is there once and an array directly
follows it. -/
theorem contains_iff_paired (files : Files) {path data : Bytes} {nodes : List PlistNode}
    {vendorIDs productIDs : List Bytes} (hread : files.readFile path = .ok data)
    (hparse : files.unmarshal data = .ok nodes) (hvendor : Field.vendor.Listed vendorIDs nodes)
    (hproduct : Field.product.Listed productIDs nodes) (hv : HexID v dv) (hp : HexID p dp) :
    ∃ allowlist, loadCCIDAllowlistFromFile lower files path = .ok allowlist ∧
      (contains lower (some allowlist) v p = true ↔ Paired lower vendorIDs productIDs v p) := by
  refine ⟨allowlistOf lower (scan nodes), ?_, ?_⟩
  · simp only [loadCCIDAllowlistFromFile, hread, hparse]
  · have hids : (scan nodes).vendorIDs = vendorIDs ∧ (scan nodes).productIDs = productIDs :=
      ⟨ids_scan hvendor, ids_scan hproduct⟩
    rw [contains_allowlistOf lower (scan nodes) hv hp, hids.1, hids.2]

private def testNodes : List PlistNode :=
  [⟨utf8 "key", utf8 "ifdManufacturerString", []⟩, ⟨utf8 "string", [], []⟩,
   ⟨utf8 "key", utf8 "ifdVendorID", []⟩, ⟨utf8 "array", [], [utf8 "0x20A0", utf8 "0x2E8A"]⟩,
   ⟨utf8 "key", utf8 "ifdProductID", []⟩, ⟨utf8 "array", [], [utf8 "0x4230", utf8 "0x10FD"]⟩]

private def testFiles : Files := ⟨fun _ => .ok [], fun _ => .ok [], fun _ => .ok testNodes⟩

/-- A device of the plist, with its ids as udev reports them. -/
theorem contains_udev_ids : ∃ allowlist,
    loadCCIDAllowlistFromFile id testFiles [] = .ok allowlist ∧
      contains id (some allowlist) (utf8 "2e8a") (utf8 "10fd") = true := by
  have hvendor : Field.vendor.Listed [utf8 "0x20A0", utf8 "0x2E8A"] testNodes :=
    ⟨testNodes.take 2, _, _, testNodes.drop 4, rfl, by decide, rfl, rfl, by decide⟩
  have hproduct : Field.product.Listed [utf8 "0x4230", utf8 "0x10FD"] testNodes :=
    ⟨testNodes.take 4, _, _, [], rfl, by decide, rfl, rfl, by decide⟩
  have hv : HexID (utf8 "2e8a") (utf8 "2e8a") := ⟨by decide +kernel, [], List.mem_cons_self, rfl⟩
  have hp : HexID (utf8 "10fd") (utf8 "10fd") := ⟨by decide +kernel, [], List.mem_cons_self, rfl⟩
  obtain ⟨allowlist, hload, hcontains⟩ := contains_iff_paired id testFiles rfl rfl hvendor
    hproduct hv hp
  exact ⟨allowlist, hload, hcontains.mpr ⟨1, _, _, rfl, rfl, by decide, by decide⟩⟩

/-- The discoverer of a node, with the list that is loaded when it is made. -/
def config (nodeName : String) (files : Files) : Config where
  nodeName := nodeName
  allowlist v p := contains lower (some (loadCCIDAllowlist lower files)) (utf8 v) (utf8 p)

/-- These are the children in the first plist that is found. -/
def Files.Plist (files : Files) (nodes : List PlistNode) : Prop :=
  files.path ≠ [] ∧
    ∃ data, files.readFile files.path = .ok data ∧ files.unmarshal data = .ok nodes

theorem contains_loadCCIDAllowlist (files : Files) (v p : Bytes) :
    contains lower (some (loadCCIDAllowlist lower files)) v p = true ↔
      ∃ nodes, files.Plist nodes ∧
        contains lower (some (allowlistOf lower (scan nodes))) v p = true := by
  have hempty : contains lower (some {}) v p = false := by simp [contains]
  unfold loadCCIDAllowlist loadCCIDAllowlistFromFile Files.Plist
  by_cases hpath : files.path = []
  · simp [hpath, hempty]
  cases hread : files.readFile files.path with
  | error err => simp [hpath, hempty]
  | ok data =>
    cases hparse : files.unmarshal data with
    | error err => simp [hpath, hempty, hparse]
    | ok nodes => simp [hpath, hparse]

/-- An HSMDevice that has no specs gets exactly the devices of which the plist lists the ids. -/
theorem matchesCriteria_config (nodeName : String) (files : Files) (device : MonitoredDevice)
    (hv : HexID (utf8 device.vendorID) dv) (hp : HexID (utf8 device.productID) dp) :
    matchesCriteria (config lower nodeName files) device { autoDiscovery := true, specs := [] } =
        true ↔
      ∃ nodes, files.Plist nodes ∧ Paired lower (scan nodes).vendorIDs (scan nodes).productIDs
        (utf8 device.vendorID) (utf8 device.productID) := by
  have hcontains : matchesCriteria (config lower nodeName files) device
      { autoDiscovery := true, specs := [] } = true ↔ contains lower
        (some (loadCCIDAllowlist lower files)) (utf8 device.vendorID) (utf8 device.productID) := by
    simp [matchesCriteria, config]
  rw [hcontains, contains_loadCCIDAllowlist]
  exact exists_congr fun nodes => and_congr_right fun _ =>
    contains_allowlistOf lower (scan nodes) hv hp

theorem matchesCriteria_of_plist :
    matchesCriteria (config id "node-a" { testFiles with glob := fun _ => .ok [utf8 "Info.plist"] })
      { devicePath := "/dev/bus/usb/001/002", serialNumber := "", vendorID := "2e8a"
        productID := "10fd" } { autoDiscovery := true, specs := [] } = true := by
  have hv : HexID (utf8 "2e8a") (utf8 "2e8a") := ⟨by decide +kernel, [], List.mem_cons_self, rfl⟩
  have hp : HexID (utf8 "10fd") (utf8 "10fd") := ⟨by decide +kernel, [], List.mem_cons_self, rfl⟩
  refine (matchesCriteria_config id _ _ _ hv hp).mpr ⟨testNodes, ⟨by decide, [], rfl, rfl⟩, ?_⟩
  exact ⟨1, _, _, rfl, rfl, by decide, by decide⟩

end List

end HsmSecretsOperator.Discovery.Allowlist
