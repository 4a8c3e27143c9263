/- source: internal/modes/discovery/discovery.go
   digest: The loops that merge a scan into the cache, what they yield, and their fixed point. -/

import HsmSecretsOperator.Discovery.Index

set_option autoImplicit false

namespace HsmSecretsOperator.Discovery.Merge

open Discovery.Agent Discovery.Index Foundation.Maps Report

/-- The variables of the loops; the map has the keys that were matched. -/
structure Merging where
  merged : List DiscoveredDevice := []
  matched : Std.ExtTreeMap String Unit := ∅
  changed : Bool := false

/-- The turn of the loop over the cache. -/
def walkExisting (now : Nat) (scannedByKey : Std.ExtTreeMap String DiscoveredDevice) (m : Merging)
    (old : DiscoveredDevice) : Merging :=
  let k := deviceKey old
  match scannedByKey[k]? with
  | some fresh =>
    { merged := m.merged ++ [{ fresh with available := true }]
      matched := m.matched.insert k ()
      changed := if old.devicePath ≠ fresh.devicePath || !old.available then true else m.changed }
  | none =>
    if old.available then
      { m with merged := m.merged ++ [{ old with available := false, lastSeen := now }]
               changed := true }
    else { m with merged := m.merged ++ [old] }

/-- The turn of the loop over the scan. -/
def appendScanned (m : Merging) (dev : DiscoveredDevice) : Merging :=
  if deviceKey dev ∈ m.matched then m
  else { m with merged := m.merged ++ [{ dev with available := true }], changed := true }

def mergeLoops (now : Nat) (existing scanned : List DiscoveredDevice) :
    List DiscoveredDevice × Bool :=
  let scannedByKey := assign ∅ deviceKey id scanned
  let walked := existing.foldl (walkExisting now scannedByKey) {}
  let m := scanned.foldl appendScanned walked
  (m.merged, m.changed)

section Loops

variable (now : Nat) (scannedByKey : Std.ExtTreeMap String DiscoveredDevice)

private theorem walkExisting_eq (m : Merging) (old : DiscoveredDevice) :
    walkExisting now scannedByKey m old =
      { merged := m.merged ++ [(mergeCached now scannedByKey old).1]
        matched := if deviceKey old ∈ scannedByKey then m.matched.insert (deviceKey old) ()
          else m.matched
        changed := m.changed || (mergeCached now scannedByKey old).2 } := by
  cases h : scannedByKey[deviceKey old]? with
  | some fresh =>
    simp only [walkExisting, mergeCached, h, if_pos (mem_of_getElem? h)]
    cases old.available <;> simp [Bool.or_comm]
  | none =>
    have hnone : deviceKey old ∉ scannedByKey := by
      rw [Std.ExtTreeMap.mem_iff_isSome_getElem?, h]
      simp
    simp only [walkExisting, mergeCached, h, if_neg hnone]
    cases old.available <;> simp

private theorem walk_eq (m : Merging) (existing : List DiscoveredDevice) :
    let walked := existing.foldl (walkExisting now scannedByKey) m
    walked.merged = m.merged ++ existing.map (fun old => (mergeCached now scannedByKey old).1) ∧
      walked.changed =
        (m.changed || existing.any fun old => (mergeCached now scannedByKey old).2) ∧
      ∀ k, k ∈ walked.matched ↔
        k ∈ m.matched ∨ k ∈ scannedByKey ∧ k ∈ existing.map deviceKey := by
  induction existing generalizing m with
  | nil => simp
  | cons old existing ih =>
    obtain ⟨hmerged, hchanged, hmatched⟩ := ih (walkExisting now scannedByKey m old)
    rw [List.foldl_cons]
    refine ⟨?_, ?_, fun k => ?_⟩
    · rw [hmerged, walkExisting_eq]
      simp
    · rw [hchanged, walkExisting_eq]
      simp [Bool.or_assoc]
    · rw [hmatched, walkExisting_eq]
      dsimp only
      split
      next hold =>
        rw [Std.ExtTreeMap.mem_insert, Std.LawfulEqCmp.compare_eq_iff_eq, List.map_cons,
          List.mem_cons]
        constructor
        · rintro ((rfl | h) | ⟨hk, h⟩)
          · exact .inr ⟨hold, .inl rfl⟩
          · exact .inl h
          · exact .inr ⟨hk, .inr h⟩
        · rintro (h | ⟨hk, rfl | h⟩)
          · exact .inl (.inr h)
          · exact .inl (.inl rfl)
          · exact .inr ⟨hk, h⟩
      next hold =>
        rw [List.map_cons, List.mem_cons]
        refine or_congr_right (and_congr_right fun hk => ⟨.inr, ?_⟩)
        rintro (rfl | h)
        · exact absurd hk hold
        · exact h

private theorem append_eq (m : Merging) (scanned : List DiscoveredDevice) :
    scanned.foldl appendScanned m =
      { m with
        merged := m.merged ++
          (scanned.filter fun dev => deviceKey dev ∉ m.matched).map fun dev =>
            { dev with available := true }
        changed :=
          m.changed || !(scanned.filter fun dev => deviceKey dev ∉ m.matched).isEmpty } := by
  induction scanned generalizing m with
  | nil => simp
  | cons dev scanned ih =>
    rw [List.foldl_cons, ih]
    unfold appendScanned
    split
    next hdev => simp [hdev]
    next hdev => simp [hdev]

end Loops

/-- The loops compute what the rest of the development calls the merge. -/
theorem mergeLoops_eq (now : Nat) (existing scanned : List DiscoveredDevice) :
    mergeLoops now existing scanned = mergeScanIntoCache now existing scanned := by
  obtain ⟨hmerged, hchanged, hmatched⟩ := walk_eq now (assign ∅ deviceKey id scanned) {} existing
  have hfilter : (scanned.filter fun dev => deviceKey dev ∉
      (existing.foldl (walkExisting now (assign ∅ deviceKey id scanned)) {}).matched) =
      scanned.filter fun dev => deviceKey dev ∉ existing.map deviceKey := by
    refine List.filter_congr fun dev hdev => ?_
    have hmem : deviceKey dev ∈ (assign ∅ deviceKey id scanned :
        Std.ExtTreeMap String DiscoveredDevice) := mem_assign.mpr (.inr ⟨dev, hdev, rfl⟩)
    have hnone : deviceKey dev ∉ (∅ : Std.ExtTreeMap String Unit) := Std.ExtTreeMap.not_mem_empty
    rw [decide_eq_decide, not_iff_not, hmatched]
    constructor
    · rintro (h | h)
      · exact absurd h hnone
      · exact h.2
    · exact fun h => .inr ⟨hmem, h⟩
  unfold mergeLoops mergeScanIntoCache
  dsimp only
  rw [append_eq, hfilter, hmerged, hchanged]
  simp [Function.comp_def, List.any_map]

def lost (now : Nat) (old : DiscoveredDevice) : DiscoveredDevice :=
  { old with available := false, lastSeen := if old.available then now else old.lastSeen }

def seen (dev : DiscoveredDevice) : DiscoveredDevice := { dev with available := true }

@[simp] theorem deviceKey_lost (now : Nat) (old : DiscoveredDevice) :
    deviceKey (lost now old) = deviceKey old := rfl

@[simp] theorem deviceKey_seen (dev : DiscoveredDevice) :
    deviceKey (seen dev) = deviceKey dev := rfl

/-- The merged list and the flag say what the scan means for the cache. -/
structure Merged (now : Nat) (existing scanned merged : List DiscoveredDevice) (changed : Bool) :
    Prop where
  distinct : (merged.map deviceKey).Nodup
  identities : ∀ k, k ∈ merged.map deviceKey ↔
    k ∈ existing.map deviceKey ∨ k ∈ scanned.map deviceKey
  found : ∀ dev ∈ scanned, seen dev ∈ merged
  gone : ∀ old ∈ existing, deviceKey old ∉ scanned.map deviceKey → lost now old ∈ merged
  changed_iff : changed = true ↔
    (∃ dev ∈ scanned, deviceKey dev ∉ existing.map deviceKey ∨
      ∃ old ∈ existing, deviceKey old = deviceKey dev ∧
        (old.available = false ∨ old.devicePath ≠ dev.devicePath)) ∨
    ∃ old ∈ existing, old.available = true ∧ deviceKey old ∉ scanned.map deviceKey

section Entries

variable {existing scanned : List DiscoveredDevice} (h : (scanned.map deviceKey).Nodup) (now : Nat)

private theorem mergeCached_lost {old : DiscoveredDevice}
    (hold : deviceKey old ∉ scanned.map deviceKey) :
    mergeCached now (assign ∅ deviceKey id scanned) old = (lost now old, old.available) := by
  have hget : (assign ∅ deviceKey id scanned : Std.ExtTreeMap String DiscoveredDevice)[
      deviceKey old]? = none := by
    rw [getElem?_assign_of_forall_ne]
    · simp
    · exact fun dev hdev heq => hold (List.mem_map.mpr ⟨dev, hdev, heq⟩)
  unfold mergeCached
  rw [hget]
  obtain ⟨devicePath, serialNumber, nodeName, lastSeen, available⟩ := old
  cases available <;> rfl

private theorem scanned_or_gone (scanned : List DiscoveredDevice) (old : DiscoveredDevice) :
    (∃ dev ∈ scanned, deviceKey dev = deviceKey old) ∨ deviceKey old ∉ scanned.map deviceKey := by
  by_cases h : deviceKey old ∈ scanned.map deviceKey
  · exact .inl (List.mem_map.mp h)
  · exact .inr h

private theorem mem_merge_of_existing (scanned : List DiscoveredDevice)
    {old : DiscoveredDevice} (hold : old ∈ existing) :
    (mergeCached now (assign ∅ deviceKey id scanned) old).1 ∈
      (mergeScanIntoCache now existing scanned).1 :=
  List.mem_append_left _ (List.mem_map.mpr ⟨_, List.mem_map.mpr ⟨old, hold, rfl⟩, rfl⟩)

private theorem lost_mem_merge {old : DiscoveredDevice} (hold : old ∈ existing)
    (hgone : deviceKey old ∉ scanned.map deviceKey) :
    lost now old ∈ (mergeScanIntoCache now existing scanned).1 := by
  have hmem := mem_merge_of_existing now scanned hold
  rwa [mergeCached_lost now hgone] at hmem

include h

private theorem eq_of_deviceKey {a b : DiscoveredDevice}
    (ha : a ∈ scanned) (hb : b ∈ scanned) (hkey : deviceKey a = deviceKey b) : a = b :=
  List.inj_on_of_nodup_map h ha hb hkey

private theorem mergeCached_seen {old dev : DiscoveredDevice} (hdev : dev ∈ scanned)
    (hkey : deviceKey dev = deviceKey old) :
    mergeCached now (assign ∅ deviceKey id scanned) old =
      (seen dev, old.devicePath ≠ dev.devicePath || !old.available) := by
  have hget : (assign ∅ deviceKey id scanned : Std.ExtTreeMap String DiscoveredDevice)[
      deviceKey dev]? = some dev :=
    getElem?_assign_of_mem _ deviceKey id hdev fun other hother heq =>
      eq_of_deviceKey h hother hdev heq
  unfold mergeCached
  rw [← hkey, hget]
  rfl

private theorem deviceKey_mergeCached (old : DiscoveredDevice) :
    deviceKey (mergeCached now (assign ∅ deviceKey id scanned) old).1 = deviceKey old := by
  rcases scanned_or_gone scanned old with ⟨dev, hdev, hkey⟩ | hgone
  · rw [mergeCached_seen h now hdev hkey]
    exact hkey
  · rw [mergeCached_lost now hgone]
    rfl

private theorem map_deviceKey_merge :
    (mergeScanIntoCache now existing scanned).1.map deviceKey =
      existing.map deviceKey ++
        (scanned.filter fun dev => deviceKey dev ∉ existing.map deviceKey).map deviceKey := by
  have hseen : ∀ dev : DiscoveredDevice, deviceKey { dev with available := true } = deviceKey dev :=
    fun _ => rfl
  simp only [mergeScanIntoCache, List.map_append, List.map_map, Function.comp_def,
    deviceKey_mergeCached h now, hseen]

private theorem distinct_merge (hexisting : (existing.map deviceKey).Nodup) :
    ((mergeScanIntoCache now existing scanned).1.map deviceKey).Nodup := by
  rw [map_deviceKey_merge h now]
  refine List.Nodup.append hexisting ((List.filter_sublist.map deviceKey).nodup h) ?_
  intro k hk hnew
  obtain ⟨dev, hdev, rfl⟩ := List.mem_map.mp hnew
  exact of_decide_eq_true (List.mem_filter.mp hdev).2 hk

private theorem identities_merge (existing : List DiscoveredDevice) (k : String) :
    k ∈ (mergeScanIntoCache now existing scanned).1.map deviceKey ↔
      k ∈ existing.map deviceKey ∨ k ∈ scanned.map deviceKey := by
  rw [map_deviceKey_merge h now, List.mem_append]
  by_cases hk : k ∈ existing.map deviceKey
  · exact iff_of_true (.inl hk) (.inl hk)
  · refine or_congr_right ?_
    constructor
    · intro hnew
      obtain ⟨dev, hdev, rfl⟩ := List.mem_map.mp hnew
      exact List.mem_map_of_mem (List.mem_filter.mp hdev).1
    · intro hscanned
      obtain ⟨dev, hdev, rfl⟩ := List.mem_map.mp hscanned
      exact List.mem_map_of_mem (List.mem_filter.mpr ⟨hdev, decide_eq_true hk⟩)

private theorem seen_mem_merge {dev : DiscoveredDevice} (hdev : dev ∈ scanned) :
    seen dev ∈ (mergeScanIntoCache now existing scanned).1 := by
  by_cases hnew : deviceKey dev ∈ existing.map deviceKey
  · obtain ⟨old, hold, hkey⟩ := List.mem_map.mp hnew
    have hmem := mem_merge_of_existing now scanned hold
    rwa [mergeCached_seen h now hdev hkey.symm] at hmem
  · exact List.mem_append_right _ (List.mem_map.mpr
      ⟨dev, List.mem_filter.mpr ⟨hdev, decide_eq_true hnew⟩, rfl⟩)

private theorem of_mem_merge {x : DiscoveredDevice}
    (hx : x ∈ (mergeScanIntoCache now existing scanned).1) :
    (∃ dev ∈ scanned, x = seen dev) ∨
      ∃ old, deviceKey old ∉ scanned.map deviceKey ∧ x = lost now old := by
  rcases List.mem_append.mp hx with hx | hx
  · rw [List.map_map] at hx
    obtain ⟨old, hold, rfl⟩ := List.mem_map.mp hx
    dsimp only [Function.comp_apply]
    rcases scanned_or_gone scanned old with ⟨dev, hdev, hkey⟩ | hgone
    · exact .inl ⟨dev, hdev, by rw [mergeCached_seen h now hdev hkey]⟩
    · exact .inr ⟨old, hgone, by rw [mergeCached_lost now hgone]⟩
  · obtain ⟨dev, hdev, rfl⟩ := List.mem_map.mp hx
    exact .inl ⟨dev, (List.mem_filter.mp hdev).1, rfl⟩

private theorem changed_merge_iff :
    (mergeScanIntoCache now existing scanned).2 = true ↔
      (∃ dev ∈ scanned, deviceKey dev ∉ existing.map deviceKey ∨
        ∃ old ∈ existing, deviceKey old = deviceKey dev ∧
          (old.available = false ∨ old.devicePath ≠ dev.devicePath)) ∨
      ∃ old ∈ existing, old.available = true ∧ deviceKey old ∉ scanned.map deviceKey := by
  have hflag : (mergeScanIntoCache now existing scanned).2 = true ↔
      (∃ old ∈ existing, (mergeCached now (assign ∅ deviceKey id scanned) old).2 = true) ∨
        ∃ dev ∈ scanned, deviceKey dev ∉ existing.map deviceKey := by
    simp [mergeScanIntoCache, List.filter_eq_nil_iff]
  rw [hflag]
  constructor
  · rintro (⟨old, hold, hchange⟩ | ⟨dev, hdev, hnew⟩)
    · rcases scanned_or_gone scanned old with ⟨dev, hdev, hkey⟩ | hgone
      · rw [mergeCached_seen h now hdev hkey] at hchange
        refine .inl ⟨dev, hdev, .inr ⟨old, hold, hkey.symm, ?_⟩⟩
        simpa [or_comm] using hchange
      · rw [mergeCached_lost now hgone] at hchange
        exact .inr ⟨old, hold, hchange, hgone⟩
    · exact .inl ⟨dev, hdev, .inl hnew⟩
  · rintro (⟨dev, hdev, hnew | ⟨old, hold, hkey, hchange⟩⟩ | ⟨old, hold, havailable, hgone⟩)
    · exact .inr ⟨dev, hdev, hnew⟩
    · refine .inl ⟨old, hold, ?_⟩
      rw [mergeCached_seen h now hdev hkey.symm]
      simpa [or_comm] using hchange
    · refine .inl ⟨old, hold, ?_⟩
      rw [mergeCached_lost now hgone]
      exact havailable

private theorem mergeCached_of_mem_merge (now' : Nat) {x : DiscoveredDevice}
    (hx : x ∈ (mergeScanIntoCache now existing scanned).1) :
    mergeCached now' (assign ∅ deviceKey id scanned) x = (x, false) := by
  rcases of_mem_merge h now hx with ⟨dev, hdev, rfl⟩ | ⟨old, hgone, rfl⟩
  · rw [mergeCached_seen h now' hdev (deviceKey_seen dev).symm]
    simp [seen]
  · rw [← deviceKey_lost now old] at hgone
    rw [mergeCached_lost now' hgone]
    rfl

private theorem merge_merge (now' : Nat) :
    mergeScanIntoCache now' (mergeScanIntoCache now existing scanned).1 scanned =
      ((mergeScanIntoCache now existing scanned).1, false) := by
  have hkeys := identities_merge h now existing
  have hcached : ∀ x ∈ (mergeScanIntoCache now existing scanned).1,
      mergeCached now' (assign ∅ deviceKey id scanned) x = (x, false) :=
    fun x hx => mergeCached_of_mem_merge h now now' hx
  generalize (mergeScanIntoCache now existing scanned).1 = merged at hkeys hcached ⊢
  have hmap : merged.map (mergeCached now' (assign ∅ deviceKey id scanned)) =
      merged.map fun x => (x, false) := List.map_congr_left hcached
  have hnew : (scanned.filter fun dev => deviceKey dev ∉ merged.map deviceKey) = [] := by
    refine List.filter_eq_nil_iff.mpr fun dev hdev => ?_
    simpa using (hkeys _).mpr (.inr (List.mem_map_of_mem hdev))
  unfold mergeScanIntoCache
  dsimp only
  rw [hmap, hnew]
  simp [Function.comp_def]

end Entries

/-- Merging a scan into a cache, both with distinct identities, yields one entry for each identity
and a flag that says whether anything has changed; merging it again at any time changes nothing. -/
theorem merge_exact_idempotent (now : Nat) (existing scanned : List DiscoveredDevice)
    (hexisting : (existing.map deviceKey).Nodup) (hscanned : (scanned.map deviceKey).Nodup) :
    Merged now existing scanned (mergeLoops now existing scanned).1
        (mergeLoops now existing scanned).2 ∧
      ∀ now', mergeLoops now' (mergeLoops now existing scanned).1 scanned =
        ((mergeLoops now existing scanned).1, false) := by
  simp only [mergeLoops_eq]
  refine ⟨⟨distinct_merge hscanned now hexisting, identities_merge hscanned now existing, ?_, ?_,
    changed_merge_iff hscanned now⟩, merge_merge hscanned now⟩
  · exact fun dev hdev => seen_mem_merge hscanned now hdev
  · exact fun old hold hgone => lost_mem_merge now hold hgone

/-- One device has moved to another port, one is gone and one is new. -/
theorem merge_exact_idempotent_moved :
    let existing : List DiscoveredDevice :=
      [⟨"/dev/bus/usb/001/002", "S1", "node-a", 10, true⟩,
       ⟨"/dev/bus/usb/001/003", "S2", "node-a", 10, true⟩]
    let scanned : List DiscoveredDevice :=
      [⟨"/dev/bus/usb/001/007", "S1", "node-a", 70, true⟩,
       ⟨"/dev/bus/usb/001/004", "", "node-a", 70, true⟩]
    mergeLoops 71 existing scanned =
        ([⟨"/dev/bus/usb/001/007", "S1", "node-a", 70, true⟩,
          ⟨"/dev/bus/usb/001/003", "S2", "node-a", 71, false⟩,
          ⟨"/dev/bus/usb/001/004", "", "node-a", 70, true⟩], true) ∧
      Merged 71 existing scanned (mergeLoops 71 existing scanned).1
        (mergeLoops 71 existing scanned).2 := by
  intro existing scanned
  exact ⟨by decide, (merge_exact_idempotent 71 existing scanned (by decide) (by decide)).1⟩

end HsmSecretsOperator.Discovery.Merge
