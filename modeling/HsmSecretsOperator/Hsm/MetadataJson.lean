/- source: internal/hsm/client.go, internal/hsm/pkcs11_client.go
   digest: The JSON encoding in which metadata is stored on a token, and its round trip. -/

import HsmSecretsOperator.Foundation.Json
import HsmSecretsOperator.Foundation.Maps
import HsmSecretsOperator.Hsm.Secret

/-! `json.Unmarshal` matches field names up to case, skips unknown fields and leaves a string alone
    at `null`. -/

set_option autoImplicit false

namespace HsmSecretsOperator.Hsm.MetadataJson

open Foundation.Json Foundation.Maps Foundation.Text Secret

/-- A field of the struct: a text or the map of labels. -/
inductive Field where
  | text (s : String)
  | labels (l : Labels)

def Field.omit : Field → Bool
  | .text s => s = ""
  | .labels l => l.isEmpty

def Field.render : Field → List Char
  | .text s => quote s
  | .labels l => renderObject (l.toList.map fun e => (e.1, quote e.2))

/-- The fields under their JSON names. -/
def fields (m : SecretMetadata) : List (String × Field) :=
  [("description", .text m.description), ("labels", .labels m.labels), ("format", .text m.format),
   ("dataType", .text m.dataType), ("createdAt", .text m.createdAt), ("source", .text m.source)]

/-- `json.Marshal` of the metadata. -/
def marshal (m : SecretMetadata) : Bytes :=
  utf8 <| String.ofList <| renderObject <|
    ((fields m).filter fun f => !f.2.omit).map fun f => (f.1, f.2.render)

/-- Case folding of field names: ASCII letters, and the two characters that fold to one. -/
def foldChar (c : Char) : Char :=
  if c = 'ſ' then 'S' else if c = 'K' then 'K' else c.toUpper

def sameName (a b : String) : Bool := a.toList.map foldChar = b.toList.map foldChar

/-- A string field: `null` leaves it as it is. -/
def decodeText (old : String) : Value → Option String
  | .str s => some s
  | .null => some old
  | _ => none

def decodeLabel (l : Labels) (e : String × Value) : Option Labels :=
  (decodeText "" e.2).map fun s => l.insert e.1 s

/-- The labels: members are added to the map there is, `null` empties it. -/
def decodeLabels (old : Labels) : Value → Option Labels
  | .obj members => members.foldlM decodeLabel old
  | .null => some ∅
  | _ => none

inductive Slot where
  | description
  | labels
  | format
  | dataType
  | createdAt
  | source
  deriving DecidableEq

def slotNames : List (String × Slot) :=
  [("description", .description), ("labels", .labels), ("format", .format),
   ("dataType", .dataType), ("createdAt", .createdAt), ("source", .source)]

def slotOf (name : String) : Option Slot :=
  (slotNames.find? fun e => sameName name e.1).map Prod.snd

def decodeField (m : SecretMetadata) (f : String × Value) : Option SecretMetadata :=
  match slotOf f.1 with
  | some .description => (decodeText m.description f.2).map fun s => { m with description := s }
  | some .labels => (decodeLabels m.labels f.2).map fun l => { m with labels := l }
  | some .format => (decodeText m.format f.2).map fun s => { m with format := s }
  | some .dataType => (decodeText m.dataType f.2).map fun s => { m with dataType := s }
  | some .createdAt => (decodeText m.createdAt f.2).map fun s => { m with createdAt := s }
  | some .source => (decodeText m.source f.2).map fun s => { m with source := s }
  | none => some m

/-- `json.Unmarshal` into a fresh struct; `none` when it reports an error. -/
def unmarshal (bytes : Bytes) : Option SecretMetadata :=
  match parse (decodeUtf8 bytes) with
  | some (.obj members) => members.foldlM decodeField {}
  | some .null => some {}
  | _ => none

def Field.value : Field → Value
  | .text s => .str s
  | .labels l => .obj (l.toList.map fun e => (e.1, .str e.2))

private theorem Field.renders (f : Field) : Renders 1 f.render f.value := by
  cases f with
  | text s => exact (renders_quote s).mono (by omega)
  | labels l =>
    exact renders_object Prod.fst (fun e => quote e.2) (fun e => .str e.2) l.toList
      fun e _ => renders_quote e.2

private theorem foldlM_decodeLabel (es : List (String × String)) (l : Labels) :
    (es.map fun e => (e.1, Value.str e.2)).foldlM decodeLabel l =
      some (assign l Prod.fst Prod.snd es) := by
  induction es generalizing l with
  | nil => rfl
  | cons e es ih => exact ih (l.insert e.1 e.2)

private theorem decodeLabels_value (l : Labels) :
    decodeLabels ∅ (.obj (l.toList.map fun e => (e.1, .str e.2))) = some l := by
  rw [decodeLabels, foldlM_decodeLabel, assign_of_perm_toList l (.refl _)]

/-- The members that decoding sees: the fields that were not left out. -/
private def members (fs : List (String × Field)) : List (String × Value) :=
  (fs.filter fun f => !f.2.omit).map fun f => (f.1, f.2.value)

-- Leaving a field out is harmless when its value is the zero value it starts from.
private theorem foldlM_members_cons {m : SecretMetadata} (m' : SecretMetadata) {name : String}
    {f : Field} (fs : List (String × Field)) (h : decodeField m (name, f.value) = some m')
    (hzero : f.omit = true → m' = m) :
    (members ((name, f) :: fs)).foldlM decodeField m = (members fs).foldlM decodeField m' := by
  by_cases homit : f.omit = true
  · rw [hzero homit]
    simp [members, homit]
  · simp [members, homit, h]

private theorem omit_text {s : String} (h : (Field.text s).omit = true) : s = "" :=
  of_decide_eq_true h

private theorem omit_labels {l : Labels} (h : (Field.labels l).omit = true) : l = ∅ :=
  Std.ExtTreeMap.isEmpty_iff.mp h

private theorem slotOf_names : slotOf "description" = some .description ∧
    slotOf "labels" = some .labels ∧ slotOf "format" = some .format ∧
    slotOf "dataType" = some .dataType ∧ slotOf "createdAt" = some .createdAt ∧
    slotOf "source" = some .source := by
  decide

private theorem foldlM_members_fields (m : SecretMetadata) :
    (members (fields m)).foldlM decodeField {} = some m := by
  obtain ⟨hdesc, hlabels, hformat, htype, hcreated, hsource⟩ := slotOf_names
  cases m with
  | mk description labels format dataType createdAt source =>
    dsimp only [fields]
    rw [foldlM_members_cons { description } _
        (by simp [decodeField, hdesc, Field.value, decodeText]) fun h => by rw [omit_text h],
      foldlM_members_cons { description, labels } _
        (by simp [decodeField, hlabels, Field.value, decodeLabels_value])
        fun h => by rw [omit_labels h],
      foldlM_members_cons { description, labels, format } _
        (by simp [decodeField, hformat, Field.value, decodeText]) fun h => by rw [omit_text h],
      foldlM_members_cons { description, labels, format, dataType } _
        (by simp [decodeField, htype, Field.value, decodeText]) fun h => by rw [omit_text h],
      foldlM_members_cons { description, labels, format, dataType, createdAt } _
        (by simp [decodeField, hcreated, Field.value, decodeText]) fun h => by rw [omit_text h],
      foldlM_members_cons { description, labels, format, dataType, createdAt, source } _
        (by simp [decodeField, hsource, Field.value, decodeText]) fun h => by rw [omit_text h]]
    rfl

theorem unmarshal_marshal (m : SecretMetadata) : unmarshal (marshal m) = some m := by
  have hrender := renders_object Prod.fst (fun f : String × Field => f.2.render)
    (fun f => f.2.value) ((fields m).filter fun f => !f.2.omit) fun f _ => f.2.renders
  have hparse := parse_of_renders hrender (by decide)
  simp only [unmarshal, marshal, decodeUtf8_utf8, String.toList_ofList, hparse]
  exact foldlM_members_fields m

end HsmSecretsOperator.Hsm.MetadataJson
